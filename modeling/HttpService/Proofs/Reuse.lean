import HttpService.Proofs.Accounting

/-! What a server makes that dispatches one request after another. What it has made for the first one is used again for
the others, if there is room to keep it. -/

namespace HttpService

namespace Occupancy

/-- At no time has there been more than one dispatch in progress. -/
def Alone (events : List PoolEvent) : Prop := ∀ occupancy, after? events = some occupancy → occupancy.deepest ≤ 1

theorem next?_taken {occupancy later : Occupancy} (happens : occupancy.next? .taken = some later) :
    later = ⟨occupancy.inProgress + 1, max occupancy.deepest (occupancy.inProgress + 1)⟩ :=
  (Option.some.inj happens).symm

theorem next?_returned {occupancy later : Occupancy} (happens : occupancy.next? .returned = some later) :
    occupancy.inProgress = later.inProgress + 1 ∧ later.deepest = occupancy.deepest := by
  obtain ⟨inProgress, deepest⟩ := occupancy
  cases inProgress with
  | zero => simp [next?] at happens
  | succ inProgress =>
      obtain rfl := Option.some.inj happens
      exact ⟨rfl, rfl⟩

theorem deepest_le_of_foldlM {events : List PoolEvent} {occupancy later : Occupancy}
    (happen : events.foldlM next? occupancy = some later) : occupancy.deepest ≤ later.deepest := by
  induction events generalizing occupancy with
  | nil =>
      obtain rfl := Option.some.inj happen
      exact Nat.le_refl _
  | cons event rest ih =>
      obtain ⟨between, first, rest⟩ := Option.bind_eq_some_iff.mp happen
      have later := ih rest
      cases event with
      | taken =>
          obtain rfl := next?_taken first
          simp only at later
          omega
      | returned =>
          have same := (next?_returned first).2
          omega

theorem deepest_of_taken {events : List PoolEvent} {occupancy later : Occupancy} (taken : .taken ∈ events)
    (happen : events.foldlM next? occupancy = some later) : 1 ≤ later.deepest := by
  induction events generalizing occupancy with
  | nil => simp at taken
  | cons event rest ih =>
      obtain ⟨between, first, after⟩ := Option.bind_eq_some_iff.mp happen
      rcases List.mem_cons.mp taken with rfl | later
      · obtain rfl := next?_taken first
        have deeper := deepest_le_of_foldlM after
        simp only at deeper
        omega
      · exact ih later after

theorem Alone.earlier {events earlier : List PoolEvent} (alone : Alone events) {last : Occupancy}
    (happened : after? events = some last) (before : earlier <+: events) :
    ∃ occupancy, after? earlier = some occupancy ∧ occupancy.deepest ≤ 1 := by
  obtain ⟨rest, rfl⟩ := before
  have shallow := alone last happened
  rw [after?_append] at happened
  obtain ⟨between, first, after⟩ := Option.bind_eq_some_iff.mp happened
  exact ⟨between, first, Nat.le_trans (deepest_le_of_foldlM after) shallow⟩

end Occupancy

namespace Pools

/-- How many instances of each kind have been made. -/
structure Created where
  request : Nat
  response : Nat
  adapter : Nat
  fields : Nat
  url : Nat
deriving DecidableEq

def created (pools : Pools) : Created :=
  ⟨pools.request.created, pools.response.created, pools.adapter.created, pools.fields.created, pools.url.created⟩

def Created.forOne (limits : PoolLimits) : Created :=
  let made := max (min limits.prewarm limits.capacity) 1
  ⟨made, made, made, 2 * made, made⟩

theorem Accounts.created_eq {limits : PoolLimits} {occupancy : Occupancy} {pools : Pools}
    (accounts : pools.Accounts limits occupancy) (positive : 1 ≤ limits.capacity) (one : occupancy.deepest = 1) :
    pools.created = .forOne limits := by
  obtain ⟨request, response, adapter, fields, url⟩ := accounts
  rw [one] at request response adapter fields url
  have both := (fields.exact (by omega)).2
  simp only [created, Created.forOne, Created.mk.injEq]
  refine ⟨(request.exact positive).2, (response.exact positive).2, (adapter.exact positive).2, ?_,
    (url.exact positive).2⟩
  omega

theorem created_afterAll {limits : PoolLimits} (positive : 1 ≤ limits.capacity) {pools : Pools}
    (reserved : reserve limits = .ok pools) {events : List PoolEvent} (taken : .taken ∈ events)
    {occupancy : Occupancy} (happen : Occupancy.after? events = some occupancy) (alone : occupancy.deepest ≤ 1) :
    (pools.afterAll events).created = .forOne limits := by
  have books := (accounts_of_reserve positive reserved).afterAll happen
  exact books.created_eq positive (Nat.le_antisymm alone (Occupancy.deepest_of_taken taken happen))

def nextFields (fields : Pool FieldsView) : PoolEvent → Pool FieldsView
  | .taken => ((fields.checkout .unbound).2.checkout .unbound).2
  | .returned => (fields.checkin .unbound).checkin .unbound

theorem afterAll_withFields (pools : Pools) (fields : Pool FieldsView) (events : List PoolEvent) :
    { pools with fields := fields }.afterAll events =
      { pools.afterAll events with fields := events.foldl nextFields fields } := by
  induction events generalizing pools fields with
  | nil => rfl
  | cons event rest ih =>
      have step : { pools with fields := fields }.next event =
          { pools.next event with fields := nextFields fields event } := by
        cases event <;> rfl
      rw [afterAll, List.foldl_cons, step]
      exact ih (pools.next event) (nextFields fields event)

/-- A pool of fields with room for one instance, of which each dispatch needs two. -/
structure Scant (occupancy : Occupancy) (dispatches : Nat) (fields : Pool FieldsView) : Prop where
  size : fields.capacity = 1
  within : fields.idle.length ≤ 1
  made : dispatches = 0 ∧ occupancy.inProgress = 0 ∧ fields.created = fields.idle.length ∨
    1 ≤ dispatches ∧ fields.created = dispatches + 1 ∧ fields.idle.length + occupancy.inProgress = 1

theorem Scant.taken {occupancy later : Occupancy} {dispatches : Nat} {fields : Pool FieldsView}
    (scant : Scant occupancy dispatches fields) (happens : occupancy.next? .taken = some later)
    (alone : later.deepest ≤ 1) : Scant later (dispatches + 1) (nextFields fields .taken) := by
  obtain ⟨size, within, made⟩ := scant
  obtain rfl := Occupancy.next?_taken happens
  obtain ⟨capacity, idle, count⟩ := fields
  simp only at size within made alone
  match idle with
  | [] =>
      refine ⟨size, Nat.zero_le _, .inr ⟨by omega, ?_, ?_⟩⟩ <;>
        simp only [nextFields, Pool.checkout, List.length_nil] at made ⊢ <;> omega
  | [waiting] =>
      refine ⟨size, Nat.zero_le _, .inr ⟨by omega, ?_, ?_⟩⟩ <;>
        simp only [nextFields, Pool.checkout, List.length_nil, List.length_singleton] at made ⊢ <;> omega
  | _ :: _ :: _ => simp at within

theorem Scant.returned {occupancy later : Occupancy} {dispatches : Nat} {fields : Pool FieldsView}
    (scant : Scant occupancy dispatches fields) (happens : occupancy.next? .returned = some later) :
    Scant later dispatches (nextFields fields .returned) := by
  obtain ⟨size, within, made⟩ := scant
  obtain ⟨before, _⟩ := Occupancy.next?_returned happens
  obtain ⟨capacity, idle, count⟩ := fields
  simp only at size within made
  obtain rfl : capacity = 1 := size
  match idle with
  | [] =>
      have kept : nextFields ⟨1, [], count⟩ .returned = ⟨1, [.unbound], count⟩ := rfl
      rw [kept]
      refine ⟨rfl, Nat.le_refl 1, .inr ?_⟩
      simp only [List.length_nil, List.length_singleton] at made ⊢
      omega
  | [waiting] =>
      simp only [List.length_singleton] at made
      omega
  | _ :: _ :: _ => simp at within

theorem Scant.afterAll {occupancy later : Occupancy} {dispatches : Nat} {fields : Pool FieldsView}
    (scant : Scant occupancy dispatches fields) {events : List PoolEvent}
    (happen : events.foldlM Occupancy.next? occupancy = some later) (alone : later.deepest ≤ 1) :
    Scant later (dispatches + events.count .taken) (events.foldl nextFields fields) := by
  induction events generalizing occupancy dispatches fields with
  | nil =>
      obtain rfl := Option.some.inj happen
      exact scant
  | cons event rest ih =>
      obtain ⟨between, first, after⟩ := Option.bind_eq_some_iff.mp happen
      have shallow := Nat.le_trans (Occupancy.deepest_le_of_foldlM after) alone
      cases event with
      | taken =>
          have counted := ih (scant.taken first shallow) after
          rw [List.count_cons_self, Nat.add_comm (rest.count _), ← Nat.add_assoc]
          exact counted
      | returned =>
          have counted := ih (scant.returned first) after
          rw [List.count_cons_of_ne (by decide)]
          exact counted

theorem scant_new (prewarm : Nat) : Scant ⟨0, 0⟩ 0 (new ⟨0, prewarm⟩).fields := by
  have made : (new ⟨0, prewarm⟩).fields = (Pool.new 0).prewarm (doubled prewarm) .unbound := rfl
  rw [made]
  refine ⟨rfl, ?_, .inl ⟨rfl, rfl, ?_⟩⟩ <;>
    simp only [Pool.new, Pool.prewarm, List.nil_append, List.length_replicate] <;> omega

theorem created_afterAll_of_no_capacity (prewarm : Nat) {events : List PoolEvent} (taken : .taken ∈ events)
    {occupancy : Occupancy} (happen : Occupancy.after? events = some occupancy) (alone : occupancy.deepest ≤ 1) :
    ((new ⟨0, prewarm⟩).afterAll events).created =
      { Created.forOne ⟨1, prewarm⟩ with fields := events.count .taken + 1 } := by
  have others : new ⟨0, prewarm⟩ = { new ⟨1, prewarm⟩ with fields := (new ⟨0, prewarm⟩).fields } := rfl
  have room : 1 * placeSize ≤ Allocation.most := by decide
  have reserved : reserve ⟨1, prewarm⟩ = .ok (new ⟨1, prewarm⟩) := reserve_eq_ok_iff.mpr ⟨room, rfl⟩
  have roomy := created_afterAll (Nat.le_refl 1) reserved taken happen alone
  have once : 1 ≤ events.count .taken := List.one_le_count_iff.mpr taken
  rcases ((scant_new prewarm).afterAll happen alone).made with ⟨never, _⟩ | ⟨_, made, _⟩
  · omega
  · rw [Nat.zero_add] at made
    rw [others, afterAll_withFields, ← roomy]
    simp only [created, made]

/-- As long as no dispatch begins inside of another one, a server with any capacity has made with its first dispatch all
that it ever makes, whatever has been made ahead of time and whichever handlers panic. Without any capacity it makes one
more view of fields for each later dispatch, and nothing else. -/
theorem created_afterNoting {σ τ : Type} [Sink σ] {limits : PoolLimits} {pools : Pools}
    (reserved : reserve limits = .ok pools) (errands : List (Errand σ τ)) (log : List LogEntry) (memory : τ)
    (alone : Occupancy.Alone (Observation.events
      (World.afterNoting ⟨some pools, log, (memory, [])⟩ errands).memory.2)) :
    let outcome : World (τ × List (Observation σ)) := World.afterNoting ⟨some pools, log, (memory, [])⟩ errands
    let events := Observation.events outcome.memory.2
    let first := (pools.afterAll [.taken, .returned]).created
    outcome.forget = World.after ⟨some pools, log, memory⟩ errands ∧
      outcome.pools = some (pools.afterAll events) ∧
      (∀ front answer back, outcome.memory.2 = front ++ .performed .poolStats answer :: back →
        answer = some (pools.afterAll (Observation.events front)).stats) ∧
      ∀ earlier, earlier <+: events → .taken ∈ earlier →
        (1 ≤ limits.capacity → (pools.afterAll earlier).created = first) ∧
        (limits.capacity = 0 → (pools.afterAll earlier).created =
          { first with fields := first.fields + (earlier.count .taken - 1) }) := by
  intro outcome events first
  have opened : World.Tracks pools 0 (⟨some pools, log, (memory, [])⟩ : World (τ × List (Observation σ))) :=
    ⟨rfl, ⟨0, rfl⟩, by simp⟩
  obtain ⟨final, ⟨deepest, happened⟩, told⟩ := opened.afterNoting errands
  refine ⟨World.forget_afterNoting _ errands, final, told, fun earlier before taken => ⟨fun positive => ?_, ?_⟩⟩
  · obtain ⟨occupancy, happen, shallow⟩ := alone.earlier happened before
    rw [created_afterAll positive reserved taken happen shallow]
    exact (created_afterAll positive reserved (by simp) rfl (Nat.le_refl 1)).symm
  · intro none
    obtain ⟨occupancy, happen, shallow⟩ := alone.earlier happened before
    obtain ⟨capacity, prewarm⟩ := limits
    obtain rfl : capacity = 0 := none
    obtain ⟨_, rfl⟩ := reserve_eq_ok_iff.mp reserved
    have once : 1 ≤ earlier.count .taken := List.one_le_count_iff.mpr taken
    have made : first = { Created.forOne ⟨1, prewarm⟩ with fields := 2 } :=
      created_afterAll_of_no_capacity prewarm (by simp) rfl (Nat.le_refl 1)
    have more : earlier.count .taken + 1 = 2 + (earlier.count .taken - 1) := by omega
    rw [created_afterAll_of_no_capacity prewarm taken happen shallow, made, more]

/-- One place for each kind: of three dispatches the second panics, and the third asks how the pools fare. -/
theorem created_afterNoting_one_place :
    let limits : PoolLimits := { capacity := 1, prewarm := 3 }
    let pools := Pools.new limits
    let writer : Writer Recorder := ⟨.empty, ⟨{}, none, none, [], 0, 0⟩⟩
    let asking : Program Recorder Unit := .call .poolStats fun _ => .succeed
    let errands : List (Errand Recorder Unit) :=
      [⟨.blank, writer, .succeed, .full⟩, ⟨.blank, writer, .panic "midway", .full⟩, ⟨.blank, writer, asking, .full⟩]
    let outcome : World (Unit × List (Observation Recorder)) := World.afterNoting ⟨some pools, [], ((), [])⟩ errands
    let events := Observation.events outcome.memory.2
    reserve limits = .ok pools ∧ Occupancy.Alone events ∧
      events = [.taken, .returned, .taken, .returned, .taken, .returned] ∧
      (pools.afterAll [.taken, .returned]).created = ⟨1, 1, 1, 2, 1⟩ ∧
      ∃ now, outcome.pools = some now ∧ now.created = ⟨1, 1, 1, 2, 1⟩ := by
  intro limits pools writer asking errands outcome events
  have reserved : reserve limits = .ok pools := reserve_eq_ok_iff.mpr ⟨by decide, rfl⟩
  have happened : events = [.taken, .returned, .taken, .returned, .taken, .returned] := by decide +kernel
  have alone : Occupancy.Alone events := by
    rw [happened]
    intro occupancy after
    obtain rfl : ⟨0, 1⟩ = occupancy := Option.some.inj after
    exact Nat.le_refl 1
  have first : (pools.afterAll [.taken, .returned]).created = ⟨1, 1, 1, 2, 1⟩ := by decide +kernel
  obtain ⟨_, final, _, same⟩ := created_afterNoting reserved errands [] () alone
  have settled := (same events ⟨[], List.append_nil _⟩ (by simp [happened])).1 (Nat.le_refl 1)
  exact ⟨reserved, alone, happened, first, _, final, settled.trans first⟩

/-- Without any capacity three dispatches of a handler that does nothing make two, three and four views of fields. -/
theorem created_after_of_no_capacity :
    let limits : PoolLimits := { capacity := 0 }
    let pools := Pools.new limits
    let writer : Writer Recorder := ⟨.empty, ⟨{}, none, none, [], 0, 0⟩⟩
    let errand : Errand Recorder Unit := ⟨.blank, writer, .succeed, .full⟩
    let made (count : Nat) : Option Created :=
      ((World.after ⟨some pools, [], ()⟩ (List.replicate count errand)).pools.map created)
    reserve limits = .ok pools ∧ made 1 = some ⟨1, 1, 1, 2, 1⟩ ∧ made 2 = some ⟨1, 1, 1, 3, 1⟩ ∧
      made 3 = some ⟨1, 1, 1, 4, 1⟩ :=
  ⟨reserve_eq_ok_iff.mpr ⟨by decide, rfl⟩, by decide +kernel, by decide +kernel, by decide +kernel⟩

end Pools

end HttpService
