import HttpService.Proofs.Isolation

/-! What the pools of a server hold, at every moment of dispatches that stand one inside the other and may panic
anywhere. -/

namespace HttpService

/-- The views for one dispatch are taken, or all of them come back. -/
inductive PoolEvent
  | taken
  | returned
deriving DecidableEq

structure Occupancy where
  inProgress : Nat
  deepest : Nat
deriving DecidableEq

namespace Occupancy

def next? (occupancy : Occupancy) : PoolEvent → Option Occupancy
  | .taken => some ⟨occupancy.inProgress + 1, max occupancy.deepest (occupancy.inProgress + 1)⟩
  | .returned => if occupancy.inProgress = 0 then none else some ⟨occupancy.inProgress - 1, occupancy.deepest⟩

def after? (events : List PoolEvent) : Option Occupancy := events.foldlM next? ⟨0, 0⟩

theorem after?_append (events later : List PoolEvent) :
    after? (events ++ later) = (after? events).bind fun occupancy => later.foldlM next? occupancy := by
  rw [after?, List.foldlM_append]
  rfl

end Occupancy

structure Pool.Accounts {α : Type} (plain : α) (capacity warmed inUse most : Nat) (pool : Pool α) : Prop where
  size : pool.capacity = capacity
  bounded : warmed ≤ capacity
  reached : inUse ≤ most
  within : pool.idle.length ≤ capacity
  enough : pool.idle.length + inUse ≤ pool.created
  exact : most ≤ capacity → pool.created = pool.idle.length + inUse ∧ pool.created = max warmed most
  unbound : ∀ idle ∈ pool.idle, idle = plain

namespace Pool.Accounts

variable {α : Type} {plain : α} {capacity warmed inUse most : Nat} {pool : Pool α}

theorem new (plain : α) {limit : Nat} (positive : 1 ≤ limit) (prewarm : Nat) :
    Accounts plain limit (min prewarm limit) 0 0 ((Pool.new limit).prewarm prewarm plain) where
  size := Nat.max_eq_left positive
  bounded := Nat.min_le_right _ _
  reached := Nat.le_refl 0
  within := by
    simp only [Pool.new, Pool.prewarm, List.nil_append, List.length_replicate, Nat.max_eq_left positive]
    exact Nat.min_le_right _ _
  enough := by simp [Pool.new, Pool.prewarm]
  exact := by simp [Pool.new, Pool.prewarm, Nat.max_eq_left positive]
  unbound := by
    intro idle member
    simp only [Pool.new, Pool.prewarm, List.nil_append] at member
    exact List.eq_of_mem_replicate member

theorem checkout (accounts : pool.Accounts plain capacity warmed inUse most) :
    (pool.checkout plain).2.Accounts plain capacity warmed (inUse + 1) (max most (inUse + 1)) := by
  obtain ⟨size, bounded, reached, within, enough, exact, unbound⟩ := accounts
  cases waiting : pool.idle with
  | nil =>
      rw [waiting, List.length_nil] at enough exact
      have made : (pool.checkout plain).2 = { pool with created := pool.created + 1 } := by
        simp only [Pool.checkout, waiting]
      rw [made]
      refine ⟨size, bounded, by omega, within, ?_, ?_, unbound⟩ <;> simp only [waiting, List.length_nil]
      · omega
      · intro small
        have known := exact (by omega)
        omega
  | cons oldest rest =>
      rw [waiting, List.length_cons] at within enough exact
      have taken : (pool.checkout plain).2 = { pool with idle := rest } := by simp only [Pool.checkout, waiting]
      rw [taken]
      refine ⟨size, bounded, by omega, ?_, ?_, ?_, fun idle member => unbound idle (by simp [waiting, member])⟩ <;>
        simp only
      · omega
      · omega
      · intro small
        have known := exact (by omega)
        omega

theorem checkin (accounts : pool.Accounts plain capacity warmed (inUse + 1) most) :
    (pool.checkin plain).Accounts plain capacity warmed inUse most := by
  obtain ⟨size, bounded, reached, within, enough, exact, unbound⟩ := accounts
  by_cases room : pool.idle.length < capacity
  · have kept : pool.checkin plain = { pool with idle := pool.idle ++ [plain] } := by
      simp only [Pool.checkin, size, room, ↓reduceIte]
    rw [kept]
    refine ⟨size, bounded, by omega, ?_, ?_, ?_, ?_⟩ <;>
      simp only [List.length_append, List.length_singleton]
    · omega
    · omega
    · intro small
      have known := exact small
      omega
    · intro idle member
      rcases List.mem_append.mp member with before | last
      · exact unbound idle before
      · exact List.mem_singleton.mp last
  · have dropped : pool.checkin plain = pool := by simp only [Pool.checkin, size, room, ↓reduceIte]
    rw [dropped]
    refine ⟨size, bounded, by omega, within, by omega, ?_, unbound⟩
    intro small
    have known := exact small
    omega

end Pool.Accounts

namespace Pools

def next (pools : Pools) : PoolEvent → Pools
  | .taken => pools.checkout.2
  | .returned => pools.checkin .fresh

def afterAll (pools : Pools) (events : List PoolEvent) : Pools := events.foldl next pools

/-- Each dispatch has two views of fields in use, and one of everything else. -/
structure Accounts (limits : PoolLimits) (occupancy : Occupancy) (pools : Pools) : Prop where
  request : pools.request.Accounts .unbound limits.capacity (min limits.prewarm limits.capacity) occupancy.inProgress
    occupancy.deepest
  response : pools.response.Accounts .unbound limits.capacity (min limits.prewarm limits.capacity)
    occupancy.inProgress occupancy.deepest
  adapter : pools.adapter.Accounts .unbound limits.capacity (min limits.prewarm limits.capacity) occupancy.inProgress
    occupancy.deepest
  fields : pools.fields.Accounts .unbound (2 * limits.capacity) (2 * min limits.prewarm limits.capacity)
    (2 * occupancy.inProgress) (2 * occupancy.deepest)
  url : pools.url.Accounts .unbound limits.capacity (min limits.prewarm limits.capacity) occupancy.inProgress
    occupancy.deepest

theorem reserve_eq_ok_iff {limits : PoolLimits} {pools : Pools} :
    reserve limits = .ok pools ↔ limits.capacity * placeSize ≤ Allocation.most ∧ pools = new limits := by
  by_cases fits : limits.capacity * placeSize ≤ Allocation.most
  · have granted : reserve limits = .ok (new limits) := by
      rw [reserve, Allocation.reserve_of_le fits]
      rfl
    rw [granted, Except.ok.injEq, eq_comm]
    exact ⟨fun same => ⟨fits, same⟩, And.right⟩
  · simp [reserve, Allocation.reserve, fits, Nat.lt_of_not_le fits, bind, Except.bind]

section

variable {size : Nat} (fits : size * placeSize ≤ Allocation.most)

include fits

theorem doubled_of_fits : doubled size = 2 * size := by
  simp only [placeSize, Allocation.most] at fits
  simp only [doubled, UInt64.size]
  omega

theorem min_doubled_of_fits (count : Nat) : min (doubled count) (2 * size) = 2 * min count size := by
  have twice := doubled_of_fits fits
  simp only [doubled, UInt64.size] at twice ⊢
  omega

end

theorem accounts_of_reserve {limits : PoolLimits} (positive : 1 ≤ limits.capacity) {pools : Pools}
    (reserved : reserve limits = .ok pools) : pools.Accounts limits ⟨0, 0⟩ := by
  obtain ⟨fits, rfl⟩ := reserve_eq_ok_iff.mp reserved
  have fields := Pool.Accounts.new FieldsView.unbound (show 1 ≤ 2 * limits.capacity by omega) (doubled limits.prewarm)
  rw [min_doubled_of_fits fits, ← doubled_of_fits fits] at fields
  refine ⟨.new _ positive _, .new _ positive _, .new _ positive _, ?_, .new _ positive _⟩
  rw [← doubled_of_fits fits]
  exact fields

theorem Accounts.next {limits : PoolLimits} {occupancy later : Occupancy} {pools : Pools}
    (accounts : pools.Accounts limits occupancy) {event : PoolEvent} (happens : occupancy.next? event = some later) :
    (pools.next event).Accounts limits later := by
  obtain ⟨request, response, adapter, fields, url⟩ := accounts
  cases event with
  | taken =>
      obtain rfl := Option.some.inj happens
      refine ⟨request.checkout, response.checkout, adapter.checkout, ?_, url.checkout⟩
      have both := fields.checkout.checkout
      rw [show max (max (2 * occupancy.deepest) (2 * occupancy.inProgress + 1)) (2 * occupancy.inProgress + 1 + 1) =
        2 * max occupancy.deepest (occupancy.inProgress + 1) by omega] at both
      exact both
  | returned =>
      obtain ⟨inProgress, deepest⟩ := occupancy
      cases inProgress with
      | zero => simp [Occupancy.next?] at happens
      | succ inProgress =>
          obtain rfl := Option.some.inj happens
          exact ⟨request.checkin, response.checkin, adapter.checkin, fields.checkin.checkin, url.checkin⟩

theorem Accounts.afterAll {limits : PoolLimits} {occupancy later : Occupancy} {pools : Pools}
    (accounts : pools.Accounts limits occupancy) {events : List PoolEvent}
    (happen : events.foldlM Occupancy.next? occupancy = some later) :
    (pools.afterAll events).Accounts limits later := by
  induction events generalizing occupancy pools with
  | nil =>
      obtain rfl := Option.some.inj happen
      exact accounts
  | cons event rest ih =>
      obtain ⟨between, first, rest⟩ := Option.bind_eq_some_iff.mp happen
      exact ih (accounts.next first) rest

end Pools

namespace Observation

variable {σ : Type}

def event? : Observation σ → Option PoolEvent
  | .entered => some .taken
  | .left => some .returned
  | _ => none

def events (known : List (Observation σ)) : List PoolEvent := known.filterMap event?

theorem events_concat (known : List (Observation σ)) (observation : Observation σ) :
    events (known ++ [observation]) = events known ++ observation.event?.toList := by
  cases found : observation.event? <;> simp [events, List.filterMap_append, found]

end Observation

namespace World

variable {σ τ κ : Type} {start : Pools} {inProgress : Nat}

/-- The pools are where the events that have been noted have brought them, and whoever has asked how they fare has been
told what the events up to then have brought about. -/
structure Tracks (start : Pools) (inProgress : Nat) (world : World (τ × List (Observation σ))) : Prop where
  pools : world.pools = some (start.afterAll (Observation.events world.memory.2))
  occupancy : ∃ deepest, Occupancy.after? (Observation.events world.memory.2) = some ⟨inProgress, deepest⟩
  told : ∀ front answer back, world.memory.2 = front ++ .performed .poolStats answer :: back →
    answer = some (start.afterAll (Observation.events front)).stats

variable {world : World (τ × List (Observation σ))}

theorem told_concat {known : List (Observation σ)} {observation : Observation σ}
    (told : ∀ front answer back, known = front ++ .performed .poolStats answer :: back →
      answer = some (start.afterAll (Observation.events front)).stats)
    (right : ∀ answer, observation = .performed .poolStats answer →
      answer = some (start.afterAll (Observation.events known)).stats) :
    ∀ front answer back, known ++ [observation] = front ++ .performed .poolStats answer :: back →
      answer = some (start.afterAll (Observation.events front)).stats := by
  intro front answer back split
  rcases List.eq_nil_or_concat back with rfl | ⟨between, last, rfl⟩
  · obtain ⟨rfl, same⟩ := List.append_inj' split rfl
    exact right answer (List.singleton_inj.mp same)
  · rw [List.concat_eq_append, ← List.cons_append, ← List.append_assoc] at split
    obtain ⟨rfl, _⟩ := List.append_inj' split rfl
    exact told front answer between rfl

theorem Tracks.note (tracks : world.Tracks start inProgress) {observation : Observation σ}
    (silent : observation.event? = none)
    (right : ∀ answer, observation = .performed .poolStats answer → answer = world.pools.map Pools.stats) :
    (world.note observation).Tracks start inProgress := by
  have same : Observation.events (world.note observation).memory.2 = Observation.events world.memory.2 := by
    simp [World.note, Observation.events_concat, silent]
  refine ⟨?_, ?_, told_concat tracks.told ?_⟩
  · rw [same]
    exact tracks.pools
  · rw [same]
    exact tracks.occupancy
  · intro answer asked
    rw [right answer asked, tracks.pools]
    rfl

theorem Tracks.remember (tracks : world.Tracks start inProgress) (memory : τ) :
    Tracks start inProgress { world with memory := (memory, world.memory.2) } :=
  ⟨tracks.pools, tracks.occupancy, tracks.told⟩

theorem Tracks.report (tracks : world.Tracks start inProgress) (entries : List LogEntry) :
    (world.report entries).Tracks start inProgress :=
  ⟨tracks.pools, tracks.occupancy, tracks.told⟩

theorem Tracks.happen (tracks : world.Tracks start inProgress) (observation : Observation σ) {event : PoolEvent}
    (noted : observation.event? = some event) {later : Nat}
    (next : ∀ deepest, ∃ deeper, Occupancy.next? ⟨inProgress, deepest⟩ event = some ⟨later, deeper⟩) :
    Tracks start later
      (World.note { world with pools := world.pools.map fun pools => pools.next event } observation) := by
  have events : Observation.events (world.memory.2 ++ [observation]) =
      Observation.events world.memory.2 ++ [event] := by simp [Observation.events_concat, noted]
  refine ⟨?_, ?_, told_concat tracks.told ?_⟩
  · simp only [World.note, events, tracks.pools, Option.map_some, Pools.afterAll, List.foldl_append, List.foldl_cons,
      List.foldl_nil]
  · obtain ⟨deepest, before⟩ := tracks.occupancy
    obtain ⟨deeper, step⟩ := next deepest
    refine ⟨deeper, ?_⟩
    simp only [World.note, events, Occupancy.after?_append, before, Option.bind_some, List.foldlM_cons, step,
      List.foldlM_nil]
    rfl
  · rintro answer rfl
    simp [Observation.event?] at noted

theorem Tracks.dispatch {body : Exchange κ → World (τ × List (Observation σ)) → Run κ (τ × List (Observation σ))}
    (kept : ∀ exchange world, Tracks start (inProgress + 1) world →
      Tracks start (inProgress + 1) (body exchange world).world)
    (tracks : world.Tracks start inProgress) (logger : Logger) (request : Request) (writer : Writer κ) :
    Tracks start inProgress ((HttpService.dispatch logger (fun exchange world => body exchange (world.note .entered))
      request writer world).world.note .left) := by
  obtain ⟨pools, log, memory⟩ := world
  cases pools with
  | none => exact absurd tracks.pools (by simp)
  | some pools =>
      have taken : Tracks start (inProgress + 1) _ := tracks.happen .entered rfl fun deepest => ⟨_, rfl⟩
      have served := kept (pools.checkout.1.bind request writer logger) _ taken
      exact served.happen .left rfl fun deepest => ⟨deepest, rfl⟩

end World

open World (Tracks)

theorem NativeProgram.tracks_run {σ τ κ : Type} [Sink σ] [Sink κ] {start : Pools} {inProgress : Nat}
    {inner : InnerCall (τ × List (Observation σ))}
    (kept : ∀ {ν : Type} [Sink ν] (request : Request) (writer : Writer ν) (world : World (τ × List (Observation σ))),
      world.Tracks start inProgress → (inner request writer world).world.Tracks start inProgress)
    (program : NativeProgram σ τ) (given : Request) (captured : Option HandlerError) (writer : Writer κ)
    {world : World (τ × List (Observation σ))} (tracks : world.Tracks start inProgress) :
    (program.noting.run inner given captured writer world).world.Tracks start inProgress := by
  induction program generalizing captured writer world with
  | done => exact tracks
  | panic message => exact tracks
  | «recall» next ih => exact ih world.memory.1 captured writer tracks
  | remember memory next ih => exact ih captured writer (tracks.remember memory)
  | ask next ih => exact ih given captured writer (tracks.note rfl (by simp))
  | call op next ih => exact ih _ captured _ (tracks.note rfl (by simp))
  | inner request next ih =>
      have called := kept request writer world tracks
      simp only [noting, run]
      cases (inner request writer world).ending with
      | panicked message => exact called
      | finished result => exact ih _ _ called
  | innerForeign request foreign next ih =>
      have called := kept request foreign world tracks
      simp only [noting, run]
      cases (inner request foreign world).ending with
      | panicked message => exact called
      | finished result => exact ih _ _ writer (called.note rfl (by simp))

theorem Program.tracks_run {σ τ : Type} [Sink σ] (program : Program σ τ) (logger : Logger) {start : Pools}
    {inProgress : Nat} {κ : Type} [Sink κ] (exchange : Exchange κ) {world : World (τ × List (Observation σ))}
    (tracks : world.Tracks start inProgress) :
    (program.noting.run logger exchange world).world.Tracks start inProgress := by
  induction program generalizing inProgress κ exchange world with
  | done result => exact tracks
  | panic message => exact tracks
  | «recall» next ih => exact ih world.memory.1 exchange tracks
  | remember memory next ih => exact ih exchange (tracks.remember memory)
  | call op next ih =>
      cases op with
      | response op => exact ih _ _ ((tracks.report _).note rfl (by simp))
      | log logger level message => exact ih _ _ ((tracks.report _).note rfl (by simp))
      | request op => exact ih _ _ (tracks.note rfl (by simp))
      | poolStats => exact ih _ _ (tracks.note rfl (by simp))
  | attempt inner next innerKept ih =>
      have first := innerKept exchange tracks
      simp only [noting, run]
      cases (inner.noting.run logger exchange world).ending with
      | panicked message => exact first
      | finished result => exact ih _ _ (first.note rfl (by simp))
  | bridge middleware inner next innerKept ih =>
      simp only [noting, run]
      cases exchange.request.bound with
      | none => exact ih _ exchange (tracks.note rfl (by simp))
      | some request =>
          cases exchange.response.native? with
          | none => exact ih _ exchange (tracks.note rfl (by simp))
          | some writer =>
              have called : Tracks start inProgress (middleware.noting.run (fun request writer world =>
                  withViews (exchange.response.logger.getD .tracing)
                    (fun exchange world => inner.noting.run logger exchange world) request writer world)
                  request none writer world).world :=
                middleware.tracks_run (fun _ _ _ tracks => innerKept _ tracks) request none writer tracks
              dsimp only
              generalize NativeProgram.run _ request middleware.noting none writer world = native at called ⊢
              obtain ⟨panic, captured, writer, later⟩ := native
              cases panic with
              | none => exact ih _ _ (called.note rfl (by simp))
              | some message => exact called
  | reenter request writer inner next innerKept ih =>
      have called := tracks.dispatch (fun exchange world tracks => innerKept exchange tracks) logger request writer
      simp only [noting, run]
      exact ih _ exchange (called.note rfl (by simp))

section

variable {σ τ : Type} [Sink σ]

def Errand.runNoting (errand : Errand σ τ) (world : World (τ × List (Observation σ))) :
    World (τ × List (Observation σ)) :=
  (Errand.run ⟨errand.request, errand.writer, .note .entered errand.handler.noting, errand.logger⟩ world).note .left

def World.afterNoting (world : World (τ × List (Observation σ))) (errands : List (Errand σ τ)) :
    World (τ × List (Observation σ)) :=
  errands.foldl (fun world errand => errand.runNoting world) world

theorem Errand.forget_runNoting (errand : Errand σ τ) (world : World (τ × List (Observation σ))) :
    (errand.runNoting world).forget = errand.run world.forget :=
  congrArg Call.world (dispatch_forget
    (fun exchange world => errand.handler.run_noting errand.logger exchange (world.note .entered)) errand.logger
    errand.request errand.writer world)

theorem World.forget_afterNoting (world : World (τ × List (Observation σ))) (errands : List (Errand σ τ)) :
    (world.afterNoting errands).forget = world.forget.after errands := by
  induction errands generalizing world with
  | nil => rfl
  | cons errand rest ih =>
      have first := ih (errand.runNoting world)
      rw [errand.forget_runNoting] at first
      exact first

theorem World.Tracks.afterNoting {start : Pools} {inProgress : Nat} {world : World (τ × List (Observation σ))}
    (tracks : world.Tracks start inProgress) (errands : List (Errand σ τ)) :
    (world.afterNoting errands).Tracks start inProgress := by
  induction errands generalizing world with
  | nil => exact tracks
  | cons errand rest ih =>
      exact ih (tracks.dispatch (fun exchange world tracks => errand.handler.tracks_run errand.logger exchange tracks)
        errand.logger errand.request errand.writer)

end

/-- However dispatches stand one inside the other and wherever handlers panic, the pools pass through states in which
the books are right, and in the end nothing is in use. Those are the states that a handler is told of when it asks, and
the run is that of the handlers themselves. -/
theorem Pools.accounts_afterNoting {σ τ : Type} [Sink σ] {limits : PoolLimits} (positive : 1 ≤ limits.capacity)
    {pools : Pools} (reserved : reserve limits = .ok pools) (errands : List (Errand σ τ)) (log : List LogEntry)
    (memory : τ) :
    let start : World (τ × List (Observation σ)) := ⟨some pools, log, (memory, [])⟩
    let outcome := start.afterNoting errands
    let events := Observation.events outcome.memory.2
    outcome.forget = World.after ⟨some pools, log, memory⟩ errands ∧
      (∀ earlier, earlier <+: events → ∃ occupancy, Occupancy.after? earlier = some occupancy ∧
        (pools.afterAll earlier).Accounts limits occupancy) ∧
      outcome.pools = some (pools.afterAll events) ∧
      (∃ deepest, Occupancy.after? events = some ⟨0, deepest⟩) ∧
      ∀ front answer back, outcome.memory.2 = front ++ .performed .poolStats answer :: back →
        answer = some (pools.afterAll (Observation.events front)).stats := by
  intro start outcome events
  have opened : start.Tracks pools 0 := ⟨rfl, ⟨0, rfl⟩, by simp [start]⟩
  obtain ⟨final, occupancy, told⟩ := opened.afterNoting errands
  refine ⟨start.forget_afterNoting errands, ?_, final, occupancy, told⟩
  rintro earlier ⟨rest, whole⟩
  obtain ⟨deepest, after⟩ := occupancy
  rw [show Observation.events _ = earlier ++ rest from whole.symm, Occupancy.after?_append] at after
  obtain ⟨between, happened, _⟩ := Option.bind_eq_some_iff.mp after
  exact ⟨between, happened, (accounts_of_reserve positive reserved).afterAll happened⟩

/-- A dispatch from inside a bridge from inside a dispatch, of which the two inner ones panic, and one that panics at
once. -/
theorem Pools.accounts_afterNoting_nested :
    let limits : PoolLimits := { capacity := 4, prewarm := 1 }
    let pools := Pools.new limits
    let writer : Writer Recorder := ⟨.empty, ⟨{}, none, none, [], 0, 0⟩⟩
    let innermost : Program Recorder Unit := .call .poolStats fun _ => .panic "innermost"
    let bridged : Program Recorder Unit := .bridge .passThrough
      (.reenter .blank writer innermost fun _ => .panic "bridged") .done
    let outermost : Program Recorder Unit := .reenter .blank writer bridged fun _ => .succeed
    let errands : List (Errand Recorder Unit) :=
      [⟨.blank, writer, outermost, .full⟩, ⟨.blank, writer, .panic "at once", .full⟩]
    let start : World (Unit × List (Observation Recorder)) := ⟨some pools, [], ((), [])⟩
    let outcome := start.afterNoting errands
    let inside := pools.afterAll [.taken, .taken, .taken]
    1 ≤ limits.capacity ∧ reserve limits = .ok pools ∧
      Observation.events outcome.memory.2 =
        [.taken, .taken, .taken, .returned, .returned, .returned, .taken, .returned] ∧
      inside.Accounts limits ⟨3, 3⟩ ∧ inside.stats.request = ⟨3, 0⟩ ∧ inside.stats.fields = ⟨6, 0⟩ ∧
      ∃ now, outcome.pools = some now ∧ now.Accounts limits ⟨0, 3⟩ ∧ now.stats.request = ⟨3, 3⟩ ∧
        now.stats.fields = ⟨6, 6⟩ := by
  intro limits pools writer innermost bridged outermost errands start outcome inside
  have reserved : reserve limits = .ok pools := reserve_eq_ok_iff.mpr ⟨by decide, rfl⟩
  have events : Observation.events ((⟨some pools, [], ((), [])⟩ :
      World (Unit × List (Observation Recorder))).afterNoting errands).memory.2 =
      [.taken, .taken, .taken, .returned, .returned, .returned, .taken, .returned] := by decide +kernel
  obtain ⟨_, books, final, _, _⟩ := accounts_afterNoting (by decide) reserved errands [] ()
  rw [events] at books final
  obtain ⟨deep, happened, accounts⟩ := books [.taken, .taken, .taken] ⟨_, rfl⟩
  obtain rfl : ⟨3, 3⟩ = deep := Option.some.inj happened
  obtain ⟨done, ended, settled⟩ := books _ ⟨[], List.append_nil _⟩
  obtain rfl : ⟨0, 3⟩ = done := Option.some.inj ended
  dsimp only [outcome, start]
  rw [events, final]
  exact ⟨by decide, reserved, rfl, accounts, by decide +kernel, by decide +kernel, _, rfl, settled,
    by decide +kernel, by decide +kernel⟩

end HttpService
