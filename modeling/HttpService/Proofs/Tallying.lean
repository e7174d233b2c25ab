import HttpService.Proofs.Stacking
import Mathlib.Algebra.GroupWithZero.Nat

/-! What stacked adapters count. Calls may enter at any of them: each counts what comes through it, and all of them
agree with the sink on whether a head was sent. -/

namespace HttpService

/-- A call of a sink, with what came of it. -/
inductive SinkEvent
  | head (status : Status) (fields : Fields) (result : Except IoError Unit)
  | body (content : Bytes) (result : Except IoError Nat)
  | flush (result : Except IoError Unit)

namespace SinkEvent

def isHead : SinkEvent → Bool
  | head _ _ _ => true
  | _ => false

def status? : SinkEvent → Option Status
  | head status _ (.ok ()) => some status
  | _ => none

def accepted : SinkEvent → Nat
  | body _ (.ok count) => count
  | _ => 0

end SinkEvent

namespace SinkCall

variable {κ : Type} [Sink κ]

def event (sink : κ) : SinkCall → SinkEvent
  | head status fields => .head status fields (Sink.writeHead sink status fields).result
  | body content => .body content (Sink.writeBody sink content).result
  | flush => .flush (Sink.flush sink).result

theorem isHead_event (sink : κ) (call : SinkCall) : (call.event sink).isHead = call.head?.isSome := by
  cases call <;> rfl

theorem status?_event {sink : κ} {call : SinkCall} (other : call.head? = none) : (call.event sink).status? = none := by
  cases call with
  | head => cases other
  | body | flush => rfl

end SinkCall

namespace Tally

variable (tally : Tally) (event : SinkEvent)

def after (tally : Tally) : SinkEvent → Tally
  | .head status _ result => tally.afterHead status result
  | .body _ taken => tally.afterBody taken
  | .flush _ => tally

theorem size_after : (tally.after event).size = tally.size + event.accepted := by
  rcases event with ⟨_, _, _ | _⟩ | ⟨_, _ | _⟩ | _ <;> rfl

theorem committed_after : (tally.after event).committed = (tally.committed || event.status?.isSome) := by
  rcases event with ⟨_, _, _ | _⟩ | ⟨_, _ | _⟩ | _ <;> simp [after, afterHead, afterBody, SinkEvent.status?]

theorem status_after : (tally.after event).status = event.status?.getD tally.status := by
  rcases event with ⟨_, _, _ | _⟩ | ⟨_, _ | _⟩ | _ <;> rfl

end Tally

theorem ResponseAdapter.perform_of_some {κ : Type} [Sink κ] {sink : κ} {tally : Tally} {call : SinkCall}
    (passes : (⟨some sink, tally⟩ : ResponseAdapter κ).committed = false ∨ call.head? = none) :
    call.event (⟨some sink, tally⟩ : ResponseAdapter κ) = call.event sink ∧
      (call.perform (⟨some sink, tally⟩ : ResponseAdapter κ)).2 =
        ⟨some (call.perform sink).2, tally.after (call.event sink)⟩ := by
  cases call with
  | head status fields =>
      have sent := writeHead_of_not_committed (passes.resolve_right (by simp [SinkCall.head?])) status fields
      simp only [SinkCall.event, SinkCall.perform, sent, Tally.after, and_self]
  | body content =>
      simp only [SinkCall.event, SinkCall.perform, writeBody_of_some, Tally.after, and_self]
  | flush => exact ⟨rfl, rfl⟩

structure Overheard (κ : Type) where
  sink : κ
  events : List SinkEvent

namespace Overheard

variable {κ : Type} [Sink κ]

def hear (heard : Overheard κ) (call : SinkCall) : Overheard κ :=
  ⟨(call.perform heard.sink).2, heard.events ++ [call.event heard.sink]⟩

instance : Sink (Overheard κ) where
  writeHead heard status fields :=
    ⟨(Sink.writeHead heard.sink status fields).result, heard.hear (.head status fields)⟩
  writeBody heard content := ⟨(Sink.writeBody heard.sink content).result, heard.hear (.body content)⟩
  committed heard := Sink.committed heard.sink
  flush heard := ⟨(Sink.flush heard.sink).result, heard.hear .flush⟩

theorem event_eq (heard : Overheard κ) (call : SinkCall) : call.event heard = call.event heard.sink := by
  cases call <;> rfl

theorem perform_eq (heard : Overheard κ) (call : SinkCall) : (call.perform heard).2 = heard.hear call := by
  cases call <;> rfl

def Hears (heard : Overheard κ) (sink : κ) : Prop := heard.sink = sink

theorem interchange : Sink.Interchange (Hears : Overheard κ → κ → Prop) where
  writeHead same status fields := by
    cases same
    exact ⟨rfl, rfl⟩
  writeBody same content := by
    cases same
    exact ⟨rfl, rfl⟩
  committed same := by
    cases same
    rfl
  flush same := by
    cases same
    exact ⟨rfl, rfl⟩

end Overheard

/-- A sink that says that it is committed only once it has taken a head. -/
class Sink.Candid (κ : Type) [Sink κ] : Prop where
  head : ∀ {sink : κ} {status fields error}, committed sink = false →
    (writeHead sink status fields).result = .error error → committed (writeHead sink status fields).state = false
  body : ∀ {sink : κ} {content}, committed sink = false → committed (writeBody sink content).state = false
  flush : ∀ {sink : κ}, committed sink = false → committed (flush sink).state = false

namespace Sink.Candid

instance : Candid ResponseBuffer where
  head _ failed := by cases failed
  body {buffer content} unsent := by
    simp only [committed, Option.isSome_eq_false_iff, Option.isNone_iff_eq_none] at unsent
    simp [writeBody, unsent, committed]
  flush unsent := unsent

instance : Candid Recorder where
  head {recorder status fields error} unsent := by
    simp only [writeHead, Recorder.writeHead]
    split
    · exact fun _ => unsent
    · split <;> simp
  body {recorder content} unsent := by
    simp only [writeBody, Recorder.writeBody]
    split
    · exact unsent
    · split <;> exact unsent
  flush {recorder} unsent := by
    simp only [Sink.flush, Recorder.flush]
    split
    · exact unsent
    · split <;> exact unsent

variable {κ : Type} [Sink κ] [Candid κ]

instance : Candid (Overheard κ) where
  head {heard status fields error} unsent failed := @head κ _ _ heard.sink status fields error unsent failed
  body {heard content} unsent := @body κ _ _ heard.sink content unsent
  flush {heard} unsent := @flush κ _ _ heard.sink unsent

theorem perform {sink : κ} {sent : Option Status} (known : committed sink = true → sent.isSome = true)
    (call : SinkCall) :
    committed (call.perform sink).2 = true → (sent.or (call.event sink).status?).isSome = true := by
  intro later
  cases unsent : committed sink with
  | true =>
      obtain ⟨status, rfl⟩ := Option.isSome_iff_exists.mp (known unsent)
      rfl
  | false =>
      cases call with
      | head status fields =>
          cases taken : (writeHead sink status fields).result with
          | ok => simp [SinkCall.event, taken, SinkEvent.status?]
          | error error => simp [SinkCall.perform, head unsent taken] at later
      | body content => simp [SinkCall.perform, body unsent] at later
      | flush => simp [SinkCall.perform, flush unsent] at later

end Sink.Candid

namespace Stacked

section Calls

variable {κ : Type} [Sink κ]

def fresh : (depth : Nat) → κ → Stacked κ depth
  | 0, sink => sink
  | depth + 1, sink => ResponseAdapter.unbound.bind (fresh depth sink)

def enter : (depth : Nat) → Stacked κ depth → Nat → SinkCall → SinkEvent × Stacked κ depth
  | depth + 1, (adapter : ResponseAdapter (Stacked κ depth)), level + 1, call =>
    match adapter.sink with
    | none => (call.event adapter, (call.perform adapter).2)
    | some below =>
      let (event, below) := enter depth below level call
      (event, ({ adapter with sink := some below } : ResponseAdapter (Stacked κ depth)))
  | _, stack, _, call => (call.event stack, (call.perform stack).2)

theorem enter_zero {depth : Nat} (stack : Stacked κ depth) (call : SinkCall) :
    enter depth stack 0 call = (call.event stack, (call.perform stack).2) := by
  cases depth <;> rfl

def enterAll {depth : Nat} (stack : Stacked κ depth) :
    List (Fin depth × SinkCall) → List (Fin depth × SinkEvent) × Stacked κ depth
  | [] => ([], stack)
  | (level, call) :: rest =>
    let (event, stack) := enter depth stack level call
    let (events, stack) := enterAll stack rest
    ((level, event) :: events, stack)

def standing? : (depth : Nat) → Stacked κ depth → Nat → Option Standing
  | 0, _, _ => none
  | _ + 1, (adapter : ResponseAdapter (Stacked κ _)), 0 =>
    some ⟨adapter.committed, adapter.tally.status, adapter.tally.size⟩
  | depth + 1, (adapter : ResponseAdapter (Stacked κ depth)), level + 1 =>
    adapter.sink.bind fun below => standing? depth below level

def Tallies : (depth : Nat) → (Nat → Nat) → Option Status → Stacked κ depth → κ → Prop
  | 0, _, sent, stack, sink => stack = sink ∧ (Sink.committed sink = true → sent.isSome = true)
  | depth + 1, sizes, sent, stack, sink => ∃ (below : Stacked κ depth) (tally : Tally),
      stack = (⟨some below, tally⟩ : ResponseAdapter (Stacked κ depth)) ∧ tally.size = sizes 0 ∧
      (tally.committed = true → sent.isSome = true) ∧
      (depth = 0 → tally.committed = sent.isSome ∧ tally.status = sent.getD .ok) ∧
      Tallies depth (fun level => sizes (level + 1)) sent below sink

variable {depth : Nat} {sizes : Nat → Nat} {sent : Option Status} {stack : Stacked κ depth} {sink : κ}

theorem Tallies.known (tallies : Tallies depth sizes sent stack sink) :
    Sink.committed stack = true → sent.isSome = true := by
  induction depth generalizing sizes with
  | zero =>
      obtain ⟨rfl, known⟩ := tallies
      exact known
  | succ depth ih =>
      obtain ⟨below, tally, rfl, _, known, _, tallies⟩ := tallies
      intro committed
      rcases (Bool.or_eq_true _ _).mp committed with told | below
      · exact known told
      · exact ih tallies below

theorem Tallies.committed {stack : Stacked κ (depth + 1)} (tallies : Tallies (depth + 1) sizes sent stack sink) :
    Sink.committed stack = sent.isSome := by
  induction depth generalizing sizes with
  | zero =>
      obtain ⟨below, tally, rfl, _, _, outermost, rfl, known⟩ := tallies
      rw [← (outermost rfl).1] at known ⊢
      exact Bool.or_eq_left_iff_imp.mpr known
  | succ depth ih =>
      obtain ⟨below, tally, rfl, _, known, _, tallies⟩ := tallies
      rw [← ih tallies] at known ⊢
      exact Bool.or_eq_right_iff_imp.mpr known

theorem Tallies.perform [Sink.Candid κ] (tallies : Tallies depth sizes sent stack sink) {call : SinkCall}
    (passes : sent = none ∨ call.head? = none) :
    call.event stack = call.event sink ∧
      Tallies depth (fun level => sizes level + (call.event sink).accepted) (sent.or (call.event sink).status?)
        (call.perform stack).2 (call.perform sink).2 := by
  induction depth generalizing sizes with
  | zero =>
      obtain ⟨rfl, known⟩ := tallies
      exact ⟨rfl, rfl, Sink.Candid.perform known call⟩
  | succ depth ih =>
      have unsent : Sink.committed stack = false ∨ call.head? = none :=
        passes.imp_left fun none => by rw [tallies.committed, none, Option.isSome_none]
      obtain ⟨below, tally, rfl, size, known, outermost, tallies⟩ := tallies
      obtain ⟨event, after⟩ := ih tallies
      obtain ⟨same, passed⟩ := ResponseAdapter.perform_of_some unsent
      rw [event] at same passed
      refine ⟨same, _, _, passed, ?_, ?_, fun last => ⟨?_, ?_⟩, after⟩
      · rw [Tally.size_after, size]
      · rw [Tally.committed_after, Option.isSome_or, Bool.or_eq_true, Bool.or_eq_true]
        exact Or.imp_left known
      · rw [Tally.committed_after, Option.isSome_or, (outermost last).1]
      · rw [Tally.status_after, (outermost last).2]
        rcases passes with rfl | other
        · rw [Option.none_or, Option.getD_none]
        · rw [SinkCall.status?_event other, Option.or_none, Option.getD_none]

theorem Tallies.writeHead_of_some {stack : Stacked κ (depth + 1)} {first : Status}
    (tallies : Tallies (depth + 1) sizes (some first) stack sink) (status : Status) (fields : Fields) :
    (Sink.writeHead stack status fields).result = .ok () ∧
      Tallies (depth + 1) sizes (some first) (Sink.writeHead stack status fields).state sink := by
  have stopped := ResponseAdapter.writeHead_of_committed tallies.committed status fields
  obtain ⟨below, tally, rfl, size, known, outermost, tallies⟩ := tallies
  refine ⟨congrArg Attempt.result stopped, below, _, congrArg Attempt.state stopped, size, fun _ => rfl, ?_, tallies⟩
  exact fun last => ⟨rfl, (outermost last).2⟩

/-- What becomes of a call: it comes down to the sink, or it is a head behind an earlier one. -/
inductive Comes (sink : κ) (sent : Option Status) : SinkCall → SinkEvent → κ → Prop
  | through {call : SinkCall} (passes : sent = none ∨ call.head? = none) :
      Comes sink sent call (call.event sink) (call.perform sink).2
  | stopped {status : Status} {fields : Fields} (told : sent.isSome = true) :
      Comes sink sent (.head status fields) (.head status fields (.ok ())) sink

theorem Tallies.enter [Sink.Candid κ] (tallies : Tallies depth sizes sent stack sink) {level : Nat}
    (inside : level < depth) (call : SinkCall) :
    let (event, after) := Stacked.enter depth stack level call
    ∃ later, Comes sink sent call event later ∧
      Tallies depth (fun other => sizes other + if level ≤ other then event.accepted else 0)
        (sent.or event.status?) after later := by
  induction depth generalizing sizes level with
  | zero => omega
  | succ depth ih =>
      cases level with
      | zero =>
          rw [enter_zero]
          simp only [Nat.zero_le, ↓reduceIte]
          by_cases passes : sent = none ∨ call.head? = none
          · obtain ⟨event, after⟩ := tallies.perform passes
            rw [event]
            exact ⟨_, .through passes, after⟩
          · obtain ⟨none, head⟩ := not_or.mp passes
            obtain ⟨first, rfl⟩ := Option.ne_none_iff_exists'.mp none
            cases call with
            | head status fields =>
                obtain ⟨result, after⟩ := tallies.writeHead_of_some status fields
                rw [SinkCall.event, result]
                exact ⟨sink, .stopped rfl, after⟩
            | body | flush => exact absurd rfl head
      | succ level =>
          obtain ⟨below, tally, rfl, size, known, _, tallies⟩ := tallies
          obtain ⟨later, comes, after⟩ := ih tallies (Nat.lt_of_succ_lt_succ inside)
          refine ⟨later, comes, _, tally, rfl, ?_, fun told => ?_, fun last => by omega, ?_⟩
          · simpa using size
          · simp [known told]
          · simpa only [Nat.add_le_add_iff_right] using after

theorem Tallies.restsOn (tallies : Tallies depth sizes sent stack sink) : RestsOn depth stack sink := by
  induction depth generalizing sizes with
  | zero => exact congrArg some tallies.1
  | succ depth ih =>
      obtain ⟨below, tally, rfl, _, _, _, tallies⟩ := tallies
      exact restsOn_succ.mpr ⟨below, tally, rfl, ih tallies⟩

theorem tallies_fresh (unsent : Sink.committed sink = false) (depth : Nat) :
    Tallies depth (fun _ => 0) none (fresh depth sink) sink := by
  induction depth with
  | zero => exact ⟨rfl, fun sent => by simp [unsent] at sent⟩
  | succ depth ih => exact ⟨fresh depth sink, {}, rfl, rfl, id, fun _ => ⟨rfl, rfl⟩, ih⟩

theorem Tallies.standing? (tallies : Tallies depth sizes sent stack sink) {level : Nat} (inside : level < depth) :
    ∃ status, Stacked.standing? depth stack level = some ⟨sent.isSome, status, sizes level⟩ ∧
      (level + 1 = depth → status = sent.getD .ok) := by
  induction depth generalizing sizes level with
  | zero => omega
  | succ depth ih =>
      have committed := tallies.committed
      obtain ⟨below, tally, rfl, size, _, outermost, tallies⟩ := tallies
      cases level with
      | zero =>
          refine ⟨tally.status, ?_, fun last => (outermost (by omega)).2⟩
          rw [← committed, ← size]
          rfl
      | succ level =>
          obtain ⟨status, found, last⟩ := ih tallies (Nat.lt_of_succ_lt_succ inside)
          exact ⟨status, found, fun outer => last (by omega)⟩

def taken {depth : Nat} (events : List (Fin depth × SinkEvent)) (level : Nat) : Nat :=
  ((events.filter fun entry => entry.1 ≤ level).map fun entry => entry.2.accepted).sum

theorem taken_cons {depth : Nat} (level : Fin depth) (event : SinkEvent) (rest : List (Fin depth × SinkEvent))
    (other : Nat) :
    taken ((level, event) :: rest) other = (if level ≤ other then event.accepted else 0) + taken rest other := by
  by_cases within : level ≤ other <;> simp [taken, within]

end Calls

section Alike

variable {κ ν : Type} [Sink κ] [Sink ν] {alike : κ → ν → Prop}

def Alike (alike : κ → ν → Prop) : (depth : Nat) → Stacked κ depth → Stacked ν depth → Prop
  | 0 => alike
  | depth + 1 => ResponseAdapter.Over (Alike alike depth)

theorem interchange (sinks : Sink.Interchange alike) (depth : Nat) : Sink.Interchange (Alike alike depth) := by
  induction depth with
  | zero => exact sinks
  | succ depth ih => exact (ResponseAdapter.interchange_over ih).sink

omit [Sink κ] [Sink ν] in
theorem alike_fresh {first : κ} {second : ν} (same : alike first second) (depth : Nat) :
    Alike alike depth (fresh depth first) (fresh depth second) := by
  induction depth with
  | zero => exact same
  | succ depth ih => exact ⟨rfl, .some ih⟩

variable (sinks : Sink.Interchange alike) {depth : Nat} {first : Stacked κ depth} {second : Stacked ν depth}

include sinks

theorem alike_perform (same : Alike alike depth first second) (call : SinkCall) :
    call.event first = call.event second ∧ Alike alike depth (call.perform first).2 (call.perform second).2 := by
  cases call with
  | head status fields =>
      obtain ⟨result, state⟩ := (interchange sinks depth).writeHead same status fields
      exact ⟨congrArg (SinkEvent.head status fields) result, state⟩
  | body content =>
      obtain ⟨result, state⟩ := (interchange sinks depth).writeBody same content
      exact ⟨congrArg (SinkEvent.body content) result, state⟩
  | flush =>
      obtain ⟨result, state⟩ := (interchange sinks depth).flush same
      exact ⟨congrArg SinkEvent.flush result, state⟩

theorem alike_enter (same : Alike alike depth first second) (level : Nat) (call : SinkCall) :
    (enter depth first level call).1 = (enter depth second level call).1 ∧
      Alike alike depth (enter depth first level call).2 (enter depth second level call).2 := by
  induction depth generalizing level with
  | zero => exact alike_perform sinks same call
  | succ depth ih =>
      cases level with
      | zero => exact alike_perform sinks same call
      | succ level =>
          obtain ⟨outer, tally⟩ := first
          obtain ⟨other, _⟩ := second
          obtain ⟨rfl, bound⟩ := same
          cases bound with
          | none => exact @alike_perform κ ν _ _ alike sinks (depth + 1) _ _ ⟨rfl, .none⟩ call
          | some below =>
              obtain ⟨event, after⟩ := ih below level
              exact ⟨event, rfl, .some after⟩

theorem alike_enterAll (same : Alike alike depth first second) (entries : List (Fin depth × SinkCall)) :
    (enterAll first entries).1 = (enterAll second entries).1 ∧
      Alike alike depth (enterAll first entries).2 (enterAll second entries).2 := by
  induction entries generalizing first second with
  | nil => exact ⟨rfl, same⟩
  | cons entry rest ih =>
      obtain ⟨level, call⟩ := entry
      obtain ⟨event, after⟩ := alike_enter sinks same level call
      obtain ⟨events, last⟩ := ih after
      exact ⟨congrArg₂ (fun event events => (level, event) :: events) event events, last⟩

theorem standing?_of_alike (same : Alike alike depth first second) (level : Nat) :
    standing? depth first level = standing? depth second level := by
  induction depth generalizing level with
  | zero => rfl
  | succ depth ih =>
      have committed := (interchange sinks (depth + 1)).committed same
      obtain ⟨outer, tally⟩ := first
      obtain ⟨other, _⟩ := second
      obtain ⟨rfl, bound⟩ := same
      cases level with
      | zero => exact congrArg (fun committed => some (Standing.mk committed tally.status tally.size)) committed
      | succ level =>
          cases bound with
          | none => rfl
          | some below => exact ih below level

end Alike

section Runs

variable {κ : Type} [Sink κ] {depth : Nat} {sizes : Nat → Nat} {sent : Option Status}
  {stack : Stacked (Overheard κ) depth} {heard : Overheard κ}

/-- The books of the adapters, and a sink that has heard of the one head that is written there. -/
structure Booked (depth : Nat) (sizes : Nat → Nat) (sent : Option Status) (stack : Stacked (Overheard κ) depth)
    (heard : Overheard κ) : Prop where
  tallies : Tallies depth sizes sent stack heard
  heads : heard.events.filterMap SinkEvent.status? = sent.toList

def relayed : Option Status → List SinkEvent → List SinkEvent
  | _, [] => []
  | sent, event :: rest =>
    (if event.isHead && sent.isSome then [] else [event]) ++ relayed (sent.or event.status?) rest

def others (events : List SinkEvent) : List SinkEvent := events.filter fun event => !event.isHead

theorem others_relayed (sent : Option Status) (events : List SinkEvent) :
    others (relayed sent events) = others events := by
  induction events generalizing sent with
  | nil => rfl
  | cons event rest ih =>
      have split : others (relayed sent (event :: rest)) =
          others (if event.isHead && sent.isSome then [] else [event]) ++ others rest := by
        rw [← ih (sent.or event.status?)]
        exact List.filter_append ..
      rw [split]
      cases head : event.isHead <;> cases sent.isSome <;> simp [others, head]

theorem Comes.heads {call : SinkCall} {event : SinkEvent} {later : Overheard κ}
    (comes : Comes heard sent call event later)
    (heads : heard.events.filterMap SinkEvent.status? = sent.toList) :
    later.events.filterMap SinkEvent.status? = (sent.or event.status?).toList ∧
      later.events = heard.events ++ relayed sent [event] := by
  cases comes with
  | through passes =>
      rw [Overheard.perform_eq, Overheard.event_eq, Overheard.hear, List.filterMap_append, heads]
      rcases passes with rfl | other
      · refine ⟨?_, by simp [relayed]⟩
        cases head : (call.event heard.sink).status? <;> simp [head]
      · refine ⟨by simp [SinkCall.status?_event other], ?_⟩
        simp [relayed, SinkCall.isHead_event, other]
  | stopped told =>
      obtain ⟨first, rfl⟩ := Option.isSome_iff_exists.mp told
      exact ⟨heads, (List.append_nil _).symm⟩

variable [Sink.Candid κ]

theorem Booked.enter (booked : Booked depth sizes sent stack heard) (level : Fin depth) (call : SinkCall) :
    let (event, after) := Stacked.enter depth stack level call
    ∃ later, Booked depth (fun other => sizes other + if level ≤ other then event.accepted else 0)
        (sent.or event.status?) after later ∧
      later.events = heard.events ++ relayed sent [event] := by
  obtain ⟨later, comes, tallies⟩ := booked.tallies.enter level.isLt call
  obtain ⟨heads, rest⟩ := comes.heads booked.heads
  exact ⟨later, ⟨tallies, heads⟩, rest⟩

theorem Booked.enterAll (booked : Booked depth sizes sent stack heard) (entries : List (Fin depth × SinkCall)) :
    let (events, after) := Stacked.enterAll stack entries
    ∃ later last, Booked depth (fun other => sizes other + taken events other) last after later ∧
      later.events = heard.events ++ relayed sent (events.map Prod.snd) := by
  induction entries generalizing stack sizes sent heard with
  | nil => exact ⟨heard, sent, booked, (List.append_nil _).symm⟩
  | cons entry rest ih =>
      obtain ⟨level, call⟩ := entry
      obtain ⟨next, booked, first⟩ := booked.enter level call
      obtain ⟨later, last, booked, more⟩ := ih booked
      refine ⟨later, last, ?_, ?_⟩
      · simp only [Nat.add_assoc, ← taken_cons] at booked
        exact booked
      · rw [more, first, List.append_assoc]
        simp only [List.map_cons, relayed, List.append_nil]

/-- Any number of adapters in front of a sink to which nothing was sent, and calls that enter at any of them, in any
order. All of them come down to the sink, but for the heads behind one that it has taken, and it gives the answers to
those that do; so it takes one head at most. Each adapter counts the bytes that the sink took of what entered at its
level or further in, which are fewer than `2 ^ 64` as `Tally.size` says, and is committed just when the sink has taken a
head; the outermost one tells the status of that head. -/
theorem enterAll_fresh {sink : κ} (unsent : Sink.committed sink = false) (entries : List (Fin depth × SinkCall)) :
    let (events, after) := Stacked.enterAll (fresh depth sink) entries
    ∃ heard, RestsOn depth (Stacked.enterAll (fresh depth (⟨sink, []⟩ : Overheard κ)) entries).2 heard ∧
      let heads := heard.events.filterMap SinkEvent.status?
      heard.events = relayed none (events.map Prod.snd) ∧ heads.length ≤ 1 ∧
        others heard.events = others (events.map Prod.snd) ∧
        ∀ level : Fin depth, ∃ standing, Stacked.standing? depth after level = some standing ∧
          standing.committed = !heads.isEmpty ∧ standing.size = taken events level ∧
          (level + 1 = depth → standing.status = heads.head?.getD .ok) := by
  have blank : Booked depth (fun _ => 0) none (fresh depth (⟨sink, []⟩ : Overheard κ)) ⟨sink, []⟩ :=
    ⟨tallies_fresh (show Sink.committed (⟨sink, []⟩ : Overheard κ) = false from unsent) depth, rfl⟩
  obtain ⟨heard, sent, ⟨tallies, heads⟩, rest⟩ := blank.enterAll entries
  have hears : Overheard.Hears ⟨sink, []⟩ sink := rfl
  have bare : Alike Overheard.Hears depth (fresh depth ⟨sink, []⟩) (fresh depth sink) := alike_fresh hears depth
  obtain ⟨same, alike⟩ := alike_enterAll Overheard.interchange bare entries
  rw [same] at rest tallies
  rw [List.nil_append] at rest
  refine ⟨heard, tallies.restsOn, rest, ?_, rest ▸ others_relayed none _, fun level => ?_⟩
  · rw [heads]
    exact sent.length_toList_le
  · obtain ⟨status, standing, last⟩ := tallies.standing? level.isLt
    rw [standing?_of_alike Overheard.interchange alike] at standing
    refine ⟨_, standing, ?_, Nat.zero_add _, fun outermost => ?_⟩
    · rw [heads]
      cases sent <;> rfl
    · rw [heads, last outermost]
      cases sent <;> rfl

/-- Two adapters over a sink that takes two bytes at a time and cannot be flushed; a second head stops at the inner
one. -/
theorem enterAll_fresh_short_writes :
    let notFound : Status := ⟨404, by decide⟩
    let sink : Recorder := { policy := { short := some 2, failFlush := some ⟨.brokenPipe, "gone"⟩ } }
    let entries : List (Fin 2 × SinkCall) :=
      [(1, .head notFound .empty), (1, .body (Ascii.bytes "abc")), (0, .body (Ascii.bytes "d")),
        (0, .head .ok .empty), (0, .flush)]
    let run := Stacked.enterAll (fresh 2 sink) entries
    (∀ level : Fin 2, ∃ standing, Stacked.standing? 2 run.2 level = some standing ∧
      standing.size = taken run.1 level) ∧
      taken run.1 0 = 1 ∧ taken run.1 1 = 3 ∧ Stacked.standing? 2 run.2 0 = some ⟨true, .ok, 1⟩ ∧
      Stacked.standing? 2 run.2 1 = some ⟨true, notFound, 3⟩ := by
  intro notFound sink entries run
  obtain ⟨heard, _, _, _, _, levels⟩ := enterAll_fresh (show Sink.committed sink = false from rfl) entries
  refine ⟨fun level => ?_, rfl, rfl, rfl, rfl⟩
  obtain ⟨standing, found, _, size, _⟩ := levels level
  exact ⟨standing, found, size⟩

end Runs

end Stacked

end HttpService
