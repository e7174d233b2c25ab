import HttpService.Proofs.Conduct
import HttpService.Proofs.Reply

/-! The shape of a run, whatever arrives and wherever reading fails: whole responses one behind the other, and behind
them at most one refusal. -/

namespace HttpService

structure Round extends Turn where
  offered : Bool

namespace Round

def kept (round : Round) : Bool := round.draft.keeps round.offered

def response (round : Round) : Bytes := round.draft.wire round.request round.offered

def reply (round : Round) : Reply where
  version := Reply.answered round.request.version
  status := round.draft.status.code
  reason := round.draft.status.reason
  fields := round.draft.shown round.offered
  body := if round.request.method = .head then [] else round.draft.body

/-- Of the fields that say whether the connection stays open there is one, and it says so. -/
def Announces (round : Round) (keepAlive : Bool) : Prop :=
  round.reply.fields.filter (Reply.isNamed .connection) =
    [(FieldName.connection.bytes, Draft.persistence keepAlive)]

theorem announces_iff (round : Round) (keepAlive : Bool) : round.Announces keepAlive ↔ round.kept = keepAlive := by
  have framing : ResponseBuffer.isFraming .connection = true := by decide +kernel
  have other : FieldName.contentLength ≠ FieldName.connection := by decide +kernel
  have different : Draft.persistence true ≠ Draft.persistence false := by decide +kernel
  have shown : round.reply.fields.filter (Reply.isNamed .connection) =
      [(FieldName.connection.bytes, Draft.persistence round.kept)] :=
    (round.draft.filter_isNamed_shown round.offered framing).trans (by simp [other, kept])
  rw [Announces, shown]
  cases round.kept <;> cases keepAlive <;> simp [different, different.symm]

end Round

theorem Serve.Acts.noting {τ : Type} {serve : Serve ResponseBuffer τ}
    {calls : Request → Writer ResponseBuffer → τ → List SinkCall} (acts : serve.Acts calls) :
    serve.noting.Acts fun request writer memory => calls request writer memory.1 :=
  fun request writer memory => acts request writer memory.1

namespace Connection

variable {τ : Type} {terms : Terms} {serve : Serve ResponseBuffer τ}
  {calls : Request → Writer ResponseBuffer → τ → List SinkCall}

def round (terms : Terms) (calls : Request → Writer ResponseBuffer → τ → List SinkCall) (connection : Connection τ)
    (request : Request) (offered : Bool) : Round where
  request := request
  draft := SinkCall.draft (calls request (connection.response.freshWriter request terms.response) connection.memory)
  offered := offered

/-- From one state of a connection to another by requests that are read and answered. -/
inductive Serves [FieldHash] (terms : Terms) (serve : Serve ResponseBuffer τ)
    (calls : Request → Writer ResponseBuffer → τ → List SinkCall) :
    Connection τ → List Round → Connection τ → Prop
  | none (connection : Connection τ) : Serves terms serve calls connection [] connection
  | round {connection ready next last : Connection τ} {request : Request} {keepAlive offered kept : Bool}
      {rounds : List Round} (read : connection.readRequest terms = .request request keepAlive ready)
      (answered : ready.answer terms serve request offered = (.ok kept, next))
      (later : Serves terms serve calls next rounds last) :
      Serves terms serve calls connection (ready.round terms calls request offered :: rounds) last

def Next.connection : Next τ → Connection τ
  | .stopped _ connection => connection
  | .request _ _ connection => connection

theorem connection_readRequest [FieldHash] (terms : Terms) (connection : Connection τ) :
    ∃ buffer source version, (connection.readRequest terms).connection =
      { connection with buffer := buffer, source := source, version := version } := by
  simp only [readRequest]
  split
  · exact ⟨_, _, _, rfl⟩
  · exact ⟨_, _, _, rfl⟩
  · split
    · exact ⟨_, _, _, rfl⟩
    · simp only [readBody]
      split
      · exact ⟨_, _, _, rfl⟩
      · split <;> exact ⟨_, _, _, rfl⟩

structure Drains (connection : Connection τ) : Prop where
  flows : connection.outlet.Flows
  flushes : ∀ count, connection.outlet.flushFailure count = none

theorem answer_of_acts (acts : serve.Acts calls) {connection : Connection τ} (drains : connection.Drains)
    (request : Request) (offered : Bool) :
    let done := serve request (connection.response.freshWriter request terms.response) connection.memory
    let round := connection.round terms calls request offered
    match done.panic with
    | some message => ∃ response, connection.answer terms serve request offered =
        (.error (.panicked message), { connection with response := response, memory := done.memory })
    | none => ∃ response, connection.answer terms serve request offered =
        (.ok round.kept, { connection with
          response := response
          outlet := (connection.outlet.extend round.response).flush.2
          memory := done.memory }) := by
  intro done round
  cases panic : done.panic with
  | some message => exact ⟨_, answer_of_panic rfl panic offered⟩
  | none =>
      have holds := (SinkCall.holds_draft connection.response request terms.response
        (calls request (connection.response.freshWriter request terms.response) connection.memory)).1
      have closed : (done.writer.sink.closeHead offered).1 = round.kept ∧
          (done.writer.sink.closeHead offered).2.content = round.response := by
        rw [show done.writer.sink = _ from acts request _ connection.memory]
        exact holds.closeHead offered
      have answered := @answer_of_flows _ terms _ _ _ _ rfl panic drains.flows offered
      rw [Outlet.flush_of_none (drains.flushes 0), closed.1, closed.2] at answered
      exact ⟨_, answered⟩

theorem Drains.readRequest [FieldHash] {connection : Connection τ} (drains : connection.Drains) {next : Next τ}
    (read : connection.readRequest terms = next) :
    next.connection.Drains ∧ next.connection.outlet = connection.outlet ∧
      next.connection.memory = connection.memory := by
  obtain ⟨buffer, source, version, same⟩ := connection_readRequest terms connection
  rw [← read, same]
  exact ⟨⟨drains.flows, drains.flushes⟩, rfl, rfl⟩

theorem answer_eq_ok (acts : serve.Acts calls) {connection next : Connection τ} (drains : connection.Drains)
    {request : Request} {offered kept : Bool}
    (answered : connection.answer terms serve request offered = (.ok kept, next)) :
    kept = (connection.round terms calls request offered).kept ∧ next.Drains ∧
      next.outlet.taken = connection.outlet.taken ++ (connection.round terms calls request offered).response ∧
      next.memory =
        (serve request (connection.response.freshWriter request terms.response) connection.memory).memory := by
  have told := @answer_of_acts _ terms _ _ acts _ drains request offered
  dsimp only at told
  split at told
  · obtain ⟨response, failed⟩ := told
    rw [failed] at answered
    simp at answered
  · obtain ⟨response, done⟩ := told
    rw [done] at answered
    simp only [Prod.mk.injEq, Except.ok.injEq] at answered
    obtain ⟨rfl, rfl⟩ := answered
    exact ⟨rfl, ⟨drains.flows, fun count => drains.flushes (count + 1)⟩, rfl, rfl⟩

theorem answer_eq_error (acts : serve.Acts calls) {connection next : Connection τ} (drains : connection.Drains)
    {request : Request} {offered : Bool} {stop : Stop}
    (answered : connection.answer terms serve request offered = (.error stop, next)) :
    let done := serve request (connection.response.freshWriter request terms.response) connection.memory
    ∃ message, done.panic = some message ∧ stop = .panicked message ∧ next.outlet = connection.outlet ∧
      next.memory = done.memory := by
  intro done
  have told := @answer_of_acts _ terms _ _ acts _ drains request offered
  dsimp only at told
  split at told
  · rename_i message panic
    obtain ⟨response, failed⟩ := told
    rw [failed] at answered
    simp only [Prod.mk.injEq, Except.error.injEq] at answered
    obtain ⟨rfl, rfl⟩ := answered
    exact ⟨message, panic, rfl, rfl, rfl⟩
  · obtain ⟨response, done⟩ := told
    rw [done] at answered
    simp at answered

theorem Serves.output [FieldHash] (acts : serve.Acts calls) {first last : Connection τ} {rounds : List Round}
    (serves : Serves terms serve calls first rounds last) (drains : first.Drains) :
    last.Drains ∧ last.outlet.taken = first.outlet.taken ++ rounds.flatMap Round.response := by
  induction serves with
  | none connection => exact ⟨drains, by simp⟩
  | round read answered later ih =>
      obtain ⟨ready, outlet, _⟩ := drains.readRequest read
      obtain ⟨_, next, taken, _⟩ := answer_eq_ok acts ready answered
      obtain ⟨last, output⟩ := ih next
      refine ⟨last, ?_⟩
      rw [output, taken, List.flatMap_cons, List.append_assoc]
      exact congrArg (fun outlet => Outlet.taken outlet ++ _) outlet

theorem Serves.noted [FieldHash] {serve : Serve ResponseBuffer τ}
    {calls : Request → Writer ResponseBuffer → τ × List Request → List SinkCall} (acts : serve.noting.Acts calls)
    {first last : Connection (τ × List Request)} {rounds : List Round}
    (serves : Serves terms serve.noting calls first rounds last) (drains : first.Drains) :
    last.memory.2 = first.memory.2 ++ rounds.map fun round => round.request := by
  induction serves with
  | none connection => simp
  | round read answered later ih =>
      obtain ⟨ready, _, memory⟩ := drains.readRequest read
      obtain ⟨_, next, _, remembered⟩ := answer_eq_ok acts ready answered
      rw [ih next, remembered]
      simp only [Serve.noting, List.map_cons, List.append_assoc]
      exact congrArg (fun memory => Prod.snd memory ++ _) memory

inductive Ends [FieldHash] (terms : Terms) (serve : Serve ResponseBuffer τ) (last : Connection τ) :
    Stop × Connection τ → Prop
  | closed : Ends terms serve last (.closed, last)
  | unread {stop : Stop} {after : Connection τ} (read : last.readRequest terms = .stopped stop after) :
      Ends terms serve last (stop, after)
  | panicked {request : Request} {keepAlive offered : Bool} {message : String} {ready after : Connection τ}
      (read : last.readRequest terms = .request request keepAlive ready)
      (answered : ready.answer terms serve request offered = (.error (.panicked message), after)) :
      Ends terms serve last (.panicked message, after)

/-- The service of a connection that may answer so many requests. -/
structure Completes [FieldHash] (terms : Terms) (serve : Serve ResponseBuffer τ)
    (calls : Request → Writer ResponseBuffer → τ → List SinkCall) (limit : Nat) (first : Connection τ)
    (rounds : List Round) (last : Connection τ) (ended : Stop × Connection τ) : Prop where
  serves : Serves terms serve calls first rounds last
  ends : Ends terms serve last ended
  count : rounds.length ≤ limit
  kept : ∀ round ∈ rounds.dropLast, round.kept = true
  closing : ∀ round, rounds.getLast? = some round → round.kept = false → ended = (.closed, last)
  spent : rounds.length = limit → ∀ round, rounds.getLast? = some round → round.kept = false

theorem Completes.of_ends [FieldHash] {first : Connection τ} {ended : Stop × Connection τ}
    (ends : Ends terms serve first ended) (limit : Nat) : Completes terms serve calls limit first [] first ended where
  serves := .none first
  ends := ends
  count := Nat.zero_le limit
  kept := by simp
  closing := by simp
  spent := by simp

theorem Completes.of_closed [FieldHash] {first ready next : Connection τ} {request : Request}
    {keepAlive offered kept : Bool} (read : first.readRequest terms = .request request keepAlive ready)
    (answered : ready.answer terms serve request offered = (.ok kept, next))
    (closed : (ready.round terms calls request offered).kept = false) (limit : Nat) :
    Completes terms serve calls (limit + 1) first [ready.round terms calls request offered] next (.closed, next) where
  serves := .round read answered (.none next)
  ends := .closed
  count := by simp
  kept := by simp
  closing := fun _ _ _ => rfl
  spent := by
    intro _ round single
    rwa [← Option.some.inj single]

theorem Completes.round [FieldHash] {first ready next last : Connection τ} {request : Request}
    {keepAlive offered kept : Bool} {rounds : List Round} {limit : Nat} {ended : Stop × Connection τ}
    (read : first.readRequest terms = .request request keepAlive ready)
    (answered : ready.answer terms serve request offered = (.ok kept, next))
    (stays : (ready.round terms calls request offered).kept = true) (more : limit ≠ 0)
    (later : Completes terms serve calls limit next rounds last ended) :
    Completes terms serve calls (limit + 1) first (ready.round terms calls request offered :: rounds) last ended where
  serves := .round read answered later.serves
  ends := later.ends
  count := Nat.succ_le_succ later.count
  kept := by
    intro round member
    cases rounds with
    | nil => simp at member
    | cons next rounds =>
        rcases List.mem_cons.mp member with rfl | member
        · exact stays
        · exact later.kept round member
  closing := by
    intro round final closes
    cases rounds with
    | nil =>
        obtain rfl := Option.some.inj final
        simp [stays] at closes
    | cons next rounds => exact later.closing round final closes
  spent := by
    intro count round final
    cases rounds with
    | nil => exact absurd (Nat.succ.inj count).symm more
    | cons next rounds => exact later.spent (Nat.succ.inj count) round final

theorem exists_completes [FieldHash] (acts : serve.Acts calls) (young : ∀ occasion, terms.isTooOld occasion = false)
    (remaining served : Nat) {connection : Connection τ} (drains : connection.Drains) :
    ∃ rounds last, Completes terms serve calls remaining connection rounds last
      (connection.serveAll terms serve remaining served) := by
  induction remaining generalizing served connection with
  | zero => exact ⟨[], connection, .of_ends .closed 0⟩
  | succ remaining ih =>
      simp only [serveAll, young, Bool.false_eq_true, ↓reduceIte, Bool.not_false, Bool.and_true]
      cases read : connection.readRequest terms with
      | stopped stop after => exact ⟨[], connection, .of_ends (.unread read) _⟩
      | request request keepAlive ready =>
          have drained : ready.Drains := (drains.readRequest read).1
          generalize offeredEq : (keepAlive && decide (remaining ≠ 0)) = offered
          obtain ⟨outcome, next, answered⟩ : ∃ outcome next,
            ready.answer terms serve request offered = (outcome, next) := ⟨_, _, rfl⟩
          simp only [offeredEq, answered]
          cases outcome with
          | error stop =>
              obtain ⟨message, _, rfl, _⟩ := answer_eq_error acts drained answered
              exact ⟨[], connection, .of_ends (.panicked read answered) _⟩
          | ok kept =>
              obtain ⟨keptEq, drained, _⟩ := answer_eq_ok acts drained answered
              cases kept with
              | false => exact ⟨_, next, .of_closed read answered keptEq.symm remaining⟩
              | true =>
                  have more : remaining ≠ 0 := by
                    have offer : offered = true := by
                      simp only [Round.kept, Draft.keeps, Connection.round, Bool.true_eq, Bool.and_eq_true] at keptEq
                      exact keptEq.1
                    rw [← offeredEq, Bool.and_eq_true] at offer
                    exact of_decide_eq_true offer.2
                  obtain ⟨rounds, last, completes⟩ := ih (served + 1) drained
                  exact ⟨_, last, completes.round read answered keptEq.symm more⟩

def conclude : Stop × Connection τ → Stop × Connection τ
  | (.refused refusal, connection) => connection.sendRefusal refusal
  | stopped => stopped

theorem conclude_of_not_refused {ended : Stop × Connection τ} (other : ∀ refusal, ended.1 ≠ .refused refusal) :
    conclude ended = ended := by
  obtain ⟨stop, connection⟩ := ended
  cases stop with
  | refused refusal => exact absurd rfl (other refusal)
  | _ => rfl

theorem answer_ne_nil (refusal : Refusal) (version : Version) : refusal.answer version ≠ [] := by
  simp [Refusal.answer, Ascii.crlf]

theorem exists_conclude {ended : Stop × Connection τ} (drains : ended.2.Drains) :
    ∃ error, (conclude ended).2.outlet.taken = ended.2.outlet.taken ++ error ∧
      (conclude ended).2.memory = ended.2.memory ∧
      (∀ refusal, ended.1 = .refused refusal →
        error ≠ [] ∧ error = refusal.answer ended.2.version ∧ (conclude ended).1 = .closed) ∧
      ((∀ refusal, ended.1 ≠ .refused refusal) → error = [] ∧ conclude ended = ended) := by
  obtain ⟨stop, connection⟩ := ended
  by_cases refused : ∃ refusal, stop = .refused refusal
  · obtain ⟨refusal, rfl⟩ := refused
    have flows : connection.outlet.Flows := drains.flows
    have flushes : connection.outlet.flushFailure 0 = none := drains.flushes 0
    have concluded : conclude (.refused refusal, connection) = (.closed, { connection with
        outlet := (connection.outlet.extend (refusal.answer connection.version)).flush.2 }) := by
      simp only [conclude, sendRefusal, Outlet.writeAll_of_flows flows, Outlet.flush, Outlet.extend, flushes]
    rw [concluded]
    refine ⟨refusal.answer connection.version, rfl, rfl, ?_, fun other => absurd rfl (other refusal)⟩
    intro told same
    obtain rfl := Stop.refused.inj same
    exact ⟨answer_ne_nil refusal connection.version, rfl, rfl⟩
  · have other : ∀ refusal, stop ≠ .refused refusal := fun refusal same => refused ⟨refusal, same⟩
    rw [conclude_of_not_refused other]
    exact ⟨[], by simp, rfl, fun refusal same => absurd same (other refusal), fun _ => ⟨rfl, rfl⟩⟩

def CallsLast [FieldHash] (terms : Terms) (serve : Serve ResponseBuffer τ) (last : Connection τ)
    (ended : Stop × Connection τ) : Prop :=
  ended.2.memory = last.memory ∨ ∃ request keepAlive ready message,
    last.readRequest terms = .request request keepAlive ready ∧
      (serve request (ready.response.freshWriter request terms.response) last.memory).panic = some message ∧
      ended.1 = .panicked message ∧
      ended.2.memory = (serve request (ready.response.freshWriter request terms.response) last.memory).memory

theorem Ends.frame [FieldHash] (acts : serve.Acts calls) {last : Connection τ} {ended : Stop × Connection τ}
    (ends : Ends terms serve last ended) (drains : last.Drains) :
    ended.2.Drains ∧ ended.2.outlet = last.outlet ∧ CallsLast terms serve last ended := by
  cases ends with
  | closed => exact ⟨drains, rfl, .inl rfl⟩
  | unread read =>
      obtain ⟨drained, outlet, memory⟩ := drains.readRequest read
      exact ⟨drained, outlet, .inl memory⟩
  | panicked read answered =>
      rename_i request keepAlive offered message ready after
      obtain ⟨drained, outlet, memory⟩ : ready.Drains ∧ ready.outlet = last.outlet ∧ ready.memory = last.memory :=
        drains.readRequest read
      obtain ⟨told, panic, same, written, remembered⟩ := answer_eq_error acts drained answered
      rw [memory] at panic remembered
      have outlet : after.outlet = last.outlet := written.trans outlet
      exact ⟨⟨outlet ▸ drains.flows, outlet ▸ drains.flushes⟩, outlet,
        .inr ⟨request, keepAlive, ready, told, read, panic, same, remembered⟩⟩

theorem Ends.read_of_refused [FieldHash] {last : Connection τ} {ended : Stop × Connection τ}
    (ends : Ends terms serve last ended) {stop : Stop} (stopped : ended.1 = stop) (unclosed : stop ≠ .closed)
    (calm : ∀ message, stop ≠ .panicked message) : last.readRequest terms = .stopped stop ended.2 := by
  cases ends with
  | closed => exact absurd stopped.symm unclosed
  | unread read => exact stopped ▸ read
  | panicked _ _ => exact absurd stopped.symm (calm _)

/-- On a stream that takes everything, and as long as the connection is not too old, the output of a run is the
responses to the requests that are handled, each of them whole, and behind them the answer to a refused request if it
is one that has ended the run. Every response but the last announces that the connection stays open. If the last one
announces that it closes, or is the last that is allowed, nothing is read behind it. -/
theorem run_rounds [FieldHash] (terms : Terms) {serve : Serve ResponseBuffer τ}
    {calls : Request → Writer ResponseBuffer → τ → List SinkCall} (acts : serve.Acts calls)
    (young : ∀ occasion, terms.age occasion ≤ terms.connection.lifetime) (source : Source) {outlet : Outlet}
    (flows : outlet.Flows) (flushes : ∀ count, outlet.flushFailure count = none) (memory : τ) :
    let start := new terms source outlet (memory, [])
    let ended := start.serveAll terms serve.noting terms.connection.maxRequests 0
    let outcome := start.run terms serve.noting
    ∃ rounds error last,
      Serves terms serve.noting (fun request writer memory => calls request writer memory.1) start rounds last ∧
      outcome.2.outlet.taken = outlet.taken ++ rounds.flatMap Round.response ++ error ∧
      (∀ round ∈ rounds, ∀ rest, Reply.read? (decide (round.request.method = .head)) (round.response ++ rest) =
        some (round.reply, rest)) ∧
      rounds.length ≤ terms.connection.maxRequests ∧
      (∀ round ∈ rounds.dropLast, round.Announces true) ∧
      (∀ round, rounds.getLast? = some round →
        (round.Announces false → error = [] ∧ outcome = (.closed, last)) ∧
          (rounds.length = terms.connection.maxRequests → round.Announces false)) ∧
      (error ≠ [] ↔ ∃ refusal, ended.1 = .refused refusal) ∧
      (∀ refusal, ended.1 = .refused refusal →
        last.readRequest terms = .stopped (.refused refusal) ended.2 ∧ error = refusal.answer ended.2.version ∧
          outcome.1 = .closed) ∧
      (∀ failure, ended.1 = .failed failure →
        last.readRequest terms = .stopped (.failed failure) ended.2 ∧ error = [] ∧ outcome.1 = .failed failure) ∧
      (outcome.2.memory.2 = rounds.map (fun round => round.request) ∨
        ∃ request keepAlive ready message, last.readRequest terms = .request request keepAlive ready ∧
          (serve request (ready.response.freshWriter request terms.response) last.memory.1).panic = some message ∧
          outcome.1 = .panicked message ∧ error = [] ∧
          outcome.2.memory.2 = rounds.map (fun round => round.request) ++ [request]) := by
  intro start ended outcome
  have fresh (occasion : Occasion) : terms.isTooOld occasion = false :=
    decide_eq_false (Nat.not_lt.mpr (young occasion))
  have drains : start.Drains := ⟨flows, flushes⟩
  obtain ⟨rounds, last, serves, ends, count, kept, closing, spent⟩ :=
    exists_completes acts.noting fresh terms.connection.maxRequests 0 drains
  obtain ⟨drained, output⟩ := serves.output acts.noting drains
  have noted := serves.noted acts.noting drains
  obtain ⟨endDrains, endOutlet, called⟩ := ends.frame acts.noting drained
  obtain ⟨error, taken, remembered, refused, silent⟩ := exists_conclude endDrains
  have outcomeEq : outcome = conclude ended := rfl
  rw [← outcomeEq] at taken remembered refused silent
  have silentOf {stop : Stop} (same : ended.1 = stop) (other : ∀ refusal, stop ≠ .refused refusal) :
      error = [] ∧ outcome = ended := silent fun refusal again => other refusal (same.symm.trans again)
  refine ⟨rounds, error, last, serves, ?_, fun round _ => round.draft.read?_wire round.request round.offered, count,
    fun round member => (round.announces_iff true).mpr (kept round member), ?_, ⟨?_, ?_⟩, ?_, ?_, ?_⟩
  · rw [taken, endOutlet, output]
    rfl
  · intro round final
    refine ⟨fun closes => ?_, fun all => (round.announces_iff false).mpr (spent all round final)⟩
    have closed : ended = (.closed, last) := closing round final ((round.announces_iff false).mp closes)
    obtain ⟨none, same⟩ := silentOf (congrArg Prod.fst closed) (by simp)
    exact ⟨none, same.trans closed⟩
  · intro written
    refine Classical.byContradiction fun unrefused => ?_
    exact written (silent fun refusal same => unrefused ⟨refusal, same⟩).1
  · rintro ⟨refusal, same⟩
    exact (refused refusal same).1
  · intro refusal same
    exact ⟨ends.read_of_refused same (by simp) (by simp), (refused refusal same).2⟩
  · intro failure same
    obtain ⟨none, unchanged⟩ := silentOf same (by simp)
    exact ⟨ends.read_of_refused same (by simp) (by simp), none, unchanged ▸ same⟩
  · rcases called with uncalled | ⟨request, keepAlive, ready, message, read, panic, same, memory⟩
    · left
      rw [remembered, uncalled, noted]
      rfl
    · right
      obtain ⟨none, unchanged⟩ := silentOf same (by simp)
      refine ⟨request, keepAlive, ready, message, read, panic, unchanged ▸ same, none, ?_⟩
      rw [remembered, memory, ← List.nil_append (rounds.map _)]
      exact congrArg (· ++ [request]) noted

/-- Of three requests that arrive in two pieces the last is refused, and the one before it is for the head alone. -/
theorem run_rounds_then_refused :
    let terms : Terms := ⟨{}, {}, {}, ⟨none, false⟩, fun _ => 0⟩
    let calls : Request → Writer ResponseBuffer → Unit → List SinkCall := fun request writer _ =>
      [.head .ok writer.fields, .body request.uri.path]
    let serve : Serve ResponseBuffer Unit := fun request writer memory =>
      ⟨none, writer.withSink (SinkCall.performAll writer.sink (calls request writer memory)).2, memory⟩
    let source : Source := [.piece (Ascii.bytes "GET /a HTTP/1.1\r\n\r\nHEAD /bc"),
      .piece (Ascii.bytes " HTTP/1.1\r\n\r\nBAD\r\n\r\n"), .failure ⟨.connectionReset, "reset"⟩]
    let start := new terms source .unlimited ((), [])
    let outcome := start.run terms serve.noting
    serve.Acts calls ∧ (∀ occasion, terms.age occasion ≤ terms.connection.lifetime) ∧ Outlet.unlimited.Flows ∧
      (∀ count, Outlet.unlimited.flushFailure count = none) ∧
      ∃ rounds last, Serves terms serve.noting (fun request writer memory => calls request writer memory.1) start
          rounds last ∧
        rounds.map (fun round => round.request.uri.path) = [Ascii.bytes "/a", Ascii.bytes "/bc"] ∧
        outcome.1 = .closed ∧
        outcome.2.outlet.taken =
          Outlet.unlimited.taken ++ rounds.flatMap Round.response ++ Refusal.invalidMethod.answer .http11 := by
  intro terms calls serve source start outcome
  have acts : serve.Acts calls := fun _ _ _ => rfl
  have young (occasion : Occasion) : terms.age occasion ≤ terms.connection.lifetime := Nat.zero_le _
  obtain ⟨rounds, error, last, serves, output, _, _, _, _, _, refused, _, called⟩ :=
    run_rounds terms acts young source Outlet.flows_unlimited (fun _ => rfl) ()
  have ended : ((new terms source .unlimited ((), [])).serveAll terms serve.noting terms.connection.maxRequests 0).1 =
        .refused .invalidMethod ∧
      ((new terms source .unlimited ((), [])).serveAll terms serve.noting terms.connection.maxRequests
        0).2.version = .http11 := by decide +kernel
  have noted : ((new terms source .unlimited ((), [])).run terms serve.noting).2.memory.2.map
      (fun request => request.uri.path) = [Ascii.bytes "/a", Ascii.bytes "/bc"] := by decide +kernel
  obtain ⟨_, answered, closed⟩ := refused .invalidMethod ended.1
  have refusal : error = Refusal.invalidMethod.answer .http11 := by rw [answered, ended.2]
  rw [refusal] at output
  dsimp only [outcome, start]
  rcases called with called | ⟨request, keepAlive, ready, message, _, panic, _⟩
  · refine ⟨acts, young, Outlet.flows_unlimited, fun _ => rfl, rounds, last, serves, ?_, closed, output⟩
    rw [← noted, called, List.map_map]
    rfl
  · simp [serve] at panic

end Connection

end HttpService
