import HttpService.Connection
import HttpService.Proofs.Delivery
import HttpService.Proofs.Flow

/-! A connection on which everything arrives in the end is a function of the bytes that arrive. -/

namespace HttpService

theorem Bytes.slice?_append {content : Bytes} {start stop : Nat} (inside : stop ≤ content.length) (more : Bytes) :
    slice? (content ++ more) start stop = slice? content start stop := by
  have reached : content.reaches stop = true := (reaches_iff content stop).mpr inside
  have still : (content ++ more).reaches stop = true := (reaches_iff _ stop).mpr (by simp; omega)
  simp only [slice?, reached, still, and_true]
  split
  · rename_i ordered
    rw [List.drop_append_of_le_length (by omega), List.take_append_of_le_length (by simp; omega)]
  · rfl

theorem Head.read_append [FieldHash] {content : Bytes} {stop : Nat} (inside : stop ≤ content.length)
    (limits : RequestLimits)
    (more : Bytes) : Head.read limits (content ++ more) stop = Head.read limits content stop := by
  simp only [Head.read, Head.cut, Bytes.slice?_append inside]

/-- What the bytes to come hold first: a whole request with the bytes behind it, or the reason why there is
none. -/
inductive Arrived
  | stopped (stop : Stop)
  | request (request : Request) (keepAlive : Bool) (rest : Bytes)

def Terms.arrivedBody (terms : Terms) (pending : Bytes) (head : Head) (stop : Nat) : Arrived :=
  match HeadBuffer.bodyOf pending stop head.contentLength with
  | .error failure => .stopped (.ofFailure failure)
  | .ok body => .request (terms.requestOf head body) head.keepAlive (pending.drop (stop + head.contentLength))

def Terms.arrived [FieldHash] (terms : Terms) (pending : Bytes) : Arrived :=
  match HeadBuffer.headOf terms.request.headLength pending with
  | .error failure => .stopped (.ofFailure failure)
  | .ok none => .stopped .closed
  | .ok (some stop) =>
    match Head.read terms.request pending stop with
    | .error failure => .stopped (.ofFailure failure)
    | .ok head => terms.arrivedBody pending head stop

theorem HeadBuffer.bodyOf_zero {pending : Bytes} {start : Nat} (inside : start ≤ pending.length) :
    bodyOf pending start 0 = .ok [] := by
  have granted : Allocation.reserve 0 1 = .ok () := Allocation.reserve_of_le (by decide)
  simp [bodyOf, granted, inside]

theorem HeadBuffer.ofFailure_ne_refused_of_bodyOf {pending : Bytes} {start length : Nat} {failure : ReadFailure}
    (failed : bodyOf pending start length = .error failure) (refusal : Refusal) :
    Stop.ofFailure failure ≠ .refused refusal := by
  simp only [bodyOf] at failed
  split at failed
  · simp only [Except.error.injEq] at failed
    simp [← failed, Stop.ofFailure]
  · split at failed
    · simp at failed
    · simp only [Except.error.injEq] at failed
      simp [← failed, Stop.ofFailure]

namespace Connection

variable {τ : Type}

structure Awaits (terms : Terms) (connection : Connection τ) (pending : Bytes) : Prop where
  room : connection.buffer.room = terms.request.headLength
  within : connection.buffer.content.length ≤ terms.request.headLength
  bytes : connection.buffer.content ++ connection.source.bytes = pending
  steady : connection.source.Steady

theorem awaits_new (terms : Terms) {source : Source} (steady : source.Steady) (outlet : Outlet) (memory : τ) :
    (new terms source outlet memory).Awaits terms source.bytes :=
  ⟨rfl, Nat.zero_le _, rfl, steady⟩

end Connection

def Arrived.next {τ : Type} (connection : Connection τ) : Arrived → Connection.Next τ
  | stopped stop => .stopped stop connection
  | request asked keepAlive _ => .request asked keepAlive connection

namespace Connection

variable {τ : Type} {terms : Terms} {connection : Connection τ} {pending : Bytes}

theorem Awaits.readBody (awaits : connection.Awaits terms pending) {stop : Nat}
    (inside : stop ≤ connection.buffer.content.length) (head : Head) :
    ∃ buffer source,
      connection.readBody terms head stop = (terms.arrivedBody pending head stop).next
        { connection with buffer := buffer, source := source, version := head.version } ∧
      ∀ body, HeadBuffer.bodyOf pending stop head.contentLength = .ok body →
        ({ connection with buffer := buffer, source := source, version := head.version } : Connection τ).Awaits
          terms (pending.drop (stop + head.contentLength)) := by
  have within : connection.buffer.content.length ≤ connection.buffer.room := awaits.room ▸ awaits.within
  have total : stop ≤ pending.length := by
    rw [← awaits.bytes, List.length_append]
    omega
  simp only [Connection.readBody, Terms.arrivedBody]
  by_cases empty : head.contentLength = 0
  · simp only [empty, ↓reduceIte, HeadBuffer.bodyOf_zero total, Nat.add_zero]
    refine ⟨connection.buffer.consume stop, connection.source, rfl, fun _ _ => ⟨awaits.room, ?_, ?_, awaits.steady⟩⟩
    · exact Nat.le_trans (by simp [HeadBuffer.consume]) awaits.within
    · simp only [HeadBuffer.consume, ← awaits.bytes]
      exact (List.drop_append_of_le_length inside).symm
  · obtain ⟨outcome, leaves⟩ :=
      @HeadBuffer.readBody_spec connection.source awaits.steady connection.buffer stop head.contentLength within inside
    rw [awaits.room, awaits.bytes] at leaves
    rw [awaits.bytes] at outcome
    generalize readingEq : connection.buffer.readBody connection.source stop head.contentLength = reading
      at outcome leaves
    simp only [empty, ↓reduceIte, outcome]
    refine ⟨reading.buffer, reading.source, ?_, fun body found => ?_⟩
    · cases HeadBuffer.bodyOf pending stop head.contentLength <;> rfl
    · have left := leaves body (outcome.trans found)
      exact ⟨left.room, left.within, left.bytes, left.steady⟩

theorem Awaits.readRequest [FieldHash] (awaits : connection.Awaits terms pending) :
    ∃ buffer source version,
      connection.readRequest terms = (terms.arrived pending).next
        { connection with buffer := buffer, source := source, version := version } ∧
      (∀ refusal, terms.arrived pending = .stopped (.refused refusal) → version = connection.version) ∧
      (∀ request keepAlive rest, terms.arrived pending = .request request keepAlive rest →
        version = request.version ∧
          ({ connection with buffer := buffer, source := source, version := version } : Connection τ).Awaits
            terms rest) := by
  have within : connection.buffer.content.length ≤ connection.buffer.room := awaits.room ▸ awaits.within
  obtain ⟨outcome, leaves⟩ := HeadBuffer.readHead_spec awaits.steady within
  have ended := @HeadBuffer.headEnd?_of_readHead connection.source connection.buffer
  rw [awaits.room, awaits.bytes] at outcome leaves
  generalize readingEq : connection.buffer.readHead connection.source = reading at outcome leaves ended
  simp only [Connection.readRequest, readingEq, Terms.arrived, outcome]
  cases found : HeadBuffer.headOf terms.request.headLength pending with
  | error failure => exact ⟨reading.buffer, reading.source, connection.version, rfl, fun _ _ => rfl, by simp⟩
  | ok stop =>
      cases stop with
      | none => exact ⟨reading.buffer, reading.source, connection.version, rfl, fun _ _ => rfl, by simp⟩
      | some stop =>
          have inside := HeadBuffer.headEnd?_le (ended (outcome.trans found))
          have read := Head.read_append inside terms.request reading.source.bytes
          rw [leaves.bytes] at read
          simp only [← read]
          cases parsed : Head.read terms.request pending stop with
          | error failure => exact ⟨reading.buffer, reading.source, connection.version, rfl, fun _ _ => rfl, by simp⟩
          | ok head =>
              have after : ({ connection with buffer := reading.buffer, source := reading.source } :
                  Connection τ).Awaits terms pending := ⟨leaves.room, leaves.within, leaves.bytes, leaves.steady⟩
              obtain ⟨buffer, source, next, rest⟩ := after.readBody inside head
              refine ⟨buffer, source, head.version, next, ?_, ?_⟩
              · intro refusal refused
                simp only [Terms.arrivedBody] at refused
                split at refused
                · rename_i failed
                  simp only [Arrived.stopped.injEq] at refused
                  exact absurd refused (HeadBuffer.ofFailure_ne_refused_of_bodyOf failed refusal)
                · simp at refused
              · intro request keepAlive later arrived
                simp only [Terms.arrivedBody] at arrived
                split at arrived
                · simp at arrived
                · rename_i body found
                  simp only [Arrived.request.injEq] at arrived
                  obtain ⟨rfl, rfl, rfl⟩ := arrived
                  exact ⟨rfl, rest body found⟩

end Connection

/-- What becomes of a connection: how it stops, what is written to it, and what the handler remembers. -/
structure Conversation (τ : Type) where
  stop : Stop
  output : Bytes
  memory : τ

namespace Conversation

variable {τ : Type}

def after (content : Bytes) (conversation : Conversation τ) : Conversation τ :=
  { conversation with output := content ++ conversation.output }

def ending (flushFailure : Option IoError) (stop : Stop) (content : Bytes) (memory : τ) : Conversation τ :=
  ⟨(flushFailure.map Stop.failed).getD stop, content, memory⟩

def stopping (flushFailure : Option IoError) (version : Version) (memory : τ) : Stop → Conversation τ
  | .refused refusal => ending flushFailure .closed (refusal.answer version) memory
  | stop => ⟨stop, [], memory⟩

end Conversation

/-- The conversation that the bytes to come lead to. -/
def Terms.converse [FieldHash] {τ : Type} (terms : Terms) (serve : Serve ResponseBuffer τ)
    (flushFailure : Nat → Option IoError) :
    Nat → Nat → Version → ResponseBuffer → τ → Bytes → Conversation τ
  | 0, _, _, _, memory, _ => ⟨.closed, [], memory⟩
  | remaining + 1, served, version, response, memory, pending =>
    if terms.isTooOld (.beforeRequest served) then ⟨.closed, [], memory⟩
    else
      match terms.arrived pending with
      | .stopped stop => .stopping (flushFailure 0) version memory stop
      | .request request keepAlive rest =>
        let done := serve request (response.freshWriter request terms.response) memory
        match done.panic with
        | some message => ⟨.panicked message, [], done.memory⟩
        | none =>
          let keepAlive :=
            keepAlive && decide (remaining ≠ 0) && !terms.isTooOld (.beforeResponse (served + 1))
          let closed := done.writer.sink.closeHead keepAlive
          if closed.1 && (flushFailure 0).isNone then
            (terms.converse serve (fun count => flushFailure (count + 1)) remaining (served + 1) request.version
              closed.2 done.memory rest).after closed.2.content
          else .ending (flushFailure 0) .closed closed.2.content done.memory

namespace Connection

variable {τ : Type} {terms : Terms} {pending : Bytes}

def runFrom [FieldHash] (terms : Terms) (serve : Serve ResponseBuffer τ) (remaining served : Nat)
    (connection : Connection τ) :
    Stop × Connection τ :=
  match connection.serveAll terms serve remaining served with
  | (.refused refusal, connection) => connection.sendRefusal refusal
  | stopped => stopped

structure Tells (outcome : Stop × Connection τ) (taken : Bytes) (conversation : Conversation τ) : Prop where
  stop : outcome.1 = conversation.stop
  taken : outcome.2.outlet.taken = taken ++ conversation.output
  memory : outcome.2.memory = conversation.memory

theorem tells_sendRefusal {connection : Connection τ} (flows : connection.outlet.Flows) (refusal : Refusal) :
    Tells (connection.sendRefusal refusal) connection.outlet.taken
      (.stopping (connection.outlet.flushFailure 0) connection.version connection.memory (.refused refusal)) := by
  simp only [sendRefusal, Outlet.writeAll_of_flows flows, Outlet.flush, Outlet.extend, Conversation.stopping,
    Conversation.ending]
  cases connection.outlet.flushFailure 0 <;> exact ⟨rfl, rfl, rfl⟩

def proceed [FieldHash] (terms : Terms) (serve : Serve ResponseBuffer τ) (remaining served : Nat) :
    Except Stop Bool × Connection τ → Stop × Connection τ
  | (.error (.refused refusal), connection) => connection.sendRefusal refusal
  | (.error stop, connection) => (stop, connection)
  | (.ok false, connection) => (.closed, connection)
  | (.ok true, connection) => connection.runFrom terms serve remaining served

theorem runFrom_eq [FieldHash] (connection : Connection τ) (terms : Terms) (serve : Serve ResponseBuffer τ)
    (remaining served : Nat) (young : terms.isTooOld (.beforeRequest served) = false) :
    connection.runFrom terms serve (remaining + 1) served =
      match connection.readRequest terms with
      | .stopped (.refused refusal) connection => connection.sendRefusal refusal
      | .stopped stop connection => (stop, connection)
      | .request request keepAlive connection =>
        let keepAlive :=
          keepAlive && decide (remaining ≠ 0) && !terms.isTooOld (.beforeResponse (served + 1))
        proceed terms serve remaining (served + 1) (connection.answer terms serve request keepAlive) := by
  simp only [runFrom, serveAll, young, Bool.false_eq_true, ↓reduceIte]
  cases connection.readRequest terms with
  | stopped stop connection => cases stop <;> rfl
  | request request keepAlive connection =>
      simp only
      cases connection.answer terms serve request
        (keepAlive && decide (remaining ≠ 0) && !terms.isTooOld (.beforeResponse (served + 1))) with
      | mk outcome connection =>
          match outcome with
          | .error stop => cases stop <;> rfl
          | .ok true => rfl
          | .ok false => rfl

section

variable {connection : Connection τ} {serve : Serve ResponseBuffer τ} {request : Request}
  {done : Served ResponseBuffer τ}
  (called : serve request (connection.response.freshWriter request terms.response) connection.memory = done)

include called

theorem answer_of_panic {message : String} (panic : done.panic = some message) (keepAlive : Bool) :
    connection.answer terms serve request keepAlive =
      (.error (.panicked message), { connection with response := done.writer.sink, memory := done.memory }) := by
  simp only [answer, called, panic]

theorem answer_of_calm (calm : done.panic = none) (keepAlive : Bool) :
    connection.answer terms serve request keepAlive =
      ((done.writer.sink.finish connection.outlet keepAlive).kept.mapError Stop.failed,
        { connection with
          response := (done.writer.sink.finish connection.outlet keepAlive).buffer
          outlet := (done.writer.sink.finish connection.outlet keepAlive).outlet
          memory := done.memory }) := by
  simp only [answer, called, calm]
  cases (done.writer.sink.finish connection.outlet keepAlive).kept with
  | error error => rfl
  | ok kept => rfl

theorem answer_of_flows (calm : done.panic = none) (flows : connection.outlet.Flows) (keepAlive : Bool) :
    connection.answer terms serve request keepAlive =
      ((connection.outlet.flush.1.map fun _ => (done.writer.sink.closeHead keepAlive).1).mapError Stop.failed,
        { connection with
          response := (done.writer.sink.closeHead keepAlive).2
          outlet := (connection.outlet.extend (done.writer.sink.closeHead keepAlive).2.content).flush.2
          memory := done.memory }) := by
  rw [answer_of_calm called calm, ResponseBuffer.finish_of_flows flows]

end

theorem tells_proceed [FieldHash] {connection : Connection τ} (awaits : connection.Awaits terms pending)
    (flows : connection.outlet.Flows) (serve : Serve ResponseBuffer τ) (request : Request) (keepAlive : Bool)
    {remaining served : Nat}
    (later : ∀ {next : Connection τ}, next.Awaits terms pending → next.outlet.Flows →
      Tells (next.runFrom terms serve remaining served) next.outlet.taken
        (terms.converse serve next.outlet.flushFailure remaining served next.version next.response next.memory
          pending)) :
    let done := serve request (connection.response.freshWriter request terms.response) connection.memory
    let closed := done.writer.sink.closeHead keepAlive
    Tells (proceed terms serve remaining served (connection.answer terms serve request keepAlive))
      connection.outlet.taken
      (match done.panic with
      | some message => ⟨.panicked message, [], done.memory⟩
      | none =>
        if closed.1 && (connection.outlet.flushFailure 0).isNone then
          (terms.converse serve (fun count => connection.outlet.flushFailure (count + 1)) remaining served
            connection.version closed.2 done.memory pending).after closed.2.content
        else .ending (connection.outlet.flushFailure 0) .closed closed.2.content done.memory) := by
  intro done closed
  cases panic : done.panic with
  | some message =>
      rw [answer_of_panic rfl panic]
      exact ⟨rfl, (List.append_nil _).symm, rfl⟩
  | none =>
      rw [answer_of_flows rfl panic flows]
      cases flushed : connection.outlet.flushFailure 0 with
      | none =>
          rw [Outlet.flush_of_none flushed, Option.isNone_none, Bool.and_true]
          change Tells (proceed terms serve remaining served (.ok closed.1, _)) _ _
          cases closed.1 with
          | false => exact ⟨rfl, rfl, rfl⟩
          | true =>
              have after : ({ connection with
                  response := closed.2
                  outlet := (connection.outlet.extend closed.2.content).flush.2
                  memory := done.memory } : Connection τ).Awaits terms pending :=
                ⟨awaits.room, awaits.within, awaits.bytes, awaits.steady⟩
              obtain ⟨stop, taken, memory⟩ := later after flows
              exact ⟨stop, taken.trans (List.append_assoc _ _ _), memory⟩
      | some error =>
          rw [Outlet.flush_of_some flushed, Option.isNone_some, Bool.and_false]
          exact ⟨rfl, rfl, rfl⟩

theorem Awaits.tells [FieldHash] (serve : Serve ResponseBuffer τ) (remaining : Nat) {served : Nat}
    {connection : Connection τ} (awaits : connection.Awaits terms pending) (flows : connection.outlet.Flows) :
    Tells (connection.runFrom terms serve remaining served) connection.outlet.taken
      (terms.converse serve connection.outlet.flushFailure remaining served connection.version connection.response
        connection.memory pending) := by
  -- The induction is on the requests that may still be served; whatever a request leaves awaits just the rest.
  induction remaining generalizing served connection pending with
  | zero => exact ⟨rfl, (List.append_nil _).symm, rfl⟩
  | succ remaining ih =>
      cases old : terms.isTooOld (.beforeRequest served) with
      | true =>
          simp only [runFrom, serveAll, old, ↓reduceIte, Terms.converse]
          exact ⟨rfl, (List.append_nil _).symm, rfl⟩
      | false =>
          obtain ⟨buffer, source, version, next, refused, later⟩ := awaits.readRequest
          have here : ({ connection with buffer := buffer, source := source, version := version } :
            Connection τ).outlet.Flows := flows
          rw [runFrom_eq connection terms serve remaining served old, next, Terms.converse]
          simp only [old, Bool.false_eq_true, ↓reduceIte]
          cases arrived : terms.arrived pending with
          | stopped stop =>
              cases stop with
              | refused refusal => exact refused refusal arrived ▸ tells_sendRefusal here refusal
              | _ => exact ⟨rfl, (List.append_nil _).symm, rfl⟩
          | request request keepAlive rest =>
              obtain ⟨rfl, left⟩ := later request keepAlive rest arrived
              exact tells_proceed left here serve request _ ih

end Connection

/-- A handler that notes every request it is called with. -/
def Serve.noting {κ τ : Type} (serve : Serve κ τ) : Serve κ (τ × List Request) := fun request writer memory =>
  let served := serve request writer memory.1
  ⟨served.panic, served.writer, (served.memory, memory.2 ++ [request])⟩

theorem Terms.converse_of_young [FieldHash] {τ : Type} (terms : Terms) {firstAge secondAge : Occasion → Nat}
    (firstYoung : ∀ occasion, firstAge occasion ≤ terms.connection.lifetime)
    (secondYoung : ∀ occasion, secondAge occasion ≤ terms.connection.lifetime) (serve : Serve ResponseBuffer τ)
    (flushFailure : Nat → Option IoError) (remaining served : Nat) (version : Version) (buffer : ResponseBuffer)
    (memory : τ) (pending : Bytes) :
    ({ terms with age := firstAge } : Terms).converse serve flushFailure remaining served version buffer memory
        pending =
      ({ terms with age := secondAge } : Terms).converse serve flushFailure remaining served version buffer memory
        pending := by
  have firstFresh (occasion : Occasion) : ({ terms with age := firstAge } : Terms).isTooOld occasion = false :=
    decide_eq_false (Nat.not_lt.mpr (firstYoung occasion))
  have secondFresh (occasion : Occasion) : ({ terms with age := secondAge } : Terms).isTooOld occasion = false :=
    decide_eq_false (Nat.not_lt.mpr (secondYoung occasion))
  have sameArrival (pending : Bytes) :
    ({ terms with age := firstAge } : Terms).arrived pending =
      ({ terms with age := secondAge } : Terms).arrived pending := rfl
  induction remaining generalizing flushFailure served version buffer memory pending with
  | zero => rfl
  | succ remaining ih =>
      rw [converse, converse, sameArrival]
      simp only [firstFresh, secondFresh, ih]

namespace Connection

variable {τ : Type}

/-- How the bytes arrive, in pieces of whatever size and with interruptions anywhere, makes no difference; nor does
how many of the bytes written are taken at once. -/
theorem run_eq_of_bytes_eq [FieldHash] (terms : Terms) (serve : Serve ResponseBuffer τ) (memory : τ)
    {first second : Source}
    (firstSteady : first.Steady) (secondSteady : second.Steady) (sameBytes : first.bytes = second.bytes)
    {firstOutlet secondOutlet : Outlet} (firstFlows : firstOutlet.Flows) (secondFlows : secondOutlet.Flows)
    (sameFlush : firstOutlet.flushFailure = secondOutlet.flushFailure) {firstAge secondAge : Occasion → Nat}
    (firstYoung : ∀ occasion, firstAge occasion ≤ terms.connection.lifetime)
    (secondYoung : ∀ occasion, secondAge occasion ≤ terms.connection.lifetime) :
    let firstTerms := { terms with age := firstAge }
    let secondTerms := { terms with age := secondAge }
    let firstEnd := (new firstTerms first firstOutlet (memory, [])).run firstTerms serve.noting
    let secondEnd := (new secondTerms second secondOutlet (memory, [])).run secondTerms serve.noting
    firstEnd.1 = secondEnd.1 ∧ firstEnd.2.memory = secondEnd.2.memory ∧
      ∃ output, firstEnd.2.outlet.taken = firstOutlet.taken ++ output ∧
        secondEnd.2.outlet.taken = secondOutlet.taken ++ output := by
  intro firstTerms secondTerms firstEnd secondEnd
  generalize conversationEq : firstTerms.converse serve.noting firstOutlet.flushFailure
    terms.connection.maxRequests 0 .http11 (.new terms.response) (memory, []) first.bytes = conversation
  have firstTold : Tells firstEnd firstOutlet.taken conversation :=
    conversationEq ▸ (awaits_new firstTerms firstSteady firstOutlet (memory, [])).tells serve.noting _ firstFlows
  have secondTold : Tells secondEnd secondOutlet.taken conversation := by
    rw [← conversationEq, sameFlush, sameBytes, terms.converse_of_young firstYoung secondYoung]
    exact (awaits_new secondTerms secondSteady secondOutlet (memory, [])).tells serve.noting _ secondFlows
  exact ⟨firstTold.stop.trans secondTold.stop.symm, firstTold.memory.trans secondTold.memory.symm,
    conversation.output, firstTold.taken, secondTold.taken⟩

/-- Two requests that arrive at once, or byte by byte with an interruption before every byte. -/
theorem run_eq_of_bytes_eq_interrupted :
    let terms : Terms := ⟨{}, {}, {}, ⟨none, false⟩, fun _ => 0⟩
    let serve : Serve ResponseBuffer Nat := fun request writer calls =>
      ⟨none, (writer.write request.body).state, calls + 1⟩
    let content := Ascii.bytes "POST / HTTP/1.1\r\ncontent-length: 2\r\n\r\nhiGET / HTTP/1.0\r\n\r\n"
    let whole : Source := [.piece content]
    let pieces : Source := content.flatMap fun byte => [.failure ⟨.interrupted, "interrupted"⟩, .piece [byte]]
    let byteByByte := Outlet.limited (some 1) none none
    let firstAge : Occasion → Nat := fun _ => 0
    let secondAge : Occasion → Nat := fun _ => 1000
    let firstTerms := { terms with age := firstAge }
    let secondTerms := { terms with age := secondAge }
    let firstEnd := (new firstTerms whole .unlimited (0, [])).run firstTerms serve.noting
    let secondEnd := (new secondTerms pieces byteByByte (0, [])).run secondTerms serve.noting
    whole.Steady ∧ pieces.Steady ∧ whole.bytes = pieces.bytes ∧ Outlet.unlimited.Flows ∧ byteByByte.Flows ∧
      Outlet.unlimited.flushFailure = byteByByte.flushFailure ∧
      (∀ occasion, firstAge occasion ≤ terms.connection.lifetime) ∧
      (∀ occasion, secondAge occasion ≤ terms.connection.lifetime) ∧
      firstEnd.1 = secondEnd.1 ∧ firstEnd.2.memory = secondEnd.2.memory ∧
      firstEnd.2.outlet.taken = secondEnd.2.outlet.taken := by
  intro terms serve content whole pieces byteByByte firstAge secondAge firstTerms secondTerms firstEnd secondEnd
  have wholeSteady : whole.Steady := by decide +kernel
  have piecesSteady : pieces.Steady := by decide +kernel
  have sameBytes : whole.bytes = pieces.bytes := by decide +kernel
  have byteFlows : byteByByte.Flows := fun _ => ⟨0, rfl⟩
  have firstYoung (occasion : Occasion) : firstAge occasion ≤ terms.connection.lifetime := Nat.zero_le _
  have secondYoung (occasion : Occasion) : secondAge occasion ≤ terms.connection.lifetime := by
    simp only [secondAge, terms]
    decide
  obtain ⟨stop, memory, output, firstTaken, secondTaken⟩ := run_eq_of_bytes_eq terms serve 0 wholeSteady piecesSteady
    sameBytes Outlet.flows_unlimited byteFlows rfl firstYoung secondYoung
  dsimp only [firstEnd, secondEnd, firstTerms, secondTerms]
  exact ⟨wholeSteady, piecesSteady, sameBytes, Outlet.flows_unlimited, byteFlows, rfl, firstYoung, secondYoung, stop,
    memory, firstTaken.trans secondTaken.symm⟩

end Connection

end HttpService
