import HttpService.Proofs.Draft
import HttpService.Proofs.Submission

/-! Requests that are sent one behind the other are handed over and answered one after another, up to the first
after which the connection is not kept. -/

namespace HttpService

/-- A request, and the response that the handler drafts to it. -/
structure Turn where
  request : Request
  draft : Draft

namespace Turn

def staysOpen (turn : Turn) (terms : Terms) (number : Nat) : Bool :=
  decide (turn.request.version = .http11) && decide (number ≠ terms.connection.maxRequests) &&
    !terms.isTooOld (.beforeResponse number)

def isKept (turn : Turn) (terms : Terms) (number : Nat) : Bool :=
  turn.draft.keeps (turn.staysOpen terms number) && !terms.isTooOld (.beforeRequest number)

def wire (turn : Turn) (terms : Terms) (number : Nat) : Bytes :=
  turn.draft.wire turn.request (turn.staysOpen terms number)

end Turn

/-- The handler never panics, and does nothing with a sink but call it. -/
structure Serve.Conducts {τ : Type} (serve : Serve ResponseBuffer τ)
    (calls : Request → Writer ResponseBuffer → τ → List SinkCall) : Prop where
  calm : ∀ request writer memory, (serve request writer memory).panic = none
  acts : ∀ request writer memory,
    (serve request writer memory).writer.sink = (SinkCall.performAll writer.sink (calls request writer memory)).2

def Serve.turns {τ : Type} (serve : Serve ResponseBuffer τ)
    (calls : Request → Writer ResponseBuffer → τ → List SinkCall) (limits : ResponseLimits) :
    ResponseBuffer → τ → List Request → List Turn
  | _, _, [] => []
  | buffer, memory, request :: rest =>
    let writer := buffer.freshWriter request limits
    let done := serve request writer memory
    ⟨request, SinkCall.draft (calls request writer memory)⟩ ::
      serve.turns calls limits done.writer.sink done.memory rest

namespace Terms

/-- How many requests are answered once so many have been served: those after which the connection is kept, and
the first one after which it is not. -/
def answeredCount (terms : Terms) (served : Nat) (turns : List Turn) : Nat :=
  if terms.connection.maxRequests ≤ served ∨ terms.isTooOld (.beforeRequest served) = true then 0
  else ((turns.zipIdx (served + 1)).takeWhile fun (turn, number) => turn.isKept terms number).length + 1

def answers (terms : Terms) (served : Nat) (turns : List Turn) : Bytes :=
  ((turns.take (terms.answeredCount served turns)).zipIdx (served + 1)).flatMap fun (turn, number) =>
    turn.wire terms number

variable {terms : Terms} {served : Nat}

theorem answeredCount_cons (below : served < terms.connection.maxRequests)
    (young : terms.isTooOld (.beforeRequest served) = false) (turn : Turn) (turns : List Turn) :
    terms.answeredCount served (turn :: turns) =
      (if turn.draft.keeps (turn.staysOpen terms (served + 1)) then terms.answeredCount (served + 1) turns
        else 0) + 1 := by
  have mayGoOn : ¬(terms.connection.maxRequests ≤ served ∨ terms.isTooOld (.beforeRequest served) = true) := by
    simp [young, below]
  rw [answeredCount, if_neg mayGoOn, List.zipIdx_cons, List.takeWhile_cons]
  cases keeps : turn.draft.keeps (turn.staysOpen terms (served + 1)) with
  | false => simp [Turn.isKept, keeps]
  | true =>
      have notLast : served + 1 ≠ terms.connection.maxRequests := by
        simp only [Draft.keeps, Turn.staysOpen, Bool.and_eq_true, decide_eq_true_eq] at keeps
        exact keeps.1.1.2
      have more : ¬terms.connection.maxRequests ≤ served + 1 := by omega
      cases old : terms.isTooOld (.beforeRequest (served + 1)) with
      | false => simp [Turn.isKept, keeps, old, answeredCount, more]
      | true => simp [Turn.isKept, keeps, old, answeredCount]

theorem answers_cons (below : served < terms.connection.maxRequests)
    (young : terms.isTooOld (.beforeRequest served) = false) (turn : Turn) (turns : List Turn) :
    terms.answers served (turn :: turns) = turn.wire terms (served + 1) ++
      if turn.draft.keeps (turn.staysOpen terms (served + 1)) then terms.answers (served + 1) turns else [] := by
  rw [answers, answeredCount_cons below young]
  split <;> simp [answers, List.zipIdx_cons]

end Terms

theorem Serve.Conducts.noting {τ : Type} {serve : Serve ResponseBuffer τ}
    {calls : Request → Writer ResponseBuffer → τ → List SinkCall} (conducts : serve.Conducts calls) :
    serve.noting.Conducts fun request writer memory => calls request writer memory.1 :=
  ⟨fun request writer memory => conducts.calm request writer memory.1,
    fun request writer memory => conducts.acts request writer memory.1⟩

theorem ResponseBuffer.freshWriter_closeHead (buffer : ResponseBuffer) (keepAlive : Bool) (request : Request)
    (limits : ResponseLimits) :
    (buffer.closeHead keepAlive).2.freshWriter request limits = buffer.freshWriter request limits := by
  have capacity : (buffer.closeHead keepAlive).2.capacity = buffer.capacity := by
    simp only [closeHead, sendHead]
    split <;> rfl
  simp only [freshWriter, reset, capacity]

namespace Terms

variable {τ : Type} {terms : Terms} {serve : Serve ResponseBuffer τ}
  {calls : Request → Writer ResponseBuffer → τ → List SinkCall}

theorem converse_closeHead [FieldHash] (serve : Serve ResponseBuffer τ) (flushFailure : Nat → Option IoError)
    (remaining served : Nat) (version : Version) (buffer : ResponseBuffer) (keepAlive : Bool) (memory : τ)
    (pending : Bytes) :
    terms.converse serve flushFailure remaining served version (buffer.closeHead keepAlive).2 memory pending =
      terms.converse serve flushFailure remaining served version buffer memory pending := by
  cases remaining with
  | zero => rfl
  | succ remaining => simp only [converse, ResponseBuffer.freshWriter_closeHead]

theorem converse_of_request [FieldHash] (conducts : serve.Conducts calls) {remaining served : Nat}
    (young : terms.isTooOld (.beforeRequest served) = false) {pending rest : Bytes} {request : Request}
    {keepAlive : Bool} (arrived : terms.arrived pending = .request request keepAlive rest) (version : Version)
    (buffer : ResponseBuffer) (memory : τ) :
    let writer := buffer.freshWriter request terms.response
    let done := serve request writer memory
    let draft := SinkCall.draft (calls request writer memory)
    let announced := keepAlive && decide (remaining ≠ 0) && !terms.isTooOld (.beforeResponse (served + 1))
    terms.converse serve (fun _ => none) (remaining + 1) served version buffer memory pending =
      if draft.keeps announced then
        (terms.converse serve (fun _ => none) remaining (served + 1) request.version done.writer.sink done.memory
          rest).after (draft.wire request announced)
      else ⟨.closed, draft.wire request announced, done.memory⟩ := by
  intro writer done draft announced
  have holds := (SinkCall.holds_draft buffer request terms.response (calls request writer memory)).1
  have closed : (done.writer.sink.closeHead announced).1 = draft.keeps announced ∧
      (done.writer.sink.closeHead announced).2.content = draft.wire request announced := by
    rw [show done.writer.sink = _ from conducts.acts request writer memory]
    exact holds.closeHead announced
  have calm : (serve request (buffer.freshWriter request terms.response) memory).panic = none :=
    conducts.calm request writer memory
  rw [converse]
  simp only [young, Bool.false_eq_true, ↓reduceIte, arrived, calm, converse_closeHead, Option.isNone_none,
    Bool.and_true]
  change (if (done.writer.sink.closeHead announced).1 then _ else _) = _
  rw [closed.1]
  split
  · exact congrArg (fun content => Conversation.after content _) closed.2
  · exact congrArg (fun content => Conversation.mk Stop.closed content done.memory) closed.2

theorem converse_of_spent [FieldHash] {remaining served : Nat}
    (spent : remaining = 0 ∨ terms.isTooOld (.beforeRequest served) = true) (serve : Serve ResponseBuffer τ)
    (flushFailure : Nat → Option IoError) (version : Version) (buffer : ResponseBuffer) (memory : τ) (pending : Bytes) :
    terms.converse serve flushFailure remaining served version buffer memory pending = ⟨.closed, [], memory⟩ := by
  cases remaining with
  | zero => rfl
  | succ remaining =>
      have old : terms.isTooOld (.beforeRequest served) = true := spent.resolve_left (by omega)
      simp only [converse, old, ↓reduceIte]

theorem arrived_nil [FieldHash] (terms : Terms) :
    terms.arrived [] = .stopped (if 0 < terms.request.headLength then .closed else .refused .headTooLarge) := by
  have unmarked : HeadBuffer.headEnd? [] = none := rfl
  simp only [arrived, HeadBuffer.headOf, List.take_nil, unmarked, List.length_nil, Nat.le_zero_eq]
  by_cases room : terms.request.headLength = 0
  · simp [room, Stop.ofFailure]
  · simp [room, Nat.pos_of_ne_zero room]

theorem converse_submissions [FieldHash] (conducts : serve.Conducts calls)
    {submissions : List Submission} (within : ∀ submission ∈ submissions, submission.Within terms.request)
    (held : ∀ submission ∈ submissions, submission.outline.Held terms.request) {remaining served : Nat}
    (total : served + remaining = terms.connection.maxRequests) (version : Version) (buffer : ResponseBuffer)
    (memory : τ) (noted : List Request) :
    let requests := submissions.map fun submission => submission.request terms
    let turns := serve.turns calls terms.response buffer memory requests
    let told := terms.converse serve.noting (fun _ => none) remaining served version buffer (memory, noted)
      (submissions.flatMap Submission.bytes)
    told.stop = .closed ∧ told.memory.2 = noted ++ requests.take (terms.answeredCount served turns) ∧
      (0 < terms.request.headLength → told.output = terms.answers served turns) := by
  -- What may still be served shrinks with the submissions, so that the two add up to the limit throughout.
  induction submissions generalizing remaining served version buffer memory noted with
  | nil =>
      intro requests turns told
      have silent : terms.answers served turns = [] := by simp [answers, turns, requests, Serve.turns]
      by_cases spent : remaining = 0 ∨ terms.isTooOld (.beforeRequest served) = true
      · have toldEq : told = ⟨.closed, [], (memory, noted)⟩ := converse_of_spent spent ..
        simp [toldEq, silent, requests]
      · obtain ⟨remaining, rfl⟩ := Nat.exists_eq_succ_of_ne_zero fun none => spent (.inl none)
        have young : terms.isTooOld (.beforeRequest served) = false := by simpa using fun old => spent (.inr old)
        have toldEq : told = .stopping none version (memory, noted)
            (if 0 < terms.request.headLength then .closed else .refused .headTooLarge) := by
          simp only [told, List.flatMap_nil, converse, young, Bool.false_eq_true, ↓reduceIte, arrived_nil]
        rw [toldEq]
        split
        · simp [Conversation.stopping, silent, requests]
        · rename_i unheld
          simp [Conversation.stopping, Conversation.ending, requests, unheld]
  | cons submission rest ih =>
      intro requests turns told
      by_cases spent : remaining = 0 ∨ terms.isTooOld (.beforeRequest served) = true
      · have count : terms.answeredCount served turns = 0 := by
          rw [answeredCount, if_pos (spent.imp (fun none => by omega) id)]
        have toldEq : told = ⟨.closed, [], (memory, noted)⟩ := converse_of_spent spent ..
        simp [toldEq, count, answers]
      · obtain ⟨remaining, rfl⟩ := Nat.exists_eq_succ_of_ne_zero fun none => spent (.inl none)
        have young : terms.isTooOld (.beforeRequest served) = false := by simpa using fun old => spent (.inr old)
        have below : served < terms.connection.maxRequests := by omega
        have arrived : terms.arrived ((submission :: rest).flatMap Submission.bytes) = _ :=
          Submission.arrived_bytes (within submission (by simp)) (held submission (by simp))
            (rest.flatMap Submission.bytes)
        let request := submission.request terms
        let writer := buffer.freshWriter request terms.response
        let done := serve request writer memory
        let turn : Turn := ⟨request, SinkCall.draft (calls request writer memory)⟩
        have announced : (decide (submission.version = .http11) && decide (remaining ≠ 0) &&
            !terms.isTooOld (.beforeResponse (served + 1))) = turn.staysOpen terms (served + 1) := by
          have last : decide (remaining ≠ 0) = decide (served + 1 ≠ terms.connection.maxRequests) :=
            decide_eq_decide.mpr (by omega)
          rw [last]
          rfl
        have toldEq : told =
            if turn.draft.keeps (turn.staysOpen terms (served + 1)) then
              (terms.converse serve.noting (fun _ => none) remaining (served + 1) request.version done.writer.sink
                (done.memory, noted ++ [request]) (rest.flatMap Submission.bytes)).after (turn.wire terms (served + 1))
            else ⟨.closed, turn.wire terms (served + 1), (done.memory, noted ++ [request])⟩ := by
          rw [Turn.wire, ← announced]
          exact converse_of_request conducts.noting young arrived version buffer (memory, noted)
        have turnsEq : turns = turn :: serve.turns calls terms.response done.writer.sink done.memory
          (rest.map fun submission => submission.request terms) := rfl
        have requestsEq : requests = request :: rest.map fun submission => submission.request terms := rfl
        obtain ⟨stop, notedLater, output⟩ := @ih (fun later member => within later (by simp [member]))
          (fun later member => held later (by simp [member])) remaining (served + 1) (by omega) request.version
          done.writer.sink done.memory (noted ++ [request])
        rw [toldEq, turnsEq, requestsEq, answeredCount_cons below young, answers_cons below young]
        cases turn.draft.keeps (turn.staysOpen terms (served + 1)) with
        | false => simp
        | true =>
            refine ⟨stop, ?_, fun held => ?_⟩
            · simpa [Conversation.after] using notedLater
            · simpa [Conversation.after] using output held

end Terms

namespace Connection

/-- A client may send its requests one behind the other, without waiting for the responses, and they may arrive in
pieces of any size: they are handed over whole and in order, up to the first after which the connection is not
kept, and just their responses are sent. -/
theorem run_submissions [FieldHash] {τ : Type} (terms : Terms) {serve : Serve ResponseBuffer τ}
    {calls : Request → Writer ResponseBuffer → τ → List SinkCall} (conducts : serve.Conducts calls)
    (room : terms.request.fieldCount ≤ Head.maxFields) (memory : τ) {submissions : List Submission}
    (within : ∀ submission ∈ submissions, submission.Within terms.request)
    (held : ∀ submission ∈ submissions, submission.lines.length ≤ Slots.few ∨ submission.outline.Held terms.request)
    {source : Source} (steady : source.Steady)
    (arrives : source.bytes = submissions.flatMap Submission.bytes) {outlet : Outlet} (flows : outlet.Flows)
    (flushes : ∀ count, outlet.flushFailure count = none) :
    let requests := submissions.map fun submission => submission.request terms
    let turns := serve.turns calls terms.response (.new terms.response) memory requests
    let outcome := (new terms source outlet (memory, [])).run terms serve.noting
    outcome.1 = .closed ∧ outcome.2.memory.2 = requests.take (terms.answeredCount 0 turns) ∧
      (0 < terms.request.headLength → outcome.2.outlet.taken = outlet.taken ++ terms.answers 0 turns) := by
  intro requests turns outcome
  have names (submission : Submission) (member : submission ∈ submissions) : submission.outline.Held terms.request :=
    (held submission member).elim (fun few => submission.outline.held_of_few room (by simpa [Submission.outline])) id
  obtain ⟨stop, noted, output⟩ := Terms.converse_submissions conducts within names (Nat.zero_add _) .http11
    (.new terms.response) memory []
  rw [← arrives, ← funext flushes] at stop noted output
  have told : Tells outcome outlet.taken _ :=
    (awaits_new terms steady outlet (memory, [])).tells serve.noting terms.connection.maxRequests flows
  exact ⟨told.stop.trans stop, told.memory.symm ▸ noted, fun held => told.taken.trans (output held ▸ rfl)⟩

/-- A body that looks like a request is a body, and what is sent behind a last request is not read. -/
theorem run_submissions_echo :
    let terms : Terms := ⟨{}, {}, {}, ⟨none, false⟩, fun _ => 0⟩
    let calls : Request → Writer ResponseBuffer → Unit → List SinkCall := fun request writer _ =>
      [.head .ok writer.fields, .body request.body]
    let serve : Serve ResponseBuffer Unit := fun request writer memory =>
      ⟨none, writer.withSink (SinkCall.performAll writer.sink (calls request writer memory)).2, memory⟩
    let host : FieldLine := ⟨Ascii.bytes "Host", .host, by decide +kernel, ⟨Ascii.bytes "a b", by decide +kernel⟩,
      by decide +kernel, by decide +kernel⟩
    let post : Submission := ⟨⟨Ascii.bytes "POST", by decide +kernel⟩, Ascii.bytes "/a?b#c",
      .origin ⟨Ascii.bytes "/a", some (Ascii.bytes "b")⟩, by decide +kernel, by decide +kernel, by decide +kernel,
      by decide +kernel, .http11, .inr rfl, [host], by decide +kernel, Ascii.bytes "GET / HTTP/1.1\r\n\r\n",
      by decide +kernel⟩
    let get : Submission := ⟨.get, Ascii.bytes "/", .root, by decide +kernel, by decide +kernel, by decide +kernel,
      by decide +kernel, .http10, .inl rfl, [], by decide +kernel, [], by decide +kernel⟩
    let submissions := [post, get, post]
    let source : Source := [.piece (post.bytes ++ get.bytes), .failure ⟨.interrupted, ""⟩, .piece post.bytes]
    let outcome := (new terms source .unlimited ((), [])).run terms serve.noting
    serve.Conducts calls ∧ terms.request.fieldCount ≤ Head.maxFields ∧
      (∀ submission ∈ submissions, submission.Within terms.request) ∧
      (∀ submission ∈ submissions, submission.lines.length ≤ Slots.few) ∧ source.Steady ∧
      source.bytes = submissions.flatMap Submission.bytes ∧ Outlet.unlimited.Flows ∧
      (∀ count, Outlet.unlimited.flushFailure count = none) ∧ 0 < terms.request.headLength ∧
      outcome.1 = .closed ∧ outcome.2.memory.2 = [post.request terms, get.request terms] ∧
      outcome.2.outlet.taken = Ascii.bytes ("HTTP/1.1 200 OK\r\ncontent-length: 18\r\nconnection: keep-alive\r\n\r\n" ++
        "GET / HTTP/1.1\r\n\r\nHTTP/1.0 200 OK\r\ncontent-length: 0\r\nconnection: close\r\n\r\n") := by
  intro terms calls serve host post get submissions source outcome
  have conducts : serve.Conducts calls := ⟨fun _ _ _ => rfl, fun _ _ _ => rfl⟩
  have within : ∀ submission ∈ submissions, submission.Within terms.request := by decide +kernel
  have steady : source.Steady := by decide +kernel
  have arrives : source.bytes = submissions.flatMap Submission.bytes := by decide +kernel
  have few : ∀ submission ∈ submissions, submission.lines.length ≤ Slots.few := by decide +kernel
  have flushes (count : Nat) : Outlet.unlimited.flushFailure count = none := rfl
  obtain ⟨stop, noted, taken⟩ := run_submissions terms conducts (by decide +kernel) () within
    (fun submission member => .inl (few submission member)) steady arrives Outlet.flows_unlimited flushes
  dsimp only [outcome]
  exact ⟨conducts, by decide +kernel, within, few, steady, arrives, Outlet.flows_unlimited, flushes,
    by decide +kernel, stop, noted.trans (by decide +kernel),
    (taken (by decide +kernel)).trans (by decide +kernel)⟩

/-- What a target hides behind a hash is not looked at as a target, but it can end the first line, a part of it, or
the text. No request is read where more fields are allowed than a collection has room for, and a buffer without any
room refuses even the end of the bytes. -/
theorem run_fragment_unread :
    let terms (limits : RequestLimits) : Terms := ⟨{}, limits, {}, ⟨none, false⟩, fun _ => 0⟩
    let serve : Serve ResponseBuffer Unit := fun _ writer memory => ⟨none, writer, memory⟩
    let content (target : Bytes) := Ascii.bytes "GET " ++ target ++ Ascii.bytes " HTTP/1.1\r\n\r\n"
    let noted (limits : RequestLimits) (target : Bytes) : List Request :=
      ((new (terms limits) [.piece (content target)] .unlimited ((), [])).run (terms limits) serve.noting).2.memory.2
    let roomless : RequestLimits := { targetLength := UInt64.size - 21, fieldCount := 0 }
    (∀ target ∈ [Ascii.bytes "/#a b", Ascii.bytes "/#\n", Ascii.bytes "/#" ++ [0xFF]],
      target.head? = some PathAndQuery.slash ∧ (Uri.ofBytes? target).isSome = true ∧ noted {} target = []) ∧
      noted { fieldCount := 24577 } (Ascii.bytes "/") = [] ∧
      ((new (terms roomless) [] .unlimited ((), [])).run (terms roomless) serve.noting).2.outlet.taken ≠ [] := by
  intro terms serve content noted roomless
  have told (limits : RequestLimits) (target : Bytes) : noted limits target =
      ((terms limits).converse serve.noting (fun _ => none) 100 0 .http11 (.new {}) ((), [])
        (content target ++ [])).memory.2 := by
    have steady : Source.Steady [.piece (content target)] := by
      intro arrival member
      have begins : Ascii.bytes "GET " ≠ [] := by decide +kernel
      rw [List.mem_singleton.mp member]
      simp [Arrival.IsSteady, content, begins]
    exact congrArg Prod.snd ((awaits_new (terms limits) steady .unlimited ((), [])).tells serve.noting 100
      Outlet.flows_unlimited).memory
  simp only [told]
  decide +kernel

end Connection

end HttpService
