import HttpService.Proofs.Flow

/-! What a response says, apart from the buffer that holds it: the head that was sent first, and the body after
it. Every use of the buffer keeps it in step with such a draft, and writing it out writes the draft. -/

namespace HttpService

/-- A head with the fields as they stood when it was sent, and the body bytes taken after it. -/
structure Draft where
  head : Option (Status × Fields)
  body : Bytes
deriving DecidableEq

namespace Draft

def blank : Draft := ⟨none, []⟩

def send (draft : Draft) (status : Status) (fields : Fields) : Draft :=
  match draft.head with
  | some _ => draft
  | none => { draft with head := some (status, fields) }

def take (draft : Draft) (content : Bytes) : Draft := { draft with body := draft.body ++ content }

def status (draft : Draft) : Status := (draft.head.map Prod.fst).getD .ok

def lines (draft : Draft) : List (FieldName × FieldValue) := (draft.head.map fun head => head.2.toList).getD []

def asksToClose (draft : Draft) : Bool := draft.lines.any ResponseBuffer.asksToClose

def ownLines (draft : Draft) : List (FieldName × FieldValue) :=
  draft.lines.filter fun line => !ResponseBuffer.isFraming line.1

def keeps (draft : Draft) (keepAlive : Bool) : Bool := keepAlive && !draft.asksToClose

/-- The response as bytes. A request for the head alone gets no body, but its length all the same. -/
def wire (draft : Draft) (request : Request) (keepAlive : Bool) : Bytes :=
  ResponseBuffer.statusLine request.version draft.status ++ draft.ownLines.flatMap ResponseBuffer.fieldLine ++
    ResponseBuffer.framing draft.body.length (draft.keeps keepAlive) ++
    if request.method = .head then [] else draft.body

def headBytes (draft : Draft) (version : Version) : Bytes :=
  match draft.head with
  | none => []
  | some head => ResponseBuffer.statusLine version head.1 ++ draft.ownLines.flatMap ResponseBuffer.fieldLine

structure Holds (draft : Draft) (request : Request) (buffer : ResponseBuffer) : Prop where
  version : buffer.version = request.version
  headOnly : buffer.headOnly = decide (request.method = .head)
  status : buffer.status = draft.head.map Prod.fst
  close : buffer.close = draft.asksToClose
  head : buffer.head = draft.headBytes request.version
  body : buffer.body = draft.body

theorem holds_reset (buffer : ResponseBuffer) (request : Request) (limits : ResponseLimits) :
    blank.Holds request (buffer.reset request limits) := by
  simp only [ResponseBuffer.reset]
  split <;> exact ⟨rfl, rfl, rfl, rfl, rfl, rfl⟩

variable {draft : Draft} {request : Request} {buffer : ResponseBuffer}

theorem Holds.sendHead (holds : draft.Holds request buffer) (status : Status) (fields : Fields) :
    (draft.send status fields).Holds request (buffer.sendHead status fields) := by
  cases sent : draft.head with
  | some head =>
      have status' : buffer.status = some head.1 := by simp [holds.status, sent]
      simpa only [send, sent, ResponseBuffer.sendHead, status'] using holds
  | none =>
      have unsent : buffer.status = none := by simp [holds.status, sent]
      have noClose : buffer.close = false := by simp [holds.close, asksToClose, lines, sent]
      have noHead : buffer.head = [] := by simp [holds.head, headBytes, sent]
      simp only [send, sent, ResponseBuffer.sendHead, unsent]
      refine ⟨holds.version, holds.headOnly, rfl, ?_, ?_, holds.body⟩
      · simp [noClose, asksToClose, lines]
      · simp [noHead, headBytes, ownLines, lines, holds.version]

theorem Holds.writeBody_of_some (holds : draft.Holds request buffer) {head : Status × Fields}
    (sent : draft.head = some head) (content : Bytes) :
    (Sink.writeBody buffer content).result = .ok content.length ∧
      (draft.take content).Holds request (Sink.writeBody buffer content).state := by
  have status : buffer.status = some head.1 := by simp [holds.status, sent]
  simp only [Sink.writeBody, status, true_and]
  exact ⟨holds.version, holds.headOnly, status.symm.trans holds.status, holds.close, holds.head,
    by simp [take, holds.body]⟩

theorem Holds.writeBody_of_none (holds : draft.Holds request buffer) (unsent : draft.head = none)
    (content : Bytes) :
    Sink.writeBody buffer content = ⟨.error ResponseBuffer.bodyBeforeHead, buffer⟩ := by
  have status : buffer.status = none := by simp [holds.status, unsent]
  simp only [Sink.writeBody, status]

theorem Holds.committed (holds : draft.Holds request buffer) : Sink.committed buffer = draft.head.isSome := by
  simp [Sink.committed, holds.status]

theorem Holds.closeHead (holds : draft.Holds request buffer) (keepAlive : Bool) :
    (buffer.closeHead keepAlive).1 = draft.keeps keepAlive ∧
      (buffer.closeHead keepAlive).2.content = draft.wire request keepAlive := by
  have closed := holds.sendHead .ok .empty
  have close : (draft.send .ok .empty).asksToClose = draft.asksToClose := by
    cases sent : draft.head <;> simp [send, sent, asksToClose, lines, Fields.empty, Fields.toList]
  have own : (draft.send .ok .empty).ownLines = draft.ownLines := by
    cases sent : draft.head <;> simp [send, sent, ownLines, lines, Fields.empty, Fields.toList]
  have head : (draft.send .ok .empty).headBytes request.version =
      ResponseBuffer.statusLine request.version draft.status ++
        draft.ownLines.flatMap ResponseBuffer.fieldLine := by
    rw [← own]
    cases sent : draft.head <;> simp [send, sent, headBytes, Draft.status]
  have body : (draft.send .ok .empty).body = draft.body := by
    cases sent : draft.head <;> simp [send, sent]
  simp only [ResponseBuffer.closeHead, ResponseBuffer.content, closed.close, close, closed.head, head,
    closed.headOnly, closed.body, body, decide_eq_true_eq, wire, keeps, and_self]

theorem Holds.finish (holds : draft.Holds request buffer) {outlet : Outlet} (flows : outlet.Flows)
    (flushes : outlet.flushFailure 0 = none) (keepAlive : Bool) :
    (buffer.finish outlet keepAlive).kept = .ok (draft.keeps keepAlive) ∧
      (buffer.finish outlet keepAlive).outlet = (outlet.extend (draft.wire request keepAlive)).flush.2 := by
  obtain ⟨kept, content⟩ := holds.closeHead keepAlive
  rw [ResponseBuffer.finish_of_flows flows, Outlet.flush_of_none flushes, kept, content]
  exact ⟨rfl, rfl⟩

end Draft

inductive SinkCall
  | head (status : Status) (fields : Fields)
  | body (content : Bytes)
  | flush
deriving DecidableEq

namespace SinkCall

def perform {κ : Type} [Sink κ] (sink : κ) : SinkCall → Nat × κ
  | head status fields => (0, (Sink.writeHead sink status fields).state)
  | body content => ((Sink.writeBody sink content).result.toOption.getD 0, (Sink.writeBody sink content).state)
  | flush => (0, (Sink.flush sink).state)

def performAll {κ : Type} [Sink κ] (sink : κ) : List SinkCall → Nat × κ
  | [] => (0, sink)
  | call :: rest =>
    let (accepted, sink) := call.perform sink
    let (later, sink) := performAll sink rest
    (accepted + later, sink)

def head? : SinkCall → Option (Status × Fields)
  | head status fields => some (status, fields)
  | _ => none

def note (draft : Draft) : SinkCall → Draft
  | head status fields => draft.send status fields
  | body content => if draft.head.isSome then draft.take content else draft
  | flush => draft

def draft (calls : List SinkCall) : Draft := calls.foldl note .blank

theorem head_foldl_note (calls : List SinkCall) (draft : Draft) :
    (calls.foldl note draft).head = draft.head.or (calls.findSome? head?) := by
  induction calls generalizing draft with
  | nil => simp
  | cons call rest ih =>
      rw [List.foldl_cons, ih]
      cases call with
      | head status fields => cases sent : draft.head <;> simp [note, Draft.send, sent, head?, List.findSome?_cons]
      | body content => cases sent : draft.head <;> simp [note, Draft.take, sent, head?, List.findSome?_cons]
      | flush => simp [note, head?, List.findSome?_cons]

theorem head_draft (calls : List SinkCall) : (draft calls).head = calls.findSome? head? := by
  simp [draft, head_foldl_note, Draft.blank]

def bodyBytes : SinkCall → Bytes
  | body content => content
  | _ => []

def accepted (calls : List SinkCall) : Bytes := (calls.dropWhile fun call => call.head?.isNone).flatMap bodyBytes

theorem body_foldl_note_of_some (calls : List SinkCall) {draft : Draft} (sent : draft.head.isSome = true) :
    (calls.foldl note draft).body = draft.body ++ calls.flatMap bodyBytes := by
  induction calls generalizing draft with
  | nil => simp
  | cons call rest ih =>
      have same : (note draft call).head = draft.head := by
        obtain ⟨head, sent⟩ := Option.isSome_iff_exists.mp sent
        cases call <;> simp [note, Draft.send, Draft.take, sent]
      rw [List.foldl_cons, ih (by rw [same, sent]), List.flatMap_cons, ← List.append_assoc]
      obtain ⟨head, sent⟩ := Option.isSome_iff_exists.mp sent
      cases call <;> simp [note, Draft.send, Draft.take, sent, bodyBytes]

theorem body_foldl_note_of_none (calls : List SinkCall) {draft : Draft} (unsent : draft.head = none) :
    (calls.foldl note draft).body = draft.body ++ accepted calls := by
  induction calls with
  | nil => simp [accepted]
  | cons call rest ih =>
      rw [List.foldl_cons]
      cases call with
      | head status fields =>
          rw [body_foldl_note_of_some rest (by simp [note, Draft.send, unsent])]
          simp [note, Draft.send, unsent, accepted, head?, bodyBytes]
      | body content => simpa [note, unsent, accepted, head?] using ih
      | flush => simpa [note, accepted, head?] using ih

theorem body_draft (calls : List SinkCall) : (draft calls).body = accepted calls := by
  simp [draft, Draft.blank, body_foldl_note_of_none]

theorem holds_perform {draft : Draft} {request : Request} {buffer : ResponseBuffer}
    (holds : draft.Holds request buffer) (call : SinkCall) :
    (note draft call).Holds request (call.perform buffer).2 ∧
      draft.body.length + (call.perform buffer).1 = (note draft call).body.length := by
  cases call with
  | head status fields =>
      refine ⟨holds.sendHead status fields, ?_⟩
      cases sent : draft.head <;> simp [perform, note, Draft.send, sent]
  | body content =>
      cases sent : draft.head with
      | none =>
          have refused := holds.writeBody_of_none sent content
          simpa [perform, note, sent, refused, Except.toOption] using holds
      | some head =>
          obtain ⟨counted, kept⟩ := holds.writeBody_of_some sent content
          simp only [perform, note, sent, Option.isSome_some, ↓reduceIte, counted]
          exact ⟨kept, by simp [Draft.take, Except.toOption]⟩
  | flush => exact ⟨holds, rfl⟩

theorem holds_performAll (calls : List SinkCall) {draft : Draft} {request : Request} {buffer : ResponseBuffer}
    (holds : draft.Holds request buffer) :
    (calls.foldl note draft).Holds request (performAll buffer calls).2 ∧
      draft.body.length + (performAll buffer calls).1 = (calls.foldl note draft).body.length := by
  induction calls generalizing draft buffer with
  | nil => exact ⟨holds, rfl⟩
  | cons call rest ih =>
      obtain ⟨next, counted⟩ := holds_perform holds call
      obtain ⟨last, total⟩ := ih next
      refine ⟨last, ?_⟩
      simp only [performAll, List.foldl_cons]
      omega

theorem holds_draft (buffer : ResponseBuffer) (request : Request) (limits : ResponseLimits)
    (calls : List SinkCall) :
    (draft calls).Holds request (performAll (buffer.reset request limits) calls).2 ∧
      (performAll (buffer.reset request limits) calls).1 = (draft calls).body.length := by
  obtain ⟨holds, counted⟩ := holds_performAll calls (Draft.holds_reset buffer request limits)
  exact ⟨holds, (Nat.zero_add _).symm.trans counted⟩

end SinkCall

end HttpService
