import HttpService.Proofs.Interchange

/-! The response of a connection is used for one request after the other. Made ready for a request, it keeps nothing of
what it was used for before but the room for its body, and nobody can tell how much room there is. -/

namespace HttpService

namespace ResponseBuffer

/-- The same response, with more room for its body or with less. -/
inductive Resized : ResponseBuffer → ResponseBuffer → Prop
  | room (buffer : ResponseBuffer) (first second : Nat) :
      Resized { buffer with capacity := first } { buffer with capacity := second }

theorem sendHead_resize (buffer : ResponseBuffer) (capacity : Nat) (status : Status) (fields : Fields) :
    ({ buffer with capacity := capacity } : ResponseBuffer).sendHead status fields =
      { buffer.sendHead status fields with capacity := capacity } := by
  simp only [sendHead]
  split <;> rfl

theorem interchange_resized : Sink.Interchange Resized where
  writeHead same status fields := by
    obtain ⟨buffer, first, second⟩ := same
    simp only [Sink.writeHead, sendHead_resize]
    exact ⟨rfl, .room _ first second⟩
  writeBody same content := by
    obtain ⟨buffer, first, second⟩ := same
    simp only [Sink.writeBody]
    split
    · exact ⟨rfl, .room buffer first second⟩
    · exact ⟨rfl, .room { buffer with body := buffer.body ++ content } _ _⟩
  committed same := by
    cases same
    rfl
  flush same := ⟨rfl, same⟩

theorem closeHead_resize (buffer : ResponseBuffer) (capacity : Nat) (keepAlive : Bool) :
    ({ buffer with capacity := capacity } : ResponseBuffer).closeHead keepAlive =
      ((buffer.closeHead keepAlive).1, { (buffer.closeHead keepAlive).2 with capacity := capacity }) := by
  simp only [closeHead, sendHead_resize]

theorem Resized.finish {first second : ResponseBuffer} (same : Resized first second) (outlet : Outlet)
    (keepAlive : Bool) :
    (first.finish outlet keepAlive).kept = (second.finish outlet keepAlive).kept ∧
      (first.finish outlet keepAlive).outlet = (second.finish outlet keepAlive).outlet ∧
      Resized (first.finish outlet keepAlive).buffer (second.finish outlet keepAlive).buffer := by
  obtain ⟨buffer, first, second⟩ := same
  simp only [ResponseBuffer.finish, closeHead_resize]
  split
  · exact ⟨rfl, rfl, .room _ first second⟩
  · split
    · exact ⟨rfl, rfl, .room _ first second⟩
    · split <;> exact ⟨rfl, rfl, .room _ first second⟩

theorem reset_eq (buffer : ResponseBuffer) (request : Request) (limits : ResponseLimits) :
    buffer.reset request limits =
      { version := request.version
        headOnly := request.method = .head
        status := none
        close := false
        head := []
        body := []
        capacity := if limits.maxCapacity < buffer.capacity then limits.defaultCapacity else buffer.capacity } := by
  simp only [reset]
  split <;> rfl

theorem resized_reset (first second : ResponseBuffer) (request : Request) (limits : ResponseLimits) :
    Resized (first.reset request limits) (second.reset request limits) := by
  rw [reset_eq, reset_eq]
  exact .room ⟨request.version, request.method = .head, none, false, [], [], 0⟩ _ _

end ResponseBuffer

/-- What happens to the response of a connection: it is made ready for a request, its fields change in any way at all, a
head with fields of its own goes straight to the buffer, a handler uses it as a writer, and it is written out to a
stream. -/
inductive ResponseAct
  | reset (request : Request)
  | change (edit : Fields → Fields)
  | head (status : Status) (fields : Fields)
  | call (op : WriterOp)
  | finish (outlet : Outlet) (keepAlive : Bool)

namespace ResponseAct

abbrev Answer : ResponseAct → Type
  | reset _ => Unit
  | change _ => Unit
  | head _ _ => Except IoError Unit
  | call op => op.Answer
  | finish _ _ => Except IoError Bool × Outlet

def perform (limits : ResponseLimits) (writer : Writer ResponseBuffer) :
    (act : ResponseAct) → act.Answer × Writer ResponseBuffer
  | reset request => ((), writer.sink.freshWriter request limits)
  | change edit => ((), { writer with fields := edit writer.fields })
  | head status fields =>
    let attempt := Sink.writeHead writer.sink status fields
    (attempt.result, writer.withSink attempt.state)
  | call op => op.perform writer
  | finish outlet keepAlive =>
    let finished := writer.sink.finish outlet keepAlive
    ((finished.kept, finished.outlet), writer.withSink finished.buffer)

def after (limits : ResponseLimits) (writer : Writer ResponseBuffer) (acts : List ResponseAct) :
    Writer ResponseBuffer :=
  acts.foldl (fun writer act => (act.perform limits writer).2) writer

def performAll (limits : ResponseLimits) (writer : Writer ResponseBuffer) :
    List ResponseAct → List ((act : ResponseAct) × act.Answer × Bool × Fields)
  | [] => []
  | act :: rest =>
    let (answer, writer) := act.perform limits writer
    ⟨act, answer, Sink.committed writer.sink, writer.fields⟩ :: performAll limits writer rest

def unused (limits : ResponseLimits) : Writer ResponseBuffer := ⟨.empty, .new limits⟩

variable {limits : ResponseLimits} {first second : Writer ResponseBuffer}

theorem alike_perform (same : Writer.Alike ResponseBuffer.Resized first second) (act : ResponseAct) :
    (act.perform limits first).1 = (act.perform limits second).1 ∧
      Writer.Alike ResponseBuffer.Resized (act.perform limits first).2 (act.perform limits second).2 := by
  cases act with
  | reset request => exact ⟨rfl, rfl, ResponseBuffer.resized_reset first.sink second.sink request limits⟩
  | change edit => exact ⟨rfl, congrArg edit same.fields, same.sink⟩
  | head status fields =>
      obtain ⟨result, state⟩ := ResponseBuffer.interchange_resized.writeHead same.sink status fields
      exact ⟨result, same.fields, state⟩
  | call op => exact op.alike_perform ResponseBuffer.interchange_resized same
  | finish outlet keepAlive =>
      obtain ⟨kept, written, buffer⟩ := same.sink.finish outlet keepAlive
      exact ⟨Prod.ext kept written, same.fields, buffer⟩

theorem performAll_congr (same : Writer.Alike ResponseBuffer.Resized first second) (acts : List ResponseAct) :
    performAll limits first acts = performAll limits second acts := by
  induction acts generalizing first second with
  | nil => rfl
  | cons act rest ih =>
      obtain ⟨answer, next⟩ := @alike_perform limits _ _ same act
      have committed := ResponseBuffer.interchange_resized.committed next.sink
      simp only [performAll, answer, committed, next.fields, ih next]

end ResponseAct

end HttpService
