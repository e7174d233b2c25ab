import HttpService.IoError
import HttpService.Message.Field
import HttpService.Message.Status

/-! Where the response to one request goes: a head, which is sent once, and body bytes after it. -/

namespace HttpService

structure Attempt (α κ : Type) where
  result : Except IoError α
  state : κ

/-- A receiver of responses. A head that comes after the first one is not sent and is no failure. -/
class Sink (κ : Type) where
  writeHead : κ → Status → Fields → Attempt Unit κ
  writeBody : κ → Bytes → Attempt Nat κ
  committed : κ → Bool
  flush : κ → Attempt Unit κ

structure Writer (κ : Type) where
  fields : Fields
  sink : κ

namespace Writer

variable {κ : Type} [Sink κ]

def withSink (writer : Writer κ) (sink : κ) : Writer κ := { writer with sink := sink }

def writeHead (writer : Writer κ) (status : Status) : Attempt Unit (Writer κ) :=
  let sent := Sink.writeHead writer.sink status writer.fields
  ⟨sent.result, writer.withSink sent.state⟩

def writeBody (writer : Writer κ) (content : Bytes) : Attempt Nat (Writer κ) :=
  let taken := Sink.writeBody writer.sink content
  ⟨taken.result, writer.withSink taken.state⟩

def write (writer : Writer κ) (content : Bytes) : Attempt Nat (Writer κ) :=
  if Sink.committed writer.sink then writer.writeBody content
  else
    let head := writer.writeHead .ok
    match head.result with
    | .error error => ⟨.error error, head.state⟩
    | .ok () => head.state.writeBody content

def flush (writer : Writer κ) : Attempt Unit (Writer κ) :=
  let flushed := Sink.flush writer.sink
  ⟨flushed.result, writer.withSink flushed.state⟩

end Writer

/-- What native code can do with a writer. The last two address its sink without the rules of a writer. -/
inductive WriterOp
  | set (name : FieldName) (value : FieldValue)
  | append (name : FieldName) (value : FieldValue)
  | remove (key : Bytes)
  | fields
  | writeHead (status : Status)
  | write (content : Bytes)
  | committed
  | flush
  | sinkHead (status : Status)
  | sinkBody (content : Bytes)
deriving DecidableEq

namespace WriterOp

abbrev Answer : WriterOp → Type
  | set _ _ => Option FieldValue
  | append _ _ => Bool
  | remove _ => Option FieldValue
  | fields => Fields
  | writeHead _ => Except IoError Unit
  | write _ => Except IoError Nat
  | committed => Bool
  | flush => Except IoError Unit
  | sinkHead _ => Except IoError Unit
  | sinkBody _ => Except IoError Nat

def perform {κ : Type} [Sink κ] (writer : Writer κ) : (op : WriterOp) → op.Answer × Writer κ
  | set name value => (writer.fields.first? name, { writer with fields := writer.fields.insert name value })
  | append name value =>
    (writer.fields.contains name, { writer with fields := writer.fields.append name value })
  | remove key =>
    match FieldName.ofBytes? key with
    | none => (none, writer)
    | some name => (writer.fields.first? name, { writer with fields := writer.fields.erase name })
  | fields => (writer.fields, writer)
  | writeHead status => let attempt := writer.writeHead status; (attempt.result, attempt.state)
  | write content => let attempt := writer.write content; (attempt.result, attempt.state)
  | committed => (Sink.committed writer.sink, writer)
  | flush => let attempt := writer.flush; (attempt.result, attempt.state)
  | sinkHead status => let attempt := writer.writeHead status; (attempt.result, attempt.state)
  | sinkBody content => let attempt := writer.writeBody content; (attempt.result, attempt.state)

end WriterOp

end HttpService
