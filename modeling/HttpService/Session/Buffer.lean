import HttpService.Sink.Buffer

/-! What happens to the response buffer of a connection in the course of its life. -/

namespace HttpService

inductive BufferCommand
  | reset (request : Request)
  | writeHead (status : Status) (fields : Fields)
  | writeBody (content : Bytes)
  | flush
  | finish (keepAlive : Bool) (outlet : Outlet)

structure Delivery where
  kept : Except IoError Bool
  content : Bytes
  flushes : Nat

namespace BufferCommand

abbrev Answer : BufferCommand → Type
  | reset _ => Unit
  | writeHead _ _ => Except IoError Unit
  | writeBody _ => Except IoError Nat
  | flush => Except IoError Unit
  | finish _ _ => Delivery

def perform (limits : ResponseLimits) (buffer : ResponseBuffer) :
    (command : BufferCommand) → command.Answer × ResponseBuffer
  | reset request => ((), buffer.reset request limits)
  | writeHead status fields =>
    let attempt := Sink.writeHead buffer status fields
    (attempt.result, attempt.state)
  | writeBody content =>
    let attempt := Sink.writeBody buffer content
    (attempt.result, attempt.state)
  | flush =>
    let attempt := Sink.flush buffer
    (attempt.result, attempt.state)
  | finish keepAlive outlet =>
    let finished := buffer.finish outlet keepAlive
    (⟨finished.kept, finished.outlet.taken, finished.outlet.flushes⟩, finished.buffer)

def performAll (limits : ResponseLimits) (buffer : ResponseBuffer) :
    List BufferCommand → List ((command : BufferCommand) × command.Answer × Bool)
  | [] => []
  | command :: rest =>
    let (answer, buffer) := command.perform limits buffer
    ⟨command, answer, Sink.committed buffer⟩ :: performAll limits buffer rest

end BufferCommand

end HttpService
