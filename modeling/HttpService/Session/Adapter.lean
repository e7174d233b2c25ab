import HttpService.Sink.Recorder
import HttpService.View.Response

/-! What happens to a response adapter in the course of its life. -/

namespace HttpService

inductive AdapterCommand
  | bind (policy : RecorderPolicy) (committed : Option Status)
  | release
  | commit (status : Status) (fields : Fields)
  | write (content : Bytes)
  | flush
  | sinkHead (status : Status) (fields : Fields)
  | sinkBody (content : Bytes)
  | sinkCommitted
  | sinkFlush
  | foreignHead (status : Status)

namespace AdapterCommand

abbrev Answer : AdapterCommand → Type
  | bind _ _ => Unit
  | release => Unit
  | commit _ _ => Except IoError Bool
  | write _ => Except IoError Nat
  | flush => Except IoError Unit
  | sinkHead _ _ => Except IoError Unit
  | sinkBody _ => Except IoError Nat
  | sinkCommitted => Bool
  | sinkFlush => Except IoError Unit
  | foreignHead _ => Except IoError Unit

structure Session where
  adapter : ResponseAdapter Recorder
  last : Option Recorder

def Session.start : Session := ⟨.unbound, none⟩

def Session.recorder? (session : Session) : Option Recorder :=
  match session.adapter.sink with
  | some recorder => some recorder
  | none => session.last

def Session.become {α : Type} (session : Session) (attempt : Attempt α (ResponseAdapter Recorder)) :
    Except IoError α × Session :=
  (attempt.result, { session with adapter := attempt.state })

def perform (session : Session) : (command : AdapterCommand) → command.Answer × Session
  | bind policy committed =>
    let recorder : Recorder := { policy := policy, status := committed }
    ((), ⟨session.adapter.release.bind recorder, some recorder⟩)
  | release => ((), ⟨.unbound, session.recorder?⟩)
  | commit status fields => session.become (session.adapter.commit status fields)
  | write content => session.become (session.adapter.write content)
  | flush => session.become session.adapter.flush
  | sinkHead status fields => session.become (Sink.writeHead session.adapter status fields)
  | sinkBody content => session.become (Sink.writeBody session.adapter content)
  | sinkCommitted => (Sink.committed session.adapter, session)
  | sinkFlush => session.become (Sink.flush session.adapter)
  | foreignHead status =>
    match session.adapter.sink, session.last with
    | some recorder, _ =>
      let sent := Sink.writeHead recorder status .empty
      (sent.result, { session with adapter := { session.adapter with sink := some sent.state } })
    | none, some recorder =>
      let sent := Sink.writeHead recorder status .empty
      (sent.result, { session with last := some sent.state })
    | none, none => (.ok (), session)

def performAll (session : Session) :
    List AdapterCommand → List ((command : AdapterCommand) × command.Answer × ResponseAdapter Recorder) × Option Recorder
  | [] => ([], session.recorder?)
  | command :: rest =>
    let (answer, session) := command.perform session
    let (answers, recorder) := performAll session rest
    (⟨command, answer, session.adapter⟩ :: answers, recorder)

end AdapterCommand

end HttpService
