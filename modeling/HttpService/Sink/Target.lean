import HttpService.Sink.Buffer
import HttpService.Sink.Recorder

/-! The sinks at the far end of a response: the buffer of a connection, or a recorder. -/

namespace HttpService

inductive Target
  | buffer (buffer : ResponseBuffer)
  | recorder (recorder : Recorder)
deriving DecidableEq

namespace Target

def lift {α κ : Type} (wrap : κ → Target) (attempt : Attempt α κ) : Attempt α Target :=
  ⟨attempt.result, wrap attempt.state⟩

instance : Sink Target where
  writeHead
    | buffer state, status, fields => lift buffer (Sink.writeHead state status fields)
    | recorder state, status, fields => lift recorder (Sink.writeHead state status fields)
  writeBody
    | buffer state, content => lift buffer (Sink.writeBody state content)
    | recorder state, content => lift recorder (Sink.writeBody state content)
  committed
    | buffer state => Sink.committed state
    | recorder state => Sink.committed state
  flush
    | buffer state => lift buffer (Sink.flush state)
    | recorder state => lift recorder (Sink.flush state)

end Target

inductive Outcome
  | written (content : Bytes) (kept : Except IoError Bool)
  | recorded (recorder : Recorder)

def Target.close : Target → Outcome
  | .buffer state =>
    let finished := state.finish .unlimited true
    .written finished.outlet.taken finished.kept
  | .recorder state => .recorded state

end HttpService
