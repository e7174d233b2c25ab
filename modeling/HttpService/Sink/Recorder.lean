import HttpService.Sink

/-! A sink that records what it receives, and that can be told to fail or to take less than it is given. -/

namespace HttpService

/-- How a recorder departs from taking everything. -/
structure RecorderPolicy where
  failHead : Option IoError := none
  failBody : Option IoError := none
  failFlush : Option IoError := none
  short : Option Nat := none
  bodyLimit : Option (Nat × IoError) := none
  plainFlush : Bool := false
deriving DecidableEq

structure Recorder where
  policy : RecorderPolicy
  status : Option Status := none
  head : Option Fields := none
  body : Bytes := []
  headWrites : Nat := 0
  flushes : Nat := 0
deriving DecidableEq

namespace Recorder

def writeHead (recorder : Recorder) (status : Status) (fields : Fields) : Attempt Unit Recorder :=
  match recorder.policy.failHead with
  | some error => ⟨.error error, recorder⟩
  | none =>
    if recorder.status.isSome then ⟨.ok (), recorder⟩
    else
      ⟨.ok (),
        { recorder with
          status := some status
          head := some fields
          headWrites := recorder.headWrites + 1 }⟩

def writeBody (recorder : Recorder) (content : Bytes) : Attempt Nat Recorder :=
  match recorder.policy.failBody with
  | some error => ⟨.error error, recorder⟩
  | none =>
    let count := min content.length (recorder.policy.short.getD content.length)
    match recorder.policy.bodyLimit.filter fun limit => limit.1 < recorder.body.length + count with
    | some limit => ⟨.error limit.2, recorder⟩
    | none => ⟨.ok count, { recorder with body := recorder.body ++ content.take count }⟩

def flush (recorder : Recorder) : Attempt Unit Recorder :=
  if recorder.policy.plainFlush then ⟨.ok (), recorder⟩
  else
    match recorder.policy.failFlush with
    | some error => ⟨.error error, recorder⟩
    | none => ⟨.ok (), { recorder with flushes := recorder.flushes + 1 }⟩

instance : Sink Recorder where
  writeHead := writeHead
  writeBody := writeBody
  committed recorder := recorder.status.isSome
  flush := flush

end Recorder

end HttpService
