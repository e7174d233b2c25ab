import HttpService.HeadBuffer

/-! What happens to the buffer in front of a stream in the course of its life. -/

namespace HttpService

inductive ReaderCommand
  | readHead
  | parseHead
  | readBody (length : Option Nat)
  | consume (count : Option Nat)
deriving DecidableEq

inductive ReaderAnswer
  | headEnd (outcome : Except ReadFailure (Option Nat))
  | head (outcome : Option (Except ReadFailure Head))
  | body (outcome : Option (Except ReadFailure Bytes))
  | consumed

structure Reader where
  buffer : HeadBuffer
  source : Source
  headEnd : Option Nat
  announced : Nat

namespace Reader

def start (limits : RequestLimits) (source : Source) : Reader := ⟨.new limits, source, none, 0⟩

def perform [FieldHash] (limits : RequestLimits) (reader : Reader) : ReaderCommand → ReaderAnswer × Reader
  | .readHead =>
    let reading := reader.buffer.readHead reader.source
    let headEnd :=
      match reading.outcome with
      | .ok stop => stop
      | .error _ => none
    (.headEnd reading.outcome, { reader with buffer := reading.buffer, source := reading.source, headEnd := headEnd })
  | .parseHead =>
    match reader.headEnd with
    | none => (.head none, reader)
    | some stop =>
      match Head.read limits reader.buffer.content stop with
      | .error failure => (.head (some (.error failure)), reader)
      | .ok head => (.head (some (.ok head)), { reader with announced := head.contentLength })
  | .readBody length =>
    match reader.headEnd with
    | none => (.body none, reader)
    | some stop =>
      let reading := reader.buffer.readBody reader.source stop (length.getD reader.announced)
      (.body (some reading.outcome),
        { reader with buffer := reading.buffer, source := reading.source, headEnd := none })
  | .consume count =>
    (.consumed,
      { reader with buffer := reader.buffer.consume (count.getD (reader.headEnd.getD 0)), headEnd := none })

def performAll [FieldHash] (limits : RequestLimits) (reader : Reader) :
    List ReaderCommand → List (ReaderCommand × ReaderAnswer × Nat)
  | [] => []
  | command :: rest =>
    let (answer, reader) := reader.perform limits command
    (command, answer, reader.buffer.content.length) :: reader.performAll limits rest

def reserve (limits : RequestLimits) (source : Source) : Except String Reader := do
  return ⟨← HeadBuffer.reserve limits, source, none, 0⟩

def readOnce [FieldHash] (limits : RequestLimits) (content : Bytes) : Except ReadFailure (Option (Nat × Head)) := do
  let buffer ← (HeadBuffer.reserve limits).mapError .panicked
  let reading := buffer.readHead [.piece content]
  match ← reading.outcome with
  | none => return none
  | some stop =>
    let head ← Head.read limits reading.buffer.content stop
    return some (stop, head)

end Reader

end HttpService
