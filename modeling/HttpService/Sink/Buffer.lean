import HttpService.Allocation
import HttpService.Limits
import HttpService.Message.Request
import HttpService.Outlet
import HttpService.Refusal
import HttpService.Sink

/-! The response of a connection: it is held back until the handler is done, so that it can say how long its
body is and whether the connection stays open. -/

namespace HttpService

structure ResponseBuffer where
  version : Version
  headOnly : Bool
  status : Option Status
  close : Bool
  head : Bytes
  body : Bytes
  capacity : Nat
deriving DecidableEq

namespace ResponseBuffer

def new (limits : ResponseLimits) : ResponseBuffer :=
  ⟨.http11, false, none, false, [], [], limits.defaultCapacity⟩

def reserve (limits : ResponseLimits) : Except String ResponseBuffer := do
  Allocation.reserve limits.defaultCapacity 1
  return new limits

/-- Makes the buffer ready for the response to a request. Room beyond the limit is given back. -/
def reset (buffer : ResponseBuffer) (request : Request) (limits : ResponseLimits) : ResponseBuffer :=
  let ready : ResponseBuffer :=
    { buffer with
      version := request.version
      headOnly := request.method = .head
      status := none
      close := false
      head := [] }
  if limits.maxCapacity < ready.capacity then { ready with body := [], capacity := limits.defaultCapacity }
  else { ready with body := [] }

def isFraming (name : FieldName) : Bool :=
  name == .connection || name == .contentLength || name == .transferEncoding

def fieldLine (line : FieldName × FieldValue) : Bytes :=
  line.1.bytes ++ Ascii.bytes ": " ++ line.2.bytes ++ Ascii.crlf

def statusLine (version : Version) (status : Status) : Bytes :=
  Refusal.answeredVersion version ++ Decimal.toBytes status.code ++ [Ascii.space] ++
    Ascii.bytes (status.reason?.getD "") ++ Ascii.crlf

def asksToClose (line : FieldName × FieldValue) : Bool :=
  line.1 == .connection && Bytes.sameIgnoringCase line.2.bytes (Ascii.bytes "close")

def sendHead (buffer : ResponseBuffer) (status : Status) (fields : Fields) : ResponseBuffer :=
  match buffer.status with
  | some _ => buffer
  | none =>
    { buffer with
      status := some status
      close := buffer.close || fields.toList.any asksToClose
      head := buffer.head ++ statusLine buffer.version status ++
        (fields.toList.filter fun line => !isFraming line.1).flatMap fieldLine }

def bodyBeforeHead : IoError := ⟨.other, "body written before the response head"⟩

def grown (capacity used more : Nat) : Nat :=
  if capacity - used < more then max (max (capacity * 2) (used + more)) 8 else capacity

instance : Sink ResponseBuffer where
  writeHead buffer status fields := ⟨.ok (), buffer.sendHead status fields⟩
  writeBody buffer content :=
    match buffer.status with
    | none => ⟨.error bodyBeforeHead, buffer⟩
    | some _ =>
      ⟨.ok content.length,
        { buffer with
          body := buffer.body ++ content
          capacity := grown buffer.capacity buffer.body.length content.length }⟩
  committed buffer := buffer.status.isSome
  flush buffer := ⟨.ok (), buffer⟩

def framing (bodyLength : Nat) (keepAlive : Bool) : Bytes :=
  Ascii.bytes "content-length: " ++ Decimal.toBytes bodyLength ++ Ascii.crlf ++
    Ascii.bytes (if keepAlive then "connection: keep-alive" else "connection: close") ++ Ascii.crlf ++ Ascii.crlf

/-- The buffer with a whole head; without a status it answers 200 and no field. -/
def closeHead (buffer : ResponseBuffer) (keepAlive : Bool) : Bool × ResponseBuffer :=
  let buffer := buffer.sendHead .ok .empty
  let kept := keepAlive && !buffer.close
  (kept, { buffer with head := buffer.head ++ framing buffer.body.length kept })

structure Finished where
  kept : Except IoError Bool
  buffer : ResponseBuffer
  outlet : Outlet

/-- Writes out the whole response. A request for the head alone gets no body. -/
def finish (buffer : ResponseBuffer) (outlet : Outlet) (keepAlive : Bool) : Finished :=
  let (kept, buffer) := buffer.closeHead keepAlive
  match outlet.writeAll buffer.head with
  | (.error error, outlet) => ⟨.error error, buffer, outlet⟩
  | (.ok (), outlet) =>
    match if buffer.headOnly then (.ok (), outlet) else outlet.writeAll buffer.body with
    | (.error error, outlet) => ⟨.error error, buffer, outlet⟩
    | (.ok (), outlet) =>
      match outlet.flush with
      | (.error error, outlet) => ⟨.error error, buffer, outlet⟩
      | (.ok (), outlet) => ⟨.ok kept, buffer, outlet⟩

def freshWriter (buffer : ResponseBuffer) (request : Request) (limits : ResponseLimits) : Writer ResponseBuffer :=
  ⟨.empty, buffer.reset request limits⟩

end ResponseBuffer

end HttpService
