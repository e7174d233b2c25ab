import HttpService.Allocation
import HttpService.Head
import HttpService.Source

/-! The buffer in front of a stream: it holds one request head, and whatever has already come after it. -/

namespace HttpService

structure HeadBuffer where
  room : Nat
  content : Bytes
deriving DecidableEq

namespace HeadBuffer

def new (limits : RequestLimits) : HeadBuffer := ⟨limits.headLength, []⟩

def reserve (limits : RequestLimits) : Except String HeadBuffer := do
  Allocation.reserve limits.headLength 1
  return new limits

def endMark : Bytes := [Ascii.cr, Ascii.lf, Ascii.cr, Ascii.lf]

def headEnd? (content : Bytes) : Option Nat := (Bytes.indexOf? endMark content).map (· + 4)

def consume (buffer : HeadBuffer) (count : Nat) : HeadBuffer :=
  { buffer with content := buffer.content.drop count }

structure Reading (α : Type) where
  outcome : Except ReadFailure α
  buffer : HeadBuffer
  source : Source

/-- What the buffer says without another read: where the head ends, or that there is no room for more of it.
It is `none` if the stream has to be asked. -/
def verdict? (buffer : HeadBuffer) : Option (Except ReadFailure (Option Nat)) :=
  match headEnd? buffer.content with
  | some stop => some (.ok (some stop))
  | none =>
    if buffer.content.length = buffer.room then some (.error (.refused .headTooLarge))
    else if buffer.room < buffer.content.length then some (.error (.panicked Head.outOfBounds))
    else none

def atEnd (buffer : HeadBuffer) : Except ReadFailure (Option Nat) :=
  if buffer.content.isEmpty then .ok none else .error (.io .headCutShort)

def atFailure (buffer : HeadBuffer) (error : IoError) : Except ReadFailure (Option Nat) :=
  if buffer.content.isEmpty && error.kind.isTimeout then .ok none else .error (.io error)

/-- Reads until a whole head is in the buffer and says where it ends. It is `none` if the stream ends, or
nothing comes in time, before the first byte of a head. -/
def readHead (buffer : HeadBuffer) (source : Source) : Reading (Option Nat) :=
  match buffer.verdict? with
  | some verdict => ⟨verdict, buffer, source⟩
  | none =>
    match source with
    | [] => ⟨buffer.atEnd, buffer, []⟩
    | .failure error :: rest =>
      if error.kind = .interrupted then readHead buffer rest else ⟨buffer.atFailure error, buffer, rest⟩
    | .piece content :: rest =>
      let free := buffer.room - buffer.content.length
      if content.isEmpty then ⟨buffer.atEnd, buffer, rest⟩
      else if content.length ≤ free then readHead { buffer with content := buffer.content ++ content } rest
      else
        let filled := { buffer with content := buffer.content ++ content.take free }
        ⟨filled.verdict?.getD filled.atEnd, filled, .piece (content.drop free) :: rest⟩
termination_by structural source

/-- Reads the body of `length` bytes that begins at `start` in the buffer. What the buffer holds comes first,
and the rest straight from the stream; the buffer then begins behind what has been used of it. -/
def readBody (buffer : HeadBuffer) (source : Source) (start length : Nat) : Reading Bytes :=
  if buffer.content.length < start then ⟨.error (.panicked Head.outOfBounds), buffer, source⟩
  else
    match Allocation.reserve length 1 with
    | .error message => ⟨.error (.panicked message), buffer, source⟩
    | .ok () =>
      let held := (buffer.content.drop start).take length
      let after := buffer.consume (start + held.length)
      match source.readExactly (length - held.length) with
      | (.ok later, rest) => ⟨.ok (held ++ later), after, rest⟩
      | (.error error, rest) => ⟨.error (.io error), after, rest⟩

end HeadBuffer

end HttpService
