import HttpService.Bytes
import HttpService.IoError

/-! The reading side of a stream: what arrives, read by read. -/

namespace HttpService

/-- One thing that a stream has ready: bytes that arrive together, or a failure. Bytes that do not fit into
one read stay for the next one, and an empty piece is a read that ends without a byte. -/
inductive Arrival
  | piece (content : Bytes)
  | failure (error : IoError)
deriving DecidableEq

abbrev Source := List Arrival

namespace Source

def read (room : Nat) : Source → Except IoError Bytes × Source
  | [] => (.ok [], [])
  | .failure error :: rest => (.error error, rest)
  | .piece content :: rest =>
    if content.length ≤ room then (.ok content, rest)
    else (.ok (content.take room), .piece (content.drop room) :: rest)

def readExactly : Source → Nat → Except IoError Bytes × Source
  | source, 0 => (.ok [], source)
  | [], _ + 1 => (.error .bodyCutShort, [])
  | .failure error :: rest, wanted + 1 =>
    if error.kind = .interrupted then readExactly rest (wanted + 1) else (.error error, rest)
  | .piece content :: rest, wanted + 1 =>
    if content.isEmpty then (.error .bodyCutShort, rest)
    else if content.length ≤ wanted + 1 then
      match readExactly rest (wanted + 1 - content.length) with
      | (.ok later, rest) => (.ok (content ++ later), rest)
      | (.error error, rest) => (.error error, rest)
    else (.ok (content.take (wanted + 1)), .piece (content.drop (wanted + 1)) :: rest)

def bytes : Source → Bytes
  | [] => []
  | .failure _ :: rest => bytes rest
  | .piece content :: rest => content ++ bytes rest

end Source

end HttpService
