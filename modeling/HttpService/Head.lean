import HttpService.Limits
import HttpService.Message.Field
import HttpService.Message.Method
import HttpService.Message.Slots
import HttpService.Message.Uri
import HttpService.Refusal

/-! The head of a request: the first line, the field lines, and what they decide about the body and about the
connection. -/

namespace HttpService

structure Head where
  method : Method
  uri : Uri
  version : Version
  fields : Fields
  contentLength : Nat
  keepAlive : Bool
deriving DecidableEq

abbrev Persistence := Bool

namespace Persistence

/-- The tokens of one connection field, in order. A `close` ends the field, whatever follows it. -/
def applyTokens (keepAlive : Persistence) : List Bytes → Persistence
  | [] => keepAlive
  | token :: rest =>
    if Bytes.sameIgnoringCase token (Ascii.bytes "keep-alive") then applyTokens true rest
    else if Bytes.sameIgnoringCase token (Ascii.bytes "close") then false
    else applyTokens keepAlive rest

def tokens (value : Bytes) : List Bytes := (Bytes.splitAll Ascii.comma value).map Bytes.trim

def apply (keepAlive : Persistence) (value : Bytes) : Persistence := applyTokens keepAlive (tokens value)

end Persistence

namespace Head

def refuse {α : Type} (refusal : Refusal) : Except ReadFailure α := .error (.refused refusal)

def orRefuse {α : Type} (refusal : Refusal) : Option α → Except ReadFailure α
  | some value => .ok value
  | none => refuse refusal

/-- Panics where a collection wants more slots than there can be. -/
def orOverflow {α : Type} : Option α → Except ReadFailure α
  | some value => .ok value
  | none => .error (.panicked Slots.overflow)

def outOfBounds : String := "range out of bounds"

def cut (content : Bytes) (start stop : Nat) : Except ReadFailure Bytes :=
  match Bytes.slice? content start stop with
  | some piece => .ok piece
  | none => .error (.panicked outOfBounds)

/-- Where the first line ends. The first line feed must have a carriage return before it, and that is the
end. -/
def lineEnd? (content : Bytes) : Option Nat :=
  match content.findIdx? (· == Ascii.lf) with
  | none => none
  | some feed => if 0 < feed ∧ content[feed - 1]? = some Ascii.cr then some (feed - 1) else none

def http11 : Bytes := Ascii.bytes "HTTP/1.1"
def http10 : Bytes := Ascii.bytes "HTTP/1.0"

def readVersion (content : Bytes) : Except ReadFailure Version :=
  if content = http11 then .ok .http11
  else if content = http10 then .ok .http10
  else if (Ascii.bytes "HTTP/").isPrefixOf content then refuse .unsupportedVersion
  else refuse .invalidVersion

def hasTargetForm (target : Bytes) : Bool :=
  target.head? == some PathAndQuery.slash || target.head? == some 0x2A ||
    (Bytes.indexOf? Uri.afterScheme target).isSome

def readTarget (limits : RequestLimits) (target : Bytes) : Except ReadFailure Uri :=
  if limits.targetLength < target.length then refuse .urlTooLong
  else if !hasTargetForm target then refuse .invalidUrl
  else orRefuse .invalidUrl (Uri.ofBytes? target)

def readFirstLine (limits : RequestLimits) (line : Bytes) :
    Except ReadFailure (Method × Uri × Version) := do
  let (token, rest) ← orRefuse .invalidMethod (Bytes.splitFirst? Ascii.space line)
  let method ← orRefuse .invalidMethod (Method.ofBytes? token)
  let (target, version) ← orRefuse .invalidVersion (Bytes.splitFirst? Ascii.space rest)
  let uri ← readTarget limits target
  let version ← readVersion version
  return (method, uri, version)

def splitField (limits : RequestLimits) (line : Bytes) : Except ReadFailure (Bytes × Bytes) := do
  let (name, rest) ← orRefuse .invalidField (Bytes.splitFirst? Ascii.colon line)
  let value := Bytes.trim rest
  if name.isEmpty || limits.fieldNameLength < name.length || limits.fieldValueLength < value.length then
    refuse .invalidField
  else return (name, value)

structure Progress where
  fields : Fields
  contentLength : Option Nat
  keepAlive : Persistence
  slots : Slots
deriving DecidableEq

namespace Progress

def start (version : Version) (slots : Slots) : Progress := ⟨.empty, none, version = .http11, slots⟩

def applyLength (limits : RequestLimits) (progress : Progress) (value : Bytes) :
    Except ReadFailure Progress := do
  let length ← orRefuse .invalidContentLength (Decimal.ofBytes? value)
  if progress.contentLength.any (· ≠ length) then refuse .invalidContentLength
  else if limits.bodyLength < length then refuse .bodyTooLarge
  else return { progress with contentLength := some length }

def applyFraming (limits : RequestLimits) (progress : Progress) (name value : Bytes) :
    Except ReadFailure Progress :=
  if Bytes.sameIgnoringCase name FieldName.connection.bytes then
    .ok { progress with keepAlive := Persistence.apply progress.keepAlive value }
  else if Bytes.sameIgnoringCase name FieldName.contentLength.bytes then progress.applyLength limits value
  else if Bytes.sameIgnoringCase name FieldName.transferEncoding.bytes &&
      !Bytes.sameIgnoringCase value (Ascii.bytes "identity") then refuse .unsupportedTransferEncoding
  else .ok progress

/-- The collection must take the name before the field stands in it. -/
def readField [FieldHash] (limits : RequestLimits) (progress : Progress) (line : Bytes) :
    Except ReadFailure Progress := do
  let (name, value) ← splitField limits line
  let progress ← progress.applyFraming limits name value
  let name ← orRefuse .invalidField (FieldName.ofBytes? name)
  let value ← orRefuse .invalidField (FieldValue.ofBytes? value)
  let slots ← orOverflow (progress.slots.take? name)
  return { progress with fields := progress.fields.append name value, slots }

end Progress

def readFields [FieldHash] (limits : RequestLimits) : Nat → Bytes → Progress → Except ReadFailure Progress
  | allowed, content, progress => do
    let stop ← orRefuse .invalidField (lineEnd? content)
    if stop = 0 then return progress
    match allowed with
    | 0 => refuse .tooManyFields
    | allowed + 1 =>
      let line ← cut content 0 stop
      let progress ← progress.readField limits line
      readFields limits allowed (content.drop (stop + 2)) progress

/-- A collection of fields has room for so many names. -/
def maxFields : Nat := 24576

def read [FieldHash] (limits : RequestLimits) (buffer : Bytes) (stop : Nat) : Except ReadFailure Head := do
  let content ← cut buffer 0 stop
  if !Utf8.isValid content then refuse .invalidField
  else
    let firstEnd ← orRefuse .invalidVersion (lineEnd? content)
    let line ← cut content 0 firstEnd
    let (method, uri, version) ← readFirstLine limits line
    let slots ← orOverflow (Slots.new? limits.fieldCount)
    let progress ← readFields limits limits.fieldCount (content.drop (firstEnd + 2)) (.start version slots)
    return ⟨method, uri, version, progress.fields, progress.contentLength.getD 0, progress.keepAlive⟩

end Head

end HttpService
