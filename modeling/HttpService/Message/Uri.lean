import HttpService.Utf8

/-! Request targets: the asterisk, a path with a query, an absolute address, or an authority alone. -/

namespace HttpService

structure PathAndQuery where
  path : Bytes
  query : Option Bytes
deriving DecidableEq

namespace PathAndQuery

def slash : UInt8 := 0x2F
def questionMark : UInt8 := 0x3F
def hash : UInt8 := 0x23

def endsPath (byte : UInt8) : Bool := byte == questionMark || byte == hash

def isPathByte (byte : UInt8) : Bool :=
  byte == 0x21 || byte == 0x22 || (0x24 ≤ byte && byte ≤ 0x3B) || byte == 0x3D ||
    (0x40 ≤ byte && byte ≤ 0x5F) || (0x61 ≤ byte && byte ≤ 0x7E) || 0x80 ≤ byte

def isQueryByte (byte : UInt8) : Bool :=
  byte == 0x21 || (0x24 ≤ byte && byte ≤ 0x3B) || byte == 0x3D || (0x3F ≤ byte && byte ≤ 0x7E) ||
    0x80 ≤ byte

def bytes (target : PathAndQuery) : Bytes :=
  match target.query with
  | none => target.path
  | some query => target.path ++ questionMark :: query

/-- The path, the query after the first question mark, and no fragment: what follows a hash is dropped. -/
def split (content : Bytes) : PathAndQuery :=
  match content.dropWhile fun byte => !endsPath byte with
  | [] => ⟨content, none⟩
  | mark :: after =>
    ⟨content.takeWhile fun byte => !endsPath byte,
      if mark == questionMark then some (after.takeWhile fun byte => byte != hash) else none⟩

def isWellFormed (target : PathAndQuery) : Bool :=
  target.path.all isPathByte && (target.query.getD []).all isQueryByte && Utf8.isValid target.bytes

def ofBytes? (content : Bytes) : Option PathAndQuery :=
  let target := split content
  if target.isWellFormed then some target else none

def shownPath (target : PathAndQuery) : Bytes :=
  if target.path.isEmpty then [slash] else target.path

def shown (target : PathAndQuery) : Bytes :=
  if target.bytes.isEmpty then [slash] else target.bytes

end PathAndQuery

namespace Authority

def endsAuthority (byte : UInt8) : Bool :=
  byte == PathAndQuery.slash || byte == PathAndQuery.questionMark || byte == PathAndQuery.hash

def isPlain (byte : UInt8) : Bool := Ascii.isAlphanumeric byte || (Ascii.bytes "-._~!$&'()*+,;=").contains byte

/-- What has been seen of an authority: colons and percent signs that no at sign or closing bracket has
followed yet, the brackets, and whether the last byte was an at sign. -/
structure Scan where
  colons : Nat
  percent : Bool
  opened : Bool
  closed : Bool
  atSign : Bool
deriving DecidableEq

def Scan.start : Scan := ⟨0, false, false, false, false⟩

def Scan.next? (scan : Scan) (byte : UInt8) : Option Scan :=
  if byte == Ascii.colon then
    if 8 ≤ scan.colons then none else some { scan with colons := scan.colons + 1, atSign := false }
  else if byte == 0x5B then
    if scan.percent || scan.opened then none else some { scan with opened := true, atSign := false }
  else if byte == 0x5D then
    if !scan.opened || scan.closed then none
    else some { scan with closed := true, colons := 0, percent := false, atSign := false }
  else if byte == 0x40 then some { scan with colons := 0, percent := false, atSign := true }
  else if byte == 0x25 then some { scan with percent := true, atSign := false }
  else if isPlain byte then some { scan with atSign := false }
  else none

def Scan.isComplete (scan : Scan) : Bool :=
  scan.opened == scan.closed && scan.colons ≤ 1 && !scan.percent && !scan.atSign

def isWellFormed (content : Bytes) : Bool :=
  match content.foldlM Scan.next? Scan.start with
  | none => false
  | some scan => scan.isComplete

end Authority

inductive Uri
  | asterisk
  | origin (target : PathAndQuery)
  | absolute (scheme authority : Bytes) (target : PathAndQuery)
  | authorityOnly (authority : Bytes)
deriving DecidableEq

namespace Uri

def isSchemeByte (byte : UInt8) : Bool := Ascii.isAlphanumeric byte || (Ascii.bytes "+.~-").contains byte

def afterScheme : Bytes := Ascii.bytes "://"

def splitScheme? (content : Bytes) : Option (Bytes × Bytes) :=
  if Bytes.lower (content.take 7) == Ascii.bytes "http://" then some (Ascii.bytes "http", content.drop 7)
  else if Bytes.lower (content.take 8) == Ascii.bytes "https://" then
    some (Ascii.bytes "https", content.drop 8)
  else if content.length ≤ 3 then none
  else
    let scheme := content.takeWhile isSchemeByte
    let rest := content.drop scheme.length
    if afterScheme.isPrefixOf rest then some (scheme, rest.drop 3) else none

def maxSchemeLength : Nat := 64
def maxLength : Nat := 65534

def ofAddress? (content : Bytes) : Option Uri :=
  match splitScheme? content with
  | none =>
    if content.all (fun byte => !Authority.endsAuthority byte) && Authority.isWellFormed content then
      some (.authorityOnly content)
    else none
  | some (scheme, rest) =>
    let authority := rest.takeWhile fun byte => !Authority.endsAuthority byte
    if maxSchemeLength < scheme.length || authority.isEmpty || !Authority.isWellFormed authority then none
    else (PathAndQuery.ofBytes? (rest.drop authority.length)).map (.absolute scheme authority)

def ofBytes? (content : Bytes) : Option Uri :=
  if maxLength < content.length then none
  else
    match content with
    | [] => none
    | first :: rest =>
      if first == 0x2A && rest.isEmpty then some .asterisk
      else if first == PathAndQuery.slash then (PathAndQuery.ofBytes? content).map .origin
      else ofAddress? content

def root : Uri := .origin ⟨[PathAndQuery.slash], none⟩

def scheme? : Uri → Option Bytes
  | .absolute scheme _ _ => some scheme
  | _ => none

def authority? : Uri → Option Bytes
  | .absolute _ authority _ => some authority
  | .authorityOnly authority => some authority
  | _ => none

def path : Uri → Bytes
  | .asterisk => [0x2A]
  | .origin target => target.shownPath
  | .absolute _ _ target => target.shownPath
  | .authorityOnly _ => []

def query? : Uri → Option Bytes
  | .origin target => target.query
  | .absolute _ _ target => target.query
  | _ => none

def pathAndQuery : Uri → Bytes
  | .asterisk => [0x2A]
  | .origin target => target.shown
  | .absolute _ _ target => target.shown
  | .authorityOnly _ => []

def bytes (uri : Uri) : Bytes :=
  (match uri.scheme? with
    | none => []
    | some scheme => scheme ++ afterScheme) ++
  uri.authority?.getD [] ++ uri.path ++
  match uri.query? with
    | none => []
    | some query => PathAndQuery.questionMark :: query

def text (uri : Uri) : String := Utf8.lossy uri.bytes

end Uri

end HttpService
