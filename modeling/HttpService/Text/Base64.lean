import HttpService.Bytes

/-! Bytes written as text in an alphabet of 64 characters: four characters stand for three bytes. White space
may stand anywhere, and the marks that fill up the last four characters may be left out. -/

namespace HttpService

namespace Base64

inductive Base64Error
  | invalidCharacter (byte : UInt8)
  | earlyPadding
  | invalidPadding
deriving DecidableEq

def Base64Error.message : Base64Error → String
  | invalidCharacter byte => s!"InvalidCharacter({byte.toNat})"
  | earlyPadding => "PrematurePadding"
  | invalidPadding => "InvalidTrailingPadding"

/-- A character that counts: one of the alphabet, with its six bits, or the mark that fills up. -/
inductive Symbol
  | digit (value : Nat)
  | padding
deriving DecidableEq

def isBlank (byte : UInt8) : Bool := Ascii.isWhite byte || byte == 0x0B

def symbol? (byte : UInt8) : Option Symbol :=
  if Ascii.isUpper byte then some (.digit (byte.toNat - 0x41))
  else if Ascii.isLower byte then some (.digit (byte.toNat - 0x61 + 26))
  else if Ascii.isDigit byte then some (.digit (byte.toNat - 0x30 + 52))
  else if byte == 0x2B then some (.digit 62)
  else if byte == 0x2F then some (.digit 63)
  else if byte == 0x3D then some .padding
  else none

def symbols (content : Bytes) : List Symbol × Option UInt8 :=
  let shown := content.filter fun byte => !isBlank byte
  let (good, rest) := shown.span fun byte => (symbol? byte).isSome
  (good.filterMap symbol?, rest.head?)

def decodeFour : List Symbol → Except Base64Error Bytes
  | [] => .ok []
  | [.digit a, .digit b, .digit c, .digit d] =>
    .ok [(a * 4 + b / 16).toUInt8, (b * 16 + c / 4).toUInt8, (c * 64 + d).toUInt8]
  | [.digit a, .digit b, .digit c, .padding] => .ok [(a * 4 + b / 16).toUInt8, (b * 16 + c / 4).toUInt8]
  | [.digit a, .digit b, .digit c] => .ok [(a * 4 + b / 16).toUInt8, (b * 16 + c / 4).toUInt8]
  | [.digit a, .digit b, .padding, .padding] => .ok [(a * 4 + b / 16).toUInt8]
  | [.digit a, .digit b] => .ok [(a * 4 + b / 16).toUInt8]
  | _ => .error .invalidPadding

def decodeInner (group : List Symbol) : Except Base64Error Bytes :=
  if group.contains .padding then .error .earlyPadding
  else do return (← decodeFour (group.take 4)) ++ (← decodeFour (group.drop 4))

def decodeLast (group : List Symbol) : Except Base64Error Bytes :=
  if group.length ≤ 4 then decodeFour group
  else do return (← decodeInner (group.take 4)) ++ (← decodeFour (group.drop 4))

def groupsOnto (done : List (List Symbol)) (content : List Symbol) : List (List Symbol) :=
  match content with
  | a :: b :: c :: d :: e :: f :: g :: h :: next :: rest =>
    groupsOnto ([a, b, c, d, e, f, g, h] :: done) (next :: rest)
  | short => short :: done

def groups (content : List Symbol) : List (List Symbol) := (groupsOnto [] content).reverse

/-- Decodes a text. Groups of eight symbols are looked at as soon as another symbol follows them, and the last
one after everything else, which decides which of two errors is told. -/
def decode (content : Bytes) : Except Base64Error Bytes := do
  let (shown, stray) := symbols content
  let parts := groups shown
  let inner ← parts.dropLast.mapM decodeInner
  match stray with
  | some byte => throw (.invalidCharacter byte)
  | none => return inner.flatten ++ (← decodeLast (parts.getLast?.getD []))

end Base64

end HttpService
