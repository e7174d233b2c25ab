import HttpService.Utf8

/-! Form fields: pairs of name and value joined by ampersands, with percent signs and plus signs as escapes. -/

namespace HttpService

namespace Form

def ampersand : UInt8 := 0x26
def equalsSign : UInt8 := 0x3D
def percent : UInt8 := 0x25
def plus : UInt8 := 0x2B

def hexValue? (byte : UInt8) : Option UInt8 :=
  if Ascii.isDigit byte then some (byte - 0x30)
  else if 0x41 ≤ byte && byte ≤ 0x46 then some (byte - 0x37)
  else if 0x61 ≤ byte && byte ≤ 0x66 then some (byte - 0x57)
  else none

/-- Two hexadecimal digits after a percent sign are one byte; any other percent sign is kept. -/
def percentDecode : Bytes → Bytes
  | [] => []
  | byte :: rest =>
    if byte == percent then
      match rest with
      | high :: low :: after =>
        match hexValue? high, hexValue? low with
        | some upper, some lower => (upper * 16 + lower) :: percentDecode after
        | _, _ => byte :: percentDecode (high :: low :: after)
      | short => byte :: percentDecode short
    else byte :: percentDecode rest

def plusToSpace (content : Bytes) : Bytes :=
  content.map fun byte => if byte == plus then Ascii.space else byte

def decodeText (content : Bytes) : String := Utf8.lossy (percentDecode (plusToSpace content))

def decodePair (piece : Bytes) : String × String :=
  match Bytes.splitFirst? equalsSign piece with
  | none => (decodeText piece, decodeText [])
  | some (name, value) => (decodeText name, decodeText value)

def decode (content : Bytes) : List (String × String) :=
  ((Bytes.splitAll ampersand content).filter fun piece => !piece.isEmpty).map decodePair

def lookup? (fields : List (String × String)) (name : String) : Option String :=
  (fields.find? fun field => field.1 == name).map Prod.snd

end Form

end HttpService
