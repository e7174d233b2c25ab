import HttpService.Message.Field

/-! Cookies: pairs of name and value in the cookie fields of a request. -/

namespace HttpService

namespace Cookie

def semicolon : UInt8 := 0x3B
def quotationMark : UInt8 := 0x22
def equalsSign : UInt8 := 0x3D

def isBlank (byte : UInt8) : Bool := byte == Ascii.space || byte == 0x09

def trimBlanks (content : Bytes) : Bytes :=
  ((content.dropWhile isBlank).reverse.dropWhile isBlank).reverse

def trimQuotes (content : Bytes) : Bytes :=
  ((content.dropWhile (· == quotationMark)).reverse.dropWhile (· == quotationMark)).reverse

def pairs (content : Bytes) : List (Bytes × Bytes) :=
  (Bytes.splitAll semicolon content).filterMap fun piece =>
    Bytes.splitFirst? equalsSign (trimBlanks piece)

/-- The value of the first pair with this name, without quotation marks around it. Values that are no visible
ASCII are passed over. -/
def lookup? (fields : Fields) (name : Bytes) : Option Bytes :=
  let visible := (fields.values .cookie).filter fun value => value.text?.isSome
  let found := (visible.flatMap fun value => pairs value.bytes).find? fun pair => pair.1 == name
  found.map fun pair => trimQuotes pair.2

end Cookie

end HttpService
