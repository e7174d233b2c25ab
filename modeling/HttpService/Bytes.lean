/-! Byte strings, and the ASCII rules that the wire format is written in. -/

namespace HttpService

abbrev Bytes := List UInt8

namespace Ascii

def cr : UInt8 := 0x0D
def lf : UInt8 := 0x0A
def space : UInt8 := 0x20
def colon : UInt8 := 0x3A
def comma : UInt8 := 0x2C

def bytes (text : String) : Bytes :=
  text.toList.map fun character => character.toNat.toUInt8

def crlf : Bytes := [cr, lf]

def isDigit (byte : UInt8) : Bool := 0x30 ≤ byte && byte ≤ 0x39

def isUpper (byte : UInt8) : Bool := 0x41 ≤ byte && byte ≤ 0x5A

def isLower (byte : UInt8) : Bool := 0x61 ≤ byte && byte ≤ 0x7A

def isAlphanumeric (byte : UInt8) : Bool := isDigit byte || isUpper byte || isLower byte

def toLower (byte : UInt8) : UInt8 := if isUpper byte then byte + 0x20 else byte

/-- Space, tab, line feed, form feed and carriage return; the vertical tab is no white space here. -/
def isWhite (byte : UInt8) : Bool :=
  byte == 0x20 || byte == 0x09 || byte == 0x0A || byte == 0x0C || byte == 0x0D

def isToken (byte : UInt8) : Bool :=
  isAlphanumeric byte || (bytes "!#$%&'*+-.^_`|~").contains byte

def isVisible (byte : UInt8) : Bool := (0x20 ≤ byte && byte ≤ 0x7E) || byte == 0x09

theorem holds_of_all (property : UInt8 → Bool)
    (checked : (List.range 256).all (fun value => property value.toUInt8) = true) (byte : UInt8) :
    property byte = true := by
  have found := List.all_eq_true.mp checked byte.toNat (List.mem_range.mpr byte.toNat_lt)
  simpa using found

theorem toLower_toLower (byte : UInt8) : toLower (toLower byte) = toLower byte :=
  beq_iff_eq.mp (holds_of_all (fun value => toLower (toLower value) == toLower value) (by decide +kernel) byte)

theorem isToken_toLower (byte : UInt8) : isToken (toLower byte) = isToken byte :=
  beq_iff_eq.mp (holds_of_all (fun value => isToken (toLower value) == isToken value) (by decide +kernel) byte)

end Ascii

namespace Bytes

def toText (content : Bytes) : String :=
  String.ofList (content.map fun byte => Char.ofNat byte.toNat)

def lower (content : Bytes) : Bytes := content.map Ascii.toLower

theorem lower_lower (content : Bytes) : lower (lower content) = lower content := by
  simp [lower, Ascii.toLower_toLower]

def sameIgnoringCase (left right : Bytes) : Bool := lower left == lower right

def trimStart (content : Bytes) : Bytes := content.dropWhile Ascii.isWhite

def trimEnd (content : Bytes) : Bytes := (content.reverse.dropWhile Ascii.isWhite).reverse

def trim (content : Bytes) : Bytes := trimEnd (trimStart content)

def splitAll (separator : UInt8) : Bytes → List Bytes
  | [] => [[]]
  | byte :: rest =>
    if byte == separator then [] :: splitAll separator rest
    else
      match splitAll separator rest with
      | [] => [[byte]]
      | piece :: pieces => (byte :: piece) :: pieces

def splitFirst? (separator : UInt8) : Bytes → Option (Bytes × Bytes)
  | [] => none
  | byte :: rest =>
    if byte == separator then some ([], rest)
    else (splitFirst? separator rest).map fun halves => (byte :: halves.1, halves.2)

theorem eq_of_splitFirst? (separator : UInt8) {content before after : Bytes}
    (found : splitFirst? separator content = some (before, after)) :
    content = before ++ separator :: after ∧ separator ∉ before := by
  induction content generalizing before with
  | nil => simp [splitFirst?] at found
  | cons byte rest ih =>
      simp only [splitFirst?] at found
      by_cases same : byte = separator
      · simp only [same, beq_self_eq_true, ↓reduceIte, Option.some.injEq, Prod.mk.injEq] at found
        obtain ⟨rfl, rfl⟩ := found
        simp [same]
      · simp only [beq_iff_eq, same, ↓reduceIte, Option.map_eq_some_iff, Prod.mk.injEq] at found
        obtain ⟨⟨first, second⟩, later, rfl, rfl⟩ := found
        obtain ⟨split, absent⟩ := ih later
        refine ⟨by simp [split], ?_⟩
        simp only [List.mem_cons, not_or]
        exact ⟨fun equal => same equal.symm, absent⟩

def indexOf? (pattern : Bytes) : Bytes → Option Nat
  | [] => if pattern.isEmpty then some 0 else none
  | byte :: rest =>
    if pattern.isPrefixOf (byte :: rest) then some 0 else (indexOf? pattern rest).map (· + 1)

def reaches (content : Bytes) (count : Nat) : Bool := decide ((content.take count).length = count)

theorem reaches_iff (content : Bytes) (count : Nat) : content.reaches count = true ↔ count ≤ content.length := by
  simp only [reaches, decide_eq_true_eq, List.length_take]
  omega

def slice? (content : Bytes) (start stop : Nat) : Option Bytes :=
  if start ≤ stop ∧ content.reaches stop then some ((content.drop start).take (stop - start)) else none

end Bytes

end HttpService
