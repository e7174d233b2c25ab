import HttpService.Head
import HttpService.Message.Status
import HttpService.Proofs.Digits

/-! What cannot stand in the parts that a head is made of: no name, value, number or reason holds a line feed, and
no name a mark that ends it. -/

namespace HttpService

namespace Ascii

theorem ne_of_isToken {byte : UInt8} (token : isToken byte = true) :
    byte ≠ lf ∧ byte ≠ space ∧ byte ≠ colon ∧ byte < 0x80 := by
  have checked := holds_of_all
    (fun value => !isToken value || (value != lf && value != space && value != colon && decide (value < 0x80)))
    (by decide +kernel) byte
  simpa [token, and_assoc] using checked

theorem ne_of_isDigit {byte : UInt8} (digit : isDigit byte = true) :
    byte ≠ lf ∧ byte ≠ space ∧ byte < 0x80 ∧ isWhite byte = false := by
  have checked := holds_of_all
    (fun value => !isDigit value || (value != lf && value != space && decide (value < 0x80) && !isWhite value))
    (by decide +kernel) byte
  simpa [digit, and_assoc] using checked

theorem ne_lf_of_value {byte : UInt8} (sound : ((0x20 ≤ byte && byte != 0x7F) || byte == 0x09) = true) :
    byte ≠ lf := by
  have checked := holds_of_all (fun value => !((0x20 ≤ value && value != 0x7F) || value == 0x09) || value != lf)
    (by decide +kernel) byte
  rw [sound] at checked
  simpa using checked

theorem value_of_isDigit {byte : UInt8} (digit : isDigit byte = true) :
    ((0x20 ≤ byte && byte != 0x7F) || byte == 0x09) = true := by
  have checked := holds_of_all
    (fun value => !isDigit value || ((0x20 ≤ value && value != 0x7F) || value == 0x09)) (by decide +kernel) byte
  rw [digit] at checked
  simpa using checked

theorem bytes_colonSpace : bytes ": " = [colon, space] := by decide +kernel

end Ascii

namespace FieldName

theorem isToken_of_mem (name : FieldName) {byte : UInt8} (member : byte ∈ name.bytes) :
    Ascii.isToken byte = true := by
  have sound := name.wellFormed
  simp only [Bool.and_eq_true, List.all_eq_true] at sound
  exact (sound.2 byte member).1

theorem lower_bytes (name : FieldName) : Bytes.lower name.bytes = name.bytes := by
  have sound := name.wellFormed
  simp only [Bool.and_eq_true, List.all_eq_true, beq_iff_eq] at sound
  have same : name.bytes.map Ascii.toLower = name.bytes.map id :=
    List.map_congr_left fun byte member => (sound.2 byte member).2
  simpa [Bytes.lower] using same

theorem eq_of_bytes {name other : FieldName} (same : name.bytes = other.bytes) : name = other := by
  cases name
  cases other
  simpa using same

theorem sameIgnoringCase_spelling {spelling : Bytes} {name : FieldName} (spelled : ofBytes? spelling = some name)
    (other : FieldName) : Bytes.sameIgnoringCase spelling other.bytes = (name == other) := by
  rw [Bytes.sameIgnoringCase, other.lower_bytes, ← ofBytes?_eq_some spelled, Bool.eq_iff_iff, beq_iff_eq,
    beq_iff_eq]
  exact ⟨eq_of_bytes, fun same => same ▸ rfl⟩

theorem ofBytes?_bytes (name : FieldName) : ofBytes? name.bytes = some name := by
  have sound : isWellFormed (Bytes.lower name.bytes) = true := by
    rw [name.lower_bytes]
    exact name.wellFormed
  have same : (⟨Bytes.lower name.bytes, sound⟩ : FieldName) = name := eq_of_bytes name.lower_bytes
  rw [ofBytes?, dif_pos sound, same]

theorem sameIgnoringCase_bytes (name other : FieldName) :
    Bytes.sameIgnoringCase name.bytes other.bytes = (name == other) :=
  sameIgnoringCase_spelling name.ofBytes?_bytes other

end FieldName

namespace FieldValue

theorem lf_not_mem (value : FieldValue) : Ascii.lf ∉ value.bytes := by
  intro member
  exact Ascii.ne_lf_of_value (List.all_eq_true.mp value.wellFormed Ascii.lf member) rfl

end FieldValue

namespace Decimal

theorem lf_not_mem (number : Nat) : Ascii.lf ∉ toBytes number := fun member =>
  (Ascii.ne_of_isDigit (isDigit_of_mem_toBytes member)).1 rfl

theorem space_not_mem (number : Nat) : Ascii.space ∉ toBytes number := fun member =>
  (Ascii.ne_of_isDigit (isDigit_of_mem_toBytes member)).2.1 rfl

end Decimal

namespace Method

theorem isToken_of_mem (method : Method) {byte : UInt8} (member : byte ∈ method.token) :
    Ascii.isToken byte = true := by
  have sound := method.wellFormed
  simp only [Bool.and_eq_true, List.all_eq_true] at sound
  exact sound.2 byte member

end Method

namespace Status

def reason (status : Status) : Bytes := Ascii.bytes (status.reason?.getD "")

theorem lf_not_mem_reason (status : Status) : Ascii.lf ∉ status.reason := by
  simp only [reason, reason?]
  split <;> decide +kernel

end Status

namespace Version

def bytes (version : Version) : Bytes := if version = .http10 then Head.http10 else Head.http11

theorem not_mem_bytes (version : Version) {byte : UInt8} (mark : byte = Ascii.space ∨ byte = Ascii.lf) :
    byte ∉ version.bytes := by
  simp only [bytes]
  rcases mark with rfl | rfl <;> split <;> decide +kernel

theorem readVersion_bytes {version : Version} (known : version = .http10 ∨ version = .http11) :
    Head.readVersion version.bytes = .ok version := by
  rcases known with rfl | rfl <;> rfl

end Version

end HttpService
