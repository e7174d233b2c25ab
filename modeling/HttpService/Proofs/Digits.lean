import HttpService.Decimal

/-! Decimal numbers read back as they were written. -/

namespace HttpService

namespace Decimal

def digit (value : Nat) : UInt8 := (0x30 + value).toUInt8

theorem toNat_digit {value : Nat} (small : value < 10) : (digit value).toNat = 0x30 + value := by
  simp only [digit, Nat.toUInt8, UInt8.toNat_ofNat']
  omega

theorem isDigit_digit {value : Nat} (small : value < 10) : Ascii.isDigit (digit value) = true := by
  have number := toNat_digit small
  simp only [Ascii.isDigit, Bool.and_eq_true, decide_eq_true_eq, UInt8.le_iff_toNat_le, number,
    UInt8.reduceToNat]
  omega

theorem toBytes_of_lt {number : Nat} (small : number < 10) : toBytes number = [digit number] := by
  simp [toBytes, Nat.toDigits_of_lt_base small, Nat.toNat_digitChar_of_lt_ten small, digit]

theorem toBytes_of_le {number : Nat} (large : 10 ≤ number) :
    toBytes number = toBytes (number / 10) ++ [digit (number % 10)] := by
  have last : number % 10 < 10 := by omega
  rw [toBytes, Nat.toDigits_of_base_le (by decide) large]
  simp [toBytes, Nat.toNat_digitChar_of_lt_ten last, digit]

theorem isDigit_of_mem_toBytes {number : Nat} {byte : UInt8} (member : byte ∈ toBytes number) :
    Ascii.isDigit byte = true := by
  induction number using Nat.strongRecOn with
  | ind number ih =>
      by_cases small : number < 10
      · rw [toBytes_of_lt small, List.mem_singleton] at member
        subst member
        exact isDigit_digit small
      · rw [toBytes_of_le (by omega), List.mem_append, List.mem_singleton] at member
        rcases member with front | last
        · exact ih (number / 10) (by omega) front
        · subst last
          exact isDigit_digit (by omega)

def value? (content : Bytes) : Option Nat :=
  if content.isEmpty then none
  else
    content.foldlM
      (fun value byte => if Ascii.isDigit byte then some (value * 10 + (byte.toNat - 0x30)) else none) 0

def extend? (value : Nat) (byte : UInt8) : Option Nat :=
  if Ascii.isDigit byte then some (value * 10 + (byte.toNat - 0x30)) else none

theorem value?_of_ne_nil {content : Bytes} (nonempty : content ≠ []) : value? content = content.foldlM extend? 0 :=
  if_neg (by simpa using nonempty)

theorem extend?_digit {digit : Nat} (small : digit < 10) (value : Nat) :
    extend? value (Decimal.digit digit) = some (value * 10 + digit) := by
  rw [extend?, if_pos (isDigit_digit small), toNat_digit small, Nat.add_sub_cancel_left]

theorem foldlM_toBytes (number : Nat) : (toBytes number).foldlM extend? 0 = some number := by
  induction number using Nat.strongRecOn with
  | ind number ih =>
      by_cases small : number < 10
      · simp [toBytes_of_lt small, extend?_digit small]
      · have last : number % 10 < 10 := by omega
        have whole : number / 10 * 10 + number % 10 = number := by omega
        rw [toBytes_of_le (by omega), List.foldlM_append, ih (number / 10) (by omega)]
        simp [extend?_digit last, whole]

theorem value?_toBytes (number : Nat) : value? (toBytes number) = some number := by
  rw [value?_of_ne_nil (toBytes_ne_nil number), foldlM_toBytes]

theorem le_of_extend? {value next : Nat} {byte : UInt8} (extended : extend? value byte = some next) : value ≤ next := by
  obtain ⟨_, same⟩ := Option.ite_none_right_eq_some.mp extended
  have longer := Option.some.inj same
  omega

theorem le_of_foldlM {content : Bytes} {value number : Nat} (read : content.foldlM extend? value = some number) :
    value ≤ number := by
  induction content generalizing value with
  | nil => exact Nat.le_of_eq (Option.some.inj read)
  | cons byte rest ih =>
      obtain ⟨next, extended, read⟩ := Option.bind_eq_some_iff.mp read
      exact Nat.le_trans (le_of_extend? extended) (ih read)

theorem shift?_eq_some_iff {value next : Nat} {byte : UInt8} :
    shift? value byte = some next ↔ extend? value byte = some next ∧ next < limit := by
  by_cases isDigit : Ascii.isDigit byte = true
  · simp only [shift?, extend?, isDigit, Bool.not_true, Bool.false_eq_true, ↓reduceIte, Option.some.injEq,
      Option.ite_none_left_eq_some]
    omega
  · simp [shift?, extend?, isDigit]

theorem foldlM_shift?_eq_some_iff {content : Bytes} {value number : Nat} (fits : value < limit) :
    content.foldlM shift? value = some number ↔ content.foldlM extend? value = some number ∧ number < limit := by
  induction content generalizing value with
  | nil =>
      simp only [List.foldlM_nil, pure, Option.some.injEq]
      exact ⟨fun same => ⟨same, same ▸ fits⟩, And.left⟩
  | cons byte rest ih =>
      simp only [List.foldlM_cons, Option.bind_eq_bind, Option.bind_eq_some_iff, shift?_eq_some_iff]
      constructor
      · rintro ⟨next, ⟨extended, within⟩, read⟩
        obtain ⟨read, small⟩ := (ih within).mp read
        exact ⟨⟨next, extended, read⟩, small⟩
      · rintro ⟨⟨next, extended, read⟩, small⟩
        have within : next < limit := Nat.lt_of_le_of_lt (le_of_foldlM read) small
        exact ⟨next, ⟨extended, within⟩, (ih within).mpr ⟨read, small⟩⟩

theorem ofBytes?_eq_some_iff {content : Bytes} {number : Nat} :
    ofBytes? content = some number ↔ value? content = some number ∧ number < limit := by
  cases content with
  | nil => simp [ofBytes?, value?]
  | cons byte rest => exact foldlM_shift?_eq_some_iff (by decide)

theorem ofBytes?_toBytes {number : Nat} (fits : number < limit) : ofBytes? (toBytes number) = some number :=
  ofBytes?_eq_some_iff.mpr ⟨value?_toBytes number, fits⟩

end Decimal

end HttpService
