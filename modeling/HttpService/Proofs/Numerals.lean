import HttpService.Proofs.Bounds
import HttpService.Proofs.Digits

/-! Numbers read digit by digit, and written from the last digit back into twenty bytes: no digit is less than zero, no
byte leaves the buffer, and what comes of it is the decimal number. -/

namespace HttpService

namespace Decimal

def readDigits : Bytes → Nat → Except ReadFailure (Option Nat)
  | [], value => return some value
  | byte :: rest, value => do
    if !Ascii.isDigit byte then return none
    if limit ≤ value * 10 then return none
    let digit ← Checked.sub byte.toNat 0x30
    if limit ≤ value * 10 + digit then return none
    readDigits rest (value * 10 + digit)

def readWord (content : Bytes) : Except ReadFailure (Option Nat) :=
  if content.isEmpty then return none else readDigits content 0

def writeDigits (buffer : Bytes) (position number : Nat) : Except ReadFailure Bytes := do
  let position ← Checked.sub position 1
  let digit ← Checked.within UInt8.size (0x30 + number % 10)
  let buffer ← Checked.put buffer position digit.toUInt8
  if first : number / 10 = 0 then Head.cut buffer position buffer.length
  else writeDigits buffer position (number / 10)
termination_by number
decreasing_by omega

def writeWord (number : Nat) : Except ReadFailure Bytes := writeDigits (List.replicate 20 0) 20 number

theorem readDigits_eq (content : Bytes) (value : Nat) :
    readDigits content value = .ok (content.foldlM shift? value) := by
  induction content generalizing value with
  | nil => rfl
  | cons byte rest ih =>
      rw [List.foldlM_cons]
      by_cases digit : Ascii.isDigit byte = true
      · have positive : 0x30 ≤ byte.toNat := by
          simp only [Ascii.isDigit, Bool.and_eq_true, decide_eq_true_eq, UInt8.le_iff_toNat_le] at digit
          exact digit.1
        simp only [readDigits, shift?, digit, Checked.sub_of_le positive, ih, bind, Except.bind, pure, Except.pure,
          Bool.not_true, Bool.false_eq_true, ↓reduceIte]
        split
        · rfl
        · split <;> rfl
      · simp [readDigits, shift?, digit, pure, Except.pure]

theorem readWord_eq (content : Bytes) : readWord content = .ok (ofBytes? content) := by
  rw [readWord, ofBytes?, readDigits_eq]
  split <;> rfl

theorem length_toBytes_le {number digits : Nat} (small : number < Nat.pow 10 (digits + 1)) :
    (toBytes number).length ≤ digits + 1 := by
  induction digits generalizing number with
  | zero =>
      have single : number < 10 := small
      simp [toBytes_of_lt single]
  | succ digits ih =>
      by_cases single : number < 10
      · simp [toBytes_of_lt single]
      · have fewer : number / 10 < Nat.pow 10 (digits + 1) := Nat.div_lt_of_lt_mul (Nat.mul_comm _ _ ▸ small)
        rw [toBytes_of_le (by omega), List.length_append, List.length_singleton]
        exact Nat.succ_le_succ (ih fewer)

theorem writeDigits_eq {buffer : Bytes} {position number : Nat} (room : (toBytes number).length ≤ position)
    (inside : position ≤ buffer.length) :
    writeDigits buffer position number = .ok (toBytes number ++ buffer.drop position) := by
  induction number using Nat.strongRecOn generalizing buffer position with
  | ind number ih =>
      have positive : 1 ≤ position := by
        have some := List.length_pos_iff.mpr (toBytes_ne_nil number)
        omega
      have small : 0x30 + number % 10 < UInt8.size := by
        simp only [UInt8.size]
        omega
      have bound : position - 1 < buffer.length := by omega
      have behind : (buffer.set (position - 1) (digit (number % 10))).drop (position - 1) =
          digit (number % 10) :: buffer.drop position := by
        rw [List.drop_eq_getElem_cons (by simpa using bound), List.getElem_set_self, List.drop_set_of_lt (by omega),
          Nat.sub_add_cancel positive]
      rw [writeDigits]
      simp only [Checked.sub_of_le positive, Checked.within_of_lt small, Checked.put_of_lt bound, bind, Except.bind]
      split
      · rename_i first
        have single : number < 10 := by omega
        rw [Head.cut_back (by simp only [List.length_set]; omega), toBytes_of_lt single, ← Nat.mod_eq_of_lt single]
        simpa [digit] using behind
      · rename_i more
        have last : toBytes number = toBytes (number / 10) ++ [digit (number % 10)] := toBytes_of_le (by omega)
        rw [last, List.length_append, List.length_singleton] at room
        rw [ih (number / 10) (by omega) (by omega) (by simp only [List.length_set]; omega), last, List.append_assoc]
        exact congrArg (fun rest => Except.ok (toBytes (number / 10) ++ rest)) behind

theorem writeWord_eq {number : Nat} (fits : number < limit) : writeWord number = .ok (toBytes number) := by
  have room : (toBytes number).length ≤ 20 := length_toBytes_le (Nat.lt_trans fits (by decide))
  rw [writeWord, writeDigits_eq room (by simp), List.drop_of_length_le (by simp), List.append_nil]

end Decimal

end HttpService
