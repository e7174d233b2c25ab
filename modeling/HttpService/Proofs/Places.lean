import HttpService.Proofs.Numerals
import Mathlib.Data.List.Basic
import Mathlib.Data.List.Induction
import Mathlib.Data.Nat.Digits.Defs

/-! Digits are worth what their places say: the numbers that are read are those that the digits are worth, and the bytes
that are written are the one way to write a number without a zero in front. -/

namespace HttpService

namespace Decimal

def worth (content : Bytes) : Nat := Nat.ofDigits 10 (content.reverse.map fun byte => byte.toNat - 0x30)

/-- The bytes are digits, at least one, that are worth the number. Zeros in front do not count. -/
structure Writes (content : Bytes) (number : Nat) : Prop where
  nonempty : content ≠ []
  digits : ∀ byte ∈ content, Ascii.isDigit byte = true
  worth_eq : worth content = number

theorem worth_concat (front : Bytes) (byte : UInt8) :
    worth (front ++ [byte]) = worth front * 10 + (byte.toNat - 0x30) := by
  rw [worth, List.reverse_concat, List.map_cons, Nat.ofDigits_cons, ← worth]
  omega

theorem worth_zeros (zeros : Nat) (content : Bytes) :
    worth (List.replicate zeros (digit 0) ++ content) = worth content := by
  rw [worth, List.reverse_append, List.reverse_replicate, List.map_append, List.map_replicate]
  exact Nat.ofDigits_append_replicate_zero _

theorem exists_digit {byte : UInt8} (isDigit : Ascii.isDigit byte = true) : ∃ value < 10, byte = digit value := by
  simp only [Ascii.isDigit, Bool.and_eq_true, decide_eq_true_eq, UInt8.le_iff_toNat_le, UInt8.reduceToNat] at isDigit
  have small : byte.toNat - 0x30 < 10 := by omega
  refine ⟨byte.toNat - 0x30, small, UInt8.toNat_inj.mp ?_⟩
  rw [toNat_digit small]
  omega

theorem foldlM_extend?_eq_some_iff {content : Bytes} {number : Nat} :
    content.foldlM extend? 0 = some number ↔
      (∀ byte ∈ content, Ascii.isDigit byte = true) ∧ worth content = number := by
  induction content using List.reverseRecOn generalizing number with
  | nil => simp [worth]
  | append_singleton front byte ih =>
      rw [List.foldlM_append, Option.bind_eq_bind, Option.bind_eq_some_iff, worth_concat, List.forall_mem_append,
        List.forall_mem_singleton]
      by_cases isDigit : Ascii.isDigit byte = true
      · simp [extend?, ih, isDigit, and_assoc]
      · simp [extend?, isDigit]

theorem value?_eq_some_iff {content : Bytes} {number : Nat} : value? content = some number ↔ Writes content number := by
  by_cases empty : content = []
  · simp only [value?, empty, List.isEmpty_nil, ↓reduceIte, reduceCtorEq, false_iff]
    exact fun writes => writes.nonempty rfl
  · rw [value?_of_ne_nil empty, foldlM_extend?_eq_some_iff]
    constructor
    · rintro ⟨digits, worth⟩
      exact ⟨empty, digits, worth⟩
    · intro writes
      exact ⟨writes.digits, writes.worth_eq⟩

theorem writes_toBytes (number : Nat) : Writes (toBytes number) number := value?_eq_some_iff.mp (value?_toBytes number)

theorem Writes.zeros {content : Bytes} {number : Nat} (writes : Writes content number) (zeros : Nat) :
    Writes (List.replicate zeros (digit 0) ++ content) number where
  nonempty := List.append_ne_nil_of_right_ne_nil _ writes.nonempty
  digits byte member := by
    rcases List.mem_append.mp member with front | back
    · rw [List.eq_of_mem_replicate front]
      exact isDigit_digit (by decide)
    · exact writes.digits byte back
  worth_eq := (worth_zeros zeros content).trans writes.worth_eq

theorem exists_zeros {content : Bytes} (nonempty : content ≠ [])
    (digits : ∀ byte ∈ content, Ascii.isDigit byte = true) :
    ∃ zeros, content = List.replicate zeros (digit 0) ++ toBytes (worth content) := by
  induction content using List.reverseRecOn with
  | nil => exact absurd rfl nonempty
  | append_singleton front byte ih =>
      obtain ⟨value, small, rfl⟩ := exists_digit (digits byte (by simp))
      have last : worth (front ++ [digit value]) = worth front * 10 + value := by
        rw [worth_concat, toNat_digit small, Nat.add_sub_cancel_left]
      rw [last]
      by_cases alone : front = []
      · refine ⟨0, ?_⟩
        simp [alone, worth, toBytes_of_lt small]
      · obtain ⟨zeros, split⟩ := ih alone fun byte member => digits byte (List.mem_append_left _ member)
        by_cases nothing : worth front = 0
        · refine ⟨zeros + 1, ?_⟩
          rw [nothing, toBytes_of_lt (by decide)] at split
          rw [nothing, split, Nat.zero_mul, Nat.zero_add, toBytes_of_lt small, List.replicate_succ']
        · refine ⟨zeros, ?_⟩
          have tens : (worth front * 10 + value) / 10 = worth front := by omega
          have units : (worth front * 10 + value) % 10 = value := by omega
          rw [toBytes_of_le (by omega), tens, units, ← List.append_assoc, ← split]

theorem writes_iff {content : Bytes} {number : Nat} :
    Writes content number ↔ ∃ zeros, content = List.replicate zeros (digit 0) ++ toBytes number := by
  constructor
  · rintro ⟨nonempty, digits, rfl⟩
    exact exists_zeros nonempty digits
  · rintro ⟨zeros, rfl⟩
    exact (writes_toBytes number).zeros zeros

theorem eq_zero_of_head? {number : Nat} (first : (toBytes number).head? = some (digit 0)) : number = 0 := by
  induction number using Nat.strongRecOn with
  | ind number ih =>
      by_cases small : number < 10
      · rw [toBytes_of_lt small, List.head?_cons, Option.some.injEq, ← UInt8.toNat_inj, toNat_digit small,
          toNat_digit (by decide)] at first
        omega
      · rw [toBytes_of_le (by omega), List.head?_append_of_ne_nil _ (toBytes_ne_nil _)] at first
        have nothing := ih (number / 10) (by omega) first
        omega

theorem eq_toBytes_iff {content : Bytes} {number : Nat} :
    content = toBytes number ↔ Writes content number ∧ (content.head? = some (digit 0) → content = [digit 0]) := by
  constructor
  · rintro rfl
    refine ⟨writes_toBytes number, fun first => ?_⟩
    rw [eq_zero_of_head? first, toBytes_of_lt (by decide)]
  · rintro ⟨writes, first⟩
    obtain ⟨zeros, split⟩ := writes_iff.mp writes
    cases zeros with
    | zero => exact split
    | succ zeros =>
        rw [split, List.replicate_succ, List.cons_append] at first
        have alone := List.tail_eq_of_cons_eq (first rfl)
        exact absurd (List.append_eq_nil_iff.mp alone).2 (toBytes_ne_nil number)

/-- The number that bytes are read as, and the bytes that a number is written as, at 64 bits. Reading comes to its end
and tells a number just where there are digits only, at least one, and their worth has 64 bits; the number is this worth.
Writing stays within its twenty bytes and leaves the one way to write the number without a zero in front. What is read as
the number is this, with any zeros in front. -/
theorem readWord_and_writeWord :
    (∀ content, readWord content = .ok (ofBytes? content) ∧
      ∀ number, ofBytes? content = some number ↔ Writes content number ∧ number < limit) ∧
    ∀ number < limit, writeWord number = .ok (toBytes number) ∧ (toBytes number).length ≤ 20 ∧
      (∀ content, content = toBytes number ↔
        Writes content number ∧ (content.head? = some (digit 0) → content = [digit 0])) ∧
      readWord (toBytes number) = .ok (some number) ∧
      ∀ content, readWord content = .ok (some number) ↔
        ∃ zeros, content = List.replicate zeros (digit 0) ++ toBytes number := by
  have reads (content : Bytes) (number : Nat) :
      ofBytes? content = some number ↔ Writes content number ∧ number < limit := by
    rw [ofBytes?_eq_some_iff, value?_eq_some_iff]
  refine ⟨fun content => ⟨readWord_eq content, reads content⟩, fun number fits => ⟨writeWord_eq fits, ?_, ?_, ?_, ?_⟩⟩
  · exact length_toBytes_le (Nat.lt_trans fits (by decide))
  · exact fun content => eq_toBytes_iff
  · rw [readWord_eq, ofBytes?_toBytes fits]
  · intro content
    rw [readWord_eq, Except.ok.injEq, reads, writes_iff]
    exact and_iff_left fits

/-- The last number of 64 bits takes all of the twenty bytes and is read with zeros in front of it as well; the number
after it is not read. -/
theorem readWord_and_writeWord_last :
    let last := UInt64.size - 1
    last < limit ∧ writeWord last = .ok (Ascii.bytes "18446744073709551615") ∧
      readWord (Ascii.bytes "00018446744073709551615") = .ok (some last) ∧
      readWord (Ascii.bytes "18446744073709551616") = .ok none := by
  intro last
  have fits : last < limit := by decide
  have written : toBytes last = Ascii.bytes "18446744073709551615" := by decide +kernel
  obtain ⟨writes, _, _, _, reads⟩ := readWord_and_writeWord.2 last fits
  refine ⟨fits, writes.trans (congrArg Except.ok written), (reads _).mpr ⟨3, ?_⟩, ?_⟩
  · rw [written]
    decide +kernel
  · rw [(readWord_and_writeWord.1 _).1]
    decide +kernel

end Decimal

end HttpService
