import HttpService.Proofs.Grammar

/-! Accesses to bytes and sums of positions that say when they leave their bounds. A program that is written with them
has no access out of bounds and no overflow if it comes to no panic. -/

namespace HttpService

namespace Checked

def overflow : String := "attempt to add with overflow"
def belowZero : String := "attempt to subtract with overflow"

/-- A number, if a type with so many numbers has it. -/
def within (size value : Nat) : Except ReadFailure Nat :=
  if value < size then .ok value else .error (.panicked overflow)

def add (left right : Nat) : Except ReadFailure Nat := within UInt64.size (left + right)

def sub (left right : Nat) : Except ReadFailure Nat :=
  if right ≤ left then .ok (left - right) else .error (.panicked belowZero)

def byteAt (content : Bytes) (index : Nat) : Except ReadFailure UInt8 :=
  match content[index]? with
  | some byte => .ok byte
  | none => .error (.panicked Head.outOfBounds)

def put (content : Bytes) (index : Nat) (byte : UInt8) : Except ReadFailure Bytes :=
  if index < content.length then .ok (content.set index byte) else .error (.panicked Head.outOfBounds)

def overwrite (content : Bytes) (start : Nat) (piece : Bytes) : Except ReadFailure Bytes :=
  if start + piece.length ≤ content.length then
    .ok (content.take start ++ piece ++ content.drop (start + piece.length))
  else .error (.panicked Head.outOfBounds)

theorem within_of_lt {size value : Nat} (small : value < size) : within size value = .ok value := if_pos small

theorem add_of_lt {left right : Nat} (small : left + right < UInt64.size) : add left right = .ok (left + right) :=
  within_of_lt small

theorem eq_of_add {left right sum : Nat} (added : add left right = .ok sum) : sum = left + right := by
  rw [add, within] at added
  split at added
  · exact (Except.ok.inj added).symm
  · cases added

theorem sub_of_le {left right : Nat} (ordered : right ≤ left) : sub left right = .ok (left - right) := if_pos ordered

theorem byteAt_of_eq {content : Bytes} {index : Nat} {byte : UInt8} (there : content[index]? = some byte) :
    byteAt content index = .ok byte := by
  simp only [byteAt, there]

theorem put_of_lt {content : Bytes} {index : Nat} (inside : index < content.length) (byte : UInt8) :
    put content index byte = .ok (content.set index byte) := if_pos inside

theorem exists_overwrite {content piece : Bytes} {start : Nat} (inside : start + piece.length ≤ content.length) :
    ∃ written, overwrite content start piece = .ok written ∧ written.length = content.length ∧
      written.take (start + piece.length) = content.take start ++ piece := by
  have front : (content.take start ++ piece).length = start + piece.length := by
    rw [List.length_append, List.length_take, Nat.min_eq_left (by omega)]
  refine ⟨content.take start ++ piece ++ content.drop (start + piece.length), if_pos inside, ?_, ?_⟩
  · rw [List.length_append, front, List.length_drop]
    omega
  · rw [← front, List.take_left]

/-- No access out of bounds and no overflow has ended it. -/
def Calm {α : Type} (outcome : Except ReadFailure α) : Prop := ∀ message, outcome ≠ .error (.panicked message)

variable {α β : Type}

theorem calm_ok (value : α) : Calm (.ok value) := nofun

theorem calm_io (error : IoError) : Calm (.error (.io error) : Except ReadFailure α) := nofun

theorem calm_refuse (refusal : Refusal) : Calm (Head.refuse refusal : Except ReadFailure α) := nofun

theorem calm_orRefuse (refusal : Refusal) (found : Option α) : Calm (Head.orRefuse refusal found) := by
  cases found with
  | none => exact calm_refuse refusal
  | some value => exact calm_ok value

theorem calm_bind {first : Except ReadFailure α} {next : α → Except ReadFailure β} (begins : Calm first)
    (goesOn : ∀ value, first = .ok value → Calm (next value)) : Calm (first >>= next) := by
  cases first with
  | error failure =>
      intro message panicked
      exact begins message (congrArg Except.error (Except.error.inj panicked))
  | ok value => exact goesOn value rfl

theorem exists_ok_of_panicked {first : Except ReadFailure α} {next : α → Except ReadFailure β} (begins : Calm first)
    {message : String} (panicked : (first >>= next) = .error (.panicked message)) :
    ∃ value, first = .ok value ∧ next value = .error (.panicked message) := by
  cases first with
  | error failure =>
      obtain rfl : failure = .panicked message := Except.error.inj panicked
      exact absurd rfl (begins message)
  | ok value => exact ⟨value, rfl, panicked⟩

theorem calm_of_eq_ok {outcome : Except ReadFailure α} {value : α} (done : outcome = .ok value) : Calm outcome :=
  done ▸ calm_ok value

end Checked

namespace Head

theorem cut_of_le {content : Bytes} {start stop : Nat} (ordered : start ≤ stop) (inside : stop ≤ content.length) :
    cut content start stop = .ok ((content.drop start).take (stop - start)) := by
  simp only [cut, Bytes.slice?, ordered, (content.reaches_iff stop).mpr inside, and_self, ↓reduceIte]

theorem cut_front {content : Bytes} {stop : Nat} (inside : stop ≤ content.length) :
    cut content 0 stop = .ok (content.take stop) := by
  rw [cut_of_le (Nat.zero_le stop) inside, List.drop_zero, Nat.sub_zero]

theorem cut_back {content : Bytes} {start : Nat} (inside : start ≤ content.length) :
    cut content start content.length = .ok (content.drop start) := by
  rw [cut_of_le inside (Nat.le_refl _), ← List.length_drop, List.take_length]

end Head

end HttpService
