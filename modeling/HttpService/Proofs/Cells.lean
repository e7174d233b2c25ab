import HttpService.Proofs.Delivery
import HttpService.Proofs.Positions

/-! The buffer in front of a stream as it lies in memory: a row of cells, of which the first so many are in use, and
bytes of earlier requests behind them. What is done with the cells, access by access, is what is done with the bytes that
are held; no access leaves the row, and an end that is reported lies in the part in use. -/

namespace HttpService

namespace Source

def weight (source : Source) : Nat := source.length + source.bytes.length

theorem weight_read_lt {source rest : Source} {room : Nat} {outcome : Except IoError Bytes}
    (arrived : source.read room = (outcome, rest)) (more : outcome ≠ .ok []) : rest.weight < source.weight := by
  cases source with
  | nil =>
      obtain ⟨rfl, rfl⟩ := Prod.mk.inj arrived
      exact absurd rfl more
  | cons arrival later =>
      cases arrival with
      | failure error =>
          obtain ⟨rfl, rfl⟩ := Prod.mk.inj arrived
          simp [weight, bytes]
      | piece content =>
          rw [read] at arrived
          split at arrived
          · obtain ⟨rfl, rfl⟩ := Prod.mk.inj arrived
            simp only [weight, bytes, List.length_cons, List.length_append]
            omega
          · rename_i large
            obtain ⟨rfl, rfl⟩ := Prod.mk.inj arrived
            have positive : 0 < room := by
              refine Nat.pos_of_ne_zero fun none => more ?_
              rw [none, List.take_zero]
            simp only [weight, bytes, List.length_cons, List.length_append, List.length_drop]
            omega

theorem length_read_le {source rest : Source} {room : Nat} {content : Bytes}
    (arrived : source.read room = (.ok content, rest)) : content.length ≤ room := by
  cases source with
  | nil =>
      obtain ⟨⟨⟩, _⟩ := Prod.mk.inj arrived
      exact Nat.zero_le room
  | cons arrival later =>
      cases arrival with
      | failure error => simp [read] at arrived
      | piece whole =>
          rw [read] at arrived
          split at arrived
          · rename_i fits
            obtain ⟨⟨⟩, _⟩ := Prod.mk.inj arrived
            exact fits
          · obtain ⟨⟨⟩, _⟩ := Prod.mk.inj arrived
            exact List.length_take_le room whole

end Source

/-- A row of cells, and how many of them are in use. -/
structure Cells where
  used : Nat
  row : Bytes

namespace Cells

structure Reading (α : Type) where
  outcome : Except ReadFailure α
  cells : Cells
  source : Source

def new (limits : RequestLimits) : Cells := ⟨0, List.replicate limits.headLength 0⟩

def consume (cells : Cells) (count : Nat) : Except ReadFailure Cells := do
  let count := min count cells.used
  let moved ← Head.cut cells.row count cells.used
  let row ← Checked.overwrite cells.row 0 moved
  let used ← Checked.sub cells.used count
  return ⟨used, row⟩

def append (cells : Cells) (content : Bytes) : Except ReadFailure Cells := do
  let row ← Checked.overwrite cells.row cells.used content
  let used ← Checked.add cells.used content.length
  return ⟨used, row⟩

def headEnd? (cells : Cells) : Except ReadFailure (Option Nat) := do
  let content ← Head.cut cells.row 0 cells.used
  match Bytes.indexOf? HeadBuffer.endMark content with
  | none => return none
  | some position =>
    let stop ← Checked.add position 4
    return some stop

def readHead (cells : Cells) (source : Source) : Reading (Option Nat) :=
  match cells.headEnd? with
  | .error failure => ⟨.error failure, cells, source⟩
  | .ok (some stop) => ⟨.ok (some stop), cells, source⟩
  | .ok none =>
    if cells.used = cells.row.length then ⟨Head.refuse .headTooLarge, cells, source⟩
    else
      match Head.cut cells.row cells.used cells.row.length with
      | .error failure => ⟨.error failure, cells, source⟩
      | .ok free =>
        match _ : source.read free.length with
        | (.ok [], rest) => ⟨if cells.used = 0 then .ok none else .error (.io .headCutShort), cells, rest⟩
        | (.ok (byte :: more), rest) =>
          match cells.append (byte :: more) with
          | .error failure => ⟨.error failure, cells, rest⟩
          | .ok cells => readHead cells rest
        | (.error error, rest) =>
          if error.kind = .interrupted then readHead cells rest
          else ⟨if cells.used = 0 && error.kind.isTimeout then .ok none else .error (.io error), cells, rest⟩
termination_by source.weight
decreasing_by
  all_goals
    refine Source.weight_read_lt (by assumption) ?_
    nofun

def takeBody (cells : Cells) (start length : Nat) : Except ReadFailure (Bytes × Cells) := do
  let behind ← Checked.sub cells.used start
  let buffered := min behind length
  (Allocation.reserve length 1).mapError .panicked
  let stop ← Checked.add start buffered
  let held ← Head.cut cells.row start stop
  let cells ← cells.consume stop
  return (held, cells)

def readBody (cells : Cells) (source : Source) (start length : Nat) : Reading Bytes :=
  match cells.takeBody start length with
  | .error failure => ⟨.error failure, cells, source⟩
  | .ok (held, cells) =>
    if length ≤ held.length then ⟨.ok held, cells, source⟩
    else
      match Checked.sub length held.length with
      | .error failure => ⟨.error failure, cells, source⟩
      | .ok wanted =>
        match source.readExactly wanted with
        | (.ok later, rest) => ⟨.ok (held ++ later), cells, rest⟩
        | (.error error, rest) => ⟨.error (.io error), cells, rest⟩

def held (cells : Cells) : HeadBuffer := ⟨cells.row.length, cells.row.take cells.used⟩

def Reading.held {α : Type} (reading : Reading α) : HeadBuffer.Reading α :=
  ⟨reading.outcome, reading.cells.held, reading.source⟩

/-- There are `size` cells, no more are in use, and a word counts them. -/
structure Sound (cells : Cells) (size : Nat) : Prop where
  room : cells.row.length = size
  within : cells.used ≤ cells.row.length
  fits : cells.row.length < UInt64.size

theorem sound_new (limits : RequestLimits) : (new limits).Sound limits.headLength := by
  refine ⟨List.length_replicate, Nat.zero_le _, ?_⟩
  simp only [new, List.length_replicate]
  exact Nat.mod_lt _ (by decide)

theorem held_new (limits : RequestLimits) : (new limits).held = .new limits := by
  simp [held, new, HeadBuffer.new]

variable {cells : Cells} {size : Nat}

theorem Sound.length_held (sound : cells.Sound size) : cells.held.content.length = cells.used := by
  simp only [held, List.length_take]
  exact Nat.min_eq_left sound.within

theorem Sound.consume (sound : cells.Sound size) (count : Nat) :
    ∃ next, cells.consume count = .ok next ∧ next.held = cells.held.consume count ∧ next.Sound size := by
  obtain ⟨room, within, fits⟩ := sound
  have least : min count cells.used ≤ cells.used := Nat.min_le_right _ _
  generalize movedEq : (cells.row.drop (min count cells.used)).take (cells.used - min count cells.used) = moved
  have movedLength : moved.length = cells.used - min count cells.used := by
    rw [← movedEq, List.length_take, List.length_drop]
    omega
  obtain ⟨row, written, whole, front⟩ := @Checked.exists_overwrite cells.row moved 0 (by omega)
  rw [Nat.zero_add, List.take_zero, List.nil_append] at front
  refine ⟨⟨cells.used - min count cells.used, row⟩, ?_, ?_, ?_⟩
  · simp only [Cells.consume, Head.cut_of_le least within, movedEq, written, Checked.sub_of_le least, bind, Except.bind]
    rfl
  · have left : (cells.row.take cells.used).drop count = moved := by
      rw [← movedEq, List.drop_take]
      by_cases few : count ≤ cells.used
      · rw [Nat.min_eq_left few]
      · rw [Nat.min_eq_right (Nat.le_of_not_le few), Nat.sub_self, Nat.sub_eq_zero_of_le (Nat.le_of_not_le few)]
        simp
    simp only [held, HeadBuffer.consume, left, whole, ← movedLength, front]
  · exact ⟨whole.trans room, by dsimp only; omega, whole ▸ fits⟩

theorem Sound.append (sound : cells.Sound size) {content : Bytes} (room : content.length ≤ cells.row.length - cells.used) :
    ∃ next, cells.append content = .ok next ∧
      next.held = { cells.held with content := cells.held.content ++ content } ∧ next.Sound size := by
  obtain ⟨wide, within, fits⟩ := sound
  have inside : cells.used + content.length ≤ cells.row.length := by omega
  obtain ⟨row, written, whole, front⟩ := Checked.exists_overwrite inside
  refine ⟨⟨cells.used + content.length, row⟩, ?_, ?_, ?_⟩
  · simp only [Cells.append, written,
      Checked.add_of_lt (show cells.used + content.length < UInt64.size by omega), bind, Except.bind]
    rfl
  · simp only [held, whole, front]
  · exact ⟨whole.trans wide, whole ▸ inside, whole ▸ fits⟩

theorem Sound.headEnd? (sound : cells.Sound size) : cells.headEnd? = .ok (HeadBuffer.headEnd? cells.held.content) := by
  have inUse := sound.length_held
  obtain ⟨room, within, fits⟩ := sound
  rw [Cells.headEnd?, Head.cut_front within]
  change (match Bytes.indexOf? HeadBuffer.endMark cells.held.content with
    | none => _
    | some position => _) = _
  cases found : Bytes.indexOf? HeadBuffer.endMark cells.held.content with
  | none => simp only [HeadBuffer.headEnd?, found]; rfl
  | some position =>
      have ended : HeadBuffer.headEnd? cells.held.content = some (position + 4) := by
        rw [HeadBuffer.headEnd?, found, Option.map_some]
      have bound := HeadBuffer.headEnd?_le ended
      rw [ended]
      simp only [Checked.add_of_lt (show position + 4 < UInt64.size by omega)]
      rfl

end Cells

namespace HeadBuffer

def afterRead (buffer : HeadBuffer) : Except IoError Bytes × Source → Reading (Option Nat)
  | (.ok [], rest) => ⟨buffer.atEnd, buffer, rest⟩
  | (.ok (byte :: more), rest) => readHead { buffer with content := buffer.content ++ byte :: more } rest
  | (.error error, rest) =>
    if error.kind = .interrupted then buffer.readHead rest else ⟨buffer.atFailure error, buffer, rest⟩

theorem readHead_eq_afterRead {buffer : HeadBuffer} (within : buffer.content.length ≤ buffer.room)
    (undecided : buffer.verdict? = none) (source : Source) :
    buffer.readHead source = buffer.afterRead (source.read (buffer.room - buffer.content.length)) := by
  have free := (verdict?_eq_none within undecided).2
  cases source with
  | nil => simp only [readHead, undecided, Source.read, afterRead]
  | cons arrival rest =>
      cases arrival with
      | failure error => simp only [readHead, undecided, Source.read, afterRead]
      | piece content =>
          simp only [readHead, undecided, Source.read]
          by_cases fits : content.length ≤ buffer.room - buffer.content.length
          · cases content with
            | nil => simp [afterRead]
            | cons byte more =>
                simp only [List.isEmpty_cons, Bool.false_eq_true, fits, ↓reduceIte, afterRead]
          · have nonempty : content.isEmpty = false := by
              rw [List.isEmpty_eq_false_iff]
              rintro rfl
              exact fits (Nat.zero_le _)
            generalize filledEq : ({ buffer with
              content := buffer.content ++ content.take (buffer.room - buffer.content.length) } : HeadBuffer) = filled
            have full : filled.content.length = filled.room := by
              rw [← filledEq]
              simp only [List.length_append, List.length_take]
              omega
            obtain ⟨verdict, said⟩ := verdict?_of_full full
            simp only [nonempty, Bool.false_eq_true, fits, ↓reduceIte]
            cases taken : content.take (buffer.room - buffer.content.length) with
            | nil =>
                rw [← filledEq, taken, List.append_nil] at full
                exact absurd full (Nat.ne_of_lt free)
            | cons byte more =>
                rw [taken] at filledEq
                simp only [afterRead, filledEq, said, Option.getD_some, readHead_of_verdict said]

end HeadBuffer

namespace Cells

variable {cells : Cells} {size : Nat}

theorem Sound.verdict? (sound : cells.Sound size) (unended : cells.headEnd? = .ok none) :
    cells.held.verdict? =
      if cells.used = cells.row.length then some (Head.refuse .headTooLarge) else none := by
  have ended := Except.ok.inj (sound.headEnd?.symm.trans unended)
  have notPast : ¬cells.held.room < cells.used := Nat.not_lt.mpr sound.within
  simp only [HeadBuffer.verdict?, ended, sound.length_held, notPast, ↓reduceIte]
  rfl

theorem Sound.afterRead (sound : cells.Sound size) (unended : cells.headEnd? = .ok none)
    (unfull : ¬cells.used = cells.row.length) {free : Bytes}
    (cut : Head.cut cells.row cells.used cells.row.length = .ok free) {source rest : Source}
    {outcome : Except IoError Bytes} (arrived : source.read free.length = (outcome, rest)) :
    cells.held.readHead source = cells.held.afterRead (outcome, rest) ∧
      free.length = cells.row.length - cells.used := by
  have room : free.length = cells.row.length - cells.used := by
    rw [Head.cut_back sound.within, Except.ok.injEq] at cut
    rw [← cut, List.length_drop]
  have undecided : cells.held.verdict? = none := by rw [sound.verdict? unended, if_neg unfull]
  have within : cells.held.content.length ≤ cells.held.room := by
    rw [sound.length_held]
    exact sound.within
  refine ⟨?_, room⟩
  rw [HeadBuffer.readHead_eq_afterRead within undecided, sound.length_held, ← arrived, room]
  rfl

theorem Sound.isEmpty (sound : cells.Sound size) : cells.held.content.isEmpty = decide (cells.used = 0) := by
  rw [← sound.length_held, Bool.eq_iff_iff, List.isEmpty_iff_length_eq_zero, decide_eq_true_eq]

theorem Sound.readHead (sound : cells.Sound size) (source : Source) :
    (cells.readHead source).held = cells.held.readHead source ∧ (cells.readHead source).cells.Sound size ∧
      Checked.Calm (cells.readHead source).outcome := by
  fun_induction Cells.readHead cells source with
  | case1 cells source failure failed => simp [sound.headEnd?] at failed
  | case2 cells source stop ended =>
      have verdict : cells.held.verdict? = some (.ok (some stop)) := by
        simp only [HeadBuffer.verdict?, Except.ok.inj (sound.headEnd?.symm.trans ended)]
      rw [HeadBuffer.readHead_of_verdict verdict]
      exact ⟨rfl, sound, Checked.calm_ok _⟩
  | case3 cells source unended full =>
      have verdict := sound.verdict? unended
      rw [if_pos full] at verdict
      rw [HeadBuffer.readHead_of_verdict verdict]
      exact ⟨rfl, sound, Checked.calm_refuse _⟩
  | case4 cells source _ _ failure failed => simp [Head.cut_back sound.within] at failed
  | case5 cells source unended unfull free cut rest arrived =>
      rw [(sound.afterRead unended unfull cut arrived).1, HeadBuffer.afterRead, HeadBuffer.atEnd, sound.isEmpty]
      refine ⟨by simp [Reading.held], sound, ?_⟩
      dsimp only
      split
      · exact Checked.calm_ok _
      · exact Checked.calm_io _
  | case6 cells source unended unfull free cut byte more rest arrived failure failed =>
      obtain ⟨_, room⟩ := sound.afterRead unended unfull cut arrived
      obtain ⟨next, appended, _⟩ := sound.append (room ▸ Source.length_read_le arrived)
      simp [appended] at failed
  | case7 cells source unended unfull free cut byte more rest arrived next appended ih =>
      obtain ⟨goesOn, room⟩ := sound.afterRead unended unfull cut arrived
      obtain ⟨other, same, holds, still⟩ := sound.append (room ▸ Source.length_read_le arrived)
      obtain rfl : next = other := Except.ok.inj (appended.symm.trans same)
      rw [goesOn, HeadBuffer.afterRead, ← holds]
      exact ih still
  | case8 cells source unended unfull free cut error rest arrived again ih =>
      rw [(sound.afterRead unended unfull cut arrived).1, HeadBuffer.afterRead, if_pos again]
      exact ih sound
  | case9 cells source unended unfull free cut error rest arrived final =>
      rw [(sound.afterRead unended unfull cut arrived).1, HeadBuffer.afterRead, if_neg final, HeadBuffer.atFailure,
        sound.isEmpty]
      refine ⟨rfl, sound, ?_⟩
      dsimp only
      split
      · exact Checked.calm_ok _
      · exact Checked.calm_io _

theorem Sound.le_of_readHead (sound : cells.Sound size) {source : Source} {stop : Nat}
    (found : (cells.readHead source).outcome = .ok (some stop)) : stop ≤ (cells.readHead source).cells.used := by
  obtain ⟨same, still, _⟩ := sound.readHead source
  have ended := @HeadBuffer.headEnd?_of_readHead source cells.held stop
  rw [← same] at ended
  exact still.length_held ▸ HeadBuffer.headEnd?_le (ended found)

theorem Sound.readAt [FieldHash] (sound : cells.Sound size) (limits : RequestLimits) {stop : Nat}
    (inside : stop ≤ cells.used) : Head.readAt limits cells.row stop = Head.read limits cells.held.content stop := by
  have front : Head.cut cells.row 0 stop = Head.cut cells.held.content 0 stop := by
    rw [Head.cut_front (Nat.le_trans inside sound.within), Head.cut_front (sound.length_held ▸ inside), held,
      List.take_take, Nat.min_eq_left inside]
  rw [Head.readAt_eq limits sound.fits, Head.read, Head.read, front]

theorem Sound.takeBody (sound : cells.Sound size) {start length : Nat} (begins : start ≤ cells.used)
    (short : length ≤ Allocation.most) : ∃ next, cells.takeBody start length =
        .ok ((cells.held.content.drop start).take length, next) ∧
      next.held = cells.held.consume (start + min (cells.used - start) length) ∧ next.Sound size := by
  have inside : start + min (cells.used - start) length ≤ cells.used := by omega
  have granted : (Allocation.reserve length 1).mapError ReadFailure.panicked = .ok () := by
    rw [Allocation.reserve_of_le (by omega)]
    rfl
  have small : start + min (cells.used - start) length < UInt64.size :=
    Nat.lt_of_le_of_lt (Nat.le_trans inside sound.within) sound.fits
  obtain ⟨next, consumed, holds, still⟩ := sound.consume (start + min (cells.used - start) length)
  have part : Head.cut cells.row start (start + min (cells.used - start) length) =
      .ok ((cells.held.content.drop start).take length) := by
    rw [Head.cut_of_le (Nat.le_add_right _ _) (Nat.le_trans inside sound.within), Nat.add_sub_cancel_left, held,
      List.drop_take, List.take_take, Nat.min_comm]
  refine ⟨next, ?_, holds, still⟩
  simp only [Cells.takeBody, Checked.sub_of_le begins, granted, Checked.add_of_lt small, part, consumed,
    bind, Except.bind]
  rfl

theorem Sound.readBody (sound : cells.Sound size) (source : Source) {start length : Nat} (begins : start ≤ cells.used)
    (short : length ≤ Allocation.most) :
    (cells.readBody source start length).held = cells.held.readBody source start length ∧
      (cells.readBody source start length).cells.Sound size ∧ Checked.Calm (cells.readBody source start length).outcome := by
  obtain ⟨next, taken, holds, still⟩ := sound.takeBody begins short
  have granted : Allocation.reserve length 1 = .ok () := Allocation.reserve_of_le (by omega)
  have inside : ¬cells.held.content.length < start := by
    rw [sound.length_held]
    omega
  generalize heldEq : (cells.held.content.drop start).take length = held at taken
  have heldLength : held.length = min (cells.used - start) length := by
    rw [← heldEq, List.length_take, List.length_drop, sound.length_held, Nat.min_comm]
  rw [← heldLength] at holds
  simp only [Cells.readBody, taken, HeadBuffer.readBody, inside, ↓reduceIte, granted, heldEq, ← holds]
  by_cases all : length ≤ held.length
  · simp only [all, ↓reduceIte, Nat.sub_eq_zero_of_le all, Source.readExactly, List.append_nil]
    exact ⟨rfl, still, Checked.calm_ok _⟩
  · simp only [all, ↓reduceIte, Checked.sub_of_le (Nat.le_of_not_le all)]
    cases read : source.readExactly (length - held.length) with
    | mk outcome rest =>
        cases outcome with
        | ok later => exact ⟨rfl, still, Checked.calm_ok _⟩
        | error error => exact ⟨rfl, still, Checked.calm_io _⟩

end Cells

end HttpService
