import HttpService.Proofs.Breakage
import Mathlib.Algebra.Order.BigOperators.Group.List
import Mathlib.Algebra.Order.Ring.Nat

/-! The room of the buffer is that of the longest head: every head whose parts are within the limits is found in it, up
to the last byte. -/

namespace HttpService

theorem HeadBuffer.length_block (lines : List Bytes) :
    (block lines).length = (lines.map fun line => line.length + 2).sum + 2 := by
  simp [block, List.length_flatMap, Ascii.crlf]

structure HeadParts where
  method : Bytes
  target : Bytes
  version : Bytes
  fields : List (Bytes × Bytes)

namespace HeadParts

def firstLine (parts : HeadParts) : Bytes :=
  parts.method ++ [Ascii.space] ++ parts.target ++ [Ascii.space] ++ parts.version

def fieldLine (field : Bytes × Bytes) : Bytes := field.1 ++ [Ascii.colon, Ascii.space] ++ field.2

def lines (parts : HeadParts) : List Bytes := parts.firstLine :: parts.fields.map fieldLine

def text (parts : HeadParts) : Bytes := HeadBuffer.block parts.lines

/-- No part is larger than what is allowed for it, and none of them breaks a line. -/
structure Within (parts : HeadParts) (limits : RequestLimits) : Prop where
  method : parts.method.length ≤ 7
  target : parts.target.length ≤ limits.targetLength
  version : parts.version.length = 8
  count : parts.fields.length ≤ limits.fieldCount
  names : ∀ field ∈ parts.fields, field.1.length ≤ limits.fieldNameLength
  values : ∀ field ∈ parts.fields, field.2.length ≤ limits.fieldValueLength
  unbroken : ∀ line ∈ parts.lines, Ascii.lf ∉ line

variable {parts : HeadParts} {limits : RequestLimits}

theorem within_iff : parts.Within limits ↔
    parts.method.length ≤ 7 ∧ parts.target.length ≤ limits.targetLength ∧ parts.version.length = 8 ∧
      parts.fields.length ≤ limits.fieldCount ∧
      (∀ field ∈ parts.fields, field.1.length ≤ limits.fieldNameLength) ∧
      (∀ field ∈ parts.fields, field.2.length ≤ limits.fieldValueLength) ∧
      ∀ line ∈ parts.lines, Ascii.lf ∉ line :=
  ⟨fun within => ⟨within.method, within.target, within.version, within.count, within.names, within.values,
      within.unbroken⟩,
    fun ⟨method, target, version, count, names, values, unbroken⟩ =>
      ⟨method, target, version, count, names, values, unbroken⟩⟩

instance : Decidable (parts.Within limits) := decidable_of_iff' _ within_iff

theorem Within.isLine (within : parts.Within limits) : ∀ line ∈ parts.lines, HeadBuffer.IsLine line := by
  intro line member
  refine ⟨?_, within.unbroken line member⟩
  rcases List.mem_cons.mp member with rfl | later
  · simp [firstLine]
  · obtain ⟨field, _, rfl⟩ := List.mem_map.mp later
    simp [fieldLine]

theorem length_text (parts : HeadParts) :
    parts.text.length = parts.method.length + parts.target.length + parts.version.length + 4 +
      (parts.fields.map fun field => field.1.length + field.2.length + 4).sum + 2 := by
  have fields : (parts.fields.map fieldLine).map (fun line => line.length + 2) =
      parts.fields.map fun field => field.1.length + field.2.length + 4 := by
    rw [List.map_map]
    apply List.map_congr_left
    intro field _
    simp only [Function.comp_apply, fieldLine, List.length_append, List.length_cons, List.length_nil]
    omega
  have first : parts.firstLine.length + 2 =
      parts.method.length + parts.target.length + parts.version.length + 4 := by
    simp only [firstLine, List.length_append, List.length_cons, List.length_nil]
    omega
  rw [text, HeadBuffer.length_block, lines, List.map_cons, List.sum_cons, fields, first]

theorem Within.length_text_le (within : parts.Within limits) :
    parts.text.length ≤ 19 + limits.targetLength +
      limits.fieldCount * (limits.fieldNameLength + limits.fieldValueLength + 4) + 2 := by
  have lines : (parts.fields.map fun field => field.1.length + field.2.length + 4).sum ≤
      (parts.fields.map fun field => field.1.length + field.2.length + 4).length •
        (limits.fieldNameLength + limits.fieldValueLength + 4) := by
    apply List.sum_le_card_nsmul
    intro length member
    obtain ⟨field, inside, rfl⟩ := List.mem_map.mp member
    have name := within.names field inside
    have value := within.values field inside
    omega
  have count : parts.fields.length * (limits.fieldNameLength + limits.fieldValueLength + 4) ≤
      limits.fieldCount * (limits.fieldNameLength + limits.fieldValueLength + 4) :=
    Nat.mul_le_mul_right _ within.count
  have method := within.method
  have target := within.target
  have version := within.version
  rw [List.length_map, Nat.nsmul_eq_mul] at lines
  rw [length_text]
  omega

end HeadParts

namespace HeadBuffer

variable {parts : HeadParts} {limits : RequestLimits}

/-- What has been read ahead and what arrives before the stream breaks begin with a head within the limits: reading ends
right behind that head, however long the head is, whatever follows it and however the bytes are cut. -/
theorem readHead_of_within
    (fits : 19 + limits.targetLength +
      limits.fieldCount * (limits.fieldNameLength + limits.fieldValueLength + 4) + 2 < UInt64.size)
    (within : parts.Within limits) {buffer : HeadBuffer} (room : buffer.room = limits.headLength)
    (held : buffer.content.length ≤ buffer.room) {source : Source}
    (begins : parts.text <+: buffer.content ++ source.untilBreak.bytes) :
    (buffer.readHead source).outcome = .ok (some parts.text.length) ∧
      (buffer.readHead source).buffer.content.take parts.text.length = parts.text := by
  obtain ⟨rest, whole⟩ := begins
  obtain ⟨outcome, leaves⟩ := readHead_spec source.steady_untilBreak held
  have short : parts.text.length ≤ buffer.room := by
    rw [room, RequestLimits.headLength_eq limits fits]
    exact within.length_text_le
  have ended : headOf buffer.room (buffer.content ++ source.untilBreak.bytes) = .ok (some parts.text.length) := by
    have begins : (buffer.content ++ source.untilBreak.bytes).take buffer.room =
        parts.text ++ rest.take (buffer.room - parts.text.length) := by
      rw [← whole, List.take_append, List.take_of_length_le short]
    have found : headEnd? (parts.text ++ rest.take (buffer.room - parts.text.length)) = some parts.text.length :=
      headEnd?_block (by simp [HeadParts.lines]) within.isLine _
    simp only [headOf, begins, found]
  rw [ended] at outcome
  have same : buffer.readHead source.untilBreak = (buffer.readHead source).untilBreak := by
    rcases readHead_untilBreak source buffer with same | ⟨_, misses | ⟨error, misses⟩⟩
    · exact same
    · simp [outcome] at misses
    · simp [outcome] at misses
  have found : headEnd? (buffer.readHead source.untilBreak).buffer.content = some parts.text.length :=
    headEnd?_of_readHead outcome
  have content : (buffer.readHead source.untilBreak).buffer.content.take parts.text.length = parts.text := by
    have front := congrArg (List.take parts.text.length) (leaves.bytes.trans whole.symm)
    rwa [List.take_append_of_le_length (headEnd?_le found), List.take_left] at front
  rw [same] at outcome content
  exact ⟨outcome, content⟩

/-- A head that leaves no byte of the buffer free, in part there already; the stream breaks right behind it. -/
theorem readHead_of_within_full :
    let limits : RequestLimits := ⟨2, 2, 1, 1, 0⟩
    let parts : HeadParts := ⟨Ascii.bytes "OPTIONS", Ascii.bytes "/a", Ascii.bytes "HTTP/1.1",
      [(Ascii.bytes "x", Ascii.bytes "1"), (Ascii.bytes "y", Ascii.bytes "\r")]⟩
    let buffer : HeadBuffer := ⟨limits.headLength, Ascii.bytes "OPTIONS"⟩
    let source : Source := [.piece (Ascii.bytes " /a HTTP/1.1\r"), .failure ⟨.interrupted, "again"⟩,
      .piece (Ascii.bytes "\nx: 1\r\ny: \r\r\n\r"), .piece (Ascii.bytes "\nx: 1\r\n\r\n"),
      .failure ⟨.brokenPipe, "gone"⟩]
    parts.Within limits ∧ parts.text.length = buffer.room ∧
      parts.text <+: buffer.content ++ source.untilBreak.bytes ∧
      (buffer.readHead source).outcome = .ok (some buffer.room) := by
  intro limits parts buffer source
  have within : parts.Within limits := by decide +kernel
  have full : parts.text.length = buffer.room := by decide +kernel
  have begins : parts.text <+: buffer.content ++ source.untilBreak.bytes :=
    List.isPrefixOf_iff_prefix.mp (by decide +kernel)
  have found := (readHead_of_within (by decide) within rfl (by decide +kernel) begins).1
  exact ⟨within, full, begins, full ▸ found⟩

end HeadBuffer

end HttpService
