import HttpService.HeadBuffer

/-! The lines of a head: where the first of them ends, and where the empty line behind them is found. -/

namespace HttpService

namespace Bytes

theorem splitFirst?_append {separator : UInt8} {before : Bytes} (absent : separator ∉ before)
    (after : Bytes) : splitFirst? separator (before ++ separator :: after) = some (before, after) := by
  induction before with
  | nil => simp [splitFirst?]
  | cons byte rest ih =>
      simp only [List.mem_cons, not_or] at absent
      have different : (byte == separator) = false := by simpa using Ne.symm absent.1
      simp [splitFirst?, different, ih absent.2]

theorem indexOf?_le {pattern content : Bytes} {index : Nat} (found : indexOf? pattern content = some index) :
    index + pattern.length ≤ content.length := by
  induction content generalizing index with
  | nil =>
      simp only [indexOf?] at found
      split at found
      · rename_i empty
        simp only [Option.some.injEq] at found
        simp [List.isEmpty_iff.mp empty, ← found]
      · simp at found
  | cons byte rest ih =>
      simp only [indexOf?] at found
      split at found
      · rename_i here
        simp only [Option.some.injEq] at found
        have bound := (List.isPrefixOf_iff_prefix.mp here).length_le
        omega
      · obtain ⟨later, foundLater, rfl⟩ := Option.map_eq_some_iff.mp found
        have bound := ih foundLater
        simp only [List.length_cons]
        omega

theorem indexOf?_append {pattern content : Bytes} {index : Nat}
    (found : indexOf? pattern content = some index) (more : Bytes) :
    indexOf? pattern (content ++ more) = some index := by
  induction content generalizing index with
  | nil =>
      have bound := indexOf?_le found
      have empty : pattern = [] := List.eq_nil_of_length_eq_zero (by simp only [List.length_nil] at bound; omega)
      subst empty
      cases more <;> simpa [indexOf?] using found
  | cons byte rest ih =>
      have bound := indexOf?_le found
      simp only [indexOf?, List.cons_append] at found ⊢
      by_cases here : pattern.isPrefixOf (byte :: rest) = true
      · have still : pattern.isPrefixOf (byte :: (rest ++ more)) = true := by
          rw [List.isPrefixOf_iff_prefix] at here ⊢
          exact here.trans (List.prefix_append (byte :: rest) more)
        simpa [here, still] using found
      · have notYet : ¬pattern.isPrefixOf (byte :: (rest ++ more)) = true := by
          intro early
          rw [List.isPrefixOf_iff_prefix] at early here
          exact here (List.prefix_of_prefix_length_le early (List.prefix_append (byte :: rest) more) (by omega))
        simp only [here, Bool.false_eq_true, ↓reduceIte] at found
        obtain ⟨later, foundLater, rfl⟩ := Option.map_eq_some_iff.mp found
        simp [notYet, ih foundLater]

end Bytes

namespace Head

theorem lineEnd?_append {line : Bytes} (absent : Ascii.lf ∉ line) (rest : Bytes) :
    lineEnd? (line ++ Ascii.crlf ++ rest) = some line.length := by
  have feed : (line ++ Ascii.crlf ++ rest).findIdx? (· == Ascii.lf) = some (line.length + 1) := by
    have before : (line ++ [Ascii.cr]).findIdx? (· == Ascii.lf) = none := by
      rw [List.findIdx?_eq_none_iff]
      intro byte member
      rcases List.mem_append.mp member with inside | last
      · exact beq_false_of_ne fun equal => absent (equal ▸ inside)
      · simp only [List.mem_singleton] at last
        subst last
        decide
    have split : line ++ Ascii.crlf ++ rest = (line ++ [Ascii.cr]) ++ Ascii.lf :: rest := by simp [Ascii.crlf]
    rw [split, List.findIdx?_append, before]
    simp [List.findIdx?_cons]
  have mark : (line ++ Ascii.crlf ++ rest)[line.length]? = some Ascii.cr := by simp [Ascii.crlf]
  simp only [lineEnd?, feed, Nat.add_sub_cancel, mark, Nat.succ_pos, and_self, ↓reduceIte]

theorem cut_line (line rest : Bytes) : cut (line ++ Ascii.crlf ++ rest) 0 line.length = .ok line := by
  simp [cut, Bytes.slice?, Bytes.reaches]

theorem drop_line (line rest : Bytes) : (line ++ Ascii.crlf ++ rest).drop (line.length + 2) = rest := by
  rw [List.append_assoc, List.drop_append]
  simp [Ascii.crlf]

theorem cut_all (content : Bytes) : cut content 0 content.length = .ok content := by
  simp [cut, Bytes.slice?, Bytes.reaches]

end Head

namespace HeadBuffer

def block (lines : List Bytes) : Bytes := (lines.flatMap fun line => line ++ Ascii.crlf) ++ Ascii.crlf

def IsLine (line : Bytes) : Prop := line ≠ [] ∧ Ascii.lf ∉ line

theorem headEnd?_le {content : Bytes} {stop : Nat} (found : headEnd? content = some stop) :
    stop ≤ content.length := by
  obtain ⟨index, foundIndex, rfl⟩ := Option.map_eq_some_iff.mp found
  exact Bytes.indexOf?_le foundIndex

theorem headEnd?_append {content : Bytes} {stop : Nat} (found : headEnd? content = some stop) (more : Bytes) :
    headEnd? (content ++ more) = some stop := by
  obtain ⟨index, foundIndex, rfl⟩ := Option.map_eq_some_iff.mp found
  simp [headEnd?, Bytes.indexOf?_append foundIndex]

theorem not_endMark_of_ne_lf {first second : UInt8} (different : second ≠ Ascii.lf) (rest : Bytes) :
    endMark.isPrefixOf (first :: second :: rest) = false := by
  simp [endMark, List.isPrefixOf, Ne.symm different]

theorem indexOf?_endMark_cons {line tail : Bytes} (absent : Ascii.lf ∉ line) (byte : UInt8) :
    Bytes.indexOf? endMark (byte :: (line ++ Ascii.crlf ++ tail)) =
      (Bytes.indexOf? endMark (line ++ Ascii.crlf ++ tail)).map (· + 1) := by
  have unmarked : endMark.isPrefixOf (byte :: (line ++ Ascii.crlf ++ tail)) = false := by
    cases line with
    | nil => exact not_endMark_of_ne_lf (by decide) _
    | cons second rest =>
        simp only [List.mem_cons, not_or] at absent
        exact not_endMark_of_ne_lf (Ne.symm absent.1) _
  simp only [Bytes.indexOf?, unmarked, Bool.false_eq_true, ↓reduceIte]

theorem indexOf?_endMark_last {line : Bytes} (absent : Ascii.lf ∉ line) (rest : Bytes) :
    Bytes.indexOf? endMark (line ++ Ascii.crlf ++ (Ascii.crlf ++ rest)) = some line.length := by
  induction line with
  | nil => simp [Ascii.crlf, Bytes.indexOf?, endMark, List.isPrefixOf]
  | cons byte line ih =>
      simp only [List.mem_cons, not_or] at absent
      simp only [List.cons_append, indexOf?_endMark_cons absent.2, ih absent.2, Option.map_some,
        List.length_cons]

theorem indexOf?_endMark_line {line tail : Bytes} (absent : Ascii.lf ∉ line)
    (unclosed : Ascii.crlf.isPrefixOf tail = false) :
    Bytes.indexOf? endMark (line ++ Ascii.crlf ++ tail) =
      (Bytes.indexOf? endMark tail).map (· + (line.length + 2)) := by
  induction line with
  | nil =>
      have atReturn : endMark.isPrefixOf (Ascii.cr :: Ascii.lf :: tail) = false := by
        simpa [endMark, Ascii.crlf, List.isPrefixOf] using unclosed
      have atFeed : endMark.isPrefixOf (Ascii.lf :: tail) = false := by
        simp [endMark, List.isPrefixOf, Ascii.cr, Ascii.lf]
      simp [Ascii.crlf, Bytes.indexOf?, atReturn, atFeed, Function.comp_def]
  | cons byte line ih =>
      simp only [List.mem_cons, not_or] at absent
      simp only [List.cons_append, indexOf?_endMark_cons absent.2, ih absent.2, Option.map_map,
        List.length_cons]
      congr 1

theorem isPrefixOf_crlf_line {line : Bytes} (sound : IsLine line) (rest : Bytes) :
    Ascii.crlf.isPrefixOf (line ++ Ascii.crlf ++ rest) = false := by
  match line, sound with
  | [first], _ => simp [Ascii.crlf, List.isPrefixOf, Ascii.cr, Ascii.lf]
  | first :: second :: tail, ⟨_, absent⟩ =>
      simp only [List.mem_cons, not_or] at absent
      simp [Ascii.crlf, List.isPrefixOf, absent.2.1]

theorem block_cons (line : Bytes) (lines : List Bytes) :
    block (line :: lines) = line ++ Ascii.crlf ++ block lines := by
  simp [block]

theorem headEnd?_block {lines : List Bytes} (nonempty : lines ≠ []) (sound : ∀ line ∈ lines, IsLine line)
    (rest : Bytes) : headEnd? (block lines ++ rest) = some (block lines).length := by
  induction lines with
  | nil => exact absurd rfl nonempty
  | cons line later ih =>
      have absent := (sound line (by simp)).2
      cases later with
      | nil =>
          have found := indexOf?_endMark_last absent rest
          have split : block [line] ++ rest = line ++ Ascii.crlf ++ (Ascii.crlf ++ rest) := by simp [block]
          rw [split, headEnd?, found]
          simp [block, Ascii.crlf]
      | cons next more =>
          have closed := ih (by simp) fun line member => sound line (by simp [member])
          have begins := sound next (by simp)
          have unclosed : Ascii.crlf.isPrefixOf (block (next :: more) ++ rest) = false := by
            rw [block_cons, List.append_assoc]
            exact isPrefixOf_crlf_line begins _
          obtain ⟨index, foundIndex, stopEq⟩ := Option.map_eq_some_iff.mp closed
          have found := indexOf?_endMark_line absent unclosed
          rw [foundIndex] at found
          rw [block_cons, List.append_assoc, headEnd?, found]
          simp only [Option.map_some, List.length_append, ← stopEq, Option.some.injEq]
          simp only [Ascii.crlf, List.length_cons, List.length_nil]
          omega

end HeadBuffer

end HttpService
