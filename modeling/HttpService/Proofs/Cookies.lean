import HttpService.Proofs.Lines
import HttpService.Proofs.Rebinding

/-! Cookies are found as they were written: what a request answers for a name is read off the pairs that its lines were
made of. -/

namespace HttpService

namespace Ascii

theorem value_of_isVisible {byte : UInt8} (visible : isVisible byte = true) :
    ((0x20 ≤ byte && byte != 0x7F) || byte == 0x09) = true ∧ byte < 0x80 := by
  have checked := holds_of_all (fun value => !isVisible value ||
    (((0x20 ≤ value && value != 0x7F) || value == 0x09) && decide (value < 0x80))) (by decide +kernel) byte
  rw [visible] at checked
  simpa using checked

end Ascii

namespace Utf8

theorem isAscii_of_isVisible {text : String} (visible : ∀ byte ∈ encode text, Ascii.isVisible byte = true) :
    IsAscii text := by
  rw [← all_encode_iff, List.all_eq_true]
  exact fun byte member => decide_eq_true (Ascii.value_of_isVisible (visible byte member)).2

theorem encode_eq_iff_of_isAscii {text : String} (ascii : IsAscii text) (other : String) :
    encode other = encode text ↔ other = text := by
  constructor
  · intro same
    have small : IsAscii other := (all_encode_iff other).mp (same ▸ (all_encode_iff text).mpr ascii)
    rw [← toText_encode small, same, toText_encode ascii]
  · rintro rfl
    rfl

end Utf8

namespace Bytes

theorem splitAll_of_not_mem {separator : UInt8} {content : Bytes} (absent : separator ∉ content) :
    splitAll separator content = [content] := by
  induction content with
  | nil => rfl
  | cons byte rest ih =>
      simp only [List.mem_cons, not_or] at absent
      simp [splitAll, Ne.symm absent.1, ih absent.2]

theorem splitAll_append {separator : UInt8} {front : Bytes} (absent : separator ∉ front) (rest : Bytes) :
    splitAll separator (front ++ separator :: rest) = front :: splitAll separator rest := by
  induction front with
  | nil => simp [splitAll]
  | cons byte later ih =>
      simp only [List.mem_cons, not_or] at absent
      simp [splitAll, Ne.symm absent.1, ih absent.2]

def edges (content : Bytes) : List UInt8 := content.head?.toList ++ content.getLast?.toList

theorem mem_edges {content : Bytes} {byte : UInt8} :
    byte ∈ edges content ↔ byte ∈ content.head? ∨ byte ∈ content.getLast? := by
  simp [edges]

end Bytes

namespace Cookie

def isName (name : Bytes) : Bool :=
  !name.isEmpty && name.all (fun byte => Ascii.isVisible byte && byte != semicolon && byte != equalsSign) &&
    (Bytes.edges name).all fun byte => !isBlank byte

def isValue (value : Bytes) : Bool :=
  value.all (fun byte => Ascii.isVisible byte && byte != semicolon) &&
    (Bytes.edges value).all fun byte => !isBlank byte && byte != quotationMark

/-- A cookie as it is written, with quotation marks around its value or without. -/
structure Pair where
  name : String
  value : String
  quoted : Bool
  soundName : isName (Utf8.encode name) = true
  soundValue : isValue (Utf8.encode value) = true

namespace Pair

def writtenValue (pair : Pair) : Bytes :=
  if pair.quoted then [quotationMark] ++ Utf8.encode pair.value ++ [quotationMark] else Utf8.encode pair.value

def written (pair : Pair) : Bytes := Utf8.encode pair.name ++ equalsSign :: pair.writtenValue

end Pair

def line (pairs : List Pair) : Bytes := (Ascii.bytes "; ").intercalate (pairs.map Pair.written)

variable {pair : Pair}

theorem isName_iff {name : Bytes} : isName name = true ↔
    name ≠ [] ∧ (∀ byte ∈ name, Ascii.isVisible byte = true ∧ byte ≠ semicolon ∧ byte ≠ equalsSign) ∧
      ∀ byte ∈ Bytes.edges name, isBlank byte = false := by
  simp [isName, and_assoc]

theorem isValue_iff {value : Bytes} : isValue value = true ↔
    (∀ byte ∈ value, Ascii.isVisible byte = true ∧ byte ≠ semicolon) ∧
      ∀ byte ∈ Bytes.edges value, isBlank byte = false ∧ byte ≠ quotationMark := by
  simp [isValue]

namespace Pair

theorem nameBytes (pair : Pair) : Utf8.encode pair.name ≠ [] ∧
    (∀ byte ∈ Utf8.encode pair.name, Ascii.isVisible byte = true ∧ byte ≠ semicolon ∧ byte ≠ equalsSign) ∧
      ∀ byte ∈ Bytes.edges (Utf8.encode pair.name), isBlank byte = false :=
  isName_iff.mp pair.soundName

theorem valueBytes (pair : Pair) :
    (∀ byte ∈ Utf8.encode pair.value, Ascii.isVisible byte = true ∧ byte ≠ semicolon) ∧
      ∀ byte ∈ Bytes.edges (Utf8.encode pair.value), isBlank byte = false ∧ byte ≠ quotationMark :=
  isValue_iff.mp pair.soundValue

theorem isVisible_writtenValue {byte : UInt8} (member : byte ∈ pair.writtenValue) :
    Ascii.isVisible byte = true ∧ byte ≠ semicolon := by
  have mark : Ascii.isVisible quotationMark = true ∧ quotationMark ≠ semicolon := by decide
  simp only [writtenValue] at member
  split at member
  · simp only [List.mem_append, List.mem_singleton] at member
    rcases member with (rfl | inside) | rfl
    · exact mark
    · exact pair.valueBytes.1 byte inside
    · exact mark
  · exact pair.valueBytes.1 byte member

theorem isVisible_written {byte : UInt8} (member : byte ∈ pair.written) :
    Ascii.isVisible byte = true ∧ byte ≠ semicolon := by
  rcases List.mem_append.mp member with name | rest
  · exact ⟨(pair.nameBytes.2.1 byte name).1, (pair.nameBytes.2.1 byte name).2.1⟩
  · rcases List.mem_cons.mp rest with rfl | value
    · decide
    · exact isVisible_writtenValue value

theorem not_isBlank_of_head? {byte : UInt8} (first : byte ∈ pair.written.head?) : isBlank byte = false := by
  obtain ⟨nonempty, _, edges⟩ := pair.nameBytes
  rw [written, List.head?_append_of_ne_nil _ nonempty] at first
  exact edges byte (Bytes.mem_edges.mpr (.inl first))

theorem not_isBlank_of_getLast? {byte : UInt8} (last : byte ∈ pair.written.getLast?) : isBlank byte = false := by
  have sign : isBlank equalsSign = false ∧ isBlank quotationMark = false := by decide
  rw [written, List.getLast?_append_of_ne_nil _ (List.cons_ne_nil _ _), writtenValue] at last
  split at last
  · rw [← List.cons_append, List.getLast?_concat, Option.mem_some] at last
    exact last ▸ sign.2
  · cases value : Utf8.encode pair.value with
    | nil =>
        rw [value, List.getLast?_singleton, Option.mem_some] at last
        exact last ▸ sign.1
    | cons front rest =>
        rw [value, List.getLast?_cons_cons, ← value] at last
        exact (pair.valueBytes.2 byte (Bytes.mem_edges.mpr (.inr last))).1

theorem splitFirst?_trimBlanks {front : Bytes} (blank : ∀ byte ∈ front, isBlank byte = true) (pair : Pair) :
    Bytes.splitFirst? equalsSign (trimBlanks (front ++ pair.written)) =
      some (Utf8.encode pair.name, pair.writtenValue) := by
  have trimmed := @trimBlanks_append front pair.written [] (by simpa using blank)
    (fun _ first => pair.not_isBlank_of_head? first) (fun _ last => pair.not_isBlank_of_getLast? last)
  rw [List.append_nil] at trimmed
  rw [trimmed]
  exact Bytes.splitFirst?_append (fun member => (pair.nameBytes.2.1 equalsSign member).2.2 rfl) pair.writtenValue

theorem trimQuotes_writtenValue (pair : Pair) : trimQuotes pair.writtenValue = Utf8.encode pair.value := by
  have edges (byte : UInt8) (edge : byte ∈ (Utf8.encode pair.value).head? ∨ byte ∈ (Utf8.encode pair.value).getLast?) :
      (byte == quotationMark) = false :=
    beq_false_of_ne (pair.valueBytes.2 byte (Bytes.mem_edges.mpr edge)).2
  have kept (marks : Bytes) (around : ∀ byte ∈ marks, byte = quotationMark) :
      trimQuotes (marks ++ Utf8.encode pair.value ++ marks) = Utf8.encode pair.value :=
    Bytes.dropWhile_both (· == quotationMark) (by simpa using around) (fun byte first => edges byte (.inl first))
      fun byte last => edges byte (.inr last)
  rw [writtenValue]
  split
  · exact kept [quotationMark] (by simp)
  · simpa using kept [] (by simp)

theorem isAscii (pair : Pair) : Utf8.IsAscii pair.name ∧ Utf8.IsAscii pair.value :=
  ⟨Utf8.isAscii_of_isVisible fun byte member => (pair.nameBytes.2.1 byte member).1,
    Utf8.isAscii_of_isVisible fun byte member => (pair.valueBytes.1 byte member).1⟩

end Pair

theorem line_cons_cons (pair next : Pair) (rest : List Pair) :
    line (pair :: next :: rest) = pair.written ++ semicolon :: ([Ascii.space] ++ line (next :: rest)) := by
  have mark : Ascii.bytes "; " = [semicolon, Ascii.space] := by decide +kernel
  simp [line, mark]

theorem isVisible_line (pairs : List Pair) : ∀ byte ∈ line pairs, Ascii.isVisible byte = true := by
  have marks : Ascii.isVisible semicolon = true ∧ Ascii.isVisible Ascii.space = true := by decide
  induction pairs with
  | nil => nofun
  | cons pair rest ih =>
      intro byte member
      cases rest with
      | nil =>
          have written : byte ∈ pair.written := by simpa [line] using member
          exact (Pair.isVisible_written written).1
      | cons next rest =>
          rw [line_cons_cons] at member
          simp only [List.mem_append, List.mem_cons, List.not_mem_nil, or_false] at member
          rcases member with written | rfl | rfl | later
          · exact (Pair.isVisible_written written).1
          · exact marks.1
          · exact marks.2
          · exact ih byte later

theorem semicolon_not_mem {front : Bytes} (absent : semicolon ∉ front) (pair : Pair) :
    semicolon ∉ front ++ pair.written := by
  intro member
  rcases List.mem_append.mp member with before | inside
  · exact absent before
  · exact (Pair.isVisible_written inside).2 rfl

theorem splitAll_line (pairs : List Pair) (pair : Pair) {front : Bytes} (absent : semicolon ∉ front) :
    Bytes.splitAll semicolon (front ++ line (pair :: pairs)) =
      (front ++ pair.written) :: pairs.map fun pair => [Ascii.space] ++ pair.written := by
  induction pairs generalizing pair front with
  | nil => simpa [line] using Bytes.splitAll_of_not_mem (semicolon_not_mem absent pair)
  | cons next rest ih =>
      have blank : semicolon ∉ [Ascii.space] := by decide
      rw [line_cons_cons, ← List.append_assoc, Bytes.splitAll_append (semicolon_not_mem absent pair), ih next blank]
      rfl

theorem pairs_line (written : List Pair) :
    pairs (line written) = written.map fun pair => (Utf8.encode pair.name, pair.writtenValue) := by
  cases written with
  | nil => rfl
  | cons pair rest =>
      have split : Bytes.splitAll semicolon (line (pair :: rest)) =
          pair.written :: rest.map fun pair => [Ascii.space] ++ pair.written := splitAll_line rest pair List.not_mem_nil
      have first : Bytes.splitFirst? equalsSign (trimBlanks pair.written) =
          some (Utf8.encode pair.name, pair.writtenValue) := by
        simpa using @Pair.splitFirst?_trimBlanks [] (by simp) pair
      have later : (fun piece => Bytes.splitFirst? equalsSign (trimBlanks piece)) ∘
          (fun pair : Pair => [Ascii.space] ++ pair.written) =
            fun pair => some (Utf8.encode pair.name, pair.writtenValue) :=
        funext fun pair => pair.splitFirst?_trimBlanks (by simp [isBlank])
      simp only [pairs, split, List.filterMap_cons, first, List.filterMap_map, later, List.map_cons,
        List.filterMap_eq_map']

def lineValue (pairs : List Pair) : FieldValue where
  bytes := line pairs
  wellFormed := List.all_eq_true.mpr fun byte member => (Ascii.value_of_isVisible (isVisible_line pairs byte member)).1

theorem lookup?_lines {fields : Fields} {lines : List (List Pair)} (values : fields.values .cookie = lines.map lineValue)
    (name : String) :
    lookup? fields (Utf8.encode name) =
      (lines.flatten.find? fun pair => pair.name == name).map fun pair => Utf8.encode pair.value := by
  have visible (pairs : List Pair) : (lineValue pairs).text?.isSome = true := by
    have all : (lineValue pairs).bytes.all Ascii.isVisible = true := List.all_eq_true.mpr (isVisible_line pairs)
    rw [FieldValue.text?, if_pos all]
    rfl
  have shown : (lines.map lineValue).filter (fun value => value.text?.isSome) = lines.map lineValue := by
    rw [List.filter_eq_self]
    intro value member
    obtain ⟨pairs, _, rfl⟩ := List.mem_map.mp member
    exact visible pairs
  have read : (lines.map lineValue).flatMap (fun value => pairs value.bytes) =
      lines.flatten.map fun pair => (Utf8.encode pair.name, pair.writtenValue) := by
    rw [List.flatMap_map, List.map_flatten, List.flatMap_def]
    congr 1
    exact List.map_congr_left fun written _ => pairs_line written
  have named : (fun pair : Bytes × Bytes => pair.1 == Utf8.encode name) ∘
      (fun pair : Pair => (Utf8.encode pair.name, pair.writtenValue)) = fun pair => pair.name == name := by
    funext pair
    have same := Utf8.encode_eq_iff_of_isAscii pair.isAscii.1 name
    rw [Function.comp_apply, Bool.eq_iff_iff, beq_iff_eq, beq_iff_eq, eq_comm, same, eq_comm]
  simp only [lookup?, values, shown, read, List.find?_map, named, Option.map_map, Function.comp_def,
    Pair.trimQuotes_writtenValue]

end Cookie

/-- The cookies of a request are those that its lines were made of, whatever other fields it has: a name stands for the
value of the first pair of this name, on whichever line it is, and no value is told for a name that no pair has. -/
theorem RequestView.cookie?_of_lines (view : RequestView) {lines : List (List Cookie.Pair)}
    (values : view.request.fields.values .cookie = lines.map Cookie.lineValue) (name : String) :
    view.cookie? name = (lines.flatten.find? fun pair => pair.name == name).map Cookie.Pair.value ∧
      (∀ value, view.cookie? name = some value ↔ ∃ front pair back, lines.flatten = front ++ pair :: back ∧
        pair.name = name ∧ pair.value = value ∧ ∀ earlier ∈ front, earlier.name ≠ name) ∧
      (view.cookie? name = none ↔ ∀ pair ∈ lines.flatten, pair.name ≠ name) := by
  have found : view.cookie? name = (lines.flatten.find? fun pair => pair.name == name).map Cookie.Pair.value := by
    rw [cookie?, Cookie.lookup?_lines values, Option.map_map]
    congr 1
    funext pair
    exact Utf8.toText_encode pair.isAscii.2
  refine ⟨found, fun value => ?_, ?_⟩
  · rw [found, Option.map_eq_some_iff]
    constructor
    · rintro ⟨pair, first, rfl⟩
      obtain ⟨named, front, back, split, before⟩ := List.find?_eq_some_iff_append.mp first
      exact ⟨front, pair, back, split, beq_iff_eq.mp named, rfl, fun earlier member => by simpa using before earlier member⟩
    · rintro ⟨front, pair, back, split, named, rfl, before⟩
      refine ⟨pair, List.find?_eq_some_iff_append.mpr ⟨beq_iff_eq.mpr named, front, back, split, ?_⟩, rfl⟩
      exact fun earlier member => by simpa using before earlier member
  · rw [found, Option.map_eq_none_iff, List.find?_eq_none]
    simp only [beq_iff_eq]

/-- On two lines with other fields around them: a name that is the beginning of another, a value with an equals sign in
it, an empty one, and a name that comes twice. -/
theorem RequestView.cookie?_of_lines_mixed :
    let long : Cookie.Pair := ⟨"id", "a=b c", true, by decide +kernel, by decide +kernel⟩
    let empty : Cookie.Pair := ⟨"i", "", true, by decide +kernel, by decide +kernel⟩
    let again : Cookie.Pair := ⟨"id", "x", false, by decide +kernel, by decide +kernel⟩
    let lines := [[empty, long], [], [again]]
    let agent : FieldValue := ⟨Ascii.bytes "id=no", by decide +kernel⟩
    let fields := Fields.ofList [(.userAgent, agent), (.cookie, Cookie.lineValue [empty, long]),
      (.cookie, Cookie.lineValue []), (.host, agent), (.cookie, Cookie.lineValue [again])]
    let view := RequestView.unbound.bind { Request.blank with fields := fields } .unbound .unbound
    Cookie.line [empty, long] = Ascii.bytes "i=\"\"; id=\"a=b c\"" ∧
      view.request.fields.values .cookie = lines.map Cookie.lineValue ∧
      view.cookie? "id" = some "a=b c" ∧ view.cookie? "i" = some "" ∧ view.cookie? "d" = none := by
  intro long empty again lines agent fields view
  have values : view.request.fields.values .cookie = lines.map Cookie.lineValue := by decide +kernel
  refine ⟨by decide +kernel, values, ?_, ?_, ?_⟩
  · exact (view.cookie?_of_lines values "id").1
  · exact (view.cookie?_of_lines values "i").1
  · exact (view.cookie?_of_lines values "d").2.2.mpr (by decide +kernel)

end HttpService
