import HttpService.Proofs.Conversation
import HttpService.Proofs.Grammar

/-! Requests as a client writes them: the connection reads each of them off the bytes, whatever follows it. -/

namespace HttpService

namespace Bytes

def IsTight (content : Bytes) : Prop :=
  (content.head?.all fun byte => !Ascii.isWhite byte) = true ∧
    (content.getLast?.all fun byte => !Ascii.isWhite byte) = true

instance (content : Bytes) : Decidable content.IsTight := inferInstanceAs (Decidable (_ ∧ _))

theorem dropWhile_isWhite {content : Bytes} (tight : (content.head?.all fun byte => !Ascii.isWhite byte) = true) :
    content.dropWhile Ascii.isWhite = content := by
  cases content with
  | nil => rfl
  | cons byte rest =>
      have black : Ascii.isWhite byte = false := by simpa using tight
      simp [black]

theorem trim_space_cons {content : Bytes} (tight : content.IsTight) : trim (Ascii.space :: content) = content := by
  have white : Ascii.isWhite Ascii.space = true := by decide
  have last : (content.reverse.head?.all fun byte => !Ascii.isWhite byte) = true := by
    simpa [List.head?_reverse] using tight.2
  have front := dropWhile_isWhite tight.1
  have back := dropWhile_isWhite last
  simp only [trim, trimStart, trimEnd, List.dropWhile_cons, white, ↓reduceIte, front, back, List.reverse_reverse]

end Bytes

/-- A field as a client writes it: the name in any case, and a value without white space around it. -/
structure FieldLine where
  spelling : Bytes
  name : FieldName
  spelled : FieldName.ofBytes? spelling = some name
  value : FieldValue
  tight : value.bytes.IsTight
  valid : Utf8.isValid value.bytes = true

namespace FieldLine

def text (line : FieldLine) : Bytes := line.spelling ++ Ascii.bytes ": " ++ line.value.bytes

def entry (line : FieldLine) : FieldName × FieldValue := (line.name, line.value)

theorem isToken_of_mem_spelling (line : FieldLine) {byte : UInt8} (member : byte ∈ line.spelling) :
    Ascii.isToken byte = true := by
  have lower : Ascii.toLower byte ∈ line.name.bytes := by
    rw [FieldName.ofBytes?_eq_some line.spelled]
    exact List.mem_map_of_mem member
  have token := line.name.isToken_of_mem lower
  rwa [Ascii.isToken_toLower] at token

theorem spelling_ne_nil (line : FieldLine) : line.spelling ≠ [] := by
  intro empty
  have none : FieldName.ofBytes? [] = none := by decide +kernel
  have spelled := line.spelled
  rw [empty, none] at spelled
  simp at spelled

theorem text_eq (line : FieldLine) :
    line.text = line.spelling ++ Ascii.colon :: Ascii.space :: line.value.bytes := by
  simp [text, Ascii.bytes_colonSpace]

theorem lf_not_mem_text (line : FieldLine) : Ascii.lf ∉ line.text := by
  simp only [text_eq, List.mem_append, List.mem_cons, not_or]
  exact ⟨fun member => (Ascii.ne_of_isToken (line.isToken_of_mem_spelling member)).1 rfl, by decide, by decide,
    line.value.lf_not_mem⟩

theorem isValid_text (line : FieldLine) : Utf8.isValid line.text = true := by
  have small : ∀ byte ∈ line.spelling ++ [Ascii.colon, Ascii.space], byte < 0x80 := by
    intro byte member
    simp only [List.mem_append, List.mem_cons, List.not_mem_nil, or_false] at member
    rcases member with inside | rfl | rfl
    · exact (Ascii.ne_of_isToken (line.isToken_of_mem_spelling inside)).2.2.2
    · decide
    · decide
  rw [text, Ascii.bytes_colonSpace, Utf8.isValid_ascii_append small, line.valid]

def fieldText (line : FieldLine) : FieldText := ⟨line.spelling, Ascii.space :: line.value.bytes, line.name, line.value⟩

theorem text_fieldText (line : FieldLine) : line.fieldText.text = line.text := line.text_eq.symm

theorem within_fieldText (line : FieldLine) {limits : RequestLimits}
    (shortName : line.spelling.length ≤ limits.fieldNameLength)
    (shortValue : line.value.bytes.length ≤ limits.fieldValueLength) : line.fieldText.Within limits where
  unbroken := line.text_fieldText ▸ line.lf_not_mem_text
  first := fun member => (Ascii.ne_of_isToken (line.isToken_of_mem_spelling member)).2.2.1 rfl
  spelled := line.spelled
  nameLength := ⟨List.length_pos_iff.mpr line.spelling_ne_nil, shortName⟩
  trimmed := by rw [fieldText, Bytes.trim_space_cons line.tight, FieldValue.ofBytes?_bytes]
  valueLength := by rwa [fieldText, Bytes.trim_space_cons line.tight]

def contentLength (length : Nat) : FieldLine where
  spelling := Ascii.bytes "content-length"
  name := .contentLength
  spelled := by decide +kernel
  value := ⟨Decimal.toBytes length, List.all_eq_true.mpr fun _ member =>
    Ascii.value_of_isDigit (Decimal.isDigit_of_mem_toBytes member)⟩
  tight := by
    constructor
    · cases first : (Decimal.toBytes length).head? with
      | none => rfl
      | some byte =>
          simp [(Ascii.ne_of_isDigit (Decimal.isDigit_of_mem_toBytes (List.mem_of_mem_head? first))).2.2.2]
    · cases last : (Decimal.toBytes length).getLast? with
      | none => rfl
      | some byte =>
          simp [(Ascii.ne_of_isDigit (Decimal.isDigit_of_mem_toBytes (List.mem_of_getLast? last))).2.2.2]
  valid := by
    have small : ∀ byte ∈ Decimal.toBytes length, byte < 0x80 := fun _ member =>
      (Ascii.ne_of_isDigit (Decimal.isDigit_of_mem_toBytes member)).2.2.1
    have valid := Utf8.isValid_ascii_append small []
    rw [List.append_nil] at valid
    exact valid

end FieldLine

/-- A request as a client writes it. The target begins with a slash, and what it hides behind a hash cannot end the
first line or one of its parts. -/
structure Submission where
  method : Method
  target : Bytes
  uri : Uri
  accepted : Uri.ofBytes? target = some uri
  rooted : target.head? = some PathAndQuery.slash
  plain : Ascii.space ∉ target ∧ Ascii.lf ∉ target
  valid : Utf8.isValid target = true
  version : Version
  spoken : version = .http10 ∨ version = .http11
  fields : List FieldLine
  unframed : ∀ line ∈ fields, ResponseBuffer.isFraming line.name = false
  body : Bytes
  /-- No byte string is longer. -/
  held : body.length ≤ Allocation.most

namespace Submission

def lines (submission : Submission) : List FieldLine :=
  submission.fields ++ if submission.body.isEmpty then [] else [.contentLength submission.body.length]

def firstLine (submission : Submission) : Bytes :=
  submission.method.token ++ [Ascii.space] ++ submission.target ++ [Ascii.space] ++ submission.version.bytes

def head (submission : Submission) : Bytes :=
  HeadBuffer.block (submission.firstLine :: submission.lines.map FieldLine.text)

def bytes (submission : Submission) : Bytes := submission.head ++ submission.body

def request (submission : Submission) (terms : Terms) : Request where
  method := submission.method
  uri := submission.uri
  version := submission.version
  fields := .ofList (submission.lines.map FieldLine.entry)
  body := submission.body
  remote := terms.peer.address
  tls := terms.peer.tls

structure Within (submission : Submission) (limits : RequestLimits) : Prop where
  target : submission.target.length ≤ limits.targetLength
  count : submission.lines.length ≤ limits.fieldCount
  names : ∀ line ∈ submission.lines, line.spelling.length ≤ limits.fieldNameLength
  values : ∀ line ∈ submission.lines, line.value.bytes.length ≤ limits.fieldValueLength
  body : submission.body.length ≤ limits.bodyLength
  head : submission.head.length ≤ limits.headLength

variable {submission : Submission} {limits : RequestLimits}

theorem within_iff : submission.Within limits ↔
    submission.target.length ≤ limits.targetLength ∧ submission.lines.length ≤ limits.fieldCount ∧
      (∀ line ∈ submission.lines, line.spelling.length ≤ limits.fieldNameLength) ∧
      (∀ line ∈ submission.lines, line.value.bytes.length ≤ limits.fieldValueLength) ∧
      submission.body.length ≤ limits.bodyLength ∧ submission.head.length ≤ limits.headLength :=
  ⟨fun within => ⟨within.target, within.count, within.names, within.values, within.body, within.head⟩,
    fun ⟨target, count, names, values, body, head⟩ => ⟨target, count, names, values, body, head⟩⟩

instance : Decidable (submission.Within limits) := decidable_of_iff' _ within_iff

def outline (submission : Submission) : Outline where
  method := submission.method
  target := submission.target
  uri := submission.uri
  version := submission.version
  fields := submission.lines.map FieldLine.fieldText

theorem firstLine_outline (submission : Submission) : submission.outline.firstLine = submission.firstLine := by
  simp [outline, Outline.firstLine, firstLine]

theorem texts_outline (submission : Submission) :
    submission.outline.fields.map FieldText.text = submission.lines.map FieldLine.text := by
  rw [outline, List.map_map]
  exact List.map_congr_left fun line _ => line.text_fieldText

theorem text_outline (submission : Submission) : submission.outline.text = submission.head := by
  rw [Outline.text, submission.firstLine_outline, submission.texts_outline]
  rfl

theorem isLine_of_mem (submission : Submission) :
    ∀ line ∈ submission.firstLine :: submission.lines.map FieldLine.text, HeadBuffer.IsLine line := by
  rw [← submission.firstLine_outline, ← submission.texts_outline]
  apply submission.outline.isLine_of_mem submission.plain.2
  intro field member
  obtain ⟨line, _, rfl⟩ := List.mem_map.mp member
  exact line.text_fieldText ▸ line.lf_not_mem_text

theorem isValid_firstLine (submission : Submission) : Utf8.isValid submission.firstLine = true := by
  have method : ∀ byte ∈ submission.method.token ++ [Ascii.space], byte < 0x80 := by
    intro byte member
    rcases List.mem_append.mp member with inside | space
    · exact (Ascii.ne_of_isToken (submission.method.isToken_of_mem inside)).2.2.2
    · rw [List.mem_singleton.mp space]
      decide
  have version : Utf8.isValid ([Ascii.space] ++ submission.version.bytes) = true := by
    rcases submission.spoken with spoken | spoken <;> rw [spoken] <;> decide +kernel
  rw [firstLine, List.append_assoc (submission.method.token ++ [Ascii.space] ++ submission.target), List.append_assoc,
    Utf8.isValid_ascii_append method, Utf8.isValid_append submission.valid, version]

end Submission

theorem HeadBuffer.isValid_block {lines : List Bytes} (valid : ∀ line ∈ lines, Utf8.isValid line = true) :
    Utf8.isValid (block lines) = true := by
  have mark (rest : Bytes) : Utf8.isValid (Ascii.crlf ++ rest) = Utf8.isValid rest :=
    Utf8.isValid_ascii_append (by decide +kernel) rest
  induction lines with
  | nil => decide +kernel
  | cons line later ih =>
      rw [block_cons, List.append_assoc, Utf8.isValid_append (valid line (by simp)), mark,
        ih fun line member => valid line (by simp [member])]

namespace Submission

variable {submission : Submission} {limits : RequestLimits}

theorem eq_contentLength_of_isFraming {field : FieldText} (member : field ∈ submission.outline.fields)
    (framing : ResponseBuffer.isFraming field.name = true) :
    field = (FieldLine.contentLength submission.body.length).fieldText := by
  obtain ⟨line, inside, rfl⟩ := List.mem_map.mp member
  rcases List.mem_append.mp inside with own | last
  · exact absurd framing (Bool.eq_false_iff.mp (submission.unframed line own))
  · split at last
    · simp at last
    · rw [List.mem_singleton.mp last]

theorem framed (within : submission.Within limits) : Head.Framed limits none submission.outline.fields := by
  have length {field : FieldText} (member : field ∈ submission.outline.fields) (named : field.name = .contentLength) :
      Decimal.value? field.value.bytes = some submission.body.length := by
    rw [eq_contentLength_of_isFraming member (by simp [ResponseBuffer.isFraming, named])]
    exact Decimal.value?_toBytes _
  refine ⟨?_, ?_, fun _ _ _ => .inl rfl, ?_⟩
  · intro field member named
    exact ⟨_, length member named, Nat.lt_of_le_of_lt submission.held (by decide), within.body⟩
  · intro field member other second named again
    rw [length member named, length second again]
  · intro field member named
    have different : FieldName.contentLength ≠ FieldName.transferEncoding := by decide +kernel
    rw [eq_contentLength_of_isFraming member (by simp [ResponseBuffer.isFraming, named])] at named
    exact absurd named different

theorem isValid_head (submission : Submission) : Utf8.isValid submission.head = true := by
  apply HeadBuffer.isValid_block
  intro line member
  rcases List.mem_cons.mp member with rfl | later
  · exact submission.isValid_firstLine
  · obtain ⟨field, _, rfl⟩ := List.mem_map.mp later
    exact field.isValid_text

theorem describes_outline (within : submission.Within limits) :
    submission.outline.Describes limits submission.head where
  text := submission.text_outline.symm
  valid := submission.isValid_head
  paired := HeadBuffer.paired_block fun line member => (submission.isLine_of_mem line member).2
  target := submission.plain
  targetLength := within.target
  form := .inl submission.rooted
  accepted := submission.accepted
  spoken := submission.spoken
  count := by simpa [outline] using within.count
  within := by
    intro field member
    obtain ⟨line, inside, rfl⟩ := List.mem_map.mp member
    exact line.within_fieldText (within.names line inside) (within.values line inside)
  framed := framed within

theorem length?_outline (submission : Submission) :
    (Outline.length? submission.outline.fields).getD 0 = submission.body.length := by
  have own : (submission.fields.map FieldLine.fieldText).find? (fun field => field.name == .contentLength) = none := by
    rw [List.find?_eq_none]
    intro field member named
    obtain ⟨line, inside, rfl⟩ := List.mem_map.mp member
    have framing : ResponseBuffer.isFraming line.name = true := by
      simp [ResponseBuffer.isFraming, show (line.name == .contentLength) = true from named]
    exact absurd framing (Bool.eq_false_iff.mp (submission.unframed line inside))
  have read : Decimal.value? (FieldLine.contentLength submission.body.length).value.bytes =
      some submission.body.length := Decimal.value?_toBytes _
  rw [Outline.length?, outline, lines, List.map_append, List.find?_append, own, Option.none_or]
  split
  · rename_i empty
    simp [List.isEmpty_iff.mp empty]
  · exact congrArg (Option.getD · 0) read

theorem keepAlive_outline (submission : Submission) :
    submission.outline.keepAlive = decide (submission.version = .http11) := by
  have none : submission.outline.fields.filter (fun field => field.name == .connection) = [] := by
    rw [List.filter_eq_nil_iff]
    intro field member named
    have different : ((FieldLine.contentLength submission.body.length).name == FieldName.connection) = false := by
      simp only [FieldLine.contentLength]
      decide +kernel
    rw [eq_contentLength_of_isFraming member (by simp [ResponseBuffer.isFraming, named])] at named
    exact absurd named (Bool.eq_false_iff.mp different)
  rw [Outline.keepAlive, none]
  rfl

theorem head_outline (submission : Submission) :
    submission.outline.head = ⟨submission.method, submission.uri, submission.version,
      .ofList (submission.lines.map FieldLine.entry), submission.body.length,
      decide (submission.version = .http11)⟩ := by
  have entries : submission.outline.fields.map FieldText.entry = submission.lines.map FieldLine.entry := by
    rw [outline, List.map_map]
    rfl
  rw [Outline.head, entries, submission.length?_outline, submission.keepAlive_outline]
  rfl

theorem read_head [FieldHash] (within : submission.Within limits) (held : submission.outline.Held limits)
    (rest : Bytes) :
    Head.read limits (submission.head ++ rest) submission.head.length =
      .ok ⟨submission.method, submission.uri, submission.version, .ofList (submission.lines.map FieldLine.entry),
        submission.body.length, decide (submission.version = .http11)⟩ := by
  rw [Head.read_append (Nat.le_refl _), (describes_outline within).read_of_held held, head_outline]

theorem arrived_bytes [FieldHash] {terms : Terms} (within : submission.Within terms.request)
    (held : submission.outline.Held terms.request) (rest : Bytes) :
    terms.arrived (submission.bytes ++ rest) =
      .request (submission.request terms) (decide (submission.version = .http11)) rest := by
  have shape : submission.bytes ++ rest = submission.head ++ (submission.body ++ rest) := by simp [bytes]
  have ended : HeadBuffer.headOf terms.request.headLength (submission.bytes ++ rest) =
      .ok (some submission.head.length) := by
    have begins : (submission.bytes ++ rest).take terms.request.headLength = submission.head ++
        (submission.body ++ rest).take (terms.request.headLength - submission.head.length) := by
      rw [shape, List.take_append, List.take_of_length_le within.head]
    have found := HeadBuffer.headEnd?_block (by simp) submission.isLine_of_mem
      ((submission.body ++ rest).take (terms.request.headLength - submission.head.length))
    simp only [HeadBuffer.headOf, begins]
    rw [show HeadBuffer.headEnd? (submission.head ++ _) = some submission.head.length from found]
  have body : HeadBuffer.bodyOf (submission.bytes ++ rest) submission.head.length submission.body.length =
      .ok submission.body := by
    have granted : Allocation.reserve submission.body.length 1 = .ok () :=
      Allocation.reserve_of_le (by simpa using submission.held)
    have enough : submission.head.length + submission.body.length ≤
        (submission.head ++ (submission.body ++ rest)).length := by
      simp only [List.length_append]
      omega
    rw [shape]
    simp only [HeadBuffer.bodyOf, granted, enough, ↓reduceIte, List.drop_left, List.take_left]
  have left : (submission.bytes ++ rest).drop (submission.head.length + submission.body.length) = rest := by
    rw [← List.drop_drop, shape, List.drop_left, List.drop_left]
  have read := read_head within held (submission.body ++ rest)
  rw [← shape] at read
  simp only [Terms.arrived, ended, read, Terms.arrivedBody, body, left]
  rfl

end Submission

end HttpService
