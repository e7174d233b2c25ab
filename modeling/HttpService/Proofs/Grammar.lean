import HttpService.Proofs.Holding
import HttpService.Proofs.Lines
import HttpService.Proofs.Tokens

/-! The grammar of a head, apart from the reader: what can be written in the room of the limits is what is read, and
nothing else is. -/

namespace HttpService

namespace Bytes

theorem splitFirst?_eq_some_iff {separator : UInt8} {content before after : Bytes} :
    splitFirst? separator content = some (before, after) ↔
      content = before ++ separator :: after ∧ separator ∉ before := by
  constructor
  · exact eq_of_splitFirst? separator
  · rintro ⟨rfl, absent⟩
    exact splitFirst?_append absent after

theorem isSome_indexOf?_iff (pattern content : Bytes) :
    (indexOf? pattern content).isSome = true ↔ pattern <:+: content := by
  induction content with
  | nil =>
      simp only [indexOf?, List.infix_nil]
      cases pattern <;> simp
  | cons byte rest ih =>
      rw [List.infix_cons_iff, ← ih, indexOf?]
      by_cases here : pattern.isPrefixOf (byte :: rest) = true
      · simp [here, List.isPrefixOf_iff_prefix.mp here]
      · have absent : ¬pattern <+: byte :: rest := fun begins => here (List.isPrefixOf_iff_prefix.mpr begins)
        simp [here, absent]

end Bytes

namespace Head

theorem bind_eq_ok_iff {ε α β : Type} {first : Except ε α} {next : α → Except ε β} {value : β} :
    (first >>= next) = .ok value ↔ ∃ found, first = .ok found ∧ next found = .ok value := by
  cases first <;> simp [bind, Except.bind]

theorem orRefuse_eq_ok_iff {α : Type} {refusal : Refusal} {found : Option α} {value : α} :
    orRefuse refusal found = .ok value ↔ found = some value := by
  cases found <;> simp [orRefuse, refuse]

theorem orOverflow_eq_ok_iff {α : Type} {found : Option α} {value : α} :
    orOverflow found = .ok value ↔ found = some value := by
  cases found <;> simp [orOverflow]

theorem map_orOverflow_eq_ok_iff {α β : Type} {found : Option α} {next : α → β} {value : β} :
    (orOverflow found).map next = .ok value ↔ ∃ given, found = some given ∧ next given = value := by
  cases found <;> simp [orOverflow, Except.map]

theorem lineEnd?_eq_some {content : Bytes} {stop : Nat} (found : lineEnd? content = some stop) :
    ∃ line rest, content = line ++ Ascii.crlf ++ rest ∧ Ascii.lf ∉ line ∧ line.length = stop := by
  simp only [lineEnd?] at found
  split at found
  · simp at found
  · rename_i feed feedFound
    obtain ⟨bound, isFeed, earlier⟩ := List.findIdx?_eq_some_iff_getElem.mp feedFound
    split at found
    · rename_i closed
      obtain ⟨positive, mark⟩ := closed
      simp only [Option.some.injEq] at found
      subst found
      refine ⟨content.take (feed - 1), content.drop (feed + 1), ?_, ?_, ?_⟩
      · have atReturn : content.drop (feed - 1) = Ascii.cr :: content.drop feed := by
          have bounded : feed - 1 < content.length := by omega
          rw [List.drop_eq_getElem_cons bounded, show feed - 1 + 1 = feed by omega]
          rw [List.getElem?_eq_getElem bounded, Option.some.injEq] at mark
          rw [mark]
        have atFeed : content.drop feed = Ascii.lf :: content.drop (feed + 1) := by
          rw [List.drop_eq_getElem_cons bound, beq_iff_eq.mp isFeed]
        calc content = content.take (feed - 1) ++ content.drop (feed - 1) := (List.take_append_drop _ _).symm
          _ = content.take (feed - 1) ++ Ascii.crlf ++ content.drop (feed + 1) := by
            rw [atReturn, atFeed]
            simp [Ascii.crlf]
      · intro member
        obtain ⟨index, below, same⟩ := List.getElem_of_mem member
        simp only [List.length_take] at below
        rw [List.getElem_take] at same
        exact earlier index (by omega) (by simp [same])
      · rw [List.length_take]
        omega
    · simp at found

theorem readTarget_eq_ok_iff {limits : RequestLimits} {target : Bytes} {uri : Uri} :
    readTarget limits target = .ok uri ↔
      target.length ≤ limits.targetLength ∧
        (target.head? = some PathAndQuery.slash ∨ target.head? = some 0x2A ∨ Uri.afterScheme <:+: target) ∧
        Uri.ofBytes? target = some uri := by
  have form : hasTargetForm target = true ↔
      target.head? = some PathAndQuery.slash ∨ target.head? = some 0x2A ∨ Uri.afterScheme <:+: target := by
    simp only [hasTargetForm, Bool.or_eq_true, beq_iff_eq, Bytes.isSome_indexOf?_iff, or_assoc]
  rw [← form, readTarget]
  by_cases long : limits.targetLength < target.length
  · have short : ¬target.length ≤ limits.targetLength := by omega
    simp [long, short, refuse]
  · by_cases formed : hasTargetForm target = true
    · simp [formed, orRefuse_eq_ok_iff, long, Nat.le_of_not_lt long]
    · simp [formed, long, refuse]

theorem readVersion_eq_ok_iff {content : Bytes} {version : Version} :
    readVersion content = .ok version ↔
      content = version.bytes ∧ (version = .http10 ∨ version = .http11) := by
  constructor
  · intro read
    simp only [readVersion] at read
    split at read
    · rename_i same
      simp only [Except.ok.injEq] at read
      subst read
      exact ⟨same, .inr rfl⟩
    · split at read
      · rename_i same
        simp only [Except.ok.injEq] at read
        subst read
        exact ⟨same, .inl rfl⟩
      · split at read <;> simp [refuse] at read
  · rintro ⟨rfl, spoken⟩
    exact Version.readVersion_bytes spoken

theorem readFirstLine_eq_ok_iff {limits : RequestLimits} {line : Bytes} {method : Method} {uri : Uri}
    {version : Version} :
    readFirstLine limits line = .ok (method, uri, version) ↔
      ∃ target, line = method.token ++ Ascii.space :: (target ++ Ascii.space :: version.bytes) ∧
        Ascii.space ∉ target ∧ readTarget limits target = .ok uri ∧ (version = .http10 ∨ version = .http11) := by
  constructor
  · intro read
    obtain ⟨⟨token, rest⟩, first, read⟩ := bind_eq_ok_iff.mp read
    obtain ⟨found, token, read⟩ := bind_eq_ok_iff.mp read
    obtain ⟨⟨target, ending⟩, second, read⟩ := bind_eq_ok_iff.mp read
    obtain ⟨address, targeted, read⟩ := bind_eq_ok_iff.mp read
    obtain ⟨spoken, versioned, read⟩ := bind_eq_ok_iff.mp read
    simp only [pure, Except.pure, Except.ok.injEq, Prod.mk.injEq] at read
    obtain ⟨rfl, rfl, rfl⟩ := read
    obtain ⟨rfl, _⟩ := Bytes.splitFirst?_eq_some_iff.mp (orRefuse_eq_ok_iff.mp first)
    obtain ⟨rfl, absent⟩ := Bytes.splitFirst?_eq_some_iff.mp (orRefuse_eq_ok_iff.mp second)
    obtain ⟨rfl, spoken⟩ := readVersion_eq_ok_iff.mp versioned
    rw [← Method.ofBytes?_eq_some (orRefuse_eq_ok_iff.mp token)]
    exact ⟨target, rfl, absent, targeted, spoken⟩
  · rintro ⟨target, rfl, absent, targeted, spoken⟩
    have noSpace : Ascii.space ∉ method.token := fun member =>
      (Ascii.ne_of_isToken (method.isToken_of_mem member)).2.1 rfl
    have first := Bytes.splitFirst?_append noSpace (target ++ Ascii.space :: version.bytes)
    have second := Bytes.splitFirst?_append absent version.bytes
    simp only [readFirstLine, first, second, Method.ofBytes?_token, targeted, Version.readVersion_bytes spoken,
      orRefuse, bind, Except.bind]
    rfl

end Head

/-- A field as it stands in a head: the name in any case, a colon, and the value with white space around it. -/
structure FieldText where
  spelling : Bytes
  padded : Bytes
  name : FieldName
  value : FieldValue

namespace FieldText

def text (field : FieldText) : Bytes := field.spelling ++ Ascii.colon :: field.padded

def entry (field : FieldText) : FieldName × FieldValue := (field.name, field.value)

structure Within (field : FieldText) (limits : RequestLimits) : Prop where
  unbroken : Ascii.lf ∉ field.text
  first : Ascii.colon ∉ field.spelling
  spelled : FieldName.ofBytes? field.spelling = some field.name
  nameLength : 1 ≤ field.spelling.length ∧ field.spelling.length ≤ limits.fieldNameLength
  trimmed : FieldValue.ofBytes? (Bytes.trim field.padded) = some field.value
  valueLength : (Bytes.trim field.padded).length ≤ limits.fieldValueLength

end FieldText

namespace Head

variable {limits : RequestLimits}

theorem splitField_eq_ok_iff {line name value : Bytes} :
    splitField limits line = .ok (name, value) ↔
      ∃ padded, line = name ++ Ascii.colon :: padded ∧ Ascii.colon ∉ name ∧ value = Bytes.trim padded ∧
        (1 ≤ name.length ∧ name.length ≤ limits.fieldNameLength) ∧ value.length ≤ limits.fieldValueLength := by
  have small (name value : Bytes) : (name.isEmpty || decide (limits.fieldNameLength < name.length) ||
      decide (limits.fieldValueLength < value.length)) = false ↔
        (1 ≤ name.length ∧ name.length ≤ limits.fieldNameLength) ∧ value.length ≤ limits.fieldValueLength := by
    rw [Bool.or_eq_false_iff, Bool.or_eq_false_iff, decide_eq_false_iff_not, decide_eq_false_iff_not,
      List.isEmpty_eq_false_iff, ← List.length_pos_iff]
    omega
  constructor
  · intro read
    obtain ⟨⟨before, padded⟩, found, rest⟩ := bind_eq_ok_iff.mp read
    obtain ⟨rfl, absent⟩ := Bytes.splitFirst?_eq_some_iff.mp (orRefuse_eq_ok_iff.mp found)
    dsimp only at rest
    split at rest
    · simp [refuse] at rest
    · rename_i within
      simp only [pure, Except.pure, Except.ok.injEq, Prod.mk.injEq] at rest
      obtain ⟨rfl, rfl⟩ := rest
      exact ⟨padded, rfl, absent, rfl, (small _ _).mp (Bool.eq_false_iff.mpr within)⟩
  · rintro ⟨padded, rfl, absent, rfl, bounds⟩
    have found := Bytes.splitFirst?_append absent padded
    simp only [splitField, found, (small _ _).mpr bounds, orRefuse, bind, Except.bind, Bool.false_eq_true, ↓reduceIte]
    rfl

namespace Progress

structure Admits (limits : RequestLimits) (progress : Progress) (field : FieldText) : Prop where
  length : field.name = .contentLength → ∃ number, Decimal.value? field.value.bytes = some number ∧
    number < Decimal.limit ∧ number ≤ limits.bodyLength ∧
    (progress.contentLength = none ∨ progress.contentLength = some number)
  identity : field.name = .transferEncoding →
    Bytes.sameIgnoringCase field.value.bytes (Ascii.bytes "identity") = true

def after (progress : Progress) (field : FieldText) : Progress where
  fields := progress.fields.append field.name field.value
  contentLength :=
    if field.name = .contentLength then Decimal.value? field.value.bytes else progress.contentLength
  keepAlive :=
    if field.name = .connection then Persistence.apply progress.keepAlive field.value.bytes else progress.keepAlive
  slots := progress.slots

theorem applyLength_eq_ok_iff {progress next : Progress} {value : Bytes} :
    progress.applyLength limits value = .ok next ↔
      ∃ number, Decimal.value? value = some number ∧ number < Decimal.limit ∧ number ≤ limits.bodyLength ∧
        (progress.contentLength = none ∨ progress.contentLength = some number) ∧
        next = { progress with contentLength := some number } := by
  have agrees (number : Nat) : progress.contentLength.any (fun known => decide (known ≠ number)) = false ↔
      progress.contentLength = none ∨ progress.contentLength = some number := by
    cases progress.contentLength <;> simp
  constructor
  · intro applied
    obtain ⟨number, found, applied⟩ := bind_eq_ok_iff.mp applied
    obtain ⟨read, small⟩ := Decimal.ofBytes?_eq_some_iff.mp (orRefuse_eq_ok_iff.mp found)
    split at applied
    · simp [refuse] at applied
    · rename_i known
      split at applied
      · simp [refuse] at applied
      · rename_i bounded
        simp only [pure, Except.pure, Except.ok.injEq] at applied
        exact ⟨number, read, small, Nat.le_of_not_lt bounded, (agrees number).mp (Bool.eq_false_iff.mpr known),
          applied.symm⟩
  · rintro ⟨number, read, small, bounded, known, rfl⟩
    have found := Decimal.ofBytes?_eq_some_iff.mpr ⟨read, small⟩
    simp only [applyLength, found, (agrees number).mpr known, Nat.not_lt.mpr bounded, orRefuse, bind, Except.bind,
      Bool.false_eq_true, ↓reduceIte]
    rfl

theorem applyFraming_eq_ok_iff {progress next : Progress} {field : FieldText}
    (spelled : FieldName.ofBytes? field.spelling = some field.name) :
    progress.applyFraming limits field.spelling field.value.bytes = .ok next ↔
      progress.Admits limits field ∧ next = { progress.after field with fields := progress.fields } := by
  have apart : FieldName.contentLength ≠ .connection ∧ FieldName.transferEncoding ≠ .connection ∧
      FieldName.transferEncoding ≠ .contentLength := by decide +kernel
  simp only [applyFraming, FieldName.sameIgnoringCase_spelling spelled, beq_iff_eq]
  by_cases connection : field.name = .connection
  · simp only [connection, ↓reduceIte, Except.ok.injEq]
    constructor
    · rintro rfl
      refine ⟨⟨?_, ?_⟩, ?_⟩
      · intro named
        exact absurd (named.symm.trans connection) apart.1
      · intro named
        exact absurd (named.symm.trans connection) apart.2.1
      · simp [after, connection, apart.1.symm]
    · rintro ⟨_, rfl⟩
      simp [after, connection, apart.1.symm]
  · by_cases contentLength : field.name = .contentLength
    · simp only [contentLength, apart.1, ↓reduceIte, applyLength_eq_ok_iff]
      constructor
      · rintro ⟨number, read, small, bounded, known, rfl⟩
        refine ⟨⟨fun _ => ⟨number, read, small, bounded, known⟩, ?_⟩, ?_⟩
        · intro named
          exact absurd (named.symm.trans contentLength) apart.2.2
        · simp [after, contentLength, read, apart.1]
      · rintro ⟨⟨length, _⟩, rfl⟩
        obtain ⟨number, read, small, bounded, known⟩ := length contentLength
        exact ⟨number, read, small, bounded, known, by simp [after, contentLength, read, apart.1]⟩
    · have framed : { progress.after field with fields := progress.fields } = progress := by
        simp [after, connection, contentLength]
      have admits : progress.Admits limits field ↔ (field.name = .transferEncoding →
          Bytes.sameIgnoringCase field.value.bytes (Ascii.bytes "identity") = true) :=
        ⟨Admits.identity, fun identity => ⟨fun named => absurd named contentLength, identity⟩⟩
      rw [framed, admits]
      simp only [connection, contentLength, ↓reduceIte, Bool.and_eq_true, beq_iff_eq, Bool.not_eq_true']
      split
      · rename_i refused
        simp [refuse, refused]
      · rename_i allowed
        simp only [not_and, Bool.not_eq_false] at allowed
        rw [Except.ok.injEq, eq_comm]
        exact ⟨fun same => ⟨allowed, same⟩, And.right⟩

theorem readField_text [FieldHash] {progress : Progress} {field : FieldText} (within : field.Within limits)
    (admits : progress.Admits limits field) :
    progress.readField limits field.text =
      (orOverflow (progress.slots.take? field.name)).map fun slots => { progress.after field with slots } := by
  have split : splitField limits field.text = .ok (field.spelling, field.value.bytes) :=
    splitField_eq_ok_iff.mpr ⟨field.padded, rfl, within.first, FieldValue.ofBytes?_eq_some within.trimmed,
      within.nameLength, FieldValue.ofBytes?_eq_some within.trimmed ▸ within.valueLength⟩
  have framing := (applyFraming_eq_ok_iff within.spelled).mpr ⟨admits, rfl⟩
  simp only [readField, split, framing, within.spelled, FieldValue.ofBytes?_bytes, orRefuse, bind, Except.bind, after]
  cases progress.slots.take? field.name <;> rfl

theorem readField_eq_ok_iff [FieldHash] {progress next : Progress} {line : Bytes} (unbroken : Ascii.lf ∉ line) :
    progress.readField limits line = .ok next ↔
      ∃ field : FieldText, line = field.text ∧ field.Within limits ∧ progress.Admits limits field ∧
        ∃ slots, progress.slots.take? field.name = some slots ∧ { progress.after field with slots } = next := by
  constructor
  · intro read
    obtain ⟨⟨spelling, content⟩, split, rest⟩ := bind_eq_ok_iff.mp read
    obtain ⟨framed, framing, rest⟩ := bind_eq_ok_iff.mp rest
    obtain ⟨name, spelled, rest⟩ := bind_eq_ok_iff.mp rest
    obtain ⟨value, accepted, _⟩ := bind_eq_ok_iff.mp rest
    obtain ⟨padded, rfl, first, rfl, nameLength, valueLength⟩ := splitField_eq_ok_iff.mp split
    have spelled := orRefuse_eq_ok_iff.mp spelled
    have trimmed := orRefuse_eq_ok_iff.mp accepted
    rw [← FieldValue.ofBytes?_eq_some trimmed] at framing
    let field : FieldText := ⟨spelling, padded, name, value⟩
    obtain ⟨admits, _⟩ := (@applyFraming_eq_ok_iff _ _ _ field spelled).mp framing
    have within : field.Within limits := ⟨unbroken, first, spelled, nameLength, trimmed, valueLength⟩
    exact ⟨field, rfl, within, admits, map_orOverflow_eq_ok_iff.mp ((readField_text within admits).symm.trans read)⟩
  · rintro ⟨field, rfl, within, admits, taken⟩
    exact (readField_text within admits).trans (map_orOverflow_eq_ok_iff.mpr taken)

end Progress

/-- What the fields say about the framing agrees, among themselves and with a length that is already known. -/
structure Framed (limits : RequestLimits) (known : Option Nat) (fields : List FieldText) : Prop where
  lengths : ∀ field ∈ fields, field.name = .contentLength → ∃ number,
    Decimal.value? field.value.bytes = some number ∧ number < Decimal.limit ∧ number ≤ limits.bodyLength
  same : ∀ field ∈ fields, ∀ other ∈ fields, field.name = .contentLength → other.name = .contentLength →
    Decimal.value? field.value.bytes = Decimal.value? other.value.bytes
  known : ∀ field ∈ fields, field.name = .contentLength →
    known = none ∨ known = Decimal.value? field.value.bytes
  identity : ∀ field ∈ fields, field.name = .transferEncoding →
    Bytes.sameIgnoringCase field.value.bytes (Ascii.bytes "identity") = true

theorem framed_cons {progress : Progress} {field : FieldText} {later : List FieldText} :
    Framed limits progress.contentLength (field :: later) ↔
      progress.Admits limits field ∧ Framed limits (progress.after field).contentLength later := by
  constructor
  · rintro ⟨lengths, same, known, identity⟩
    refine ⟨⟨?_, identity field (by simp)⟩, ?_, ?_, ?_, ?_⟩
    · intro named
      obtain ⟨number, read, small, bounded⟩ := lengths field (by simp) named
      exact ⟨number, read, small, bounded, read ▸ known field (by simp) named⟩
    · exact fun other member => lengths other (by simp [member])
    · exact fun other member another second => same other (by simp [member]) another (by simp [second])
    · intro other member named
      by_cases length : field.name = .contentLength
      · simp only [Progress.after, length, ↓reduceIte]
        exact .inr (same field (by simp) other (by simp [member]) length named)
      · simp only [Progress.after, length, ↓reduceIte]
        exact known other (by simp [member]) named
    · exact fun other member => identity other (by simp [member])
  · rintro ⟨⟨length, own⟩, lengths, same, known, identity⟩
    have agrees : ∀ other ∈ later, field.name = .contentLength → other.name = .contentLength →
        Decimal.value? field.value.bytes = Decimal.value? other.value.bytes := by
      intro other member first second
      obtain ⟨number, read, _⟩ := length first
      have announced := known other member second
      simp only [Progress.after, first, ↓reduceIte, read, reduceCtorEq, false_or] at announced
      rw [read, announced]
    refine ⟨?_, ?_, ?_, ?_⟩
    · intro other member named
      rcases List.mem_cons.mp member with rfl | member
      · obtain ⟨number, read, small, bounded, _⟩ := length named
        exact ⟨number, read, small, bounded⟩
      · exact lengths other member named
    · intro other member another second first last
      rcases List.mem_cons.mp member with rfl | inside <;> rcases List.mem_cons.mp second with rfl | beside
      · rfl
      · exact agrees another beside first last
      · exact (agrees other inside last first).symm
      · exact same other inside another beside first last
    · intro other member named
      rcases List.mem_cons.mp member with rfl | member
      · obtain ⟨number, read, _, _, before⟩ := length named
        rwa [read]
      · by_cases first : field.name = .contentLength
        · obtain ⟨number, read, _, _, before⟩ := length first
          rwa [← agrees other member first named, read]
        · simpa only [Progress.after, first, ↓reduceIte] using known other member named
    · intro other member named
      rcases List.mem_cons.mp member with rfl | member
      · exact own named
      · exact identity other member named

theorem foldl_after_slots (fields : List FieldText) (progress : Progress) (slots : Slots) :
    fields.foldl Progress.after { progress with slots } = { fields.foldl Progress.after progress with slots } := by
  induction fields generalizing progress with
  | nil => rfl
  | cons field later ih => exact ih (progress.after field)

variable [FieldHash]

theorem foldlM_readField_text {fields : List FieldText} (within : ∀ field ∈ fields, field.Within limits)
    {progress : Progress} (framed : Framed limits progress.contentLength fields) :
    (fields.map FieldText.text).foldlM (fun progress line => progress.readField limits line) progress =
      (orOverflow ((fields.map FieldText.name).foldlM Slots.take? progress.slots)).map fun slots =>
        { fields.foldl Progress.after progress with slots } := by
  induction fields generalizing progress with
  | nil => rfl
  | cons field later ih =>
      obtain ⟨first, within⟩ := List.forall_mem_cons.mp within
      obtain ⟨admits, framed⟩ := framed_cons.mp framed
      rw [List.map_cons, List.foldlM_cons, Progress.readField_text first admits, List.map_cons, List.foldlM_cons,
        List.foldl_cons]
      cases progress.slots.take? field.name with
      | none => rfl
      | some slots =>
          have rest := @ih within { progress.after field with slots } framed
          rw [foldl_after_slots] at rest
          exact rest

theorem foldlM_readField_eq_ok_iff {lines : List Bytes} (unbroken : ∀ line ∈ lines, Ascii.lf ∉ line)
    {progress last : Progress} :
    lines.foldlM (fun progress line => progress.readField limits line) progress = .ok last ↔
      ∃ fields : List FieldText, lines = fields.map FieldText.text ∧ (∀ field ∈ fields, field.Within limits) ∧
        Framed limits progress.contentLength fields ∧
        ∃ slots, (fields.map FieldText.name).foldlM Slots.take? progress.slots = some slots ∧
          { fields.foldl Progress.after progress with slots } = last := by
  constructor
  · intro read
    have told : ∃ fields : List FieldText, lines = fields.map FieldText.text ∧
        (∀ field ∈ fields, field.Within limits) ∧ Framed limits progress.contentLength fields := by
      induction lines generalizing progress with
      | nil => exact ⟨[], rfl, by simp, ⟨by simp, by simp, by simp, by simp⟩⟩
      | cons line later ih =>
          rw [List.foldlM_cons] at read
          obtain ⟨next, step, read⟩ := bind_eq_ok_iff.mp read
          obtain ⟨field, rfl, within, admits, slots, _, rfl⟩ :=
            (Progress.readField_eq_ok_iff (unbroken _ (by simp))).mp step
          obtain ⟨fields, rfl, others, framed⟩ := ih (fun line member => unbroken line (by simp [member])) read
          exact ⟨field :: fields, rfl, List.forall_mem_cons.mpr ⟨within, others⟩, framed_cons.mpr ⟨admits, framed⟩⟩
    obtain ⟨fields, rfl, within, framed⟩ := told
    exact ⟨fields, rfl, within, framed,
      map_orOverflow_eq_ok_iff.mp ((foldlM_readField_text within framed).symm.trans read)⟩
  · rintro ⟨fields, rfl, within, framed, taken⟩
    exact (foldlM_readField_text within framed).trans (map_orOverflow_eq_ok_iff.mpr taken)

theorem readFields_block {lines : List Bytes} (sound : ∀ line ∈ lines, HeadBuffer.IsLine line) {allowed : Nat}
    (enough : lines.length ≤ allowed) (progress : Progress) :
    readFields limits allowed (HeadBuffer.block lines) progress =
      lines.foldlM (fun progress line => progress.readField limits line) progress := by
  induction lines generalizing allowed progress with
  | nil =>
      have ended : lineEnd? (HeadBuffer.block []) = some 0 := by decide +kernel
      cases allowed <;> simp [readFields, ended, orRefuse, bind, Except.bind]
  | cons line later ih =>
      obtain ⟨nonempty, absent⟩ := sound line (by simp)
      cases allowed with
      | zero => simp at enough
      | succ allowed =>
          have ended := lineEnd?_append absent (HeadBuffer.block later)
          have long : line.length ≠ 0 := by simpa using nonempty
          have rest := ih (fun line member => sound line (by simp [member])) (Nat.le_of_succ_le_succ enough)
          simp only [HeadBuffer.block_cons, List.foldlM_cons, readFields, ended, orRefuse, bind, Except.bind, long,
            ↓reduceIte, cut_line, drop_line, rest]

theorem readFields_cases {allowed : Nat} {content : Bytes} {progress last : Progress}
    (read : readFields limits allowed content progress = .ok last) :
    ∃ line rest, content = line ++ Ascii.crlf ++ rest ∧ Ascii.lf ∉ line ∧
      (line = [] ∧ last = progress ∨
        line ≠ [] ∧ ∃ fewer next, allowed = fewer + 1 ∧ progress.readField limits line = .ok next ∧
          readFields limits fewer rest next = .ok last) := by
  unfold readFields at read
  obtain ⟨stop, found, read⟩ := bind_eq_ok_iff.mp read
  obtain ⟨line, rest, rfl, absent, rfl⟩ := lineEnd?_eq_some (orRefuse_eq_ok_iff.mp found)
  refine ⟨line, rest, rfl, absent, ?_⟩
  split at read
  · rename_i empty
    simp only [pure, Except.pure, Except.ok.injEq] at read
    exact .inl ⟨List.length_eq_zero_iff.mp empty, read.symm⟩
  · rename_i long
    refine .inr ⟨fun empty => long (List.length_eq_zero_iff.mpr empty), ?_⟩
    cases allowed with
    | zero => simp [refuse] at read
    | succ fewer =>
        obtain ⟨front, whole, later⟩ := bind_eq_ok_iff.mp read
        obtain ⟨next, step, rest⟩ := bind_eq_ok_iff.mp later
        rw [cut_line, Except.ok.injEq] at whole
        rw [drop_line] at rest
        exact ⟨fewer, next, rfl, whole ▸ step, rest⟩

theorem exists_block_of_readFields {allowed : Nat} {content : Bytes} {progress last : Progress}
    (read : readFields limits allowed content progress = .ok last) :
    ∃ lines rest, content = HeadBuffer.block lines ++ rest ∧ (∀ line ∈ lines, HeadBuffer.IsLine line) ∧
      lines.length ≤ allowed ∧
      lines.foldlM (fun progress line => progress.readField limits line) progress = .ok last := by
  induction allowed generalizing content progress with
  | zero =>
      obtain ⟨line, rest, rfl, absent, ⟨rfl, rfl⟩ | ⟨_, fewer, next, impossible, _⟩⟩ := readFields_cases read
      · exact ⟨[], rest, by simp [HeadBuffer.block], by simp, by simp, rfl⟩
      · omega
  | succ allowed ih =>
      obtain ⟨line, rest, rfl, absent, ⟨rfl, rfl⟩ | ⟨nonempty, fewer, next, same, step, read⟩⟩ := readFields_cases read
      · exact ⟨[], rest, by simp [HeadBuffer.block], by simp, by simp, rfl⟩
      · obtain rfl := Nat.succ.inj same
        obtain ⟨lines, behind, rfl, sound, enough, read⟩ := ih read
        refine ⟨line :: lines, behind, ?_, List.forall_mem_cons.mpr ⟨⟨nonempty, absent⟩, sound⟩, ?_, ?_⟩
        · rw [HeadBuffer.block_cons, List.append_assoc _ _ behind]
        · simpa using enough
        · rw [List.foldlM_cons, step]
          exact read

end Head

namespace Bytes

def Paired (content : Bytes) : Prop :=
  ∀ index, content[index]? = some Ascii.lf → 0 < index ∧ content[index - 1]? = some Ascii.cr

theorem Paired.line {line tail : Bytes} (absent : Ascii.lf ∉ line) (paired : tail.Paired) :
    (line ++ Ascii.crlf ++ tail).Paired := by
  intro index feed
  rcases Nat.lt_trichotomy index (line.length + 1) with before | here | behind
  · rw [List.append_assoc] at feed
    rcases Nat.lt_or_eq_of_le (Nat.le_of_lt_succ before) with inside | rfl
    · rw [List.getElem?_append_left inside] at feed
      exact absurd (List.mem_of_getElem? feed) absent
    · simp [Ascii.crlf, Ascii.cr, Ascii.lf] at feed
  · subst here
    refine ⟨by omega, ?_⟩
    simp [Ascii.crlf]
  · have length : (line ++ Ascii.crlf).length = line.length + 2 := by simp [Ascii.crlf]
    rw [List.getElem?_append_right (by omega), length] at feed
    obtain ⟨positive, mark⟩ := paired _ feed
    refine ⟨by omega, ?_⟩
    rw [List.getElem?_append_right (by omega), length]
    rwa [show index - 1 - (line.length + 2) = index - (line.length + 2) - 1 by omega]

end Bytes

theorem HeadBuffer.paired_block {lines : List Bytes} (unbroken : ∀ line ∈ lines, Ascii.lf ∉ line) :
    (block lines).Paired := by
  induction lines with
  | nil =>
      have empty : Bytes.Paired [] := by simp [Bytes.Paired]
      exact empty.line (List.not_mem_nil)
  | cons line later ih =>
      rw [block_cons]
      exact (ih fun line member => unbroken line (by simp [member])).line (unbroken line (by simp))

theorem HeadBuffer.eq_nil_of_closed {lines : List Bytes} {rest : Bytes} (nonempty : lines ≠ [])
    (sound : ∀ line ∈ lines, IsLine line)
    (closed : headEnd? (block lines ++ rest) = some (block lines ++ rest).length) : rest = [] := by
  have length := Option.some.inj (closed.symm.trans (headEnd?_block nonempty sound rest))
  simpa using length

/-- What a head says, and how it is written. -/
structure Outline where
  method : Method
  target : Bytes
  uri : Uri
  version : Version
  fields : List FieldText

namespace Outline

def firstLine (outline : Outline) : Bytes :=
  outline.method.token ++ Ascii.space :: (outline.target ++ Ascii.space :: outline.version.bytes)

def text (outline : Outline) : Bytes :=
  HeadBuffer.block (outline.firstLine :: outline.fields.map FieldText.text)

def length? (fields : List FieldText) : Option Nat :=
  (fields.find? fun field => field.name == .contentLength).bind fun field => Decimal.value? field.value.bytes

def keepAlive (outline : Outline) : Persistence :=
  (outline.fields.filter fun field => field.name == .connection).foldl
    (fun keepAlive field => Persistence.apply keepAlive field.value.bytes) (outline.version = .http11)

def head (outline : Outline) : Head where
  method := outline.method
  uri := outline.uri
  version := outline.version
  fields := .ofList (outline.fields.map FieldText.entry)
  contentLength := (length? outline.fields).getD 0
  keepAlive := outline.keepAlive

/-- The grammar of a head. -/
structure Describes (outline : Outline) (limits : RequestLimits) (content : Bytes) : Prop where
  text : content = outline.text
  valid : Utf8.isValid content = true
  paired : content.Paired
  target : Ascii.space ∉ outline.target ∧ Ascii.lf ∉ outline.target
  targetLength : outline.target.length ≤ limits.targetLength
  form : outline.target.head? = some PathAndQuery.slash ∨ outline.target.head? = some 0x2A ∨
    Uri.afterScheme <:+: outline.target
  accepted : Uri.ofBytes? outline.target = some outline.uri
  spoken : outline.version = .http10 ∨ outline.version = .http11
  count : outline.fields.length ≤ limits.fieldCount
  within : ∀ field ∈ outline.fields, field.Within limits
  framed : Head.Framed limits none outline.fields

variable {outline : Outline} {limits : RequestLimits}

theorem foldl_after_fields (fields : List FieldText) (progress : Head.Progress) :
    (fields.foldl Head.Progress.after progress).fields =
      (fields.map FieldText.entry).foldl (fun known line => known.append line.1 line.2) progress.fields := by
  induction fields generalizing progress with
  | nil => rfl
  | cons field later ih => exact ih (progress.after field)

theorem foldl_after_keepAlive (fields : List FieldText) (progress : Head.Progress) :
    (fields.foldl Head.Progress.after progress).keepAlive =
      (fields.filter fun field => field.name == .connection).foldl
        (fun keepAlive field => Persistence.apply keepAlive field.value.bytes) progress.keepAlive := by
  induction fields generalizing progress with
  | nil => rfl
  | cons field later ih =>
      rw [List.foldl_cons, ih]
      by_cases named : field.name = .connection <;> simp [Head.Progress.after, named]

theorem foldl_after_contentLength {fields : List FieldText} {progress : Head.Progress}
    (framed : Head.Framed limits progress.contentLength fields) :
    (fields.foldl Head.Progress.after progress).contentLength = progress.contentLength.or (length? fields) := by
  induction fields generalizing progress with
  | nil => simp [length?]
  | cons field later ih =>
      obtain ⟨admits, rest⟩ := Head.framed_cons.mp framed
      rw [List.foldl_cons, ih rest]
      by_cases named : field.name = .contentLength
      · obtain ⟨number, read, _, _, known⟩ := admits.length named
        rcases known with known | known <;> simp [Head.Progress.after, length?, named, read, known]
      · simp [Head.Progress.after, length?, named]

theorem foldl_after (framed : Head.Framed limits none outline.fields) (slots last : Slots) :
    { outline.fields.foldl Head.Progress.after (.start outline.version slots) with slots := last } =
      ⟨.ofList (outline.fields.map FieldText.entry), length? outline.fields, outline.keepAlive, last⟩ := by
  have fields := foldl_after_fields outline.fields (.start outline.version slots)
  have keepAlive := foldl_after_keepAlive outline.fields (.start outline.version slots)
  have length : (outline.fields.foldl Head.Progress.after (.start outline.version slots)).contentLength = _ :=
    foldl_after_contentLength framed
  rw [show (Head.Progress.start outline.version slots).contentLength = none from rfl, Option.none_or] at length
  exact Head.Progress.mk.injEq .. ▸ ⟨fields, length, keepAlive, rfl⟩

theorem isLine_of_mem (absent : Ascii.lf ∉ outline.target)
    (unbroken : ∀ field ∈ outline.fields, Ascii.lf ∉ field.text) :
    ∀ line ∈ outline.firstLine :: outline.fields.map FieldText.text, HeadBuffer.IsLine line := by
  intro line member
  rcases List.mem_cons.mp member with rfl | later
  · refine ⟨by simp [firstLine], ?_⟩
    simp only [firstLine, List.mem_append, List.mem_cons, not_or]
    exact ⟨fun inside => (Ascii.ne_of_isToken (outline.method.isToken_of_mem inside)).1 rfl, by decide, absent,
      by decide, outline.version.not_mem_bytes (.inr rfl)⟩
  · obtain ⟨field, inside, rfl⟩ := List.mem_map.mp later
    exact ⟨by simp [FieldText.text], unbroken field inside⟩

end Outline

namespace Head

variable [FieldHash]

theorem read_take {buffer : Bytes} {stop : Nat} {head : Head} (accepted : read limits buffer stop = .ok head) :
    read limits (buffer.take stop) (buffer.take stop).length = .ok head := by
  obtain ⟨content, found, rest⟩ := bind_eq_ok_iff.mp accepted
  have inside : content = buffer.take stop := by
    simp only [cut, Bytes.slice?] at found
    split at found
    · rename_i piece sliced
      split at sliced
      · simp only [Option.some.injEq, Except.ok.injEq, List.drop_zero, Nat.sub_zero] at sliced found
        rw [← found, sliced]
      · simp at sliced
    · simp at found
  rw [← inside]
  exact bind_eq_ok_iff.mpr ⟨content, cut_all content, rest⟩

theorem read_lines {line rest : Bytes} (valid : Utf8.isValid (line ++ Ascii.crlf ++ rest) = true)
    (absent : Ascii.lf ∉ line) {method : Method} {uri : Uri} {version : Version}
    (first : readFirstLine limits line = .ok (method, uri, version)) :
    read limits (line ++ Ascii.crlf ++ rest) (line ++ Ascii.crlf ++ rest).length = do
      let slots ← orOverflow (Slots.new? limits.fieldCount)
      let progress ← readFields limits limits.fieldCount rest (.start version slots)
      return ⟨method, uri, version, progress.fields, progress.contentLength.getD 0, progress.keepAlive⟩ := by
  simp only [read, cut_all, valid, Bool.not_true, Bool.false_eq_true, ↓reduceIte, lineEnd?_append absent, cut_line,
    first, drop_line, orRefuse, bind, Except.bind]

theorem read_eq_ok_iff_lines {content : Bytes} {head : Head} :
    read limits content content.length = .ok head ↔
      Utf8.isValid content = true ∧
        ∃ line rest method uri version slots progress, content = line ++ Ascii.crlf ++ rest ∧ Ascii.lf ∉ line ∧
          readFirstLine limits line = .ok (method, uri, version) ∧ Slots.new? limits.fieldCount = some slots ∧
          readFields limits limits.fieldCount rest (.start version slots) = .ok progress ∧
          head = ⟨method, uri, version, progress.fields, progress.contentLength.getD 0, progress.keepAlive⟩ := by
  constructor
  · intro accepted
    obtain ⟨whole, same, cut⟩ := bind_eq_ok_iff.mp accepted
    rw [cut_all, Except.ok.injEq] at same
    subst same
    split at cut
    · simp [refuse] at cut
    · rename_i checked
      have valid : Utf8.isValid content = true := by simpa using checked
      obtain ⟨stop, found, cut⟩ := bind_eq_ok_iff.mp cut
      obtain ⟨line, rest, rfl, absent, rfl⟩ := lineEnd?_eq_some (orRefuse_eq_ok_iff.mp found)
      obtain ⟨front, same, cut⟩ := bind_eq_ok_iff.mp cut
      rw [cut_line, Except.ok.injEq] at same
      subst same
      obtain ⟨⟨method, uri, version⟩, first, _⟩ := bind_eq_ok_iff.mp cut
      obtain ⟨slots, made, read⟩ := bind_eq_ok_iff.mp ((read_lines valid absent first).symm.trans accepted)
      obtain ⟨progress, fields, read⟩ := bind_eq_ok_iff.mp read
      simp only [pure, Except.pure, Except.ok.injEq] at read
      exact ⟨valid, line, rest, method, uri, version, slots, progress, rfl, absent, first,
        orOverflow_eq_ok_iff.mp made, fields, read.symm⟩
  · rintro ⟨valid, line, rest, method, uri, version, slots, progress, rfl, absent, first, made, fields, rfl⟩
    rw [read_lines valid absent first]
    exact bind_eq_ok_iff.mpr ⟨slots, orOverflow_eq_ok_iff.mpr made, bind_eq_ok_iff.mpr ⟨progress, fields, rfl⟩⟩

theorem read_of_maxFields_lt (large : maxFields < limits.fieldCount) {line rest : Bytes}
    (valid : Utf8.isValid (line ++ Ascii.crlf ++ rest) = true) (absent : Ascii.lf ∉ line)
    {accepted : Method × Uri × Version} (first : readFirstLine limits line = .ok accepted) :
    read limits (line ++ Ascii.crlf ++ rest) (line ++ Ascii.crlf ++ rest).length =
      .error (.panicked Slots.overflow) := by
  have none : Slots.new? limits.fieldCount = none := by
    rw [← Option.not_isSome_iff_eq_none, Slots.isSome_new?_iff]
    exact Nat.not_le.mpr large
  rw [read_lines valid absent first, none]
  rfl

end Head

namespace Outline

variable [FieldHash] {outline : Outline} {limits : RequestLimits}

/-- The collection that the limits ask for takes the names of the fields. -/
def Held (outline : Outline) (limits : RequestLimits) : Prop :=
  Slots.holds limits.fieldCount (outline.fields.map FieldText.name) = true

theorem held_of_few (room : limits.fieldCount ≤ Head.maxFields) (fewer : outline.fields.length ≤ Slots.few) :
    outline.Held limits :=
  Slots.holds_of_few room (Nat.le_trans (Nat.le_of_eq (List.length_map _)) fewer)

theorem Describes.read {content : Bytes} (described : outline.Describes limits content) :
    Head.read limits content content.length =
      (Head.orOverflow (Slots.filled? limits.fieldCount (outline.fields.map FieldText.name))).map fun _ =>
        outline.head := by
  obtain ⟨text, valid, _, ⟨noSpace, absent⟩, targetLength, form, accepted, spoken, count, within, framed⟩ := described
  have sound := isLine_of_mem absent fun field member => (within field member).unbroken
  have first : Head.readFirstLine limits outline.firstLine = .ok (outline.method, outline.uri, outline.version) :=
    Head.readFirstLine_eq_ok_iff.mpr
      ⟨outline.target, rfl, noSpace, Head.readTarget_eq_ok_iff.mpr ⟨targetLength, form, accepted⟩, spoken⟩
  obtain rfl := text.trans (HeadBuffer.block_cons _ _)
  rw [Head.read_lines valid (sound _ (by simp)).2 first, Slots.filled?]
  cases Slots.new? limits.fieldCount with
  | none => rfl
  | some slots =>
      have later : ∀ line ∈ outline.fields.map FieldText.text, HeadBuffer.IsLine line :=
        fun line member => sound line (List.mem_cons_of_mem _ member)
      have enough : (outline.fields.map FieldText.text).length ≤ limits.fieldCount := by simpa using count
      have fields : Head.readFields limits limits.fieldCount
          (HeadBuffer.block (outline.fields.map FieldText.text)) (.start outline.version slots) =
          (Head.orOverflow ((outline.fields.map FieldText.name).foldlM Slots.take? slots)).map fun last =>
            ⟨.ofList (outline.fields.map FieldText.entry), length? outline.fields, outline.keepAlive, last⟩ := by
        rw [Head.readFields_block later enough, Head.foldlM_readField_text within framed]
        simp only [foldl_after framed]
        rfl
      simp only [Head.orOverflow, bind, Except.bind, Option.bind, fields]
      cases (outline.fields.map FieldText.name).foldlM Slots.take? slots <;> rfl

theorem Describes.read_of_held {content : Bytes} (described : outline.Describes limits content)
    (held : outline.Held limits) : Head.read limits content content.length = .ok outline.head := by
  obtain ⟨last, filled⟩ := Option.isSome_iff_exists.mp held
  rw [described.read, filled]
  rfl

theorem Describes.read_of_not_held {content : Bytes} (described : outline.Describes limits content)
    (refused : ¬outline.Held limits) : Head.read limits content content.length = .error (.panicked Slots.overflow) := by
  rw [described.read, Option.not_isSome_iff_eq_none.mp refused]
  rfl

end Outline

namespace Head

variable {limits : RequestLimits}

/-- What is read is what an outline says, which stands at the front, and nothing behind it where the head ends at its
first empty line. -/
theorem exists_outline_of_read [FieldHash] {content : Bytes} {head : Head}
    (accepted : read limits content content.length = .ok head) :
    ∃ (outline : Outline) (behind : Bytes), content = outline.text ++ behind ∧
      (∀ field ∈ outline.fields, field.Within limits) ∧ outline.Held limits ∧ outline.head = head ∧
      (HeadBuffer.headEnd? content = some content.length → outline.Describes limits content) := by
  obtain ⟨valid, line, rest, method, uri, version, slots, progress, cut, absent, first, made, fields, rfl⟩ :=
    read_eq_ok_iff_lines.mp accepted
  obtain ⟨target, rfl, noSpace, targeted, spoken⟩ := readFirstLine_eq_ok_iff.mp first
  obtain ⟨targetLength, form, known⟩ := readTarget_eq_ok_iff.mp targeted
  obtain ⟨lines, behind, rfl, sound, count, read⟩ := exists_block_of_readFields fields
  obtain ⟨texts, rfl, within, framed, last, taken, rfl⟩ :=
    (foldlM_readField_eq_ok_iff fun line member => (sound line member).2).mp read
  have noFeed : Ascii.lf ∉ target := fun member => absent (by simp [member])
  let outline : Outline := ⟨method, target, uri, version, texts⟩
  have shape : content = outline.text ++ behind := by
    rw [cut, Outline.text, HeadBuffer.block_cons, List.append_assoc _ _ behind]
    rfl
  refine ⟨outline, behind, shape, within, ?_, ?_, ?_⟩
  · rw [Outline.Held, Slots.holds, Slots.filled?, made, Option.bind_some]
    exact Option.isSome_of_eq_some taken
  · rw [outline.foldl_after framed]
    rfl
  · intro closed
    have lines := outline.isLine_of_mem noFeed fun field member => (within field member).unbroken
    obtain rfl := HeadBuffer.eq_nil_of_closed (by simp) lines (shape ▸ closed)
    rw [List.append_nil] at shape
    have paired : content.Paired := shape ▸ HeadBuffer.paired_block fun line member => (lines line member).2
    exact ⟨shape, valid, paired, ⟨noSpace, noFeed⟩, targetLength, form, known, spoken, by simpa using count, within,
      framed⟩

/-- A head is read exactly if the grammar describes it and the collection takes the names of its fields, and then as what
the grammar says. A collection takes all names that are few. Where it does not take those of a head that the grammar
describes, reading panics, and it does so behind every first line where more fields are allowed than a collection has
room for. -/
theorem read_eq_ok_iff [FieldHash] (limits : RequestLimits) {content : Bytes}
    (closed : HeadBuffer.headEnd? content = some content.length) :
    (∀ head, read limits content content.length = .ok head ↔
      limits.fieldCount ≤ maxFields ∧
        ∃ outline : Outline, outline.Describes limits content ∧ outline.Held limits ∧ outline.head = head) ∧
    (∀ outline : Outline, outline.Describes limits content →
      (limits.fieldCount ≤ maxFields → outline.fields.length ≤ Slots.few → outline.Held limits) ∧
        (¬outline.Held limits → read limits content content.length = .error (.panicked Slots.overflow))) ∧
    (maxFields < limits.fieldCount → ∀ line rest accepted, content = line ++ Ascii.crlf ++ rest → Ascii.lf ∉ line →
      Utf8.isValid content = true → readFirstLine limits line = .ok accepted →
        read limits content content.length = .error (.panicked Slots.overflow)) := by
  refine ⟨fun head => ⟨fun accepted => ?_, ?_⟩, fun outline described => ⟨?_, described.read_of_not_held⟩, ?_⟩
  · obtain ⟨outline, _, _, _, held, same, described⟩ := exists_outline_of_read accepted
    exact ⟨Slots.le_of_holds held, outline, described closed, held, same⟩
  · rintro ⟨_, outline, described, held, rfl⟩
    exact described.read_of_held held
  · exact outline.held_of_few
  · rintro large line rest accepted rfl absent valid first
    exact read_of_maxFields_lt large valid absent first

theorem read_eq_ok_iff_repeated_length :
    let content := Ascii.bytes ("PUT http://a/b?c#d HTTP/1.0\r\nContent-Length: 7\r\ncontent-LENGTH:\t007 \r\n" ++
      "Transfer-Encoding: Identity\r\nConnection: keep-alive, close, keep-alive\r\nx:\r\n\r\n")
    HeadBuffer.headEnd? content = some content.length ∧
      ∃ outline : Outline, outline.Describes {} content ∧ outline.head.contentLength = 7 ∧
        outline.head.keepAlive = false := by
  intro content
  have closed : HeadBuffer.headEnd? content = some content.length := by decide +kernel
  have told : (read {} content content.length).toOption.any
      (fun head => head.contentLength == 7 && !head.keepAlive) = true := by decide +kernel
  cases accepted : read {} content content.length with
  | error failure =>
      rw [accepted] at told
      simp [Except.toOption] at told
  | ok head =>
      obtain ⟨_, outline, described, _, rfl⟩ := ((read_eq_ok_iff {} closed).1 head).mp accepted
      rw [accepted] at told
      simp only [Except.toOption, Option.any_some, Bool.and_eq_true, beq_iff_eq, Bool.not_eq_true'] at told
      exact ⟨closed, outline, described, told⟩

/-- The grammar alone is not enough. No head is read, not even one without fields, where more fields are allowed than a
collection has room for. -/
theorem read_of_too_many_fields :
    let limits : RequestLimits := { fieldCount := 24577 }
    let content := Ascii.bytes "GET / HTTP/1.1\r\n\r\n"
    HeadBuffer.headEnd? content = some content.length ∧ (∃ outline : Outline, outline.Describes limits content) ∧
      ¬∃ head, read limits content content.length = .ok head := by
  intro limits content
  let outline : Outline := ⟨.get, Ascii.bytes "/", .root, .http11, []⟩
  have text : content = outline.text := by decide +kernel
  have paired : content.Paired := text ▸ HeadBuffer.paired_block (by decide +kernel)
  refine ⟨by decide +kernel, ⟨outline, ?_⟩, ?_⟩
  · exact ⟨text, by decide +kernel, paired, by decide +kernel, by decide +kernel, .inl (by decide +kernel),
      by decide +kernel, .inr rfl, by decide +kernel, by simp [outline], ⟨by simp [outline], by simp [outline],
      by simp [outline], by simp [outline]⟩⟩
  · rintro ⟨head, read⟩
    obtain ⟨_, _, _, _, _, _, slots, _, _, _, _, made, _⟩ := read_eq_ok_iff_lines.mp read
    exact absurd (Slots.isSome_new?_iff.mp (Option.isSome_of_eq_some made)) (by decide)

end Head

end HttpService
