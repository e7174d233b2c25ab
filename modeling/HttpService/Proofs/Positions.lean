import HttpService.Proofs.Numerals

/-! A head read by positions in the whole of it, with every position checked. Every line that is cut out begins before it
ends and ends in the head, and what comes of it is what reading line after line comes to. -/

namespace HttpService

theorem Bytes.splitFirst?_eq (separator : UInt8) (content : Bytes) :
    splitFirst? separator content =
      (content.findIdx? (· == separator)).map fun stop => (content.take stop, content.drop (stop + 1)) := by
  induction content with
  | nil => rfl
  | cons byte rest ih =>
      rw [splitFirst?, List.findIdx?_cons]
      split
      · simp
      · simp [ih, Function.comp_def]

namespace Head

def lineEndAt (content : Bytes) (start : Nat) : Except ReadFailure (Option Nat) := do
  if content.length < start then return none
  match (content.drop start).findIdx? (· == Ascii.lf) with
  | none => return none
  | some feed =>
    let position ← Checked.add start feed
    if position ≤ start then return none
    let stop ← Checked.sub position 1
    let before ← Checked.byteAt content stop
    return if before = Ascii.cr then some stop else none

def readFirstLineAt (limits : RequestLimits) (line : Bytes) : Except ReadFailure (Method × Uri × Version) := do
  let methodEnd ← orRefuse .invalidMethod (line.findIdx? (· == Ascii.space))
  let token ← cut line 0 methodEnd
  let method ← orRefuse .invalidMethod (Method.ofBytes? token)
  let targetStart ← Checked.add methodEnd 1
  let rest ← cut line targetStart line.length
  let targetEnd ← orRefuse .invalidVersion (rest.findIdx? (· == Ascii.space))
  let target ← cut rest 0 targetEnd
  let uri ← readTarget limits target
  let versionStart ← Checked.add targetEnd 1
  let version ← readVersion (← cut rest versionStart rest.length)
  return (method, uri, version)

def splitFieldAt (limits : RequestLimits) (line : Bytes) : Except ReadFailure (Bytes × Bytes) := do
  let nameEnd ← orRefuse .invalidField (line.findIdx? (· == Ascii.colon))
  let name ← cut line 0 nameEnd
  if name.isEmpty || limits.fieldNameLength < name.length then refuse .invalidField
  else
    let valueStart ← Checked.add nameEnd 1
    let rest ← cut line valueStart line.length
    let value := Bytes.trim rest
    if limits.fieldValueLength < value.length then refuse .invalidField
    else return (name, value)

namespace Progress

def applyLengthAt (limits : RequestLimits) (progress : Progress) (value : Bytes) : Except ReadFailure Progress := do
  let number ← Decimal.readWord value
  let length ← orRefuse .invalidContentLength number
  if progress.contentLength.any (· ≠ length) then refuse .invalidContentLength
  else if limits.bodyLength < length then refuse .bodyTooLarge
  else return { progress with contentLength := some length }

def applyFramingAt (limits : RequestLimits) (progress : Progress) (name value : Bytes) :
    Except ReadFailure Progress :=
  if Bytes.sameIgnoringCase name FieldName.connection.bytes then
    .ok { progress with keepAlive := Persistence.apply progress.keepAlive value }
  else if Bytes.sameIgnoringCase name FieldName.contentLength.bytes then progress.applyLengthAt limits value
  else if Bytes.sameIgnoringCase name FieldName.transferEncoding.bytes &&
      !Bytes.sameIgnoringCase value (Ascii.bytes "identity") then refuse .unsupportedTransferEncoding
  else .ok progress

def readFieldAt [FieldHash] (limits : RequestLimits) (progress : Progress) (line : Bytes) :
    Except ReadFailure Progress := do
  let (name, value) ← splitFieldAt limits line
  let progress ← progress.applyFramingAt limits name value
  let name ← orRefuse .invalidField (FieldName.ofBytes? name)
  let value ← orRefuse .invalidField (FieldValue.ofBytes? value)
  let slots ← orOverflow (progress.slots.take? name)
  return { progress with fields := progress.fields.append name value, slots }

end Progress

def readFieldsAt [FieldHash] (limits : RequestLimits) (content : Bytes) :
    Nat → Nat → Progress → Except ReadFailure Progress
  | allowed, start, progress => do
    let stop ← orRefuse .invalidField (← lineEndAt content start)
    if stop = start then return progress
    match allowed with
    | 0 => refuse .tooManyFields
    | allowed + 1 =>
      let line ← cut content start stop
      let progress ← progress.readFieldAt limits line
      let next ← Checked.add stop 2
      readFieldsAt limits content allowed next progress

def readAt [FieldHash] (limits : RequestLimits) (buffer : Bytes) (stop : Nat) : Except ReadFailure Head := do
  let content ← cut buffer 0 stop
  if !Utf8.isValid content then refuse .invalidField
  else
    let firstEnd ← orRefuse .invalidVersion (← lineEndAt content 0)
    let line ← cut content 0 firstEnd
    let (method, uri, version) ← readFirstLineAt limits line
    let slots ← orOverflow (Slots.new? limits.fieldCount)
    let start ← Checked.add firstEnd 2
    let progress ← readFieldsAt limits content limits.fieldCount start (.start version slots)
    return ⟨method, uri, version, progress.fields, progress.contentLength.getD 0, progress.keepAlive⟩

theorem lineEnd?_le {content : Bytes} {stop : Nat} (found : lineEnd? content = some stop) :
    stop + 2 ≤ content.length := by
  obtain ⟨line, rest, rfl, _, rfl⟩ := lineEnd?_eq_some found
  simp [Ascii.crlf]

theorem lineEndAt_eq {content : Bytes} (fits : content.length < UInt64.size) (start : Nat) :
    lineEndAt content start = .ok ((lineEnd? (content.drop start)).map (start + ·)) := by
  rw [lineEndAt, lineEnd?]
  by_cases beyond : content.length < start
  · simp only [beyond, ↓reduceIte, List.drop_of_length_le (Nat.le_of_lt beyond)]
    rfl
  · simp only [beyond, ↓reduceIte]
    cases found : (content.drop start).findIdx? (· == Ascii.lf) with
    | none => rfl
    | some feed =>
        obtain ⟨bound, _⟩ := List.findIdx?_eq_some_iff_getElem.mp found
        rw [List.length_drop] at bound
        have small : start + feed < UInt64.size := by omega
        simp only [Checked.add_of_lt small, bind, Except.bind]
        by_cases first : feed = 0
        · simp [first, pure, Except.pure]
        · have inside : start + (feed - 1) < content.length := by omega
          have before : start + feed - 1 = start + (feed - 1) := by omega
          have positive : 0 < feed := by omega
          have later : ¬start + feed ≤ start := by omega
          simp only [later, ↓reduceIte, Checked.sub_of_le (show 1 ≤ start + feed by omega), before,
            Checked.byteAt_of_eq (List.getElem?_eq_getElem inside), positive, List.getElem?_drop, true_and,
            List.getElem?_eq_getElem inside, Option.some.injEq]
          split <;> rfl

theorem cut_of_findIdx? {line : Bytes} (fits : line.length < UInt64.size) {separator : UInt8} {stop : Nat}
    (found : line.findIdx? (· == separator) = some stop) :
    cut line 0 stop = .ok (line.take stop) ∧ Checked.add stop 1 = .ok (stop + 1) ∧
      cut line (stop + 1) line.length = .ok (line.drop (stop + 1)) := by
  obtain ⟨bound, _⟩ := List.findIdx?_eq_some_iff_getElem.mp found
  exact ⟨cut_front (Nat.le_of_lt bound), Checked.add_of_lt (by omega), cut_back bound⟩

theorem readFirstLineAt_eq (limits : RequestLimits) {line : Bytes} (fits : line.length < UInt64.size) :
    readFirstLineAt limits line = readFirstLine limits line := by
  rw [readFirstLineAt, readFirstLine, Bytes.splitFirst?_eq]
  cases first : line.findIdx? (· == Ascii.space) with
  | none => rfl
  | some methodEnd =>
      obtain ⟨front, next, back⟩ := cut_of_findIdx? fits first
      have rest : (line.drop (methodEnd + 1)).length < UInt64.size := by
        rw [List.length_drop]
        omega
      simp only [orRefuse, Option.map_some, front, next, back, bind, Except.bind]
      split
      · rfl
      · simp only [Bytes.splitFirst?_eq]
        cases second : (line.drop (methodEnd + 1)).findIdx? (· == Ascii.space) with
        | none => rfl
        | some targetEnd =>
            obtain ⟨front, next, back⟩ := cut_of_findIdx? rest second
            simp only [Option.map_some, front, next, back]

theorem splitFieldAt_eq (limits : RequestLimits) {line : Bytes} (fits : line.length < UInt64.size) :
    splitFieldAt limits line = splitField limits line := by
  rw [splitFieldAt, splitField, Bytes.splitFirst?_eq]
  cases found : line.findIdx? (· == Ascii.colon) with
  | none => rfl
  | some nameEnd =>
      obtain ⟨front, next, back⟩ := cut_of_findIdx? fits found
      simp only [orRefuse, Option.map_some, front, next, back, bind, Except.bind]
      by_cases bad : ((line.take nameEnd).isEmpty || decide (limits.fieldNameLength < (line.take nameEnd).length)) = true
      · simp only [bad, ↓reduceIte, Bool.true_or]
      · simp only [bad, Bool.false_or, decide_eq_true_eq]
        rfl

namespace Progress

theorem applyLengthAt_eq (limits : RequestLimits) (progress : Progress) (value : Bytes) :
    progress.applyLengthAt limits value = progress.applyLength limits value := by
  rw [applyLengthAt, Decimal.readWord_eq]
  rfl

theorem readFieldAt_eq [FieldHash] (limits : RequestLimits) (progress : Progress) {line : Bytes}
    (fits : line.length < UInt64.size) : progress.readFieldAt limits line = progress.readField limits line := by
  simp only [readFieldAt, readField, splitFieldAt_eq limits fits, applyFramingAt, applyFraming, applyLengthAt_eq]

end Progress

theorem readFieldsAt_eq [FieldHash] (limits : RequestLimits) {content : Bytes} (fits : content.length < UInt64.size)
    (allowed start : Nat) (progress : Progress) :
    readFieldsAt limits content allowed start progress = readFields limits allowed (content.drop start) progress := by
  induction allowed generalizing start progress with
  | zero =>
      rw [readFieldsAt, readFields, lineEndAt_eq fits]
      cases lineEnd? (content.drop start) with
      | none => rfl
      | some stop => simp only [Option.map_some, orRefuse, bind, Except.bind, Nat.add_eq_left]
  | succ allowed ih =>
      rw [readFieldsAt, readFields, lineEndAt_eq fits]
      cases found : lineEnd? (content.drop start) with
      | none => rfl
      | some stop =>
          have inside := lineEnd?_le found
          have ahead := inside
          rw [List.length_drop] at ahead
          have line : cut content start (start + stop) = .ok ((content.drop start).take stop) := by
            rw [cut_of_le (Nat.le_add_right start stop) (by omega), Nat.add_sub_cancel_left]
          have next : Checked.add (start + stop) 2 = .ok (start + stop + 2) := Checked.add_of_lt (by omega)
          have short : ((content.drop start).take stop).length < UInt64.size := by
            rw [List.length_take]
            omega
          simp only [Option.map_some, orRefuse, bind, Except.bind, Nat.add_eq_left, line, next,
            cut_front (show stop ≤ (content.drop start).length by omega), Progress.readFieldAt_eq limits progress short,
            ih, List.drop_drop, Nat.add_assoc]

/-- Reading by positions is reading line after line. -/
theorem readAt_eq [FieldHash] (limits : RequestLimits) {buffer : Bytes} (fits : buffer.length < UInt64.size)
    (stop : Nat) : readAt limits buffer stop = read limits buffer stop := by
  rw [readAt, read]
  by_cases inside : stop ≤ buffer.length
  · rw [cut_front inside]
    have short : (buffer.take stop).length < UInt64.size := by
      rw [List.length_take]
      omega
    simp only [bind, Except.bind, lineEndAt_eq short, List.drop_zero, Nat.zero_add, Option.map_id']
    cases found : lineEnd? (buffer.take stop) with
    | none => rfl
    | some firstEnd =>
        have bound := lineEnd?_le found
        have line : ((buffer.take stop).take firstEnd).length < UInt64.size := by
          rw [List.length_take]
          omega
        simp only [orRefuse, cut_front (show firstEnd ≤ (buffer.take stop).length by omega), readFirstLineAt_eq limits line,
          Checked.add_of_lt (show firstEnd + 2 < UInt64.size by omega), readFieldsAt_eq limits short]
  · have outside : cut buffer 0 stop = .error (.panicked outOfBounds) := by
      simp [cut, Bytes.slice?, Bytes.reaches_iff, inside]
    rw [outside]
    rfl

variable {limits : RequestLimits}

open Checked

theorem calm_readTarget (target : Bytes) : Calm (readTarget limits target) := by
  rw [readTarget]
  split
  · exact calm_refuse _
  · split
    · exact calm_refuse _
    · exact calm_orRefuse _ _

theorem calm_readVersion (content : Bytes) : Calm (readVersion content) := by
  rw [readVersion]
  split
  · exact calm_ok _
  · split
    · exact calm_ok _
    · split <;> exact calm_refuse _

theorem calm_readFirstLine (line : Bytes) : Calm (readFirstLine limits line) :=
  calm_bind (calm_orRefuse _ _) fun _ _ => calm_bind (calm_orRefuse _ _) fun _ _ =>
    calm_bind (calm_orRefuse _ _) fun _ _ => calm_bind (calm_readTarget _) fun _ _ =>
      calm_bind (calm_readVersion _) fun _ _ => calm_ok _

theorem calm_splitField (line : Bytes) : Calm (splitField limits line) := by
  refine calm_bind (calm_orRefuse _ _) fun halves _ => ?_
  dsimp only
  split
  · exact calm_refuse _
  · exact calm_ok _

namespace Progress

theorem calm_applyLength (progress : Progress) (value : Bytes) : Calm (progress.applyLength limits value) := by
  refine calm_bind (calm_orRefuse _ _) fun length _ => ?_
  split
  · exact calm_refuse _
  · split
    · exact calm_refuse _
    · exact calm_ok _

theorem calm_applyFraming (progress : Progress) (name value : Bytes) : Calm (progress.applyFraming limits name value) := by
  rw [applyFraming]
  split
  · exact calm_ok _
  · split
    · exact progress.calm_applyLength value
    · split
      · exact calm_refuse _
      · exact calm_ok _

theorem frame_applyFraming {progress framed : Progress} {name value : Bytes}
    (framing : progress.applyFraming limits name value = .ok framed) :
    framed.slots = progress.slots ∧ (framed.contentLength = progress.contentLength ∨
      ∃ number, number ≤ limits.bodyLength ∧ framed.contentLength = some number) := by
  rw [applyFraming] at framing
  split at framing
  · rw [← Except.ok.inj framing]
    exact ⟨rfl, .inl rfl⟩
  · split at framing
    · obtain ⟨number, _, _, small, _, rfl⟩ := applyLength_eq_ok_iff.mp framing
      exact ⟨rfl, .inr ⟨number, small, rfl⟩⟩
    · split at framing
      · simp [refuse] at framing
      · rw [← Except.ok.inj framing]
        exact ⟨rfl, .inl rfl⟩

theorem exists_take?_of_readField [FieldHash] {progress next : Progress} {line : Bytes}
    (read : progress.readField limits line = .ok next) : ∃ name, progress.slots.take? name = some next.slots := by
  obtain ⟨_, _, read⟩ := bind_eq_ok_iff.mp read
  obtain ⟨framed, framing, read⟩ := bind_eq_ok_iff.mp read
  obtain ⟨name, _, read⟩ := bind_eq_ok_iff.mp read
  obtain ⟨_, _, read⟩ := bind_eq_ok_iff.mp read
  obtain ⟨slots, taken, read⟩ := bind_eq_ok_iff.mp read
  rw [← Except.ok.inj read]
  exact ⟨name, (frame_applyFraming framing).1 ▸ orOverflow_eq_ok_iff.mp taken⟩

theorem take?_of_readField_panicked [FieldHash] {progress : Progress} {line : Bytes} {message : String}
    (panicked : progress.readField limits line = .error (.panicked message)) :
    message = Slots.overflow ∧ ∃ name, progress.slots.take? name = none := by
  obtain ⟨_, _, panicked⟩ := exists_ok_of_panicked (calm_splitField line) panicked
  obtain ⟨framed, framing, panicked⟩ := exists_ok_of_panicked (progress.calm_applyFraming _ _) panicked
  obtain ⟨name, _, panicked⟩ := exists_ok_of_panicked (calm_orRefuse _ _) panicked
  obtain ⟨_, _, panicked⟩ := exists_ok_of_panicked (calm_orRefuse _ _) panicked
  rw [(frame_applyFraming framing).1] at panicked
  cases taken : progress.slots.take? name with
  | some slots =>
      rw [taken] at panicked
      cases panicked
  | none =>
      rw [taken] at panicked
      cases panicked
      exact ⟨rfl, name, taken⟩

end Progress

/-- The collection that the limits ask for does not take some names, although they are not too many. -/
def Overfull [FieldHash] (limits : RequestLimits) (message : String) : Prop :=
  message = Slots.overflow ∧ ∃ names, names.length ≤ limits.fieldCount ∧ Slots.holds limits.fieldCount names = false

section

variable [FieldHash] {message : String}

theorem overfull_of_readFields {allowed : Nat} {content : Bytes} {progress : Progress} {taken : List FieldName}
    (filled : Slots.filled? limits.fieldCount taken = some progress.slots)
    (enough : taken.length + allowed ≤ limits.fieldCount)
    (panicked : readFields limits allowed content progress = .error (.panicked message)) : Overfull limits message := by
  induction allowed generalizing content progress taken with
  | zero =>
      rw [readFields] at panicked
      obtain ⟨stop, _, panicked⟩ := exists_ok_of_panicked (calm_orRefuse _ _) panicked
      split at panicked <;> cases panicked
  | succ allowed ih =>
      rw [readFields] at panicked
      obtain ⟨stop, found, panicked⟩ := exists_ok_of_panicked (calm_orRefuse _ _) panicked
      split at panicked
      · cases panicked
      · have inside := lineEnd?_le (orRefuse_eq_ok_iff.mp found)
        have within : Calm (cut content 0 stop) := calm_of_eq_ok (cut_front (by omega))
        obtain ⟨line, _, panicked⟩ := exists_ok_of_panicked within panicked
        cases read : progress.readField limits line with
        | error failure =>
            rw [read] at panicked
            obtain rfl : failure = .panicked message := Except.error.inj panicked
            obtain ⟨rfl, name, none⟩ := Progress.take?_of_readField_panicked read
            refine ⟨rfl, taken ++ [name], ?_, ?_⟩
            · rw [List.length_append, List.length_singleton]
              omega
            · rw [Slots.holds, Slots.filled?_append_singleton, filled, Option.bind_some, none, Option.isSome_none]
        | ok next =>
            rw [read] at panicked
            obtain ⟨name, more⟩ := Progress.exists_take?_of_readField read
            refine @ih _ next (taken ++ [name]) ?_ ?_ panicked
            · rw [Slots.filled?_append_singleton, filled, Option.bind_some, more]
            · rw [List.length_append, List.length_singleton]
              omega

theorem overfull_of_read (room : limits.fieldCount ≤ maxFields) {buffer : Bytes} {stop : Nat}
    (inside : stop ≤ buffer.length) (panicked : read limits buffer stop = .error (.panicked message)) :
    Overfull limits message := by
  obtain ⟨slots, made⟩ := Option.isSome_iff_exists.mp (Slots.isSome_new?_iff.mpr room)
  obtain ⟨content, _, panicked⟩ := exists_ok_of_panicked (calm_of_eq_ok (cut_front inside)) panicked
  split at panicked
  · cases panicked
  · obtain ⟨firstEnd, found, panicked⟩ := exists_ok_of_panicked (calm_orRefuse _ _) panicked
    have within := lineEnd?_le (orRefuse_eq_ok_iff.mp found)
    obtain ⟨line, _, panicked⟩ := exists_ok_of_panicked (calm_of_eq_ok (cut_front (by omega))) panicked
    obtain ⟨⟨method, uri, version⟩, _, panicked⟩ := exists_ok_of_panicked (calm_readFirstLine line) panicked
    rw [made] at panicked
    have empty : Slots.filled? limits.fieldCount [] = some slots := by
      rw [Slots.filled?, made]
      rfl
    cases read : readFields limits limits.fieldCount (content.drop (firstEnd + 2)) (.start version slots) with
    | error failure =>
        simp only [orOverflow, bind, Except.bind, read] at panicked
        obtain rfl : failure = .panicked message := Except.error.inj panicked
        exact overfull_of_readFields empty (Nat.le_of_eq (Nat.zero_add _)) read
    | ok progress =>
        simp only [orOverflow, bind, Except.bind, read] at panicked
        cases panicked

theorem Overfull.few_lt (overfull : Overfull limits message) (room : limits.fieldCount ≤ maxFields) :
    Slots.few < limits.fieldCount := by
  obtain ⟨_, names, fewer, refused⟩ := overfull
  refine Nat.lt_of_not_le fun small => ?_
  simp [Slots.holds_of_few room (Nat.le_trans fewer small)] at refused

end

namespace Progress

def Allowed (limits : RequestLimits) (progress : Progress) : Prop :=
  ∀ length, progress.contentLength = some length → length ≤ limits.bodyLength

theorem Allowed.readField [FieldHash] {progress next : Progress} {line : Bytes} (allowed : progress.Allowed limits)
    (read : progress.readField limits line = .ok next) : next.Allowed limits := by
  obtain ⟨⟨name, value⟩, _, read⟩ := bind_eq_ok_iff.mp read
  obtain ⟨framed, framing, read⟩ := bind_eq_ok_iff.mp read
  obtain ⟨_, _, read⟩ := bind_eq_ok_iff.mp read
  obtain ⟨_, _, read⟩ := bind_eq_ok_iff.mp read
  obtain ⟨_, _, read⟩ := bind_eq_ok_iff.mp read
  simp only [pure, Except.pure, Except.ok.injEq] at read
  subst read
  rcases (frame_applyFraming framing).2 with same | ⟨number, small, announced⟩
  · intro length known
    exact allowed length (same ▸ known)
  · intro length known
    obtain rfl := Option.some.inj (announced.symm.trans known)
    exact small

end Progress

theorem allowed_of_readFields [FieldHash] {count : Nat} {content : Bytes} {progress last : Progress}
    (allowed : progress.Allowed limits) (read : readFields limits count content progress = .ok last) :
    last.Allowed limits := by
  induction count generalizing content progress with
  | zero =>
      obtain ⟨_, _, _, _, ⟨_, rfl⟩ | ⟨_, _, _, impossible, _⟩⟩ := readFields_cases read
      · exact allowed
      · omega
  | succ count ih =>
      obtain ⟨_, _, _, _, ⟨_, rfl⟩ | ⟨_, _, _, same, step, read⟩⟩ := readFields_cases read
      · exact allowed
      · obtain rfl := Nat.succ.inj same
        exact ih (allowed.readField step) read

theorem contentLength_le_of_read [FieldHash] {buffer : Bytes} {stop : Nat} {head : Head}
    (accepted : read limits buffer stop = .ok head) :
    head.contentLength ≤ limits.bodyLength := by
  obtain ⟨_, _, _, _, _, _, _, progress, _, _, _, _, fields, rfl⟩ := read_eq_ok_iff_lines.mp (read_take accepted)
  have allowed : progress.Allowed limits := allowed_of_readFields (by rintro _ ⟨⟩) fields
  cases announced : progress.contentLength with
  | none => simp
  | some length => exact allowed length announced

end Head

end HttpService
