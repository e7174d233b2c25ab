import HttpService.Proofs.Readback
import HttpService.Proofs.Tokens

/-! Changing fields through a view: what stands in the way of a change, and what the change makes of the fields. -/

namespace HttpService

namespace FieldName

/-- What names a field, in any case: a token that is not too long. -/
def IsSpelling (spelling : Bytes) : Prop :=
  spelling ≠ [] ∧ spelling.length ≤ 65535 ∧ ∀ byte ∈ spelling, Ascii.isToken byte = true

instance (spelling : Bytes) : Decidable (IsSpelling spelling) :=
  inferInstanceAs (Decidable (_ ∧ _ ∧ _))

theorem isSome_ofBytes?_iff (spelling : Bytes) : (ofBytes? spelling).isSome = true ↔ IsSpelling spelling := by
  have sound : isWellFormed (Bytes.lower spelling) = true ↔ IsSpelling spelling := by
    simp [isWellFormed, IsSpelling, Bytes.lower, Ascii.isToken_toLower, Ascii.toLower_toLower, and_assoc]
  rw [← sound, ofBytes?]
  split <;> simp_all

end FieldName

namespace FieldValue

def IsContent (content : Bytes) : Prop := ∀ byte ∈ content, 0x20 ≤ byte ∧ byte ≠ 0x7F ∨ byte = 0x09

instance (content : Bytes) : Decidable (IsContent content) :=
  inferInstanceAs (Decidable (∀ byte ∈ content, _))

theorem isSome_ofBytes?_iff (content : Bytes) : (ofBytes? content).isSome = true ↔ IsContent content := by
  have sound : (content.all fun byte => (0x20 ≤ byte && byte != 0x7F) || byte == 0x09) = true ↔ IsContent content := by
    simp [IsContent]
  rw [← sound, ofBytes?]
  split <;> simp_all

end FieldValue

namespace FieldsView

def held (view : FieldsView) (name : FieldName) : List FieldValue :=
  (view.fields?.map fun fields => fields.values name).getD []

theorem result_change_of_exclusive (fields : Fields) (keys : List String) (valid : Bool)
    (edit : Fields → Except FieldError Fields) :
    ((⟨.exclusive fields, false, keys, valid⟩ : FieldsView).change edit).1 = (edit fields).map fun _ => () := by
  simp only [change, fieldsToChange, Bool.false_eq_true, ↓reduceIte]
  cases edit fields <;> rfl

theorem source_of_refused {view : FieldsView} {edit : Fields → Except FieldError Fields}
    (refused : (view.change edit).1 ≠ .ok ()) : (view.change edit).2.source = view.source := by
  simp only [change] at refused ⊢
  split
  · rfl
  · rename_i fields open_
    simp only [open_] at refused
    split
    · rfl
    · rename_i done
      simp [done] at refused

end FieldsView

inductive FieldsChange
  | set (key value : String)
  | add (key value : String)
  | del (key : String)

namespace FieldsChange

def key : FieldsChange → String
  | set key _ => key
  | add key _ => key
  | del key => key

def value? : FieldsChange → Option String
  | set _ value => some value
  | add _ value => some value
  | del _ => none

def perform (view : FieldsView) : FieldsChange → Except FieldError Unit × FieldsView
  | set key value => view.set key value
  | add key value => view.add key value
  | del key => view.del key

def written : FieldsChange → List Bytes → List Bytes
  | set _ value, _ => [Utf8.encode value]
  | add _ value, before => before ++ [Utf8.encode value]
  | del _, _ => []

/-- What can stand in the way of a change, each with the error that tells of it. -/
def obstacles (change : FieldsChange) (view : FieldsView) : List (Bool × FieldError) :=
  [(view.locked, .committed), (!view.isBound, .unbound), (view.isBound && view.exclusive?.isNone, .readOnly),
    (!decide (FieldName.IsSpelling (Utf8.encode change.key)), .invalidName change.key),
    (!decide (∀ value ∈ change.value?, FieldValue.IsContent (Utf8.encode value)), .invalidValue change.key)]

def refusal? (change : FieldsChange) (view : FieldsView) : Option FieldError :=
  ((change.obstacles view).find? Prod.fst).map Prod.snd

def edit (fields : Fields) : FieldsChange → Except FieldError Fields
  | set key value => do
    let (name, value) ← FieldsView.readLine key value
    return fields.insert name value
  | add key value => do
    let (name, value) ← FieldsView.readLine key value
    return fields.append name value
  | del key => do
    let name ← FieldsView.readName key
    return fields.erase name

theorem perform_eq (change : FieldsChange) (view : FieldsView) :
    change.perform view = view.change fun fields => change.edit fields := by
  cases change <;> rfl

theorem result_readLine (key value : String) (write : FieldName → FieldValue → Fields) :
    (do
      let (name, value) ← FieldsView.readLine key value
      return write name value : Except FieldError Fields).map (fun _ => ()) =
      if FieldName.IsSpelling (Utf8.encode key) then
        if FieldValue.IsContent (Utf8.encode value) then .ok () else .error (.invalidValue key)
      else .error (.invalidName key) := by
  simp only [FieldsView.readLine, FieldsView.readName, ← FieldName.isSome_ofBytes?_iff,
    ← FieldValue.isSome_ofBytes?_iff]
  cases FieldName.ofBytes? (Utf8.encode key) with
  | none => rfl
  | some name => cases FieldValue.ofBytes? (Utf8.encode value) <;> rfl

theorem result_edit (change : FieldsChange) (fields : Fields) :
    (change.edit fields).map (fun _ => ()) =
      if FieldName.IsSpelling (Utf8.encode change.key) then
        if ∀ value ∈ change.value?, FieldValue.IsContent (Utf8.encode value) then .ok ()
        else .error (.invalidValue change.key)
      else .error (.invalidName change.key) := by
  cases change with
  | set key value =>
      simp only [value?, Option.mem_def, Option.some.injEq, forall_eq']
      exact result_readLine key value fields.insert
  | add key value =>
      simp only [value?, Option.mem_def, Option.some.injEq, forall_eq']
      exact result_readLine key value fields.append
  | del key =>
      simp only [edit, FieldsView.readName, FieldsChange.key, ← FieldName.isSome_ofBytes?_iff]
      cases FieldName.ofBytes? (Utf8.encode key) <;> rfl

theorem values_of_edit {change : FieldsChange} {fields edited : Fields} (done : change.edit fields = .ok edited) :
    ∃ name, FieldName.ofBytes? (Utf8.encode change.key) = some name ∧
      (edited.values name).map FieldValue.bytes = change.written ((fields.values name).map FieldValue.bytes) ∧
      ∀ other, other ≠ name → edited.values other = fields.values other := by
  cases change with
  | set key value =>
      obtain ⟨name, kept, named, accepted, rfl⟩ := FieldsView.readLine_bind_eq_ok done
      refine ⟨name, named, ?_, fun other different => ?_⟩
      · rw [Fields.values_insert, if_pos rfl, List.map_singleton, FieldValue.ofBytes?_eq_some accepted, written]
      · rw [Fields.values_insert, if_neg different]
  | add key value =>
      obtain ⟨name, kept, named, accepted, rfl⟩ := FieldsView.readLine_bind_eq_ok done
      refine ⟨name, named, ?_, fun other different => ?_⟩
      · rw [Fields.values_append, if_pos rfl, List.map_append, List.map_singleton,
          FieldValue.ofBytes?_eq_some accepted, written]
      · rw [Fields.values_append, if_neg different]
  | del key =>
      cases named : FieldName.ofBytes? (Utf8.encode key) with
      | none => simp [edit, FieldsView.readName, named, Bind.bind, Except.bind] at done
      | some name =>
          simp only [edit, FieldsView.readName, named, Bind.bind, Except.bind, pure, Except.pure,
            Except.ok.injEq] at done
          obtain rfl := done
          refine ⟨name, named, ?_, fun other different => ?_⟩
          · rw [Fields.values_erase, if_pos rfl, List.map_nil, written]
          · rw [Fields.values_erase, if_neg different]

theorem result_perform (change : FieldsChange) (view : FieldsView) :
    (change.perform view).1 = (change.refusal? view).elim (.ok ()) .error := by
  rw [perform_eq]
  obtain ⟨source, locked, keys, valid⟩ := view
  cases locked with
  | true => rfl
  | false =>
      cases source with
      | unbound => rfl
      | shared fields => rfl
      | exclusive fields =>
          rw [FieldsView.result_change_of_exclusive, result_edit, refusal?]
          simp only [obstacles, FieldsView.isBound, FieldsView.fields?, FieldsView.exclusive?]
          by_cases spelled : FieldName.IsSpelling (Utf8.encode change.key)
          · by_cases content : ∀ value ∈ change.value?, FieldValue.IsContent (Utf8.encode value)
            · rw [if_pos spelled, if_pos content, decide_eq_true spelled, decide_eq_true content]
              rfl
            · rw [if_pos spelled, if_neg content, decide_eq_true spelled, decide_eq_false content]
              rfl
          · rw [if_neg spelled, decide_eq_false spelled]
            rfl

end FieldsChange

end HttpService
