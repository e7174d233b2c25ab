import HttpService.Proofs.Readback
import HttpService.Proofs.Tokens
import HttpService.Session.Fields
import HttpService.View.Response
import Mathlib.Data.List.Dedup

/-! The names that a view of fields lists. A view keeps its list from one time to the next; but whatever is done to the
view, or to the fields behind it, what it lists are the names of the fields that are bound. -/

namespace HttpService

namespace Utf8

theorem encode_toText {content : Bytes} (ascii : ∀ byte ∈ content, byte < 0x80) : encode content.toText = content := by
  have back : ∀ byte ∈ content, (Char.ofNat byte.toNat).toNat = byte.toNat := by
    intro byte member
    have small : byte.toNat < 0x80 := UInt8.lt_iff_toNat_lt.mp (ascii byte member)
    have valid : byte.toNat.isValidChar := .inl (by omega)
    rw [Char.ofNat, dif_pos valid]
    rfl
  have small : IsAscii content.toText := by
    intro character member
    rw [Bytes.toText, String.toList_ofList] at member
    obtain ⟨byte, inside, rfl⟩ := List.mem_map.mp member
    rw [back byte inside]
    exact UInt8.lt_iff_toNat_lt.mp (ascii byte inside)
  rw [encode_of_isAscii small, Bytes.toText, String.toList_ofList, List.map_map]
  refine (List.map_congr_left fun byte member => ?_).trans (List.map_id content)
  rw [Function.comp_apply, back byte member]
  exact UInt8.ofNat_toNat

end Utf8

namespace FieldName

theorem encode_text (name : FieldName) : Utf8.encode name.text = name.bytes :=
  Utf8.encode_toText fun _ member => (Ascii.ne_of_isToken (name.isToken_of_mem member)).2.2.2

theorem text_injective : Function.Injective text := fun name other same =>
  eq_of_bytes (by rw [← name.encode_text, same, other.encode_text])

end FieldName

namespace Fields

theorem dedup_replicate_append {name : FieldName} {later : List FieldName} (absent : name ∉ later) (more : Nat) :
    (List.replicate (more + 1) name ++ later).dedup = name :: later.dedup := by
  induction more with
  | zero => exact List.dedup_cons_of_notMem absent
  | succ more ih => exact (List.dedup_cons_of_mem (by simp [List.replicate_succ])).trans ih

theorem names_eq_dedup (fields : Fields) : fields.names = (fields.toList.map Prod.fst).dedup := by
  obtain ⟨entries, distinct⟩ := fields
  simp only [names, toList]
  induction entries with
  | nil => rfl
  | cons field rest ih =>
      obtain ⟨absent, distinct⟩ := List.nodup_cons.mp distinct
      have unlisted : field.name ∉ (rest.flatMap fun field => field.values.map fun value => (field.name, value)).map
          Prod.fst := by
        intro member
        obtain ⟨⟨_, value⟩, inside, rfl⟩ := List.mem_map.mp member
        obtain ⟨other, known, line⟩ := List.mem_flatMap.mp inside
        obtain ⟨_, _, same⟩ := List.mem_map.mp line
        exact absent (List.mem_map.mpr ⟨other, known, congrArg Prod.fst same⟩)
      have repeated : (field.values.map fun value => (field.name, value)).map Prod.fst =
          List.replicate (field.rest.length + 1) field.name := by
        rw [List.map_map, Field.values, ← List.length_cons, ← List.map_const']
        rfl
      rw [List.map_cons, List.flatMap_cons, List.map_append, repeated, dedup_replicate_append unlisted, ih distinct]

theorem contains_iff_mem (fields : Fields) (name : FieldName) : fields.contains name = true ↔ name ∈ fields.names := by
  simp only [contains, names, List.any_eq_true, List.mem_map, beq_iff_eq]

end Fields

namespace FieldsView

def Listed (view : FieldsView) : Prop := view.keysValid = true → view.keys = view.currentKeys

variable {view : FieldsView}

theorem listed_rebind (view : FieldsView) (source : FieldsSource) : (view.rebind source).Listed :=
  fun stands => absurd stands Bool.false_ne_true

theorem Listed.change (listed : view.Listed) (edit : Fields → Except FieldError Fields) : (view.change edit).2.Listed := by
  simp only [FieldsView.change]
  split
  · exact listed
  · split <;> exact fun stands => absurd stands Bool.false_ne_true

theorem Listed.replaceExclusive (listed : view.Listed) (fields : Fields) : (view.replaceExclusive fields).Listed := by
  obtain ⟨source, locked, keys, valid⟩ := view
  cases source with
  | exclusive => exact fun stands => absurd stands Bool.false_ne_true
  | unbound | shared => exact listed

theorem Listed.listKeys (listed : view.Listed) :
    view.listKeys.1 = view.currentKeys ∧ view.listKeys.2.Listed ∧ view.listKeys.2.fields? = view.fields? := by
  simp only [FieldsView.listKeys]
  split
  · rename_i stands
    exact ⟨listed stands, listed, rfl⟩
  · exact ⟨rfl, fun _ => rfl, rfl⟩

theorem currentKeys_eq (view : FieldsView) :
    view.currentKeys = ((view.fields?.map Fields.names).getD []).map FieldName.text := by
  rw [currentKeys]
  cases view.fields? <;> rfl

theorem contains_iff_mem_currentKeys (view : FieldsView) (key : String) :
    view.contains key = true ↔
      ∃ listed ∈ view.currentKeys, Bytes.sameIgnoringCase (Utf8.encode listed) (Utf8.encode key) = true := by
  rw [contains, currentKeys]
  cases view.fields? with
  | none => simp
  | some fields =>
      cases spelled : FieldName.ofBytes? (Utf8.encode key) with
      | none =>
          simp only [Bool.false_eq_true, List.mem_map, exists_exists_and_eq_and, false_iff, not_exists, not_and]
          intro name _ same
          rw [name.encode_text] at same
          have lowered : Bytes.lower name.bytes = Bytes.lower (Utf8.encode key) := beq_iff_eq.mp same
          rw [← FieldName.ofBytes?_lower, ← lowered, FieldName.ofBytes?_lower, name.ofBytes?_bytes] at spelled
          cases spelled
      | some name =>
          simp only [fields.contains_iff_mem, List.mem_map, exists_exists_and_eq_and]
          have same (other : FieldName) :
              Bytes.sameIgnoringCase (Utf8.encode other.text) (Utf8.encode key) = true ↔ name = other := by
            rw [other.encode_text, Bytes.sameIgnoringCase, BEq.comm, ← Bytes.sameIgnoringCase,
              FieldName.sameIgnoringCase_spelling spelled, beq_iff_eq]
          simp only [same, exists_eq_right']

end FieldsView

theorem FieldsOp.listed_perform (op : FieldsOp) {view : FieldsView} (listed : view.Listed) :
    (op.perform view).2.Listed := by
  cases op with
  | keys => exact listed.listKeys.2.1
  | set key value => exact listed.change _
  | add key value => exact listed.change _
  | del key => exact listed.change _
  | _ => exact listed

theorem FieldsCommand.listed_perform (command : FieldsCommand) {view : FieldsView} (listed : view.Listed) :
    (command.perform view).2.Listed := by
  cases command with
  | bind | bindExclusive | release => exact FieldsView.listed_rebind view _
  | lock => exact listed
  | edit change =>
      simp only [perform]
      split
      · exact listed
      · exact listed.replaceExclusive _
  | ask op => exact op.listed_perform listed

section

variable {κ : Type} [Sink κ] {view : ResponseView κ}

namespace ResponseView

theorem listed_settle (listed : view.fields.Listed) : view.settle.fields.Listed := by
  simp only [settle]
  split <;> exact listed

theorem listed_writeHead (listed : view.fields.Listed) (status : Status) :
    (view.writeHead status).view.fields.Listed := by
  simp only [writeHead]
  split <;> exact listed

theorem listed_write (listed : view.fields.Listed) (content : Bytes) : (view.write content).view.fields.Listed := by
  have head : (if view.adapter.committed then ⟨.ok (), view, []⟩ else view.writeHead .ok :
      Effect Unit κ).view.fields.Listed := by
    split
    · exact listed
    · exact listed_writeHead listed .ok
  simp only [write]
  split <;> exact head

end ResponseView

theorem ResponseOp.listed_perform (op : ResponseOp) (listed : view.fields.Listed) :
    (op.perform view).view.fields.Listed := by
  cases op with
  | fields op => exact op.listed_perform (ResponseView.listed_settle listed)
  | writeHead status => exact ResponseView.listed_writeHead listed status
  | write content => exact ResponseView.listed_write listed content
  | native op =>
      simp only [perform]
      split
      · exact listed
      · exact listed.replaceExclusive _
  | log level message =>
      simp only [perform]
      split <;> exact listed
  | _ => exact listed

end

/-- A view of fields in the course of its life: it stands alone, or a response holds it. -/
inductive FieldsHolder (κ : Type)
  | alone (view : FieldsView)
  | response (view : ResponseView κ)

/-- What happens to a view of fields. Through its writer a response lets native code do with the fields, and with the
sink, whatever it likes. -/
inductive FieldsEvent (κ : Type)
  | command (command : FieldsCommand)
  | respond (sink : κ) (logger : Logger)
  | operate (op : ResponseOp)
  | native (change : Writer (ResponseAdapter κ) → Writer (ResponseAdapter κ))
  | release

namespace FieldsHolder

variable {κ : Type} [Sink κ]

def view : FieldsHolder κ → FieldsView
  | .alone view => view
  | .response view => view.fields

def ask (holder : FieldsHolder κ) (op : FieldsOp) : op.Answer :=
  match holder with
  | .alone view => (op.perform view).1
  | .response view => (ResponseOp.perform view (.fields op)).answer

def next : FieldsHolder κ → FieldsEvent κ → FieldsHolder κ
  | .alone view, .command command => .alone (command.perform view).2
  | .alone view, .respond sink logger =>
    .response (ResponseView.unbound.bind (ResponseAdapter.unbound.bind sink) view logger)
  | .response view, .operate op => .response (op.perform view).view
  | .response view, .native change =>
    match view.native? with
    | none => .response view
    | some writer => .response (view.restore (change writer))
  | .response view, .release => .alone view.release.2.2
  | holder, _ => holder

def after (holder : FieldsHolder κ) (events : List (FieldsEvent κ)) : FieldsHolder κ := events.foldl next holder

theorem listed_next {holder : FieldsHolder κ} (listed : holder.view.Listed) (event : FieldsEvent κ) :
    (holder.next event).view.Listed := by
  cases holder with
  | alone view =>
      cases event with
      | command command => exact command.listed_perform listed
      | _ => exact listed
  | response view =>
      cases event with
      | operate op => exact op.listed_perform listed
      | native change =>
          simp only [next]
          split
          · exact listed
          · exact listed.replaceExclusive _
      | release => exact FieldsView.listed_rebind view.fields _
      | _ => exact listed

theorem listed_after {holder : FieldsHolder κ} (listed : holder.view.Listed) (events : List (FieldsEvent κ)) :
    (holder.after events).view.Listed := by
  induction events generalizing holder with
  | nil => exact listed
  | cons event rest ih => exact ih (listed_next listed event)

theorem ask_keys {holder : FieldsHolder κ} (listed : holder.view.Listed) :
    holder.ask .keys = holder.view.currentKeys := by
  cases holder with
  | alone view => exact listed.listKeys.1
  | response view =>
      have settled := (ResponseView.listed_settle listed).listKeys.1
      have same : view.settle.fields.currentKeys = view.fields.currentKeys := by
        simp only [ResponseView.settle]
        split <;> rfl
      exact settled.trans same

theorem ask_contains (holder : FieldsHolder κ) (key : String) :
    holder.ask (.contains key) = holder.view.contains key := by
  cases holder with
  | alone view => rfl
  | response view =>
      simp only [ask, ResponseOp.perform, FieldsOp.perform, ResponseView.settle]
      split <;> rfl

/-- Whatever has happened to a view, and to the fields behind it, at any time it lists the names of the fields that are
bound, each once and in the order of their lines, and none where nothing is bound. A name is listed just when it is
contained; and what is contained is listed, in lower case. -/
theorem keys_after (events : List (FieldsEvent κ)) :
    let holder : FieldsHolder κ := after (.alone .unbound) events
    let lines := (holder.view.fields?.map Fields.toList).getD []
    let keys := holder.ask .keys
    keys = (lines.map Prod.fst).dedup.map FieldName.text ∧ keys.Nodup ∧
      (∀ name : FieldName, name.text ∈ keys ↔ holder.ask (.contains name.text) = true) ∧
      ∀ key : String, holder.ask (.contains key) = true ↔
        ∃ listed ∈ keys, Bytes.sameIgnoringCase (Utf8.encode listed) (Utf8.encode key) = true := by
  intro holder lines keys
  have unlisted : (.alone .unbound : FieldsHolder κ).view.Listed := FieldsView.listed_rebind .unbound .unbound
  have listed : holder.view.Listed := listed_after unlisted events
  have current : keys = holder.view.currentKeys := ask_keys listed
  have names : (holder.view.fields?.map Fields.names).getD [] = (lines.map Prod.fst).dedup := by
    simp only [lines]
    cases holder.view.fields? with
    | none => rfl
    | some fields => exact fields.names_eq_dedup
  have exact : keys = (lines.map Prod.fst).dedup.map FieldName.text := by
    rw [current, holder.view.currentKeys_eq, names]
  have contained (key : String) : holder.ask (.contains key) = true ↔
      ∃ listed ∈ keys, Bytes.sameIgnoringCase (Utf8.encode listed) (Utf8.encode key) = true := by
    rw [ask_contains, current]
    exact holder.view.contains_iff_mem_currentKeys key
  refine ⟨exact, ?_, fun name => ?_, contained⟩
  · rw [exact]
    exact (List.nodup_dedup _).map FieldName.text_injective
  · rw [contained, exact]
    simp only [List.mem_map, exists_exists_and_eq_and, FieldName.encode_text, FieldName.sameIgnoringCase_bytes, beq_iff_eq,
      exists_eq_right, FieldName.text_injective.eq_iff]

end FieldsHolder

end HttpService
