import HttpService.Proofs.Values
import HttpService.View.Fields

/-! What a view of fields gives back after it has taken a value: the value itself if it is ASCII, and no text at all if
it is not. -/

namespace HttpService

namespace Ascii

theorem isVisible_of_value {byte : UInt8} (sound : ((0x20 ≤ byte && byte != 0x7F) || byte == 0x09) = true) :
    isVisible byte = decide (byte < 0x80) := by
  have checked := holds_of_all (fun value => !((0x20 ≤ value && value != 0x7F) || value == 0x09) ||
    (isVisible value == decide (value < 0x80))) (by decide +kernel) byte
  rw [sound] at checked
  simpa using checked

end Ascii

namespace Utf8

def IsAscii (text : String) : Prop := ∀ character ∈ text.toList, character.toNat < 128

instance (text : String) : Decidable (IsAscii text) :=
  List.decidableBAll (fun character : Char => character.toNat < 128) text.toList

theorem encodeChar_of_lt {character : Char} (small : character.toNat < 128) :
    String.utf8EncodeChar character = [character.toNat.toUInt8] := by
  have one : character.val.toNat ≤ 127 := Nat.le_of_lt_succ small
  simp only [String.utf8EncodeChar, one, ↓reduceIte]
  rfl

theorem encode_of_isAscii {text : String} (ascii : IsAscii text) :
    encode text = text.toList.map fun character => character.toNat.toUInt8 := by
  rw [encode]
  rw [IsAscii] at ascii
  generalize text.toList = characters at ascii ⊢
  induction characters with
  | nil => rfl
  | cons character later ih =>
      obtain ⟨small, rest⟩ := List.forall_mem_cons.mp ascii
      rw [List.flatMap_cons, List.map_cons, encodeChar_of_lt small, ih rest]
      rfl

theorem toText_encode {text : String} (ascii : IsAscii text) : (encode text).toText = text := by
  have back : ∀ character ∈ text.toList, Char.ofNat character.toNat.toUInt8.toNat = character := by
    intro character member
    have small := ascii character member
    have same : character.toNat.toUInt8.toNat = character.toNat := by
      simp only [Nat.toUInt8_eq, UInt8.toNat_ofNat']
      omega
    rw [same, Char.ofNat_toNat]
  have chars : (text.toList.map fun character => character.toNat.toUInt8).map
      (fun byte => Char.ofNat byte.toNat) = text.toList := by
    rw [List.map_map]
    exact (List.map_congr_left back).trans (List.map_id' _)
  rw [encode_of_isAscii ascii, Bytes.toText, chars, String.ofList_toList]

theorem exists_le_of_le {character : Char} (large : 128 ≤ character.toNat) :
    ∃ byte ∈ String.utf8EncodeChar character, 0x80 ≤ byte := by
  have high (payload : Nat) : (0x80 : UInt8) ≤ UInt8.ofNat (payload % 64 + 128) := by
    rw [UInt8.le_iff_toNat_le, UInt8.toNat_ofNat']
    change 128 ≤ (payload % 64 + 128) % 256
    omega
  have beyond : ¬character.val.toNat ≤ 127 := Nat.not_le.mpr large
  refine ⟨UInt8.ofNat (character.val.toNat % 64 + 128), ?_, high _⟩
  simp only [String.utf8EncodeChar, beyond, ↓reduceIte]
  split
  · simp
  · split <;> simp

theorem exists_le_of_not_isAscii {text : String} (beyond : ¬IsAscii text) : ∃ byte ∈ encode text, 0x80 ≤ byte := by
  simp only [IsAscii, Classical.not_forall, Nat.not_lt] at beyond
  obtain ⟨character, member, large⟩ := beyond
  obtain ⟨byte, inside, high⟩ := exists_le_of_le large
  exact ⟨byte, List.mem_flatMap.mpr ⟨character, member, inside⟩, high⟩

end Utf8

theorem Utf8.all_encode_iff (text : String) :
    (encode text).all (fun byte => decide (byte < 0x80)) = true ↔ IsAscii text := by
  constructor
  · intro small
    refine Classical.byContradiction fun beyond => ?_
    obtain ⟨byte, member, high⟩ := exists_le_of_not_isAscii beyond
    have below := of_decide_eq_true (List.all_eq_true.mp small byte member)
    exact absurd below (UInt8.not_lt.mpr high)
  · intro ascii
    rw [encode_of_isAscii ascii, List.all_map, List.all_eq_true]
    intro character member
    have below := ascii character member
    rw [Function.comp_apply, decide_eq_true_eq, UInt8.lt_iff_toNat_lt, Nat.toUInt8_eq, UInt8.toNat_ofNat']
    change character.toNat % 256 < 128
    omega

theorem FieldValue.text?_of_ofBytes? {text : String} {value : FieldValue}
    (accepted : ofBytes? (Utf8.encode text) = some value) :
    value.text? = if Utf8.IsAscii text then some text else none := by
  have bytes : value.bytes = Utf8.encode text := ofBytes?_eq_some accepted
  have visible : value.bytes.all Ascii.isVisible = value.bytes.all fun byte => decide (byte < 0x80) := by
    rw [Bool.eq_iff_iff, List.all_eq_true, List.all_eq_true]
    apply forall₂_congr
    intro byte member
    rw [Ascii.isVisible_of_value (List.all_eq_true.mp value.wellFormed byte member)]
  rw [bytes] at visible
  simp only [text?, bytes, visible, Utf8.all_encode_iff]
  by_cases ascii : Utf8.IsAscii text
  · rw [if_pos ascii, if_pos ascii, Utf8.toText_encode ascii]
  · rw [if_neg ascii, if_neg ascii]

namespace FieldsView

def values (view : FieldsView) (key : String) : List FieldValue :=
  match view.fields?, FieldName.ofBytes? (Utf8.encode key) with
  | some fields, some name => fields.values name
  | _, _ => []

variable {view : FieldsView} {key value other : String}

theorem get?_eq (view : FieldsView) (key : String) : view.get? key = (view.values key).head?.bind FieldValue.text? := by
  simp only [get?, values, Fields.lookup?]
  cases view.fields? with
  | none => rfl
  | some fields =>
      cases FieldName.ofBytes? (Utf8.encode key) with
      | none => rfl
      | some name => rfl

theorem contains_iff (view : FieldsView) (key : String) : view.contains key = true ↔ view.values key ≠ [] := by
  simp only [contains, values]
  cases view.fields? with
  | none => simp
  | some fields =>
      cases FieldName.ofBytes? (Utf8.encode key) with
      | none => simp
      | some name => exact fields.contains_iff name

theorem values_of_sameIgnoringCase (same : Bytes.sameIgnoringCase (Utf8.encode other) (Utf8.encode key) = true)
    (view : FieldsView) : view.values other = view.values key := by
  have lowered : Bytes.lower (Utf8.encode other) = Bytes.lower (Utf8.encode key) := beq_iff_eq.mp same
  have sameName : FieldName.ofBytes? (Utf8.encode other) = FieldName.ofBytes? (Utf8.encode key) := by
    rw [← FieldName.ofBytes?_lower, lowered, FieldName.ofBytes?_lower]
  rw [values, values, sameName]

theorem fields?_of_change {edit : Fields → Except FieldError Fields} (done : (view.change edit).1 = .ok ()) :
    ∃ fields edited, view.fields? = some fields ∧ edit fields = .ok edited ∧
      (view.change edit).2.fields? = some edited := by
  obtain ⟨source, locked, keys, valid⟩ := view
  cases locked with
  | true => simp [change, fieldsToChange] at done
  | false =>
      cases source with
      | unbound => simp [change, fieldsToChange] at done
      | shared fields => simp [change, fieldsToChange] at done
      | exclusive fields =>
          simp only [change, fieldsToChange, Bool.false_eq_true, ↓reduceIte] at done ⊢
          cases edited : edit fields with
          | error error => simp [edited] at done
          | ok after => exact ⟨fields, after, rfl, edited, rfl⟩

theorem readLine_bind_eq_ok {edit : FieldName → FieldValue → Fields} {edited : Fields}
    (done : (do
      let (name, value) ← readLine key value
      return edit name value : Except FieldError Fields) = .ok edited) :
    ∃ name kept, FieldName.ofBytes? (Utf8.encode key) = some name ∧
      FieldValue.ofBytes? (Utf8.encode value) = some kept ∧ edited = edit name kept := by
  simp only [readLine, readName] at done
  cases named : FieldName.ofBytes? (Utf8.encode key) with
  | none => simp [named, Bind.bind, Except.bind] at done
  | some name =>
      cases accepted : FieldValue.ofBytes? (Utf8.encode value) with
      | none => simp [named, accepted, Bind.bind, Except.bind] at done
      | some kept =>
          simp only [named, accepted, Bind.bind, Except.bind, pure, Except.pure, Except.ok.injEq] at done
          exact ⟨name, kept, rfl, rfl, done.symm⟩

theorem values_set (done : (view.set key value).1 = .ok ()) :
    ∃ kept, FieldValue.ofBytes? (Utf8.encode value) = some kept ∧ (view.set key value).2.values key = [kept] := by
  obtain ⟨fields, edited, _, edit, after⟩ := fields?_of_change done
  obtain ⟨name, kept, named, accepted, rfl⟩ := readLine_bind_eq_ok edit
  refine ⟨kept, accepted, ?_⟩
  rw [values, set, after, named]
  simp only [Fields.values_insert, ↓reduceIte]

theorem values_add (done : (view.add key value).1 = .ok ()) :
    ∃ kept, FieldValue.ofBytes? (Utf8.encode value) = some kept ∧
      (view.add key value).2.values key = view.values key ++ [kept] := by
  obtain ⟨fields, edited, before, edit, after⟩ := fields?_of_change done
  obtain ⟨name, kept, named, accepted, rfl⟩ := readLine_bind_eq_ok edit
  refine ⟨kept, accepted, ?_⟩
  rw [values, values, add, after, before, named]
  simp only [Fields.values_append, ↓reduceIte]

/-- What a view has set or added it holds, for the key in any case; and it gives it back, if it is ASCII. Other values
are taken as well, but none of them is given back as a text. -/
theorem get?_of_ok (view : FieldsView) (key value other : String)
    (same : Bytes.sameIgnoringCase (Utf8.encode other) (Utf8.encode key) = true) :
    ((view.set key value).1 = .ok () →
        (view.set key value).2.get? other = (if Utf8.IsAscii value then some value else none) ∧
          (view.set key value).2.contains other = true ∧
          ((view.set key value).2.values other).map FieldValue.bytes = [Utf8.encode value]) ∧
      ((view.add key value).1 = .ok () →
        (view.contains other = false →
          (view.add key value).2.get? other = if Utf8.IsAscii value then some value else none) ∧
          (view.contains other = true → (view.add key value).2.get? other = view.get? other) ∧
          ((view.add key value).2.values other).map FieldValue.bytes =
            (view.values other).map FieldValue.bytes ++ [Utf8.encode value]) := by
  have sameValues := values_of_sameIgnoringCase same
  constructor
  · intro done
    obtain ⟨kept, accepted, values⟩ := values_set done
    rw [get?_eq, contains_iff, sameValues, values]
    refine ⟨?_, by simp, ?_⟩
    · exact FieldValue.text?_of_ofBytes? accepted
    · rw [List.map_singleton, FieldValue.ofBytes?_eq_some accepted]
  · intro done
    obtain ⟨kept, accepted, values⟩ := values_add done
    rw [get?_eq, get?_eq, contains_iff, ← Bool.not_eq_true, contains_iff, sameValues, sameValues, values]
    refine ⟨?_, ?_, ?_⟩
    · intro absent
      rw [ne_eq, Classical.not_not] at absent
      rw [absent]
      exact FieldValue.text?_of_ofBytes? accepted
    · intro present
      obtain ⟨first, rest, shape⟩ := List.exists_cons_of_ne_nil present
      rw [shape]
      rfl
    · rw [List.map_append, List.map_singleton, FieldValue.ofBytes?_eq_some accepted]

instance : DecidableEq (Except FieldError Unit)
  | .ok (), .ok () => .isTrue rfl
  | .error first, .error second => decidable_of_iff (first = second) (by simp)
  | .ok (), .error _ => .isFalse (by simp)
  | .error _, .ok () => .isFalse (by simp)

theorem get?_of_ok_respelled :
    let first := (unbound.bindExclusive .empty).add "x-A" "p"
    let view := (first.2.add "X-a" "q").2
    Bytes.sameIgnoringCase (Utf8.encode "X-A") (Utf8.encode "x-a") = true ∧
      (view.set "x-a" "r, s").1 = .ok () ∧ (view.add "x-a" "r, s").1 = .ok () ∧ view.contains "X-A" = true ∧
      (view.set "x-a" "r, s").2.get? "X-A" = some "r, s" ∧ (view.add "x-a" "r, s").2.get? "X-A" = view.get? "X-A" ∧
      ((view.set "x-a" "r, s").2.values "X-A").map FieldValue.bytes = [Utf8.encode "r, s"] := by
  intro first view
  have same : Bytes.sameIgnoringCase (Utf8.encode "X-A") (Utf8.encode "x-a") = true := by decide +kernel
  have set : (view.set "x-a" "r, s").1 = .ok () := by decide +kernel
  have added : (view.add "x-a" "r, s").1 = .ok () := by decide +kernel
  have known : view.contains "X-A" = true := by decide +kernel
  have ascii : Utf8.IsAscii "r, s" := by decide +kernel
  obtain ⟨ofSet, ofAdd⟩ := get?_of_ok view "x-a" "r, s" "X-A" same
  obtain ⟨text, _, values⟩ := ofSet set
  obtain ⟨_, kept, _⟩ := ofAdd added
  rw [if_pos ascii] at text
  exact ⟨same, set, added, known, text, kept known, values⟩

/-- A value beyond ASCII is valid UTF-8, and it is taken; but no text is given back for it. -/
theorem get?_beyond_ascii :
    let view := unbound.bindExclusive .empty
    (view.set "x" "é").1 = .ok () ∧ (view.set "x" "é").2.contains "x" = true ∧
      Utf8.text? (Utf8.encode "é") = some "é" ∧ (view.set "x" "é").2.get? "x" = none ∧
      view.contains "x" = false ∧ (view.add "x" "é").1 = .ok () ∧ (view.add "x" "é").2.get? "x" = none := by
  decide +kernel

end FieldsView

end HttpService
