import HttpService.Proofs.Grammar
import HttpService.Proofs.Values

/-! What the connection fields of a head decide: whether the connection is kept. -/

namespace HttpService

namespace Persistence

def names (word value : Bytes) : Bool := (tokens value).any fun token => Bytes.sameIgnoringCase token word

def closes (value : Bytes) : Bool := names (Ascii.bytes "close") value
def stays (value : Bytes) : Bool := names (Ascii.bytes "keep-alive") value

theorem applyTokens_eq (keepAlive : Persistence) (tokens : List Bytes) :
    applyTokens keepAlive tokens =
      (!(tokens.any fun token => Bytes.sameIgnoringCase token (Ascii.bytes "close")) &&
        ((tokens.any fun token => Bytes.sameIgnoringCase token (Ascii.bytes "keep-alive")) || keepAlive)) := by
  have apart : Bytes.lower (Ascii.bytes "keep-alive") ≠ Bytes.lower (Ascii.bytes "close") := by decide +kernel
  induction tokens generalizing keepAlive with
  | nil => simp [applyTokens]
  | cons token rest ih =>
      simp only [applyTokens, List.any_cons]
      by_cases stays : Bytes.sameIgnoringCase token (Ascii.bytes "keep-alive") = true
      · have opened : Bytes.sameIgnoringCase token (Ascii.bytes "close") = false := by
          simp only [Bytes.sameIgnoringCase, beq_iff_eq, beq_eq_false_iff_ne] at stays ⊢
          rw [stays]
          exact apart
        simp [stays, opened, ih]
      · simp only [stays, Bool.false_eq_true, ↓reduceIte, Bool.false_or]
        by_cases closes : Bytes.sameIgnoringCase token (Ascii.bytes "close") = true
        · simp [closes]
        · simp [closes, ih]

theorem apply_eq (keepAlive : Persistence) (value : Bytes) :
    apply keepAlive value = (!closes value && (stays value || keepAlive)) := applyTokens_eq keepAlive (tokens value)

/-- What the fields decide together, whatever their order, if a `close` in any of them wins. -/
def closeWins (keepAlive : Persistence) (values : List Bytes) : Persistence :=
  !values.any closes && (values.any stays || keepAlive)

/-- Behind a field that closes there is one that stays, and no other that closes behind that one. -/
def Revived (values : List Bytes) : Prop :=
  ∃ before value after, values = before ++ value :: after ∧ before.any closes = true ∧ stays value = true ∧
    (value :: after).any closes = false

theorem closeWins_of_revived {values : List Bytes} (revived : Revived values) (keepAlive : Persistence) :
    closeWins keepAlive values = false := by
  obtain ⟨before, value, after, rfl, closed, _, _⟩ := revived
  simp [closeWins, closed]

theorem foldl_apply_of_open {values : List Bytes} (opened : values.any closes = false) (keepAlive : Persistence) :
    values.foldl apply keepAlive = (values.any stays || keepAlive) := by
  induction values generalizing keepAlive with
  | nil => rfl
  | cons value later ih =>
      rw [List.any_cons, Bool.or_eq_false_iff] at opened
      rw [List.foldl_cons, ih opened.2, apply_eq, opened.1, Bool.not_false, Bool.true_and, List.any_cons,
        Bool.or_left_comm, Bool.or_assoc]

theorem foldl_apply_of_revived {values : List Bytes} (revived : Revived values) (keepAlive : Persistence) :
    values.foldl apply keepAlive = true := by
  obtain ⟨before, value, after, rfl, _, stays, opened⟩ := revived
  rw [List.foldl_append, foldl_apply_of_open opened, List.any_cons, stays]
  rfl

theorem foldl_apply_of_not_revived {values : List Bytes} (unrevived : ¬Revived values) (keepAlive : Persistence) :
    values.foldl apply keepAlive = closeWins keepAlive values := by
  induction values generalizing keepAlive with
  | nil => rfl
  | cons value later ih =>
      have laterUnrevived : ¬Revived later := by
        rintro ⟨before, other, after, rfl, closed, stays, opened⟩
        exact unrevived ⟨value :: before, other, after, rfl, by simp [closed], stays, opened⟩
      rw [List.foldl_cons, ih laterUnrevived, apply_eq]
      by_cases closed : closes value = true
      · have spent : later.any closes = true ∨ later.any stays = false := by
          cases opened : later.any closes with
          | true => exact .inl rfl
          | false =>
              right
              rw [List.any_eq_false]
              intro other member stays
              obtain ⟨between, after, rfl⟩ := List.append_of_mem member
              rw [List.any_append, Bool.or_eq_false_iff] at opened
              exact unrevived ⟨value :: between, other, after, rfl, by simp [closed], stays, opened.2⟩
        rcases spent with again | none
        · simp [closeWins, closed, again]
        · simp [closeWins, closed, none]
      · rw [Bool.not_eq_true] at closed
        simp only [closeWins, List.any_cons, closed, Bool.not_false, Bool.true_and, Bool.false_or]
        rw [Bool.or_left_comm, Bool.or_assoc]

theorem revived_iff {values : List Bytes} :
    Revived values ↔ values.any closes = true ∧ values.foldl apply false = true := by
  constructor
  · intro revived
    refine ⟨?_, foldl_apply_of_revived revived false⟩
    obtain ⟨before, value, after, rfl, closed, _, _⟩ := revived
    simp [closed]
  · rintro ⟨closed, kept⟩
    refine Classical.byContradiction fun unrevived => ?_
    rw [foldl_apply_of_not_revived unrevived, closeWins, closed] at kept
    simp at kept

instance (values : List Bytes) : Decidable (Revived values) := decidable_of_iff _ revived_iff.symm

end Persistence

namespace Outline

def values (outline : Outline) (name : FieldName) : List FieldValue :=
  (outline.fields.filter fun field => field.name == name).map FieldText.value

theorem values_head (outline : Outline) (name : FieldName) : outline.head.fields.values name = outline.values name := by
  simp only [head, Fields.values_ofList, values, List.filter_map, List.map_map]
  rfl

theorem keepAlive_eq (outline : Outline) :
    outline.keepAlive =
      ((outline.values .connection).map FieldValue.bytes).foldl Persistence.apply (outline.version = .http11) := by
  simp only [keepAlive, values, List.foldl_map]

end Outline

namespace Head

/-- The connection lines of a head that is read decide together whether the connection stays open. A `close` in any of
them wins over what stands before it and over what stands in the same line, but not over a later line that says
`keep-alive`. -/
theorem keepAlive_of_read [FieldHash] {limits : RequestLimits} {buffer : Bytes} {stop : Nat} {head : Head}
    (accepted : read limits buffer stop = .ok head) :
    ∃ (outline : Outline) (behind : Bytes), buffer.take stop = outline.text ++ behind ∧
      (∀ field ∈ outline.fields, field.Within limits) ∧
      head.fields.values .connection = outline.values .connection ∧ head.version = outline.version ∧
      let values := (outline.values .connection).map FieldValue.bytes
      (¬Persistence.Revived values →
          head.keepAlive = Persistence.closeWins (decide (head.version = .http11)) values) ∧
        (Persistence.Revived values →
          head.keepAlive = true ∧ Persistence.closeWins (decide (head.version = .http11)) values = false) := by
  obtain ⟨outline, behind, text, within, _, rfl, _⟩ := exists_outline_of_read (read_take accepted)
  refine ⟨outline, behind, text, within, outline.values_head .connection, rfl, ?_, ?_⟩
  · intro unrevived
    exact outline.keepAlive_eq.trans (Persistence.foldl_apply_of_not_revived unrevived _)
  · intro revived
    constructor
    · exact outline.keepAlive_eq.trans (Persistence.foldl_apply_of_revived revived _)
    · exact Persistence.closeWins_of_revived revived _

theorem keepAlive_of_read_two_lines :
    let content := Ascii.bytes
      "GET / HTTP/1.0\r\nConnection: Keep-Alive,\t CLOSE, keep-alive\r\nCONNECTION: x, closed, upgrade\r\n\r\n"
    ∃ head, read {} content content.length = .ok head ∧
      (head.fields.values .connection).map FieldValue.bytes =
        [Ascii.bytes "Keep-Alive,\t CLOSE, keep-alive", Ascii.bytes "x, closed, upgrade"] ∧
      head.keepAlive = false := by
  intro content
  let lines := [Ascii.bytes "Keep-Alive,\t CLOSE, keep-alive", Ascii.bytes "x, closed, upgrade"]
  have told : (read {} content content.length).toOption.map
      (fun head => ((head.fields.values .connection).map FieldValue.bytes, decide (head.version = .http11))) =
        some (lines, false) := by decide +kernel
  have unrevived : ¬Persistence.Revived lines := by decide +kernel
  have ruled : Persistence.closeWins false lines = false := by decide +kernel
  cases accepted : read {} content content.length with
  | error failure =>
      rw [accepted] at told
      simp [Except.toOption] at told
  | ok head =>
      rw [accepted] at told
      simp only [Except.toOption, Option.map_some, Option.some.injEq, Prod.mk.injEq] at told
      obtain ⟨values, version⟩ := told
      obtain ⟨outline, behind, _, _, same, _, closed, _⟩ := keepAlive_of_read accepted
      rw [← same, values, version, ruled] at closed
      exact ⟨head, rfl, values, closed unrevived⟩

/-- A `close` does not win over a line behind it: of the same two lines the second decides. -/
theorem keepAlive_revived :
    let answer (content : Bytes) := (read {} content content.length).toOption.map fun head =>
      ((head.fields.values .connection).map FieldValue.bytes, head.keepAlive)
    answer (Ascii.bytes "GET / HTTP/1.1\r\nConnection: close\r\nConnection: keep-alive\r\n\r\n") =
        some ([Ascii.bytes "close", Ascii.bytes "keep-alive"], true) ∧
      answer (Ascii.bytes "GET / HTTP/1.1\r\nConnection: keep-alive\r\nConnection: close\r\n\r\n") =
        some ([Ascii.bytes "keep-alive", Ascii.bytes "close"], false) ∧
      Persistence.closeWins true [Ascii.bytes "close", Ascii.bytes "keep-alive"] = false := by
  decide +kernel

end Head

end HttpService
