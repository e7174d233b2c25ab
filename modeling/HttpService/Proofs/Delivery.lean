import HttpService.Proofs.Lines

/-! Reading through the buffer is reading the bytes that are still to come: how a stream cuts them into pieces,
and where it interrupts a read, makes no difference. -/

namespace HttpService

def Arrival.IsSteady : Arrival → Prop
  | piece content => content ≠ []
  | failure error => error.kind = .interrupted

instance : DecidablePred Arrival.IsSteady
  | .piece content => inferInstanceAs (Decidable (content ≠ []))
  | .failure error => inferInstanceAs (Decidable (error.kind = .interrupted))

namespace Source

/-- A stream that delivers all its bytes and then ends. -/
def Steady (source : Source) : Prop := ∀ arrival ∈ source, arrival.IsSteady

instance (source : Source) : Decidable source.Steady :=
  inferInstanceAs (Decidable (∀ arrival ∈ source, arrival.IsSteady))

theorem Steady.tail {arrival : Arrival} {rest : Source} (steady : Steady (arrival :: rest)) : Steady rest :=
  fun later member => steady later (List.mem_cons_of_mem arrival member)

theorem Steady.cut {content : Bytes} {rest : Source} (steady : Steady (.piece content :: rest)) {count : Nat}
    (left : count < content.length) : Steady (.piece (content.drop count) :: rest) := by
  intro arrival member
  rcases List.mem_cons.mp member with same | later
  · subst same
    simp only [Arrival.IsSteady, ne_eq, List.drop_eq_nil_iff]
    omega
  · exact steady.tail arrival later

theorem readExactly_of_le {source : Source} (steady : source.Steady) (wanted : Nat)
    (enough : wanted ≤ source.bytes.length) :
    ∃ rest, source.readExactly wanted = (.ok (source.bytes.take wanted), rest) ∧
      rest.bytes = source.bytes.drop wanted ∧ rest.Steady := by
  induction source generalizing wanted with
  | nil =>
      have nothing : wanted = 0 := by simpa [bytes] using enough
      subst nothing
      exact ⟨[], by simp [readExactly, bytes], by simp [bytes], steady⟩
  | cons arrival rest ih =>
      cases wanted with
      | zero => exact ⟨arrival :: rest, by simp [readExactly], by simp, steady⟩
      | succ wanted =>
          have here := steady arrival (by simp)
          cases arrival with
          | failure error =>
              simp only [Arrival.IsSteady] at here
              simpa [readExactly, here, bytes] using ih steady.tail (wanted + 1) (by simpa [bytes] using enough)
          | piece content =>
              simp only [Arrival.IsSteady] at here
              simp only [bytes, List.length_append] at enough
              by_cases fits : content.length ≤ wanted + 1
              · obtain ⟨after, read, left, still⟩ :=
                  ih steady.tail (wanted + 1 - content.length) (by omega)
                refine ⟨after, ?_, ?_, still⟩
                · simp [readExactly, here, fits, read, bytes, List.take_append,
                    List.take_of_length_le fits]
                · simp [left, bytes, List.drop_append, List.drop_eq_nil_of_le fits]
              · refine ⟨.piece (content.drop (wanted + 1)) :: rest, ?_, ?_, steady.cut (by omega)⟩
                · simp [readExactly, here, fits, bytes, List.take_append_of_le_length (Nat.le_of_not_le fits)]
                · simp [bytes, List.drop_append_of_le_length (Nat.le_of_not_le fits)]

theorem readExactly_of_lt {source : Source} (steady : source.Steady) (wanted : Nat)
    (short : source.bytes.length < wanted) :
    ∃ rest, source.readExactly wanted = (.error .bodyCutShort, rest) := by
  induction source generalizing wanted with
  | nil =>
      cases wanted with
      | zero => simp at short
      | succ wanted => exact ⟨[], rfl⟩
  | cons arrival rest ih =>
      cases wanted with
      | zero => simp at short
      | succ wanted =>
          have here := steady arrival (by simp)
          cases arrival with
          | failure error =>
              simp only [Arrival.IsSteady] at here
              simpa [readExactly, here] using ih steady.tail (wanted + 1) (by simpa [bytes] using short)
          | piece content =>
              simp only [Arrival.IsSteady] at here
              simp only [bytes, List.length_append] at short
              have fits : content.length ≤ wanted + 1 := by omega
              obtain ⟨after, read⟩ := ih steady.tail (wanted + 1 - content.length) (by omega)
              exact ⟨after, by simp [readExactly, here, fits, read]⟩

end Source

namespace HeadBuffer

/-- Where the first head of the bytes to come ends, if a buffer with so much room can hold it. -/
def headOf (room : Nat) (pending : Bytes) : Except ReadFailure (Option Nat) :=
  match headEnd? (pending.take room) with
  | some stop => .ok (some stop)
  | none =>
    if room ≤ pending.length then .error (.refused .headTooLarge)
    else if pending.isEmpty then .ok none
    else .error (.io .headCutShort)

def bodyOf (pending : Bytes) (start length : Nat) : Except ReadFailure Bytes :=
  match Allocation.reserve length 1 with
  | .error message => .error (.panicked message)
  | .ok () =>
    if start + length ≤ pending.length then .ok ((pending.drop start).take length) else .error (.io .bodyCutShort)

structure Reading.Leaves {α : Type} (reading : Reading α) (size : Nat) (left : Bytes) : Prop where
  room : reading.buffer.room = size
  within : reading.buffer.content.length ≤ size
  bytes : reading.buffer.content ++ reading.source.bytes = left
  steady : reading.source.Steady

theorem verdict?_eq_some {buffer : HeadBuffer} (within : buffer.content.length ≤ buffer.room)
    {verdict : Except ReadFailure (Option Nat)} (found : buffer.verdict? = some verdict) (more : Bytes) :
    verdict = headOf buffer.room (buffer.content ++ more) := by
  have begins : (buffer.content ++ more).take buffer.room =
      buffer.content ++ more.take (buffer.room - buffer.content.length) := by
    rw [List.take_append, List.take_of_length_le within]
  simp only [verdict?] at found
  cases ended : headEnd? buffer.content with
  | some stop =>
      simp only [ended, Option.some.injEq] at found
      simp only [headOf, begins, headEnd?_append ended, ← found]
  | none =>
      have notPast : ¬buffer.room < buffer.content.length := by omega
      simp only [ended, notPast, ↓reduceIte] at found
      split at found
      · rename_i full
        simp only [Option.some.injEq] at found
        simp only [headOf, begins, full, Nat.sub_self, List.take_zero, List.append_nil, ended,
          List.length_append, Nat.le_add_right, ↓reduceIte, ← found]
      · simp at found

theorem verdict?_eq_none {buffer : HeadBuffer} (within : buffer.content.length ≤ buffer.room)
    (undecided : buffer.verdict? = none) :
    headEnd? buffer.content = none ∧ buffer.content.length < buffer.room := by
  simp only [verdict?] at undecided
  split at undecided
  · simp at undecided
  · rename_i ended
    split at undecided
    · simp at undecided
    · exact ⟨ended, by omega⟩

theorem atEnd_eq {buffer : HeadBuffer} (within : buffer.content.length ≤ buffer.room)
    (undecided : buffer.verdict? = none) : buffer.atEnd = headOf buffer.room buffer.content := by
  obtain ⟨ended, free⟩ := verdict?_eq_none within undecided
  have notFull : ¬buffer.room ≤ buffer.content.length := by omega
  simp only [headOf, List.take_of_length_le within, ended, notFull, ↓reduceIte, atEnd]

theorem verdict?_of_full {buffer : HeadBuffer} (full : buffer.content.length = buffer.room) :
    ∃ verdict, buffer.verdict? = some verdict := by
  cases said : buffer.verdict? with
  | some verdict => exact ⟨verdict, rfl⟩
  | none =>
      have free := (verdict?_eq_none (Nat.le_of_eq full) said).2
      omega

theorem readHead_of_verdict {buffer : HeadBuffer} {verdict : Except ReadFailure (Option Nat)}
    (said : buffer.verdict? = some verdict) (source : Source) :
    buffer.readHead source = ⟨verdict, buffer, source⟩ := by
  rw [readHead.eq_def, said]

theorem readHead_spec {source : Source} (steady : source.Steady) {buffer : HeadBuffer}
    (within : buffer.content.length ≤ buffer.room) :
    (buffer.readHead source).outcome = headOf buffer.room (buffer.content ++ source.bytes) ∧
      (buffer.readHead source).Leaves buffer.room (buffer.content ++ source.bytes) := by
  induction source generalizing buffer with
  | nil =>
      cases said : buffer.verdict? with
      | some verdict =>
          rw [readHead_of_verdict said]
          exact ⟨verdict?_eq_some within said _, rfl, within, rfl, steady⟩
      | none =>
          simp only [readHead, said, Source.bytes, List.append_nil]
          exact ⟨atEnd_eq within said, rfl, within, by simp [Source.bytes], steady⟩
  | cons arrival rest ih =>
      cases said : buffer.verdict? with
      | some verdict =>
          rw [readHead_of_verdict said]
          exact ⟨verdict?_eq_some within said _, rfl, within, rfl, steady⟩
      | none =>
          have here := steady arrival (by simp)
          cases arrival with
          | failure error =>
              simp only [Arrival.IsSteady] at here
              simpa only [readHead, said, here, ↓reduceIte, Source.bytes] using ih steady.tail within
          | piece content =>
              simp only [Arrival.IsSteady] at here
              have free := (verdict?_eq_none within said).2
              simp only [readHead, said, List.isEmpty_iff, here, ↓reduceIte, Source.bytes]
              by_cases fits : content.length ≤ buffer.room - buffer.content.length
              · simp only [fits, ↓reduceIte]
                have later := @ih steady.tail { buffer with content := buffer.content ++ content }
                  (by simp only [List.length_append]; omega)
                simpa only [List.append_assoc] using later
              · simp only [fits, ↓reduceIte]
                generalize filledEq : ({ buffer with
                  content := buffer.content ++ content.take (buffer.room - buffer.content.length) } :
                    HeadBuffer) = filled
                have room : filled.room = buffer.room := by rw [← filledEq]
                have full : filled.content.length = filled.room := by
                  simp only [← filledEq, List.length_append, List.length_take]
                  omega
                have whole : filled.content ++
                    (content.drop (buffer.room - buffer.content.length) ++ Source.bytes rest) =
                      buffer.content ++ (content ++ Source.bytes rest) := by
                  rw [← filledEq, List.append_assoc, ← List.append_assoc (content.take _),
                    List.take_append_drop]
                obtain ⟨verdict, verdictEq⟩ := verdict?_of_full full
                have outcome := verdict?_eq_some (Nat.le_of_eq full) verdictEq
                  (content.drop (buffer.room - buffer.content.length) ++ Source.bytes rest)
                refine ⟨?_, room, Nat.le_of_eq (full.trans room), whole, steady.cut (by omega)⟩
                rw [verdictEq, Option.getD_some, outcome, whole, room]

theorem headEnd?_of_verdict {buffer : HeadBuffer} {stop : Nat} (said : buffer.verdict? = some (.ok (some stop))) :
    headEnd? buffer.content = some stop := by
  simp only [verdict?] at said
  split at said
  · rename_i ended
    simpa [ended] using said
  · split at said
    · simp at said
    · split at said <;> simp at said

theorem atEnd_ne (buffer : HeadBuffer) (stop : Nat) : buffer.atEnd ≠ .ok (some stop) := by
  simp only [atEnd]
  split <;> simp

theorem atFailure_ne (buffer : HeadBuffer) (error : IoError) (stop : Nat) :
    buffer.atFailure error ≠ .ok (some stop) := by
  simp only [atFailure]
  split <;> simp

theorem headEnd?_of_readHead {source : Source} {buffer : HeadBuffer} {stop : Nat}
    (found : (buffer.readHead source).outcome = .ok (some stop)) :
    headEnd? (buffer.readHead source).buffer.content = some stop := by
  induction source generalizing buffer with
  | nil =>
      cases said : buffer.verdict? with
      | some verdict =>
          rw [readHead_of_verdict said] at found ⊢
          exact headEnd?_of_verdict (said.trans (congrArg some found))
      | none =>
          simp only [readHead, said] at found
          exact absurd found (atEnd_ne buffer stop)
  | cons arrival rest ih =>
      cases said : buffer.verdict? with
      | some verdict =>
          rw [readHead_of_verdict said] at found ⊢
          exact headEnd?_of_verdict (said.trans (congrArg some found))
      | none =>
          cases arrival with
          | failure error =>
              by_cases again : error.kind = .interrupted
              · simp only [readHead, said, again, ↓reduceIte] at found ⊢
                exact ih found
              · simp only [readHead, said, again, ↓reduceIte] at found
                exact absurd found (atFailure_ne buffer error stop)
          | piece content =>
              simp only [readHead, said] at found ⊢
              split at found
              · exact absurd found (atEnd_ne buffer stop)
              · rename_i nonempty
                simp only [nonempty, Bool.false_eq_true, ↓reduceIte]
                split at found
                · rename_i fits
                  simp only [fits, ↓reduceIte]
                  exact ih found
                · rename_i large
                  simp only [large, ↓reduceIte]
                  cases filledSaid : ({ buffer with
                    content := buffer.content ++ content.take (buffer.room - buffer.content.length) } :
                      HeadBuffer).verdict? with
                  | some verdict =>
                      simp only [filledSaid, Option.getD_some] at found
                      exact headEnd?_of_verdict (filledSaid.trans (congrArg some found))
                  | none =>
                      simp only [filledSaid, Option.getD_none] at found
                      exact absurd found (atEnd_ne _ stop)

theorem readBody_spec {source : Source} (steady : source.Steady) {buffer : HeadBuffer} {start length : Nat}
    (within : buffer.content.length ≤ buffer.room) (begins : start ≤ buffer.content.length) :
    (buffer.readBody source start length).outcome = bodyOf (buffer.content ++ source.bytes) start length ∧
      (∀ body, (buffer.readBody source start length).outcome = .ok body →
        (buffer.readBody source start length).Leaves buffer.room
          ((buffer.content ++ source.bytes).drop (start + length))) := by
  have inside : ¬buffer.content.length < start := by omega
  simp only [readBody, inside, ↓reduceIte, bodyOf]
  cases Allocation.reserve length 1 with
  | error message => simp
  | ok granted =>
      generalize heldEq : (buffer.content.drop start).take length = held
      have heldLength : held.length = min length (buffer.content.length - start) := by simp [← heldEq]
      have total : (buffer.content ++ source.bytes).length = buffer.content.length + source.bytes.length := by simp
      have fromStart : (buffer.content ++ source.bytes).drop start = buffer.content.drop start ++ source.bytes :=
        List.drop_append_of_le_length begins
      by_cases enough : start + length ≤ (buffer.content ++ source.bytes).length
      · obtain ⟨rest, read, left, still⟩ := Source.readExactly_of_le steady (length - held.length) (by omega)
        have body : ((buffer.content ++ source.bytes).drop start).take length =
            held ++ source.bytes.take (length - held.length) := by
          rw [fromStart, List.take_append, heldEq, heldLength, List.length_drop]
          congr 2
          omega
        simp only [read, enough, ↓reduceIte, body, true_and]
        intro _ _
        refine ⟨rfl, ?_, ?_, still⟩
        · exact Nat.le_trans (by simp [consume]) within
        · simp only [consume, left, List.drop_append]
          by_cases buffered : length ≤ buffer.content.length - start
          · have all : held.length = length := by omega
            have none : start + length - buffer.content.length = 0 := by omega
            simp only [all, Nat.sub_self, none]
          · have part : held.length = buffer.content.length - start := by omega
            have later : length - held.length = start + length - buffer.content.length := by omega
            have spent : buffer.content.drop (start + held.length) = [] := List.drop_eq_nil_of_le (by omega)
            have past : buffer.content.drop (start + length) = [] := List.drop_eq_nil_of_le (by omega)
            rw [later, spent, past]
      · obtain ⟨rest, read⟩ := Source.readExactly_of_lt steady (length - held.length) (by omega)
        simp only [read, enough, ↓reduceIte, true_and]
        intro body impossible
        simp at impossible

end HeadBuffer

end HttpService
