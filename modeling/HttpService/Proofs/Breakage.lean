import Mathlib.Data.List.TakeWhile
import HttpService.Proofs.Conversation

/-! Streams that break. Up to the break nothing tells them from streams that do not: what arrived before is read as
it would be, and what no longer fits is cut off the output. -/

namespace HttpService

namespace Outlet

/-- A stream that takes `room` more bytes, at least one of them in every write, and fails every write after that. -/
structure Breaks (outlet : Outlet) (room : Nat) (error : IoError) : Prop where
  takes : ∀ taken, taken < outlet.taken.length + room →
    ∃ more, outlet.policy taken = .ok (more + 1) ∧ taken + more < outlet.taken.length + room
  fails : ∀ taken, outlet.taken.length + room ≤ taken → outlet.policy taken = .error error
  lasting : error.kind ≠ .interrupted

theorem breaks_limited {most total : Nat} (positive : 0 < most) {error : IoError} (lasting : error.kind ≠ .interrupted)
    (flushFailure : Option IoError) : (limited (some most) (some (total, error)) flushFailure).Breaks total error := by
  refine ⟨?_, ?_, lasting⟩
  · intro taken left
    simp only [limited, List.length_nil, Nat.zero_add] at left ⊢
    refine ⟨min most (total - taken) - 1, ?_, by omega⟩
    rw [if_neg (by omega), Option.getD_some]
    congr 1
    omega
  · intro taken spent
    simp only [limited, List.length_nil, Nat.zero_add] at spent ⊢
    rw [if_pos spent]

section

variable {policy : Nat → Except IoError Nat} {stop : Nat}
  (takes : ∀ taken, taken < stop → ∃ more, policy taken = .ok (more + 1) ∧ taken + more < stop)

include takes

theorem accept_of_le (taken left : Nat) (fits : taken + left ≤ stop) :
    accept policy taken left = (taken + left, .ok ()) := by
  induction left using Nat.strongRecOn generalizing taken with
  | ind left ih =>
      rw [accept]
      by_cases done : left = 0
      · simp [done]
      · obtain ⟨more, allowed, _⟩ := takes taken (by omega)
        simp only [done, ↓reduceIte, allowed]
        rw [ih (left - (more + 1)) (by omega) _ (by omega)]
        congr 1
        omega

theorem accept_of_lt {error : IoError} (fails : policy stop = .error error) (taken left : Nat)
    (before : taken ≤ stop) (exceeds : stop < taken + left) : accept policy taken left = (stop, .error error) := by
  induction left using Nat.strongRecOn generalizing taken with
  | ind left ih =>
      have some : left ≠ 0 := by omega
      rw [accept]
      rcases Nat.lt_or_eq_of_le before with early | rfl
      · obtain ⟨more, allowed, below⟩ := takes taken early
        have whole : min (more + 1) left = more + 1 := by omega
        simp only [some, ↓reduceIte, allowed, whole]
        exact ih (left - (more + 1)) (by omega) _ (by omega) (by omega)
      · simp only [some, ↓reduceIte, fails]

end

variable {outlet : Outlet} {room : Nat} {error : IoError}

theorem Breaks.extend (breaks : outlet.Breaks room error) {content : Bytes} (fits : content.length ≤ room) :
    (outlet.extend content).Breaks (room - content.length) error := by
  have stop : (outlet.extend content).taken.length + (room - content.length) = outlet.taken.length + room := by
    simp only [Outlet.extend, List.length_append]
    omega
  obtain ⟨takes, fails, lasting⟩ := breaks
  constructor
  · rw [stop]
    exact takes
  · rw [stop]
    exact fails
  · exact lasting

theorem Breaks.writeAll_of_le (breaks : outlet.Breaks room error) {content : Bytes} (fits : content.length ≤ room) :
    outlet.writeAll content = (.ok (), outlet.extend content) := by
  have accepted := accept_of_le breaks.takes outlet.taken.length content.length (by omega)
  simp [writeAll, accepted, Outlet.extend]

theorem Breaks.writeAll_of_lt (breaks : outlet.Breaks room error) {content : Bytes} (exceeds : room < content.length) :
    outlet.writeAll content = (.error error, outlet.extend (content.take room)) := by
  have accepted := accept_of_lt breaks.takes (breaks.fails _ (Nat.le_refl _)) outlet.taken.length content.length
    (by omega) (by omega)
  simp [writeAll, accepted, Outlet.extend]

end Outlet

namespace ResponseBuffer

variable {outlet : Outlet} {room : Nat} {error : IoError}

theorem finish_of_le (breaks : outlet.Breaks room error) (buffer : ResponseBuffer) (keepAlive : Bool)
    (fits : (buffer.closeHead keepAlive).2.content.length ≤ room) :
    buffer.finish outlet keepAlive =
      ⟨outlet.flush.1.map fun _ => (buffer.closeHead keepAlive).1, (buffer.closeHead keepAlive).2,
        (outlet.extend (buffer.closeHead keepAlive).2.content).flush.2⟩ := by
  apply finish_of_taken
  · apply breaks.writeAll_of_le
    simp only [content, List.length_append] at fits
    omega
  · intro whole
    simp only [content, List.length_append, whole, Bool.false_eq_true, ↓reduceIte] at fits
    apply (breaks.extend _).writeAll_of_le
    · omega
    · omega

theorem finish_of_lt (breaks : outlet.Breaks room error) (buffer : ResponseBuffer) (keepAlive : Bool)
    (exceeds : room < (buffer.closeHead keepAlive).2.content.length) :
    buffer.finish outlet keepAlive =
      ⟨.error error, (buffer.closeHead keepAlive).2,
        outlet.extend ((buffer.closeHead keepAlive).2.content.take room)⟩ := by
  generalize closedEq : buffer.closeHead keepAlive = closed at exceeds
  obtain ⟨kept, closed⟩ := closed
  dsimp only at exceeds
  rcases Nat.lt_or_ge room closed.head.length with inHead | inBody
  · have cut : closed.content.take room = closed.head.take room := by
      rw [content, List.take_append_of_le_length (Nat.le_of_lt inHead)]
    simp only [finish, closedEq, breaks.writeAll_of_lt inHead, cut]
  · cases headOnly : closed.headOnly with
    | true =>
        simp only [content, headOnly, ↓reduceIte, List.append_nil] at exceeds
        omega
    | false =>
        have whole : closed.content = closed.head ++ closed.body := by simp [content, headOnly]
        rw [whole, List.length_append] at exceeds
        have cut : closed.content.take room = closed.head ++ closed.body.take (room - closed.head.length) := by
          rw [whole, List.take_append, List.take_of_length_le inBody]
        have bodyOver : room - closed.head.length < closed.body.length := by omega
        have written := (breaks.extend inBody).writeAll_of_lt bodyOver
        simp only [finish, closedEq, breaks.writeAll_of_le inBody, headOnly, Bool.false_eq_true, ↓reduceIte, written,
          cut, Outlet.extend_extend]

end ResponseBuffer

namespace Source

/-- What arrives before the stream ends or fails; an interruption is no failure. -/
def untilBreak (source : Source) : Source := source.takeWhile fun arrival => decide arrival.IsSteady

theorem steady_untilBreak (source : Source) : source.untilBreak.Steady := by
  intro arrival member
  have kept := List.mem_takeWhile_imp (p := fun arrival : Arrival => decide arrival.IsSteady) member
  exact of_decide_eq_true kept

theorem untilBreak_of_steady {arrival : Arrival} (steady : arrival.IsSteady) (rest : Source) :
    untilBreak (arrival :: rest) = arrival :: rest.untilBreak := by
  simp [untilBreak, steady]

theorem untilBreak_of_not_steady {arrival : Arrival} (broken : ¬arrival.IsSteady) (rest : Source) :
    untilBreak (arrival :: rest) = [] := by
  simp [untilBreak, broken]

theorem readExactly_untilBreak (source : Source) (wanted : Nat) :
    (∃ content rest, source.readExactly wanted = (.ok content, rest) ∧
        source.untilBreak.readExactly wanted = (.ok content, rest.untilBreak)) ∨
      ∃ error rest earlier spent, source.readExactly wanted = (.error error, rest) ∧
        source.untilBreak.readExactly wanted = (.error earlier, spent) := by
  induction source generalizing wanted with
  | nil =>
      cases wanted with
      | zero => exact .inl ⟨[], [], rfl, rfl⟩
      | succ wanted => exact .inr ⟨_, _, _, _, rfl, rfl⟩
  | cons arrival rest ih =>
      cases wanted with
      | zero =>
          refine .inl ⟨[], arrival :: rest, by simp [readExactly], by simp [readExactly]⟩
      | succ wanted =>
          by_cases steady : arrival.IsSteady
          · rw [untilBreak_of_steady steady]
            cases arrival with
            | failure error =>
                simp only [Arrival.IsSteady] at steady
                simp only [readExactly, steady, ↓reduceIte]
                exact ih (wanted + 1)
            | piece content =>
                have bytes : content.isEmpty = false := by simpa [Arrival.IsSteady] using steady
                by_cases fits : content.length ≤ wanted + 1
                · rcases ih (wanted + 1 - content.length) with
                    ⟨later, left, read, readEarly⟩ | ⟨error, left, earlier, spent, read, readEarly⟩
                  · simp only [readExactly, bytes, Bool.false_eq_true, fits, ↓reduceIte, read, readEarly]
                    exact .inl ⟨_, _, rfl, rfl⟩
                  · simp only [readExactly, bytes, Bool.false_eq_true, fits, ↓reduceIte, read, readEarly]
                    exact .inr ⟨_, _, _, _, rfl, rfl⟩
                · have more : Arrival.IsSteady (.piece (content.drop (wanted + 1))) := by
                    simp only [Arrival.IsSteady, ne_eq, List.drop_eq_nil_iff]
                    omega
                  simp only [readExactly, bytes, Bool.false_eq_true, fits, ↓reduceIte]
                  exact .inl ⟨_, _, rfl, by rw [untilBreak_of_steady more]⟩
          · rw [untilBreak_of_not_steady steady]
            cases arrival with
            | failure error =>
                simp only [Arrival.IsSteady] at steady
                simp only [readExactly, steady, ↓reduceIte]
                exact .inr ⟨_, _, _, _, rfl, rfl⟩
            | piece content =>
                have bytes : content.isEmpty = true := by simpa [Arrival.IsSteady] using steady
                simp only [readExactly, bytes, ↓reduceIte]
                exact .inr ⟨_, _, _, _, rfl, rfl⟩

end Source

def Stop.IsDry : Stop → Prop
  | .closed => True
  | .failed _ => True
  | _ => False

namespace HeadBuffer

theorem isDry_atEnd (buffer : HeadBuffer) :
    buffer.atEnd = .ok none ∨ ∃ error, buffer.atEnd = .error (.io error) := by
  simp only [atEnd]
  split
  · exact .inl rfl
  · exact .inr ⟨_, rfl⟩

theorem isDry_atFailure (buffer : HeadBuffer) (error : IoError) :
    buffer.atFailure error = .ok none ∨ ∃ told, buffer.atFailure error = .error (.io told) := by
  simp only [atFailure]
  split
  · exact .inl rfl
  · exact .inr ⟨_, rfl⟩

def Reading.untilBreak {α : Type} (reading : Reading α) : Reading α :=
  { reading with source := reading.source.untilBreak }

def Reading.MissesHead (reading : Reading (Option Nat)) : Prop :=
  reading.outcome = .ok none ∨ ∃ error, reading.outcome = .error (.io error)

theorem readHead_untilBreak (source : Source) (buffer : HeadBuffer) :
    buffer.readHead source.untilBreak = (buffer.readHead source).untilBreak ∨
      (buffer.readHead source).MissesHead ∧ (buffer.readHead source.untilBreak).MissesHead := by
  induction source generalizing buffer with
  | nil =>
      left
      cases said : buffer.verdict? with
      | some verdict =>
          rw [readHead_of_verdict said, readHead_of_verdict said]
          rfl
      | none =>
          simp only [Source.untilBreak, List.takeWhile_nil, readHead, said]
          rfl
  | cons arrival rest ih =>
      cases said : buffer.verdict? with
      | some verdict =>
          left
          rw [readHead_of_verdict said, readHead_of_verdict said]
          rfl
      | none =>
          by_cases steady : arrival.IsSteady
          · rw [Source.untilBreak_of_steady steady]
            cases arrival with
            | failure error =>
                simp only [Arrival.IsSteady] at steady
                simp only [readHead, said, steady, ↓reduceIte]
                exact ih buffer
            | piece content =>
                have bytes : content.isEmpty = false := by simpa [Arrival.IsSteady] using steady
                by_cases fits : content.length ≤ buffer.room - buffer.content.length
                · simp only [readHead, said, bytes, Bool.false_eq_true, fits, ↓reduceIte]
                  exact ih _
                · have more : Arrival.IsSteady (.piece (content.drop (buffer.room - buffer.content.length))) := by
                    simp only [Arrival.IsSteady, ne_eq, List.drop_eq_nil_iff]
                    omega
                  left
                  simp only [readHead, said, bytes, Bool.false_eq_true, fits, ↓reduceIte, Reading.untilBreak,
                    Source.untilBreak_of_steady more]
          · right
            rw [Source.untilBreak_of_not_steady steady]
            have early : (buffer.readHead []).MissesHead := by
              simp only [readHead, said]
              exact isDry_atEnd buffer
            refine ⟨?_, early⟩
            cases arrival with
            | failure error =>
                simp only [Arrival.IsSteady] at steady
                simp only [readHead, said, steady, ↓reduceIte]
                exact isDry_atFailure buffer error
            | piece content =>
                have bytes : content.isEmpty = true := by simpa [Arrival.IsSteady] using steady
                simp only [readHead, said, bytes, ↓reduceIte]
                exact isDry_atEnd buffer

theorem readBody_untilBreak (source : Source) (buffer : HeadBuffer) (start length : Nat) :
    buffer.readBody source.untilBreak start length = (buffer.readBody source start length).untilBreak ∨
      ∃ error earlier, (buffer.readBody source start length).outcome = .error (.io error) ∧
        (buffer.readBody source.untilBreak start length).outcome = .error (.io earlier) := by
  simp only [readBody]
  split
  · exact .inl rfl
  · split
    · exact .inl rfl
    · generalize length - ((buffer.content.drop start).take length).length = wanted
      rcases source.readExactly_untilBreak wanted with
        ⟨content, rest, read, readEarly⟩ | ⟨error, rest, earlier, spent, read, readEarly⟩
      · left
        simp only [read, readEarly, Reading.untilBreak]
      · right
        simp only [read, readEarly]
        exact ⟨error, earlier, rfl, rfl⟩

end HeadBuffer

namespace Connection

variable {τ : Type}

def untilBreak (connection : Connection τ) : Connection τ :=
  { connection with source := connection.source.untilBreak }

def Next.untilBreak : Next τ → Next τ
  | .stopped stop connection => .stopped stop connection.untilBreak
  | .request asked keepAlive connection => .request asked keepAlive connection.untilBreak

def Next.IsDry : Next τ → Prop
  | .stopped stop _ => stop.IsDry
  | .request _ _ _ => False

theorem readBody_untilBreak (terms : Terms) (connection : Connection τ) (head : Head) (stop : Nat) :
    connection.untilBreak.readBody terms head stop = (connection.readBody terms head stop).untilBreak ∨
      (connection.readBody terms head stop).IsDry ∧ (connection.untilBreak.readBody terms head stop).IsDry := by
  simp only [readBody]
  split
  · exact .inl rfl
  · rcases connection.buffer.readBody_untilBreak connection.source stop head.contentLength with
      same | ⟨error, earlier, failed, failedEarly⟩
    · left
      simp only [untilBreak, same]
      simp only [HeadBuffer.Reading.untilBreak]
      split <;> rfl
    · right
      simp only [untilBreak, failed, failedEarly]
      exact ⟨trivial, trivial⟩

theorem readRequest_untilBreak [FieldHash] (terms : Terms) (connection : Connection τ) :
    connection.untilBreak.readRequest terms = (connection.readRequest terms).untilBreak ∨
      (connection.readRequest terms).IsDry ∧ (connection.untilBreak.readRequest terms).IsDry := by
  simp only [readRequest]
  rcases connection.buffer.readHead_untilBreak connection.source with same | ⟨missed, missedEarly⟩
  · simp only [untilBreak, same]
    simp only [HeadBuffer.Reading.untilBreak]
    split
    · exact .inl rfl
    · exact .inl rfl
    · split
      · exact .inl rfl
      · let reading := connection.buffer.readHead connection.source
        exact readBody_untilBreak terms { connection with buffer := reading.buffer, source := reading.source } _ _
  · right
    constructor
    · rcases missed with missed | ⟨error, missed⟩
      · simp only [missed]
        trivial
      · simp only [missed]
        trivial
    · rcases missedEarly with missed | ⟨error, missed⟩
      · simp only [untilBreak, missed]
        trivial
      · simp only [untilBreak, missed]
        trivial

theorem answer_untilBreak (terms : Terms) (serve : Serve ResponseBuffer τ) (connection : Connection τ)
    (request : Request) (keepAlive : Bool) :
    connection.untilBreak.answer terms serve request keepAlive =
      (connection.answer terms serve request keepAlive).map id Connection.untilBreak := by
  simp only [answer, untilBreak]
  split
  · rfl
  · split <;> rfl

end Connection

end HttpService
