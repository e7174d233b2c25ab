import HttpService.Proofs.Delivery
import HttpService.Proofs.Grammar
import HttpService.Session.Reader

/-! A reader loses no byte and reads none twice. What it holds and what is still on the stream are together the input
without what has been dropped; and what a call comes to is read off these bytes, wherever the stream cuts them. -/

namespace HttpService

theorem Bytes.indexOf?_eq_some_iff {pattern content : Bytes} {index : Nat} :
    indexOf? pattern content = some index ↔
      pattern <+: content.drop index ∧ ∀ earlier < index, ¬pattern <+: content.drop earlier := by
  induction content generalizing index with
  | nil =>
      simp only [indexOf?, List.drop_nil, List.prefix_nil, List.isEmpty_iff]
      split
      · rename_i empty
        simp only [Option.some.injEq, empty, true_and, not_true_eq_false]
        constructor
        · rintro rfl earlier before
          exact absurd before (Nat.not_lt_zero earlier)
        · intro first
          refine Classical.byContradiction fun later => ?_
          exact first 0 (by omega)
      · rename_i nonempty
        simp [nonempty]
  | cons byte rest ih =>
      simp only [indexOf?, List.isPrefixOf_iff_prefix]
      split
      · rename_i here
        constructor
        · intro found
          obtain rfl := Option.some.inj found
          exact ⟨here, fun earlier before => absurd before (Nat.not_lt_zero earlier)⟩
        · rintro ⟨_, first⟩
          refine Option.some_inj.mpr (Classical.byContradiction fun later => ?_)
          exact first 0 (by omega) here
      · rename_i notHere
        rw [Option.map_eq_some_iff]
        constructor
        · rintro ⟨before, found, rfl⟩
          obtain ⟨begins, first⟩ := ih.mp found
          refine ⟨begins, fun earlier bound => ?_⟩
          cases earlier with
          | zero => exact notHere
          | succ earlier => exact first earlier (by omega)
        · rintro ⟨begins, first⟩
          cases index with
          | zero => exact absurd begins notHere
          | succ before => exact ⟨before, ih.mpr ⟨begins, fun earlier bound => first (earlier + 1) (by omega)⟩, rfl⟩

namespace HeadBuffer

def EndsAt (content : Bytes) (stop : Nat) : Prop :=
  ∃ front rest, content = front ++ endMark ++ rest ∧ front.length + 4 = stop

structure FirstEndsAt (content : Bytes) (stop : Nat) : Prop where
  here : EndsAt content stop
  first : ∀ other, EndsAt content other → stop ≤ other

theorem endsAt_iff {content : Bytes} {stop : Nat} :
    EndsAt content stop ↔ ∃ index, endMark <+: content.drop index ∧ index + 4 = stop := by
  constructor
  · rintro ⟨front, rest, rfl, rfl⟩
    exact ⟨front.length, ⟨rest, by simp⟩, rfl⟩
  · rintro ⟨index, ⟨rest, begins⟩, rfl⟩
    have bound : index < content.length := by
      have length := congrArg List.length begins
      simp only [endMark, List.length_append, List.length_cons, List.length_nil, List.length_drop] at length
      omega
    refine ⟨content.take index, rest, ?_, by rw [List.length_take]; omega⟩
    rw [List.append_assoc, begins, List.take_append_drop]

theorem headEnd?_eq_some_iff {content : Bytes} {stop : Nat} :
    headEnd? content = some stop ↔ FirstEndsAt content stop := by
  rw [headEnd?, Option.map_eq_some_iff]
  constructor
  · rintro ⟨index, found, rfl⟩
    obtain ⟨begins, first⟩ := Bytes.indexOf?_eq_some_iff.mp found
    refine ⟨endsAt_iff.mpr ⟨index, begins, rfl⟩, fun other ends => ?_⟩
    obtain ⟨later, beginsLater, rfl⟩ := endsAt_iff.mp ends
    refine Nat.le_of_not_lt fun before => ?_
    exact first later (by omega) beginsLater
  · rintro ⟨here, first⟩
    obtain ⟨index, begins, rfl⟩ := endsAt_iff.mp here
    refine ⟨index, Bytes.indexOf?_eq_some_iff.mpr ⟨begins, fun earlier bound beginsEarlier => ?_⟩, rfl⟩
    have later := first (earlier + 4) (endsAt_iff.mpr ⟨earlier, beginsEarlier, rfl⟩)
    omega

theorem headEnd?_eq_none_iff {content : Bytes} : headEnd? content = none ↔ ∀ stop, ¬EndsAt content stop := by
  rw [headEnd?, Option.map_eq_none_iff, ← Option.not_isSome_iff_eq_none, Bytes.isSome_indexOf?_iff]
  constructor
  · rintro absent stop ⟨front, rest, split, _⟩
    exact absent ⟨front, rest, split.symm⟩
  · rintro absent ⟨front, rest, split⟩
    exact absent (front.length + 4) ⟨front, rest, split.symm, rfl⟩

theorem endsAt_take_iff {content : Bytes} {room stop : Nat} :
    EndsAt (content.take room) stop ↔ EndsAt content stop ∧ stop ≤ room := by
  have four : endMark.length = 4 := rfl
  constructor
  · rintro ⟨front, rest, split, rfl⟩
    have length := congrArg List.length split
    simp only [List.length_append, four, List.length_take] at length
    exact ⟨⟨front, rest ++ content.drop room,
      by rw [← List.append_assoc, ← split, List.take_append_drop], rfl⟩, by omega⟩
  · rintro ⟨⟨front, rest, rfl, rfl⟩, within⟩
    refine ⟨front, rest.take (room - (front.length + 4)), ?_, rfl⟩
    have whole : (front ++ endMark).length = front.length + 4 := by rw [List.length_append, four]
    rw [List.take_append, List.take_of_length_le (by omega), whole]

theorem firstEndsAt_take_iff {content : Bytes} {room stop : Nat} :
    FirstEndsAt (content.take room) stop ↔ FirstEndsAt content stop ∧ stop ≤ room := by
  constructor
  · rintro ⟨here, first⟩
    obtain ⟨ends, within⟩ := endsAt_take_iff.mp here
    refine ⟨⟨ends, fun other endsOther => ?_⟩, within⟩
    by_cases near : other ≤ room
    · exact first other (endsAt_take_iff.mpr ⟨endsOther, near⟩)
    · omega
  · rintro ⟨⟨here, first⟩, within⟩
    exact ⟨endsAt_take_iff.mpr ⟨here, within⟩, fun other ends => first other (endsAt_take_iff.mp ends).1⟩

/-- What reading a head comes to, told by the bytes to come and by how many of them there is room for. -/
structure Locates (room : Nat) (pending : Bytes) (outcome : Except ReadFailure (Option Nat)) : Prop where
  found : ∀ stop, outcome = .ok (some stop) ↔ FirstEndsAt pending stop ∧ stop ≤ room
  tooLarge : outcome = .error (.refused .headTooLarge) ↔
    room ≤ pending.length ∧ ∀ stop, ¬EndsAt (pending.take room) stop
  closed : outcome = .ok none ↔ pending = [] ∧ 0 < room
  cutShort : outcome = .error (.io .headCutShort) ↔
    pending ≠ [] ∧ pending.length < room ∧ ∀ stop, ¬EndsAt pending stop

section Outcome

variable {room stop : Nat} {pending : Bytes}

theorem headOf_of_found (ends : FirstEndsAt pending stop) (within : stop ≤ room) :
    headOf room pending = .ok (some stop) := by
  simp only [headOf, headEnd?_eq_some_iff.mpr (firstEndsAt_take_iff.mpr ⟨ends, within⟩)]

theorem headOf_of_full (full : room ≤ pending.length) (absent : ∀ stop, ¬EndsAt (pending.take room) stop) :
    headOf room pending = .error (.refused .headTooLarge) := by
  simp only [headOf, headEnd?_eq_none_iff.mpr absent, full, ↓reduceIte]

theorem headOf_nil (positive : 0 < room) : headOf room [] = .ok none := by
  have absent : headEnd? ([] : Bytes) = none := rfl
  simp only [headOf, List.take_nil, absent, List.length_nil, Nat.not_le.mpr positive, List.isEmpty_nil, ↓reduceIte]

theorem headOf_of_cutShort (nonempty : pending ≠ []) (short : pending.length < room)
    (absent : ∀ stop, ¬EndsAt pending stop) : headOf room pending = .error (.io .headCutShort) := by
  simp only [headOf, List.take_of_length_le (Nat.le_of_lt short), headEnd?_eq_none_iff.mpr absent, Nat.not_le.mpr short,
    List.isEmpty_iff, nonempty, ↓reduceIte]

theorem headOf_cases (room : Nat) (pending : Bytes) :
    (∃ stop, FirstEndsAt pending stop ∧ stop ≤ room) ∨
      (room ≤ pending.length ∧ ∀ stop, ¬EndsAt (pending.take room) stop) ∨ (pending = [] ∧ 0 < room) ∨
      (pending ≠ [] ∧ pending.length < room ∧ ∀ stop, ¬EndsAt pending stop) := by
  cases ended : headEnd? (pending.take room) with
  | some stop => exact .inl ⟨stop, firstEndsAt_take_iff.mp (headEnd?_eq_some_iff.mp ended)⟩
  | none =>
      have absent := headEnd?_eq_none_iff.mp ended
      by_cases full : room ≤ pending.length
      · exact .inr (.inl ⟨full, absent⟩)
      · rw [List.take_of_length_le (Nat.le_of_not_le full)] at absent
        by_cases empty : pending = []
        · exact .inr (.inr (.inl ⟨empty, Nat.lt_of_le_of_lt (Nat.zero_le _) (Nat.lt_of_not_le full)⟩))
        · exact .inr (.inr (.inr ⟨empty, Nat.lt_of_not_le full, absent⟩))

end Outcome

theorem locates_headOf (room : Nat) (pending : Bytes) : Locates room pending (headOf room pending) where
  found stop := by
    constructor
    · intro told
      obtain ⟨last, ends, within⟩ | ⟨full, absent⟩ | ⟨rfl, positive⟩ | ⟨nonempty, short, absent⟩ := headOf_cases room pending
      · rw [headOf_of_found ends within, Except.ok.injEq, Option.some.injEq] at told
        exact told ▸ ⟨ends, within⟩
      · simp [headOf_of_full full absent] at told
      · simp [headOf_nil positive] at told
      · simp [headOf_of_cutShort nonempty short absent] at told
    · exact fun told => headOf_of_found told.1 told.2
  tooLarge := by
    constructor
    · intro told
      obtain ⟨last, ends, within⟩ | ⟨full, absent⟩ | ⟨rfl, positive⟩ | ⟨nonempty, short, absent⟩ := headOf_cases room pending
      · simp [headOf_of_found ends within] at told
      · exact ⟨full, absent⟩
      · simp [headOf_nil positive] at told
      · simp [headOf_of_cutShort nonempty short absent] at told
    · exact fun told => headOf_of_full told.1 told.2
  closed := by
    constructor
    · intro told
      obtain ⟨last, ends, within⟩ | ⟨full, absent⟩ | ⟨rfl, positive⟩ | ⟨nonempty, short, absent⟩ := headOf_cases room pending
      · simp [headOf_of_found ends within] at told
      · simp [headOf_of_full full absent] at told
      · exact ⟨rfl, positive⟩
      · simp [headOf_of_cutShort nonempty short absent] at told
    · exact fun told => told.1 ▸ headOf_nil told.2
  cutShort := by
    constructor
    · intro told
      obtain ⟨last, ends, within⟩ | ⟨full, absent⟩ | ⟨rfl, positive⟩ | ⟨nonempty, short, absent⟩ := headOf_cases room pending
      · simp [headOf_of_found ends within] at told
      · simp [headOf_of_full full absent] at told
      · simp [headOf_nil positive] at told
      · exact ⟨nonempty, short, absent⟩
    · exact fun told => headOf_of_cutShort told.1 told.2.1 told.2.2

structure Delivers (pending : Bytes) (start length : Nat) (outcome : Except ReadFailure Bytes) (left : Bytes) :
    Prop where
  body : ∀ body, outcome = .ok body ↔
    length ≤ Allocation.most ∧ start + length ≤ pending.length ∧ body = (pending.drop start).take length
  cutShort : outcome = .error (.io .bodyCutShort) ↔ length ≤ Allocation.most ∧ pending.length < start + length
  tooLong : outcome = .error (.panicked Allocation.overflow) ↔ Allocation.most < length
  left : ∀ body, outcome = .ok body → left = pending.drop (start + length)

theorem delivers_bodyOf {pending left : Bytes} {start length : Nat}
    (leaves : ∀ body, bodyOf pending start length = .ok body → left = pending.drop (start + length)) :
    Delivers pending start length (bodyOf pending start length) left := by
  by_cases long : Allocation.most < length
  · have refused : bodyOf pending start length = .error (.panicked Allocation.overflow) := by
      simp only [bodyOf, Allocation.reserve, Nat.mul_one, long, ↓reduceIte]
    rw [refused] at leaves ⊢
    refine ⟨fun body => ?_, ?_, iff_of_true rfl long, leaves⟩
    · exact iff_of_false (by simp) fun told => Nat.not_lt.mpr told.1 long
    · exact iff_of_false (by simp) fun told => Nat.not_lt.mpr told.1 long
  · have short : length ≤ Allocation.most := Nat.le_of_not_lt long
    have granted : Allocation.reserve length 1 = .ok () := Allocation.reserve_of_le (by omega)
    by_cases enough : start + length ≤ pending.length
    · have read : bodyOf pending start length = .ok ((pending.drop start).take length) := by
        simp only [bodyOf, granted, enough, ↓reduceIte]
      rw [read] at leaves ⊢
      refine ⟨fun body => ?_, ?_, iff_of_false (by simp) long, leaves⟩
      · rw [Except.ok.injEq, eq_comm]
        exact ⟨fun same => ⟨short, enough, same⟩, fun told => told.2.2⟩
      · exact iff_of_false (by simp) fun told => Nat.not_lt.mpr enough told.2
    · have failed : bodyOf pending start length = .error (.io .bodyCutShort) := by
        simp only [bodyOf, granted, enough, ↓reduceIte]
      rw [failed] at leaves ⊢
      refine ⟨fun body => ?_, iff_of_true rfl ⟨short, Nat.lt_of_not_le enough⟩, iff_of_false (by simp) long, leaves⟩
      exact iff_of_false (by simp) fun told => enough told.2.1

end HeadBuffer

namespace Reader

/-- The bytes that are still to come: those that are held, and those on the stream. -/
def pending (reader : Reader) : Bytes := reader.buffer.content ++ reader.source.bytes

def after [FieldHash] (limits : RequestLimits) (reader : Reader) (commands : List ReaderCommand) : Reader :=
  commands.foldl (fun reader command => (reader.perform limits command).2) reader

def drops (reader : Reader) : ReaderCommand → Nat
  | .readHead | .parseHead => 0
  | .consume count => min (count.getD (reader.headEnd.getD 0)) reader.buffer.content.length
  | .readBody length =>
    match reader.headEnd with
    | none => 0
    | some start => start + length.getD reader.announced

def dropped [FieldHash] (limits : RequestLimits) (reader : Reader) : List ReaderCommand → Nat
  | [] => 0
  | command :: rest => reader.drops command + dropped limits (reader.perform limits command).2 rest

end Reader

def ReaderAnswer.failsBody : ReaderAnswer → Bool
  | body (some (.error _)) => true
  | _ => false

namespace Reader

def readsBodies [FieldHash] (limits : RequestLimits) (reader : Reader) : List ReaderCommand → Bool
  | [] => true
  | command :: rest =>
    !(reader.perform limits command).1.failsBody && readsBodies limits (reader.perform limits command).2 rest

/-- The reader awaits just these bytes, on a stream that delivers them all, and the head that was read last ends where the
first head of them ends. -/
structure Awaits (limits : RequestLimits) (reader : Reader) (pending : Bytes) : Prop where
  room : reader.buffer.room = limits.headLength
  within : reader.buffer.content.length ≤ limits.headLength
  bytes : reader.pending = pending
  steady : reader.source.Steady
  stands : ∀ stop, reader.headEnd = some stop → HeadBuffer.headEnd? reader.buffer.content = some stop

variable {limits : RequestLimits} {reader : Reader} {pending : Bytes}

theorem Awaits.readHead [FieldHash] (awaits : reader.Awaits limits pending) :
    ∃ outcome next, reader.perform limits .readHead = (.headEnd outcome, next) ∧
      HeadBuffer.Locates limits.headLength pending outcome ∧ next.Awaits limits pending := by
  obtain ⟨room, within, bytes, steady, _⟩ := awaits
  rw [← room] at within
  obtain ⟨outcome, leaves⟩ := HeadBuffer.readHead_spec steady within
  have stands := @HeadBuffer.headEnd?_of_readHead reader.source reader.buffer
  rw [← Reader.pending, bytes, room] at outcome leaves
  refine ⟨_, _, rfl, outcome ▸ HeadBuffer.locates_headOf _ _, leaves.room, leaves.within, leaves.bytes, leaves.steady, ?_⟩
  intro stop told
  apply stands
  dsimp only at told
  split at told
  · rename_i read
    rw [read, told]
  · simp at told

theorem perform_parseHead [FieldHash] (limits : RequestLimits) (reader : Reader) :
    ∃ answer announced, reader.perform limits .parseHead = (.head answer, { reader with announced := announced }) := by
  simp only [perform]
  split
  · exact ⟨none, reader.announced, rfl⟩
  · split
    · exact ⟨_, reader.announced, rfl⟩
    · exact ⟨_, _, rfl⟩

theorem Awaits.consume [FieldHash] (awaits : reader.Awaits limits pending) (count : Option Nat) :
    (reader.perform limits (.consume count)).2.Awaits limits (pending.drop (reader.drops (.consume count))) := by
  obtain ⟨room, within, bytes, steady, _⟩ := awaits
  simp only [perform, drops]
  generalize count.getD (reader.headEnd.getD 0) = count
  refine ⟨room, ?_, ?_, steady, nofun⟩
  · exact Nat.le_trans (by simp [HeadBuffer.consume]) within
  · simp only [Reader.pending, HeadBuffer.consume, ← bytes]
    rw [List.drop_append_of_le_length (Nat.min_le_right _ _)]
    congr 1
    by_cases few : count ≤ reader.buffer.content.length
    · rw [Nat.min_eq_left few]
    · rw [Nat.min_eq_right (Nat.le_of_not_le few), List.drop_length, List.drop_eq_nil_of_le (Nat.le_of_not_le few)]

theorem Awaits.readBody [FieldHash] (awaits : reader.Awaits limits pending) {start : Nat}
    (stands : reader.headEnd = some start) (length : Option Nat) :
    ∃ outcome next, reader.perform limits (.readBody length) = (.body (some outcome), next) ∧
      HeadBuffer.Delivers pending start (length.getD reader.announced) outcome next.pending ∧
      ∀ body, outcome = .ok body →
        next.Awaits limits (pending.drop (start + length.getD reader.announced)) := by
  have begins := HeadBuffer.headEnd?_le (awaits.stands start stands)
  obtain ⟨room, within, bytes, steady, _⟩ := awaits
  rw [← room] at within
  obtain ⟨outcome, leaves⟩ := @HeadBuffer.readBody_spec _ steady _ start (length.getD reader.announced) within begins
  rw [← Reader.pending, bytes, room] at leaves
  rw [← Reader.pending, bytes] at outcome
  simp only [perform, stands]
  refine ⟨_, _, rfl, ?_, ?_⟩
  · rw [outcome] at leaves ⊢
    exact HeadBuffer.delivers_bodyOf fun body read => (leaves body read).bytes
  · intro body read
    obtain ⟨room, within, bytes, steady⟩ := leaves body read
    exact ⟨room, within, bytes, steady, nofun⟩

theorem Awaits.perform [FieldHash] (awaits : reader.Awaits limits pending) {command : ReaderCommand}
    (sound : (reader.perform limits command).1.failsBody = false) :
    (reader.perform limits command).2.Awaits limits (pending.drop (reader.drops command)) := by
  cases command with
  | readHead =>
      obtain ⟨outcome, next, performed, _, awaits⟩ := awaits.readHead
      rw [performed]
      exact awaits
  | parseHead =>
      obtain ⟨answer, announced, performed⟩ := reader.perform_parseHead limits
      rw [performed]
      exact ⟨awaits.room, awaits.within, awaits.bytes, awaits.steady, awaits.stands⟩
  | consume count => exact awaits.consume count
  | readBody length =>
      cases stands : reader.headEnd with
      | none =>
          simp only [Reader.perform, drops, stands, List.drop_zero]
          exact awaits
      | some start =>
          obtain ⟨outcome, next, performed, _, left⟩ := awaits.readBody stands length
          rw [performed] at sound ⊢
          simp only [drops, stands]
          cases outcome with
          | error failure => simp [ReaderAnswer.failsBody] at sound
          | ok body => exact left body rfl

theorem Awaits.after [FieldHash] (awaits : reader.Awaits limits pending) {commands : List ReaderCommand}
    (sound : reader.readsBodies limits commands = true) :
    (reader.after limits commands).Awaits limits (pending.drop (reader.dropped limits commands)) := by
  induction commands generalizing reader pending with
  | nil => exact awaits
  | cons command rest ih =>
      simp only [readsBodies, Bool.and_eq_true, Bool.not_eq_true'] at sound
      rw [dropped, ← List.drop_drop]
      exact ih (awaits.perform sound.1) sound.2

/-- Whatever has been done with a reader, as long as every body could be read: the bytes that it holds and those on the
stream are the input without what has been dropped. Reading a head leaves them as they are, and finds the first empty
line if there is room for all before it; reading the head's fields leaves the reader as it is; dropping bytes drops those
that are held, and no more; and a body is the bytes behind the head, which are dropped with the head. There is a body
just where there are so many bytes and so much memory can be asked for. -/
theorem pending_after [FieldHash] (limits : RequestLimits) {source : Source} (steady : source.Steady)
    {earlier : List ReaderCommand} (sound : (start limits source).readsBodies limits earlier = true) :
    let reader := (start limits source).after limits earlier
    let pending := source.bytes.drop ((start limits source).dropped limits earlier)
    reader.buffer.content ++ reader.source.bytes = pending ∧ reader.buffer.content.length ≤ limits.headLength ∧
      (∃ outcome next, reader.perform limits .readHead = (.headEnd outcome, next) ∧
        HeadBuffer.Locates limits.headLength pending outcome ∧ next.pending = pending) ∧
      (∃ answer announced,
        reader.perform limits .parseHead = (.head answer, { reader with announced := announced })) ∧
      (∀ count, (reader.perform limits (.consume (some count))).2.pending =
        pending.drop (min count reader.buffer.content.length)) ∧
      ∀ start, reader.headEnd = some start → HeadBuffer.FirstEndsAt pending start ∧
        ∀ length, ∃ outcome next, reader.perform limits (.readBody (some length)) = (.body (some outcome), next) ∧
          HeadBuffer.Delivers pending start length outcome next.pending := by
  intro reader pending
  have fresh : (Reader.start limits source).Awaits limits source.bytes := ⟨rfl, Nat.zero_le _, rfl, steady, nofun⟩
  have awaits : reader.Awaits limits pending := fresh.after sound
  refine ⟨awaits.bytes, awaits.within, ?_, reader.perform_parseHead limits, ?_, fun start stands => ⟨?_, ?_⟩⟩
  · obtain ⟨outcome, next, performed, locates, left⟩ := awaits.readHead
    exact ⟨outcome, next, performed, locates, left.bytes⟩
  · intro count
    exact (awaits.consume (some count)).bytes
  · have found := HeadBuffer.headEnd?_append (awaits.stands start stands) reader.source.bytes
    rw [← Reader.pending, awaits.bytes] at found
    exact HeadBuffer.headEnd?_eq_some_iff.mp found
  · intro length
    obtain ⟨outcome, next, performed, delivers, _⟩ := awaits.readBody stands (some length)
    exact ⟨outcome, next, performed, delivers⟩

/-- A body that is in part in the buffer, with an interruption before the rest, and then a head that has to be made room
for: what is left after both is the beginning of a third request. -/
theorem pending_after_two_requests :
    let limits : RequestLimits := ⟨1, 1, 14, 1, 5⟩
    let source : Source := [.piece (Ascii.bytes "GET / HTTP/1.1\r\nContent-"), .piece (Ascii.bytes "Length: 5\r\n\r\nab"),
      .failure ⟨.interrupted, "again"⟩, .piece (Ascii.bytes "cdeGET /a HTTP/1.0\r\n\r"), .piece (Ascii.bytes "\nGET /")]
    let earlier := [ReaderCommand.readHead, .parseHead, .readBody none, .readHead, .consume none]
    let reader := (start limits source).after limits earlier
    source.Steady ∧ (start limits source).readsBodies limits earlier = true ∧
      reader.buffer.content ++ reader.source.bytes = Ascii.bytes "GET /" := by
  intro limits source earlier reader
  have steady : source.Steady := by decide +kernel
  have sound : (start limits source).readsBodies limits earlier = true := by decide +kernel
  have left : source.bytes.drop ((start limits source).dropped limits earlier) = Ascii.bytes "GET /" := by decide +kernel
  exact ⟨steady, sound, (pending_after limits steady sound).1.trans left⟩

/-- Where the room has run over to nothing, the end of a stream without a byte is refused as well. And a body that memory
cannot be asked for is no body, although all its bytes are there. -/
theorem pending_after_exceptions :
    let tail := List.replicate (Allocation.most + 1) 0x61
    let roomless : RequestLimits := { targetLength := UInt64.size - 21, fieldCount := 0 }
    let closed := start roomless []
    let source : Source := [.piece HeadBuffer.endMark, .piece tail]
    let reader := (start {} source).after {} [.readHead]
    closed.pending = [] ∧
      (closed.perform roomless .readHead).1 = .headEnd (.error (.refused .headTooLarge)) ∧
      reader.headEnd = some 4 ∧ 4 + (Allocation.most + 1) ≤ reader.pending.length ∧
      (reader.perform {} (.readBody (some (Allocation.most + 1)))).1 =
        .body (some (.error (.panicked Allocation.overflow))) := by
  have long (tail : Bytes) (count : Nat) (length : tail.length = count)
      (refused : Allocation.reserve count 1 = .error Allocation.overflow) :
      let reader := (start {} [.piece HeadBuffer.endMark, .piece tail]).after {} [.readHead]
      reader.headEnd = some 4 ∧ 4 + count ≤ reader.pending.length ∧
        (reader.perform {} (.readBody (some count))).1 = .body (some (.error (.panicked Allocation.overflow))) := by
    intro reader
    have held : reader = ⟨⟨RequestLimits.headLength {}, HeadBuffer.endMark⟩, [.piece tail], some 4, 0⟩ := rfl
    rw [held]
    refine ⟨rfl, ?_, ?_⟩
    · simp only [pending, HeadBuffer.endMark, Source.bytes, List.length_append, List.length_cons, List.length_nil, length]
      omega
    · simp [perform, HeadBuffer.readBody, HeadBuffer.endMark, refused]
  intro tail
  exact ⟨rfl, rfl, long tail (Allocation.most + 1) List.length_replicate (if_pos (by decide))⟩

end Reader

end HttpService
