import HttpService.Head

/-! Which names a collection takes: any that are few, whatever slots they belong in, and not those that crowd where there
are many. -/

namespace HttpService

namespace Slots

/-- However so many names crowd, there are slots for them. -/
def few : Nat := 6554

theorem most_slots : Nat.pow 2 mostOrder = 32768 := by decide

theorem isSome_new?_iff {names : Nat} : (new? names).isSome = true ↔ names ≤ Head.maxFields := by
  rw [new?, Option.isSome_map]
  by_cases none : names = 0
  · simp [none]
  · simp only [none, ↓reduceIte, List.find?_isSome, List.mem_range, decide_eq_true_eq, Head.maxFields]
    constructor
    · rintro ⟨order, within, fits⟩
      have most : Nat.pow 2 order ≤ Nat.pow 2 mostOrder := Nat.pow_le_pow_right (by decide) (Nat.le_of_lt_succ within)
      rw [most_slots] at most
      omega
    · intro small
      refine ⟨mostOrder, Nat.lt_succ_self _, ?_⟩
      rw [most_slots]
      omega

theorem names_new? {names : Nat} {slots : Slots} (made : new? names = some slots) : slots.names = [] := by
  obtain ⟨order, _, rfl⟩ := Option.map_eq_some_iff.mp made
  rfl

theorem new?_eq_most {room : Nat} (large : 12288 < room) (made : room ≤ Head.maxFields) :
    new? room = some ⟨mostOrder, [], [], .loose⟩ := by
  have found : (List.range (mostOrder + 1)).find? (fun order => decide (room + room / 3 ≤ Nat.pow 2 order)) =
      some mostOrder := by
    simp only [Head.maxFields] at made
    rw [List.find?_range_eq_some]
    refine ⟨?_, by decide, fun order fewer => ?_⟩
    · rw [decide_eq_true_eq, most_slots]
      omega
    · have half : Nat.pow 2 order ≤ Nat.pow 2 14 := Nat.pow_le_pow_right (by decide) (Nat.le_of_lt_succ fewer)
      have small : Nat.pow 2 14 = 16384 := by decide
      rw [Bool.not_eq_true', decide_eq_false_iff_not]
      omega
  rw [new?, if_neg (by omega), found, Option.map_some]

variable [FieldHash] {slots : Slots}

theorem names_settle (names : List FieldName) : (names.foldl settle slots).names = slots.names := by
  induction names generalizing slots with
  | nil => rfl
  | cons name later ih => exact ih

theorem exists_grow? (more : slots.order < mostOrder) : ∃ next, slots.grow? = some next ∧ next.names = slots.names := by
  rw [grow?, if_pos more]
  exact ⟨_, rfl, names_settle _⟩

theorem exists_prepare? (fewer : slots.names.length < few) :
    ∃ ready, slots.prepare? = some ready ∧ ready.names = slots.names := by
  have more (full : slots.names.length = slots.room ∨ slots.count ≤ 5 * slots.names.length) :
      slots.order < mostOrder := by
    refine Nat.lt_of_not_le fun most => ?_
    have large : 32768 ≤ slots.count := most_slots ▸ Nat.pow_le_pow_right (by decide) most
    simp only [few, room] at fewer full
    omega
  rw [prepare?]
  split
  · split
    · rename_i many
      exact exists_grow? (more (.inr many))
    · exact ⟨_, rfl, rfl⟩
  · split
    · rename_i full
      exact exists_grow? (more (.inl full))
    · exact ⟨slots, rfl, rfl⟩

theorem length_names_enter (name : FieldName) : (slots.enter name).names.length ≤ slots.names.length + 1 := by
  rw [enter]
  split
  · split <;> simp
  · split <;> simp

theorem exists_foldlM_take? {names : List FieldName} (fits : slots.names.length + names.length ≤ few) :
    ∃ last, names.foldlM take? slots = some last := by
  induction names generalizing slots with
  | nil => exact ⟨slots, rfl⟩
  | cons name later ih =>
      rw [List.length_cons] at fits
      obtain ⟨ready, prepared, same⟩ := @exists_prepare? _ slots (by omega)
      have entered : (ready.enter name).names.length ≤ slots.names.length + 1 := same ▸ ready.length_names_enter name
      rw [List.foldlM_cons, take?, prepared]
      exact ih (by dsimp only; omega)

theorem filled?_append_singleton (room : Nat) (names : List FieldName) (name : FieldName) :
    filled? room (names ++ [name]) = (filled? room names).bind fun slots => slots.take? name := by
  simp only [filled?, Option.bind_assoc, List.foldlM_append, List.foldlM_cons, List.foldlM_nil, bind_pure]
  rfl

/-- A collection takes any names that are few. -/
theorem holds_of_few {room : Nat} (made : room ≤ Head.maxFields) {names : List FieldName} (fewer : names.length ≤ few) :
    holds room names = true := by
  obtain ⟨slots, new⟩ := Option.isSome_iff_exists.mp (isSome_new?_iff.mpr made)
  have fits : slots.names.length + names.length ≤ few := by
    rw [names_new? new, List.length_nil, Nat.zero_add]
    exact fewer
  obtain ⟨last, taken⟩ := exists_foldlM_take? fits
  rw [holds, filled?, new, Option.bind_some, taken]
  rfl

theorem le_of_holds {room : Nat} {names : List FieldName} (held : holds room names = true) : room ≤ Head.maxFields := by
  obtain ⟨last, filled⟩ := Option.isSome_iff_exists.mp held
  obtain ⟨slots, made, _⟩ := Option.bind_eq_some_iff.mp filled
  exact isSome_new?_iff.mp (Option.isSome_of_eq_some made)

structure InRow (slots : Slots) (base : Nat) (row : List FieldName) : Prop where
  order : slots.order = mostOrder
  loose : slots.crowding = .loose
  length : slots.names.length = row.length
  own : ∀ index name, row[index]? = some name → FieldHash.hash name % 32768 = base + index
  standing : ∀ place, slots.standing? (base + place) = row[place]?

variable {base : Nat} {row : List FieldName} {name : FieldName}

theorem placeOf_eq (most : slots.order = mostOrder) (name : FieldName) (steps : Nat) :
    slots.placeOf name steps = (FieldHash.hash name + steps) % 32768 := by
  rw [placeOf, count, most, most_slots]

theorem InRow.prepare? (inRow : slots.InRow base row) (fewer : row.length < few) : slots.prepare? = some slots := by
  have free : slots.names.length ≠ slots.room := by
    rw [inRow.length, room, count, inRow.order, most_slots]
    simp only [few] at fewer
    omega
  rw [Slots.prepare?, if_neg (by simp [inRow.loose]), if_neg free]

theorem InRow.take? (inRow : slots.InRow base row) (fewer : row.length < few)
    (own : FieldHash.hash name % 32768 = base + row.length) :
    ∃ next, slots.take? name = some next ∧ next.InRow base (row ++ [name]) := by
  obtain ⟨left, positive⟩ := Nat.exists_eq_succ_of_ne_zero (show slots.count ≠ 0 by
    rw [count, inRow.order, most_slots]
    decide)
  have sought : slots.seek name slots.count 0 = .free (base + row.length) := by
    rw [positive, seek, placeOf_eq inRow.order, Nat.add_zero, own, inRow.standing,
      List.getElem?_eq_none (Nat.le_refl _)]
  refine ⟨slots.enter name, ?_, ?_⟩
  · rw [Slots.take?, inRow.prepare? fewer, Option.map_some]
  · rw [enter, if_neg (by simp [inRow.loose]), sought]
    refine ⟨inRow.order, inRow.loose, ?_, ?_, ?_⟩
    · rw [List.length_cons, inRow.length, List.length_append, List.length_singleton]
    · intro index other found
      rcases Nat.lt_trichotomy index row.length with before | rfl | behind
      · rw [List.getElem?_append_left before] at found
        exact inRow.own index other found
      · rw [List.getElem?_append_right (Nat.le_refl _), Nat.sub_self] at found
        exact Option.some.inj found ▸ own
      · rw [List.getElem?_eq_none (by rw [List.length_append, List.length_singleton]; omega)] at found
        cases found
    · intro place
      rw [standing?, List.find?_cons]
      by_cases here : place = row.length
      · simp [here]
      · have elsewhere : (base + row.length == base + place) = false := by
          rw [beq_eq_false_iff_ne]
          omega
        rw [elsewhere]
        refine (inRow.standing place).trans ?_
        rcases Nat.lt_or_gt_of_ne here with before | behind
        · rw [List.getElem?_append_left before]
        · rw [List.getElem?_eq_none (Nat.le_of_lt behind),
            List.getElem?_eq_none (by rw [List.length_append, List.length_singleton]; omega)]

theorem InRow.foldlM_take? (inRow : slots.InRow base row) {later : List FieldName}
    (fewer : row.length + later.length ≤ few)
    (own : ∀ index name, later[index]? = some name → FieldHash.hash name % 32768 = base + (row.length + index)) :
    ∃ last, later.foldlM Slots.take? slots = some last ∧ last.InRow base (row ++ later) := by
  induction later generalizing slots row with
  | nil => exact ⟨slots, rfl, (List.append_nil row).symm ▸ inRow⟩
  | cons name later ih =>
      rw [List.length_cons] at fewer
      obtain ⟨next, taken, longer⟩ := inRow.take? (by omega) (own 0 name rfl)
      have behind : ∀ index other, later[index]? = some other →
          FieldHash.hash other % 32768 = base + ((row ++ [name]).length + index) := by
        intro index other found
        rw [own (index + 1) other found, List.length_append, List.length_singleton]
        omega
      obtain ⟨last, all, ended⟩ := ih longer (by rw [List.length_append, List.length_singleton]; omega) behind
      rw [List.append_assoc] at ended
      exact ⟨last, by rw [List.foldlM_cons, taken]; exact all, ended⟩

theorem InRow.le_run (inRow : slots.InRow base row) (inside : base + row.length ≤ 32768) {count left place : Nat}
    (within : place + count ≤ row.length) (enough : count ≤ left) : count ≤ slots.run left (base + place) := by
  induction count generalizing left place with
  | zero => exact Nat.zero_le _
  | succ count ih =>
      obtain ⟨left, rfl⟩ := Nat.exists_eq_succ_of_ne_zero (Nat.ne_zero_of_lt enough)
      have taken : (slots.standing? ((base + place) % slots.count)).isSome = true := by
        rw [Slots.count, inRow.order, most_slots, Nat.mod_eq_of_lt (by omega), inRow.standing,
          List.getElem?_eq_getElem (by omega)]
        rfl
      rw [run, if_pos taken]
      exact Nat.succ_le_succ (@ih left (place + 1) (by omega) (Nat.le_of_succ_le_succ enough))

theorem InRow.stepsTo (inRow : slots.InRow base row) {index : Nat} (found : row[index]? = some name) :
    slots.stepsTo name (base + index) = 0 := by
  rw [Slots.stepsTo, placeOf_eq inRow.order, Nat.add_zero, inRow.own index name found, count, inRow.order, most_slots,
    Nat.add_sub_cancel_left, Nat.mod_self]

theorem InRow.crowds (inRow : slots.InRow base row) (fewer : row.length < few) (long : mostMoved < row.length)
    (inside : base + row.length ≤ 32768) (own : FieldHash.hash name % 32768 = base) (other : row[0]? ≠ some name) :
    ∃ next, slots.take? name = some next ∧ next.order = mostOrder ∧ next.crowding = .crowded ∧
      next.names.length = row.length + 1 := by
  simp only [mostMoved] at long
  have size : slots.count = 32768 := by rw [count, inRow.order, most_slots]
  have first : row[0]? = some row[0] := List.getElem?_eq_getElem (by omega)
  have second : row[1]? = some row[1] := List.getElem?_eq_getElem (by omega)
  have apart : row[0] ≠ name := fun same => other (first.trans (congrArg some same))
  have beside : slots.placeOf name 1 = base + 1 := by
    rw [placeOf_eq inRow.order]
    omega
  have sought : slots.seek name slots.count 0 = .held (base + 1) 1 := by
    rw [size, seek, placeOf_eq inRow.order, Nat.add_zero, own, ← Nat.add_zero base, inRow.standing, first]
    dsimp only
    rw [inRow.stepsTo first, if_neg (Nat.lt_irrefl 0), if_neg apart, seek, beside,
      inRow.standing, second]
    dsimp only
    rw [inRow.stepsTo second, if_pos Nat.zero_lt_one]
  have moved : mostMoved ≤ slots.run slots.count (base + 1) := inRow.le_run inside (by simp only [mostMoved]; omega)
    (by simp only [mostMoved, size]; decide)
  refine ⟨slots.enter name, ?_, ?_⟩
  · rw [Slots.take?, inRow.prepare? fewer, Option.map_some]
  · rw [enter, if_neg (by simp [inRow.loose]), sought]
    exact ⟨inRow.order, if_pos (.inr moved), congrArg (· + 1) inRow.length⟩

/-- There are more names that no collection takes: where as many stand in a row as are few, but for one, another one that
belongs in the first slot of the row is the last that is taken. -/
theorem holds_of_row {room : Nat} (large : 12288 < room) (made : room ≤ Head.maxFields) (length : row.length + 1 = few)
    (own : ∀ index name, row[index]? = some name → FieldHash.hash name % 32768 = base + index)
    (first : FieldHash.hash name % 32768 = base) (other : row[0]? ≠ some name) (last : FieldName) :
    holds room (row ++ [name]) = true ∧ holds room (row ++ [name, last]) = false := by
  have count : row.length = 6553 := Nat.succ.inj length
  have inside : base + row.length ≤ 32768 := by
    have final := own 6552 row[6552] (List.getElem?_eq_getElem (by omega))
    omega
  have empty : InRow ⟨mostOrder, [], [], .loose⟩ base [] := ⟨rfl, rfl, rfl, by simp, by simp [standing?]⟩
  obtain ⟨standing, taken, inRow⟩ := empty.foldlM_take? (by rw [← length]; simp) fun index name found =>
    (own index name found).trans (by simp)
  obtain ⟨crowded, moved, most, crowds, many⟩ := inRow.crowds (by simp [few, count]) (by simp [mostMoved, count]) inside
    first other
  have filled : filled? room (row ++ [name]) = some crowded := by
    rw [filled?_append_singleton, filled?, new?_eq_most large made, Option.bind_some, taken, Option.bind_some, moved]
  constructor
  · rw [holds, filled]
    rfl
  · have full : crowded.take? last = none := by
      rw [Slots.take?, Slots.prepare?, if_pos crowds, if_pos, grow?, if_neg, Option.map_none]
      · simp [most]
      · rw [Slots.count, most, most_slots, many, List.nil_append, count]
        decide
    rw [holds, show row ++ [name, last] = (row ++ [name]) ++ [last] by simp, filled?_append_singleton, filled,
      Option.bind_some, full]
    rfl

end Slots

end HttpService
