import HttpService.Message.Field
import Mathlib.Algebra.BigOperators.Group.Finset.Basic

/-! What a collection of fields holds for a name, after each change of it, and how much it holds in all. -/

namespace HttpService

namespace Fields

theorem contains_iff (fields : Fields) (name : FieldName) :
    fields.contains name = true ↔ fields.values name ≠ [] := by
  rw [contains, values, List.any_eq_true, ← List.find?_isSome]
  cases fields.entries.find? fun field => field.name == name with
  | none => simp
  | some field => simp [Field.values]

theorem values_update {fields : Fields} {name : FieldName} {change : Field → Field}
    (keepsName : ∀ field, (change field).name = field.name) (other : FieldName) :
    (fields.update name change keepsName).values other =
      if other = name then
        ((fields.entries.find? fun field => field.name == name).map fun field => (change field).values).getD []
      else fields.values other := by
  simp only [values, update, List.find?_map]
  have sameName : (fun field : Field => field.name == other) ∘
      (fun field => if field.name == name then change field else field) = fun field => field.name == other := by
    funext field
    by_cases named : field.name = name
    · simp [named, keepsName]
    · simp [named]
  rw [sameName]
  cases found : fields.entries.find? fun field => field.name == other with
  | none =>
      by_cases same : other = name
      · subst same
        simp [found]
      · simp [same]
  | some field =>
      have named : field.name = other := by simpa using List.find?_some found
      by_cases same : other = name
      · subst same
        simp [found, named]
      · simp [same, named]

theorem values_extend {fields : Fields} {name : FieldName} (value : FieldValue) (fresh : ¬fields.contains name = true)
    (other : FieldName) :
    (fields.extend name value fresh).values other = if other = name then [value] else fields.values other := by
  simp only [values, extend, List.find?_append]
  by_cases same : other = name
  · subst same
    have absent : fields.entries.find? (fun field => field.name == other) = none := by
      rw [List.find?_eq_none]
      intro field member named
      exact fresh (List.any_eq_true.mpr ⟨field, member, named⟩)
    simp [absent, Field.values]
  · have apart : name ≠ other := Ne.symm same
    cases fields.entries.find? fun field => field.name == other with
    | none => simp [same, apart]
    | some field => simp [same]

theorem values_insert (fields : Fields) (name : FieldName) (value : FieldValue) (other : FieldName) :
    (fields.insert name value).values other = if other = name then [value] else fields.values other := by
  rw [insert]
  split
  · rename_i present
    rw [values_update]
    by_cases same : other = name
    · rw [contains_iff, values] at present
      cases found : fields.entries.find? fun field => field.name == name with
      | none => simp [found] at present
      | some field => simp [same, Field.values]
    · simp [same]
  · exact values_extend ..

theorem values_append (fields : Fields) (name : FieldName) (value : FieldValue) (other : FieldName) :
    (fields.append name value).values other =
      if other = name then fields.values other ++ [value] else fields.values other := by
  rw [append]
  split
  · rename_i present
    rw [values_update]
    by_cases same : other = name
    · subst same
      rw [contains_iff, values] at present
      cases found : fields.entries.find? fun field => field.name == other with
      | none => simp [found] at present
      | some field => simp [values, found, Field.values]
    · simp [same]
  · rename_i absent
    rw [values_extend]
    rw [contains_iff, ne_eq, Decidable.not_not] at absent
    by_cases same : other = name
    · simp [same, absent]
    · simp [same]

theorem values_foldl_append (lines : List (FieldName × FieldValue)) (fields : Fields) (name : FieldName) :
    (lines.foldl (fun known line => known.append line.1 line.2) fields).values name =
      fields.values name ++ (lines.filter fun line => line.1 == name).map Prod.snd := by
  induction lines generalizing fields with
  | nil => simp
  | cons line later ih =>
      rw [List.foldl_cons, ih, values_append]
      by_cases same : line.1 = name
      · simp [same]
      · simp [same, Ne.symm same]

theorem values_ofList (lines : List (FieldName × FieldValue)) (name : FieldName) :
    (ofList lines).values name = (lines.filter fun line => line.1 == name).map Prod.snd :=
  values_foldl_append lines empty name

theorem values_of_mem {fields : Fields} {field : Field} (member : field ∈ fields.entries) :
    fields.values field.name = field.values := by
  cases found : fields.entries.find? fun other => other.name == field.name with
  | none =>
      have other := List.find?_eq_none.mp found field member
      simp at other
  | some other =>
      have named : other.name = field.name := by simpa using List.find?_some found
      have same := List.inj_on_of_nodup_map fields.distinct (List.mem_of_find?_eq_some found) member named
      rw [values, found, ← same]

theorem values_of_not_mem {fields : Fields} {name : FieldName} (absent : name ∉ fields.names) :
    fields.values name = [] := by
  have none : fields.entries.find? (fun field => field.name == name) = none := by
    rw [List.find?_eq_none]
    intro field member named
    exact absent (List.mem_map.mpr ⟨field, member, by simpa using named⟩)
  rw [values, none]

theorem mem_erase {fields : Fields} {name : FieldName} {field : Field} :
    field ∈ (fields.erase name).entries ↔ field ∈ fields.entries ∧ field.name ≠ name := by
  rw [erase, (swapRemove_perm_eraseP (fun field : Field => field.name == name) fields.entries).mem_iff]
  by_cases named : field.name = name
  · simp only [named, ne_eq, not_true_eq_false, and_false, iff_false]
    intro member
    obtain ⟨gone, front, back, _, passes, whole, left⟩ := @List.exists_of_eraseP Field (fun field => field.name == name)
      _ _ (List.mem_of_mem_eraseP member) (beq_iff_eq.mpr named)
    have distinct := fields.distinct
    rw [whole, List.map_append, List.map_cons, List.nodup_middle, ← List.map_append, List.nodup_cons] at distinct
    exact distinct.1 (List.mem_map.mpr ⟨field, left ▸ member, named.trans (beq_iff_eq.mp passes).symm⟩)
  · rw [List.mem_eraseP_of_neg (by simpa using named)]
    simp [named]

theorem values_erase (fields : Fields) (name other : FieldName) :
    (fields.erase name).values other = if other = name then [] else fields.values other := by
  split
  · rename_i same
    apply values_of_not_mem
    intro member
    obtain ⟨field, inside, named⟩ := List.mem_map.mp member
    exact (mem_erase.mp inside).2 (named.trans same)
  · rename_i different
    by_cases known : other ∈ fields.names
    · obtain ⟨field, inside, rfl⟩ := List.mem_map.mp known
      rw [values_of_mem inside, values_of_mem (mem_erase.mpr ⟨inside, different⟩)]
    · rw [values_of_not_mem known, values_of_not_mem]
      intro member
      obtain ⟨field, inside, named⟩ := List.mem_map.mp member
      exact known (List.mem_map.mpr ⟨field, (mem_erase.mp inside).1, named⟩)

theorem size_eq_sum (fields : Fields) :
    fields.size = ∑ name ∈ fields.names.toFinset, (fields.values name).length := by
  have each : fields.names.map (fun name => (fields.values name).length) =
      fields.entries.map fun field => field.values.length := by
    rw [names, List.map_map]
    exact List.map_congr_left fun field member => congrArg List.length (values_of_mem member)
  have distinct : fields.names.Nodup := fields.distinct
  rw [List.sum_toFinset _ distinct, each, size, toList, List.length_flatMap]
  simp only [List.length_map]

theorem size_add_of_agree {first second : Fields} {name : FieldName}
    (agree : ∀ other, other ≠ name → first.values other = second.values other) :
    first.size + (second.values name).length = second.size + (first.values name).length := by
  have size_of (fields : Fields) {all : Finset FieldName} (inside : fields.names.toFinset ⊆ all) (here : name ∈ all) :
      fields.size = (fields.values name).length + ∑ other ∈ all.erase name, (fields.values other).length := by
    rw [size_eq_sum, Finset.add_sum_erase all (fun other => (fields.values other).length) here]
    refine Finset.sum_subset inside fun other _ absent => ?_
    rw [values_of_not_mem (by simpa using absent), List.length_nil]
  have rest (all : Finset FieldName) : ∑ other ∈ all.erase name, (first.values other).length =
      ∑ other ∈ all.erase name, (second.values other).length :=
    Finset.sum_congr rfl fun other inside => congrArg List.length (agree other (Finset.ne_of_mem_erase inside))
  have here := Finset.mem_insert_self name (first.names.toFinset ∪ second.names.toFinset)
  rw [size_of first (Finset.subset_union_left.trans (Finset.subset_insert ..)) here,
    size_of second (Finset.subset_union_right.trans (Finset.subset_insert ..)) here, rest]
  omega

end Fields

end HttpService
