import HttpService.Bytes

/-! Header fields: names that ignore case, values of opaque bytes, and the collection of them that a message
carries. -/

namespace HttpService

structure FieldName where
  bytes : Bytes
  wellFormed : (!bytes.isEmpty && decide (bytes.length ≤ 65535) &&
    bytes.all fun byte => Ascii.isToken byte && Ascii.toLower byte == byte) = true
deriving DecidableEq

namespace FieldName

def isWellFormed (bytes : Bytes) : Bool :=
  !bytes.isEmpty && decide (bytes.length ≤ 65535) &&
    bytes.all fun byte => Ascii.isToken byte && Ascii.toLower byte == byte

def ofBytes? (spelling : Bytes) : Option FieldName :=
  if wellFormed : isWellFormed (Bytes.lower spelling) = true then some ⟨Bytes.lower spelling, wellFormed⟩
  else none

def text (name : FieldName) : String := name.bytes.toText

def connection : FieldName := ⟨Ascii.bytes "connection", by decide +kernel⟩
def contentLength : FieldName := ⟨Ascii.bytes "content-length", by decide +kernel⟩
def contentType : FieldName := ⟨Ascii.bytes "content-type", by decide +kernel⟩
def cookie : FieldName := ⟨Ascii.bytes "cookie", by decide +kernel⟩
def host : FieldName := ⟨Ascii.bytes "host", by decide +kernel⟩
def transferEncoding : FieldName := ⟨Ascii.bytes "transfer-encoding", by decide +kernel⟩
def userAgent : FieldName := ⟨Ascii.bytes "user-agent", by decide +kernel⟩

theorem ofBytes?_eq_some {spelling : Bytes} {name : FieldName} (accepted : ofBytes? spelling = some name) :
    name.bytes = Bytes.lower spelling := by
  simp only [ofBytes?] at accepted
  split at accepted
  · simp only [Option.some.injEq] at accepted
    rw [← accepted]
  · simp at accepted

theorem ofBytes?_lower (spelling : Bytes) : ofBytes? (Bytes.lower spelling) = ofBytes? spelling := by
  simp [ofBytes?, Bytes.lower_lower]

end FieldName

structure FieldValue where
  bytes : Bytes
  wellFormed : (bytes.all fun byte => (0x20 ≤ byte && byte != 0x7F) || byte == 0x09) = true
deriving DecidableEq

namespace FieldValue

def ofBytes? (bytes : Bytes) : Option FieldValue :=
  if wellFormed : (bytes.all fun byte => (0x20 ≤ byte && byte != 0x7F) || byte == 0x09) = true then
    some ⟨bytes, wellFormed⟩
  else none

def text? (value : FieldValue) : Option String :=
  if value.bytes.all Ascii.isVisible then some value.bytes.toText else none

theorem ofBytes?_eq_some {bytes : Bytes} {value : FieldValue} (accepted : ofBytes? bytes = some value) :
    value.bytes = bytes := by
  simp only [ofBytes?] at accepted
  split at accepted
  · simp only [Option.some.injEq] at accepted
    rw [← accepted]
  · simp at accepted

theorem ofBytes?_bytes (value : FieldValue) : ofBytes? value.bytes = some value := by
  simp [ofBytes?, value.wellFormed]

end FieldValue

/-- All the values of one name, which are never none. -/
structure Field where
  name : FieldName
  first : FieldValue
  rest : List FieldValue
deriving DecidableEq

def Field.values (field : Field) : List FieldValue := field.first :: field.rest

def swapRemove {α : Type} (test : α → Bool) : List α → List α
  | [] => []
  | entry :: rest =>
    if test entry then
      match rest.getLast? with
      | none => []
      | some last => last :: rest.dropLast
    else entry :: swapRemove test rest

theorem swapRemove_perm_eraseP {α : Type} (test : α → Bool) (entries : List α) :
    (swapRemove test entries).Perm (entries.eraseP test) := by
  induction entries with
  | nil => simp [swapRemove]
  | cons entry rest ih =>
      by_cases passes : test entry = true
      · simp only [swapRemove, passes, ↓reduceIte, List.eraseP_cons_of_pos]
        cases found : rest.getLast? with
        | none => simp [List.getLast?_eq_none_iff.mp found]
        | some last =>
            obtain ⟨front, rfl⟩ := List.getLast?_eq_some_iff.mp found
            simp only [List.dropLast_concat]
            exact (List.perm_append_comm : (front ++ [last]).Perm ([last] ++ front)).symm
      · simp only [swapRemove, passes, Bool.false_eq_true, ↓reduceIte, not_false_eq_true,
          List.eraseP_cons_of_neg]
        exact ih.cons entry

/-- The fields of a message: each name once, in the order in which the names came. -/
structure Fields where
  entries : List Field
  distinct : (entries.map Field.name).Nodup
deriving DecidableEq

namespace Fields

def empty : Fields := ⟨[], List.nodup_nil⟩

def names (fields : Fields) : List FieldName := fields.entries.map Field.name

def values (fields : Fields) (name : FieldName) : List FieldValue :=
  match fields.entries.find? fun field => field.name == name with
  | none => []
  | some field => field.values

def first? (fields : Fields) (name : FieldName) : Option FieldValue := (fields.values name).head?

def contains (fields : Fields) (name : FieldName) : Bool :=
  fields.entries.any fun field => field.name == name

def toList (fields : Fields) : List (FieldName × FieldValue) :=
  fields.entries.flatMap fun field => field.values.map fun value => (field.name, value)

def size (fields : Fields) : Nat := fields.toList.length

def update (fields : Fields) (name : FieldName) (change : Field → Field)
    (keepsName : ∀ field, (change field).name = field.name) : Fields where
  entries := fields.entries.map fun field => if field.name == name then change field else field
  distinct := by
    have same : (fields.entries.map fun field => if field.name == name then change field else field).map
        Field.name = fields.entries.map Field.name := by
      rw [List.map_map]
      apply List.map_congr_left
      intro field _
      simp only [Function.comp_apply]
      split
      · exact keepsName field
      · rfl
    rw [same]
    exact fields.distinct

def extend (fields : Fields) (name : FieldName) (value : FieldValue)
    (fresh : ¬fields.contains name = true) : Fields where
  entries := fields.entries ++ [⟨name, value, []⟩]
  distinct := by
    rw [List.map_append, List.nodup_append]
    refine ⟨fields.distinct, by simp, ?_⟩
    intro known member other single
    simp only [List.map_cons, List.map_nil, List.mem_singleton] at single
    subst single
    intro equal
    subst equal
    obtain ⟨field, inside, named⟩ := List.mem_map.mp member
    exact fresh (List.any_eq_true.mpr ⟨field, inside, by simp [named]⟩)

/-- What the collection holds once the call has returned: the name has this one value, and keeps its place if it was
there. Whether the call returns is told by `Slots`. -/
def insert (fields : Fields) (name : FieldName) (value : FieldValue) : Fields :=
  if present : fields.contains name = true then
    fields.update name (fun field => { field with first := value, rest := [] }) fun _ => rfl
  else fields.extend name value present

/-- What the collection holds once the call has returned: the name has this value after those that it had. Whether the
call returns is told by `Slots`. -/
def append (fields : Fields) (name : FieldName) (value : FieldValue) : Fields :=
  if present : fields.contains name = true then
    fields.update name (fun field => { field with rest := field.rest ++ [value] }) fun _ => rfl
  else fields.extend name value present

def erase (fields : Fields) (name : FieldName) : Fields where
  entries := swapRemove (fun field => field.name == name) fields.entries
  distinct := by
    have permuted := (swapRemove_perm_eraseP (fun field : Field => field.name == name) fields.entries).map Field.name
    refine permuted.nodup_iff.mpr ?_
    exact fields.distinct.sublist (List.Sublist.map _ List.eraseP_sublist)

def ofList (lines : List (FieldName × FieldValue)) : Fields :=
  lines.foldl (fun fields line => fields.append line.1 line.2) empty

def lookup? (fields : Fields) (key : Bytes) : Option FieldValue :=
  (FieldName.ofBytes? key).bind fields.first?

end Fields

end HttpService
