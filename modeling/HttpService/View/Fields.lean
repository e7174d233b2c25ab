import HttpService.Message.Field
import HttpService.Utf8
import HttpService.View.Error

/-! A view of header fields that someone else owns: those of a request can be read, those of a response can be
changed until the view is locked. -/

namespace HttpService

inductive FieldsSource
  | unbound
  | shared (fields : Fields)
  | exclusive (fields : Fields)
deriving DecidableEq

structure FieldsView where
  source : FieldsSource
  locked : Bool
  keys : List String
  keysValid : Bool
deriving DecidableEq

namespace FieldsView

def unbound : FieldsView := ⟨.unbound, false, [], false⟩

def rebind (_ : FieldsView) (source : FieldsSource) : FieldsView := ⟨source, false, [], false⟩

def bind (view : FieldsView) (fields : Fields) : FieldsView := view.rebind (.shared fields)

def bindExclusive (view : FieldsView) (fields : Fields) : FieldsView := view.rebind (.exclusive fields)

def release (view : FieldsView) : FieldsView := view.rebind .unbound

def lock (view : FieldsView) : FieldsView := { view with locked := true }

def fields? (view : FieldsView) : Option Fields :=
  match view.source with
  | .unbound => none
  | .shared fields => some fields
  | .exclusive fields => some fields

def isBound (view : FieldsView) : Bool := view.fields?.isSome

def exclusive? (view : FieldsView) : Option Fields :=
  match view.source with
  | .exclusive fields => some fields
  | _ => none

def replaceExclusive (view : FieldsView) (fields : Fields) : FieldsView :=
  match view.source with
  | .exclusive _ => { view with source := .exclusive fields, keysValid := false }
  | _ => view

def fieldsToChange (view : FieldsView) : Except FieldError Fields :=
  if view.locked then .error .committed
  else
    match view.source with
    | .unbound => .error .unbound
    | .shared _ => .error .readOnly
    | .exclusive fields => .ok fields

def readName (key : String) : Except FieldError FieldName :=
  match FieldName.ofBytes? (Utf8.encode key) with
  | some name => .ok name
  | none => .error (.invalidName key)

def readLine (key value : String) : Except FieldError (FieldName × FieldValue) := do
  let name ← readName key
  match FieldValue.ofBytes? (Utf8.encode value) with
  | some value => .ok (name, value)
  | none => .error (.invalidValue key)

/-- Carries out a change of the fields. What it refuses leaves them as they are; the names that were listed no
longer stand as soon as the fields could be changed at all. -/
def change (view : FieldsView) (edit : Fields → Except FieldError Fields) :
    Except FieldError Unit × FieldsView :=
  match view.fieldsToChange with
  | .error error => (.error error, view)
  | .ok fields =>
    match edit fields with
    | .error error => (.error error, { view with keysValid := false })
    | .ok fields => (.ok (), { view with source := .exclusive fields, keysValid := false })

def set (view : FieldsView) (key value : String) : Except FieldError Unit × FieldsView :=
  view.change fun fields => do
    let (name, value) ← readLine key value
    return fields.insert name value

def add (view : FieldsView) (key value : String) : Except FieldError Unit × FieldsView :=
  view.change fun fields => do
    let (name, value) ← readLine key value
    return fields.append name value

def del (view : FieldsView) (key : String) : Except FieldError Unit × FieldsView :=
  view.change fun fields => do
    let name ← readName key
    return fields.erase name

/-- The first value of a key, if it is visible ASCII. -/
def get? (view : FieldsView) (key : String) : Option String := do
  let fields ← view.fields?
  let value ← fields.lookup? (Utf8.encode key)
  value.text?

def contains (view : FieldsView) (key : String) : Bool :=
  match view.fields?, FieldName.ofBytes? (Utf8.encode key) with
  | some fields, some name => fields.contains name
  | _, _ => false

def size (view : FieldsView) : Nat := (view.fields?.map Fields.size).getD 0

def currentKeys (view : FieldsView) : List String :=
  match view.fields? with
  | none => []
  | some fields => fields.names.map FieldName.text

def listKeys (view : FieldsView) : List String × FieldsView :=
  if view.keysValid then (view.keys, view)
  else (view.currentKeys, { view with keys := view.currentKeys, keysValid := true })

end FieldsView

inductive FieldsOp
  | get (key : String)
  | contains (key : String)
  | keys
  | size
  | isEmpty
  | set (key value : String)
  | add (key value : String)
  | del (key : String)
deriving DecidableEq

namespace FieldsOp

abbrev Answer : FieldsOp → Type
  | get _ => Option String
  | contains _ => Bool
  | keys => List String
  | size => Nat
  | isEmpty => Bool
  | set _ _ => Except FieldError Unit
  | add _ _ => Except FieldError Unit
  | del _ => Except FieldError Unit

def perform (view : FieldsView) : (op : FieldsOp) → op.Answer × FieldsView
  | get key => (view.get? key, view)
  | contains key => (view.contains key, view)
  | keys => view.listKeys
  | size => (view.size, view)
  | isEmpty => (view.size == 0, view)
  | set key value => view.set key value
  | add key value => view.add key value
  | del key => view.del key

def failure? : (op : FieldsOp) → op.Answer → Option FieldError
  | set _ _, .error error => some error
  | add _ _, .error error => some error
  | del _, .error error => some error
  | _, _ => none

end FieldsOp

end HttpService
