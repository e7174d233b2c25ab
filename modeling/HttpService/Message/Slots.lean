import HttpService.Message.Field

/-! The slots that the names of a collection stand in. Where names crowd, the collection wants more slots before it takes
another name, and it takes none where it cannot have them. -/

namespace HttpService

/-- How a collection spreads names over its slots. Nothing is known of it but that it depends on the name. -/
class FieldHash where
  hash : FieldName → Nat

namespace FieldHash

def fnv (content : Bytes) : Nat :=
  content.foldl (fun hash byte => Nat.xor hash byte.toNat * 0x100000001B3 % UInt64.size) 0xCBF29CE484222325

instance : FieldHash := ⟨fun name => fnv (1 :: List.replicate 7 0 ++ name.bytes)⟩

end FieldHash

inductive Crowding
  | loose
  | crowded
  /-- The names are spread in another way, which is secret, and are not moved any more because of where they stand. -/
  | scattered
deriving DecidableEq

/-- The slots are a power of two. The places are those of names that are not scattered. -/
structure Slots where
  order : Nat
  names : List FieldName
  places : List (Nat × FieldName)
  crowding : Crowding
deriving DecidableEq

namespace Slots

def overflow : String := "size overflows MAX_SIZE: MaxSizeReached"

def mostOrder : Nat := 15

/-- A name that is to move so many others has found a crowd, and so has one that is to stand so far behind its own slot. -/
def mostMoved : Nat := 128
def mostSteps : Nat := 512

def count (slots : Slots) : Nat := Nat.pow 2 slots.order

def room (slots : Slots) : Nat := slots.count - slots.count / 4

def new? (names : Nat) : Option Slots :=
  let order? := if names = 0 then some 3 else
    (List.range (mostOrder + 1)).find? fun order => names + names / 3 ≤ Nat.pow 2 order
  order?.map fun order => ⟨order, [], [], .loose⟩

def standing? (slots : Slots) (place : Nat) : Option FieldName :=
  (slots.places.find? fun entry => entry.1 == place).map Prod.snd

def run (slots : Slots) : Nat → Nat → Nat
  | 0, _ => 0
  | left + 1, place => if (slots.standing? (place % slots.count)).isSome then run slots left (place + 1) + 1 else 0

variable [FieldHash]

def placeOf (slots : Slots) (name : FieldName) (steps : Nat) : Nat := (FieldHash.hash name + steps) % slots.count

def stepsTo (slots : Slots) (name : FieldName) (place : Nat) : Nat :=
  (place + slots.count - slots.placeOf name 0) % slots.count

inductive Seat
  | known
  | free (place : Nat)
  | held (place steps : Nat)
deriving DecidableEq

/-- Where the name stands or is to stand, if it is not in the slots before. -/
def seek (slots : Slots) (name : FieldName) : Nat → Nat → Seat
  | 0, steps => .free (slots.placeOf name steps)
  | left + 1, steps =>
    let place := slots.placeOf name steps
    match slots.standing? place with
    | none => .free place
    | some other =>
      if slots.stepsTo other place < steps then .held place steps
      else if other = name then .known
      else seek slots name left (steps + 1)

def push (slots : Slots) (place : Nat) (name : FieldName) (row : Nat) : List (Nat × FieldName) :=
  (place, name) :: slots.places.map fun entry =>
    if (entry.1 + slots.count - place) % slots.count < row then ((entry.1 + 1) % slots.count, entry.2) else entry

def enter (slots : Slots) (name : FieldName) : Slots :=
  if slots.crowding = .scattered then
    if slots.names.contains name then slots else { slots with names := name :: slots.names }
  else
    match slots.seek name slots.count 0 with
    | .known => slots
    | .free place => { slots with names := name :: slots.names, places := (place, name) :: slots.places }
    | .held place steps =>
      let row := slots.run slots.count place
      { slots with
        names := name :: slots.names
        places := slots.push place name row
        crowding := if mostSteps ≤ steps ∨ mostMoved ≤ row then .crowded else slots.crowding }

def inOrder (slots : Slots) : List FieldName :=
  let places := List.range slots.count
  let first := places.find? fun place => (slots.standing? place).any fun name => slots.stepsTo name place = 0
  places.filterMap fun place => slots.standing? ((first.getD 0 + place) % slots.count)

def settle (slots : Slots) (name : FieldName) : Slots :=
  { slots with places := (slots.placeOf name (slots.run slots.count (slots.placeOf name 0)), name) :: slots.places }

def grow? (slots : Slots) : Option Slots :=
  if slots.order < mostOrder then
    some (slots.inOrder.foldl settle { slots with order := slots.order + 1, places := [] })
  else none

/-- Makes room for one name more. Names that crowd get more slots where they are many for the slots that there are, and
are scattered where they are few. -/
def prepare? (slots : Slots) : Option Slots :=
  if slots.crowding = .crowded then
    if slots.count ≤ 5 * slots.names.length then grow? { slots with crowding := .loose }
    else some { slots with crowding := .scattered, places := [] }
  else if slots.names.length = slots.room then slots.grow?
  else some slots

def take? (slots : Slots) (name : FieldName) : Option Slots := slots.prepare?.map fun ready => ready.enter name

/-- What is left of a collection that is made with room for `room` names and takes these, one after another. -/
def filled? (room : Nat) (names : List FieldName) : Option Slots :=
  (new? room).bind fun slots => names.foldlM take? slots

def holds (room : Nat) (names : List FieldName) : Bool := (filled? room names).isSome

end Slots

end HttpService
