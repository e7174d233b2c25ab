/-! Socket addresses: how they are written, and how a listen address is read. -/

namespace HttpService

structure Ipv4 where
  first : UInt8
  second : UInt8
  third : UInt8
  fourth : UInt8
deriving DecidableEq

structure Ipv6 where
  groups : List UInt16
deriving DecidableEq

inductive SocketAddress
  | v4 (host : Ipv4) (service : UInt16)
  | v6 (host : Ipv6) (scope : UInt32) (service : UInt16)
deriving DecidableEq

namespace Ipv4

def text (host : Ipv4) : String :=
  s!"{host.first.toNat}.{host.second.toNat}.{host.third.toNat}.{host.fourth.toNat}"

end Ipv4

namespace Ipv6

def hex (group : UInt16) : String := String.ofList (Nat.toDigits 16 group.toNat)

def join (groups : List UInt16) : String := String.intercalate ":" (groups.map hex)

def leadingZeros (groups : List UInt16) : Nat := (groups.takeWhile (· == 0)).length

def longestZeros : Nat → List UInt16 → Nat × Nat
  | _, [] => (0, 0)
  | index, group :: rest =>
    let later := longestZeros (index + 1) rest
    let here := leadingZeros (group :: rest)
    if here ≠ 0 ∧ later.2 ≤ here then (index, here) else later

def text (host : Ipv6) : String :=
  match host.groups with
  | [0, 0, 0, 0, 0, 0xFFFF, high, low] =>
    s!"::ffff:{high.toNat / 256}.{high.toNat % 256}.{low.toNat / 256}.{low.toNat % 256}"
  | groups =>
    let zeros := longestZeros 0 groups
    if zeros.2 ≤ 1 then join groups
    else s!"{join (groups.take zeros.1)}::{join (groups.drop (zeros.1 + zeros.2))}"

end Ipv6

namespace SocketAddress

def text : SocketAddress → String
  | v4 host service => s!"{host.text}:{service.toNat}"
  | v6 host scope service =>
    if scope = 0 then s!"[{host.text}]:{service.toNat}"
    else s!"[{host.text}%{scope.toNat}]:{service.toNat}"

/-! Reading. Every reader takes what it can from the front of the text and gives back what is left. -/

abbrev Reader (α : Type) := List Char → Option (α × List Char)

def digitValue? (radix : Nat) (character : Char) : Option Nat :=
  let value :=
    if character.isDigit then some (character.toNat - '0'.toNat)
    else if 'a' ≤ character ∧ character ≤ 'f' then some (character.toNat - 'a'.toNat + 10)
    else if 'A' ≤ character ∧ character ≤ 'F' then some (character.toNat - 'A'.toNat + 10)
    else none
  value.filter (· < radix)

def readChar (expected : Char) : Reader Unit
  | [] => none
  | character :: rest => if character = expected then some ((), rest) else none

/-- All the digits at the front: at least one, at most `maxDigits` if that is given, below `bound`, and
without a leading zero unless that is allowed. -/
def readNumber (radix : Nat) (maxDigits : Option Nat) (leadingZero : Bool) (bound : Nat) : Reader Nat :=
  fun content =>
    let digits := content.takeWhile fun character => (digitValue? radix character).isSome
    let value := (digits.filterMap (digitValue? radix)).foldl (fun total digit => total * radix + digit) 0
    if digits.isEmpty || maxDigits.any (· < digits.length) || bound ≤ value ||
        (!leadingZero && decide (1 < digits.length) && digits.head? == some '0') then none
    else some (value, content.drop digits.length)

def readOctet : Reader UInt8 := fun content => do
  let (value, rest) ← readNumber 10 (some 3) false 256 content
  return (value.toUInt8, rest)

def readIpv4 : Reader Ipv4 := fun content => do
  let (first, rest) ← readOctet content
  let ((), rest) ← readChar '.' rest
  let (second, rest) ← readOctet rest
  let ((), rest) ← readChar '.' rest
  let (third, rest) ← readOctet rest
  let ((), rest) ← readChar '.' rest
  let (fourth, rest) ← readOctet rest
  return (⟨first, second, third, fourth⟩, rest)

def join16 (high low : UInt8) : UInt16 := high.toUInt16 * 256 + low.toUInt16

def readGroups : Nat → Bool → List Char → List UInt16 × Bool × List Char
  | 0, _, content => ([], false, content)
  | room + 1, started, content =>
    match if started then readChar ':' content else some ((), content) with
    | none => ([], false, content)
    | some (_, rest) =>
      match if room = 0 then none else readIpv4 rest with
      | some (host, rest) => ([join16 host.first host.second, join16 host.third host.fourth], true, rest)
      | none =>
        match readNumber 16 (some 4) true 65536 rest with
        | none => ([], false, content)
        | some (value, rest) =>
          let (groups, older, rest) := readGroups room true rest
          (value.toUInt16 :: groups, older, rest)

def readIpv6 : Reader Ipv6 := fun content => do
  let (front, older, rest) := readGroups 8 false content
  if front.length = 8 then return (⟨front⟩, rest)
  if older then none
  let ((), rest) ← readChar ':' rest
  let ((), rest) ← readChar ':' rest
  let (back, _, rest) := readGroups (7 - front.length) false rest
  return (⟨front ++ List.replicate (8 - front.length - back.length) 0 ++ back⟩, rest)

def readService : Reader UInt16 := fun content => do
  let ((), rest) ← readChar ':' content
  let (value, rest) ← readNumber 10 none true 65536 rest
  return (value.toUInt16, rest)

def readV4 : Reader SocketAddress := fun content => do
  let (host, rest) ← readIpv4 content
  let (service, rest) ← readService rest
  return (v4 host service, rest)

def readScope : Reader UInt32 := fun content => do
  let ((), rest) ← readChar '%' content
  let (value, rest) ← readNumber 10 none true 4294967296 rest
  return (value.toUInt32, rest)

def readV6 : Reader SocketAddress := fun content => do
  let ((), rest) ← readChar '[' content
  let (host, rest) ← readIpv6 rest
  let (scope, rest) := (readScope rest).getD (0, rest)
  let ((), rest) ← readChar ']' rest
  let (service, rest) ← readService rest
  return (v6 host scope service, rest)

def complete {α : Type} (reader : Reader α) (content : List Char) : Option α :=
  match reader content with
  | some (value, []) => some value
  | _ => none

def ofText? (text : String) : Option SocketAddress :=
  (complete readV4 text.toList).orElse fun _ => complete readV6 text.toList

def splitService? (content : List Char) : Option (List Char × UInt16) :=
  let after := (content.reverse.takeWhile (· ≠ ':')).reverse
  if content.length ≤ after.length then none
  else
    let digits := if after.head? = some '+' then after.drop 1 else after
    (complete (readNumber 10 none true 65536) digits).map fun value =>
      (content.take (content.length - after.length - 1), value.toUInt16)

/-- The address to listen on. A missing host means every address of this machine; a host must be a literal,
since names are not looked up. -/
def ofListenText? (text : String) : Option SocketAddress :=
  let content := if text.toList.head? = some ':' then "0.0.0.0".toList ++ text.toList else text.toList
  match ofText? (String.ofList content) with
  | some address => some address
  | none =>
    match splitService? content with
    | none => none
    | some (host, service) =>
      match complete readIpv4 host with
      | some literal => some (v4 literal service)
      | none => (complete readIpv6 host).map fun literal => v6 literal 0 service

end SocketAddress

end HttpService
