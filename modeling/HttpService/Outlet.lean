import HttpService.Bytes
import HttpService.IoError

/-! The writing side of a stream: how much it takes, and when it fails. -/

namespace HttpService

/-- A policy answers, for the number of bytes taken so far, how many more one write may take, or how it fails. A write
that is interrupted takes nothing and is tried again; the policy tells of the write that is not. -/
structure Outlet where
  policy : Nat → Except IoError Nat
  /-- How the flushes to come fail, the next one first. -/
  flushFailure : Nat → Option IoError
  taken : Bytes
  flushes : Nat

namespace Outlet

def unlimited : Outlet := ⟨fun _ => .ok UInt64.size, fun _ => none, [], 0⟩

/-- A stream that takes at most `most` bytes in one write if that is given, and fails every write once it has
taken the bytes of the failure. Its flushes are all alike. -/
def limited (most : Option Nat) (failure : Option (Nat × IoError)) (flushFailure : Option IoError) : Outlet where
  policy := fun taken =>
    let perWrite := most.getD UInt64.size
    match failure with
    | none => .ok perWrite
    | some (total, error) => if total ≤ taken then .error error else .ok (min perWrite (total - taken))
  flushFailure := fun _ => flushFailure
  taken := []
  flushes := 0

/-- How many bytes a stream has taken once it has been offered `left` more, in one write after another, and how
that ends. A stream that takes no byte any more fails. -/
def accept (policy : Nat → Except IoError Nat) (taken left : Nat) : Nat × Except IoError Unit :=
  if left = 0 then (taken, .ok ())
  else
    match policy taken with
    | .error error => (taken, .error error)
    | .ok 0 => (taken, .error .nothingWritten)
    | .ok (more + 1) => accept policy (taken + min (more + 1) left) (left - (more + 1))
termination_by left
decreasing_by omega

def writeAll (outlet : Outlet) (content : Bytes) : Except IoError Unit × Outlet :=
  let before := outlet.taken.length
  let (after, result) := accept outlet.policy before content.length
  (result, { outlet with taken := outlet.taken ++ content.take (after - before) })

def flush (outlet : Outlet) : Except IoError Unit × Outlet :=
  let failure := outlet.flushFailure 0
  (match failure with
    | some error => .error error
    | none => .ok (),
    { outlet with
      flushFailure := fun count => outlet.flushFailure (count + 1)
      flushes := outlet.flushes + if failure.isSome then 0 else 1 })

end Outlet

end HttpService
