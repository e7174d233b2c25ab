import HttpService.Bytes

/-! Decimal numbers of 64 bits, as the wire writes them. -/

namespace HttpService

namespace Decimal

def limit : Nat := UInt64.size

def shift? (value : Nat) (byte : UInt8) : Option Nat :=
  if !Ascii.isDigit byte then none
  else if limit ≤ value * 10 then none
  else if limit ≤ value * 10 + (byte.toNat - 0x30) then none
  else some (value * 10 + (byte.toNat - 0x30))

/-- The number that the bytes write: digits only, at least one, and a value of 64 bits. -/
def ofBytes? (content : Bytes) : Option Nat :=
  if content.isEmpty then none else content.foldlM shift? 0

def toBytes (number : Nat) : Bytes := (Nat.toDigits 10 number).map fun digit => digit.toNat.toUInt8

theorem toBytes_ne_nil (number : Nat) : toBytes number ≠ [] := by
  simp [toBytes, Nat.toDigits_ne_nil]

end Decimal

end HttpService
