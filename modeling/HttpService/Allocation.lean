/-! How much memory can be asked for at once. -/

namespace HttpService

namespace Allocation

def most : Nat := 0x7FFFFFFFFFFFFFFF

def overflow : String := "capacity overflow"

/-- Asks for room for `count` items of `size` bytes, and panics where that cannot be named. -/
def reserve (count size : Nat) : Except String Unit := if most < count * size then .error overflow else .ok ()

theorem reserve_of_le {count size : Nat} (fits : count * size ≤ most) : reserve count size = .ok () := by
  simp only [reserve, Nat.not_lt.mpr fits, ↓reduceIte]

end Allocation

end HttpService
