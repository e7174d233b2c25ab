/-! How much one request, one connection and one server may take. -/

namespace HttpService

structure RequestLimits where
  targetLength : Nat := 2048
  fieldCount : Nat := 32
  fieldNameLength : Nat := 64
  fieldValueLength : Nat := 1024
  bodyLength : Nat := 65536
deriving DecidableEq

namespace RequestLimits

def word (size : Nat) : Nat := size % UInt64.size

theorem word_of_lt {size : Nat} (fits : size < UInt64.size) : word size = size := Nat.mod_eq_of_lt fits

def firstLine (limits : RequestLimits) : Nat := word (19 + limits.targetLength)

def fieldLine (limits : RequestLimits) : Nat :=
  word (word (limits.fieldNameLength + limits.fieldValueLength) + 4)

/-- The room for a whole head: the first line, the field lines, and the empty line after them. -/
def headLength (limits : RequestLimits) : Nat :=
  word (word (limits.firstLine + word (limits.fieldCount * limits.fieldLine)) + 2)

theorem headLength_eq (limits : RequestLimits)
    (fits : 19 + limits.targetLength +
      limits.fieldCount * (limits.fieldNameLength + limits.fieldValueLength + 4) + 2 < UInt64.size) :
    limits.headLength = 19 + limits.targetLength +
      limits.fieldCount * (limits.fieldNameLength + limits.fieldValueLength + 4) + 2 := by
  have fields : word (limits.fieldCount * limits.fieldLine) =
      limits.fieldCount * (limits.fieldNameLength + limits.fieldValueLength + 4) := by
    cases count : limits.fieldCount with
    | zero => simp [word]
    | succ fewer =>
        rw [count, Nat.add_mul, Nat.one_mul] at fits
        have part : word (limits.fieldNameLength + limits.fieldValueLength) =
            limits.fieldNameLength + limits.fieldValueLength := word_of_lt (by omega)
        have line : word (limits.fieldNameLength + limits.fieldValueLength + 4) =
            limits.fieldNameLength + limits.fieldValueLength + 4 := word_of_lt (by omega)
        rw [fieldLine, part, line, Nat.add_mul, Nat.one_mul]
        exact word_of_lt (by omega)
  have first : word (19 + limits.targetLength) = 19 + limits.targetLength := word_of_lt (by omega)
  rw [headLength, firstLine, fields, first]
  generalize limits.fieldCount * (limits.fieldNameLength + limits.fieldValueLength + 4) = lines at fits ⊢
  have both : word (19 + limits.targetLength + lines) = 19 + limits.targetLength + lines := word_of_lt (by omega)
  rw [both, word_of_lt fits]

end RequestLimits

/-- Times are in milliseconds. -/
structure ConnectionLimits where
  readTimeout : Nat := 5000
  writeTimeout : Nat := 5000
  maxRequests : Nat := 100
  lifetime : Nat := 120000
deriving DecidableEq

structure ResponseLimits where
  defaultCapacity : Nat := 1024
  maxCapacity : Nat := 65536
deriving DecidableEq

structure PoolLimits where
  capacity : Nat := 1024
  prewarm : Nat := 0
deriving DecidableEq

end HttpService
