import HttpService.Bytes
import HttpService.Utf8

/-! Files that are named by a path, and why there may be nothing to read at one. -/

namespace HttpService

abbrev Files := String → Option Bytes

inductive FileError
  | missing
  | zeroInPath
  | longPath
  | directory
deriving DecidableEq

def FileError.message : FileError → String
  | missing => "No such file or directory (os error 2)"
  | zeroInPath => "file name contained an unexpected NUL byte"
  | longPath => "File name too long (os error 36)"
  | directory => "Is a directory (os error 21)"

namespace Files

def maxPath : Nat := 4095
def maxName : Nat := 255

def firstName? (path : String) : Option String :=
  (path.splitOn "/").find? fun name => name ≠ "" ∧ name ≠ "." ∧ name ≠ ".."

def read (files : Files) (path : String) : Except FileError Bytes :=
  match files path with
  | some content => .ok content
  | none =>
    if path.contains '\x00' then .error .zeroInPath
    else if path = "" then .error .missing
    else if maxPath < path.utf8ByteSize then .error .longPath
    else
      match firstName? path with
      | none => .error .directory
      | some name => .error (if maxName < name.utf8ByteSize then .longPath else .missing)

end Files

end HttpService
