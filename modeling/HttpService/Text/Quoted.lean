import HttpService.Text.Unprintable

/-! Quoted text: a text between double quotes, on one line, with everything that cannot be seen written out. -/

namespace HttpService

namespace Quoted

def hexDigits (number : Nat) : List Char := Nat.toDigits 16 number

def escape (character : Char) : List Char :=
  if character = '\x00' then ['\\', '0']
  else if character = '\t' then ['\\', 't']
  else if character = '\r' then ['\\', 'r']
  else if character = '\n' then ['\\', 'n']
  else if character = '"' then ['\\', '"']
  else if character = '\\' then ['\\', '\\']
  else if isUnprintable character then ['\\', 'u', '\x7b'] ++ hexDigits character.toNat ++ ['\x7d']
  else [character]

def quote (text : String) : String :=
  String.ofList ('"' :: text.toList.flatMap escape ++ ['"'])

end Quoted

end HttpService
