/-
  Quoted text: a text between double quotes with its special characters written as escapes.
  Tab, return, newline, null, the double quote and the backslash have short escapes; any other
  character that cannot be shown is written by its code point in hexadecimal.
-/
import Gridfall.Text.Shown

namespace Gridfall.Text.Quoted

/-- A code point in lowercase hexadecimal between braces. -/
def codePoint (c : Char) : List Char :=
  ['\\', 'u', '\x7b'] ++ Nat.toDigits 16 c.toNat ++ ['\x7d']

/-- How one character is written between quotes. -/
def escape (c : Char) : List Char :=
  if c = '\t' then ['\\', 't']
  else if c = '\r' then ['\\', 'r']
  else if c = '\n' then ['\\', 'n']
  else if c = '\x00' then ['\\', '0']
  else if c = '"' then ['\\', '"']
  else if c = '\\' then ['\\', '\\']
  else if isShown c then [c]
  else codePoint c

/-- A text between double quotes. -/
def quote (s : String) : String :=
  String.ofList ('"' :: s.toList.flatMap escape ++ ['"'])

end Gridfall.Text.Quoted
