/-
  Digits of numbers in bases up to sixteen.
-/
import Gridfall.Text.Decimal

namespace Gridfall.Text.Hex

/-- The value of a hexadecimal digit, in either case. -/
def digit? (c : Char) : Option Nat :=
  if '0' ≤ c && c ≤ '9' then some (c.toNat - '0'.toNat)
  else if 'a' ≤ c && c ≤ 'f' then some (c.toNat - 'a'.toNat + 10)
  else if 'A' ≤ c && c ≤ 'F' then some (c.toNat - 'A'.toNat + 10)
  else none

/-- Whether a character is a digit of a base. -/
def isDigit (base : Nat) (c : Char) : Bool := (digit? c).any (· < base)

/-- The number that digits spell in a base. -/
def value (base : Nat) (ds : List Char) : Nat :=
  ds.foldl (fun acc c => acc * base + (digit? c).getD 0) 0

/-- The character with a code, if there is one; surrogates are no characters. -/
def char? (n : Nat) : Option Char :=
  if n < 0xD800 || (0xE000 ≤ n && n < 0x110000) then some (Char.ofNat n) else none

end Gridfall.Text.Hex
