/-
  Decimal text: how natural numbers and integers are written, and which texts are read back.

  * `ofNat`, `ofInt`: digits, most significant first, with a `-` in front of a negative integer.
  * `unsigned?`, `signed?`: one or more ASCII digits after an optional sign, and nothing else.
    An unsigned text may carry a `+` only.
-/

namespace Gridfall.Text.Decimal

/-- An ASCII decimal digit. -/
def isDigit (c : Char) : Bool := '0' ≤ c && c ≤ '9'

/-- The value of an ASCII decimal digit, `none` for any other character. -/
def digit? (c : Char) : Option Nat :=
  if isDigit c then some (c.toNat - '0'.toNat) else none

/-- The digits of a natural number, most significant first. -/
def digits (n : Nat) : List Char := Nat.toDigits 10 n

/-- A natural number in decimal. -/
def ofNat (n : Nat) : String := String.ofList (digits n)

/-- An integer in decimal. -/
def ofInt (z : Int) : String :=
  if z < 0 then String.ofList ('-' :: digits z.natAbs) else ofNat z.natAbs

/-- The number that a run of digits spells. -/
def value (ds : List Char) : Nat :=
  ds.foldl (fun acc c => acc * 10 + (digit? c).getD 0) 0

/-- Reads one or more digits. -/
def digits? (ds : List Char) : Option Nat :=
  if ds.isEmpty || !ds.all isDigit then none else some (value ds)

/-- Reads an optional `+` and digits. -/
def unsigned? : List Char → Option Nat
  | '+' :: ds => digits? ds
  | ds => digits? ds

/-- Reads an optional sign and digits. -/
def signed? : List Char → Option Int
  | '-' :: ds => (digits? ds).map fun n => -(n : Int)
  | '+' :: ds => (digits? ds).map fun n => (n : Int)
  | ds => (digits? ds).map fun n => (n : Int)

/-- Reads a 64-bit unsigned integer; larger values are refused. -/
def word? (cs : List Char) : Option UInt64 :=
  (unsigned? cs).bind fun n => if n < UInt64.size then some n.toUInt64 else none

end Gridfall.Text.Decimal
