/-
  The one kind of number: a signed integer of 64 bits. Sums, differences, products and negation
  wrap around. Quotient and remainder truncate toward zero and fail where the result would not
  fit or the divisor is zero.

  * `isPrime`: trial division by odd numbers up to the square root of the magnitude.
  * `gcd`: the Euclidean algorithm on magnitudes.
  * `reverseDigits`: the decimal digits in reverse, under the same sign.
  * `text`, `ofText?`, `leading?`: decimal text, and the number that a line starts with.
-/
import Gridfall.Text.Decimal
import Gridfall.Text.Blank

namespace Gridfall

/-- A signed integer of 64 bits. -/
abbrev Number := Int64

namespace Number

open Gridfall.Text

/-- The least number. -/
def least : Number := Int64.minValue

/-- The greatest number. -/
def greatest : Number := Int64.maxValue

/-- Whether `a` cannot be divided by `b`. -/
def indivisible (a b : Number) : Bool := b == 0 || (a == least && b == -1)

/-- The quotient, rounded toward zero. -/
def quotient? (a b : Number) : Option Number := if indivisible a b then none else some (a / b)

/-- The remainder, with the sign of the dividend. -/
def remainder? (a b : Number) : Option Number := if indivisible a b then none else some (a % b)

/-- `-1`, `0` or `1`. -/
def sign (n : Number) : Number := if n < 0 then -1 else if n == 0 then 0 else 1

/-- The absolute value; the least number is its own. -/
def abs (n : Number) : Number := if n < 0 then -n else n

/-- The distance from zero, which always fits an unsigned word. -/
def magnitude (n : Number) : UInt64 := (abs n).toUInt64

/-- The square of a word, or the greatest word when the square does not fit. -/
def cappedSquare (i : UInt64) : UInt64 := if i < 0x100000000 then i * i else 0xFFFFFFFFFFFFFFFF

/-- Whether none of `i`, `i + 2`, … up to the square root of `n` divides `n`, looking at no more
    than `fuel` of them. -/
def noDivisorFrom : (fuel : Nat) → (n i : UInt64) → Bool
  | 0, _, _ => true
  | fuel + 1, n, i =>
    if cappedSquare i ≤ n then
      if n % i == 0 then false else noDivisorFrom fuel n (i + 2)
    else true

/-- Whether the magnitude is a prime number. There are fewer than `2 ^ 31` odd divisors to try,
    since a square root of a word is below `2 ^ 32`. -/
def isPrime (n : Number) : Bool :=
  let m := magnitude n
  if m < 2 then false
  else if m == 2 then true
  else if m % 2 == 0 then false
  else noDivisorFrom 0x80000000 m 3

/-- A word other than zero is positive. -/
theorem toNat_pos {w : UInt64} (h : w ≠ 0) : 0 < w.toNat :=
  Nat.pos_of_ne_zero fun h0 => h (UInt64.toNat_inj.mp (by simpa using h0))

/-- The greatest common divisor of two words. -/
def euclid (a b : UInt64) : UInt64 :=
  if h : b = 0 then a
  else
    have : (a % b).toNat < b.toNat := by
      rw [UInt64.toNat_mod]
      exact Nat.mod_lt _ (toNat_pos h)
    euclid b (a % b)
termination_by b.toNat

/-- The greatest common divisor of the magnitudes, read as a number. -/
def gcd (a b : Number) : Number := (euclid (magnitude a) (magnitude b)).toInt64

/-- Appends the decimal digits of `m`, last one first, to those of `acc`. -/
def appendReversed (m acc : UInt64) : UInt64 :=
  if h : m = 0 then acc
  else
    have : (m / 10).toNat < m.toNat := by
      rw [UInt64.toNat_div]
      exact Nat.div_lt_self (toNat_pos h) (by decide)
    appendReversed (m / 10) (acc * 10 + m % 10)
termination_by m.toNat

/-- The decimal digits in reverse order, under the same sign. -/
def reverseDigits (n : Number) : Number :=
  let r := (appendReversed (magnitude n) 0).toInt64
  if n < 0 then -r else r

/-- The number of an integer in range. -/
def ofInt? (z : Int) : Option Number :=
  if -0x8000000000000000 ≤ z ∧ z < 0x8000000000000000 then some (Int64.ofInt z) else none

/-- A number in decimal. -/
def text (n : Number) : String := Decimal.ofInt n.toInt

/-- Reads an optionally signed decimal in range. -/
def ofChars? (cs : List Char) : Option Number := (Decimal.signed? cs).bind ofInt?

/-- Reads an optionally signed decimal in range. -/
def ofText? (s : String) : Option Number := ofChars? s.toList

/-- The sign that a text starts with, if any, and the rest. -/
def splitSign : List Char → List Char × List Char
  | '-' :: r => (['-'], r)
  | '+' :: r => (['+'], r)
  | r => ([], r)

/-- The number that a line starts with, after white space. -/
def leading? (line : List Char) : Option Number :=
  let (sign, rest) := splitSign (trimStart line)
  ofChars? (sign ++ rest.takeWhile Decimal.isDigit)

end Number

end Gridfall
