/-
  Decimal numbers with an exponent, and which of them are too large for double precision.
-/
import Gridfall.Text.Decimal

namespace Gridfall.Text

/-- The number `coefficient * 10 ^ exponent`. -/
structure Scientific where
  coefficient : Nat
  exponent : Int

namespace Scientific

/-- The number that is written by digits before and after a point, times a power of ten. -/
def ofParts (whole fraction : List Char) (exponent : Int) : Scientific :=
  ⟨Decimal.value (whole ++ fraction), exponent - fraction.length⟩

/-- The least number that is rounded to infinity in double precision. It lies half a step above
    the largest finite double, and a tie goes up. -/
def overflowBound : Nat := Nat.pow 2 1024 - Nat.pow 2 970

/-- Whether a number is rounded to infinity in double precision. The bound has 309 digits, so
    that the exponent alone decides for a number with fewer or more before its point. -/
def overflows (x : Scientific) : Bool :=
  let size := (Decimal.digits x.coefficient).length + x.exponent
  if x.coefficient = 0 || size < 309 then false
  else if 309 < size then true
  else overflowBound * Nat.pow 10 (-x.exponent).toNat ≤ x.coefficient * Nat.pow 10 x.exponent.toNat

end Scientific

end Gridfall.Text
