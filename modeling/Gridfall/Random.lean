/-
  The random generator: a 64-bit counter with a mixing function (SplitMix64), so that a seed fixes
  every later draw.

  * `below`: a draw below a bound, by taking the high word of a product.
  * `random`: the draw that a program asks for. A positive `n` gives `0` to `n - 1`, a negative `n`
    the negation of such a draw, and zero a magnitude with a random sign.
-/
import Gridfall.Number

namespace Gridfall

/-- The state of the generator. -/
structure Generator where
  state : UInt64
  deriving DecidableEq

namespace Generator

/-- What the counter grows by. -/
def increment : UInt64 := 0x9E3779B97F4A7C15

/-- Scatters the bits of a word. -/
def mix (w : UInt64) : UInt64 :=
  let z := (w ^^^ (w >>> 30)) * 0xBF58476D1CE4E5B9
  let z := (z ^^^ (z >>> 27)) * 0x94D049BB133111EB
  z ^^^ (z >>> 31)

/-- The state after one draw. -/
def advance (g : Generator) : Generator := ⟨g.state + increment⟩

/-- The next word. -/
def next (g : Generator) : UInt64 × Generator := (mix g.advance.state, g.advance)

/-- A draw below `bound`: the high word of the product of the bound and the next word. -/
def below (g : Generator) (bound : UInt64) : UInt64 × Generator :=
  let (w, g) := g.next
  ((w.toNat * bound.toNat / UInt64.size).toUInt64, g)

/-- The draw that a program asks for with the number `n`. -/
def random (g : Generator) (n : Number) : Number × Generator :=
  if n == 0 then
    let (w, g) := g.next
    let (sign, g) := g.next
    let m := (w >>> 1).toInt64
    (if sign &&& 1 == 0 then m else -m, g)
  else
    let (w, g) := g.below n.magnitude
    (if n < 0 then -w.toInt64 else w.toInt64, g)

end Generator

end Gridfall
