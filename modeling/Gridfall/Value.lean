/-
  What a cell can hold: a number, a text, or one of the two console markers. A fifth value stands
  for "nothing" and belongs to no kind.

  A `KindSet` says which kinds a side of an operator requires or may produce. The empty set is
  the requirement that everything meets, a missing value included.
-/
import Gridfall.Number
import Gridfall.Text.Quoted

namespace Gridfall

/-- A value on the grid. -/
inductive Value where
  | none
  | number (n : Number)
  | text (s : String)
  | input
  | output
  deriving DecidableEq

namespace Value

/-- The value as text: decimal digits, the text itself, or nothing. -/
def asText : Value → String
  | number n => n.text
  | text s => s
  | none | input | output => ""

/-- The value as a number: zero unless it is one. -/
def asNumber : Value → Number
  | number n => n
  | none | text _ | input | output => 0

/-- The text of a text value. -/
def text? : Value → Option String
  | text s => some s
  | none | number _ | input | output => Option.none

/-- Zero, the empty text and the nothing value; a marker is never empty. -/
def isEmpty : Value → Bool
  | none => true
  | number n => n == 0
  | text s => s.isEmpty
  | input | output => false

/-- A truth value as a number. -/
def ofBool (b : Bool) : Value := number (if b then 1 else 0)

/-- How a value is shown in messages. -/
def shown : Value → String
  | none => "none"
  | number n => n.text
  | text s => Text.Quoted.quote s
  | input => "I"
  | output => "O"

/-- The one-character picture of a value. -/
def glyph : Value → Char
  | none => '?'
  | number _ => '$'
  | text _ => '@'
  | input => 'I'
  | output => 'O'

end Value

/-- A set of kinds of values. -/
structure KindSet where
  number : Bool := false
  text : Bool := false
  input : Bool := false
  output : Bool := false
  deriving DecidableEq

namespace KindSet

/-- No kind at all. -/
def empty : KindSet := {}

/-- Numbers only. -/
def numbers : KindSet := ⟨true, false, false, false⟩

/-- Texts only. -/
def texts : KindSet := ⟨false, true, false, false⟩

/-- The input marker only. -/
def inputs : KindSet := ⟨false, false, true, false⟩

/-- The output marker only. -/
def outputs : KindSet := ⟨false, false, false, true⟩

/-- Numbers and texts. -/
def scalars : KindSet := ⟨true, true, false, false⟩

/-- Every kind. -/
def any : KindSet := ⟨true, true, true, true⟩

/-- Whether the set has no kind. -/
def isEmpty (k : KindSet) : Bool := k == empty

/-- Whether the value's kind is in the set. -/
def holds (k : KindSet) : Value → Bool
  | .none => false
  | .number _ => k.number
  | .text _ => k.text
  | .input => k.input
  | .output => k.output

/-- Whether a neighbour meets the requirement: the empty set is met by everything, any other set
    needs a value of one of its kinds. -/
def admits (k : KindSet) (v : Option Value) : Bool :=
  k.isEmpty || v.any k.holds

end KindSet

end Gridfall
