/-
  Cells: empty, border, a value with its drift, an operator, or a pipe.
-/
import Gridfall.Operator.Basic
import Gridfall.Pipe

namespace Gridfall

/-- A value on the grid with the side to which it slides. -/
structure Datum where
  value : Value
  drift : Drift
  deriving DecidableEq

namespace Datum

/-- A freshly produced value. -/
def fresh (v : Value) : Datum := ⟨v, Drift.fresh⟩

/-- A fresh number. -/
def number (n : Number) : Datum := fresh (.number n)

/-- A fresh text. -/
def text (s : String) : Datum := fresh (.text s)

/-- A fresh text from its characters. -/
def chars (cs : List Char) : Datum := text (String.ofList cs)

/-- A fresh truth value. -/
def bool (b : Bool) : Datum := fresh (.ofBool b)

end Datum

/-- The content of one place of a grid. -/
inductive Cell where
  | empty
  | border
  | data (d : Datum)
  | operator (op : Operator)
  | pipe (p : Pipe)
  deriving DecidableEq

namespace Cell

instance : Inhabited Cell := ⟨empty⟩

/-- A fresh value in a cell. -/
def ofValue (v : Value) : Cell := data (Datum.fresh v)

/-- Whether the cell is empty. -/
def isEmpty : Cell → Bool
  | empty => true
  | _ => false

/-- The value and drift that a cell holds. -/
def datum? : Cell → Option Datum
  | data d => some d
  | _ => none

/-- Whether the cell holds a value. -/
def isData (c : Cell) : Bool := c.datum?.isSome

/-- Pipes and special operators, which carry a value on. -/
def isRoutable : Cell → Bool
  | pipe _ => true
  | operator op => op.code.isSpecial
  | empty | border | data _ => false

/-- The one-character picture of a cell. -/
def glyph : Cell → Char
  | empty => ' '
  | border => '#'
  | data d => d.value.glyph
  | operator op => op.symbol
  | pipe p => p.symbol

/-- The pipe or operator that a character stands for. -/
def ofSymbol? (c : Char) : Option Cell :=
  (Pipe.ofSymbol? c).map pipe <|> (Operator.ofSymbol? c).map operator

end Cell

end Gridfall
