/-
  Signatures: what an operator asks of its four neighbours and what it may put back on each side.
  An operator on a pair of cells uses the upper slot for the first cell of the pair and the lower
  slot for the second.
-/
import Gridfall.Value

namespace Gridfall

/-- One item for each side of a cell. -/
structure Sides (α : Type) where
  up : α
  left : α
  right : α
  down : α
  deriving DecidableEq

namespace Sides

/-- Applies a function on every side. -/
def map {α β : Type} (f : α → β) (s : Sides α) : Sides β := ⟨f s.up, f s.left, f s.right, f s.down⟩

/-- The items in side order. -/
def toList {α : Type} (s : Sides α) : List α := [s.up, s.left, s.right, s.down]

end Sides

/-- A requirement on the neighbours and the outcome on each side. -/
structure Signature where
  requires : Sides KindSet
  yields : Sides KindSet
  deriving DecidableEq

namespace Signature

open KindSet

/-- Whether no side produces a value. -/
def yieldsNothing (s : Signature) : Bool := s.yields.toList.all KindSet.isEmpty

/-- A signature from its requirements and outcomes, each listed up, left, right, down. -/
def of (up left right down up' left' right' down' : KindSet) : Signature :=
  ⟨⟨up, left, right, down⟩, ⟨up', left', right', down'⟩⟩

/-- A signature on a pair: what the two cells must hold, and what goes back to each. -/
def pair (first second first' second' : KindSet) : Signature :=
  of first empty empty second first' empty empty second'

/-- A signature on the cells above, to the left and to the right, with its result below. -/
def below (up left right down' : KindSet) : Signature :=
  of up left right empty empty empty empty down'

/-- Four arrangements of two or three operands, each with an outcome for numbers alone and one for
    numbers and texts mixed. -/
def arrangements (pure mixed : KindSet) : List Signature :=
  [below numbers numbers numbers pure, below scalars scalars scalars mixed,
   below numbers numbers empty pure, below scalars scalars empty mixed,
   below numbers empty numbers pure, below scalars empty scalars mixed,
   below empty numbers numbers pure, below empty scalars scalars mixed]

/-- Console operators: echo the next input, write the value above, or read into the cell below. -/
def console (read : KindSet) : List Signature :=
  [of inputs empty empty outputs empty empty empty empty,
   of scalars empty empty outputs empty empty empty empty,
   below inputs empty empty read]

/-- Redirection: every arrangement of values above and beside, copied back to where they are. With
    a value above and to the left but none to the right, only the left one is copied. -/
def redirection : List Signature :=
  [of any any any empty any any any empty,
   of any any empty empty empty any empty empty,
   of any empty any empty any empty any empty,
   of any empty empty empty any empty empty empty,
   of empty any any empty empty any any empty,
   of empty any empty empty empty any empty empty,
   of empty empty any empty empty empty any empty]

/-- Exchange of the two cells of a pair. -/
def exchange : List Signature := [pair any any any any]

/-- A number to a number or a text to a text. -/
def sameKind : List Signature := [pair numbers empty empty numbers, pair texts empty empty texts]

/-- A number or a text to a number. -/
def measure : List Signature := [pair numbers empty empty numbers, pair texts empty empty numbers]

/-- Any value to a number. -/
def test : List Signature := [pair any empty empty numbers]

/-- Number to text and back, and one marker to the other. -/
def conversion : List Signature :=
  [pair numbers empty empty texts, pair texts empty empty numbers,
   pair inputs empty empty outputs, pair outputs empty empty inputs]

/-- Division of numbers in four arrangements, then cutting a text at a place or at a delimiter. -/
def division : List Signature :=
  [below numbers numbers numbers numbers, below numbers numbers empty numbers,
   below numbers empty numbers numbers, below empty numbers numbers numbers,
   of texts numbers empty empty empty empty texts texts,
   of texts texts empty empty empty empty texts texts]

/-- Remainders of numbers in four arrangements, with replacement in texts as the second entry. -/
def remainders : List Signature :=
  [below numbers numbers numbers numbers, below scalars scalars scalars texts,
   below numbers numbers empty numbers, below numbers empty numbers numbers,
   below empty numbers numbers numbers]

/-- A common divisor of two numbers, or the place of one text in another. -/
def factoring : List Signature :=
  [below numbers numbers empty numbers, below scalars scalars empty numbers]

/-- Comparison of any two or three values. -/
def comparison : List Signature :=
  [below any any any numbers, below any any empty numbers, below any empty any numbers,
   below empty any any numbers]

/-- A copy of the value above goes below. -/
def passage : List Signature := [below any empty empty any]

/-- Both values of a pair, or either one, disappear. -/
def disposal : List Signature :=
  [pair any any empty empty, pair any empty empty empty, pair empty any empty empty]

/-- The value above gives a number below. -/
def stamp : List Signature := [below any empty empty numbers]

/-- The value above gives nothing. -/
def ending : List Signature := [below any empty empty empty]

end Signature

end Gridfall
