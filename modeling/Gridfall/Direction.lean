/-
  The four directions, in the order in which an operator's sides are listed, and the sideways
  direction in which a value slides when it cannot fall.
-/

namespace Gridfall

/-- A direction on the grid; rows are counted downward. -/
inductive Dir where
  | up
  | left
  | right
  | down
  deriving DecidableEq, Repr

namespace Dir

/-- Every direction, in side order. -/
def all : List Dir := [up, left, right, down]

/-- The direction's name in reports. -/
def name : Dir → String
  | up => "Up"
  | left => "Left"
  | right => "Right"
  | down => "Down"

/-- The opposite direction. -/
def opposite : Dir → Dir
  | up => down
  | left => right
  | right => left
  | down => up

/-- A quarter turn to the right. -/
def turnRight : Dir → Dir
  | up => right
  | left => up
  | right => down
  | down => left

/-- A quarter turn to the left. -/
def turnLeft : Dir → Dir
  | up => left
  | left => down
  | right => up
  | down => right

/-- The change of column and row in one step. -/
def offset : Dir → Int × Int
  | up => (0, -1)
  | left => (-1, 0)
  | right => (1, 0)
  | down => (0, 1)

/-- Up and down. -/
def isVertical : Dir → Bool
  | up | down => true
  | left | right => false

end Dir

/-- The side to which a value slides when it cannot fall. -/
inductive Drift where
  | left
  | right
  deriving DecidableEq, Repr

namespace Drift

/-- The drift of a fresh value. -/
def fresh : Drift := right

/-- The drift's name in reports. -/
def name : Drift → String
  | left => "Left"
  | right => "Right"

/-- The other side. -/
def flip : Drift → Drift
  | left => right
  | right => left

/-- The direction of a slide. -/
def dir : Drift → Dir
  | left => Dir.left
  | right => Dir.right

end Drift

end Gridfall
