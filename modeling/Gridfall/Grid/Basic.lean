/-
  The grid: a rectangle of cells, stored row by row. Columns and rows are counted from the upper
  left corner.

  `get?` answers for places on the grid only. `set` addresses the flat row-by-row index of a
  place, so a column past the end of a row continues in the next row. Positions are listed in
  raster order, top to bottom and left to right; the interior leaves out the outermost ring.
-/
import Gridfall.Cell

namespace Gridfall

/-- A place: column `x` and row `y`. -/
structure Pos where
  x : Nat
  y : Nat
  deriving DecidableEq, Repr

namespace Pos

/-- How a place is shown in messages. -/
def text (p : Pos) : String :=
  "(" ++ Text.Decimal.ofNat p.x ++ "," ++ Text.Decimal.ofNat p.y ++ ")"

/-- The four places around an interior place. -/
def around (p : Pos) : Sides Pos :=
  ⟨⟨p.x, p.y - 1⟩, ⟨p.x - 1, p.y⟩, ⟨p.x + 1, p.y⟩, ⟨p.x, p.y + 1⟩⟩

end Pos

/-- A rectangle of cells. -/
structure Grid where
  width : Nat
  height : Nat
  cells : Array Cell
  size_eq : cells.size = width * height
  deriving DecidableEq

namespace Grid

/-- The place of a position in row-by-row order. -/
def index (g : Grid) (p : Pos) : Nat := p.y * g.width + p.x

/-- Whether a position is on the grid. -/
def contains (g : Grid) (p : Pos) : Bool := p.x < g.width && p.y < g.height

/-- The cell at a position of the grid. -/
def get? (g : Grid) (p : Pos) : Option Cell :=
  if g.contains p then g.cells[g.index p]? else none

/-- The cell at the flat index of a position, empty past the last cell. -/
def cellAt (g : Grid) (p : Pos) : Cell := g.cells[g.index p]?.getD .empty

/-- The value and drift at a position of the grid. -/
def datum? (g : Grid) (p : Pos) : Option Datum := (g.get? p).bind Cell.datum?

/-- Replaces the cell at the flat index of a position. -/
def set (g : Grid) (p : Pos) (c : Cell) : Grid :=
  { g with
    cells := g.cells.setIfInBounds (g.index p) c
    size_eq := by rw [Array.size_setIfInBounds]; exact g.size_eq }

/-- Moves a cell and leaves an empty one behind. -/
def shift (g : Grid) (source target : Pos) : Grid :=
  (g.set source .empty).set target (g.cellAt source)

/-- Whether a position is on the outermost ring. -/
def isEdge (g : Grid) (p : Pos) : Bool :=
  p.x == 0 || p.y == 0 || p.x + 1 == g.width || p.y + 1 == g.height

/-- The neighbour in a direction, if it is on the grid. -/
def step? (g : Grid) (p : Pos) (d : Dir) : Option Pos :=
  let next? : Option Pos :=
    match d with
    | .up => if p.y = 0 then none else some ⟨p.x, p.y - 1⟩
    | .left => if p.x = 0 then none else some ⟨p.x - 1, p.y⟩
    | .right => some ⟨p.x + 1, p.y⟩
    | .down => some ⟨p.x, p.y + 1⟩
  next?.filter g.contains

/-- The positions of a block of `w` columns from `x0` on and `h` rows from `y0` on. -/
def block (x0 w y0 h : Nat) : List Pos :=
  (List.range' y0 h).flatMap fun y => (List.range' x0 w).map fun x => ⟨x, y⟩

/-- Every position. -/
def positions (g : Grid) : List Pos := block 0 g.width 0 g.height

/-- The positions inside the outermost ring. -/
def interior (g : Grid) : List Pos := block 1 (g.width - 2) 1 (g.height - 2)

/-- The values inside the outermost ring, with their positions. -/
def data (g : Grid) : List (Pos × Datum) :=
  g.interior.filterMap fun p => (g.datum? p).map fun d => (p, d)

/-- Whether any cell, on the ring or inside, holds a value. -/
def hasData (g : Grid) : Bool := g.cells.any Cell.isData

/-- The picture of row `y`. -/
def row (g : Grid) (y : Nat) : String :=
  String.ofList ((List.range g.width).map fun x => (g.cellAt ⟨x, y⟩).glyph)

/-- The picture of the grid, one text for each row. -/
def rows (g : Grid) : List String := (List.range g.height).map g.row

end Grid

end Gridfall
