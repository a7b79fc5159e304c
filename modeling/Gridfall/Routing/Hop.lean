/-
  One hop of a value through the pipes: what the cell that it enters does with it. A hop depends
  on the grid, the place and the direction of travel only, never on the value.

  A teleporter sends the value on from its partner, the next teleporter straight ahead. The
  search for the partner ends at the outermost ring.
-/
import Gridfall.Grid.Basic

namespace Gridfall

/-- What happens to a value that enters a cell. -/
inductive Hop where
  /-- It stays in an empty cell. -/
  | land
  /-- It is handed to a special operator. -/
  | deliver (code : Operator.Code)
  /-- It disappears. -/
  | absorb
  /-- It goes on in two directions. -/
  | fork (first second : Dir)
  /-- It goes on into another cell. -/
  | onward (place : Pos) (dir : Dir)
  /-- There is no way on. -/
  | blocked
  deriving DecidableEq

namespace Grid

/-- Looks for a teleporter among the next `fuel` cells straight ahead. -/
def partnerWithin (g : Grid) (d : Dir) : (fuel : Nat) → Pos → Option Pos
  | 0, _ => none
  | fuel + 1, p =>
    match g.step? p d with
    | none => none
    | some q =>
      if g.isEdge q then none
      else if g.cellAt q = .pipe .teleporter then some q
      else g.partnerWithin d fuel q

/-- The teleporter straight ahead. No line on the grid is longer than its width and height. -/
def partner? (g : Grid) (p : Pos) (d : Dir) : Option Pos :=
  g.partnerWithin d (g.width + g.height) p

/-- Leaves a cell in a direction. -/
def leave (g : Grid) (p : Pos) (d : Dir) : Hop :=
  match g.step? p d with
  | some q => .onward q d
  | none => .blocked

/-- What the cell at `p` does with a value that enters it heading `d`. -/
def hop (g : Grid) (p : Pos) (d : Dir) : Hop :=
  match g.get? p with
  | some .empty => .land
  | some (.operator op) => if op.code.isSpecial then .deliver op.code else .blocked
  | some (.pipe .eraser) => .absorb
  | some (.pipe .duplicator) => if d.isVertical then .fork .right .left else .fork .up .down
  | some (.pipe .teleporter) =>
    match g.partner? p d with
    | some q => g.leave q d
    | none => .blocked
  | some (.pipe kind) =>
    match kind.exit? d with
    | some e => g.leave p e
    | none => .blocked
  | some .border | some (.data _) | none => .blocked

end Grid

end Gridfall
