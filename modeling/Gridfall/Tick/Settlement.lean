/-
  The second phase of a tick: values fall.

  Every value starts out heading down. The interior is scanned in raster order; the first value
  that can move does so by one cell and has its place for the rest of the phase, and the scan
  starts again. A value heading down onto something at rest turns to its drift; a value heading
  sideways against something at rest, or against a value that comes straight toward it, comes to
  rest where it is.

  A value changes its state at most twice, so `2 * n + 1` passes are enough for `n` values.
-/
import Gridfall.Grid.Basic

namespace Gridfall

/-- The outcome of a settlement phase. -/
inductive Settlement where
  /-- There was no value on the grid. -/
  | noData
  /-- Every value has come to rest, after so many moves of one cell. -/
  | settled (moves : Nat)
  deriving DecidableEq

/-- The state of a cell during the phase. -/
inductive Slot where
  /-- Empty; a value may enter. -/
  | vacant
  /-- Border, operator, pipe, or a value at rest. -/
  | fixed
  /-- A value that still tries to move. -/
  | moving (heading : Dir)
  deriving DecidableEq

namespace Slot

/-- The state of a cell at the start of the phase. -/
def ofCell : Cell → Slot
  | .data _ => moving .down
  | .empty => vacant
  | .border | .operator _ | .pipe _ => fixed

end Slot

/-- A settlement phase on its way. -/
structure Fall where
  grid : Grid
  /-- The state of each cell, by flat index. -/
  slots : Array Slot
  moves : Nat := 0

namespace Fall

/-- The start of the phase. -/
def start (g : Grid) : Fall := { grid := g, slots := g.cells.map Slot.ofCell }

/-- The state of a cell. -/
def slot (f : Fall) (p : Pos) : Slot := f.slots[f.grid.index p]?.getD .fixed

/-- Changes the state of a cell. -/
def setSlot (f : Fall) (p : Pos) (s : Slot) : Fall :=
  { f with slots := f.slots.setIfInBounds (f.grid.index p) s }

/-- Moves a value, which then rests at its target. -/
def move (f : Fall) (source target : Pos) : Fall :=
  let f := { f with grid := f.grid.shift source target, moves := f.moves + 1 }
  (f.setSlot target .fixed).setSlot source .vacant

/-- Turns a value to its drift. -/
def turn (f : Fall) (p : Pos) : Fall :=
  let drift := ((f.grid.datum? p).map Datum.drift).getD Drift.fresh
  f.setSlot p (.moving drift.dir)

/-- Scans positions until one value moves. The flag says whether a moving value was met. -/
def scan : List Pos → Fall → (met : Bool) → Fall × Bool
  | [], f, met => (f, met)
  | p :: ps, f, met =>
    match f.slot p with
    | .vacant | .fixed => scan ps f met
    | .moving heading =>
      match f.grid.step? p heading with
      | none => scan ps (f.setSlot p .fixed) true
      | some target =>
        match f.slot target with
        | .vacant => (f.move p target, true)
        | .fixed => scan ps (if heading = .down then f.turn p else f.setSlot p .fixed) true
        | .moving other =>
          scan ps (if other = heading.opposite then f.setSlot p .fixed else f) true

/-- One pass over the interior. -/
def pass (f : Fall) : Fall × Bool := scan f.grid.interior f false

/-- Passes until one meets no moving value, and at most `fuel` of them. -/
def passes : (fuel : Nat) → Fall → Fall
  | 0, f => f
  | fuel + 1, f =>
    let (f, met) := f.pass
    if met then passes fuel f else f

end Fall

/-- Runs the settlement phase. -/
def settle (g : Grid) : Grid × Settlement :=
  if g.hasData then
    let f := (Fall.start g).passes (2 * g.cells.countP Cell.isData + 1)
    (f.grid, .settled f.moves)
  else (g, .noData)

end Gridfall
