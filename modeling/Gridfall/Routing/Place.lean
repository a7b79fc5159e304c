/-
  Placing values. A value goes straight into an empty cell, or into any cell for an overwriting
  operator; pipes and special operators carry it on, hop by hop.

  A value on its way depends on nothing but the grid, its place and its direction. So if it comes
  back to a place and direction of its own path, and nothing was written in between, it would go
  round for ever. The trail holds these states; a value that meets one of them is dropped.

  Along one path, the states between two writes differ from each other, and every write fills an
  empty cell. This bounds the length of a path by the number of cells; see `Router.reach`.
-/
import Gridfall.Operator.Execution
import Gridfall.Routing.Hop

namespace Gridfall

/-- A grid that values are placed into. -/
structure Router where
  grid : Grid
  context : Context
  /-- The states of the current path since the last write, the latest first. -/
  trail : List (Pos × Dir) := []
  /-- How many cells have been written. -/
  writes : Nat := 0

namespace Router

/-- Writes a value into a cell. All states become open again. -/
def write (r : Router) (p : Pos) (d : Datum) : Router :=
  { r with grid := r.grid.set p (.data d), writes := r.writes + 1, trail := [] }

/-- Puts a state on the trail. -/
def enter (r : Router) (s : Pos × Dir) : Router := { r with trail := s :: r.trail }

/-- Takes states off the trail. -/
def retreat (r : Router) (entered : List (Pos × Dir)) : Router :=
  { r with trail := entered.foldl (fun t s => t.erase s) r.trail }

/-- Drops a value that would go round for ever. -/
def drop (r : Router) (p : Pos) (dir : Dir) (d : Datum) : Router :=
  { r with context := r.context.note (.pipeLoop p dir d.value) }

/-- How a value is carried into a cell: whether it was delivered, and the router after. Without an
    answer the walk was not finished. -/
abbrev Carrier := Router → Datum → Pos → Dir → Option (Bool × Router)

/-- The placement rule, with `carry` for pipes and special operators. Placing nothing succeeds. -/
def offer (carry : Carrier) (r : Router) (d : Option Datum) (target : Pos) (dir : Dir)
    (overwrite : Bool) : Option (Bool × Router) :=
  match d with
  | none => some (true, r)
  | some d =>
    match r.grid.get? target with
    | none => some (false, r)
    | some cell =>
      if overwrite || cell.isEmpty then some (true, r.write target d)
      else if cell.isRoutable then carry r d target dir
      else some (false, r)

/-- Carries a value one cell on and further. -/
def advance (carry : Carrier) (r : Router) (d : Datum) (p : Pos) (dir : Dir) :
    Option (Bool × Router) :=
  match r.grid.step? p dir with
  | some q => carry r d q dir
  | none => some (false, r)

/-- Carries a value in two directions; one delivery is enough. -/
def fork (carry : Carrier) (r : Router) (d : Datum) (p : Pos) (first second : Dir) :
    Option (Bool × Router) := do
  let (a, r) ← advance carry r d p first
  let (b, r) ← advance carry r d p second
  return (a || b, r)

/-- Hands a value to a special operator and places what comes out in the cell below. -/
def deliver (carry : Carrier) (r : Router) (code : Operator.Code) (d : Datum) (p : Pos) :
    Option (Bool × Router) :=
  let (emitted, context) := Operator.receive code d r.context
  let r := { r with context }
  match r.grid.step? p .down with
  | some q => offer carry r emitted q .down false
  | none => some (emitted.isNone, r)

/-- Walks on into the cell `p`, along paths of at most `fuel` hops. The states `entered` so far by
    this walk are taken off the trail at its end. -/
def walk : (fuel : Nat) → Router → Datum → Pos → Dir → (entered : List (Pos × Dir)) →
    Option (Bool × Router)
  | 0, _, _, _, _, _ => none
  | fuel + 1, r, d, p, dir, entered =>
    if r.trail.contains (p, dir) then some (false, (r.drop p dir d).retreat entered)
    else
      let carry : Carrier := fun r d p dir => walk fuel r d p dir []
      let r := r.enter (p, dir)
      let entered := (p, dir) :: entered
      let finish (result : Bool × Router) : Bool × Router := (result.1, result.2.retreat entered)
      match r.grid.hop p dir with
      | .land => some (finish (true, r.write p d))
      | .deliver code => (deliver carry r code d p).map finish
      | .absorb => some (finish (true, r))
      | .fork first second => (fork carry r d p first second).map finish
      | .onward q dir => walk fuel r d q dir entered
      | .blocked => some (finish (false, r))

/-- The greatest length of a path: four states for each cell between two writes, and no more
    writes than cells. -/
def reach (r : Router) : Nat := (r.grid.cells.size + 1) * (4 * r.grid.cells.size + 1)

/-- Carries a value into a cell. -/
def send (r : Router) : Carrier := fun r' d p dir => walk r.reach r' d p dir []

/-- Places a value, or nothing, at a target in a direction of travel: whether it was placed, and
    the router after. -/
def place (r : Router) (d : Option Datum) (target : Pos) (dir : Dir) (overwrite : Bool) :
    Bool × Router :=
  (offer r.send r d target dir overwrite).getD (false, r)

end Router

end Gridfall
