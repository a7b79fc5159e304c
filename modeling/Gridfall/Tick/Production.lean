/-
  The first phase of a tick: operators fire.

  Every operator reads the grid as it stood before the phase and places its results into the next
  one. Operators take their turns in raster order, so the first to write into an empty cell has
  it. Inputs of an operator that placed something are consumed after all operators had their turn,
  unless the operator keeps its inputs.

  * `fireJoint`: the first signature that fits all four neighbours runs, and no other, even if
    its computation fails.
  * `firePairs`: the vertical and the horizontal pair each run the first signature that fits them.
-/
import Gridfall.Routing.Place

namespace Gridfall

/-- What happened in one production phase. -/
structure ProductionReport where
  /-- Computations that succeeded. -/
  fired : Nat := 0
  /-- Computations that failed. -/
  failed : Nat := 0
  /-- Cells written. -/
  writes : Nat := 0
  /-- Cells emptied because their values were consumed. -/
  consumed : Nat := 0
  /-- The request to halt, if there was one. -/
  halt : Option HaltRequest := none
  deriving DecidableEq

/-- A production phase on its way. -/
structure Production where
  router : Router
  /-- Whether the value of a cell stays, by flat index. -/
  stays : Array Bool
  fired : Nat := 0
  failed : Nat := 0

namespace Production

/-- Whether a neighbour meets a requirement. -/
def fits (k : KindSet) (d : Option Datum) : Bool := k.admits (d.map Datum.value)

/-- Whether the four neighbours meet a signature. -/
def fitsJoint (s : Signature) (near : Sides (Option Datum)) : Bool :=
  fits s.requires.up near.up && fits s.requires.left near.left &&
    fits s.requires.right near.right && fits s.requires.down near.down

/-- Whether a pair of cells meets a signature. -/
def fitsPair (s : Signature) (first second : Option Datum) : Bool :=
  fits s.requires.up first && fits s.requires.down second

/-- The first of the numbered signatures that fits the four neighbours. -/
def choose? (table : List Signature) (near : Sides (Option Datum)) : Option (Signature × Nat) :=
  table.zipIdx.find? fun s => fitsJoint s.1 near

/-- Marks a required cell as consumed. -/
def consume (s : Production) (k : KindSet) (index : Nat) : Production :=
  if k.isEmpty then s else { s with stays := s.stays.setIfInBounds index false }

/-- Places what a side emits, if the signature yields anything there, and says whether that or an
    earlier placement succeeded. -/
def emit (overwrite : Bool) (k : KindSet) (d : Option Datum) (target : Pos) (dir : Dir)
    (placed : Bool) (s : Production) : Bool × Production :=
  if k.isEmpty then (placed, s)
  else
    let (ok, router) := s.router.place d target dir overwrite
    (placed || ok, { s with router })

/-- Places the emission of a joint operator, up, left, right, down. A signature that yields nothing
    counts as placed. -/
def emitJoint (sig : Signature) (overwrite : Bool) (around : Sides Pos) (e : Emission)
    (s : Production) : Bool × Production :=
  if sig.yieldsNothing then (true, s)
  else
    let (placed, s) := emit overwrite sig.yields.up e.up around.up .up false s
    let (placed, s) := emit overwrite sig.yields.left e.left around.left .left placed s
    let (placed, s) := emit overwrite sig.yields.right e.right around.right .right placed s
    emit overwrite sig.yields.down e.down around.down .down placed s

/-- Fires an operator on its four neighbours. -/
def fireJoint (g : Grid) (op : Operator) (p : Pos) (s : Production) : Production :=
  let around := p.around
  let near := around.map g.datum?
  match choose? op.signatures near with
  | none => s
  | some (sig, index) =>
    let (result, context) := Operator.runJoint op.code index near s.router.context
    let s := { s with router := { s.router with context } }
    match result with
    | .error fault =>
      { s with
        router := { s.router with context := s.router.context.note (.operatorFault op p fault) }
        failed := s.failed + 1 }
    | .ok emission =>
      let (placed, s) :=
        emitJoint sig op.code.overwrites around emission { s with fired := s.fired + 1 }
      if placed && op.consumes then
        (((s.consume sig.requires.up (g.index around.up)).consume
          sig.requires.left (g.index around.left)).consume
          sig.requires.right (g.index around.right)).consume
          sig.requires.down (g.index around.down)
      else s

/-- Two opposite neighbours of an operator, each with the direction toward it. -/
structure Axis where
  back : Pos
  backDir : Dir
  ahead : Pos
  aheadDir : Dir

/-- The pair above and below. -/
def vertical (around : Sides Pos) : Axis := ⟨around.up, .up, around.down, .down⟩

/-- The pair to the left and to the right. -/
def horizontal (around : Sides Pos) : Axis := ⟨around.left, .left, around.right, .right⟩

/-- Places the emission of an operator on a pair, first cell first. -/
def emitPair (sig : Signature) (overwrite : Bool) (axis : Axis) (e : PairEmission)
    (s : Production) : Bool × Production :=
  if sig.yieldsNothing then (true, s)
  else
    let (placed, s) := emit overwrite sig.yields.up e.back axis.back axis.backDir false s
    emit overwrite sig.yields.down e.ahead axis.ahead axis.aheadDir placed s

/-- Fires one signature of an operator on a pair of cells. -/
def firePair (g : Grid) (op : Operator) (sig : Signature) (index : Nat) (axis : Axis)
    (s : Production) : Production :=
  let (result, context) :=
    Operator.runPair op.code index (g.datum? axis.back) (g.datum? axis.ahead) s.router.context
  let s := { s with router := { s.router with context } }
  match result with
  | .error fault =>
    { s with
      router :=
        { s.router with
          context := s.router.context.note (.pairFault op axis.back axis.ahead fault) }
      failed := s.failed + 1 }
  | .ok emission =>
    let (placed, s) := emitPair sig op.code.overwrites axis emission { s with fired := s.fired + 1 }
    if placed && op.consumes then
      (s.consume sig.requires.up (g.index axis.back)).consume
        sig.requires.down (g.index axis.ahead)
    else s

/-- Whether an axis of the grid meets a signature. -/
def axisFits (g : Grid) (sig : Signature) (axis : Axis) : Bool :=
  fitsPair sig (g.datum? axis.back) (g.datum? axis.ahead)

/-- Goes through the numbered signatures, with `v` and `h` for an axis that has had its turn. The
    vertical axis goes first where both fit the same signature. -/
def firePairs (g : Grid) (op : Operator) (around : Sides Pos) :
    List (Signature × Nat) → (v h : Bool) → Production → Production
  | [], _, _, s => s
  | (sig, index) :: rest, v, h, s =>
    let vNow := !v && axisFits g sig (vertical around)
    let hNow := !h && axisFits g sig (horizontal around)
    let s := if vNow then firePair g op sig index (vertical around) s else s
    let s := if hNow then firePair g op sig index (horizontal around) s else s
    if (v || vNow) && (h || hNow) then s
    else firePairs g op around rest (v || vNow) (h || hNow) s

/-- The turn of the cell at `p`. -/
def turn (g : Grid) (s : Production) (p : Pos) : Production :=
  match g.get? p with
  | some (.operator op) =>
    if op.code.isPair then firePairs g op p.around op.signatures.zipIdx false false s
    else fireJoint g op p s
  | _ => s

/-- Empties the cell at `p` if its value was consumed, and counts it. -/
def clear (stays : Array Bool) (acc : Grid × Nat) (p : Pos) : Grid × Nat :=
  let (next, consumed) := acc
  if !stays[next.index p]?.getD true && (next.cellAt p).isData then
    (next.set p .empty, consumed + 1)
  else acc

end Production

/-- Runs the production phase: the next grid, the report, and the context after. -/
def produce (g : Grid) (ctx : Context) : Grid × ProductionReport × Context :=
  let start : Production :=
    { router := { grid := g, context := ctx }, stays := Array.replicate g.cells.size true }
  let s := g.interior.foldl (Production.turn g) start
  let (next, consumed) := g.interior.foldl (Production.clear s.stays) (s.router.grid, 0)
  let context := s.router.context
  (next, ⟨s.fired, s.failed, s.router.writes, consumed, context.halt⟩, context)

end Gridfall
