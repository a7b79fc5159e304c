/-
  The machine: a grid with a tick counter, a generator and a console, run tick by tick until it
  halts.

  A tick is a production phase and a settlement phase. A halt operator stops the machine after
  production, and the tick does not count; settlement without any value stops it too, and that
  tick counts. A halted machine stays as it is. What a phase or a driver answers is the `halted` of
  the machine that it leaves.
-/
import Gridfall.Snapshot.Basic
import Gridfall.Tick.Production
import Gridfall.Tick.Settlement

namespace Gridfall

/-- Why a machine stopped. -/
inductive HaltReason where
  /-- A halt operator received a value. -/
  | operator (dump : Bool)
  /-- There was no value to settle. -/
  | noData
  deriving DecidableEq

/-- A machine between two phases. -/
structure Machine where
  grid : Grid
  generator : Generator
  console : Console
  /-- Settlement phases so far. -/
  tick : UInt64 := 0
  halted : Option HaltReason := none
  /-- What the latest production phase did. -/
  report : ProductionReport := {}
  /-- The counter after the latest full tick. -/
  lastTick : Option UInt64 := none
  log : Array Event := #[]

namespace Machine

/-- A machine over a grid, at its start. -/
def start (grid : Grid) (console : Console) (seed : UInt64) (log : Array Event) : Machine :=
  { grid, generator := ⟨seed⟩, console, log }

/-- What operators can reach. -/
def context (m : Machine) : Context :=
  { console := m.console, generator := m.generator, tick := m.tick, log := m.log }

/-- Takes over what operators have changed. -/
def adopt (m : Machine) (ctx : Context) : Machine :=
  { m with console := ctx.console, generator := ctx.generator, log := ctx.log }

/-- Adds an event to the log. -/
def note (m : Machine) (e : Event) : Machine := { m with log := m.log.push e }

/-- Writes a value and a space; markers are left out. -/
def dumpValue (ctx : Context) (v : Value) : Context :=
  match v with
  | .number n => (ctx.writeNumber n).write " "
  | .text s => (ctx.write s).write " "
  | .none | .input | .output => ctx

/-- Writes every number and text in raster order. -/
def dumpValues (m : Machine) : Machine :=
  m.adopt (m.grid.data.foldl (fun ctx e => dumpValue ctx e.2.value) m.context)

/-- Stops at the request of a halt operator. -/
def obey (m : Machine) (request : HaltRequest) : Machine :=
  let m := { m with halted := some (.operator request.dump) }.note (.halting m.tick request.dump)
  if request.dump then m.dumpValues else m

/-- Runs the production phase. -/
def produce (m : Machine) : Machine :=
  if m.halted.isSome then m
  else
    let (grid, report, ctx) := Gridfall.produce m.grid m.context
    let m := ({ m with grid, report }.adopt ctx).note
      (.produced m.tick report.fired report.failed report.writes report.consumed)
    match report.halt with
    | some request => m.obey request
    | none => m

/-- Runs the settlement phase and counts the tick. -/
def settle (m : Machine) : Machine :=
  if m.halted.isSome then m
  else
    let (grid, outcome) := Gridfall.settle m.grid
    let m :=
      match outcome with
      | .noData => { m with grid, halted := some .noData }.note (.noData m.tick)
      | .settled moves => { m with grid }.note (.settled m.tick moves)
    { m with tick := m.tick + 1 }

/-- Production does not touch the counter. -/
theorem tick_produce (m : Machine) : m.produce.tick = m.tick := by
  unfold produce
  split
  · rfl
  · dsimp only
    split
    · unfold obey
      dsimp only
      split <;> rfl
    · rfl

/-- A settlement phase that runs counts, whether it halts the machine or not. -/
theorem tick_settle {m : Machine} (h : m.halted = none) : m.settle.tick = m.tick + 1 := by
  unfold settle
  rw [if_neg (by simp [h])]
  dsimp only
  split <;> rfl

/-- Runs a full tick. -/
def step (m : Machine) : Machine :=
  if m.halted.isSome then m
  else
    let m := m.produce.settle
    { m with lastTick := some m.tick }

/-- Runs at most `n` ticks. -/
def runFor : (n : Nat) → Machine → Machine
  | 0, m => m
  | n + 1, m =>
    let m := m.step
    if m.halted.isSome then m else runFor n m

/-- Runs until the machine halts, with an observer ahead of each tick. A run that never halts has
    no result. -/
def runWith? {σ : Type} (before : Machine × σ → Machine × σ) (m : Machine) (seen : σ) :
    Option (Machine × σ) :=
  if m.halted.isSome then some (m, seen)
  else
    let s := before (m, seen)
    s.1.step |>.runWith? before s.2
partial_fixpoint

/-- Runs until the machine halts. A run that never halts has no result. -/
def run? (m : Machine) : Option Machine := (m.runWith? id ()).map Prod.fst

/-- The picture of the grid. -/
def snapshot (m : Machine) : Snapshot := Snapshot.capture m.grid m.tick

end Machine

end Gridfall
