/-
  Running a suite. The cases share one console and start from the same seed; the first program
  that does not load ends the run.
-/
import Gridfall.Machine.Basic
import Gridfall.Suite.Basic

namespace Gridfall.Suite

/-- Whether the place of a case holds what is expected. -/
def Case.holds (c : Case) (g : Grid) : Bool := (g.get? c.place).any c.expected.isMet

/-- A full tick brings the counter one closer to any other tick, also round its end. -/
theorem distance_eq {m : Machine} {tick : UInt64} (hdue : m.produce.tick ≠ tick)
    (hlive : ¬ m.produce.halted.isSome = true) :
    (tick - m.tick).toNat = (tick - m.produce.settle.tick).toNat + 1 := by
  have hnext := Machine.tick_settle (Option.not_isSome_iff_eq_none.mp hlive)
  rw [Machine.tick_produce] at hdue hnext
  rw [hnext]
  have hne : m.tick.toNat ≠ tick.toNat := fun h => hdue (UInt64.toNat_inj.mp h)
  have := m.tick.toNat_lt
  have := tick.toNat_lt
  simp only [UInt64.toNat_sub, UInt64.toNat_add, UInt64.toNat_one]
  omega

/-- Runs phase by phase up to the production phase of the tick of the case, and then looks at its
    place. A machine that halts before that fails the case. -/
def Case.probe (c : Case) (m : Machine) : Bool × Machine :=
  if hdue : m.produce.tick = c.tick then (c.holds m.produce.grid, m.produce)
  else if hlive : m.produce.halted.isSome then (false, m.produce)
  else
    have := distance_eq hdue hlive
    if m.produce.settle.halted.isSome then (false, m.produce.settle) else c.probe m.produce.settle
termination_by (c.tick - m.tick).toNat

/-- Runs a case: whether it passed, and the machine after. -/
def Case.run (c : Case) (console : Console) (seed : UInt64) (log : Array Event) :
    Except LoadError (Bool × Machine) :=
  (Source.loadNoted c.program log).map fun (g, log) =>
    c.probe (Machine.start g console seed log)

/-- The verdict on a case. -/
structure Outcome where
  name : String
  passed : Bool
  deriving DecidableEq

/-- The verdicts of a run, in order. -/
structure Report where
  outcomes : List Outcome
  deriving DecidableEq

/-- Runs cases, after the verdicts `done`: the report, the console and the log after. -/
def runCases (seed : UInt64) : List Case → (done : Array Outcome) → Console → Array Event →
    Except Error Report × Console × Array Event
  | [], done, console, log => (.ok ⟨done.toList⟩, console, log)
  | c :: cs, done, console, log =>
    match c.run console seed log with
    | .error e => (.error (.load c.name e), console, log)
    | .ok (passed, m) =>
      runCases seed cs (done.push ⟨c.name, passed⟩) m.console (m.log.push (.verdict c.name passed))

/-- Runs a suite. -/
def run (cases : List Case) (console : Console) (seed : UInt64) (log : Array Event) :
    Except Error Report × Console × Array Event :=
  runCases seed cases #[] console log

namespace Report

/-- How many cases there were. -/
def total (r : Report) : Nat := r.outcomes.length

/-- How many cases passed. -/
def passed (r : Report) : Nat := r.outcomes.countP Outcome.passed

/-- How many cases failed. -/
def failed (r : Report) : Nat := r.total - r.passed

/-- Where the verdicts stand on their lines. -/
def column : Nat := 21

/-- The line of a case. The gap before the verdict is filled with dots on every other line. -/
def line (index : Nat) (o : Outcome) : String :=
  let fill := if index % 2 = 0 then '.' else ' '
  let label := Grid.padTo column fill (o.name.toList ++ [':'])
  String.ofList label ++ (if o.passed then " OK\n" else " Fail\n")

open Text.Decimal in
/-- The report as text. -/
def text (r : Report) : String :=
  "*********  Tests  *********\n\n" ++
    String.join (r.outcomes.zipIdx.map fun (o, i) => line i o) ++
    "\n---------------------------\n\n" ++
    "OK:    " ++ ofNat r.passed ++ "\n" ++
    "Fail:  " ++ ofNat r.failed ++ "\n" ++
    "Total: " ++ ofNat r.total ++ "\n"

end Report

end Gridfall.Suite
