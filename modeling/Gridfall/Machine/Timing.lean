/-
  How long the two phases of a tick took, and which of them took longer.
-/

namespace Gridfall

/-- The two phases of a tick. -/
inductive Phase where
  | production
  | settlement
  deriving DecidableEq

/-- The name of a phase. -/
def Phase.name : Phase → String
  | production => "production"
  | settlement => "settlement"

/-- The times of the two phases, in microseconds. -/
structure PhaseTimes where
  production : Nat := 0
  settlement : Nat := 0
  deriving DecidableEq

/-- The slower phase and its time; the later one if they are equal. -/
def PhaseTimes.slowest (t : PhaseTimes) : Phase × Nat :=
  if t.production ≤ t.settlement then (.settlement, t.settlement) else (.production, t.production)

end Gridfall
