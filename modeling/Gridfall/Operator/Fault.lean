/-
  Why the computation of an operator can fail. A failed operator produces nothing and consumes
  nothing in its tick.
-/
import Gridfall.Text.Quoted

namespace Gridfall.Operator

/-- The causes of a failed computation. -/
inductive Fault where
  | divisionByZero
  | overflow
  | repeatOperands
  | notANumber (text : String)
  deriving DecidableEq

/-- The message of a fault. -/
def Fault.message : Fault → String
  | divisionByZero => "division by zero"
  | overflow => "arithmetic overflow"
  | repeatOperands => "repetition needs exactly one string operand"
  | notANumber s => Text.Quoted.quote s ++ " is not a number"

end Gridfall.Operator
