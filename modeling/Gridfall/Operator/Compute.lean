/-
  What operators compute from their operands alone. Numbers wrap around; quotients and remainders
  fail where there is none; texts are handled by characters, and their order is that of their
  code points.
-/
import Gridfall.Cell
import Gridfall.Operator.Fault
import Gridfall.Text.Search

namespace Gridfall.Operator

open Gridfall.Text

/-- The operands of an arrangement: all three, above and left, above and right, left and right. The
    first entry of each arrangement is for numbers, the second for mixed operands. -/
def operands (index : Nat) (up left right : Value) : List Value :=
  match index / 2 with
  | 0 => [up, left, right]
  | 1 => [up, left]
  | 2 => [up, right]
  | _ => [left, right]

/-- The sum of the operands. -/
def sum (vs : List Value) : Number := vs.foldl (fun acc v => acc + v.asNumber) 0

/-- The first operand less the others. -/
def difference : List Value → Number
  | [] => 0
  | v :: vs => vs.foldl (fun acc w => acc - w.asNumber) v.asNumber

/-- The product of the operands. -/
def product (vs : List Value) : Number := vs.foldl (fun acc v => acc * v.asNumber) 1

/-- The operands as texts, one after the other. -/
def concatenation (vs : List Value) : String := vs.foldl (fun acc v => acc ++ v.asText) ""

/-- The first operand as text without any of the others. -/
def textDifference : List Value → List Char
  | [] => []
  | v :: vs => vs.foldl (fun acc w => removeAll w.asText.toList acc) v.asText.toList

/-- The greatest size of a repeated text, in bytes. -/
def repetitionLimit : Nat := 0x1000000

/-- The one text among the operands and the product of the numbers. -/
def repetitionParts : List Value → Option String → Number → Except Fault (String × Number)
  | [], some s, n => .ok (s, n)
  | [], none, _ => .error .repeatOperands
  | .text s :: vs, none, n => repetitionParts vs (some s) n
  | .number m :: vs, s, n => repetitionParts vs s (n * m)
  | _, _, _ => .error .repeatOperands

/-- The one text among the operands, as often as the product of the numbers says. -/
def repetition (vs : List Value) : Except Fault String :=
  match repetitionParts vs none 1 with
  | .error f => .error f
  | .ok (s, n) =>
    if n < 1 then .ok ""
    else if s.utf8ByteSize * n.toInt.toNat ≤ repetitionLimit then .ok (repeated n.toInt.toNat s)
    else .error .overflow

/-- The quotient of two numbers. -/
def quotient (a b : Number) : Except Fault Number :=
  if b == 0 then .error .divisionByZero
  else
    match Number.quotient? a b with
    | some q => .ok q
    | none => .error .overflow

/-- The remainder of two numbers. -/
def remainder (a b : Number) : Except Fault Number :=
  if b == 0 then .error .divisionByZero
  else
    match Number.remainder? a b with
    | some r => .ok r
    | none => .error .overflow

/-- The place of the first occurrence of `needle` in `hay`, or `-1` if there is none or either is
    empty. -/
def placeOf (needle hay : List Char) : Number :=
  if hay.isEmpty || needle.isEmpty then -1
  else
    match find? needle hay with
    | some k => Int64.ofNat k
    | none => -1

/-- Whether each item stands in the relation to the next one. -/
def chain {α : Type} (r : α → α → Bool) : List α → Bool
  | a :: b :: rest => r a b && chain r (b :: rest)
  | [_] | [] => true

/-- Whether the operands decrease as numbers. -/
def decreasing (vs : List Value) : Bool := chain (fun v w => w.asNumber < v.asNumber) vs

/-- Whether the operands decrease as texts. -/
def textDecreasing (vs : List Value) : Bool := chain (fun v w => decide (w.asText < v.asText)) vs

end Gridfall.Operator
