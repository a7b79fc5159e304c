/-
  Operators: a code and a flag that says whether matched inputs survive the tick.

  Each code has an ordered table of signatures. A pair code resolves the vertical and the
  horizontal pair of neighbours on their own; the other codes look at all four neighbours. Special
  codes are also endpoints of pipes. Overwriting codes write over whatever the target cell holds.

  A letter names a code. For most codes the lowercase letter is the variant that keeps its inputs;
  `w`, `c` and `h` are codes of their own.
-/
import Gridfall.Operator.Signature

namespace Gridfall

/-- The operator codes. -/
inductive Operator.Code where
  | writeText
  | writeNumber
  | redirect
  | swap
  | lower
  | upper
  | add
  | subtract
  | multiply
  | divide
  | remainder
  | factor
  | prime
  | reverse
  | not
  | equal
  | greater
  | random
  | convert
  | pass
  | sink
  | tickStamp
  | halt
  | haltDump
  deriving DecidableEq, Repr

/-- An operator cell. -/
structure Operator where
  code : Operator.Code
  /-- Matched inputs survive the tick. -/
  peek : Bool
  deriving DecidableEq, Repr

namespace Operator

namespace Code

/-- The code's name in reports. -/
def name : Code → String
  | writeText => "WriteText"
  | writeNumber => "WriteNumber"
  | redirect => "Redirect"
  | swap => "Swap"
  | lower => "Lower"
  | upper => "Upper"
  | add => "Add"
  | subtract => "Subtract"
  | multiply => "Multiply"
  | divide => "Divide"
  | remainder => "Remainder"
  | factor => "Factor"
  | prime => "Prime"
  | reverse => "Reverse"
  | not => "Not"
  | equal => "Equal"
  | greater => "Greater"
  | random => "Random"
  | convert => "Convert"
  | pass => "Pass"
  | sink => "Sink"
  | tickStamp => "TickStamp"
  | halt => "Halt"
  | haltDump => "HaltDump"

/-- Every code. -/
def all : List Code :=
  [writeText, writeNumber, redirect, swap, lower, upper, add, subtract, multiply, divide,
   remainder, factor, prime, reverse, not, equal, greater, random, convert, pass, sink, tickStamp,
   halt, haltDump]

/-- The code of a name. -/
def ofName? (s : String) : Option Code := all.find? fun c => c.name == s

/-- The signatures of a code, in the order in which they are tried. -/
def signatures : Code → List Signature
  | writeText => Signature.console KindSet.texts
  | writeNumber => Signature.console KindSet.numbers
  | redirect => Signature.redirection
  | swap => Signature.exchange
  | lower | upper | reverse | random => Signature.sameKind
  | prime => Signature.measure
  | not => Signature.test
  | convert => Signature.conversion
  | add | subtract | multiply => Signature.arrangements KindSet.numbers KindSet.texts
  | greater => Signature.arrangements KindSet.numbers KindSet.numbers
  | divide => Signature.division
  | remainder => Signature.remainders
  | factor => Signature.factoring
  | equal => Signature.comparison
  | pass => Signature.passage
  | sink => Signature.disposal
  | tickStamp => Signature.stamp
  | halt | haltDump => Signature.ending

/-- Codes that resolve the vertical and the horizontal pair on their own. -/
def isPair : Code → Bool
  | swap | lower | upper | prime | reverse | not | random | convert | sink => true
  | writeText | writeNumber | redirect | add | subtract | multiply | divide | remainder | factor
  | equal | greater | pass | tickStamp | halt | haltDump => false

/-- Codes that take values from pipes. -/
def isSpecial : Code → Bool
  | pass | sink | tickStamp | halt | haltDump => true
  | _ => false

/-- Codes that write over whatever the target holds. -/
def overwrites : Code → Bool
  | redirect | swap => true
  | _ => false

/-- Codes that never consume. -/
def alwaysPeeks : Code → Bool
  | writeText | writeNumber | redirect | swap | haltDump => true
  | _ => false

/-- Codes whose letter does not depend on the flag. -/
def hasOneLetter (c : Code) : Bool := c.alwaysPeeks || c == halt || c == sink

/-- The letter of a code. -/
def letter : Code → Char
  | writeText => 'W'
  | writeNumber => 'w'
  | redirect => 'C'
  | swap => 'c'
  | lower => 'L'
  | upper => 'U'
  | add => 'A'
  | subtract => 'S'
  | multiply => 'M'
  | divide => 'D'
  | remainder => 'R'
  | factor => 'F'
  | prime => 'P'
  | reverse => 'Z'
  | not => 'N'
  | equal => 'E'
  | greater => 'G'
  | random => 'K'
  | convert => 'Y'
  | pass => 'V'
  | sink => 'X'
  | tickStamp => 'T'
  | halt => 'H'
  | haltDump => 'h'

/-- The code that a letter names: first the letters that name one code in one case only, then the
    others in either case. -/
def ofLetter? (c : Char) : Option Code :=
  match c with
  | 'W' => some writeText
  | 'w' => some writeNumber
  | 'C' => some redirect
  | 'c' => some swap
  | 'H' => some halt
  | 'h' => some haltDump
  | 'X' => some sink
  | _ =>
    match c.toUpper with
    | 'L' => some lower
    | 'U' => some upper
    | 'A' => some add
    | 'S' => some subtract
    | 'M' => some multiply
    | 'D' => some divide
    | 'R' => some remainder
    | 'F' => some factor
    | 'P' => some prime
    | 'Z' => some reverse
    | 'N' => some not
    | 'E' => some equal
    | 'G' => some greater
    | 'K' => some random
    | 'Y' => some convert
    | 'V' => some pass
    | 'T' => some tickStamp
    | _ => none

end Code

/-- The operator of a code as its capital letter writes it. -/
def ofCode (c : Code) : Operator := ⟨c, c.alwaysPeeks⟩

/-- The operator that a letter names. -/
def ofSymbol? (ch : Char) : Option Operator :=
  (Code.ofLetter? ch).map fun c => ⟨c, ch.isLower || c.alwaysPeeks⟩

/-- The letter of an operator. -/
def symbol (op : Operator) : Char :=
  if op.peek && !op.code.hasOneLetter then op.code.letter.toLower else op.code.letter

/-- Whether matched inputs are consumed. -/
def consumes (op : Operator) : Bool := !op.peek

/-- The signatures of an operator. -/
def signatures (op : Operator) : List Signature := op.code.signatures

end Operator

end Gridfall
