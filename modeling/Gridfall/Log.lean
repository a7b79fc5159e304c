/-
  The log: what happened, as a list of events. Every event has a level and a message.
-/
import Gridfall.Console
import Gridfall.Grid.Basic
import Gridfall.Operator.Fault

namespace Gridfall

/-- Something worth a line in the log. -/
inductive Event where
  /-- A program was read. -/
  | loaded (width height : Nat)
  /-- A production phase is over. -/
  | produced (tick : UInt64) (fired failed writes consumed : Nat)
  /-- A halt operator stops the machine. -/
  | halting (tick : UInt64) (dump : Bool)
  /-- There is no value left to settle. -/
  | noData (tick : UInt64)
  /-- A settlement phase is over. -/
  | settled (tick : UInt64) (moves : Nat)
  /-- The computation of an operator failed. -/
  | operatorFault (op : Operator) (place : Pos) (fault : Operator.Fault)
  /-- The computation of an operator on a pair of cells failed. -/
  | pairFault (op : Operator) (back ahead : Pos) (fault : Operator.Fault)
  /-- A value was dropped because it would go round for ever. -/
  | pipeLoop (place : Pos) (dir : Dir) (value : Value)
  /-- The console failed. -/
  | console (trouble : Console.Trouble)
  /-- A section of a suite is blank. -/
  | emptySection (index : Nat)
  /-- The header of a case names no known kind. -/
  | unknownKind (case : String) (kind : Char)
  /-- A case was run. -/
  | verdict (case : String) (passed : Bool)
  /-- Settings were read from a file. -/
  | settingsRead (file summary : String)
  deriving DecidableEq

namespace Event

/-- The level of an event. -/
def level : Event → String
  | produced .. | settled .. | operatorFault .. | pairFault .. => "TRACE"
  | loaded .. | halting .. | noData .. | verdict .. | settingsRead .. => "DEBUG"
  | pipeLoop .. | console .. | emptySection .. | unknownKind .. => "WARN"

/-- A tick in decimal. -/
def tickText (t : UInt64) : String := Text.Decimal.ofNat t.toNat

open Text.Decimal in
/-- The message of an event. -/
def message : Event → String
  | loaded w h => "loaded " ++ ofNat w ++ "x" ++ ofNat h ++ " grid"
  | produced t fired failed writes consumed =>
    "tick " ++ tickText t ++ ": " ++ ofNat fired ++ " fired, " ++ ofNat failed ++ " failed, " ++
      ofNat writes ++ " writes, " ++ ofNat consumed ++ " consumed"
  | halting t dump =>
    "halt operator at tick " ++ tickText t ++ " (dump: " ++ (if dump then "true" else "false") ++
      ")"
  | noData t => "no data left at tick " ++ tickText t
  | settled t moves => "tick " ++ tickText t ++ ": " ++ ofNat moves ++ " moves"
  | operatorFault op p f => op.symbol.toString ++ " at " ++ p.text ++ ": " ++ f.message
  | pairFault op back ahead f =>
    op.symbol.toString ++ " between " ++ back.text ++ " and " ++ ahead.text ++ ": " ++ f.message
  | pipeLoop p d v =>
    "pipe loop at " ++ p.text ++ " heading " ++ d.name ++ "; value " ++ v.shown ++ " dropped"
  | console (.reading reason) => "console read failed: " ++ reason
  | console (.writing reason) => "console write failed: " ++ reason
  | emptySection i => "suite section " ++ ofNat i ++ " is empty; skipped"
  | unknownKind case kind =>
    "case '" ++ case ++ "': unknown kind '" ++ kind.toString ++ "', expecting no value"
  | verdict case passed => "case '" ++ case ++ "': " ++ (if passed then "ok" else "fail")
  | settingsRead file summary => "loaded config from " ++ file ++ ": " ++ summary

/-- The line of an event. -/
def line (e : Event) : String := e.level ++ " " ++ e.message

end Event

end Gridfall
