/-
  Suites: programs with an expectation each. A case passes if, right after the production phase of
  a given tick, a given place holds the expected value.
-/
import Gridfall.Source.Load

namespace Gridfall.Suite

/-- What a case expects at its place. -/
inductive Expected where
  /-- Anything that is not a value. -/
  | empty
  | number (n : Number)
  | text (s : String)
  | input
  | output
  deriving DecidableEq

/-- Whether a cell is what is expected. -/
def Expected.isMet (e : Expected) (c : Cell) : Bool :=
  match e, c.datum?.map Datum.value with
  | .empty, none => true
  | .number n, some (.number m) => n == m
  | .text s, some (.text t) => s == t
  | .input, some .input => true
  | .output, some .output => true
  | _, _ => false

/-- A program with an expectation. -/
structure Case where
  name : String
  /-- The tick whose production phase is looked at. -/
  tick : UInt64
  place : Pos
  expected : Expected
  program : String
  deriving DecidableEq

/-- The fields of a case's header. -/
inductive Field where
  | name
  | tick
  | x
  | y
  | kind
  | number
  deriving DecidableEq

/-- The name of a field. -/
def Field.text : Field → String
  | name => "name"
  | tick => "tick"
  | x => "x"
  | y => "y"
  | kind => "kind"
  | number => "number"

/-- What is wrong with a header. -/
inductive HeaderFault where
  | missing (field : Field)
  | bad (field : Field) (token : String)
  deriving DecidableEq

/-- How a fault is described. -/
def HeaderFault.message : HeaderFault → String
  | missing f => "missing " ++ f.text
  | bad f token => "bad " ++ f.text ++ " '" ++ token ++ "'"

/-- Why a suite cannot be read or run. -/
inductive Error where
  | missingMarker
  | header (index : Nat) (fault : HeaderFault)
  | load (name : String) (e : LoadError)
  deriving DecidableEq

/-- The message of an error. -/
def Error.message : Error → String
  | missingMarker => "a test suite must start with '@'"
  | header i fault => "case " ++ Text.Decimal.ofNat i ++ ": malformed header: " ++ fault.message
  | load name e => "case '" ++ name ++ "': " ++ e.message

end Gridfall.Suite
