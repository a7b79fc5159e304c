/-
  Loading: a program text becomes a grid. The page is scanned in raster order, one cell for each
  character. A literal takes the place of its opener; the characters that it took turn into
  spaces, so the scan later finds empty cells there.
-/
import Gridfall.Log
import Gridfall.Source.Constant
import Gridfall.Source.Literal
import Gridfall.Source.Page

namespace Gridfall

/-- Why a program could not be loaded. -/
inductive LoadError where
  | invalidCharacter (c : Char) (place : Pos)
  | unterminatedLiteral (place : Pos)
  | unknownConstant (name : String) (place : Pos)
  | grid (e : GridError)
  deriving DecidableEq

namespace LoadError

/-- The message of an error. -/
def message : LoadError → String
  | invalidCharacter c p => "character not valid '" ++ c.toString ++ "' " ++ p.text
  | unterminatedLiteral p => "unclosed literal " ++ p.text
  | unknownConstant name p => "unknown constant '" ++ name ++ "' " ++ p.text
  | grid e => e.message

/-- The place of an error, if it has one. -/
def place? : LoadError → Option Pos
  | invalidCharacter _ p | unterminatedLiteral p | unknownConstant _ p => some p
  | grid _ => none

end LoadError

namespace Source

/-- The cell that a literal leaves at its opener. -/
def contentCell (p : Pos) : Content → Except LoadError Cell
  | .comment => .ok .empty
  | .number n => .ok (.ofValue (.number n))
  | .text s => .ok (.ofValue (.text s))
  | .constant name =>
    match constant? name with
    | some v => .ok (.ofValue v)
    | none => .error (.unknownConstant name p)

/-- Reads the literal that starts at `p` and erases the characters that it took. -/
def literalCell (page : Page) (p : Pos) (o : Opener) : Except LoadError (Cell × Page) :=
  let path := if o.downward then page.below p else page.rightOf p
  match o.read (path.map page.charAt) with
  | none => .error (.unterminatedLiteral p)
  | some (content, taken) =>
    (contentCell p content).map fun cell => (cell, (path.take taken).foldl Page.erase page)

/-- The cell of a character that opens no literal. -/
def plainCell (c : Char) (p : Pos) : Except LoadError Cell :=
  match c with
  | ' ' => .ok .empty
  | '#' => .ok .border
  | 'I' => .ok (.ofValue .input)
  | 'O' => .ok (.ofValue .output)
  | c =>
    match Text.Decimal.digit? c with
    | some d => .ok (.ofValue (.number (Int64.ofNat d)))
    | none =>
      match Cell.ofSymbol? c with
      | some cell => .ok cell
      | none => .error (.invalidCharacter c p)

/-- The cell at `p`, and the page with the characters that it took erased. -/
def scanCell (page : Page) (p : Pos) : Except LoadError (Cell × Page) :=
  match opener? (page.charAt p) with
  | some o => literalCell page p o
  | none => (plainCell (page.charAt p) p).map fun cell => (cell, page)

/-- Scans the columns `xs` of row `y`, after the cells `done`. -/
def scanRow (y : Nat) : (xs : List Nat) → (done : Array Cell) → Page →
    Except LoadError (Array Cell × Page)
  | [], done, page => .ok (done, page)
  | x :: xs, done, page =>
    match scanCell page ⟨x, y⟩ with
    | .error e => .error e
    | .ok (cell, page) => scanRow y xs (done.push cell) page

/-- Scans the rows `ys`, after the rows `done`. -/
def scanRows : (ys : List Nat) → (done : Array (List Cell)) → Page →
    Except LoadError (Array (List Cell))
  | [], done, _ => .ok done
  | y :: ys, done, page =>
    match scanRow y (List.range page.width) #[] page with
    | .error e => .error e
    | .ok (row, page) => scanRows ys (done.push row.toList) page

/-- Loads a program. -/
def load (source : String) : Except LoadError Grid :=
  let page := Page.ofRows (frame source)
  match scanRows (List.range page.height) #[] page with
  | .error e => .error e
  | .ok rows => (Grid.ofRows rows.toList).mapError .grid

/-- Loads a program and adds to the log that it was read. -/
def loadNoted (source : String) (log : Array Event) : Except LoadError (Grid × Array Event) :=
  (load source).map fun g => (g, log.push (.loaded g.width g.height))

end Source

end Gridfall
