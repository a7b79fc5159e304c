/-
  Literals of program text. An opener reads ahead, to the right or downward, until its literal is
  complete; each reader below takes the characters ahead and gives the content together with the
  number of characters that it took, the last one included. Without an end there is no content.

  * `comment`: everything up to the closing brace.
  * `number`: digits after an optional `-`. Any other character ends it.
  * `text`: everything up to the quote, with backslash escapes.
  * `constant`: the name up to the slash or backslash.
-/
import Gridfall.Number

namespace Gridfall.Source

/-- What a literal holds. -/
inductive Content where
  | comment
  | number (n : Number)
  | text (s : String)
  | constant (name : String)
  deriving DecidableEq

/-- The kinds of literals. -/
inductive Kind where
  | comment
  | number
  | text
  | constant
  deriving DecidableEq

/-- A literal that a character opens. -/
structure Opener where
  kind : Kind
  /-- The character that ends it. -/
  close : Char
  /-- Whether it reads downward, and not to the right. -/
  downward : Bool

/-- The literal that a character opens. -/
def opener? : Char → Option Opener
  | '\x7b' => some ⟨.comment, '\x7d', false⟩
  | '(' => some ⟨.number, ')', false⟩
  | '[' => some ⟨.number, ']', true⟩
  | '"' => some ⟨.text, '"', false⟩
  | '\'' => some ⟨.text, '\'', true⟩
  | '/' => some ⟨.constant, '/', false⟩
  | '\\' => some ⟨.constant, '\\', true⟩
  | _ => none

/-- The character that an escape stands for. -/
def unescape : Char → Char
  | 'a' => '\x07'
  | 'b' => '\x08'
  | 'f' => '\x0c'
  | 'n' => '\n'
  | 'r' => '\r'
  | 't' => '\t'
  | 'v' => '\x0b'
  | c => c

/-- The characters before `close`, and how many were taken. -/
def readUpTo (close : Char) : List Char → Option (List Char × Nat)
  | [] => none
  | c :: cs =>
    if c = close then some ([], 1)
    else (readUpTo close cs).map fun r => (c :: r.1, r.2 + 1)

/-- Goes on with the number `n`. A `-` counts at the start only; numbers wrap. -/
def readNumber (atStart negative : Bool) (n : Number) : List Char → Option (Number × Nat)
  | [] => none
  | c :: cs =>
    match Text.Decimal.digit? c with
    | some d => (readNumber false negative (n * 10 + Int64.ofNat d) cs).map fun r => (r.1, r.2 + 1)
    | none =>
      if atStart && c == '-' then (readNumber false true n cs).map fun r => (r.1, r.2 + 1)
      else some (if negative then -n else n, 1)

/-- Reads a text up to `close`. -/
def readText (close : Char) : (escaped : Bool) → List Char → Option (List Char × Nat)
  | _, [] => none
  | true, c :: cs => (readText close false cs).map fun r => (unescape c :: r.1, r.2 + 1)
  | false, c :: cs =>
    if c = close then some ([], 1)
    else if c = '\\' then (readText close true cs).map fun r => (r.1, r.2 + 1)
    else (readText close false cs).map fun r => (c :: r.1, r.2 + 1)

/-- Reads the content of a literal from the characters ahead, and how many it took. -/
def Opener.read (o : Opener) (ahead : List Char) : Option (Content × Nat) :=
  match o.kind with
  | .comment => (readUpTo o.close ahead).map fun r => (.comment, r.2)
  | .number => (readNumber true false 0 ahead).map fun r => (.number r.1, r.2)
  | .text => (readText o.close false ahead).map fun r => (.text (String.ofList r.1), r.2)
  | .constant => (readUpTo o.close ahead).map fun r => (.constant (String.ofList r.1), r.2)

end Gridfall.Source
