/-
  The parts of RON, the object notation `Name(field: value, ...)`, that hold no others: gaps,
  names, strings and characters.

  White space and comments may stand between all parts; block comments nest. The readers take
  the characters ahead and give the rest, with what they read where it matters.
-/
import Gridfall.Text.Hex

namespace Gridfall.Ron

/-- A kind of gap between the parts of a text. -/
inductive Gap where
  | space
  | line
  | block (depth : Nat)

/-- White space: space, tab, newline and return. -/
def isSpace (c : Char) : Bool := c == ' ' || c == '\t' || c == '\n' || c == '\r'

/-- Skips white space and comments, inside the given gap; `none` if a comment has no end. -/
def skipGap : Gap → List Char → Option (List Char)
  | .space, [] => some []
  | .space, '/' :: '/' :: cs => skipGap .line cs
  | .space, '/' :: '*' :: cs => skipGap (.block 0) cs
  | .space, c :: cs =>
    if isSpace c then skipGap .space cs else if c = '/' then none else some (c :: cs)
  | .line, [] => some []
  | .line, c :: cs => if c = '\n' then skipGap .space cs else skipGap .line cs
  | .block _, [] => none
  | .block 0, '*' :: '/' :: cs => skipGap .space cs
  | .block (n + 1), '*' :: '/' :: cs => skipGap (.block n) cs
  | .block n, '/' :: '*' :: cs => skipGap (.block (n + 1)) cs
  | .block n, _ :: cs => skipGap (.block n) cs

/-- Skips white space and comments. -/
def skip (cs : List Char) : Option (List Char) := skipGap .space cs

/-- Takes exactly the given text. -/
def takeText (s : String) (cs : List Char) : Option (List Char) := s.toList.isPrefixOf? cs

/-- Takes the given texts, with gaps after each. -/
def expect : (parts : List String) → List Char → Option (List Char)
  | [], cs => some cs
  | p :: ps, cs => ((takeText p cs).bind skip).bind (expect ps)

/-- Takes a comma with the gaps around it, and says whether there was one. -/
def takeComma (cs : List Char) : Option (Bool × List Char) := do
  match ← skip cs with
  | ',' :: cs => return (true, ← skip cs)
  | cs => return (false, cs)

/-- A character that starts a name. -/
def isNameStart (c : Char) : Bool := ('a' ≤ c && c ≤ 'z') || ('A' ≤ c && c ≤ 'Z') || c == '_'

/-- A character inside a name. -/
def isNameChar (c : Char) : Bool := isNameStart c || Text.Decimal.isDigit c

/-- A character inside a name that is marked as raw. -/
def isRawChar (c : Char) : Bool := isNameChar c || c == '.' || c == '+' || c == '-'

/-- Takes the given text, unless a name goes on after it. -/
def takeWord (s : String) (cs : List Char) : Option (List Char) :=
  (takeText s cs).filter fun rest => !rest.head?.any isNameChar

/-- Takes a name. A name that goes on with raw characters has to be marked `r#`. -/
def takeName : List Char → Option (String × List Char)
  | 'r' :: '"' :: _ => none
  | 'r' :: '#' :: cs =>
    let (name, rest) := cs.span isRawChar
    if name.isEmpty then none else some (String.ofList name, rest)
  | c :: cs =>
    if isNameStart c then
      let (name, rest) := (c :: cs).span isNameChar
      if rest.head?.any isRawChar then none else some (String.ofList name, rest)
    else none
  | [] => none

/-- Skips an escape after its backslash. -/
def skipEscape : List Char → Option (List Char)
  | 'x' :: a :: b :: cs => do
    let _ ← Text.Hex.digit? a
    let _ ← Text.Hex.digit? b
    return cs
  | 'u' :: '\x7b' :: cs => do
    let (ds, rest) := cs.span (Text.Hex.isDigit 16)
    if ds.isEmpty || 6 < ds.length then none
    else
      let _ ← Text.Hex.char? (Text.Hex.value 16 ds)
      match rest with
      | '\x7d' :: rest => return rest
      | _ => none
  | c :: cs =>
    if c == '\'' || c == '"' || c == '\\' || c == 'n' || c == 'r' || c == 't' || c == '0' then
      some cs
    else none
  | [] => none

/-- Skips a string of at most `fuel` characters after its opening quote. -/
def skipString : (fuel : Nat) → List Char → Option (List Char)
  | 0, _ => none
  | fuel + 1, cs =>
    match cs with
    | [] => none
    | '"' :: cs => some cs
    | '\\' :: cs => (skipEscape cs).bind (skipString fuel)
    | _ :: cs => skipString fuel cs

/-- Skips a raw string after its opening quote, up to a quote with `hashes` behind it. -/
def skipRaw (hashes : List Char) : List Char → Option (List Char)
  | [] => none
  | c :: cs =>
    if c = '"' && hashes.isPrefixOf cs then some (cs.drop hashes.length) else skipRaw hashes cs

/-- Skips a raw string after its `r`. -/
def skipRawString (cs : List Char) : Option (List Char) :=
  let (hashes, rest) := cs.span (· == '#')
  match rest with
  | '"' :: rest => skipRaw hashes rest
  | _ => none

/-- Skips a character after its opening quote. A quote itself has to be escaped. -/
def skipChar (cs : List Char) : Option (List Char) := do
  let rest ←
    match cs with
    | '\\' :: cs => skipEscape cs
    | '\'' :: _ => none
    | _ :: cs => some cs
    | [] => none
  match rest with
  | '\'' :: rest => return rest
  | _ => none

end Gridfall.Ron
