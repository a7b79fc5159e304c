/-
  Reading JSON. A text is one value with white space around it.

  The readers take the characters ahead and give what they read together with the rest. Every
  value takes a character at least, which bounds the depth of the reading by the length of the
  text.
-/
import Gridfall.Json.Basic
import Gridfall.Text.Hex

namespace Gridfall.Json

/-- White space: space, tab, newline and return. -/
def isSpace (c : Char) : Bool := c == ' ' || c == '\t' || c == '\n' || c == '\r'

/-- Drops leading white space. -/
def skipSpace (cs : List Char) : List Char := cs.dropWhile isSpace

/-- The code unit that four hexadecimal digits spell. -/
def unit? (a b c d : Char) : Option Nat :=
  if [a, b, c, d].all (Text.Hex.isDigit 16) then some (Text.Hex.value 16 [a, b, c, d]) else none

/-- The character that a one-letter escape stands for. -/
def unescape? : Char → Option Char
  | '"' => some '"'
  | '\\' => some '\\'
  | '/' => some '/'
  | 'b' => some '\x08'
  | 'f' => some '\x0c'
  | 'n' => some '\n'
  | 'r' => some '\r'
  | 't' => some '\t'
  | _ => none

/-- The units of a text up to its closing quote: characters, and escaped code units. -/
def readUnits : List Char → Array (Char ⊕ Nat) → Option (Array (Char ⊕ Nat) × List Char)
  | [], _ => none
  | '"' :: cs, units => some (units, cs)
  | '\\' :: 'u' :: a :: b :: c :: d :: cs, units =>
    (unit? a b c d).bind fun u => readUnits cs (units.push (.inr u))
  | '\\' :: e :: cs, units => (unescape? e).bind fun c => readUnits cs (units.push (.inl c))
  | c :: cs, units =>
    if c.toNat < 0x20 || c = '\\' then none else readUnits cs (units.push (.inl c))

/-- Joins code units into characters; `none` if a surrogate has no partner. -/
def joinUnits : List (Char ⊕ Nat) → Option (List Char)
  | [] => some []
  | .inl c :: us => (joinUnits us).map (c :: ·)
  | .inr u :: us =>
    if 0xD800 ≤ u && u < 0xDC00 then
      match us with
      | .inr v :: us =>
        if 0xDC00 ≤ v && v < 0xE000 then
          (joinUnits us).map (Char.ofNat ((u - 0xD800) * 0x400 + (v - 0xDC00) + 0x10000) :: ·)
        else none
      | _ => none
    else if 0xDC00 ≤ u && u < 0xE000 then none
    else (joinUnits us).map (Char.ofNat u :: ·)

/-- Reads a text after its opening quote. -/
def readString (cs : List Char) : Option (Option String × List Char) :=
  (readUnits cs #[]).map fun (units, cs) =>
    ((joinUnits units.toList).map String.ofList, cs)

/-- Takes a run of digits, one at least. -/
def takeDigits (cs : List Char) : Option (List Char × List Char) :=
  let (ds, rest) := cs.span Text.Decimal.isDigit
  if ds.isEmpty then none else some (ds, rest)

/-- Takes the digits of a whole number, which has no leading zero. -/
def takeWhole : List Char → Option (List Char × List Char)
  | '0' :: cs => some (['0'], cs)
  | cs => takeDigits cs

/-- Takes a fraction, if there is one. -/
def takeFraction : List Char → Option (List Char × List Char)
  | '.' :: cs => (takeDigits cs).map fun (ds, cs) => ('.' :: ds, cs)
  | cs => some ([], cs)

/-- Takes the sign of an exponent, if there is one. -/
def takeSign : List Char → List Char × List Char
  | '+' :: cs => (['+'], cs)
  | '-' :: cs => (['-'], cs)
  | cs => ([], cs)

/-- Takes an exponent, if there is one. -/
def takeExponent : List Char → Option (List Char × List Char)
  | c :: cs =>
    if c == 'e' || c == 'E' then
      let (sign, cs) := takeSign cs
      (takeDigits cs).map fun (ds, cs) => (c :: sign ++ ds, cs)
    else some ([], c :: cs)
  | [] => some ([], [])

/-- Reads a number. A negative zero is not an integer. -/
def readNumber (cs : List Char) : Option (Json × List Char) := do
  let (negative, cs) : Bool × List Char :=
    match cs with
    | '-' :: cs => (true, cs)
    | cs => (false, cs)
  let (whole, cs) ← takeWhole cs
  let (fraction, cs) ← takeFraction cs
  let (exponent, cs) ← takeExponent cs
  let n := Text.Decimal.value whole
  if fraction.isEmpty && exponent.isEmpty && !(negative && n == 0) then
    return (.integer (if negative then -(n : Int) else n), cs)
  else
    return (.real ((if negative then ['-'] else []) ++ whole ++ fraction ++ exponent), cs)

mutual

/-- Reads a value, to a depth of `fuel`. -/
def readValue : (fuel : Nat) → List Char → Option (Json × List Char)
  | 0, _ => none
  | fuel + 1, cs =>
    match skipSpace cs with
    | 'n' :: 'u' :: 'l' :: 'l' :: cs => some (.null, cs)
    | 't' :: 'r' :: 'u' :: 'e' :: cs => some (.bool true, cs)
    | 'f' :: 'a' :: 'l' :: 's' :: 'e' :: cs => some (.bool false, cs)
    | '"' :: cs => (readString cs).map fun (s, cs) => (.text s, cs)
    | '[' :: cs =>
      match skipSpace cs with
      | ']' :: cs => some (.array [], cs)
      | cs => readItems fuel cs #[]
    | '\x7b' :: cs =>
      match skipSpace cs with
      | '\x7d' :: cs => some (.object [], cs)
      | cs => readFields fuel cs #[]
    | cs => readNumber cs

/-- Reads the items of an array, after the items `done`. -/
def readItems : (fuel : Nat) → List Char → (done : Array Json) → Option (Json × List Char)
  | 0, _, _ => none
  | fuel + 1, cs, done =>
    match readValue fuel cs with
    | none => none
    | some (v, cs) =>
      match skipSpace cs with
      | ',' :: cs => readItems fuel cs (done.push v)
      | ']' :: cs => some (.array (done.push v).toList, cs)
      | _ => none

/-- Reads the fields of an object, after the fields `done`. -/
def readFields : (fuel : Nat) → List Char → (done : Array (Option String × Json)) →
    Option (Json × List Char)
  | 0, _, _ => none
  | fuel + 1, cs, done =>
    match skipSpace cs with
    | '"' :: cs =>
      match readString cs with
      | none => none
      | some (name, cs) =>
        match skipSpace cs with
        | ':' :: cs =>
          match readValue fuel cs with
          | none => none
          | some (v, cs) =>
            match skipSpace cs with
            | ',' :: cs => readFields fuel cs (done.push (name, v))
            | '\x7d' :: cs => some (.object (done.push (name, v)).toList, cs)
            | _ => none
        | _ => none
    | _ => none

end

/-- Reads a text that is one value. -/
def ofText? (s : String) : Option Json :=
  let cs := s.toList
  match readValue (2 * cs.length + 2) cs with
  | some (v, rest) => if (skipSpace rest).isEmpty then some v else none
  | none => none

end Gridfall.Json
