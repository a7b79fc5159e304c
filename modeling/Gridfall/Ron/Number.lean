/-
  RON numbers.

  A number that goes on past the digits of a whole one has a fraction or exponent. Any other is
  read as a whole number of 64 bits, and where that fails as a decimal one: so `1e5`, whose
  characters are all hexadecimal digits, and a decimal number of more than 64 bits are numbers,
  but a hexadecimal one of more than 64 bits is not.
-/
import Gridfall.Ron.Token

namespace Gridfall.Ron

/-- The base that a number announces, and the text after that. -/
def takeBase : List Char → Nat × List Char
  | '0' :: 'x' :: cs => (16, cs)
  | '0' :: 'o' :: cs => (8, cs)
  | '0' :: 'b' :: cs => (2, cs)
  | cs => (10, cs)

/-- A digit of any base, or an underscore. -/
def isWholeChar (c : Char) : Bool := Text.Hex.isDigit 16 c || c == '_'

/-- Reads a whole number without sign that is below `bound`. Underscores may stand after the
    first digit. -/
def readBelow (bound : Nat) (cs : List Char) : Option (Nat × List Char) :=
  let (base, cs) := takeBase cs
  let (ds, rest) := cs.span isWholeChar
  let digits := ds.filter (· != '_')
  if ds.isEmpty || ds.head? = some '_' || !digits.all (Text.Hex.isDigit base) then none
  else
    let n := Text.Hex.value base digits
    if n < bound then some (n, rest) else none

/-- Reads a 64-bit unsigned integer. -/
def readWord (cs : List Char) : Option (UInt64 × List Char) :=
  (readBelow UInt64.size cs).map fun (n, cs) => (n.toUInt64, cs)

/-- Drops a sign, if there is one. -/
def dropSign : List Char → List Char
  | '+' :: cs => cs
  | '-' :: cs => cs
  | cs => cs

/-- A character of a number with fraction or exponent. -/
def isRealChar (c : Char) : Bool :=
  Text.Decimal.isDigit c || c == '.' || c == 'e' || c == 'E' || c == '+' || c == '-' || c == '_'

/-- Whether the characters are an exponent, or nothing. -/
def isExponent : List Char → Bool
  | [] => true
  | c :: cs =>
    let ds := dropSign cs
    (c == 'e' || c == 'E') && !ds.isEmpty && ds.all Text.Decimal.isDigit

/-- Whether the characters are digits with an optional point among them and an exponent. -/
def isReal (cs : List Char) : Bool :=
  let (whole, rest) := cs.span Text.Decimal.isDigit
  let (fraction, rest) :=
    match rest with
    | '.' :: rest => rest.span Text.Decimal.isDigit
    | rest => ([], rest)
  !(whole.isEmpty && fraction.isEmpty) && isExponent rest

/-- Skips a decimal number, an infinity, or what is not a number. -/
def skipReal (cs : List Char) : Option (List Char) :=
  match (["inf", "NaN"].findSome? fun s => takeWord s (dropSign cs)) with
  | some rest => some rest
  | none =>
    let (real, rest) := cs.span isRealChar
    if isReal (dropSign real) then some rest else none

/-- The bound on a whole number, which is signed if it has a sign. -/
def wholeBound : List Char → Nat
  | '+' :: _ => 0x8000000000000000
  | '-' :: _ => 0x8000000000000001
  | _ => UInt64.size

/-- Skips a number. -/
def skipNumber (cs : List Char) : Option (List Char) :=
  let body := dropSign cs
  if (body.takeWhile isWholeChar).length < (body.takeWhile isRealChar).length then skipReal cs
  else
    match readBelow (wholeBound cs) body with
    | some (_, rest) => some rest
    | none => skipReal cs

end Gridfall.Ron
