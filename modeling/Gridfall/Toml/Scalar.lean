/-
  The parts of TOML values that hold no others: strings, numbers, dates and times. The readers
  take the characters ahead and give what they read together with the rest.
-/
import Gridfall.Text.Hex
import Gridfall.Text.Scientific
import Gridfall.Toml.Basic

namespace Gridfall.Toml

/-- Space and tab. -/
def isSpace (c : Char) : Bool := c == ' ' || c == '\t'

/-- Drops spaces and tabs. -/
def skipSpace (cs : List Char) : List Char := cs.dropWhile isSpace

/-- A character of comments and one-line strings. -/
def isPlain (c : Char) : Bool := c == '\t' || (0x20 ≤ c.toNat && c.toNat != 0x7F)

/-- Takes a newline. -/
def takeNewline : List Char → Option (List Char)
  | '\n' :: cs => some cs
  | '\r' :: '\n' :: cs => some cs
  | _ => none

/-- Drops spaces, tabs and newlines. -/
def skipLines : List Char → List Char
  | '\r' :: '\n' :: cs => skipLines cs
  | c :: cs => if isSpace c || c == '\n' then skipLines cs else c :: cs
  | [] => []

/-- The character with the code that exactly `n` hexadecimal digits spell. -/
def readCode (n : Nat) (cs : List Char) : Option (Char × List Char) :=
  let ds := cs.take n
  if ds.length = n && ds.all (Text.Hex.isDigit 16) then
    (Text.Hex.char? (Text.Hex.value 16 ds)).map fun c => (c, cs.drop n)
  else none

/-- Reads an escape after its backslash. -/
def readEscape : List Char → Option (Char × List Char)
  | 'b' :: cs => some ('\x08', cs)
  | 't' :: cs => some ('\t', cs)
  | 'n' :: cs => some ('\n', cs)
  | 'f' :: cs => some ('\x0c', cs)
  | 'r' :: cs => some ('\r', cs)
  | '"' :: cs => some ('"', cs)
  | '\\' :: cs => some ('\\', cs)
  | 'u' :: cs => readCode 4 cs
  | 'U' :: cs => readCode 8 cs
  | _ => none

/-- Reads a string on one line after its opening quote. -/
def readBasic : (fuel : Nat) → List Char → (done : Array Char) → Option (String × List Char)
  | 0, _, _ => none
  | fuel + 1, cs, done =>
    match cs with
    | [] => none
    | '"' :: cs => some (String.ofList done.toList, cs)
    | '\\' :: cs => (readEscape cs).bind fun (c, cs) => readBasic fuel cs (done.push c)
    | c :: cs => if isPlain c then readBasic fuel cs (done.push c) else none

/-- Reads a literal string on one line after its opening quote. -/
def readLiteral (cs : List Char) : Option (String × List Char) :=
  let (body, rest) := cs.span fun c => isPlain c && c != '\''
  match rest with
  | '\'' :: rest => some (String.ofList body, rest)
  | _ => none

/-- Goes on with a string over several lines, which three times `quote` end; up to two more may
    stand right before the end. Escapes count if the quote is a double one. -/
def readLong (quote : Char) : (fuel : Nat) → List Char → (done : Array Char) →
    Option (String × List Char)
  | 0, _, _ => none
  | fuel + 1, cs, done =>
    let quotes := cs.takeWhile (· == quote)
    if 3 ≤ quotes.length then
      if quotes.length ≤ 5 then
        some (String.ofList (done.toList ++ quotes.drop 3), cs.drop quotes.length)
      else none
    else
      match takeNewline cs with
      | some cs => readLong quote fuel cs (done.push '\n')
      | none =>
        match cs with
        | [] => none
        | c :: cs =>
          if c = '\\' && quote = '"' then
            match takeNewline (skipSpace cs) with
            | some cs => readLong quote fuel (skipLines cs) done
            | none => (readEscape cs).bind fun (c, cs) => readLong quote fuel cs (done.push c)
          else if isPlain c then readLong quote fuel cs (done.push c)
          else none

/-- Reads a string over several lines after its three opening quotes. A newline right there does
    not belong to it. -/
def readLongString (quote : Char) (cs : List Char) : Option (String × List Char) :=
  readLong quote (cs.length + 1) ((takeNewline cs).getD cs) #[]

/-- Reads a string on one line, as a value or a key. -/
def readShortString : List Char → Option (String × List Char)
  | '"' :: cs => readBasic (cs.length + 1) cs #[]
  | '\'' :: cs => readLiteral cs
  | _ => none

/-- Reads any string. -/
def readString : List Char → Option (String × List Char)
  | '"' :: '"' :: '"' :: cs => readLongString '"' cs
  | '\'' :: '\'' :: '\'' :: cs => readLongString '\'' cs
  | cs => readShortString cs

/-- Takes digits of a base with single underscores between them: the digits, and the rest. -/
def takeDigits (base : Nat) : List Char → List Char × List Char
  | [] => ([], [])
  | '_' :: c :: cs =>
    if Text.Hex.isDigit base c then
      let (ds, rest) := takeDigits base cs
      (c :: ds, rest)
    else ([], '_' :: c :: cs)
  | c :: cs =>
    if Text.Hex.isDigit base c then
      let (ds, rest) := takeDigits base cs
      (c :: ds, rest)
    else ([], c :: cs)

/-- Takes digits of a base, the first one without an underscore before it. -/
def takeNumber (base : Nat) (cs : List Char) : Option (List Char × List Char) :=
  if cs.head?.any (Text.Hex.isDigit base) then some (takeDigits base cs) else none

/-- Takes a sign: whether it is a minus, and the rest. -/
def takeSign : List Char → Bool × List Char
  | '-' :: cs => (true, cs)
  | '+' :: cs => (false, cs)
  | cs => (false, cs)

/-- Takes a whole number in decimal, which has no leading zero. -/
def takeWhole : List Char → Option (List Char × List Char)
  | '0' :: cs => some (['0'], cs)
  | cs => takeNumber 10 cs

/-- An integer, if it has at most 64 bits. -/
def integer? (z : Int) : Option Toml :=
  if -0x8000000000000000 ≤ z && z < 0x8000000000000000 then some (.integer z) else none

/-- Reads digits of a base as an integer. -/
def readBased (base : Nat) (cs : List Char) : Option (Toml × List Char) := do
  let (ds, cs) ← takeNumber base cs
  return (← integer? (Text.Hex.value base ds), cs)

/-- Reads an integer. -/
def readInteger : List Char → Option (Toml × List Char)
  | '0' :: 'x' :: cs => readBased 16 cs
  | '0' :: 'o' :: cs => readBased 8 cs
  | '0' :: 'b' :: cs => readBased 2 cs
  | cs => do
    let (negative, cs) := takeSign cs
    let (ds, cs) ← takeWhole cs
    let n := Text.Decimal.value ds
    return (← integer? (if negative then -(n : Int) else n), cs)

/-- Takes an exponent. -/
def takeExponent : List Char → Option (Int × List Char)
  | c :: cs =>
    if c == 'e' || c == 'E' then
      let (negative, cs) := takeSign cs
      (takeNumber 10 cs).map fun (ds, cs) =>
        let n := Text.Decimal.value ds
        (if negative then -(n : Int) else n, cs)
    else none
  | [] => none

/-- A number with fraction or exponent. A positive one has to be finite in double precision. -/
def real? (negative : Bool) (x : Text.Scientific) : Option Toml :=
  if !negative && x.overflows then none else some .real

/-- Reads a number with fraction or exponent, or one of the special numbers. -/
def readReal (cs : List Char) : Option (Toml × List Char) :=
  let (negative, cs) := takeSign cs
  match cs with
  | 'i' :: 'n' :: 'f' :: cs => some (.real, cs)
  | 'n' :: 'a' :: 'n' :: cs => some (.real, cs)
  | cs => do
    let (whole, cs) ← takeWhole cs
    match cs with
    | '.' :: cs =>
      let (fraction, cs) ← takeNumber 10 cs
      let (e, cs) := (takeExponent cs).getD (0, cs)
      return (← real? negative (.ofParts whole fraction e), cs)
    | cs =>
      let (e, cs) ← takeExponent cs
      return (← real? negative (.ofParts whole [] e), cs)

/-- Takes exactly `n` decimal digits. -/
def takeFixed (n : Nat) (cs : List Char) : Option (Nat × List Char) :=
  let ds := cs.take n
  if ds.length = n && ds.all Text.Decimal.isDigit then some (Text.Decimal.value ds, cs.drop n)
  else none

/-- Takes one character. -/
def takeChar (c : Char) : List Char → Option (List Char)
  | d :: cs => if c = d then some cs else none
  | [] => none

/-- Whether a year has a leap day. -/
def isLeap (year : Nat) : Bool := year % 4 == 0 && (year % 100 != 0 || year % 400 == 0)

/-- The days of a month. -/
def daysIn (year month : Nat) : Nat :=
  if month == 2 then if isLeap year then 29 else 28
  else if month == 4 || month == 6 || month == 9 || month == 11 then 30
  else 31

/-- Reads a date. -/
def readDate (cs : List Char) : Option (List Char) := do
  let (year, cs) ← takeFixed 4 cs
  let (month, cs) ← takeFixed 2 (← takeChar '-' cs)
  let (day, cs) ← takeFixed 2 (← takeChar '-' cs)
  if 1 ≤ month && month ≤ 12 && 1 ≤ day && day ≤ daysIn year month then return cs else none

/-- Reads a time of day. A minute may have a leap second. -/
def readTime (cs : List Char) : Option (List Char) := do
  let (hour, cs) ← takeFixed 2 cs
  let (minute, cs) ← takeFixed 2 (← takeChar ':' cs)
  let (second, cs) ← takeFixed 2 (← takeChar ':' cs)
  if hour ≤ 23 && minute ≤ 59 && second ≤ 60 then
    match cs with
    | '.' :: cs =>
      let (ds, rest) := cs.span Text.Decimal.isDigit
      if ds.isEmpty then none else return rest
    | cs => return cs
  else none

/-- Reads the offset of a time, if there is one. -/
def readOffset (cs : List Char) : Option (List Char) :=
  match cs with
  | [] => some []
  | c :: rest =>
    if c == 'Z' || c == 'z' then some rest
    else if c == '+' || c == '-' then do
      let (hour, rest) ← takeFixed 2 rest
      let (minute, rest) ← takeFixed 2 (← takeChar ':' rest)
      if hour ≤ 23 && minute ≤ 59 then return rest else none
    else some cs

/-- Reads the time after a date, if there is one. -/
def readTimeAfterDate (cs : List Char) : Option (List Char) :=
  match cs with
  | [] => some []
  | c :: rest =>
    if c == 'T' || c == 't' || (c == ' ' && rest.head?.any Text.Decimal.isDigit) then
      (readTime rest).bind readOffset
    else some cs

/-- Whether a date or a time starts here. -/
def startsMoment (cs : List Char) : Bool :=
  ((takeFixed 4 cs).bind fun r => takeChar '-' r.2).isSome ||
    ((takeFixed 2 cs).bind fun r => takeChar ':' r.2).isSome

/-- Reads a date, a time, or both. -/
def readMoment (cs : List Char) : Option (Toml × List Char) :=
  let rest :=
    if ((takeFixed 2 cs).bind fun r => takeChar ':' r.2).isSome then readTime cs
    else (readDate cs).bind readTimeAfterDate
  rest.map fun cs => (.moment, cs)

/-- Reads a date, a time or a number. -/
def readNumeric (cs : List Char) : Option (Toml × List Char) :=
  if startsMoment cs then readMoment cs
  else
    match readReal cs with
    | some r => some r
    | none => readInteger cs

end Gridfall.Toml
