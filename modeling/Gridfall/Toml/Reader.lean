/-
  Reading TOML documents, line by line. Every value takes a character at least, which bounds the
  depth of the reading by the length of the text.
-/
import Gridfall.Toml.Scalar

namespace Gridfall.Toml

/-- A character of a key without quotes. -/
def isKeyChar (c : Char) : Bool :=
  ('a' ≤ c && c ≤ 'z') || ('A' ≤ c && c ≤ 'Z') || Text.Decimal.isDigit c || c == '_' || c == '-'

/-- Reads one part of a key. -/
def readKeyPart (cs : List Char) : Option (String × List Char) :=
  let (bare, rest) := cs.span isKeyChar
  if bare.isEmpty then readShortString cs else some (String.ofList bare, rest)

/-- Reads a dotted key, after its parts `parents`: all parts but the last, and the last one. -/
def readKeyFrom : (fuel : Nat) → List Char → (parents : Array String) →
    Option ((List String × String) × List Char)
  | 0, _, _ => none
  | fuel + 1, cs, parents =>
    match readKeyPart (skipSpace cs) with
    | none => none
    | some (key, cs) =>
      match skipSpace cs with
      | '.' :: cs => readKeyFrom fuel cs (parents.push key)
      | cs => some ((parents.toList, key), cs)

/-- How deep arrays and tables may be nested, and how many parts a key may have. -/
def nesting : Nat := 79

/-- Reads a dotted key. -/
def readKey (cs : List Char) : Option ((List String × String) × List Char) :=
  readKeyFrom nesting cs #[]

/-- Drops a comment, if there is one. -/
def skipComment : List Char → List Char
  | '#' :: cs => cs.dropWhile isPlain
  | cs => cs

/-- Takes the end of a line, with a comment before it. -/
def endLine (cs : List Char) : Option (List Char) :=
  match skipComment (skipSpace cs) with
  | [] => some []
  | cs => takeNewline cs

/-- Drops white space, newlines and comments; a comment ends with its line. -/
def skipFiller : (fuel : Nat) → List Char → Option (List Char)
  | 0, _ => none
  | fuel + 1, cs =>
    match skipLines cs with
    | '#' :: cs => (takeNewline (cs.dropWhile isPlain)).bind (skipFiller fuel)
    | cs => some cs

/-- Drops white space, newlines and comments inside an array. -/
def skipAll (cs : List Char) : Option (List Char) := skipFiller (cs.length + 1) cs

mutual

/-- Reads a value in which arrays and tables are nested at most `room` deep. -/
def readValue : (fuel room : Nat) → List Char → Option (Toml × List Char)
  | 0, _, _ => none
  | fuel + 1, room, cs =>
    match cs with
    | '"' :: _ | '\'' :: _ => (readString cs).map fun (s, cs) => (.text s, cs)
    | '[' :: cs =>
      if room = 0 then none
      else (readItems fuel (room - 1) cs #[]).map fun (items, cs) => (.array items, cs)
    | '\x7b' :: cs =>
      if room = 0 then none
      else
        match skipSpace cs with
        | '\x7d' :: cs => some (.table .inline [], cs)
        | cs => (readPairs fuel (room - 1) cs []).map fun (es, cs) => (.table .inline es, cs)
    | 't' :: 'r' :: 'u' :: 'e' :: cs => some (.bool true, cs)
    | 'f' :: 'a' :: 'l' :: 's' :: 'e' :: cs => some (.bool false, cs)
    | cs => readNumeric cs

/-- Reads the items of an array, after the items `done`. -/
def readItems : (fuel room : Nat) → List Char → (done : Array Toml) →
    Option (List Toml × List Char)
  | 0, _, _, _ => none
  | fuel + 1, room, cs, done =>
    match skipAll cs with
    | none => none
    | some (']' :: cs) => some (done.toList, cs)
    | some cs =>
      match readValue fuel room cs with
      | none => none
      | some (v, cs) =>
        match skipAll cs with
        | some (',' :: cs) => readItems fuel room cs (done.push v)
        | some (']' :: cs) => some ((done.push v).toList, cs)
        | _ => none

/-- Reads the entries of a table on one line, after the entries `done`. -/
def readPairs : (fuel room : Nat) → List Char → (done : Entries) → Option (Entries × List Char)
  | 0, _, _, _ => none
  | fuel + 1, room, cs, done =>
    match readKey cs with
    | some ((parents, key), '=' :: cs) =>
      match readValue fuel room (skipSpace cs) with
      | none => none
      | some (v, cs) =>
        match insert key v parents done with
        | none => none
        | some done =>
          match skipSpace cs with
          | ',' :: cs => readPairs fuel room cs done
          | '\x7d' :: cs => some (done, cs)
          | _ => none
    | _ => none

end

/-- Reads a header after its first bracket. -/
def readHeader (d : Draft) : List Char → Option (Draft × List Char)
  | '[' :: cs =>
    match readKey cs with
    | some ((parents, key), ']' :: ']' :: cs) =>
      (d.startRepeated parents key).map fun d => (d, cs)
    | _ => none
  | cs =>
    match readKey cs with
    | some ((parents, key), ']' :: cs) => (d.startTable parents key).map fun d => (d, cs)
    | _ => none

/-- Reads a key with its value. -/
def readEntry (d : Draft) (cs : List Char) : Option (Draft × List Char) := do
  match ← readKey cs with
  | ((parents, key), '=' :: cs) =>
    let (v, cs) ← readValue (2 * cs.length + 2) nesting (skipSpace cs)
    return (← d.add parents key v, cs)
  | _ => none

/-- Reads the lines of a document. -/
def readLines : (fuel : Nat) → Draft → List Char → Option Draft
  | 0, _, _ => none
  | fuel + 1, d, cs =>
    match skipSpace cs with
    | [] => some d
    | '[' :: cs => do
      let (d, cs) ← readHeader d cs
      readLines fuel d (← endLine cs)
    | c :: cs =>
      if c == '#' || c == '\n' || c == '\r' then do
        readLines fuel d (← endLine (c :: cs))
      else do
        let (d, cs) ← readEntry d (c :: cs)
        readLines fuel d (← endLine cs)

/-- Drops a byte order mark. -/
def dropMark : List Char → List Char
  | c :: cs => if c.toNat == 0xFEFF then cs else c :: cs
  | [] => []

/-- Reads a document: the entries of its outermost table. -/
def ofText? (s : String) : Option Entries :=
  let cs := dropMark s.toList
  (readLines (cs.length + 1) {} cs).bind Draft.close

end Gridfall.Toml
