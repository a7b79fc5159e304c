/-
  Reading RON.

  A text is any number of attributes `#![enable(...)]`, then one value. Fields that are wanted
  are read in place, each as the kind of value that it should be; every other value is checked
  and skipped.

  Values may be nested `nesting` deep. A group in brackets takes one level and each of its
  members another, and so do a record and its fields; `Some` takes one. Every value takes a
  character at least, which bounds the work of skipping by the length of the text.
-/
import Gridfall.Ron.Number

namespace Gridfall.Ron

/-- How deep values may be nested. -/
def nesting : Nat := 128

/-- Takes a word that is a complete value. -/
def takeConstant (cs : List Char) : Option (List Char) :=
  match takeText "()" cs with
  | some rest => some rest
  | none => ["true", "false", "None", "inf", "-inf", "NaN"].findSome? fun s => takeWord s cs

/-- Whether the text after an opening parenthesis starts with a field name. -/
def startsRecord (cs : List Char) : Bool :=
  match takeName cs with
  | some (_, cs) => ((skip cs).bind List.head?) = some ':'
  | none => false

mutual

/-- Skips a value with `room` levels left. With `bare`, what an optional value holds may stand
    without parentheses. -/
def skipValue ( bare : Bool) : (fuel room : Nat) → List Char → Option (List Char)
  | 0, _, _ => none
  | fuel + 1, room, cs =>
    match takeConstant cs with
    | some rest => some rest
    | none =>
      match takeWord "Some" cs with
      | some rest => skipSome bare fuel room rest
      | none =>
        match takeName cs with
        | some (_, rest) =>
          match skip rest with
          | some ('(' :: rest) => skipGroup bare fuel room rest
          | rest => rest
        | none =>
          match cs with
          | '(' :: cs => skipGroup bare fuel room cs
          | '[' :: cs => skipItems bare fuel room ']' cs
          | '\x7b' :: cs => skipEntries bare fuel room '\x7d' cs
          | '"' :: cs => skipString fuel cs
          | 'r' :: cs => skipRawString cs
          | '\'' :: cs => skipChar cs
          | cs => skipNumber cs

/-- Skips what follows the word `Some`. -/
def skipSome ( bare : Bool) : (fuel room : Nat) → List Char → Option (List Char)
  | 0, _, _ => none
  | _, 0, _ => none
  | fuel + 1, room + 1, cs =>
    match skip cs with
    | none => none
    | some ('(' :: cs) =>
      match (skip cs).bind (skipValue bare fuel room) with
      | none => none
      | some cs =>
        match takeComma cs with
        | some (_, ')' :: cs) => some cs
        | _ => none
    | some cs => if bare then skipValue bare fuel room cs else none

/-- Skips what stands in parentheses, after the opening one. -/
def skipGroup ( bare : Bool) : (fuel room : Nat) → List Char → Option (List Char)
  | 0, _, _ => none
  | fuel + 1, room, cs =>
    match skip cs with
    | none => none
    | some cs =>
      if startsRecord cs then skipEntries bare fuel room ')' cs
      else skipItems bare fuel room ')' cs

/-- Skips values up to `close`. -/
def skipItems ( bare : Bool) : (fuel room : Nat) → (close : Char) → List Char →
    Option (List Char)
  | 0, _, _, _ => none
  | fuel + 1, room, close, cs =>
    match skip cs with
    | none | some [] => none
    | some (c :: cs) =>
      if c = close then if room = 0 then none else some cs
      else if room < 2 then none
      else
        match (skipValue bare fuel (room - 2) (c :: cs)).bind takeComma with
        | none => none
        | some (true, cs) => skipItems bare fuel room close cs
        | some (false, cs) => if cs.head? = some close then some (cs.drop 1) else none

/-- Skips keys, each with a value after a colon, up to `close`. -/
def skipEntries ( bare : Bool) : (fuel room : Nat) → (close : Char) → List Char →
    Option (List Char)
  | 0, _, _, _ => none
  | fuel + 1, room, close, cs =>
    match skip cs with
    | none | some [] => none
    | some (c :: cs) =>
      if c = close then if room = 0 then none else some cs
      else if room < 2 then none
      else
        match ((skipValue bare fuel (room - 2) (c :: cs)).bind skip).bind (expect [":"]) with
        | none => none
        | some cs =>
          match (skipValue bare fuel (room - 2) cs).bind takeComma with
          | none => none
          | some (true, cs) => skipEntries bare fuel room close cs
          | some (false, cs) => if cs.head? = some close then some (cs.drop 1) else none

end

/-- Skips the value of a field of the outermost record. -/
def skipField ( bare : Bool) (cs : List Char) : Option (List Char) :=
  skipValue bare (3 * cs.length + 3) (nesting - 2) cs

/-- Reads a truth value. -/
def readBool (cs : List Char) : Option (Bool × List Char) :=
  match takeText "true" cs with
  | some rest => some (true, rest)
  | none => (takeText "false" cs).map fun rest => (false, rest)

/-- Reads a value that may be missing: `None`, or `Some` with the value in parentheses. With
    `bare`, the parentheses and the word `Some` may be left out. -/
def readOption {α : Type} (read : List Char → Option (α × List Char)) ( bare : Bool)
    (cs : List Char) : Option (Option α × List Char) :=
  let readBare := fun cs => if bare then (read cs).map fun (v, cs) => (some v, cs) else none
  match takeText "None" cs with
  | some rest => some (none, rest)
  | none =>
    match takeText "Some" cs with
    | none => readBare cs
    | some rest => do
      match ← skip rest with
      | '(' :: rest =>
        let (v, rest) ← read (← skip rest)
        match ← takeComma rest with
        | (_, ')' :: rest) => return (some v, rest)
        | _ => none
      | rest => readBare rest

/-- Reads fields up to the closing parenthesis, each by `read`, which takes what was read so far
    and the name of the field. -/
def readFields {α : Type} (read : α → String → List Char → Option (α × List Char)) :
    (fuel : Nat) → α → List Char → Option (α × List Char)
  | 0, _, _ => none
  | fuel + 1, a, cs => do
    match ← skip cs with
    | ')' :: cs => return (a, cs)
    | cs =>
      let (name, cs) ← takeName cs
      let (a, cs) ← read a name (← expect [":"] (← skip cs))
      match ← takeComma cs with
      | (true, cs) => readFields read fuel a cs
      | (false, ')' :: cs) => return (a, cs)
      | (false, _) => none

/-- Takes the name of a record, if one stands here; no other name may. -/
def takeRecordName (name : String) (cs : List Char) : Option (List Char) :=
  if cs.head?.any isNameChar then
    (takeName cs).bind fun (s, rest) => if s = name then some rest else none
  else some cs

/-- The switches that an attribute can enable. -/
def isSwitch (s : String) : Bool :=
  s == "unwrap_newtypes" || s == "implicit_some" || s == "unwrap_variant_newtypes"

/-- Reads the switches of an attribute, after the switches `done`. -/
def readSwitches : (fuel : Nat) → List Char → (done : List String) →
    Option (List String × List Char)
  | 0, _, _ => none
  | fuel + 1, cs, done =>
    match takeName cs with
    | none => none
    | some (name, cs) =>
      if isSwitch name then
        match takeComma cs with
        | none => none
        | some (comma, cs) =>
          if cs.head?.any isNameChar then
            if comma then readSwitches fuel cs (name :: done) else none
          else some (name :: done, cs)
      else none

/-- Reads the attributes at the start of a text, after the switches `done`. -/
def readAttributes : (fuel : Nat) → List Char → (done : List String) →
    Option (List String × List Char)
  | 0, _, _ => none
  | fuel + 1, cs, done =>
    match cs with
    | '#' :: _ => do
      let cs ← expect ["#", "!", "[", "enable", "("] cs
      let (switches, cs) ← readSwitches (cs.length + 1) cs done
      let cs ← expect [")", "]"] (← skip cs)
      readAttributes fuel cs switches
    | cs => some (done, cs)

/-- Reads a text that is one record with the given name, or without one. Its fields are read by
    `read`, which also takes whether what an optional value holds may stand bare. -/
def readRecord {α : Type} (name : String)
    (read : ( bare : Bool) → α → String → List Char → Option (α × List Char)) (init : α)
    (s : String) : Option α := do
  let cs ← skip s.toList
  let (switches, cs) ← readAttributes (cs.length + 1) cs []
  let cs ← expect ["("] (← skip (← takeRecordName name cs))
  let (a, cs) ←
    readFields (read (switches.contains "implicit_some")) (cs.length + 1) init cs
  if (← skip cs).isEmpty then return a else none

end Gridfall.Ron
