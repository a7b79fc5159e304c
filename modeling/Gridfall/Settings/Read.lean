/-
  Reading settings. A file gives some of them and the others keep their defaults; fields that are
  no settings are ignored, and a setting may stand once only.

  * JSON: an object, or an array of the settings in order; a seed of `null` is no seed.
  * RON: fields in parentheses; the seed is `Some(n)` or `None`, and the view a bare name.
  * TOML: the outermost table; integers have 64 bits with sign.
-/
import Gridfall.Json.Access
import Gridfall.Json.Reader
import Gridfall.Log
import Gridfall.Ron.Reader
import Gridfall.Settings.Basic
import Gridfall.Text.Utf8
import Gridfall.Toml.Reader

namespace Gridfall.Settings

/-- The settings that a file gives. -/
structure Given where
  debug : Option Bool := none
  pause : Option Bool := none
  seed : Option (Option UInt64) := none
  view : Option ViewFormat := none

/-- The given settings, and the defaults of the others. -/
def Given.settings (g : Given) : Settings :=
  let d : Settings := {}
  { debug := g.debug.getD d.debug
    pause := g.pause.getD d.pause
    seed := g.seed.getD d.seed
    view := g.view.getD d.view }

/-- Settings from the four fields, each with its reader. -/
def ofFields? {α : Type} (bool? : α → Option Bool) (seed? : α → Option (Option UInt64))
    (view? : α → Option ViewFormat) (debug pause seed view : Option α) : Option Settings := do
  let given : Given :=
    { debug := ← debug.mapM bool?
      pause := ← pause.mapM bool?
      seed := ← seed.mapM seed?
      view := ← view.mapM view? }
  return given.settings

/-- A seed from a JSON value. -/
def seedOfJson? : Json → Option (Option UInt64)
  | .null => some none
  | v => v.word?.map some

/-- A view from a JSON value. -/
def viewOfJson? (v : Json) : Option ViewFormat :=
  match v.case? with
  | some (name, .null) => ViewFormat.ofName? name
  | _ => none

/-- Settings from JSON text. -/
def ofJsonText? (s : String) : Option Settings :=
  match (Json.ofText? s).bind (Json.fields? fieldNames) with
  | some [debug, pause, seed, view] =>
    ofFields? Json.bool? seedOfJson? viewOfJson? debug pause seed view
  | _ => none

/-- Reads a view in RON. -/
def readView (cs : List Char) : Option (ViewFormat × List Char) := do
  let (name, cs) ← Ron.takeName cs
  return (← ViewFormat.ofName? name, cs)

/-- Reads a field in RON, after the settings `g`. -/
def readField ( bare : Bool) (g : Given) (name : String) (cs : List Char) :
    Option (Given × List Char) :=
  match name with
  | "debug" =>
    if g.debug.isSome then none
    else (Ron.readBool cs).map fun (b, cs) => ({ g with debug := some b }, cs)
  | "pause" =>
    if g.pause.isSome then none
    else (Ron.readBool cs).map fun (b, cs) => ({ g with pause := some b }, cs)
  | "seed" =>
    if g.seed.isSome then none
    else (Ron.readOption Ron.readWord bare cs).map fun (n, cs) => ({ g with seed := some n }, cs)
  | "debug_format" =>
    if g.view.isSome then none
    else (readView cs).map fun (v, cs) => ({ g with view := some v }, cs)
  | _ => (Ron.skipField bare cs).map fun cs => (g, cs)

/-- The name that a record of settings may carry. -/
def recordName : String := "RunConfig"

/-- Settings from RON text. -/
def ofRonText? (s : String) : Option Settings :=
  (Ron.readRecord recordName readField {} s).map Given.settings

/-- A truth value from a TOML value. -/
def boolOfToml? : Toml → Option Bool
  | .bool b => some b
  | _ => none

/-- A seed from a TOML value. -/
def seedOfToml? : Toml → Option (Option UInt64)
  | .integer z => if 0 ≤ z && z < UInt64.size then some (some z.toNat.toUInt64) else none
  | _ => none

/-- Whether a TOML value holds others but has none. -/
def isEmptyToml : Toml → Bool
  | .array items => items.isEmpty
  | .tables items => items.isEmpty
  | .table _ entries => entries.isEmpty
  | _ => false

/-- A view from a TOML value: its name, or a table with an empty value under the name. -/
def viewOfToml? : Toml → Option ViewFormat
  | .text s => ViewFormat.ofName? s
  | .table _ [(name, v)] => if isEmptyToml v then ViewFormat.ofName? name else none
  | _ => none

/-- Settings from TOML text. -/
def ofTomlText? (s : String) : Option Settings := do
  let entries ← Toml.ofText? s
  match fieldNames.map (Toml.lookup entries) with
  | [debug, pause, seed, view] =>
    ofFields? boolOfToml? seedOfToml? viewOfToml? debug pause seed view
  | _ => none

/-- Settings from a text in a format. -/
def ofText? : Format → String → Option Settings
  | .json => ofJsonText?
  | .ron => ofRonText?
  | .toml => ofTomlText?

/-- Settings from the file with a name and, if it exists, the given bytes. -/
def ofFile (file : String) (content : Option (List UInt8)) : Except Error Settings :=
  match Format.ofPath? file with
  | none => .error (.unsupportedFormat file)
  | some format =>
    match content with
    | none => .error .notFound
    | some bytes =>
      match Text.Utf8.text? bytes with
      | none => .error .notText
      | some s =>
        match ofText? format s with
        | some settings => .ok settings
        | none => .error (.malformed file)

/-- Settings from a file, and the event that they were read. -/
def ofFileNoted (file : String) (content : Option (List UInt8)) (log : Array Event) :
    Except Error (Settings × Array Event) :=
  (ofFile file content).map fun s => (s, log.push (.settingsRead file s.summary))

end Gridfall.Settings
