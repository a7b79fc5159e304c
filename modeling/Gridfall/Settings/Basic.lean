/-
  The settings of a run, with their defaults, and the formats of a settings file. The format
  follows from the extension of the file's name.
-/
import Gridfall.Json.Basic

namespace Gridfall

/-- How the grid is shown before a tick. -/
inductive ViewFormat where
  | text
  | json
  deriving DecidableEq

namespace ViewFormat

/-- The name of a view in settings. -/
def name : ViewFormat → String
  | text => "text"
  | json => "json"

/-- The view with a name. -/
def ofName? (s : String) : Option ViewFormat :=
  if s == "text" then some text else if s == "json" then some json else none

/-- The title of a view in the log. -/
def title : ViewFormat → String
  | text => "Text"
  | json => "Json"

end ViewFormat

/-- The settings of a run. -/
structure Settings where
  /-- Show the grid before every tick. -/
  debug : Bool := false
  /-- Wait for a line of input after each view. -/
  pause : Bool := true
  /-- The seed of the generator; without one the clock gives it. -/
  seed : Option UInt64 := none
  view : ViewFormat := .text
  deriving DecidableEq

namespace Settings

/-- The names of the settings in a file, in order. -/
def fieldNames : List String := ["debug", "pause", "seed", "debug_format"]

/-- Settings as JSON. -/
def toJson (s : Settings) : Json :=
  .ofFields [("debug", .bool s.debug), ("pause", .bool s.pause),
    ("seed", (s.seed.map fun n => Json.ofNat n.toNat).getD .null),
    ("debug_format", .ofString s.view.name)]

/-- A truth value in the log. -/
def boolText (b : Bool) : String := if b then "true" else "false"

/-- Settings as they stand in the log. -/
def summary (s : Settings) : String :=
  let seed :=
    match s.seed with
    | some n => "Some(" ++ Text.Decimal.ofNat n.toNat ++ ")"
    | none => "None"
  "RunConfig \x7b debug: " ++ boolText s.debug ++ ", pause: " ++ boolText s.pause ++
    ", seed: " ++ seed ++ ", debug_format: " ++ s.view.title ++ " \x7d"

/-- The formats of a settings file. -/
inductive Format where
  | ron
  | toml
  | json
  deriving DecidableEq

namespace Format

/-- The parts of a path between slashes, without those that stay in place. -/
def parts (path : List Char) : List (List Char) :=
  (path.splitOn '/').filter fun p => p != [] && p != ['.']

/-- The last name of a path, unless it leads upward. -/
def fileName? (path : List Char) : Option (List Char) :=
  (parts path).getLast?.filter fun p => p != ['.', '.']

/-- What follows the last dot of a name. A dot in front of the whole name does not count. -/
def extension? (name : List Char) : Option (List Char) :=
  let tail := name.reverse.takeWhile (· != '.')
  if tail.length + 1 < name.length then some tail.reverse else none

/-- The format that an extension names. -/
def ofExtension? (e : List Char) : Option Format :=
  match String.ofList e with
  | "ron" => some ron
  | "toml" => some toml
  | "json" => some json
  | _ => none

/-- The format of the file at a path. -/
def ofPath? (path : String) : Option Format :=
  ((fileName? path.toList).bind extension?).bind ofExtension?

end Format

/-- Why settings could not be read. -/
inductive Error where
  /-- The name of the file tells no format. -/
  | unsupportedFormat (file : String)
  /-- There is no such file. -/
  | notFound
  /-- The file is not well-formed text. -/
  | notText
  /-- The text is not in its format, or a setting has a value of the wrong kind. -/
  | malformed (file : String)
  deriving DecidableEq

/-- The message of an error. -/
def Error.message : Error → String
  | unsupportedFormat file => "config " ++ file ++ " is not .ron, .toml or .json"
  | notFound => "no such file"
  | notText => "stream did not contain valid UTF-8"
  | malformed file => "config " ++ file ++ " is malformed"

end Settings

end Gridfall
