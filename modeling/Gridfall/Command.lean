/-
  The command: what its arguments ask for, and what it writes.

  A file whose text starts with `@` is run as a suite, any other as a program. Exit codes are 0
  for success, 1 for a file that cannot be read, and 2 for wrong arguments and for a program or
  suite that does not load.
-/
import Gridfall.Machine.Basic
import Gridfall.Settings.Read
import Gridfall.Snapshot.Json
import Gridfall.Suite.Read
import Gridfall.Suite.Run

namespace Gridfall.Command

/-- What the arguments ask for. -/
structure Options where
  debug : Bool := false
  noPause : Bool := false
  json : Bool := false
  seed : Option UInt64 := none
  config : Option String := none
  file : Option String := none

/-- The outcome of reading arguments. -/
inductive Request where
  /-- Run a file. -/
  | run (options : Options) (file : String)
  /-- Explain the usage. -/
  | help
  /-- The arguments are wrong. -/
  | refused

/-- Sets a switch that was not set before. -/
def Options.switch? (o : Options) (name : String) : Option Options :=
  match name with
  | "debug" => if o.debug then none else some { o with debug := true }
  | "no-pause" => if o.noPause then none else some { o with noPause := true }
  | "json" => if o.json then none else some { o with json := true }
  | _ => none

/-- Whether an option takes a value. -/
def takesValue (name : String) : Bool := name == "seed" || name == "config"

/-- Sets an option with a value, if it was not set before. -/
def Options.assign? (o : Options) (name value : String) : Option Options :=
  match name with
  | "seed" =>
    if o.seed.isSome then none
    else (Text.Decimal.word? value.toList).map fun n => { o with seed := some n }
  | "config" =>
    if o.config.isSome || value.isEmpty then none else some { o with config := some value }
  | _ => none

/-- Sets the file, if it was not set before. -/
def Options.setFile? (o : Options) (file : String) : Option Options :=
  if o.file.isSome || file.isEmpty then none else some { o with file := some file }

/-- Reads a group of one-letter switches; the flag says that one asks for help. -/
def Options.letters? (o : Options) : List Char → Option (Options × Bool)
  | [] => some (o, false)
  | 'd' :: cs => (o.switch? "debug").bind fun o => o.letters? cs
  | 'h' :: _ => some (o, true)
  | _ :: _ => none

/-- Whether an argument cannot be the value of an option. -/
def looksLikeOption (arg : String) : Bool :=
  match arg.toList with
  | '-' :: _ :: _ => true
  | _ => false

/-- Goes on after a step that may have refused its argument. -/
def orRefuse (o : Option Options) (next : Options → Request) : Request :=
  match o with
  | some o => next o
  | none => .refused

/-- Reads the files that remain. -/
def readFiles (o : Options) : List String → Request
  | [] =>
    match o.file with
    | some file => .run o file
    | none => .refused
  | arg :: args => orRefuse (o.setFile? arg) fun o => readFiles o args

/-- Reads the arguments that remain. -/
def readArgs (o : Options) : List String → Request
  | [] => readFiles o []
  | "--" :: args => readFiles o args
  | "--help" :: _ => .help
  | arg :: args =>
    match arg.toList with
    | '-' :: '-' :: long =>
      let name := String.ofList (long.takeWhile (· != '='))
      match long.dropWhile (· != '=') with
      | _ :: value => orRefuse (o.assign? name (String.ofList value)) fun o => readArgs o args
      | [] =>
        if takesValue name then
          match args with
          | value :: args =>
            if looksLikeOption value then .refused
            else orRefuse (o.assign? name value) fun o => readArgs o args
          | [] => .refused
        else orRefuse (o.switch? name) fun o => readArgs o args
    | '-' :: c :: cs =>
      match o.letters? (c :: cs) with
      | some (_, true) => .help
      | some (o, false) => readArgs o args
      | none => .refused
    | _ => orRefuse (o.setFile? arg) fun o => readArgs o args

/-- Reads the arguments. -/
def Request.ofArgs (args : List String) : Request := readArgs {} args

/-- Settings with the switches of the command line on top. -/
def Options.override (o : Options) (s : Settings) : Settings :=
  { debug := s.debug || o.debug
    pause := s.pause && !o.noPause
    seed := o.seed <|> s.seed
    view := if o.json then .json else s.view }

/-- The settings of a run, from the file of settings if one is named. -/
def Options.settings (o : Options) (files : String → Option (List UInt8)) :
    Except Settings.Error Settings :=
  match o.config with
  | some path => (Settings.ofFile path (files path)).map o.override
  | none => .ok (o.override {})

/-- What a command leaves behind. -/
structure Outcome where
  code : UInt8
  output : String
  deriving DecidableEq

/-- The exit code for a file that cannot be read. -/
def unreadable : UInt8 := 1

/-- The exit code for wrong arguments and for what does not load. -/
def unloadable : UInt8 := 2

/-- The explanation of the usage. -/
def usage : String :=
  "Usage: gridfall [OPTIONS] <FILE>\n\n" ++
    "  -d, --debug          show the grid before every tick\n" ++
    "      --no-pause       do not wait for a line of input after each view\n" ++
    "      --json           show the grid as JSON\n" ++
    "      --seed <N>       seed of the random operator\n" ++
    "      --config <PATH>  read settings from a RON, TOML or JSON file\n" ++
    "  -h, --help           explain the usage\n"

/-- The line about something that does not load. -/
def complaint (message : String) : String := "ERROR: " ++ message ++ "\n"

/-- What is left to do once everything is read. -/
inductive Plan where
  /-- Nothing but to write. -/
  | finished (outcome : Outcome)
  /-- Run a machine. -/
  | program (m : Machine) (settings : Settings)

/-- The view of a machine ahead of a tick. -/
def viewText (settings : Settings) (m : Machine) : String :=
  match settings.view with
  | .text => m.snapshot.view
  | .json => m.snapshot.toJson.render ++ "\n"

/-- Shows a machine ahead of a tick, and waits for a line of input if asked to. -/
def present (settings : Settings) (m : Machine) : Machine :=
  if settings.debug then
    let m := m.adopt (m.context.write (viewText settings m))
    if settings.pause then { m with console := m.console.skipLine.2 } else m
  else m

/-- Plans the run of a program. -/
def planProgram (text : String) (settings : Settings) (console : Console) (seed : UInt64) : Plan :=
  match Source.loadNoted (text ++ "\n") #[] with
  | .ok (g, log) => .program (Machine.start g console seed log) settings
  | .error e => .finished ⟨unloadable, complaint e.message⟩

/-- Runs a suite. -/
def runSuite (text : String) (console : Console) (seed : UInt64) : Outcome :=
  match Suite.read text #[] with
  | (.error e, _) => ⟨unloadable, complaint e.message⟩
  | (.ok cases, log) =>
    match Suite.run cases console seed log with
    | (.error e, console, _) => ⟨unloadable, console.output ++ complaint e.message⟩
    | (.ok report, console, _) => ⟨0, console.output ++ report.text⟩

/-- Plans what the arguments ask for, with the given files, console and clock. -/
def plan (args : List String) (files : String → Option (List UInt8)) (console : Console)
    (clock : UInt64) : Plan :=
  match Request.ofArgs args with
  | .refused => .finished ⟨unloadable, ""⟩
  | .help => .finished ⟨0, usage⟩
  | .run options file =>
    match options.settings files with
    | .error _ => .finished ⟨unreadable, ""⟩
    | .ok settings =>
      match (files file).bind Text.Utf8.text? with
      | none => .finished ⟨unreadable, ""⟩
      | some text =>
        let seed := settings.seed.getD clock
        if text.toList.head? = some '@' then .finished (runSuite text console seed)
        else planProgram text settings console seed

/-- Carries out a plan to its end, if it has one. -/
def Plan.finish? : Plan → Option Outcome
  | finished outcome => some outcome
  | program m settings =>
    (m.runWith? (fun s => (present settings s.1, s.2)) ()).map fun s => ⟨0, s.1.console.output⟩

end Gridfall.Command
