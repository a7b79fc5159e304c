/-
  The command line: reads files and standard input, and writes what the command says. A program is
  run tick by tick, so that its output appears as it goes.
-/
import Gridfall.Command

namespace Gridfall

/-- The bytes of a file, if it can be read. -/
def readFile? (path : String) : IO (Option (List UInt8)) := do
  try
    return some (← IO.FS.readBinFile path).toList
  catch _ => return none

/-- Everything on standard input. -/
partial def readAll (stream : IO.FS.Stream) (sofar : ByteArray) : IO ByteArray := do
  let more ← stream.read 8192
  if more.isEmpty then return sofar else readAll stream (sofar ++ more)

/-- Writes what a machine has written since the last time. -/
def flushOutput (m : Machine) : IO Machine := do
  let out ← IO.getStdout
  out.putStr m.console.output
  out.flush
  return { m with console := { m.console with output := "" } }

/-- Runs a machine until it halts. -/
partial def runProgram (settings : Settings) (m : Machine) : IO Unit := do
  if m.halted.isNone then
    runProgram settings (← flushOutput (Command.present settings m).step)

/-- The files that the arguments name. -/
def namedFiles (args : List String) : List String :=
  match Command.Request.ofArgs args with
  | .run options file => options.config.toList ++ [file]
  | .help | .refused => []

end Gridfall

open Gridfall in
def main (args : List String) : IO UInt32 := do
  let files ← (namedFiles args).mapM fun path => return (path, ← readFile? path)
  let input ←
    if files.isEmpty then pure ByteArray.empty else readAll (← IO.getStdin) ByteArray.empty
  let console : Console := { pending := Console.buffers 8191 input.toList }
  let clock := (← IO.monoNanosNow).toUInt64
  let lookup (path : String) : Option (List UInt8) := (files.lookup path).bind id
  match Command.plan args lookup console clock with
  | .finished outcome =>
    (← IO.getStdout).putStr outcome.output
    return outcome.code.toUInt32
  | .program m settings =>
    runProgram settings m
    return 0
