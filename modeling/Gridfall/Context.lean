/-
  The context of a tick: all that an operator can reach beyond the grid, namely the console, the
  random generator, the tick counter, the request to halt, and the log.
-/
import Gridfall.Log
import Gridfall.Random

namespace Gridfall

/-- A request to stop at the end of the production phase. -/
structure HaltRequest where
  /-- Write every value before stopping. -/
  dump : Bool
  deriving DecidableEq

/-- What operators share during one tick. -/
structure Context where
  console : Console
  generator : Generator
  tick : UInt64
  halt : Option HaltRequest := none
  log : Array Event := #[]

namespace Context

/-- Adds an event to the log. -/
def note (ctx : Context) (e : Event) : Context := { ctx with log := ctx.log.push e }

/-- Adds a trouble of the console to the log, if there is one. -/
def noteTrouble (ctx : Context) (t : Option Console.Trouble) : Context :=
  match t with
  | some t => ctx.note (.console t)
  | none => ctx

/-- Writes a text. -/
def write (ctx : Context) (s : String) : Context :=
  let (console, trouble) := ctx.console.write s
  { ctx with console }.noteTrouble trouble

/-- Writes a number in decimal. -/
def writeNumber (ctx : Context) (n : Number) : Context := ctx.write n.text

/-- Reads a token. -/
def readToken (ctx : Context) : String × Context :=
  let (token, console, trouble) := ctx.console.readToken
  (token, { ctx with console }.noteTrouble trouble)

/-- Reads a number. -/
def readNumber (ctx : Context) : Number × Context :=
  let (n, console, trouble) := ctx.console.readNumber
  (n, { ctx with console }.noteTrouble trouble)

/-- Draws a random number. -/
def random (ctx : Context) (n : Number) : Number × Context :=
  let (r, generator) := ctx.generator.random n
  (r, { ctx with generator })

/-- The tick as a number, the greatest one if the counter is past it. -/
def tickNumber (ctx : Context) : Number :=
  if ctx.tick.toNat < 0x8000000000000000 then ctx.tick.toInt64 else Number.greatest

/-- Requests a halt in place of any earlier request. -/
def requestHalt (ctx : Context) (dump : Bool) : Context := { ctx with halt := some ⟨dump⟩ }

end Context

end Gridfall
