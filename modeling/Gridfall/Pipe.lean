/-
  Pipes: cells that carry a value on. Six kinds have one way out, which depends on the direction
  in which the value comes in; a duplicator has two, a teleporter jumps, and an eraser absorbs.
-/
import Gridfall.Direction

namespace Gridfall

/-- The kinds of pipe. -/
inductive Pipe where
  | horizontal
  | vertical
  | intersection
  | bouncer
  | turnRight
  | turnLeft
  | duplicator
  | teleporter
  | eraser
  deriving DecidableEq, Repr

namespace Pipe

/-- The kind's name in reports. -/
def name : Pipe → String
  | horizontal => "Horizontal"
  | vertical => "Vertical"
  | intersection => "Intersection"
  | bouncer => "Bouncer"
  | turnRight => "TurnRight"
  | turnLeft => "TurnLeft"
  | duplicator => "Duplicator"
  | teleporter => "Teleporter"
  | eraser => "Eraser"

/-- The character that stands for the pipe in a program. -/
def symbol : Pipe → Char
  | horizontal => '-'
  | vertical => '|'
  | intersection => '+'
  | bouncer => '*'
  | turnRight => '>'
  | turnLeft => '<'
  | duplicator => '%'
  | teleporter => '!'
  | eraser => 'x'

/-- The pipe that a character stands for. -/
def ofSymbol? : Char → Option Pipe
  | '-' => some horizontal
  | '|' => some vertical
  | '+' => some intersection
  | '*' => some bouncer
  | '>' => some turnRight
  | '<' => some turnLeft
  | '%' => some duplicator
  | '!' => some teleporter
  | 'x' => some eraser
  | _ => none

/-- The direction in which a value leaves that enters heading `d`, for the kinds with one exit. A
    straight pipe that is entered from the side sends the value right or down. -/
def exit? (p : Pipe) (d : Dir) : Option Dir :=
  match p with
  | horizontal => some (if d = .left then .left else .right)
  | vertical => some (if d = .up then .up else .down)
  | intersection => some d
  | bouncer => some d.opposite
  | turnRight => some d.turnRight
  | turnLeft => some d.turnLeft
  | duplicator | teleporter | eraser => none

end Pipe

end Gridfall
