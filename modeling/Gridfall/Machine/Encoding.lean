/-
  The state of a machine as bytes, and the digest over them: the tick, the generator, the size
  of the grid, and every cell with a tag for its kind.
-/
import Gridfall.Digest
import Gridfall.Machine.Basic

namespace Gridfall

open Digest

/-- The bytes of a value. -/
def Value.encoding : Value → List UInt8
  | .none => [0]
  | .number n => 1 :: numberBytes n
  | .text s => 2 :: textBytes s
  | .input => [3]
  | .output => [4]

/-- The tag of a drift. -/
def Drift.tag : Drift → UInt8
  | .left => 0
  | .right => 1

/-- The bytes of a cell. -/
def Cell.encoding : Cell → List UInt8
  | .empty => [0]
  | .border => [1]
  | .data d => 2 :: d.drift.tag :: d.value.encoding
  | .operator op => 3 :: wordBytes op.symbol.toNat.toUInt64
  | .pipe p => 4 :: wordBytes p.symbol.toNat.toUInt64

namespace Machine

/-- The bytes of the state. -/
def encoding (m : Machine) : List UInt8 :=
  wordBytes m.tick ++ wordBytes m.generator.state ++ wordBytes m.grid.width.toUInt64 ++
    wordBytes m.grid.height.toUInt64 ++ m.grid.cells.toList.flatMap Cell.encoding

/-- The digest of the state. -/
def digest (m : Machine) : UInt64 := (Digest.start.bytes m.encoding).state

end Machine

end Gridfall
