/-
  Snapshots: a picture of the grid at some tick, with the list of its values. The text view
  shows the rows, then each number and text with its place.
-/
import Gridfall.Grid.Basic

namespace Gridfall

/-- A value with its place and drift. -/
structure Snapshot.Entry where
  place : Pos
  datum : Datum
  deriving DecidableEq

/-- The picture of a grid at some tick. -/
structure Snapshot where
  tick : UInt64
  width : Nat
  height : Nat
  /-- One text for each row. -/
  rows : List String
  /-- The values, in raster order. -/
  values : List Snapshot.Entry
  deriving DecidableEq

namespace Snapshot

/-- Takes a picture of a grid. -/
def capture (g : Grid) (tick : UInt64) : Snapshot :=
  { tick, width := g.width, height := g.height, rows := g.rows
    values := g.data.map fun e => ⟨e.1, e.2⟩ }

/-- The line of a value; markers have none. -/
def Entry.line (e : Entry) : String :=
  match e.datum.value with
  | .number n => e.place.text ++ " " ++ n.text ++ "\n"
  | .text s => e.place.text ++ " \"" ++ s ++ "\"\n"
  | .none | .input | .output => ""

/-- The text view. -/
def view (s : Snapshot) : String :=
  String.join (s.rows.map (· ++ "\n")) ++ "\n\n" ++ String.join (s.values.map Entry.line)

end Snapshot

end Gridfall
