/-
  Snapshots, values and cells as JSON, and snapshots read back.
-/
import Gridfall.Json.Access
import Gridfall.Json.Reader
import Gridfall.Snapshot.Basic

namespace Gridfall

/-- A value as JSON. -/
def Value.toJson : Value → Json
  | .none => .ofString "None"
  | .number n => .tagged "Number" (.integer n.toInt)
  | .text s => .tagged "String" (.ofString s)
  | .input => .ofString "Input"
  | .output => .ofString "Output"

/-- A value from JSON. A case with content cannot stand without it. -/
def Value.ofJson? (j : Json) : Option Value :=
  match j.case? with
  | some ("None", .null) => some .none
  | some ("Input", .null) => some .input
  | some ("Output", .null) => some .output
  | some ("Number", v) => v.signed?.map .number
  | some ("String", v) => v.text?.map .text
  | _ => Option.none

/-- A drift as JSON. -/
def Drift.toJson (d : Drift) : Json := .ofString d.name

/-- A drift from JSON. -/
def Drift.ofJson? (j : Json) : Option Drift :=
  match j.case? with
  | some ("Left", .null) => some .left
  | some ("Right", .null) => some .right
  | _ => none

/-- A value with its drift as JSON. -/
def Datum.toJson (d : Datum) : Json :=
  .ofFields [("value", d.value.toJson), ("drift", d.drift.toJson)]

/-- A cell as JSON. -/
def Cell.toJson : Cell → Json
  | .empty => .ofString "Empty"
  | .border => .ofString "Border"
  | .data d => .tagged "Data" d.toJson
  | .operator op =>
    .tagged "Operator" (.ofFields [("code", .ofString op.code.name), ("peek", .bool op.peek)])
  | .pipe p => .tagged "Pipe" (.ofString p.name)

namespace Snapshot

/-- An entry as JSON. -/
def Entry.toJson (e : Entry) : Json :=
  .ofFields [("x", .ofNat e.place.x), ("y", .ofNat e.place.y), ("value", e.datum.value.toJson),
    ("drift", e.datum.drift.toJson)]

/-- A snapshot as JSON. -/
def toJson (s : Snapshot) : Json :=
  .ofFields [("tick", .ofNat s.tick.toNat), ("width", .ofNat s.width), ("height", .ofNat s.height),
    ("rows", .array (s.rows.map .ofString)), ("values", .array (s.values.map Entry.toJson))]

/-- An entry from JSON. -/
def Entry.ofJson? (j : Json) : Option Entry :=
  match j.fields? ["x", "y", "value", "drift"] with
  | some [some x, some y, some value, some drift] => do
    let x ← x.word?
    let y ← y.word?
    return ⟨⟨x.toNat, y.toNat⟩, ⟨← Value.ofJson? value, ← Drift.ofJson? drift⟩⟩
  | _ => none

/-- A snapshot from JSON. -/
def ofJson? (j : Json) : Option Snapshot :=
  match j.fields? ["tick", "width", "height", "rows", "values"] with
  | some [some tick, some width, some height, some rows, some values] => do
    let tick ← tick.word?
    let width ← width.word?
    let height ← height.word?
    let rows ← (← rows.items?).mapM Json.text?
    let values ← (← values.items?).mapM Entry.ofJson?
    return ⟨tick, width.toNat, height.toNat, rows, values⟩
  | _ => none

/-- A snapshot from JSON text. -/
def ofText? (s : String) : Option Snapshot := (Json.ofText? s).bind ofJson?

end Snapshot

end Gridfall
