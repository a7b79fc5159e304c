/-
  Building grids: from a size, from rows of cells, and from a sketch with one character for each
  cell. The first two want at least two rows and two columns; rows must be of one length and have
  a closed ring of border around them. The faults are looked for in that order.
-/
import Gridfall.Grid.Basic

namespace Gridfall

/-- Why rows do not form a grid. -/
inductive GridError where
  | tooSmall (width height : Nat)
  | ragged (row expected found : Nat)
  | openBorder (place : Pos)
  deriving DecidableEq

namespace GridError

open Text.Decimal in
/-- The message of an error. -/
def message : GridError → String
  | tooSmall w h => "grid must be at least 2x2, got " ++ ofNat w ++ "x" ++ ofNat h
  | ragged r e f => "row " ++ ofNat r ++ " has " ++ ofNat f ++ " cells, expected " ++ ofNat e
  | openBorder p => "border ring broken at " ++ p.text

end GridError

namespace Grid

/-- An empty grid of a size, with its ring. -/
def blank (width height : Nat) : Except GridError Grid :=
  if width < 2 || height < 2 then .error (.tooSmall width height)
  else
    let g : Grid := ⟨width, height, Array.replicate (width * height) .empty, Array.size_replicate⟩
    .ok ((g.positions.filter g.isEdge).foldl (fun g p => g.set p .border) g)

/-- The first row whose length is not `width`, with its number, which counts from `n` on. -/
def firstRagged? (width : Nat) (n : Nat) : List (List Cell) → Option (Nat × Nat)
  | [] => none
  | r :: rs => if r.length = width then firstRagged? width (n + 1) rs else some (n, r.length)

/-- Rows of one length have as many cells as their rectangle. -/
theorem length_flatten_of_firstRagged?_none {width n : Nat} {rows : List (List Cell)}
    (h : firstRagged? width n rows = none) : rows.flatten.length = width * rows.length := by
  induction rows generalizing n with
  | nil => simp
  | cons r rs ih =>
    unfold firstRagged? at h
    split at h
    · next hr =>
      rw [List.flatten_cons, List.length_append, ih h, hr, List.length_cons, Nat.mul_succ]
      omega
    · cases h

/-- A grid from rows that include the ring. -/
def ofRows (rows : List (List Cell)) : Except GridError Grid :=
  let width := (rows.headD []).length
  if width < 2 || rows.length < 2 then .error (.tooSmall width rows.length)
  else
    match h : firstRagged? width 0 rows with
    | some (row, found) => .error (.ragged row width found)
    | none =>
      let g : Grid :=
        ⟨width, rows.length, rows.flatten.toArray, by
          rw [List.size_toArray]; exact length_flatten_of_firstRagged?_none h⟩
      match g.positions.find? fun p => g.isEdge p && g.cellAt p != .border with
      | some p => .error (.openBorder p)
      | none => .ok g

/-- The cell that a character of a sketch stands for: digits are numbers, and a character without
    a meaning is empty. -/
def sketchCell (c : Char) : Cell :=
  match Text.Decimal.digit? c with
  | some d => .ofValue (.number (Int64.ofNat d))
  | none =>
    match c with
    | '#' => .border
    | 'I' => .ofValue .input
    | 'O' => .ofValue .output
    | _ => (Cell.ofSymbol? c).getD .empty

/-- Extends a list to a length. -/
def padTo {α : Type} (n : Nat) (a : α) (xs : List α) : List α :=
  xs ++ List.replicate (n - xs.length) a

/-- Puts a ring around lines, which are first extended to the length of the longest one. -/
def framed {α : Type} (ring blank : α) (lines : List (List α)) : List (List α) :=
  let inner := lines.foldl (fun n l => max n l.length) 0
  let edge := List.replicate (inner + 2) ring
  edge :: lines.map (fun l => ring :: padTo inner blank l ++ [ring]) ++ [edge]

/-- A grid from a sketch, in a ring of border. -/
def ofSketch (lines : List String) : Except GridError Grid :=
  ofRows (framed .border .empty (lines.map fun l => l.toList.map sketchCell))

end Grid

end Gridfall
