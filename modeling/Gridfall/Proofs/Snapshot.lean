/-
  Snapshots lose nothing. `Snapshot.cell?` reads a cell back from a snapshot: the picture of its
  place tells every cell but a value, and a value stands in the list under its place. On a grid with
  a closed ring, whose operators have names, it finds what the grid holds at every place
  (`cell?_capture`). So two such grids with the same snapshot are the same grid at the same tick
  (`capture_eq_iff`).

  The ring matters: a value on it would be pictured and not listed.
-/
import Gridfall.Proofs.Source.Page
import Gridfall.Proofs.Symbols
import Gridfall.Snapshot.Basic
import Mathlib.Tactic.IntervalCases

namespace Gridfall

namespace Snapshot

/-- The value that a snapshot lists for a place. -/
def datum? (s : Snapshot) (p : Pos) : Option Datum :=
  (s.values.find? fun e => e.place = p).map Entry.datum

/-- The cell that a snapshot shows at a place. -/
def cell? (s : Snapshot) (p : Pos) : Option Cell :=
  (item? (s.rows.map String.toList) p).bind fun ch =>
    Cell.ofGlyph? ch <|> (s.datum? p).map Cell.data

/-! ## Pictures -/

theorem item?_rows (g : Grid) (p : Pos) :
    item? (g.rows.map String.toList) p = (g.get? p).map Cell.glyph := by
  have hrow : ∀ y, (g.row y).toList = (List.range g.width).map fun x => (g.cellAt ⟨x, y⟩).glyph :=
    fun y => String.toList_ofList
  unfold item? Grid.rows
  rw [List.map_map, List.getElem?_map]
  by_cases hp : g.contains p = true
  · obtain ⟨hx, hy⟩ := Grid.contains_iff.mp hp
    rw [Grid.get?_of_contains hp, List.getElem?_range hy, Option.map_some, Option.bind_some,
      Function.comp_apply, hrow, List.getElem?_map, List.getElem?_range hx]
    rfl
  · rw [Grid.get?_eq_none hp]
    by_cases hy : p.y < g.height
    · have hx : ¬ p.x < g.width := fun hx => hp (Grid.contains_iff.mpr ⟨hx, hy⟩)
      rw [List.getElem?_range hy, Option.map_some, Option.bind_some, Function.comp_apply, hrow,
        List.getElem?_map, List.getElem?_eq_none (by simpa using hx)]
      rfl
    · rw [List.getElem?_eq_none (by simpa using hy)]
      rfl

/-! ## Values -/

/-- What is listed for a place is what the place holds. -/
theorem datum?_capture {g : Grid} (hf : g.Framed) (t : UInt64) {p : Pos} {d : Datum}
    (h : g.get? p = some (.data d)) : (capture g t).datum? p = some d := by
  have hp : p ∈ g.interior := hf.interior h (by simp)
  have hlisted : (⟨p, d⟩ : Entry) ∈ (capture g t).values :=
    List.mem_map.mpr ⟨(p, d), Grid.mem_data.mpr ⟨hp, h⟩, rfl⟩
  unfold datum?
  cases hfind : (capture g t).values.find? fun e => e.place = p with
  | none => exact absurd (List.find?_eq_none.mp hfind _ hlisted) (by simp)
  | some e =>
    have hplace : e.place = p := by simpa using List.find?_some hfind
    obtain ⟨⟨q, d'⟩, hmem, rfl⟩ := List.mem_map.mp (List.mem_of_find?_eq_some hfind)
    have hheld := (Grid.mem_data.mp hmem).2
    rw [show q = p from hplace, h] at hheld
    cases hheld
    rfl

/-! ## Cells -/

/-- A snapshot shows what the grid holds. -/
theorem cell?_capture {g : Grid} (hf : g.Framed) (hn : g.Named) (t : UInt64) (p : Pos) :
    (capture g t).cell? p = g.get? p := by
  show (item? (g.rows.map String.toList) p).bind _ = _
  rw [item?_rows]
  cases hc : g.get? p with
  | none => rfl
  | some c =>
    show (Cell.ofGlyph? c.glyph <|> _) = some c
    rw [Cell.ofGlyph?_glyph (hn p c hc)]
    cases c with
    | data d => exact congrArg (Option.map Cell.data) (datum?_capture hf t hc)
    | empty | border | operator | pipe => rfl

/-- Between grids with a closed ring whose operators have names, a snapshot tells the grid and the
    tick: two are equal only when they are of one grid at one tick. -/
theorem capture_eq_iff {g g' : Grid} (hf : g.Framed) (hf' : g'.Framed) (hn : g.Named)
    (hn' : g'.Named) (t t' : UInt64) : capture g t = capture g' t' ↔ g = g' ∧ t = t' := by
  constructor
  · intro h
    have hwidth : g.width = g'.width := congrArg Snapshot.width h
    have hheight : g.height = g'.height := congrArg Snapshot.height h
    refine ⟨Grid.ext_get? hwidth hheight fun p => ?_, congrArg Snapshot.tick h⟩
    rw [← cell?_capture hf hn t, h, cell?_capture hf' hn']
  · rintro ⟨rfl, rfl⟩
    rfl

/-- A text that drifts to a side, next to an operator that keeps its inputs. -/
def leaning (side : Drift) : Grid :=
  ⟨4, 3,
    #[.border, .border, .border, .border,
      .border, .data ⟨.text "x#", side⟩, .operator ⟨.add, true⟩, .border,
      .border, .border, .border, .border], rfl⟩

/-- A drift shows in no picture, and still the snapshots differ. -/
theorem capture_eq_iff_leaning :
    (∀ side, (leaning side).Framed ∧ (leaning side).Named) ∧
      (capture (leaning .left) 5).rows = (capture (leaning .right) 5).rows ∧
      capture (leaning .left) 5 ≠ capture (leaning .right) 5 := by
  have hgood : ∀ side, (leaning side).Framed ∧ (leaning side).Named := by
    intro side
    cases side <;> decide
  have hrow : ∀ y ∈ List.range 3, (leaning .left).row y = (leaning .right).row y := by
    intro y hy
    have hy := List.mem_range.mp hy
    exact congrArg String.ofList (by interval_cases y <;> rfl)
  refine ⟨hgood, List.map_congr_left hrow, fun h => ?_⟩
  obtain ⟨hgrid, -⟩ := (capture_eq_iff (hgood .left).1 (hgood .right).1 (hgood .left).2
    (hgood .right).2 5 5).mp h
  exact absurd hgrid (by decide)

end Snapshot

end Gridfall
