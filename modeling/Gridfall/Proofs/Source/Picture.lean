/-
  Pictures as programs. The picture of a grid inside its ring, line by line, is a program text
  (`Grid.program`). A grid with a closed ring, whose inner cells are known from their pictures
  (`Grid.Pictured`), comes back when this text is loaded (`load_program`).

  No such picture opens a literal, so the scan leaves the page as it is and reads each place alone
  (`scanCell_glyph`).
-/
import Gridfall.Proofs.Snapshot
import Gridfall.Proofs.Source.Sheet

namespace Gridfall

/-! ## Cells known from their pictures -/

namespace Cell

/-- A cell that one character of a program stands for, other than a digit: the two markers as they
    are loaded, the operators that have a name, and everything that holds no value. -/
def Pictured : Cell → Prop
  | empty | border | pipe _ => True
  | data d => d = ⟨.input, .right⟩ ∨ d = ⟨.output, .right⟩
  | operator op => op.Named

instance : (c : Cell) → Decidable c.Pictured
  | empty | border | pipe _ => inferInstanceAs (Decidable True)
  | data _ => inferInstanceAs (Decidable (_ ∨ _))
  | operator op => inferInstanceAs (Decidable op.Named)

end Cell

/-- The letters of operators mean nothing else in a program. -/
theorem Operator.symbol_plain (op : Operator) :
    Source.opener? op.symbol = none ∧ op.symbol ≠ 'I' ∧ op.symbol ≠ 'O' ∧
      Text.Decimal.digit? op.symbol = none := by
  obtain ⟨code, peek⟩ := op
  cases code <;> cases peek <;> decide

namespace Source

theorem plainCell_of_ofSymbol? {ch : Char} (hspace : ch ≠ ' ') (hborder : ch ≠ '#')
    (hinput : ch ≠ 'I') (houtput : ch ≠ 'O') (hdigit : Text.Decimal.digit? ch = none) {c : Cell}
    (hsymbol : Cell.ofSymbol? ch = some c) (p : Pos) : plainCell ch p = .ok c := by
  unfold plainCell
  split
  · exact absurd rfl hspace
  · exact absurd rfl hborder
  · exact absurd rfl hinput
  · exact absurd rfl houtput
  · rw [hdigit, hsymbol]

/-- A cell that is known from its picture is the one that a program with this picture has there. -/
theorem plainCell_glyph {c : Cell} (hc : c.Pictured) (p : Pos) :
    opener? c.glyph = none ∧ plainCell c.glyph p = .ok c := by
  cases c with
  | empty | border => exact ⟨rfl, rfl⟩
  | data d => rcases hc with rfl | rfl <;> exact ⟨rfl, rfl⟩
  | pipe kind => cases kind <;> exact ⟨rfl, rfl⟩
  | operator op =>
    obtain ⟨hpipe, hspace, hborder⟩ := op.symbol_apart
    obtain ⟨hopener, hinput, houtput, hdigit⟩ := op.symbol_plain
    have hnamed := Operator.named_iff.mp hc
    refine ⟨hopener, plainCell_of_ofSymbol? hspace hborder hinput houtput hdigit ?_ p⟩
    simp [Cell.ofSymbol?, hpipe, hnamed]

theorem scanCell_glyph {page : Page} {p : Pos} {c : Cell} (hc : c.Pictured)
    (h : page.charAt? p = some c.glyph) : scanCell page p = .ok (c, page) := by
  obtain ⟨hopener, hcell⟩ := plainCell_glyph hc p
  rw [scanCell, Page.charAt_of_charAt? h, hopener]
  dsimp only
  rw [hcell]
  rfl

end Source

/-! ## Inside a rectangle -/

/-- A list without its first and its last item. -/
def stripped {α : Type} (l : List α) : List α := l.tail.dropLast

theorem length_stripped {α : Type} (l : List α) : (stripped l).length = l.length - 2 := by
  simp [stripped, Nat.sub_sub]

theorem mem_of_mem_stripped {α : Type} {l : List α} {a : α} (h : a ∈ stripped l) : a ∈ l :=
  List.mem_of_mem_tail (List.dropLast_subset l.tail h)

theorem getElem?_stripped {α : Type} {l : List α} {i : Nat} (hi : i + 2 < l.length) :
    (stripped l)[i]? = l[i + 1]? := by
  rw [stripped, List.getElem?_dropLast, if_pos (by rw [List.length_tail]; omega),
    List.getElem?_tail]

namespace Rectangle

variable {α : Type} {w h : Nat} {rows : List (List α)} (hr : Rectangle w h rows)
include hr

theorem stripped : Rectangle (w - 2) (h - 2) (stripped (rows.map Gridfall.stripped)) := by
  constructor
  · intro l hl
    obtain ⟨r, hmem, rfl⟩ := List.mem_map.mp (mem_of_mem_stripped hl)
    rw [length_stripped, hr.width r hmem]
  · rw [length_stripped, List.length_map, hr.height]

/-- What stands inside is one column and one row further on. -/
theorem item?_stripped {x y : Nat} (hx : x + 2 < w) (hy : y + 2 < h) :
    item? (Gridfall.stripped (rows.map Gridfall.stripped)) ⟨x, y⟩ =
      item? rows ⟨x + 1, y + 1⟩ := by
  have hheight := hr.height
  have hrow : y + 1 < rows.length := by omega
  have hwidth := hr.width rows[y + 1] (List.getElem_mem hrow)
  unfold item?
  dsimp only
  rw [getElem?_stripped (by rw [List.length_map]; omega), List.getElem?_map,
    List.getElem?_eq_getElem hrow]
  exact getElem?_stripped (by omega)

theorem longest_eq (hh : 0 < h) : longest rows = w := by
  have hlengths : rows.map List.length = List.replicate rows.length w :=
    List.map_eq_replicate_iff.mpr hr.width
  have hsome : rows.length ≠ 0 := by
    rw [hr.height]
    omega
  rw [longest, hlengths, List.max?_replicate, if_neg hsome]
  rfl

end Rectangle

/-! ## Programs -/

namespace Grid

theorem rectangle_rows (g : Grid) : Rectangle g.width g.height (g.rows.map String.toList) := by
  constructor
  · intro r hr
    obtain ⟨s, hs, rfl⟩ := List.mem_map.mp hr
    obtain ⟨y, -, rfl⟩ := List.mem_map.mp hs
    simp [row]
  · simp [rows]

/-- The picture inside the ring. -/
def innerRows (g : Grid) : List (List Char) := stripped ((g.rows.map String.toList).map stripped)

/-- The picture inside the ring as a program text, each row ended by a newline. -/
def program (g : Grid) : String := String.ofList (g.innerRows.flatMap (· ++ ['\n']))

/-- Every cell inside the ring is known from its picture. -/
def Pictured (g : Grid) : Prop := ∀ p ∈ g.interior, (g.cellAt p).Pictured

instance (g : Grid) : Decidable g.Pictured := inferInstanceAs (Decidable (∀ p ∈ g.interior, _))

theorem item?_innerRows (g : Grid) {x y : Nat} (hp : (⟨x + 1, y + 1⟩ : Pos) ∈ g.interior) :
    item? g.innerRows ⟨x, y⟩ = some (g.cellAt ⟨x + 1, y + 1⟩).glyph := by
  obtain ⟨⟨-, hx⟩, -, hy⟩ := mem_interior_iff.mp hp
  rw [innerRows, g.rectangle_rows.item?_stripped hx hy, Snapshot.item?_rows,
    get?_of_contains (contains_of_interior hp)]
  rfl

/-- The characters of the picture inside the ring are pictures of inner cells. -/
theorem glyph_of_mem_innerRows {g : Grid} {l : List Char} (hl : l ∈ g.innerRows) {ch : Char}
    (hch : ch ∈ l) : ∃ p ∈ g.interior, (g.cellAt p).glyph = ch := by
  obtain ⟨y, hy, rfl⟩ := List.getElem_of_mem hl
  obtain ⟨x, hx, rfl⟩ := List.getElem_of_mem hch
  have hrect := g.rectangle_rows.stripped
  have hwidth := hrect.width _ hl
  have hheight := hrect.height
  have hp : (⟨x + 1, y + 1⟩ : Pos) ∈ g.interior := by
    rw [mem_interior_iff]
    dsimp only
    change g.innerRows.length = g.height - 2 at hheight
    omega
  refine ⟨_, hp, ?_⟩
  have hitem := g.item?_innerRows hp
  simpa [item?, hy, hx] using hitem.symm

end Grid

/-- No cell is pictured by the end of a line. -/
theorem Cell.glyph_ne_end (c : Cell) : c.glyph ≠ '\n' ∧ c.glyph ≠ '\r' := by
  cases c with
  | empty | border => decide
  | data d =>
    obtain ⟨value, drift⟩ := d
    cases value <;> simp [glyph, Value.glyph]
  | pipe kind => cases kind <;> decide
  | operator op =>
    obtain ⟨code, peek⟩ := op
    cases code <;> cases peek <;> decide

namespace Source

/-- Lines that are all ended by a newline are found again. -/
theorem lines_ended {ls : List (List Char)} (hnewline : ∀ l ∈ ls, '\n' ∉ l)
    (hreturn : ∀ l ∈ ls, '\r' ∉ l) : lines (ls.flatMap (· ++ ['\n'])) = ls := by
  have hpieces : Text.pieces '\n' (ls.flatMap (· ++ ['\n'])) = ls ++ [[]] := by
    clear hreturn
    induction ls with
    | nil => rfl
    | cons l ls ih =>
      obtain ⟨hl, hls⟩ := List.forall_mem_cons.mp hnewline
      rw [List.flatMap_cons, List.append_assoc, List.singleton_append, Text.pieces_append hl,
        ih hls]
      rfl
  unfold lines
  rw [hpieces]
  dsimp only
  rw [List.getLast?_concat, if_pos rfl, List.dropLast_concat, map_dropReturn hreturn]

theorem lines_program (g : Grid) : lines g.program.toList = g.innerRows := by
  have hends : ∀ l ∈ g.innerRows, ∀ ch ∈ l, ch ≠ '\n' ∧ ch ≠ '\r' := by
    intro l hl ch hch
    obtain ⟨p, -, rfl⟩ := Grid.glyph_of_mem_innerRows hl hch
    exact (g.cellAt p).glyph_ne_end
  rw [Grid.program, String.toList_ofList]
  apply lines_ended
  · intro l hl hmem
    exact (hends l hl _ hmem).1 rfl
  · intro l hl hmem
    exact (hends l hl _ hmem).2 rfl

/-- The page of the program has the size of the grid. -/
theorem size_program {g : Grid} (hw : 2 ≤ g.width) (hh : 3 ≤ g.height) :
    (Page.ofRows (frame g.program)).width = g.width ∧
      (Page.ofRows (frame g.program)).height = g.height := by
  have hrect : Rectangle (g.width - 2) (g.height - 2) g.innerRows := g.rectangle_rows.stripped
  obtain ⟨hwidth, hheight⟩ := Page.size_ofRows (rectangle_frame g.program) (by omega)
  rw [hwidth, hheight, lines_program, hrect.longest_eq (by omega), hrect.height]
  omega

/-- The page of the program pictures the grid inside its ring. -/
theorem charAt?_program {g : Grid} (hh : 3 ≤ g.height) {p : Pos} (hp : p ∈ g.interior) :
    (Page.ofRows (frame g.program)).charAt? p = some (g.cellAt p).glyph := by
  have hrect : Rectangle (g.width - 2) (g.height - 2) g.innerRows := g.rectangle_rows.stripped
  have hin := Grid.mem_interior_iff.mp hp
  obtain ⟨x, y⟩ := p
  dsimp only at hin
  obtain ⟨x, rfl⟩ := Nat.exists_eq_add_one.mpr hin.1.1
  obtain ⟨y, rfl⟩ := Nat.exists_eq_add_one.mpr hin.2.1
  have hitem := @charAt?_frame g.program x y
  rw [lines_program, hrect.longest_eq (by omega), hrect.height, g.item?_innerRows hp] at hitem
  exact hitem (by omega) (by omega)

/-- The scan of the program leaves the cells of the grid. -/
theorem course_program {g : Grid} (hf : g.Framed) (hw : 2 ≤ g.width) (hh : 3 ≤ g.height)
    (hp : g.Pictured) :
    Course (Page.ofRows (frame g.program)) (fun _ => Page.ofRows (frame g.program)) g.cellAt := by
  obtain ⟨hwidth, hheight⟩ := size_program hw hh
  refine ⟨rfl, fun _ => rfl, fun _ => rfl, fun p hx hy => ?_⟩
  have hon : g.contains p = true := Grid.contains_iff.mpr ⟨hwidth ▸ hx, hheight ▸ hy⟩
  by_cases hin : p ∈ g.interior
  · exact scanCell_glyph (hp p hin) (charAt?_program hh hin)
  · -- On the ring the page has its own `#`, whatever the program says.
    have hedge : g.isEdge p = true := by
      by_contra hedge
      exact hin (Grid.mem_interior.mpr ⟨hon, by simpa using hedge⟩)
    rw [hf p _ (Grid.get?_of_contains hon) hedge]
    apply scanCell_border
    apply (ringed_frame g.program).ring p hx hy
    rw [hwidth, hheight]
    exact fun hinside => hin (Grid.mem_interior_iff.mpr hinside)

/-- A grid with a closed ring, which takes two columns, and at least one row inside it is loaded
    back from its picture, if each inner cell is empty, a border, a pipe, a marker that drifts to
    the right, or an operator that has a name. -/
theorem load_program {g : Grid} (hf : g.Framed) (hw : 2 ≤ g.width) (hh : 3 ≤ g.height)
    (hp : g.Pictured) : load g.program = .ok g := by
  obtain ⟨hwidth, hheight⟩ := size_program hw hh
  obtain ⟨g', hload, hwidth', hheight', hget⟩ := (course_program hf hw hh hp).load_eq
  have hsame : ∀ p, g'.contains p = g.contains p := by
    intro p
    simp only [Grid.contains, hwidth', hheight', hwidth, hheight]
  have hback : g' = g := by
    apply Grid.ext_get? (hwidth'.trans hwidth) (hheight'.trans hheight)
    intro p
    by_cases hon : g'.contains p = true
    · rw [hget p hon, Grid.get?_of_contains (hsame p ▸ hon)]
    · rw [Grid.get?_eq_none hon, Grid.get?_eq_none (hsame p ▸ hon)]
  rw [hload, hback]

/-- A wall, both markers, the eraser beside the sink, and letters that are codes of their own. -/
def sampler : Grid :=
  ⟨5, 4,
    #[.border, .border, .border, .border, .border,
      .border, .data ⟨.input, .right⟩, .pipe .eraser, .operator ⟨.sink, false⟩, .border,
      .border, .operator ⟨.haltDump, true⟩, .border, .operator ⟨.add, true⟩, .border,
      .border, .border, .border, .border, .border], rfl⟩

theorem load_program_sampler :
    (sampler.Framed ∧ sampler.Pictured) ∧ sampler.program = "IxX\nh#a\n" ∧
      load sampler.program = .ok sampler := by
  have hframed : sampler.Framed := by decide
  have hpictured : sampler.Pictured := by decide
  have htext : sampler.program = "IxX\nh#a\n" := by decide +kernel
  have hload := load_program hframed (by decide) (by decide) hpictured
  exact ⟨⟨hframed, hpictured⟩, htext, hload⟩

end Source

end Gridfall
