/-
  Pages of program text. A framed text is a rectangle: its rows have one length, two more than the
  longest line, and its outermost characters are all `#` (`rectangle_frame`, `ring_frame`).

  `Page.charAt?` reads a page with a check: it has an answer on the page only. `Eroded page page'`
  says what scanning does to a page: it keeps its size, and a character stays as it is or, inside
  the ring, turns into a space. So a character that is not a space is the one of the text itself
  (`Eroded.original`).
-/
import Gridfall.Proofs.Grid
import Gridfall.Source.Page

namespace Gridfall

/-! ## Rectangles -/

/-- What rows hold at a place. -/
def item? {α : Type} (rows : List (List α)) (p : Pos) : Option α := rows[p.y]?.bind (·[p.x]?)

/-- Rows of one length. -/
structure Rectangle {α : Type} (w h : Nat) (rows : List (List α)) : Prop where
  width : ∀ r ∈ rows, r.length = w
  height : rows.length = h

/-- Places of a rectangle that are not on its outermost ring. -/
def Inside (w h : Nat) (p : Pos) : Prop := (0 < p.x ∧ p.x + 1 < w) ∧ 0 < p.y ∧ p.y + 1 < h

instance (w h : Nat) (p : Pos) : Decidable (Inside w h p) := inferInstanceAs (Decidable (_ ∧ _))

namespace Rectangle

variable {α : Type} {w h : Nat} {rows : List (List α)}

theorem headD (hr : Rectangle w h rows) (hh : 0 < h) : (rows.headD []).length = w := by
  cases rows with
  | nil =>
    have := hr.height
    simp at this
    omega
  | cons r rs => exact hr.width r List.mem_cons_self

/-- The rows one after the other. -/
theorem getElem?_flatten (hr : Rectangle w h rows) {p : Pos} (hp : p.x < w) :
    rows.flatten[p.y * w + p.x]? = item? rows p := by
  obtain ⟨x, y⟩ := p
  have hwidth := hr.width
  clear hr
  induction rows generalizing y with
  | nil => rfl
  | cons r rs ih =>
    obtain ⟨hhead, htail⟩ := List.forall_mem_cons.mp hwidth
    rw [List.flatten_cons]
    cases y with
    | zero =>
      rw [Nat.zero_mul, Nat.zero_add, List.getElem?_append_left (by omega)]
      rfl
    | succ y =>
      have hindex : (y + 1) * w + x - r.length = y * w + x := by
        rw [Nat.succ_mul]
        omega
      have hlater : r.length ≤ (y + 1) * w + x := by
        rw [Nat.succ_mul]
        omega
      rw [List.getElem?_append_right hlater, hindex]
      exact ih y hp htail

theorem item?_isSome (hr : Rectangle w h rows) {p : Pos} (hx : p.x < w) (hy : p.y < h) :
    (item? rows p).isSome = true := by
  have hrow : p.y < rows.length := by
    rw [hr.height]
    exact hy
  have hcolumn := hr.width rows[p.y] (List.getElem_mem hrow)
  simp [item?, List.getElem?_eq_getElem hrow, hcolumn, hx]

end Rectangle

/-! ## Framed lines -/

/-- The length of the longest line. -/
def longest {α : Type} (ls : List (List α)) : Nat := (ls.map List.length).max?.getD 0

theorem length_le_longest {α : Type} {l : List α} {ls : List (List α)} (h : l ∈ ls) :
    l.length ≤ longest ls := List.le_max?_getD_of_mem (List.mem_map_of_mem h)

theorem lt_longest_of_item? {α : Type} {ls : List (List α)} {p : Pos} {a : α}
    (h : item? ls p = some a) : p.x < longest ls ∧ p.y < ls.length := by
  obtain ⟨l, hl, ha⟩ := Option.bind_eq_some_iff.mp h
  obtain ⟨hy, -⟩ := List.getElem?_eq_some_iff.mp hl
  obtain ⟨hx, -⟩ := List.getElem?_eq_some_iff.mp ha
  exact ⟨Nat.lt_of_lt_of_le hx (length_le_longest (List.mem_of_getElem? hl)), hy⟩

theorem foldl_max_eq_longest {α : Type} (ls : List (List α)) :
    ls.foldl (fun n l => max n l.length) 0 = longest ls := by
  rw [← List.foldl_map (f := List.length) (g := max), longest]
  cases ls with
  | nil => rfl
  | cons l ls =>
    rw [List.map_cons, List.max?_cons', List.foldl_cons, Nat.zero_max]
    rfl

namespace Grid

variable {α : Type} (ring blank : α) (ls : List (List α))

theorem framed_eq : framed ring blank ls =
    List.replicate (longest ls + 2) ring ::
      ls.map (fun l => ring :: padTo (longest ls) blank l ++ [ring]) ++
      [List.replicate (longest ls + 2) ring] := by
  unfold framed
  rw [foldl_max_eq_longest]

theorem length_padTo {n : Nat} {l : List α} (h : l.length ≤ n) : (padTo n blank l).length = n := by
  unfold padTo
  rw [List.length_append, List.length_replicate]
  omega

theorem rectangle_framed :
    Rectangle (longest ls + 2) (ls.length + 2) (framed ring blank ls) := by
  rw [framed_eq]
  constructor
  · intro r hr
    simp only [List.cons_append, List.mem_cons, List.mem_append, List.mem_map, List.not_mem_nil,
      or_false] at hr
    rcases hr with rfl | ⟨l, hl, rfl⟩ | rfl
    · exact List.length_replicate
    · simp [length_padTo blank (length_le_longest hl)]
    · exact List.length_replicate
  · simp

/-- The outermost entries are those of the ring. -/
theorem ring_framed {p : Pos} (hx : p.x < longest ls + 2) (hy : p.y < ls.length + 2)
    (hp : ¬ Inside (longest ls + 2) (ls.length + 2) p) :
    item? (framed ring blank ls) p = some ring := by
  obtain ⟨x, y⟩ := p
  simp only [Inside] at hx hy hp
  rw [framed_eq, item?]
  cases y with
  | zero => simp [hx]
  | succ y =>
    rw [List.cons_append, List.getElem?_cons_succ]
    by_cases hlast : y = ls.length
    · rw [List.getElem?_append_right (by simp [hlast])]
      simp [hlast, hx]
    · have hline : y < ls.length := by omega
      have hpad := length_padTo blank (length_le_longest (List.getElem_mem hline))
      rw [List.getElem?_append_left (by simpa using hline)]
      rw [List.getElem?_map, List.getElem?_eq_getElem hline]
      show (ring :: padTo (longest ls) blank ls[y] ++ [ring])[x]? = some ring
      rcases (by omega : x = 0 ∨ x = longest ls + 1) with rfl | rfl
      · rfl
      · rw [List.cons_append, List.getElem?_cons_succ, List.getElem?_append_right (by omega), hpad,
          Nat.sub_self]
        rfl

/-- Inside the ring are the entries of the lines. -/
theorem item?_framed {x y : Nat} (hx : x < longest ls) (hy : y < ls.length) :
    item? (framed ring blank ls) ⟨x + 1, y + 1⟩ = some ((item? ls ⟨x, y⟩).getD blank) := by
  have hlength := length_le_longest (List.getElem_mem hy)
  have hpad := length_padTo blank hlength
  simp only [framed_eq, item?, List.cons_append, List.getElem?_cons_succ]
  rw [List.getElem?_append_left (by simpa using hy), List.getElem?_map,
    List.getElem?_eq_getElem hy]
  show (ring :: padTo (longest ls) blank ls[y] ++ [ring])[x + 1]? = some (ls[y][x]?.getD blank)
  rw [List.cons_append, List.getElem?_cons_succ, List.getElem?_append_left (by omega), padTo]
  by_cases hshort : x < ls[y].length
  · rw [List.getElem?_append_left hshort, List.getElem?_eq_getElem hshort]
    rfl
  · rw [List.getElem?_append_right (by omega), List.getElem?_eq_none (by omega : ls[y].length ≤ x),
      List.getElem?_replicate, if_pos (by omega)]
    rfl

end Grid

/-! ## Grids from rows -/

namespace Rectangle

theorem firstRagged?_eq_none {w : Nat} {rows : List (List Cell)} (h : ∀ r ∈ rows, r.length = w)
    (n : Nat) : Grid.firstRagged? w n rows = none := by
  induction rows generalizing n with
  | nil => rfl
  | cons r rs ih =>
    obtain ⟨hr, hrs⟩ := List.forall_mem_cons.mp h
    rw [Grid.firstRagged?, if_pos hr]
    exact ih hrs (n + 1)

variable {w h : Nat} {rows : List (List Cell)} (hr : Rectangle w h rows)
include hr

theorem size_flatten : rows.flatten.toArray.size = w * h := by
  rw [List.size_toArray, Grid.length_flatten_of_firstRagged?_none (firstRagged?_eq_none hr.width 0),
    hr.height]

/-- The grid with the entries as its cells. -/
def grid : Grid := ⟨w, h, rows.flatten.toArray, hr.size_flatten⟩

theorem get?_grid {p : Pos} (hx : p.x < w) (hy : p.y < h) : hr.grid.get? p = item? rows p := by
  have hp : hr.grid.contains p = true := Grid.contains_iff.mpr ⟨hx, hy⟩
  rw [Grid.get?, if_pos hp]
  show rows.flatten.toArray[p.y * w + p.x]? = item? rows p
  rw [List.getElem?_toArray, hr.getElem?_flatten hx]

/-- If the outermost entries are borders, so is the ring of the grid. -/
theorem framed_grid
    (hring : ∀ p : Pos, p.x < w → p.y < h → ¬ Inside w h p → item? rows p = some .border) :
    hr.grid.Framed := by
  intro p c hc hedge
  obtain ⟨hx, hy⟩ : p.x < w ∧ p.y < h := Grid.contains_iff.mp (Grid.contains_of_get? hc)
  have hout : ¬ Inside w h p := by
    have hedge : (((p.x = 0 ∨ p.y = 0) ∨ p.x + 1 = w) ∨ p.y + 1 = h) := by
      simpa [Grid.isEdge, grid] using hedge
    unfold Inside
    omega
  rw [hr.get?_grid hx hy, hring p hx hy hout] at hc
  exact (Option.some.inj hc).symm

/-- Rows of one length with a closed ring are accepted. -/
theorem ofRows_eq (hw : 2 ≤ w) (hh : 2 ≤ h) (hframed : hr.grid.Framed) :
    Grid.ofRows rows = .ok hr.grid := by
  have hhead := hr.headD (by omega)
  have hheight := hr.height
  subst hhead hheight
  have hclosed : hr.grid.positions.find?
      (fun p => hr.grid.isEdge p && hr.grid.cellAt p != .border) = none := by
    rw [List.find?_eq_none]
    intro p hp hopen
    obtain ⟨hedge, hcell⟩ := Bool.and_eq_true_iff.mp hopen
    have hborder := hframed p _ (Grid.get?_of_contains (Grid.mem_positions.mp hp)) hedge
    exact bne_iff_ne.mp hcell hborder
  unfold Grid.ofRows
  rw [if_neg (by simp only [Bool.or_eq_true, decide_eq_true_eq]; omega)]
  split
  · next hragged =>
    rw [firstRagged?_eq_none hr.width] at hragged
    cases hragged
  · dsimp only
    split
    · next p hopen => cases hclosed.symm.trans hopen
    · rfl

end Rectangle

/-! ## Reading and erasing -/

namespace Source

open Grid (rectangle_framed ring_framed)

theorem rectangle_frame (source : String) :
    Rectangle (longest (lines source.toList) + 2) ((lines source.toList).length + 2)
      (frame source) := rectangle_framed _ _ _

namespace Page

/-- The character at a place of the page. -/
def charAt? (page : Page) (p : Pos) : Option Char :=
  if p.x < page.width ∧ p.y < page.height then page.chars[p.y * page.width + p.x]? else none

theorem charAt_of_charAt? {page : Page} {p : Pos} {c : Char} (h : page.charAt? p = some c) :
    page.charAt p = c := by
  unfold charAt? at h
  split at h
  · rw [charAt, h]
    rfl
  · cases h

theorem size_ofRows {w h : Nat} {rows : List (List Char)} (hr : Rectangle w h rows) (hh : 0 < h) :
    (ofRows rows).width = w ∧ (ofRows rows).height = h := ⟨hr.headD hh, hr.height⟩

theorem charAt?_ofRows {w h : Nat} {rows : List (List Char)} (hr : Rectangle w h rows)
    (hh : 0 < h) {p : Pos} (hx : p.x < w) (hy : p.y < h) :
    (ofRows rows).charAt? p = item? rows p := by
  obtain ⟨hwidth, hheight⟩ := size_ofRows hr hh
  rw [charAt?, hwidth, hheight, if_pos ⟨hx, hy⟩]
  show rows.flatten.toArray[p.y * w + p.x]? = _
  rw [List.getElem?_toArray, hr.getElem?_flatten hx]

theorem charAt?_erase {page : Page} {p : Pos} (hp : (page.charAt? p).isSome = true) (q : Pos) :
    (page.erase p).charAt? q = if q = p then some ' ' else page.charAt? q := by
  have hon : p.x < page.width ∧ p.y < page.height := by
    by_contra hoff
    simp [charAt?, hoff] at hp
  have hchar : (page.chars[p.y * page.width + p.x]?).isSome = true := by
    rw [charAt?, if_pos hon] at hp
    exact hp
  show (if q.x < page.width ∧ q.y < page.height then
    (page.chars.setIfInBounds (p.y * page.width + p.x) ' ')[q.y * page.width + q.x]? else none) = _
  rw [Array.getElem?_setIfInBounds]
  by_cases hqp : q = p
  · subst hqp
    simpa [hon] using hchar
  · have hindex : q.x < page.width → p.y * page.width + p.x ≠ q.y * page.width + q.x := by
      intro hq heq
      obtain ⟨hx, hy⟩ := Grid.flat_inj hon.1 hq heq
      exact hqp (by cases p; cases q; simp_all)
    rw [if_neg hqp, charAt?]
    split
    · next hq => rw [if_neg (hindex hq.1)]
    · rfl

/-- Scanning keeps the size of a page; a character stays as it is or, inside the ring, turns into a
    space. -/
structure Eroded (page page' : Page) : Prop where
  width : page'.width = page.width
  height : page'.height = page.height
  char : ∀ p, page'.charAt? p = page.charAt? p ∨
    Inside page.width page.height p ∧ page'.charAt? p = some ' '

namespace Eroded

theorem refl (page : Page) : page.Eroded page := ⟨rfl, rfl, fun _ => .inl rfl⟩

theorem trans {a b c : Page} (h₁ : a.Eroded b) (h₂ : b.Eroded c) : a.Eroded c := by
  refine ⟨h₂.width.trans h₁.width, h₂.height.trans h₁.height, fun p => ?_⟩
  rcases h₂.char p with h | ⟨hp, h⟩
  · rw [h]
    exact h₁.char p
  · rw [h₁.width, h₁.height] at hp
    exact .inr ⟨hp, h⟩

theorem erase {page : Page} {p : Pos} (hp : (page.charAt? p).isSome = true)
    (hin : Inside page.width page.height p) : page.Eroded (page.erase p) := by
  refine ⟨rfl, rfl, fun q => ?_⟩
  rw [charAt?_erase hp]
  split
  · next hq => exact .inr ⟨hq ▸ hin, rfl⟩
  · exact .inl rfl

variable {page page' : Page} (h : page.Eroded page')
include h

/-- A character that is not a space was not touched. -/
theorem original {p : Pos} {c : Char} (hc : page'.charAt? p = some c) (hspace : c ≠ ' ') :
    page.charAt? p = some c := by
  rcases h.char p with he | ⟨-, he⟩
  · exact he.symm.trans hc
  · rw [he] at hc
    cases hc
    exact absurd rfl hspace

theorem isSome {p : Pos} (hp : (page.charAt? p).isSome = true) :
    (page'.charAt? p).isSome = true := by
  rcases h.char p with he | ⟨-, he⟩
  · rw [he]
    exact hp
  · rw [he]
    rfl

theorem ring {p : Pos} (hp : ¬ Inside page.width page.height p) :
    page'.charAt? p = page.charAt? p := by
  rcases h.char p with he | ⟨hin, -⟩
  · exact he
  · exact absurd hin hp

end Eroded

end Page

end Source

end Gridfall
