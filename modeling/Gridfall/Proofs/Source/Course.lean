/-
  Loading, place by place. The scan goes over the places of a page row by row, and a literal on the
  way changes the page for the places that come later. A `Course` gives the page that the scan finds
  at each place, and the cell that it leaves there. With a course the result of loading is known at
  every place (`Course.load_eq`).

  The course of a page that shows one literal and is blank otherwise (`Page.Shows`) has two pages:
  the first one up to the opener, and after it the page with the literal erased (`Shows.course`).
-/
import Gridfall.Proofs.Source.Loading

namespace Gridfall

namespace Source

/-! ## Courses -/

/-- The pages that a scan finds and the cells that it leaves. From the end of a row the scan goes to
    the next one. -/
structure Course (base : Page) (pages : Pos → Page) (cell : Pos → Cell) : Prop where
  start : pages ⟨0, 0⟩ = base
  turn : ∀ y, pages ⟨base.width, y⟩ = pages ⟨0, y + 1⟩
  width : ∀ p, (pages p).width = base.width
  scan : ∀ p : Pos, p.x < base.width → p.y < base.height →
    scanCell (pages p) p = .ok (cell p, pages ⟨p.x + 1, p.y⟩)

/-- The cells of a block, row by row. -/
def table (cell : Pos → Cell) (w h : Nat) : List (List Cell) :=
  (List.range h).map fun y => (List.range w).map fun x => cell ⟨x, y⟩

theorem item?_table (cell : Pos → Cell) {w h : Nat} {p : Pos} (hx : p.x < w) (hy : p.y < h) :
    item? (table cell w h) p = some (cell p) := by
  simp [item?, table, hx, hy]

namespace Course

variable {base : Page} {pages : Pos → Page} {cell : Pos → Cell} (h : Course base pages cell)
include h

theorem scanRow_eq {y : Nat} (hy : y < base.height) (n x : Nat) (hx : x + n ≤ base.width)
    (done : Array Cell) :
    scanRow y (List.range' x n) done (pages ⟨x, y⟩) =
      .ok (done ++ ((List.range' x n).map fun x => cell ⟨x, y⟩).toArray, pages ⟨x + n, y⟩) := by
  induction n generalizing x done with
  | zero => simp [scanRow]
  | succ n ih =>
    have hcell := h.scan ⟨x, y⟩ (by omega : x < base.width) hy
    have hrest := ih (x + 1) (by omega) (done.push (cell ⟨x, y⟩))
    rw [List.range'_succ, scanRow, hcell]
    dsimp only
    rw [hrest, Nat.add_assoc, Nat.add_comm 1 n]
    simp

theorem scanRows_eq (n y : Nat) (hy : y + n ≤ base.height) (done : Array (List Cell)) :
    scanRows (List.range' y n) done (pages ⟨0, y⟩) =
      .ok (done ++ ((List.range' y n).map fun y =>
        (List.range base.width).map fun x => cell ⟨x, y⟩).toArray) := by
  induction n generalizing y done with
  | zero => simp [scanRows]
  | succ n ih =>
    have hrow := h.scanRow_eq (by omega : y < base.height) base.width 0 (by omega) #[]
    rw [Nat.zero_add, h.turn, ← List.range_eq_range'] at hrow
    rw [List.range'_succ, scanRows, h.width, hrow]
    dsimp only
    rw [ih (y + 1) (by omega)]
    simp

end Course

/-- What is loaded along a course is a grid with the cells of the course. -/
theorem Course.load_eq {source : String} {pages : Pos → Page} {cell : Pos → Cell}
    (h : Course (Page.ofRows (frame source)) pages cell) :
    ∃ g, load source = .ok g ∧ g.width = (Page.ofRows (frame source)).width ∧
      g.height = (Page.ofRows (frame source)).height ∧
      ∀ p, g.contains p = true → g.get? p = some (cell p) := by
  obtain ⟨hwidth, hheight⟩ := Page.size_ofRows (rectangle_frame source) (by omega)
  generalize hpage : Page.ofRows (frame source) = page at h hwidth hheight
  have hrows : scanRows (List.range page.height) #[] page =
      .ok (table cell page.width page.height).toArray := by
    have := h.scanRows_eq page.height 0 (by omega) #[]
    rwa [h.start, ← List.range_eq_range', Array.empty_append] at this
  -- The rows are those of the scan in general, so the ring is closed.
  obtain ⟨-, hscanned⟩ := scanRows_scanned (hpage ▸ ringed_frame source) (.refl page)
    (fun y hy => List.mem_range.mp hy) #[]
  rw [hrows] at hscanned
  obtain ⟨scanned, hlist, hcells⟩ := hscanned
  have hlist : table cell page.width page.height = scanned := hlist
  rw [← hlist] at hcells
  have hrectangle := rectangle_scanned hcells
  have hclosed := hrectangle.framed_grid fun p hx hy hout => ring_scanned hcells hx hy hout
  have hok := hrectangle.ofRows_eq (by omega) (by omega) hclosed
  refine ⟨hrectangle.grid, ?_, rfl, rfl, fun p hp => ?_⟩
  · unfold load
    rw [hpage]
    dsimp only
    rw [hrows]
    show (Grid.ofRows (table cell page.width page.height)).mapError _ = _
    rw [hok]
    rfl
  · obtain ⟨hx, hy⟩ : p.x < page.width ∧ p.y < page.height := Grid.contains_iff.mp hp
    rw [hrectangle.get?_grid hx hy, item?_table cell hx hy]

/-! ## Blank places -/

theorem scanCell_space {page : Page} {p : Pos} (h : page.charAt? p = some ' ') :
    scanCell page p = .ok (.empty, page) := by
  rw [scanCell, Page.charAt_of_charAt? h]
  rfl

theorem scanCell_border {page : Page} {p : Pos} (h : page.charAt? p = some '#') :
    scanCell page p = .ok (.border, page) := by
  rw [scanCell, Page.charAt_of_charAt? h]
  rfl

namespace Page

theorem charAt?_foldl_erase {page : Page} (hw : page.Whole) {path : List Pos}
    (hpath : ∀ q ∈ path, Inside page.width page.height q) (p : Pos) :
    (path.foldl Page.erase page).charAt? p = if p ∈ path then some ' ' else page.charAt? p := by
  induction path generalizing page with
  | nil => simp
  | cons q path ih =>
    obtain ⟨hq, hpath⟩ := List.forall_mem_cons.mp hpath
    have hsome : (page.charAt? q).isSome = true := by
      rw [hw.inside hq]
      rfl
    have heroded : page.Eroded (page.erase q) := .erase hsome hq
    rw [List.foldl_cons, ih (heroded.whole hw) hpath, charAt?_erase hsome]
    by_cases hp : p ∈ path
    · rw [if_pos hp, if_pos (List.mem_cons_of_mem q hp)]
    · simp only [hp, if_false, List.mem_cons, or_false]

/-! ## One literal on a blank page -/

/-- The place `i` steps after `p` on the way of a literal. -/
def along (downward : Bool) (p : Pos) (i : Nat) : Pos :=
  if downward then ⟨p.x, p.y + i⟩ else ⟨p.x + i, p.y⟩

/-- How many places there are ahead of `p`, up to the ring. -/
def room (page : Page) (downward : Bool) (p : Pos) : Nat :=
  if downward then page.height - 2 - p.y else page.width - 2 - p.x

theorem ahead_eq (page : Page) (downward : Bool) (p : Pos) :
    page.ahead downward p = (List.range' 1 (page.room downward p)).map (along downward p) := by
  cases downward with
  | false =>
    show (List.range' (p.x + 1) _).map _ = _
    rw [← List.map_add_range', List.map_map]
    rfl
  | true =>
    show (List.range' (p.y + 1) _).map _ = _
    rw [← List.map_add_range', List.map_map]
    rfl

/-- The page holds `c` at `p`, the characters `cs` after it, and nothing else inside its ring. -/
structure Shows (page : Page) (downward : Bool) (p : Pos) (c : Char) (cs : List Char) : Prop where
  inside : Inside page.width page.height p
  first : page.charAt? p = some c
  rest : cs <+: (page.ahead downward p).map page.charAt
  blank : ∀ q, Inside page.width page.height q → q ≠ p →
    q ∉ (page.ahead downward p).take cs.length → page.charAt? q = some ' '

@[simp] theorem along_zero (downward : Bool) (p : Pos) : along downward p 0 = p := by
  cases downward <;> rfl

theorem along_shift (downward : Bool) (p : Pos) (dx dy i : Nat) :
    along downward ⟨p.x + dx, p.y + dy⟩ i =
      ⟨(along downward p i).x + dx, (along downward p i).y + dy⟩ := by
  unfold along
  cases downward <;> simp <;> omega

theorem getElem?_ahead {page : Page} {downward : Bool} {p : Pos} {i : Nat}
    (hi : Inside page.width page.height (along downward p (i + 1))) :
    (page.ahead downward p)[i]? = some (along downward p (i + 1)) := by
  have hroom : i < page.room downward p := by
    unfold room
    obtain ⟨⟨-, hx⟩, -, hy⟩ := hi
    cases downward <;> simp [along] at hx hy ⊢ <;> omega
  rw [ahead_eq, List.getElem?_map, List.getElem?_range' hroom, Nat.one_mul, Nat.add_comm 1 i]
  rfl

/-- What stands along the way of a literal is ahead of it. -/
theorem prefix_of_along {page : Page} {downward : Bool} {p : Pos} {cs : List Char}
    (hchar : ∀ i d, cs[i]? = some d →
      Inside page.width page.height (along downward p (i + 1)) ∧
        page.charAt? (along downward p (i + 1)) = some d) :
    cs <+: (page.ahead downward p).map page.charAt := by
  rw [List.prefix_iff_getElem?]
  intro i hi
  obtain ⟨hin, hd⟩ := hchar i cs[i] (List.getElem?_eq_getElem hi)
  rw [List.getElem?_map, getElem?_ahead hin, Option.map_some, charAt_of_charAt? hd]

/-- A page shows what stands along the way of the literal, if no other place is taken. -/
theorem Shows.of_along {page : Page} {downward : Bool} {p : Pos} {c : Char} {cs : List Char}
    (hchar : ∀ i d, (c :: cs)[i]? = some d → Inside page.width page.height (along downward p i) ∧
      page.charAt? (along downward p i) = some d)
    (hblank : ∀ q, Inside page.width page.height q →
      (∀ i < (c :: cs).length, q ≠ along downward p i) → page.charAt? q = some ' ') :
    page.Shows downward p c cs := by
  obtain ⟨hinside, hfirst⟩ := hchar 0 c rfl
  rw [along_zero] at hinside hfirst
  refine ⟨hinside, hfirst, prefix_of_along fun i d hd => hchar (i + 1) d hd, ?_⟩
  intro q hq hne hoff
  apply hblank q hq
  intro i hi heq
  cases i with
  | zero => exact hne (heq.trans (along_zero downward p))
  | succ i =>
    have hi : i < cs.length := Nat.lt_of_succ_lt_succ hi
    obtain ⟨hin, -⟩ := hchar (i + 1) cs[i] (List.getElem?_eq_getElem hi)
    apply hoff
    rw [heq]
    apply List.mem_of_getElem? (i := i)
    rw [List.getElem?_take_of_lt hi, getElem?_ahead hin]

/-- The scan reads `q` no later than `p`. -/
def notAfter (p q : Pos) : Prop := q.y < p.y ∨ q.y = p.y ∧ q.x ≤ p.x

instance (p q : Pos) : Decidable (notAfter p q) := inferInstanceAs (Decidable (_ ∨ _))

/-- The way of a literal is read after its opener. -/
theorem after_of_mem_ahead {page : Page} {downward : Bool} {p q : Pos}
    (hq : q ∈ page.ahead downward p) : ¬ notAfter p q := by
  rw [ahead_eq] at hq
  obtain ⟨i, hi, rfl⟩ := List.mem_map.mp hq
  have hpos := (List.mem_range'_1.mp hi).1
  unfold notAfter along
  cases downward <;> simp <;> omega

theorem notAfter_next {p q : Pos} (hne : q ≠ p) :
    notAfter p ⟨q.x + 1, q.y⟩ ↔ notAfter p q := by
  have hxy : ¬ (q.x = p.x ∧ q.y = p.y) := by
    rintro ⟨hx, hy⟩
    exact hne (by cases p; cases q; simp_all)
  unfold notAfter
  dsimp only
  omega

section

variable {page : Page} (hr : page.Ringed) {downward : Bool} {p : Pos} {c : Char} {cs : List Char}
  (h : page.Shows downward p c cs)
include hr h

/-- What is left of the page once the literal is read. -/
theorem Shows.charAt?_read {q : Pos} (hq : Inside page.width page.height q) (hne : q ≠ p) :
    (((page.ahead downward p).take cs.length).foldl Page.erase page).charAt? q = some ' ' := by
  have hpath : ∀ r ∈ (page.ahead downward p).take cs.length, Inside page.width page.height r :=
    fun r hr' => inside_of_mem_ahead h.inside (List.mem_of_mem_take hr')
  rw [charAt?_foldl_erase hr.whole hpath]
  split
  · rfl
  · next hoff => exact h.blank q hq hne hoff

/-- The opener becomes the cell of the literal, and every other place is empty or border. -/
theorem Shows.course {o : Opener} (ho : opener? c = some o) (hd : o.downward = downward)
    {content : Content} (hread : ∀ rest, o.read (cs ++ rest) = some (content, cs.length))
    {cell : Cell} (hcell : contentCell p content = .ok cell) :
    Course page
      (fun q => if notAfter p q then page
        else ((page.ahead downward p).take cs.length).foldl Page.erase page)
      (fun q => if q = p then cell
        else if Inside page.width page.height q then .empty else .border) := by
  have hpath : ∀ r ∈ (page.ahead downward p).take cs.length, Inside page.width page.height r :=
    fun r hr' => inside_of_mem_ahead h.inside (List.mem_of_mem_take hr')
  have heroded := eroded_foldl_erase hr.whole hpath
  obtain ⟨⟨hx, hxw⟩, hy, hyh⟩ := h.inside
  constructor
  · exact if_pos (.inl hy)
  · intro y
    have hsame : notAfter p ⟨page.width, y⟩ ↔ notAfter p ⟨0, y + 1⟩ := by
      unfold notAfter
      dsimp only
      omega
    simp only [hsame]
  · intro q
    split
    · rfl
    · exact heroded.width
  · intro q hqx hqy
    by_cases hq : q = p
    · subst hq
      obtain ⟨rest, hrest⟩ := h.rest
      have hnext : ¬ notAfter q ⟨q.x + 1, q.y⟩ := by
        unfold notAfter
        dsimp only
        omega
      rw [if_pos (.inr ⟨rfl, Nat.le_refl _⟩), if_pos rfl, if_neg hnext, scanCell,
        charAt_of_charAt? h.first, ho]
      show literalCell page q o = _
      rw [literalCell_eq, hd, literalRest, List.nil_append, ← hrest, hread]
      dsimp only
      rw [hcell, List.length_nil, Nat.sub_zero]
      rfl
    · simp only [notAfter_next hq, if_neg hq]
      by_cases hin : Inside page.width page.height q
      · rw [if_pos hin]
        apply scanCell_space
        split
        · next hbefore =>
          exact h.blank q hin hq fun hmem => after_of_mem_ahead (List.mem_of_mem_take hmem) hbefore
        · exact h.charAt?_read hr hin hq
      · rw [if_neg hin]
        apply scanCell_border
        split
        · exact hr.ring q hqx hqy hin
        · rw [heroded.ring hin]
          exact hr.ring q hqx hqy hin

end

end Page

end Source

end Gridfall
