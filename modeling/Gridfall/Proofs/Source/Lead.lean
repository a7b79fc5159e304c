/-
  Lines that are complete. What stands at the start of a line is read as if it were alone, if it
  loads alone: all its literals are then complete where it ends, whatever follows on the line and in
  the lines below (`leads_of_load`, `Leads.step`).

  A literal to the right erases characters of its row up to some column (`Page.eraseRight`).
-/
import Gridfall.Proofs.Source.Sheet

namespace Gridfall

namespace Source

/-! ## Erasing to the right -/

namespace Page

/-- The page with `n` characters to the right of `p` erased. -/
def eraseRight (page : Page) (p : Pos) (n : Nat) : Page :=
  ((page.ahead false p).take n).foldl Page.erase page

theorem mem_ahead_right {page : Page} {p q : Pos} (h : q ∈ page.ahead false p) :
    q.y = p.y ∧ p.x < q.x := by
  obtain ⟨x, hx, rfl⟩ := List.mem_map.mp h
  have := (List.mem_range'_1.mp hx).1
  exact ⟨rfl, this⟩

theorem mem_take_ahead {page : Page} {p : Pos} {n : Nat} (hn : p.x + n + 1 < page.width) {q : Pos} :
    q ∈ (page.ahead false p).take n ↔ q.y = p.y ∧ p.x < q.x ∧ q.x ≤ p.x + n := by
  have hroom : page.width - 2 - p.x = n + (page.width - 2 - p.x - n) := by omega
  have htake : (page.ahead false p).take n =
      (List.range' (p.x + 1) n).map fun x => (⟨x, p.y⟩ : Pos) := by
    show ((List.range' (p.x + 1) (page.width - 2 - p.x)).map _).take n = _
    rw [hroom, ← List.range'_append_1, List.map_append]
    exact List.take_left' (by simp)
  obtain ⟨x, y⟩ := q
  rw [htake]
  simp only [List.mem_map, List.mem_range'_1, Pos.mk.injEq]
  constructor
  · rintro ⟨x, hx, rfl, rfl⟩
    exact ⟨rfl, by omega, by omega⟩
  · rintro ⟨rfl, hlower, hupper⟩
    exact ⟨x, by omega, rfl, rfl⟩

theorem charAt?_eraseRight {page : Page} (hw : page.Whole) {p : Pos}
    (hp : Inside page.width page.height p) {n : Nat} (hn : p.x + n + 1 < page.width) (q : Pos) :
    (page.eraseRight p n).charAt? q =
      if q.y = p.y ∧ p.x < q.x ∧ q.x ≤ p.x + n then some ' ' else page.charAt? q := by
  rw [eraseRight, charAt?_foldl_erase hw fun r hr =>
    inside_of_mem_ahead hp (List.mem_of_mem_take hr)]
  simp only [mem_take_ahead hn]

theorem eroded_eraseRight {page : Page} (hw : page.Whole) {p : Pos}
    (hp : Inside page.width page.height p) (n : Nat) : page.Eroded (page.eraseRight p n) :=
  eroded_foldl_erase hw fun _ hq => inside_of_mem_ahead hp (List.mem_of_mem_take hq)

end Page

/-! ## Lines that are complete -/

theorem plainCell_place {c : Char} {p : Pos} {cell : Cell} (h : plainCell c p = .ok cell)
    (q : Pos) :
    plainCell c q = .ok cell := by
  unfold plainCell at h ⊢
  split at h
  · exact h
  · exact h
  · exact h
  · exact h
  · split at h
    · exact h
    · split at h
      · exact h
      · cases h

theorem contentCell_place {content : Content} {p : Pos} {cell : Cell}
    (h : contentCell p content = .ok cell) (q : Pos) : contentCell q content = .ok cell := by
  cases content with
  | comment | number | text => exact h
  | constant name =>
    simp only [contentCell] at h ⊢
    split at h
    · exact h
    · cases h

theorem exists_of_map_eq_ok {ε α β : Type} {r : Except ε α} {f : α → β} {b : β}
    (h : r.map f = .ok b) : ∃ a, r = .ok a ∧ f a = b := by
  cases r with
  | error e => cases h
  | ok a => exact ⟨a, rfl, Except.ok.inj h⟩

/-- What is ahead in a line is ahead in a longer line that has the same characters there. -/
theorem Page.ahead_prefix {m a : Page} (hwidth : m.width ≤ a.width) {x z y : Nat}
    (hsame : ∀ x', x ≤ x' → x' + 1 < m.width → a.charAt ⟨x', y⟩ = m.charAt ⟨x', z⟩) :
    (m.ahead false ⟨x, z⟩).map m.charAt <+: (a.ahead false ⟨x, y⟩).map a.charAt := by
  have hroom : a.width - 2 - x = (m.width - 2 - x) + (a.width - 2 - x - (m.width - 2 - x)) := by
    omega
  show ((List.range' (x + 1) (m.width - 2 - x)).map _).map _ <+:
    ((List.range' (x + 1) (a.width - 2 - x)).map _).map _
  rw [hroom, ← List.range'_append_1, List.map_append, List.map_append, List.map_map, List.map_map]
  refine ⟨_, congrArg (· ++ _) (List.map_congr_left fun x' hx' => ?_)⟩
  have := List.mem_range'_1.mp hx'
  exact (hsame x' (by omega) (by omega)).symm

/-- On a page of one line, a cell that is scanned takes characters of that line. Where another line
    goes on as this one does from here to its end, the same cell is found and as many characters are
    taken. -/
theorem scanCell_lead {m next : Page} (hheight : m.height = 3) (hwhole : m.Whole) {x : Nat}
    (hx : x + 1 < m.width) {cell : Cell} (h : scanCell m ⟨x, 1⟩ = .ok (cell, next)) :
    ∃ n, x + n + 1 < m.width ∧ next = m.eraseRight ⟨x, 1⟩ n ∧
      ∀ (a : Page) (y : Nat), m.width ≤ a.width →
        (∀ x', x ≤ x' → x' + 1 < m.width → a.charAt? ⟨x', y⟩ = m.charAt? ⟨x', 1⟩) →
        scanCell a ⟨x, y⟩ = .ok (cell, a.eraseRight ⟨x, y⟩ n) := by
  have hchars : ∀ (a : Page) (y : Nat),
      (∀ x', x ≤ x' → x' + 1 < m.width → a.charAt? ⟨x', y⟩ = m.charAt? ⟨x', 1⟩) →
      ∀ x', x ≤ x' → x' + 1 < m.width → a.charAt ⟨x', y⟩ = m.charAt ⟨x', 1⟩ := by
    intro a y hsame x' hlower hupper
    have hm := hwhole.charAt? (q := ⟨x', 1⟩) (by dsimp only; omega) (by dsimp only; omega)
    exact Page.charAt_of_charAt? ((hsame x' hlower hupper).trans hm)
  unfold scanCell at h
  split at h
  · next o ho =>
    rw [literalCell_eq, literalRest, List.nil_append] at h
    split at h
    · cases h
    · next content n hread =>
      obtain ⟨cell', hcell, heq⟩ := exists_of_map_eq_ok h
      cases heq
      -- A literal that goes downward has no place to go on a page of one line.
      have hright : o.downward = false := by
        by_contra hdown
        have hnone : m.ahead o.downward ⟨x, 1⟩ = [] := by
          rw [Bool.not_eq_false] at hdown
          rw [hdown]
          show (List.range' (1 + 1) (m.height - 2 - 1)).map _ = []
          rw [hheight]
          rfl
        rw [hnone, List.map_nil, Opener.read_nil] at hread
        cases hread
      rw [hright] at hread ⊢
      have hroom : n ≤ m.width - 2 - x := by
        simpa [Page.ahead, Page.rightOf] using (o.promptOn_read _ content n hread).1
      refine ⟨n, by omega, rfl, fun a y hwidth hsame => ?_⟩
      obtain ⟨more, hmore⟩ := Page.ahead_prefix hwidth (hchars a y hsame)
      have hagain := Opener.read_append hread more
      rw [hmore] at hagain
      rw [scanCell, hchars a y hsame x (Nat.le_refl x) hx, ho]
      dsimp only
      rw [literalCell_eq, literalRest, List.nil_append, hright, hagain]
      dsimp only
      rw [contentCell_place hcell]
      rfl
  · next hplain =>
    obtain ⟨cell', hcell, heq⟩ := exists_of_map_eq_ok h
    cases heq
    refine ⟨0, hx, rfl, fun a y _ hsame => ?_⟩
    rw [scanCell, hchars a y hsame x (Nat.le_refl x) hx, hplain]
    dsimp only
    rw [plainCell_place hcell]
    rfl

/-- From column `x` on, row `y` of `a` starts with what is left of the line of `m`, and that line is
    read to its end without an error. -/
structure Leads (m : Page) (x : Nat) (a : Page) (y : Nat) : Prop where
  height : m.height = 3
  whole : m.Whole
  width : m.width ≤ a.width
  char : ∀ x', x ≤ x' → x' + 1 < m.width → a.charAt? ⟨x', y⟩ = m.charAt? ⟨x', 1⟩
  read : ∃ done r, scanRow 1 (List.range' x (m.width - x)) done m = .ok r

/-- One more cell of the line is read in the same way on every page that it leads. -/
theorem Leads.step {m : Page} {x y : Nat} {a : Page} (h : Leads m x a y) (hx : 0 < x)
    (hxw : x + 1 < m.width) (hw : a.Whole) (hp : Inside a.width a.height ⟨x, y⟩) :
    ∃ cell n m', x + n + 1 < m.width ∧ m'.width = m.width ∧
      (∀ b, Leads m x b y → scanCell b ⟨x, y⟩ = .ok (cell, b.eraseRight ⟨x, y⟩ n)) ∧
      Leads m' (x + 1) (a.eraseRight ⟨x, y⟩ n) y := by
  obtain ⟨done, r, hread⟩ := h.read
  rw [show m.width - x = m.width - (x + 1) + 1 by omega, List.range'_succ, scanRow] at hread
  split at hread
  · cases hread
  · next cell m' hcell =>
    obtain ⟨n, hn, rfl, hagain⟩ := scanCell_lead h.height h.whole hxw hcell
    have hin : Inside m.width m.height ⟨x, 1⟩ := by
      rw [h.height]
      exact ⟨⟨hx, hxw⟩, Nat.one_pos, Nat.lt_succ_self 2⟩
    have hm := Page.eroded_eraseRight h.whole hin n
    refine ⟨cell, n, _, hn, hm.width, fun b hb => hagain b y hb.width hb.char, ?_⟩
    refine ⟨hm.height.trans h.height, hm.whole h.whole, ?_, ?_, ?_⟩
    · rw [hm.width, (Page.eroded_eraseRight hw hp n).width]
      exact h.width
    · intro x' hlower hupper
      rw [hm.width] at hupper
      rw [Page.charAt?_eraseRight hw hp (Nat.lt_of_lt_of_le hn h.width),
        Page.charAt?_eraseRight h.whole hin hn, h.char x' (by omega) hupper]
      simp only [true_and]
    · exact ⟨_, r, by rw [hm.width]; exact hread⟩

theorem Leads.congr {m : Page} {x y : Nat} {a b : Page} (h : Leads m x a y)
    (hwidth : b.width = a.width)
    (hchar : ∀ x', x' + 1 < m.width → b.charAt? ⟨x', y⟩ = a.charAt? ⟨x', y⟩) : Leads m x b y := by
  refine ⟨h.height, h.whole, hwidth ▸ h.width, fun x' hlower hupper => ?_, h.read⟩
  rw [hchar x' hupper, h.char x' hlower hupper]

/-! ## Lines of a text -/

/-- Nothing or a return is dropped at the end of a line. -/
theorem exists_dropReturn (l : List Char) :
    ∃ tail, l = dropReturn l ++ tail ∧ ∀ d ∈ tail, d = '\r' := by
  unfold dropReturn
  split
  · next hlast =>
    exact ⟨['\r'], (List.dropLast_append_getLast? '\r' hlast).symm, by simp⟩
  · exact ⟨[], (List.append_nil l).symm, by simp⟩

theorem dropReturn_append {l : List Char} (h : l.getLast? ≠ some '\r') (v : List Char) :
    dropReturn (l ++ v) = l ++ dropReturn v := by
  by_cases hv : v = []
  · subst hv
    rw [List.append_nil, dropReturn, if_neg h]
    exact (List.append_nil l).symm
  · unfold dropReturn
    rw [List.getLast?_append_of_ne_nil _ hv, List.dropLast_append_of_ne_nil hv]
    split <;> rfl

/-- Lines joined by newlines. -/
def joined (ls : List (List Char)) : String := String.ofList (['\n'].intercalate ls)

/-- A line that is not empty is found again between the lines above and those below. -/
theorem lines_joined {above below : List (List Char)} (habove : ∀ k ∈ above, '\n' ∉ k)
    (hbelow : ∀ k ∈ below, '\n' ∉ k) :
    ∃ rest, ∀ l, l ≠ [] → '\n' ∉ l → lines (joined (above ++ l :: below)).toList =
      above.map dropReturn ++ dropReturn l :: rest := by
  refine ⟨(if below.getLast? = some [] then below.dropLast else below).map dropReturn,
    fun l hl hnewline => ?_⟩
  have hpieces :
      Text.pieces '\n' (['\n'].intercalate (above ++ l :: below)) = above ++ l :: below := by
    apply Text.pieces_intercalate (by simp)
    rw [List.forall_mem_append, List.forall_mem_cons]
    exact ⟨habove, hnewline, hbelow⟩
  rw [joined, String.toList_ofList, lines, hpieces]
  cases below with
  | nil => simp [hl]
  | cons k ks =>
    rw [List.getLast?_append_of_ne_nil _ (List.cons_ne_nil l _), List.getLast?_cons_cons,
      List.dropLast_append_of_ne_nil (List.cons_ne_nil l _), List.dropLast_cons_cons]
    split <;> simp

/-! ## On the page -/

/-- A place of the page inside the ring is a place of the lines. -/
theorem charAt?_inside {source : String} {q : Pos}
    (hq : Inside (Page.ofRows (frame source)).width (Page.ofRows (frame source)).height q) :
    (Page.ofRows (frame source)).charAt? q =
      some ((item? (lines source.toList) ⟨q.x - 1, q.y - 1⟩).getD ' ') := by
  obtain ⟨hwidth, hheight⟩ := Page.size_ofRows (rectangle_frame source) (by omega)
  obtain ⟨x, y⟩ := q
  rw [hwidth, hheight] at hq
  obtain ⟨⟨hx, hxw⟩, hy, hyh⟩ := hq
  dsimp only at hx hxw hy hyh ⊢
  have hx' : x - 1 < longest (lines source.toList) := by omega
  have hy' : y - 1 < (lines source.toList).length := by omega
  have hchar := charAt?_frame hx' hy'
  rwa [Nat.sub_add_cancel hx, Nat.sub_add_cancel hy] at hchar

/-- Pages of one size have the same character where their lines have. -/
theorem charAt?_frame_congr {s s' : String}
    (hwidth : (Page.ofRows (frame s')).width = (Page.ofRows (frame s)).width)
    (hheight : (Page.ofRows (frame s')).height = (Page.ofRows (frame s)).height) {q : Pos}
    (hitem : 0 < q.x → 0 < q.y →
      item? (lines s'.toList) ⟨q.x - 1, q.y - 1⟩ = item? (lines s.toList) ⟨q.x - 1, q.y - 1⟩) :
    (Page.ofRows (frame s')).charAt? q = (Page.ofRows (frame s)).charAt? q := by
  by_cases hin : Inside (Page.ofRows (frame s)).width (Page.ofRows (frame s)).height q
  · rw [charAt?_inside hin, charAt?_inside (by rw [hwidth, hheight]; exact hin),
      hitem hin.1.1 hin.2.1]
  · by_cases hon : q.x < (Page.ofRows (frame s)).width ∧ q.y < (Page.ofRows (frame s)).height
    · rw [(ringed_frame s).ring q hon.1 hon.2 hin]
      exact (ringed_frame s').ring q (hwidth ▸ hon.1) (hheight ▸ hon.2)
        (by rw [hwidth, hheight]; exact hin)
    · rw [Page.charAt?, Page.charAt?, hwidth, hheight, if_neg hon, if_neg hon]

/-- The ring is scanned without a change of the page. -/
theorem scanRow_ring {page : Page} {y : Nat} {xs : List Nat}
    (h : ∀ x ∈ xs, page.charAt? ⟨x, y⟩ = some '#') (done : Array Cell) :
    ∃ row, scanRow y xs done page = .ok (row, page) := by
  induction xs generalizing done with
  | nil => exact ⟨done, rfl⟩
  | cons x xs ih =>
    obtain ⟨hx, hxs⟩ := List.forall_mem_cons.mp h
    rw [scanRow, scanCell_border hx]
    exact ih hxs (done.push .border)

/-- The line of a program of one line is read to its end if the program loads. -/
theorem exists_scanRow_of_load {source : String} {l : List Char}
    (hlines : lines source.toList = [l]) {g : Grid} (hload : load source = .ok g) :
    let m := Page.ofRows (frame source)
    ∃ done r, scanRow 1 (List.range' 1 (m.width - 1)) done m = .ok r := by
  intro m
  obtain ⟨hwidth, hheight⟩ := Page.size_ofRows (rectangle_frame source) (by omega)
  rw [hlines] at hwidth hheight
  have hwidth : m.width = longest [l] + 2 := hwidth
  have hheight : m.height = 3 := hheight
  have hring : ∀ p : Pos, p.x < m.width → p.y < m.height → ¬ Inside m.width m.height p →
      m.charAt? p = some '#' := (ringed_frame source).ring
  have htop : ∀ x ∈ List.range m.width, m.charAt? ⟨x, 0⟩ = some '#' := fun x hx =>
    hring ⟨x, 0⟩ (List.mem_range.mp hx) (by dsimp only; omega)
      fun hin => absurd hin.2.1 (Nat.lt_irrefl 0)
  obtain ⟨row, hrow⟩ := scanRow_ring htop #[]
  have hedge : m.charAt? ⟨0, 1⟩ = some '#' :=
    hring ⟨0, 1⟩ (by dsimp only; omega) (by dsimp only; omega)
      fun hin => absurd hin.1.1 (Nat.lt_irrefl 0)
  have hcolumns : List.range m.width = 0 :: List.range' 1 (m.width - 1) := by
    rw [List.range_eq_range', show m.width = m.width - 1 + 1 by omega, List.range'_succ]
    rfl
  cases hscan : scanRow 1 (List.range m.width) #[] m with
  | ok r =>
    rw [hcolumns, scanRow, scanCell_border hedge] at hscan
    exact ⟨_, r, hscan⟩
  | error e =>
    have hrows : scanRows (List.range m.height) #[] m = .error e := by
      rw [hheight]
      show scanRows [0, 1, 2] #[] m = _
      rw [scanRows, hrow]
      dsimp only
      rw [scanRows, hscan]
    unfold load at hload
    dsimp only at hload
    rw [hrows] at hload
    cases hload

/-! ## A line among others -/

theorem item?_line {α : Type} (above below : List (List α)) (l : List α) (x : Nat) :
    item? (above ++ l :: below) ⟨x, above.length⟩ = l[x]? := by
  simp [item?]

theorem item?_elsewhere {α : Type} (above below : List (List α)) (l l' : List α) {p : Pos}
    (hp : p.y ≠ above.length) : item? (above ++ l' :: below) p = item? (above ++ l :: below) p := by
  unfold item?
  by_cases hup : p.y < above.length
  · rw [List.getElem?_append_left hup, List.getElem?_append_left hup]
  · obtain ⟨i, hi⟩ : ∃ i, p.y - above.length = i + 1 := ⟨p.y - above.length - 1, by omega⟩
    rw [List.getElem?_append_right (by omega), List.getElem?_append_right (by omega), hi]
    rfl

theorem charAt?_line {s : String} {above below : List (List Char)} {l : List Char}
    (hlines : lines s.toList = above ++ l :: below) {x : Nat} (hx : x < l.length) :
    (Page.ofRows (frame s)).charAt? ⟨x + 1, above.length + 1⟩ = l[x]? := by
  have hlongest : l.length ≤ longest (lines s.toList) :=
    length_le_longest (by rw [hlines]; simp)
  have hrows : above.length < (lines s.toList).length := by
    rw [hlines]
    simp
  rw [charAt?_frame (by omega) hrows, hlines, item?_line, List.getElem?_eq_getElem hx]
  rfl

/-- A character above the line that is neither blank nor of the ring is one of the lines above. -/
theorem mem_above_of_charAt? {s : String} {above below : List (List Char)} {l : List Char}
    (hlines : lines s.toList = above ++ l :: below) {q : Pos} (hq : q.y < above.length + 1)
    {d : Char}
    (hd : (Page.ofRows (frame s)).charAt? q = some d) (hspace : d ≠ ' ') (hborder : d ≠ '#') :
    ∃ k ∈ above, d ∈ k := by
  have hon : q.x < (Page.ofRows (frame s)).width ∧ q.y < (Page.ofRows (frame s)).height := by
    by_contra hoff
    rw [Page.charAt?, if_neg hoff] at hd
    cases hd
  obtain ⟨hin, -⟩ := original_of_ne (ringed_frame s) (.refl _) hon.1 hon.2 hd hspace hborder
  have hup : q.y - 1 < above.length := by
    have := hin.2.1
    omega
  rw [charAt?_inside hin, hlines, item?, List.getElem?_append_left hup,
    List.getElem?_eq_getElem hup, Option.bind_some] at hd
  refine ⟨above[q.y - 1], List.getElem_mem hup, ?_⟩
  cases hitem : above[q.y - 1][q.x - 1]? with
  | none =>
    rw [hitem] at hd
    exact absurd (Option.some.inj hd).symm hspace
  | some d' =>
    rw [hitem] at hd
    cases hd
    exact List.mem_of_getElem? hitem

/-- What loads alone is complete at the start of a line. -/
theorem leads_of_load {s : String} {above below : List (List Char)} {u more : List Char}
    (hlines : lines s.toList = above ++ (u ++ more) :: below) (hu : '\n' ∉ u) {g : Grid}
    (hload : load (String.ofList u) = .ok g) (hpos : 0 < (dropReturn u).length) :
    ∃ m : Page, m.width = (dropReturn u).length + 2 ∧
      Leads m 1 (Page.ofRows (frame s)) (above.length + 1) := by
  have halone : lines (String.ofList u).toList = [dropReturn u] := by
    have hne : u ≠ [] := by
      rintro rfl
      exact absurd hpos (Nat.lt_irrefl 0)
    rw [String.toList_ofList, lines, Text.pieces_of_not_mem hu]
    simp [hne]
  obtain ⟨tail, htail, -⟩ := exists_dropReturn u
  obtain ⟨hwidth, hheight⟩ := Page.size_ofRows (rectangle_frame (String.ofList u)) (by omega)
  rw [halone] at hwidth hheight
  have hlongest : (u ++ more).length ≤ longest (lines s.toList) :=
    length_le_longest (by rw [hlines]; simp)
  have hlength : (dropReturn u).length ≤ u.length := by
    conv_rhs => rw [htail]
    simp
  refine ⟨Page.ofRows (frame (String.ofList u)), hwidth, hheight, (ringed_frame _).whole, ?_, ?_,
    exists_scanRow_of_load halone hload⟩
  · rw [hwidth, (Page.size_ofRows (rectangle_frame s) (by omega)).1]
    have : longest [dropReturn u] = (dropReturn u).length := rfl
    rw [List.length_append] at hlongest
    omega
  · intro x hlower hupper
    rw [hwidth] at hupper
    have hx : x - 1 < (dropReturn u).length := by
      have : longest [dropReturn u] = (dropReturn u).length := rfl
      omega
    have hline := charAt?_line hlines (x := x - 1) (by rw [List.length_append]; omega)
    have halone : lines (String.ofList u).toList = [] ++ dropReturn u :: [] := halone
    have hfirst := charAt?_line halone hx
    rw [Nat.sub_add_cancel hlower] at hline hfirst
    refine hline.trans (Eq.trans ?_ hfirst.symm)
    rw [List.getElem?_append_left (by omega)]
    conv_lhs => rw [htail]
    rw [List.getElem?_append_left hx]

end Source

end Gridfall
