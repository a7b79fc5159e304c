/-
  Loading is safe. Scanning a page never leaves it, a literal never erases a part of the ring, rows
  that were scanned always form a grid, and an error names the character of the text at its place
  (`load_accounted`).

  `loadChecked?` is the scan with checks: a character is read or erased on the page only, and off
  the page there is no result. It always has the result of `load`. What carries the proof is that
  every page on the way is an eroded form of the first one (`Eroded`): its ring is whole, so an
  opener is never on it, and a character that is not a space stands where it stood in the text.
-/
import Gridfall.Proofs.Source.Literal

namespace Gridfall

namespace Source

/-! ## Scanning with checks -/

/-- Scans a cell with checks. -/
def scanCellChecked? (page : Page) (p : Pos) : Option (Except LoadError (Cell × Page)) :=
  match page.charAt? p with
  | none => none
  | some c =>
    match opener? c with
    | some o => literalChecked? o p page p []
    | none => some ((plainCell c p).map fun cell => (cell, page))

/-- Scans columns with checks. -/
def scanRowChecked? (y : Nat) : (xs : List Nat) → (done : Array Cell) → Page →
    Option (Except LoadError (Array Cell × Page))
  | [], done, page => some (.ok (done, page))
  | x :: xs, done, page =>
    match scanCellChecked? page ⟨x, y⟩ with
    | none => none
    | some (.error e) => some (.error e)
    | some (.ok (cell, page)) => scanRowChecked? y xs (done.push cell) page

/-- Scans rows with checks. -/
def scanRowsChecked? : (ys : List Nat) → (done : Array (List Cell)) → Page →
    Option (Except LoadError (Array (List Cell)))
  | [], done, _ => some (.ok done)
  | y :: ys, done, page =>
    match scanRowChecked? y (List.range page.width) #[] page with
    | none => none
    | some (.error e) => some (.error e)
    | some (.ok (row, page)) => scanRowsChecked? ys (done.push row.toList) page

/-- Loads a program with checks. -/
def loadChecked? (source : String) : Option (Except LoadError Grid) :=
  let page := Page.ofRows (frame source)
  match scanRowsChecked? (List.range page.height) #[] page with
  | none => none
  | some (.error e) => some (.error e)
  | some (.ok rows) => some ((Grid.ofRows rows.toList).mapError .grid)

/-! ## What an error names -/

end Source

/-- The character that an error is about. -/
def LoadError.Names (c : Char) : LoadError → Prop
  | .invalidCharacter c' _ => c' = c
  | .unterminatedLiteral _ => (Source.opener? c).isSome = true
  | .unknownConstant _ _ => c = '/' ∨ c = '\\'
  | .grid _ => False

namespace Source

theorem plainCell_error {c : Char} {p : Pos} {e : LoadError} (h : plainCell c p = .error e) :
    e = .invalidCharacter c p ∧ c ≠ ' ' ∧ c ≠ '#' := by
  unfold plainCell at h
  split at h
  · cases h
  · cases h
  · cases h
  · cases h
  · next hspace hborder _ _ =>
    split at h
    · cases h
    · split at h
      · cases h
      · cases h
        exact ⟨rfl, hspace, hborder⟩

theorem contentCell_error {p : Pos} {content : Content} {e : LoadError}
    (h : contentCell p content = .error e) :
    ∃ name, content = .constant name ∧ e = .unknownConstant name p := by
  cases content with
  | comment | number | text => cases h
  | constant name =>
    simp only [contentCell] at h
    split at h
    · cases h
    · cases h
      exact ⟨name, rfl, rfl⟩

theorem Opener.kind_of_read {o : Opener} {cs : List Char} {name : String} {n : Nat}
    (h : o.read cs = some (.constant name, n)) : o.kind = .constant := by
  obtain ⟨kind, close, downward⟩ := o
  cases kind with
  | constant => rfl
  | comment | number | text =>
    obtain ⟨r, -, heq⟩ := Option.map_eq_some_iff.mp h
    cases heq

theorem char_of_constant {c : Char} {o : Opener} (h : opener? c = some o)
    (hkind : o.kind = .constant) : c = '/' ∨ c = '\\' := by
  unfold opener? at h
  split at h <;> cases h <;> simp_all

theorem opener_ne {c : Char} {o : Opener} (h : opener? c = some o) : c ≠ ' ' ∧ c ≠ '#' := by
  constructor <;> rintro rfl <;> cases h

/-! ## What a scan keeps -/

namespace Page

/-- A page with a character everywhere and a closed ring of `#`. -/
structure Ringed (page : Page) : Prop where
  whole : page.Whole
  ring : ∀ p : Pos, p.x < page.width → p.y < page.height →
    ¬ Inside page.width page.height p → page.charAt? p = some '#'

/-- The error is about a character of the page inside the ring. -/
def Blames (page : Page) (e : LoadError) : Prop :=
  ∃ p c, e.place? = some p ∧ Inside page.width page.height p ∧ page.charAt? p = some c ∧ e.Names c

/-- What comes out of a part of the scan: something good and a page that is eroded at most, or an
    error about the page at the beginning. -/
def Scanned {α : Type} (base : Page) (Good : α → Prop) : Except LoadError (α × Page) → Prop
  | .ok (a, page) => Good a ∧ base.Eroded page
  | .error e => base.Blames e

/-- The cell for a place on the ring is a border. -/
def KeepsRing (base : Page) (y x : Nat) (cell : Cell) : Prop :=
  ¬ Inside base.width base.height ⟨x, y⟩ → cell = .border

theorem eroded_foldl_erase {page : Page} (hw : page.Whole) {path : List Pos}
    (hpath : ∀ q ∈ path, Inside page.width page.height q) :
    page.Eroded (path.foldl Page.erase page) := by
  induction path generalizing page with
  | nil => exact .refl page
  | cons q path ih =>
    obtain ⟨hq, hpath⟩ := List.forall_mem_cons.mp hpath
    have hhead : page.Eroded (page.erase q) := .erase (by rw [hw.inside hq]; rfl) hq
    exact hhead.trans (ih (hhead.whole hw) hpath)

end Page

open Page (Scanned KeepsRing)

section

variable {base page : Page} (hb : base.Ringed) (he : base.Eroded page)
include hb he

/-- A character that is neither a space nor `#` is inside the ring and is that of the text. -/
theorem original_of_ne {p : Pos} (hx : p.x < base.width) (hy : p.y < base.height) {c : Char}
    (hc : page.charAt? p = some c) (hspace : c ≠ ' ') (hborder : c ≠ '#') :
    Inside base.width base.height p ∧ base.charAt? p = some c := by
  refine ⟨?_, he.original hc hspace⟩
  by_contra hout
  rw [he.ring hout, hb.ring p hx hy hout] at hc
  exact hborder (Option.some.inj hc).symm

theorem literalCell_scanned {p : Pos} (hp : Inside base.width base.height p) {c : Char}
    (hc : base.charAt? p = some c) {o : Opener} (ho : opener? c = some o) :
    Scanned base (KeepsRing base p.y p.x) (literalCell page p o) := by
  have hwhole := he.whole hb.whole
  have hin : Inside page.width page.height p := by
    rw [he.width, he.height]
    exact hp
  rw [literalCell_eq, literalRest]
  split
  · refine ⟨p, c, rfl, hp, hc, ?_⟩
    show (opener? c).isSome = true
    rw [ho]
    rfl
  · next content n hread =>
    cases hcell : contentCell p content with
    | ok cell =>
      refine ⟨fun hout => absurd hp hout, he.trans (Page.eroded_foldl_erase hwhole fun q hq => ?_)⟩
      exact Page.inside_of_mem_ahead hin (List.mem_of_mem_take hq)
    | error e =>
      obtain ⟨name, rfl, rfl⟩ := contentCell_error hcell
      exact ⟨p, c, rfl, hp, hc, char_of_constant ho (Opener.kind_of_read hread)⟩

theorem scanCell_scanned {p : Pos} (hx : p.x < base.width) (hy : p.y < base.height) :
    Scanned base (KeepsRing base p.y p.x) (scanCell page p) := by
  have hc := (he.whole hb.whole).charAt? (he.width ▸ hx) (he.height ▸ hy)
  unfold scanCell
  split
  · next o ho =>
    obtain ⟨hspace, hborder⟩ := opener_ne ho
    obtain ⟨hp, horiginal⟩ := original_of_ne hb he hx hy hc hspace hborder
    exact literalCell_scanned hb he hp horiginal ho
  · cases hcell : plainCell (page.charAt p) p with
    | ok cell =>
      refine ⟨fun hout => ?_, he⟩
      rw [he.ring hout, hb.ring p hx hy hout] at hc
      rw [← Option.some.inj hc] at hcell
      exact (Except.ok.inj hcell).symm
    | error e =>
      obtain ⟨rfl, hspace, hborder⟩ := plainCell_error hcell
      obtain ⟨hp, horiginal⟩ := original_of_ne hb he hx hy hc hspace hborder
      exact ⟨p, page.charAt p, rfl, hp, horiginal, rfl⟩

theorem scanCellChecked?_eq {p : Pos} (hx : p.x < base.width) (hy : p.y < base.height) :
    scanCellChecked? page p = some (scanCell page p) := by
  have hwhole := he.whole hb.whole
  have hc := hwhole.charAt? (he.width ▸ hx) (he.height ▸ hy)
  unfold scanCellChecked? scanCell
  rw [hc]
  dsimp only
  cases ho : opener? (page.charAt p) with
  | some o =>
    obtain ⟨hspace, hborder⟩ := opener_ne ho
    obtain ⟨hp, -⟩ := original_of_ne hb he hx hy hc hspace hborder
    rw [← he.width, ← he.height] at hp
    exact literalChecked?_eq o p hwhole hp o.read_nil
  | none => rfl

/-- The cells of a row are as many as its columns, with borders on the ring. -/
theorem scanRow_scanned {y : Nat} (hy : y < base.height) {xs : List Nat}
    (hxs : ∀ x ∈ xs, x < base.width) (done : Array Cell) :
    scanRowChecked? y xs done page = some (scanRow y xs done page) ∧
      Scanned base (fun row => ∃ cells, row.toList = done.toList ++ cells ∧
        List.Forall₂ (KeepsRing base y) xs cells) (scanRow y xs done page) := by
  induction xs generalizing done page with
  | nil => exact ⟨rfl, ⟨[], (List.append_nil _).symm, .nil⟩, he⟩
  | cons x xs ih =>
    obtain ⟨hx, hxs⟩ := List.forall_mem_cons.mp hxs
    have hchecked := scanCellChecked?_eq hb he (p := ⟨x, y⟩) hx hy
    have hscanned := scanCell_scanned hb he (p := ⟨x, y⟩) hx hy
    unfold scanRowChecked? scanRow
    rw [hchecked]
    rcases hcell : scanCell page ⟨x, y⟩ with e | ⟨cell, next⟩
    · rw [hcell] at hscanned
      exact ⟨rfl, hscanned⟩
    · rw [hcell] at hscanned
      obtain ⟨hring, hnext⟩ := hscanned
      obtain ⟨hrest, hrow⟩ := ih hnext hxs (done.push cell)
      refine ⟨hrest, ?_⟩
      dsimp only
      rcases hresult : scanRow y xs (done.push cell) next with e | ⟨row, last⟩
      · rw [hresult] at hrow
        exact hrow
      · rw [hresult] at hrow
        obtain ⟨⟨cells, hlist, hcells⟩, hlast⟩ := hrow
        rw [Array.toList_push, List.append_assoc, List.singleton_append] at hlist
        exact ⟨⟨cell :: cells, hlist, .cons hring hcells⟩, hlast⟩

/-- The rows that a scan leaves, or the error that it stops at. -/
theorem scanRows_scanned {ys : List Nat} (hys : ∀ y ∈ ys, y < base.height)
    (done : Array (List Cell)) :
    scanRowsChecked? ys done page = some (scanRows ys done page) ∧
      match scanRows ys done page with
      | .error e => base.Blames e
      | .ok rows => ∃ scanned, rows.toList = done.toList ++ scanned ∧
          List.Forall₂ (fun y => List.Forall₂ (KeepsRing base y) (List.range base.width)) ys
            scanned := by
  induction ys generalizing done page with
  | nil => exact ⟨rfl, [], (List.append_nil _).symm, .nil⟩
  | cons y ys ih =>
    obtain ⟨hy, hys⟩ := List.forall_mem_cons.mp hys
    obtain ⟨hchecked, hscanned⟩ := scanRow_scanned hb he hy
      (fun x hx => List.mem_range.mp hx) #[]
    unfold scanRowsChecked? scanRows
    rw [he.width, hchecked]
    rcases hrow : scanRow y (List.range base.width) #[] page with e | ⟨row, next⟩
    · rw [hrow] at hscanned
      exact ⟨rfl, hscanned⟩
    · rw [hrow] at hscanned
      obtain ⟨⟨cells, hlist, hcells⟩, hnext⟩ := hscanned
      obtain ⟨hrest, hrows⟩ := ih hnext hys (done.push row.toList)
      refine ⟨hrest, ?_⟩
      dsimp only
      rcases hresult : scanRows ys (done.push row.toList) next with e | rows
      · rw [hresult] at hrows
        exact hrows
      · rw [hresult] at hrows
        obtain ⟨scanned, heq, hscanned⟩ := hrows
        rw [Array.toList_push, List.append_assoc, List.singleton_append] at heq
        have hrow : row.toList = cells := hlist
        exact ⟨row.toList :: scanned, heq, .cons (hrow ▸ hcells) hscanned⟩

end

/-! ## Loading -/

theorem forall₂_range {α : Type} {R : Nat → α → Prop} {n : Nat} {l : List α}
    (h : List.Forall₂ R (List.range n) l) :
    l.length = n ∧ ∀ i a, l[i]? = some a → R i a := by
  obtain ⟨hlength, hall⟩ := List.forall₂_iff_get.mp h
  rw [List.length_range] at hlength
  refine ⟨hlength.symm, fun i a ha => ?_⟩
  obtain ⟨hi, rfl⟩ := List.getElem?_eq_some_iff.mp ha
  have hrange : i < (List.range n).length := by
    rw [List.length_range]
    omega
  simpa using hall i hrange hi

/-- Scanned rows are a rectangle of the size of the page. -/
theorem rectangle_scanned {base : Page} {rows : List (List Cell)}
    (h : List.Forall₂ (fun y => List.Forall₂ (KeepsRing base y) (List.range base.width))
      (List.range base.height) rows) : Rectangle base.width base.height rows := by
  obtain ⟨hheight, hrows⟩ := forall₂_range h
  refine ⟨fun row hrow => ?_, hheight⟩
  obtain ⟨y, hy⟩ := List.mem_iff_getElem?.mp hrow
  exact (forall₂_range (hrows y row hy)).1

/-- The outermost cells of scanned rows are borders. -/
theorem ring_scanned {base : Page} {rows : List (List Cell)}
    (h : List.Forall₂ (fun y => List.Forall₂ (KeepsRing base y) (List.range base.width))
      (List.range base.height) rows) {p : Pos} (hx : p.x < base.width) (hy : p.y < base.height)
    (hout : ¬ Inside base.width base.height p) : item? rows p = some .border := by
  obtain ⟨cell, hcell⟩ :=
    Option.isSome_iff_exists.mp ((rectangle_scanned h).item?_isSome hx hy)
  obtain ⟨row, hrow, hcolumn⟩ := Option.bind_eq_some_iff.mp hcell
  have hring := (forall₂_range ((forall₂_range h).2 p.y row hrow)).2 p.x cell hcolumn
  rw [hcell, hring hout]

theorem ringed_frame (source : String) : (Page.ofRows (frame source)).Ringed := by
  have hframe := rectangle_frame source
  obtain ⟨hwidth, hheight⟩ := Page.size_ofRows hframe (by omega)
  constructor
  · intro p hx hy
    rw [hwidth] at hx
    rw [hheight] at hy
    rw [Page.charAt?_ofRows hframe (by omega) hx hy]
    exact hframe.item?_isSome hx hy
  · intro p hx hy hout
    rw [hwidth] at hx hout
    rw [hheight] at hy hout
    rw [Page.charAt?_ofRows hframe (by omega) hx hy]
    exact Grid.ring_framed '#' ' ' (lines source.toList) hx hy hout

/-- A grid with a closed ring around the lines, or an error about a character of the framed text
    that is inside the ring. -/
def Accounted (source : String) : Except LoadError Grid → Prop
  | .ok g => g.Framed ∧ g.width = longest (lines source.toList) + 2 ∧
      g.height = (lines source.toList).length + 2
  | .error e => ∃ p c, e.place? = some p ∧
      Inside (longest (lines source.toList) + 2) ((lines source.toList).length + 2) p ∧
      item? (frame source) p = some c ∧ e.Names c

theorem accounted_of_blames {source : String} {e : LoadError}
    (h : (Page.ofRows (frame source)).Blames e) : Accounted source (.error e) := by
  have hframe := rectangle_frame source
  obtain ⟨hwidth, hheight⟩ := Page.size_ofRows hframe (by omega)
  obtain ⟨p, c, hplace, hp, hc, hnames⟩ := h
  rw [hwidth, hheight] at hp
  have hx := hp.1.2
  have hy := hp.2.2
  rw [Page.charAt?_ofRows hframe (by omega) (by omega) (by omega)] at hc
  exact ⟨p, c, hplace, hp, hc, hnames⟩

/-- Loading never leaves the page, and what it gives is a grid of the size of the framed text with a
    closed ring, or an error that names the character of the framed text at its place. -/
theorem load_accounted (source : String) :
    Rectangle (longest (lines source.toList) + 2) ((lines source.toList).length + 2)
        (frame source) ∧
      loadChecked? source = some (load source) ∧ Accounted source (load source) := by
  have hframe := rectangle_frame source
  obtain ⟨hwidth, hheight⟩ := Page.size_ofRows hframe (by omega)
  obtain ⟨hchecked, hscanned⟩ := scanRows_scanned (ringed_frame source) (.refl _)
    (fun y hy => List.mem_range.mp hy) #[]
  unfold loadChecked? load
  dsimp only
  rw [hchecked]
  rcases hrows : scanRows (List.range (Page.ofRows (frame source)).height) #[]
    (Page.ofRows (frame source)) with e | rows
  · rw [hrows] at hscanned
    exact ⟨hframe, rfl, accounted_of_blames hscanned⟩
  · rw [hrows] at hscanned
    obtain ⟨scanned, hlist, hcells⟩ := hscanned
    have hlist : rows.toList = scanned := hlist
    have hgrid := rectangle_scanned hcells
    have hclosed := hgrid.framed_grid fun p hx hy hout => ring_scanned hcells hx hy hout
    have hok := hgrid.ofRows_eq (by omega) (by omega) hclosed
    refine ⟨hframe, rfl, ?_⟩
    dsimp only
    rw [hlist, hok]
    exact ⟨hclosed, hwidth, hheight⟩

end Source

end Gridfall
