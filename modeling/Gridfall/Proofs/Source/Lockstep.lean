/-
  Two loads side by side. A `Lockstep` relates the pages that two scans find at each place. If one
  scanned cell keeps the relation, and both scans leave the same cell or stop with the same error,
  then the two programs load alike: to the same grid or with the same error (`Lockstep.load_eq`).

  A place is scanned alike on two pages if they have the same character there and, for an opener,
  the same characters on the way ahead (`scanCell_alike`).
-/
import Gridfall.Proofs.Source.Course

namespace Gridfall

namespace Source

/-- Two parts of a scan end with the same result and related pages, or with the same error. -/
inductive SameResult {α : Type} (R : Page → Page → Prop) :
    Except LoadError (α × Page) → Except LoadError (α × Page) → Prop
  | ok (result : α) {a b : Page} (h : R a b) : SameResult R (.ok (result, a)) (.ok (result, b))
  | error (e : LoadError) : SameResult R (.error e) (.error e)

theorem SameResult.mono {α : Type} {R S : Page → Page → Prop} (hRS : ∀ a b, R a b → S a b)
    {r s : Except LoadError (α × Page)} (h : SameResult R r s) : SameResult S r s := by
  cases h with
  | ok result h => exact .ok result (hRS _ _ h)
  | error e => exact .error e

/-- A relation of the pages that two scans find at each place. From the end of a row the scans go to
    the next one. -/
structure Lockstep (base base' : Page) (R : Pos → Page → Page → Prop) : Prop where
  width : base'.width = base.width
  height : base'.height = base.height
  start : R ⟨0, 0⟩ base base'
  turn : ∀ y a b, R ⟨base.width, y⟩ a b → R ⟨0, y + 1⟩ a b
  step : ∀ p : Pos, p.x < base.width → p.y < base.height → ∀ a b, base.Eroded a → base'.Eroded b →
    R p a b → SameResult (R ⟨p.x + 1, p.y⟩) (scanCell a p) (scanCell b p)

namespace Lockstep

variable {base base' : Page} {R : Pos → Page → Page → Prop} (h : Lockstep base base' R)
  (hbase : base.Ringed) (hbase' : base'.Ringed)
include h hbase hbase'

theorem scanRow_sameResult {y : Nat} (hy : y < base.height) (n x : Nat) (hx : x + n ≤ base.width)
    (done : Array Cell) {a b : Page} (ha : base.Eroded a) (hb : base'.Eroded b)
    (hR : R ⟨x, y⟩ a b) :
    SameResult (fun a' b' => (base.Eroded a' ∧ base'.Eroded b') ∧ R ⟨x + n, y⟩ a' b')
      (scanRow y (List.range' x n) done a) (scanRow y (List.range' x n) done b) := by
  induction n generalizing x done a b with
  | zero => exact .ok done ⟨⟨ha, hb⟩, hR⟩
  | succ n ih =>
    have hx' : x < base.width := by omega
    have hscan := scanCell_scanned hbase ha (p := ⟨x, y⟩) hx' hy
    have hscan' := scanCell_scanned hbase' hb (p := ⟨x, y⟩) (h.width ▸ hx') (h.height ▸ hy)
    have hsame := h.step ⟨x, y⟩ hx' hy a b ha hb hR
    rw [List.range'_succ]
    unfold scanRow
    generalize scanCell a ⟨x, y⟩ = r at hscan hsame
    generalize scanCell b ⟨x, y⟩ = s at hscan' hsame
    cases hsame with
    | error e => exact .error e
    | ok cell hnext =>
      have hrest := ih (x + 1) (by omega) (done.push cell) hscan.2 hscan'.2 hnext
      rwa [Nat.add_assoc, Nat.add_comm 1 n] at hrest

theorem scanRows_eq (n y : Nat) (hy : y + n ≤ base.height) (done : Array (List Cell)) {a b : Page}
    (ha : base.Eroded a) (hb : base'.Eroded b) (hR : R ⟨0, y⟩ a b) :
    scanRows (List.range' y n) done a = scanRows (List.range' y n) done b := by
  induction n generalizing y done a b with
  | zero => rfl
  | succ n ih =>
    have hrow := h.scanRow_sameResult hbase hbase' (by omega : y < base.height) base.width 0
      (by omega) #[] ha hb hR
    rw [List.range'_succ]
    unfold scanRows
    rw [ha.width, hb.width, h.width, List.range_eq_range']
    generalize scanRow y (List.range' 0 base.width) #[] a = r at hrow
    generalize scanRow y (List.range' 0 base.width) #[] b = s at hrow
    cases hrow with
    | error e => rfl
    | ok row hnext =>
      obtain ⟨⟨ha, hb⟩, hnext⟩ := hnext
      rw [Nat.zero_add] at hnext
      exact ih (y + 1) (by omega) (done.push row.toList) ha hb (h.turn y _ _ hnext)

end Lockstep

/-- Programs whose pages are scanned in lockstep load alike. -/
theorem Lockstep.load_eq {source source' : String} {R : Pos → Page → Page → Prop}
    (h : Lockstep (Page.ofRows (frame source)) (Page.ofRows (frame source')) R) :
    load source = load source' := by
  have hrows := h.scanRows_eq (ringed_frame source) (ringed_frame source')
    (Page.ofRows (frame source)).height 0 (by omega) #[] (.refl _) (.refl _) h.start
  unfold load
  dsimp only
  rw [h.height, List.range_eq_range', hrows]

/-! ## One cell -/

namespace Page

theorem charAt_congr {a b : Page} (hwidth : b.width = a.width) (hheight : b.height = a.height)
    {q : Pos} (hx : q.x < a.width) (hy : q.y < a.height) (h : b.charAt? q = a.charAt? q) :
    b.charAt q = a.charAt q := by
  unfold charAt? at h
  rw [hwidth, hheight, if_pos ⟨hx, hy⟩, if_pos ⟨hx, hy⟩] at h
  rw [charAt, charAt, hwidth, h]

/-- The places of `path` are erased, and nothing else changes. -/
structure Erased (path : List Pos) (a a' : Page) : Prop where
  width : a'.width = a.width
  char : ∀ q, a'.charAt? q = if q ∈ path then some ' ' else a.charAt? q

theorem erased_foldl {a : Page} (hw : a.Whole) {path : List Pos}
    (hpath : ∀ q ∈ path, Inside a.width a.height q) :
    a.Erased path (path.foldl Page.erase a) :=
  ⟨(eroded_foldl_erase hw hpath).width, charAt?_foldl_erase hw hpath⟩

end Page

section

variable {base base' a b : Page} (hbase : base.Ringed) (ha : base.Eroded a) {p : Pos}
  (hx : p.x < base.width) (hy : p.y < base.height)
include hbase ha hx hy

/-- An opener is inside the ring and is that of the text. -/
theorem original_of_opener {o : Opener} (ho : opener? (a.charAt p) = some o) :
    Inside base.width base.height p ∧ base.charAt? p = some (a.charAt p) := by
  obtain ⟨hspace, hborder⟩ := opener_ne ho
  have hc := (ha.whole hbase.whole).charAt? (ha.width ▸ hx) (ha.height ▸ hy)
  exact original_of_ne hbase ha hx hy hc hspace hborder

/-- A place with the same character on both pages is scanned alike if, for an opener, also the
    characters ahead are the same: the same cell is left, and the same places ahead are erased. -/
theorem scanCell_alike (hbase' : base'.Ringed) (hb : base'.Eroded b)
    (hwidth : base'.width = base.width) (hheight : base'.height = base.height)
    (hchar : b.charAt? p = a.charAt? p)
    (hahead : ∀ o, opener? (a.charAt p) = some o →
      ∀ q ∈ a.ahead o.downward p, b.charAt? q = a.charAt? q) :
    SameResult (fun a' b' => ∃ path : List Pos,
        (∀ q ∈ path, ∃ o, opener? (a.charAt p) = some o ∧ q ∈ a.ahead o.downward p) ∧
        a.Erased path a' ∧ b.Erased path b')
      (scanCell a p) (scanCell b p) := by
  have hw : b.width = a.width := by rw [hb.width, hwidth, ha.width]
  have hh : b.height = a.height := by rw [hb.height, hheight, ha.height]
  have hreads := Page.charAt_congr hw hh (ha.width ▸ hx) (ha.height ▸ hy) hchar
  have hwhole := ha.whole hbase.whole
  have hwhole' := hb.whole hbase'.whole
  unfold scanCell
  rw [hreads]
  cases ho : opener? (a.charAt p) with
  | none =>
    dsimp only
    cases plainCell (a.charAt p) p with
    | error e => exact .error e
    | ok cell =>
      exact .ok cell ⟨[], by simp, Page.erased_foldl hwhole (by simp),
        Page.erased_foldl hwhole' (by simp)⟩
  | some o =>
    obtain ⟨hp, -⟩ := original_of_opener hbase ha hx hy ho
    rw [← ha.width, ← ha.height] at hp
    have hinside : ∀ q ∈ a.ahead o.downward p, Inside a.width a.height q :=
      fun q hq => Page.inside_of_mem_ahead hp hq
    have hway : b.ahead o.downward p = a.ahead o.downward p := by
      unfold Page.ahead Page.below Page.rightOf
      rw [hw, hh]
    have hread : (a.ahead o.downward p).map b.charAt = (a.ahead o.downward p).map a.charAt := by
      refine List.map_congr_left fun q hq => ?_
      obtain ⟨⟨-, hqx⟩, -, hqy⟩ := hinside q hq
      exact Page.charAt_congr hw hh (by omega) (by omega) (hahead o ho q hq)
    dsimp only
    rw [literalCell_eq, literalCell_eq, literalRest, literalRest, hway, List.nil_append,
      List.nil_append, hread]
    cases o.read ((a.ahead o.downward p).map a.charAt) with
    | none => exact .error _
    | some r =>
      obtain ⟨content, taken⟩ := r
      dsimp only
      cases contentCell p content with
      | error e => exact .error e
      | ok cell =>
        have htaken : ∀ q ∈ (a.ahead o.downward p).take taken, Inside a.width a.height q :=
          fun q hq => hinside q (List.mem_of_mem_take hq)
        refine .ok cell ⟨(a.ahead o.downward p).take taken, fun q hq => ?_,
          Page.erased_foldl hwhole htaken, Page.erased_foldl hwhole' ?_⟩
        · exact ⟨o, rfl, List.mem_of_mem_take hq⟩
        · rw [hw, hh]
          exact htaken

end

end Source

end Gridfall
