/-
  Phase after phase without production in between. A phase moves nothing if and only if every value
  has something below it and something on its drift side (`Quiet`), and then no later phase moves
  anything either.

  A value only goes down and to its drift side. `progress` adds up how far all values have come; a
  phase raises it by its number of moves, and no value can come further than the height and the
  width of the grid together. So all phases together make no more moves than that, and one of them
  makes none.
-/
import Gridfall.Proofs.Tick.Travel
import Mathlib.Algebra.Order.BigOperators.Group.Finset

namespace Gridfall

open Relation (ReflTransGen)

/-- The number of moves of a phase. -/
def Settlement.moves : Settlement → Nat
  | .noData => 0
  | .settled moves => moves

namespace Grid

/-- The grid after `k` phases. -/
def phases (g : Grid) (k : Nat) : Grid := (fun g => (settle g).1)^[k] g

theorem phases_succ (g : Grid) (k : Nat) : g.phases (k + 1) = (settle (g.phases k)).1 :=
  Function.iterate_succ_apply' _ k g

/-- Every value has something below it and something on its drift side. -/
def Quiet (g : Grid) : Prop :=
  ∀ p d, g.get? p = some (.data d) → g.Blocked p .down ∧ g.Blocked p d.drift.dir

theorem card_occupied (g : Grid) : g.occupied.card = g.cells.countP Cell.isData := by
  have hdata : ∀ p ∈ g.positions, ((g.datum? p).isSome = true ↔ (g.cellAt p).isData = true) := by
    intro p hp
    unfold datum? Cell.isData
    rw [get?_of_contains (mem_positions.mp hp)]
    rfl
  unfold occupied
  rw [g.nodup_positions.card_eq_countP, ← Array.countP_toList, toList_cells,
    List.countP_map]
  refine List.countP_congr fun p hp => ?_
  simpa using hdata p hp

/-! ## Phases without a move -/

/-- If no value has moved, the grid is the same. -/
theorem Settled.eq_of_still {g g' : Grid} {dest : Pos → Pos} (h : g.Settled g' 0 dest) :
    g' = g ∧ ∀ p ∈ g.occupied, dest p = p := by
  have hstay : ∀ p ∈ g.occupied, dest p = p := by
    have hnone := Finset.card_eq_zero.mp h.moves.symm
    intro p hp
    by_contra hne
    have hmem : p ∈ g.occupied.filter fun p => dest p ≠ p := Finset.mem_filter.mpr ⟨hp, hne⟩
    rw [hnone] at hmem
    exact absurd hmem (Finset.notMem_empty p)
  refine ⟨ext_get? h.frame.width h.frame.height fun p => ?_, hstay⟩
  by_cases hp : g.contains p = true
  · have hcell := get?_of_contains hp
    cases hc : g.cellAt p with
    | border | operator | pipe =>
      rw [hc] at hcell
      rw [hcell]
      exact h.frame.fixed p _ hcell rfl
    | data d =>
      rw [hc] at hcell
      have hd := h.cell p d hcell
      rw [hstay p (mem_occupied.mpr ⟨d, hcell⟩)] at hd
      rw [hd, hcell]
    | empty =>
      rw [hc] at hcell
      rw [hcell]
      rcases h.frame.loose p _ hcell rfl with hempty | ⟨d, hd⟩
      · exact hempty
      · -- A value at `p` would have come from `p`.
        obtain ⟨q, hq, hdest⟩ := h.bijective.surjOn (mem_occupied.mpr ⟨d, hd⟩)
        rw [hstay q hq] at hdest
        obtain ⟨e, he⟩ := mem_occupied.mp hq
        rw [hdest, hcell] at he
        cases he
  · rw [get?_eq_none hp, get?_eq_none fun h' => hp ((h.frame.contains p).symm.trans h')]

theorem Settled.quiet_of_still {g g' : Grid} {dest : Pos → Pos} (h : g.Settled g' 0 dest) :
    g.Quiet := by
  obtain ⟨heq, hstay⟩ := h.eq_of_still
  intro p d hd
  have hrests := h.rests p d hd (hstay p (mem_occupied.mpr ⟨d, hd⟩))
  rw [heq] at hrests
  exact hrests

end Grid

/-- On a quiet grid there is no change but turns and values that come to rest. -/
theorem Fall.still_of_quiet {g : Grid} (hf : g.Framed) (hq : g.Quiet) {f : Fall}
    (h : ReflTransGen Orderly (start g) f) : f.grid = g ∧ f.moves = 0 := by
  induction h with
  | refl => exact ⟨rfl, rfl⟩
  | @tail f f' hpath ho ih =>
    obtain ⟨hgrid, hmoves⟩ := ih
    obtain ⟨dest, htraced⟩ := exists_traced hf hpath
    cases ho.step with
    | off | turn | stop | meet => exact ⟨hgrid, hmoves⟩
    | @move p target heading hp hs ht hv =>
      obtain rfl := Grid.beside_of_step? hp ht
      obtain ⟨d, hd, -, hcase⟩ := htraced.moving hp hs
      obtain ⟨hbelow, hside⟩ := hq p d hd
      have hblocked : g.Blocked p heading := by
        rcases hcase with ⟨rfl, -⟩ | ⟨rfl, -⟩
        · exact hbelow
        · exact hside
      obtain ⟨c, hc, hne⟩ := hblocked
      have hempty := (htraced.live.tied.vacant _ (Grid.contains_beside hp heading)).mp hv
      rw [hgrid, hc] at hempty
      exact absurd (Option.some.inj hempty) hne

theorem settle_of_quiet {g : Grid} (hf : g.Framed) (hd : g.hasData = true) (hq : g.Quiet) :
    settle g = (g, .settled 0) := by
  obtain ⟨f, dest, heq, hpath, -, -⟩ := settle_traced hf hd
  obtain ⟨hgrid, hmoves⟩ := Fall.still_of_quiet hf hq hpath
  rw [heq, hgrid, hmoves]

/-! ## How far the values have come -/

namespace Grid

/-- How far a place lies on the way of a value with a drift. -/
def distance (g : Grid) (p : Pos) : Drift → Nat
  | .right => p.y + p.x
  | .left => p.y + (g.width - p.x)

/-- The distance of the value at a place. -/
def distanceAt (g : Grid) (p : Pos) : Nat :=
  ((g.datum? p).map fun d => g.distance p d.drift).getD 0

/-- The distances of all values together. -/
def progress (g : Grid) : Nat := ∑ p ∈ g.occupied, g.distanceAt p

theorem distanceAt_of_get? {g : Grid} {p : Pos} {d : Datum} (h : g.get? p = some (.data d)) :
    g.distanceAt p = g.distance p d.drift := by
  unfold distanceAt
  rw [datum?_eq_some_iff.mpr h]
  rfl

theorem distance_below (g : Grid) (p : Pos) (drift : Drift) :
    g.distance (p.beside .down) drift = g.distance p drift + 1 := by
  cases drift <;> simp only [distance, Pos.beside, Pos.around] <;> omega

theorem distance_beside {g : Grid} {p : Pos} (hp : p ∈ g.interior) (drift : Drift) :
    g.distance (p.beside drift.dir) drift = g.distance p drift + 1 := by
  have hin := mem_interior_iff.mp hp
  cases drift <;> simp only [distance, Drift.dir, Pos.beside, Pos.around] <;> omega

/-- A value that moves comes one place further. -/
theorem Settled.distanceAt_dest {g g' : Grid} {moves : Nat} {dest : Pos → Pos} (hf : g.Framed)
    (h : g.Settled g' moves dest) {p : Pos} (hp : p ∈ g.occupied) :
    g'.distanceAt (dest p) = g.distanceAt p + if dest p ≠ p then 1 else 0 := by
  obtain ⟨d, hd⟩ := mem_occupied.mp hp
  have hin := interior_of_occupied hf hp
  have hwidth : g'.distance (dest p) d.drift = g.distance (dest p) d.drift := by
    cases d.drift <;> simp only [distance, h.frame.width]
  rw [distanceAt_of_get? (h.cell p d hd), distanceAt_of_get? hd, hwidth]
  rcases h.near p d hd with hdest | hdest | hdest
  · rw [hdest, if_neg (by simp)]
    rfl
  · rw [hdest, if_pos (beside_ne hin .down), distance_below]
  · rw [hdest, if_pos (beside_ne hin _), distance_beside hin]

theorem Settled.progress {g g' : Grid} {moves : Nat} {dest : Pos → Pos} (hf : g.Framed)
    (h : g.Settled g' moves dest) : g'.progress = g.progress + moves := by
  calc g'.progress = ∑ p ∈ g.occupied, g'.distanceAt (dest p) :=
        (Finset.sum_nbij dest h.bijective.mapsTo h.bijective.injOn h.bijective.surjOn
          fun _ _ => rfl).symm
    _ = ∑ p ∈ g.occupied, (g.distanceAt p + if dest p ≠ p then 1 else 0) :=
        Finset.sum_congr rfl fun p hp => h.distanceAt_dest hf hp
    _ = g.progress + moves := by
        rw [Finset.sum_add_distrib, h.moves, Finset.card_filter]
        rfl

theorem progress_le (g : Grid) : g.progress ≤ g.occupied.card * (g.width + g.height) := by
  have hle : ∀ p ∈ g.occupied, g.distanceAt p ≤ g.width + g.height := by
    intro p hp
    obtain ⟨d, hd⟩ := mem_occupied.mp hp
    have hin := contains_iff.mp (contains_of_get? hd)
    rw [distanceAt_of_get? hd]
    cases d.drift <;> simp only [distance] <;> omega
  calc g.progress ≤ ∑ p ∈ g.occupied, (g.width + g.height) := Finset.sum_le_sum hle
    _ = g.occupied.card * (g.width + g.height) := Finset.sum_const_nat fun _ _ => rfl

/-! ## Phase after phase -/

/-- What some phases with `total` moves together leave of `g`. -/
structure Descends (g : Grid) (total : Nat) (g' : Grid) : Prop where
  frame : g.Frame g'
  count : g'.occupied.card = g.occupied.card
  progress : g'.progress = g.progress + total

theorem Descends.le {g g' : Grid} {total : Nat} (h : g.Descends total g') :
    total ≤ g.occupied.card * (g.width + g.height) := by
  have hle := g'.progress_le
  rw [h.count, h.frame.width, h.frame.height, h.progress] at hle
  omega

theorem hasData_iff_card (g : Grid) : g.hasData = true ↔ 1 ≤ g.occupied.card := by
  rw [hasData_iff, card_occupied]

/-- One phase more. -/
theorem Descends.settle {g g' : Grid} {total : Nat} (hf : g.Framed) (hd : g.hasData = true)
    (h : g.Descends total g') :
    ∃ moves, (settle g').2 = .settled moves ∧ g.Descends (total + moves) (settle g').1 := by
  have hf' : g'.Framed := h.frame.framed hf
  have hd' : g'.hasData = true := by
    rw [hasData_iff_card, h.count, ← hasData_iff_card]
    exact hd
  obtain ⟨f, dest, heq, -, htraced, hrest⟩ := settle_traced hf' hd'
  have hsettled := htraced.settled hrest
  have hcount : f.grid.occupied.card = g'.occupied.card :=
    (Finset.card_nbij dest hsettled.bijective.mapsTo hsettled.bijective.injOn
      hsettled.bijective.surjOn).symm
  have hprogress := hsettled.progress hf'
  rw [heq]
  refine ⟨f.moves, rfl, h.frame.trans hsettled.frame, hcount.trans h.count, ?_⟩
  rw [hprogress, h.progress]
  omega

theorem descends_phases {g : Grid} (hf : g.Framed) (hd : g.hasData = true) (k : Nat) :
    g.Descends (∑ i ∈ Finset.range k, (settle (g.phases i)).2.moves) (g.phases k) := by
  induction k with
  | zero => exact ⟨.refl g, rfl, by simp [phases]⟩
  | succ k ih =>
    obtain ⟨moves, hmoves, hnext⟩ := ih.settle hf hd
    rw [Finset.sum_range_succ, phases_succ, hmoves]
    exact hnext

/-- Among enough phases there is one without a move. -/
theorem exists_still_phase {g : Grid} (hf : g.Framed) (hd : g.hasData = true) :
    ∃ k ≤ g.occupied.card * (g.width + g.height), (settle (g.phases k)).2 = .settled 0 := by
  by_contra hnone
  -- Otherwise each of one phase too many makes a move.
  have hmove : ∀ i ∈ Finset.range (g.occupied.card * (g.width + g.height) + 1),
      1 ≤ (settle (g.phases i)).2.moves := by
    intro i hi
    obtain ⟨moves, hmoves, -⟩ := (descends_phases hf hd i).settle hf hd
    rw [hmoves]
    by_contra hzero
    obtain rfl : moves = 0 := Nat.lt_one_iff.mp (Nat.not_le.mp hzero)
    exact hnone ⟨i, Nat.lt_succ_iff.mp (Finset.mem_range.mp hi), hmoves⟩
  have hmany := Finset.sum_le_sum hmove
  rw [Finset.sum_const_nat fun _ _ => rfl, Finset.card_range] at hmany
  have hfew := (descends_phases hf hd (g.occupied.card * (g.width + g.height) + 1)).le
  omega

theorem phases_of_quiet {g : Grid} (hf : g.Framed) (hd : g.hasData = true) (hq : g.Quiet)
    (k : Nat) : g.phases k = g := by
  induction k with
  | zero => rfl
  | succ k ih => rw [phases_succ, ih, settle_of_quiet hf hd hq]

end Grid

/-- A phase makes no move exactly on a quiet grid, which it leaves as it is, and so do all phases
    after it. For `n` values any number of phases makes at most `n * (width + height)` moves
    together, so that a phase without a move comes. -/
theorem settle_becomes_quiet {g : Grid} (hf : g.Framed) {n : Nat}
    (hn : g.cells.countP Cell.isData = n) (hpos : 1 ≤ n) :
    ((settle g).2 = .settled 0 ↔ g.Quiet) ∧
    (g.Quiet → settle g = (g, .settled 0) ∧
      ∀ k, g.phases k = g ∧ settle (g.phases k) = (g, .settled 0)) ∧
    (∀ k, ∃ moves, (settle (g.phases k)).2 = .settled moves) ∧
    (∀ k, ∑ i ∈ Finset.range k, (settle (g.phases i)).2.moves ≤ n * (g.width + g.height)) ∧
    ∃ k ≤ n * (g.width + g.height), (settle (g.phases k)).2 = .settled 0 := by
  have hd : g.hasData = true := g.hasData_iff.mpr (hn ▸ hpos)
  have hcard : g.occupied.card = n := g.card_occupied.trans hn
  refine ⟨⟨fun hzero => ?_, fun hq => ?_⟩, fun hq => ?_, fun k => ?_, fun k => ?_, ?_⟩
  · obtain ⟨f, dest, heq, -, htraced, hrest⟩ := settle_traced hf hd
    have hsettled := htraced.settled hrest
    rw [heq] at hzero
    rw [Settlement.settled.inj hzero] at hsettled
    exact hsettled.quiet_of_still
  · rw [settle_of_quiet hf hd hq]
  · refine ⟨settle_of_quiet hf hd hq, fun k => ?_⟩
    rw [Grid.phases_of_quiet hf hd hq k]
    exact ⟨rfl, settle_of_quiet hf hd hq⟩
  · obtain ⟨moves, hmoves, -⟩ := (Grid.descends_phases hf hd k).settle hf hd
    exact ⟨moves, hmoves⟩
  · rw [← hcard]
    exact (Grid.descends_phases hf hd k).le
  · rw [← hcard]
    exact Grid.exists_still_phase hf hd

theorem settle_becomes_quiet_queue :
    queue.Framed ∧ queue.cells.countP Cell.isData = 3 ∧ (settle queue).2 = .settled 2 ∧
      ¬ queue.Quiet ∧ ∃ k ≤ 27, (settle (queue.phases k)).2 = .settled 0 := by
  have hf : queue.Framed := by decide
  have hn : queue.cells.countP Cell.isData = 3 := by decide
  have htwo : (settle queue).2 = .settled 2 := by decide +kernel
  obtain ⟨hiff, -, -, -, hquiet⟩ := settle_becomes_quiet hf hn (by decide)
  refine ⟨hf, hn, htwo, fun hq => ?_, hquiet⟩
  have hzero := hiff.mpr hq
  rw [htwo] at hzero
  cases hzero

end Gridfall
