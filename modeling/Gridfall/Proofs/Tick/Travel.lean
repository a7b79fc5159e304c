/-
  Where the values go in a settlement phase. `Fall.Traced g f dest` follows them: the phase began
  with the grid `g`, it has come to `f`, and the value that stood at `p` now stands at `dest p`.

  Each value goes through stages (`Stage`). It heads down, and either falls, or turns to its drift
  because something at rest is below it; then it slides, or comes to rest. A place below a value is
  open if it was empty, or if its value has moved away (`Opened`). An open place is taken by the
  value above it and by no other. This is where the order of the scan is needed; all the rest holds
  for changes in any order.
-/
import Gridfall.Proofs.Tick.Progress
import Mathlib.Data.Set.Function

namespace Gridfall

open Relation (ReflTransGen TransGen)

namespace Grid

/-- The places that hold a value. -/
def occupied (g : Grid) : Finset Pos := g.positions.toFinset.filter fun p => (g.datum? p).isSome

theorem mem_occupied {g : Grid} {p : Pos} : p ∈ g.occupied ↔ ∃ d, g.get? p = some (.data d) := by
  have hdatum : (g.datum? p).isSome = true ↔ ∃ d, g.get? p = some (.data d) := by
    simp only [Option.isSome_iff_exists, datum?_eq_some_iff]
  rw [occupied, Finset.mem_filter, List.mem_toFinset, mem_positions, hdatum]
  refine ⟨fun h => h.2, fun h => ⟨?_, h⟩⟩
  obtain ⟨d, hd⟩ := h
  exact contains_of_get? hd

theorem interior_of_occupied {g : Grid} (hf : g.Framed) {p : Pos} (hp : p ∈ g.occupied) :
    p ∈ g.interior := by
  obtain ⟨d, hd⟩ := mem_occupied.mp hp
  exact hf.interior hd (by simp)

theorem Frame.interior {g g' : Grid} (h : g.Frame g') : g'.interior = g.interior := by
  unfold Grid.interior
  rw [h.width, h.height]

/-- Something stands beside `p` on a side. -/
def Blocked (g : Grid) (p : Pos) (side : Dir) : Prop :=
  ∃ c, g.get? (p.beside side) = some c ∧ c ≠ .empty

/-- The place was empty in `g`, or its value has moved away. -/
def Opened (g : Grid) (dest : Pos → Pos) (q : Pos) : Prop :=
  g.get? q = some .empty ∨ q ∈ g.occupied ∧ dest q ≠ q

/-- What one phase does: the value at `p` goes to `dest p`, and nothing else changes. -/
structure Settled (g g' : Grid) (moves : Nat) (dest : Pos → Pos) : Prop where
  /-- No value is lost, doubled or made. -/
  bijective : Set.BijOn dest g.occupied g'.occupied
  /-- Values and drifts stay. -/
  cell : ∀ p d, g.get? p = some (.data d) → g'.get? (dest p) = some (.data d)
  near : ∀ p d, g.get? p = some (.data d) →
    dest p = p ∨ dest p = p.beside .down ∨ dest p = p.beside d.drift.dir
  moves : moves = (g.occupied.filter fun p => dest p ≠ p).card
  frame : g.Frame g'
  falls : ∀ p ∈ g.occupied, dest p = p.beside .down ↔ g.Opened dest (p.beside .down)
  rests : ∀ p d, g.get? p = some (.data d) → dest p = p →
    g'.Blocked p .down ∧ g'.Blocked p d.drift.dir

end Grid

namespace Fall

/-! ## Stages -/

/-- The place `q` is at rest and was never open. -/
def Grounded (g : Grid) (f : Fall) (dest : Pos → Pos) (q : Pos) : Prop :=
  f.slot q = .fixed ∧ ¬ g.Opened dest q

/-- How far the value from `p`, which slides to `side`, has come. -/
inductive Stage (g : Grid) (f : Fall) (dest : Pos → Pos) (p : Pos) (side : Dir) : Prop
  /-- It heads down. -/
  | falling (hd : dest p = p) (hs : f.slot p = .moving .down)
      (hopen : g.Opened dest (p.beside .down) → f.slot (p.beside .down) = .vacant)
  /-- It has fallen. -/
  | fallen (hd : dest p = p.beside .down) (hs : f.slot (p.beside .down) = .fixed)
      (hopen : g.Opened dest (p.beside .down))
  /-- It could not fall and heads sideways. -/
  | turned (hd : dest p = p) (hs : f.slot p = .moving side)
      (hground : Grounded g f dest (p.beside .down))
  /-- It has moved sideways. -/
  | slid (hd : dest p = p.beside side) (hs : f.slot (p.beside side) = .fixed)
      (hground : Grounded g f dest (p.beside .down))
  /-- It has come to rest where it was, against something at rest or head on. -/
  | resting (hd : dest p = p) (hs : f.slot p = .fixed)
      (hground : Grounded g f dest (p.beside .down))
      (hside : f.slot (p.beside side) = .fixed ∨ f.slot (p.beside side) = .moving side.opposite)

/-- The phase that began with `g` has come to `f`, and the value from `p` stands at `dest p`. -/
structure Traced (g : Grid) (f : Fall) (dest : Pos → Pos) : Prop where
  framed : g.Framed
  live : Live f
  frame : g.Frame f.grid
  cell : ∀ p d, g.get? p = some (.data d) → f.grid.get? (dest p) = some (.data d)
  injective : Set.InjOn dest g.occupied
  onto : ∀ q ∈ f.grid.occupied, ∃ p ∈ g.occupied, dest p = q
  moves : f.moves = (g.occupied.filter fun p => dest p ≠ p).card
  stage : ∀ p d, g.get? p = some (.data d) → Stage g f dest p d.drift.dir

theorem traced_start {g : Grid} (hf : g.Framed) : Traced g (start g) id := by
  refine ⟨hf, live_start hf, .refl g, fun _ _ h => h, Set.injOn_id _, fun q hq => ⟨q, hq, rfl⟩,
    ?_, ?_⟩
  · simp [start]
  · intro p d hd
    refine .falling rfl (slot_start hd) fun hopen => ?_
    rcases hopen with hempty | ⟨-, hne⟩
    · exact slot_start hempty
    · exact absurd rfl hne

section
variable {g : Grid} {f : Fall} {dest : Pos → Pos}

/-- A value that moves still is where it was, and has neither fallen nor slid. -/
theorem Traced.moving (h : Traced g f dest) {p : Pos} (hp : p ∈ f.grid.interior) {heading : Dir}
    (hs : f.slot p = .moving heading) :
    ∃ d, g.get? p = some (.data d) ∧ dest p = p ∧
      (heading = .down ∧
          (g.Opened dest (p.beside .down) → f.slot (p.beside .down) = .vacant) ∨
        heading = d.drift.dir ∧ Grounded g f dest (p.beside .down)) := by
  have hfull : p ∈ f.grid.occupied :=
    Grid.mem_occupied.mpr (h.live.tied.moving p heading (Grid.contains_of_interior hp) hs)
  obtain ⟨q, hq, hdest⟩ := h.onto p hfull
  obtain ⟨d, hd⟩ := Grid.mem_occupied.mp hq
  -- Whoever has moved is at rest at its new place.
  cases h.stage q d hd with
  | falling hd' hs' hopen =>
    obtain rfl : q = p := hd'.symm.trans hdest
    rw [hs] at hs'
    exact ⟨d, hd, hd', .inl ⟨Slot.moving.inj hs', hopen⟩⟩
  | turned hd' hs' hground =>
    obtain rfl : q = p := hd'.symm.trans hdest
    rw [hs] at hs'
    exact ⟨d, hd, hd', .inr ⟨Slot.moving.inj hs', hground⟩⟩
  | fallen hd' hs' | slid hd' hs' =>
    rw [← hd', hdest, hs] at hs'
    cases hs'
  | resting hd' hs' =>
    obtain rfl : q = p := hd'.symm.trans hdest
    rw [hs] at hs'
    cases hs'

/-- A vacant place is an open one. -/
theorem Traced.opened_of_vacant (h : Traced g f dest) {q : Pos} (hq : f.grid.contains q = true)
    (hs : f.slot q = .vacant) : g.Opened dest q := by
  have hempty := (h.live.tied.vacant q hq).mp hs
  have hcell : g.get? q = some (g.cellAt q) :=
    Grid.get?_of_contains ((h.frame.contains q).symm.trans hq)
  cases hc : g.cellAt q with
  | empty => exact .inl (hc ▸ hcell)
  | data d =>
    rw [hc] at hcell
    refine .inr ⟨Grid.mem_occupied.mpr ⟨d, hcell⟩, fun hstay => ?_⟩
    have hd := h.cell q d hcell
    rw [hstay, hempty] at hd
    cases hd
  | border | operator | pipe =>
    rw [hc] at hcell
    have hfixed := h.frame.fixed q _ hcell rfl
    rw [hempty] at hfixed
    cases hfixed

end

/-! ## What a change spares -/

/-- What a change of the value at `p₀` means for all others. -/
structure Spares (g : Grid) (f : Fall) (dest : Pos → Pos) (f' : Fall) (dest' : Pos → Pos)
    (p₀ : Pos) : Prop where
  fixed : ∀ q, f.grid.contains q = true → f.slot q = .fixed → f'.slot q = .fixed
  moving : ∀ q heading, f.grid.contains q = true → q ≠ p₀ → f.slot q = .moving heading →
    f'.slot q = .moving heading
  others : ∀ q, q ≠ p₀ → dest' q = dest q
  opened : ∀ q, g.Opened dest q → g.Opened dest' q
  opens : ∀ q, g.Opened dest' q → g.Opened dest q ∨ q = p₀ ∧ f'.slot p₀ = .vacant
  yields : ∀ p ∈ f.grid.interior, f.Drops p → f'.Drops p ∨ f'.slot p = .vacant
  /-- A value that faces one at rest comes to rest. -/
  faced : ∀ p ∈ f.grid.interior, ∀ drift : Drift, f.slot p = .fixed → p.beside drift.dir = p₀ →
    f.slot p₀ = .moving drift.dir.opposite → f'.slot p₀ = .fixed

section
variable {g : Grid} {f f' : Fall} {dest dest' : Pos → Pos} {p₀ : Pos}

/-- What is at rest on never opened ground stays so: the value that changes was not at rest. -/
theorem Spares.grounded (h : Spares g f dest f' dest' p₀) {heading : Dir}
    (hs : f.slot p₀ = .moving heading) {q : Pos} (hq : f.grid.contains q = true)
    (hground : Grounded g f dest q) : Grounded g f' dest' q := by
  obtain ⟨hfixed, hclosed⟩ := hground
  refine ⟨h.fixed q hq hfixed, fun hopen => ?_⟩
  rcases h.opens q hopen with hopen | ⟨rfl, -⟩
  · exact hclosed hopen
  · rw [hs] at hfixed
    cases hfixed

/-- A change keeps the stage of every other value. -/
theorem Spares.stage (h : Spares g f dest f' dest' p₀) {heading : Dir}
    (hs₀ : f.slot p₀ = .moving heading) {p : Pos} (hp : p ∈ f.grid.interior) (hne : p ≠ p₀)
    {drift : Drift} (hstage : Stage g f dest p drift.dir) : Stage g f' dest' p drift.dir := by
  have hcontains := Grid.contains_of_interior hp
  have hbelow := Grid.contains_beside hp .down
  have hbeside := Grid.contains_beside hp drift.dir
  cases hstage with
  | falling hd hs hopen =>
    have hs' := h.moving p .down hcontains hne hs
    refine .falling ((h.others p hne).trans hd) hs' fun hopen' => ?_
    rcases h.opens _ hopen' with hopened | ⟨heq, hvacant⟩
    · rcases h.yields p hp ⟨hs, hopen hopened⟩ with hdrops | hgone
      · exact hdrops.2
      · rw [hs'] at hgone
        cases hgone
    · rw [heq]
      exact hvacant
  | fallen hd hs hopen =>
    exact .fallen ((h.others p hne).trans hd) (h.fixed _ hbelow hs) (h.opened _ hopen)
  | turned hd hs hground =>
    exact .turned ((h.others p hne).trans hd) (h.moving p _ hcontains hne hs)
      (h.grounded hs₀ hbelow hground)
  | slid hd hs hground =>
    exact .slid ((h.others p hne).trans hd) (h.fixed _ hbeside hs) (h.grounded hs₀ hbelow hground)
  | resting hd hs hground hside =>
    refine .resting ((h.others p hne).trans hd) (h.fixed p hcontains hs)
      (h.grounded hs₀ hbelow hground) ?_
    rcases hside with hside | hside
    · exact .inl (h.fixed _ hbeside hside)
    · by_cases heq : p.beside drift.dir = p₀
      · left
        rw [heq] at hside ⊢
        exact h.faced p hp drift hs heq hside
      · exact .inr (h.moving _ _ hbeside heq hside)

/-- A value that turns or comes to rest spares the others. -/
theorem spares_setSlot (hsize : f.slots.size = f.grid.cells.size) (hp : p₀ ∈ f.grid.interior)
    {heading : Dir} (hs : f.slot p₀ = .moving heading) {s : Slot}
    (hface : s = .fixed ∨ heading = .down) (h : Orderly f (f.setSlot p₀ s)) :
    Spares g f dest (f.setSlot p₀ s) dest p₀ := by
  have hslot : ∀ q, f.grid.contains q = true →
      (f.setSlot p₀ s).slot q = if q = p₀ then s else f.slot q := fun q hq =>
    slot_setSlot hsize (Grid.contains_of_interior hp) hq s
  refine
    { fixed := fun q hq hfixed => ?_
      moving := fun q e hq hne hmoving => ?_
      others := fun _ _ => rfl
      opened := fun _ hopen => hopen
      opens := fun _ hopen => .inl hopen
      yields := h.yields
      faced := fun p _ drift _ _ hback => ?_ }
  · have hne : q ≠ p₀ := by
      rintro rfl
      rw [hs] at hfixed
      cases hfixed
    rw [hslot q hq, if_neg hne]
    exact hfixed
  · rw [hslot q hq, if_neg hne]
    exact hmoving
  · rw [slot_setSlot_self hsize hp]
    rcases hface with hfixed | hdown
    · exact hfixed
    · rw [hs, hdown] at hback
      cases drift <;> cases hback

/-- A value that moves spares the others. -/
theorem spares_move (hsize : f.slots.size = f.grid.cells.size) (hp : p₀ ∈ f.grid.interior)
    {heading : Dir} (hs : f.slot p₀ = .moving heading)
    (hv : f.slot (p₀.beside heading) = .vacant) (hd : dest p₀ = p₀)
    (h : Orderly f (f.move p₀ (p₀.beside heading))) :
    Spares g f dest (f.move p₀ (p₀.beside heading))
      (Function.update dest p₀ (p₀.beside heading)) p₀ := by
  have hslot : ∀ q, f.grid.contains q = true → (f.move p₀ (p₀.beside heading)).slot q =
      if q = p₀ then .vacant else if q = p₀.beside heading then .fixed else f.slot q := fun q hq =>
    slot_move hsize (Grid.contains_of_interior hp) (Grid.contains_beside hp heading) hq
  refine
    { fixed := fun q hq hfixed => ?_
      moving := fun q e hq hne hmoving => ?_
      others := fun q hne => Function.update_of_ne hne _ _
      opened := fun q hopen => ?_
      opens := fun q hopen => ?_
      yields := h.yields
      faced := fun p hpin drift hfixed heq hback => ?_ }
  · have hne : q ≠ p₀ := by
      rintro rfl
      rw [hs] at hfixed
      cases hfixed
    rw [hslot q hq, if_neg hne]
    split
    · rfl
    · exact hfixed
  · have hne' : q ≠ p₀.beside heading := by
      rintro rfl
      rw [hv] at hmoving
      cases hmoving
    rw [hslot q hq, if_neg hne, if_neg hne']
    exact hmoving
  · refine hopen.imp id fun hopen => ⟨hopen.1, ?_⟩
    have hne : q ≠ p₀ := by
      rintro rfl
      exact hopen.2 hd
    rw [Function.update_of_ne hne]
    exact hopen.2
  · by_cases hq : q = p₀
    · right
      refine ⟨hq, ?_⟩
      rw [hslot p₀ (Grid.contains_of_interior hp), if_pos rfl]
    · left
      refine hopen.imp id fun hopen => ⟨hopen.1, ?_⟩
      rw [Function.update_of_ne hq] at hopen
      exact hopen.2
  · -- The way of the value at `p₀` leads to `p`, where there is no room.
    obtain rfl : heading = drift.dir.opposite := by
      rw [hs] at hback
      exact Slot.moving.inj hback
    rw [← heq, Grid.beside_beside_opposite hpin, hfixed] at hv
    cases hv

end

/-! ## Changes -/

section
variable {g : Grid} {f f' : Fall} {dest : Pos → Pos}

/-- The values of the first grid are inside the ring of the present one. -/
theorem Traced.interior (h : Traced g f dest) {p : Pos} {d : Datum}
    (hd : g.get? p = some (.data d)) : p ∈ f.grid.interior := by
  rw [h.frame.interior]
  exact h.framed.interior hd (by simp)

/-- After a change that spares the others, only the stage of its own value is left to look at. -/
theorem Traced.stages (h : Traced g f dest) {dest' : Pos → Pos} {p₀ : Pos} {d₀ : Datum}
    (hd₀ : g.get? p₀ = some (.data d₀)) {heading : Dir} (hs : f.slot p₀ = .moving heading)
    (hspares : Spares g f dest f' dest' p₀) (hown : Stage g f' dest' p₀ d₀.drift.dir) :
    ∀ p d, g.get? p = some (.data d) → Stage g f' dest' p d.drift.dir := by
  intro p d hd
  by_cases hp : p = p₀
  · subst hp
    rw [hd₀] at hd
    cases hd
    exact hown
  · exact hspares.stage hs (h.interior hd) hp (h.stage p d hd)

/-- A value turns or comes to rest: nothing but its stage changes. -/
theorem Traced.setSlot (h : Traced g f dest) {p₀ : Pos} (hp : p₀ ∈ f.grid.interior) {d₀ : Datum}
    (hd₀ : g.get? p₀ = some (.data d₀)) {heading : Dir} (hs : f.slot p₀ = .moving heading)
    {s : Slot} (hface : s = .fixed ∨ heading = .down) (ho : Orderly f (f.setSlot p₀ s))
    (hown : Spares g f dest (f.setSlot p₀ s) dest p₀ →
      Stage g (f.setSlot p₀ s) dest p₀ d₀.drift.dir) :
    Traced g (f.setSlot p₀ s) dest := by
  have hspares : Spares g f dest (f.setSlot p₀ s) dest p₀ :=
    spares_setSlot h.live.tied.size hp hs hface ho
  exact { h with live := ho.step.live h.live, stage := h.stages hd₀ hs hspares (hown hspares) }

/-- The values that do not move are elsewhere than the one that does and its target. -/
theorem Traced.apart (h : Traced g f dest) {p₀ target : Pos} (hfull : p₀ ∈ g.occupied)
    (hstay : dest p₀ = p₀) (hempty : f.grid.get? target = some .empty) :
    ∀ p ∈ g.occupied, p ≠ p₀ → dest p ≠ p₀ ∧ dest p ≠ target := by
  intro p hp hne
  obtain ⟨d, hd⟩ := Grid.mem_occupied.mp hp
  constructor
  · intro heq
    exact hne (h.injective hp hfull (heq.trans hstay.symm))
  · intro heq
    have hdata := h.cell p d hd
    rw [heq, hempty] at hdata
    cases hdata

theorem injOn_update {s : Finset Pos} {p₀ target : Pos} (h : Set.InjOn dest s)
    (hfree : ∀ p ∈ s, p ≠ p₀ → dest p ≠ target) :
    Set.InjOn (Function.update dest p₀ target) s := by
  intro p hp q hq heq
  by_cases hpp : p = p₀
  · by_cases hqp : q = p₀
    · exact hpp.trans hqp.symm
    · rw [hpp, Function.update_self, Function.update_of_ne hqp] at heq
      exact absurd heq.symm (hfree q hq hqp)
  · by_cases hqp : q = p₀
    · rw [hqp, Function.update_self, Function.update_of_ne hpp] at heq
      exact absurd heq (hfree p hp hpp)
    · rw [Function.update_of_ne hpp, Function.update_of_ne hqp] at heq
      exact h hp hq heq

theorem card_moved_update {s : Finset Pos} {p₀ target : Pos} (hp : p₀ ∈ s)
    (hstay : dest p₀ = p₀) (hne : target ≠ p₀) :
    (s.filter fun p => Function.update dest p₀ target p ≠ p).card =
      (s.filter fun p => dest p ≠ p).card + 1 := by
  have hinsert : (s.filter fun p => Function.update dest p₀ target p ≠ p) =
      insert p₀ (s.filter fun p => dest p ≠ p) := by
    ext p
    by_cases hpp : p = p₀
    · simp [hpp, hp, hne]
    · simp [hpp]
  rw [hinsert, Finset.card_insert_of_notMem (by simp [hstay])]

/-- A value moves: the map follows it. -/
theorem Traced.move (h : Traced g f dest) {p₀ : Pos} (hp : p₀ ∈ f.grid.interior) {d₀ : Datum}
    (hd₀ : g.get? p₀ = some (.data d₀)) (hstay : dest p₀ = p₀) {heading : Dir}
    (hs : f.slot p₀ = .moving heading) (hv : f.slot (p₀.beside heading) = .vacant)
    (ho : Orderly f (f.move p₀ (p₀.beside heading)))
    (hown : Spares g f dest (f.move p₀ (p₀.beside heading))
        (Function.update dest p₀ (p₀.beside heading)) p₀ →
      Stage g (f.move p₀ (p₀.beside heading)) (Function.update dest p₀ (p₀.beside heading)) p₀
        d₀.drift.dir) :
    Traced g (f.move p₀ (p₀.beside heading)) (Function.update dest p₀ (p₀.beside heading)) := by
  have hcontains := Grid.contains_of_interior hp
  have htarget := Grid.contains_beside hp heading
  have hfull : p₀ ∈ g.occupied := Grid.mem_occupied.mpr ⟨d₀, hd₀⟩
  have hspares : Spares g f dest (f.move p₀ (p₀.beside heading))
      (Function.update dest p₀ (p₀.beside heading)) p₀ :=
    spares_move h.live.tied.size hp hs hv hstay ho
  have hempty := (h.live.tied.vacant _ htarget).mp hv
  have hcell : ∀ q, (f.move p₀ (p₀.beside heading)).grid.get? q =
      if q = p₀.beside heading then f.grid.get? p₀ else if q = p₀ then some .empty
      else f.grid.get? q := Grid.get?_shift hcontains htarget
  have apart := h.apart hfull hstay hempty
  refine
    { framed := h.framed
      live := ho.step.live h.live
      frame := h.frame.trans (ho.step.frame h.live.tied)
      cell := fun p d hd => ?_
      injective := injOn_update h.injective fun p hp hne => (apart p hp hne).2
      onto := fun q hq => ?_
      moves := ?_
      stage := h.stages hd₀ hs hspares (hown hspares) }
  · by_cases hpp : p = p₀
    · subst hpp
      rw [Function.update_self, hcell, if_pos rfl, ← hstay]
      exact h.cell p d hd
    · obtain ⟨hfrom, hto⟩ := apart p (Grid.mem_occupied.mpr ⟨d, hd⟩) hpp
      rw [Function.update_of_ne hpp, hcell, if_neg hto, if_neg hfrom]
      exact h.cell p d hd
  · obtain ⟨d, hd⟩ := Grid.mem_occupied.mp hq
    rw [hcell] at hd
    by_cases hqt : q = p₀.beside heading
    · exact ⟨p₀, hfull, by rw [Function.update_self, hqt]⟩
    · rw [if_neg hqt] at hd
      by_cases hqp : q = p₀
      · rw [if_pos hqp] at hd
        cases hd
      · rw [if_neg hqp] at hd
        obtain ⟨p, hpocc, hdest⟩ := h.onto q (Grid.mem_occupied.mpr ⟨d, hd⟩)
        have hpp : p ≠ p₀ := by
          rintro rfl
          exact hqp (hdest.symm.trans hstay)
        exact ⟨p, hpocc, by rw [Function.update_of_ne hpp, hdest]⟩
  · rw [card_moved_update hfull hstay (Grid.beside_ne hp heading), ← h.moves]
    rfl

/-- A value that has turned comes to rest. -/
theorem Traced.rest (h : Traced g f dest) {p : Pos} (hp : p ∈ f.grid.interior) {heading : Dir}
    (hs : f.slot p = .moving heading) (hne : heading ≠ .down)
    (hside : f.slot (p.beside heading) = .fixed ∨
      f.slot (p.beside heading) = .moving heading.opposite)
    (ho : Orderly f (f.setSlot p .fixed)) : Traced g (f.setSlot p .fixed) dest := by
  obtain ⟨d, hd, hstay, hcase⟩ := h.moving hp hs
  rcases hcase with ⟨hdown, -⟩ | ⟨rfl, hground⟩
  · exact absurd hdown hne
  · refine h.setSlot hp hd hs (.inl rfl) ho fun hspares => ?_
    have hself := slot_setSlot_self h.live.tied.size hp .fixed
    have hbeside := Grid.contains_beside hp d.drift.dir
    refine .resting hstay hself (hspares.grounded hs (Grid.contains_beside hp .down) hground) ?_
    exact hside.imp (hspares.fixed _ hbeside)
      (hspares.moving _ _ hbeside (Grid.beside_ne hp d.drift.dir))

/-- Every change takes its value to the next stage. -/
theorem Traced.step (h : Traced g f dest) (ho : Orderly f f') : ∃ dest', Traced g f' dest' := by
  have hstep := ho.step
  cases hstep with
  | off hp hs ht =>
    rw [Grid.step?_interior hp] at ht
    cases ht
  | @move p target heading hp hs ht hv =>
    obtain rfl := Grid.beside_of_step? hp ht
    obtain ⟨d, hd, hstay, hcase⟩ := h.moving hp hs
    have htarget := Grid.contains_beside hp heading
    have hfixed : (f.move p (p.beside heading)).slot (p.beside heading) = .fixed := by
      rw [slot_move h.live.tied.size (Grid.contains_of_interior hp) htarget htarget,
        if_neg (Grid.beside_ne hp heading), if_pos rfl]
    refine ⟨_, h.move hp hd hstay hs hv ho fun hspares => ?_⟩
    rcases hcase with ⟨rfl, -⟩ | ⟨rfl, hground⟩
    · exact .fallen (Function.update_self _ _ _) hfixed
        (hspares.opened _ (h.opened_of_vacant htarget hv))
    · exact .slid (Function.update_self _ _ _) hfixed
        (hspares.grounded hs (Grid.contains_beside hp .down) hground)
  | @turn p target hp hs ht hv =>
    obtain rfl := Grid.beside_of_step? hp ht
    obtain ⟨d, hd, hstay, hcase⟩ := h.moving hp hs
    have hdata : f.grid.get? p = some (.data d) := by
      have := h.cell p d hd
      rwa [hstay] at this
    rw [turn_eq hdata] at ho ⊢
    refine ⟨dest, h.setSlot hp hd hs (.inr rfl) ho fun hspares => ?_⟩
    have hself := slot_setSlot_self h.live.tied.size hp (.moving d.drift.dir)
    refine .turned hstay hself (hspares.grounded hs (Grid.contains_beside hp .down) ⟨hv, ?_⟩)
    rcases hcase with ⟨-, hopen⟩ | ⟨hdown, -⟩
    · intro hopened
      rw [hopen hopened] at hv
      cases hv
    · exact absurd hdown.symm d.drift.dir_ne_down
  | @stop p target heading hp hs hne ht hv =>
    obtain rfl := Grid.beside_of_step? hp ht
    exact ⟨dest, h.rest hp hs hne (.inl hv) ho⟩
  | @meet p target heading hp hs ht hv =>
    obtain rfl := Grid.beside_of_step? hp ht
    -- Nothing comes up toward a value that heads down.
    have hne : heading ≠ .down := by
      rintro rfl
      exact h.live.level _ (h.live.interior (Grid.contains_beside hp .down) hv) hv
    exact ⟨dest, h.rest hp hs hne (.inr hv) ho⟩

theorem exists_traced (hf : g.Framed) (h : ReflTransGen Orderly (start g) f) :
    ∃ dest, Traced g f dest := by
  induction h with
  | refl => exact ⟨id, traced_start hf⟩
  | tail _ ho ih =>
    obtain ⟨dest, h⟩ := ih
    exact h.step ho

/-! ## The end of the phase -/

theorem Traced.blocked_of_fixed (h : Traced g f dest) {p : Pos} (hp : p ∈ f.grid.interior)
    {side : Dir} (hs : f.slot (p.beside side) = .fixed) : f.grid.Blocked p side := by
  have hcontains := Grid.contains_beside hp side
  refine ⟨_, Grid.get?_of_contains hcontains, fun hempty => ?_⟩
  have hvacant := (h.live.tied.vacant _ hcontains).mpr
    (hempty ▸ Grid.get?_of_contains hcontains)
  rw [hs] at hvacant
  cases hvacant

/-- At the end every value has fallen, slid or come to rest. -/
theorem Traced.settled (h : Traced g f dest) (hrest : AtRest f) :
    g.Settled f.grid f.moves dest := by
  have still : ∀ q, f.grid.contains q = true → ∀ heading, f.slot q ≠ .moving heading := by
    intro q hq heading hs
    exact hrest q (h.live.interior hq hs) heading hs
  refine
    { bijective := ⟨fun p hp => ?_, h.injective, h.onto⟩
      cell := h.cell
      near := fun p d hd => ?_
      moves := h.moves
      frame := h.frame
      falls := fun p hp => ?_
      rests := fun p d hd hstay => ?_ }
  · obtain ⟨d, hd⟩ := Grid.mem_occupied.mp hp
    exact Grid.mem_occupied.mpr ⟨d, h.cell p d hd⟩
  · cases h.stage p d hd with
    | falling hd' | turned hd' | resting hd' => exact .inl hd'
    | fallen hd' => exact .inr (.inl hd')
    | slid hd' => exact .inr (.inr hd')
  · obtain ⟨d, hd⟩ := Grid.mem_occupied.mp hp
    have hin := h.interior hd
    have hcontains := Grid.contains_of_interior hin
    cases h.stage p d hd with
    | falling _ hs | turned _ hs => exact absurd hs (still p hcontains _)
    | fallen hd' _ hopen => exact iff_of_true hd' hopen
    | resting hd' _ hground =>
      refine iff_of_false ?_ hground.2
      rw [hd']
      exact (Grid.beside_ne hin .down).symm
    | slid hd' _ hground =>
      refine iff_of_false ?_ hground.2
      rw [hd']
      intro heq
      have hy : (p.beside d.drift.dir).y = p.y + 1 := congrArg Pos.y heq
      cases hdir : d.drift <;> rw [hdir] at hy <;> simp [Drift.dir, Pos.beside, Pos.around] at hy
  · have hin := h.interior hd
    cases h.stage p d hd with
    | falling _ hs | turned _ hs =>
      exact absurd hs (still p (Grid.contains_of_interior hin) _)
    | fallen hd' | slid hd' => exact absurd (hd'.symm.trans hstay) (Grid.beside_ne hin _)
    | resting _ _ hground hside =>
      refine ⟨h.blocked_of_fixed hin hground.1, h.blocked_of_fixed hin ?_⟩
      exact hside.resolve_right (still _ (Grid.contains_beside hin _) _)

end

end Fall

/-- The end of a phase on a framed grid with a value, and the way that each value has gone. -/
theorem settle_traced {g : Grid} (hf : g.Framed) (hd : g.hasData = true) :
    ∃ f dest, settle g = (f.grid, .settled f.moves) ∧
      ReflTransGen Fall.Orderly (Fall.start g) f ∧ Fall.Traced g f dest ∧ Fall.AtRest f := by
  obtain ⟨k, f, -, hends, heq⟩ := settle_eq hf hd
  obtain ⟨hpath, hrest⟩ := hends.orderly (Fall.live_start hf)
  obtain ⟨dest, htraced⟩ := Fall.exists_traced hf hpath
  exact ⟨f, dest, heq, hpath, htraced, hrest⟩

/-- A phase moves the values of a framed grid one to one, each to the place below it, to its drift
    side, or nowhere; exactly those fall that stand above an open place, and no value is left above
    or beside an empty one. -/
theorem settle_moves_each_once {g : Grid} (hf : g.Framed) (hd : g.hasData = true) :
    ∃ moves dest, (settle g).2 = .settled moves ∧ g.Settled (settle g).1 moves dest := by
  obtain ⟨f, dest, heq, -, htraced, hrest⟩ := settle_traced hf hd
  rw [heq]
  exact ⟨f.moves, dest, rfl, htraced.settled hrest⟩

theorem settle_moves_each_once_queue :
    queue.Framed ∧ queue.hasData = true ∧ (settle queue).2 = .settled 2 ∧
      ∃ dest, queue.Settled (settle queue).1 2 dest := by
  have hf : queue.Framed := by decide
  have hd : queue.hasData = true := queue.hasData_iff.mpr (by decide)
  have htwo : (settle queue).2 = .settled 2 := by decide +kernel
  obtain ⟨moves, dest, hmoves, h⟩ := settle_moves_each_once hf hd
  obtain rfl : 2 = moves := by
    rw [htwo] at hmoves
    exact Settlement.settled.inj hmoves
  exact ⟨hf, hd, htwo, dest, h⟩

end Gridfall
