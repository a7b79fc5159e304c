/-
  The settlement phase as a sequence of changes. A scan changes one value at a time: it comes to
  rest, turns to its drift, or moves into a vacant neighbour. `Fall.Step` lists these changes with
  all that the scan has looked at, and every pass is a chain of them (`steps_pass`, `steps_passes`).

  `Fall.Tied` ties the states of the cells to the cells: what is vacant is empty and what is moving
  is a value. It holds at the start and after every change.
-/
import Gridfall.Proofs.Grid
import Gridfall.Tick.Settlement
import Mathlib.Logic.Relation

namespace Gridfall.Fall

open Relation (ReflTransGen)

/-! ## Changes -/

/-- One change of a scan. -/
inductive Step (f : Fall) : Fall → Prop
  /-- A value at the end of the grid comes to rest. -/
  | off {p : Pos} {heading : Dir} (hp : p ∈ f.grid.interior) (hs : f.slot p = .moving heading)
      (ht : f.grid.step? p heading = none) : Step f (f.setSlot p .fixed)
  /-- A value moves into a vacant neighbour. -/
  | move {p target : Pos} {heading : Dir} (hp : p ∈ f.grid.interior)
      (hs : f.slot p = .moving heading) (ht : f.grid.step? p heading = some target)
      (hv : f.slot target = .vacant) : Step f (f.move p target)
  /-- A value that heads down onto something at rest turns to its drift. -/
  | turn {p target : Pos} (hp : p ∈ f.grid.interior) (hs : f.slot p = .moving .down)
      (ht : f.grid.step? p .down = some target) (hv : f.slot target = .fixed) : Step f (f.turn p)
  /-- A value that heads sideways against something at rest comes to rest. -/
  | stop {p target : Pos} {heading : Dir} (hp : p ∈ f.grid.interior)
      (hs : f.slot p = .moving heading) (hd : heading ≠ .down)
      (ht : f.grid.step? p heading = some target) (hv : f.slot target = .fixed) :
      Step f (f.setSlot p .fixed)
  /-- A value that meets another head on comes to rest. -/
  | meet {p target : Pos} {heading : Dir} (hp : p ∈ f.grid.interior)
      (hs : f.slot p = .moving heading) (ht : f.grid.step? p heading = some target)
      (hv : f.slot target = .moving heading.opposite) : Step f (f.setSlot p .fixed)

/-- Changes one after the other. -/
abbrev Steps : Fall → Fall → Prop := ReflTransGen Step

theorem Step.interior {f f' : Fall} (h : Step f f') : f'.grid.interior = f.grid.interior := by
  cases h <;> rfl

theorem steps_scan {ps : List Pos} {f : Fall} (hps : ps ⊆ f.grid.interior) (met : Bool) :
    Steps f (scan ps f met).1 := by
  induction ps generalizing f met with
  | nil => exact .refl
  | cons p ps ih =>
    obtain ⟨hp, hps⟩ := List.cons_subset.mp hps
    -- A change leaves the interior as it is, so the scan can go on after it.
    have next : ∀ {f'}, Step f f' → ∀ met, Steps f (scan ps f' met).1 := fun h met =>
      .head h (ih (h.interior ▸ hps) met)
    unfold scan
    split
    · exact ih hps met
    · exact ih hps met
    · next heading hs =>
      split
      · next ht => exact next (.off hp hs ht) true
      · next target ht =>
        split
        · next hv => exact .single (.move hp hs ht hv)
        · next hv =>
          split
          · next hd =>
            subst hd
            exact next (.turn hp hs ht hv) true
          · next hd => exact next (.stop hp hs hd ht hv) true
        · next other hv =>
          split
          · next ho =>
            subst ho
            exact next (.meet hp hs ht hv) true
          · exact ih hps true

theorem steps_pass (f : Fall) : Steps f f.pass.1 := steps_scan (List.Subset.refl _) false

theorem steps_passes (fuel : Nat) (f : Fall) : Steps f (passes fuel f) := by
  induction fuel generalizing f with
  | zero => exact .refl
  | succ fuel ih =>
    unfold passes
    split
    next f' met hpass =>
    have hpass : f.pass.1 = f' := congrArg Prod.fst hpass
    split
    · exact (hpass ▸ steps_pass f).trans (ih f')
    · exact hpass ▸ steps_pass f

/-! ## States and cells -/

theorem slot_setSlot {f : Fall} (hsize : f.slots.size = f.grid.cells.size) {p q : Pos}
    (hp : f.grid.contains p = true) (hq : f.grid.contains q = true) (s : Slot) :
    (f.setSlot p s).slot q = if q = p then s else f.slot q := by
  have hlt : f.grid.index p < f.slots.size := hsize ▸ Grid.index_lt hp
  change (f.slots.setIfInBounds (f.grid.index p) s)[f.grid.index q]?.getD .fixed = _
  split
  · next h => rw [h, Array.getElem?_setIfInBounds_self_of_lt hlt, Option.getD_some]
  · next h =>
    rw [Array.getElem?_setIfInBounds_ne fun hi => h (Grid.index_inj hp hq hi).symm]
    rfl

theorem slot_move {f : Fall} (hsize : f.slots.size = f.grid.cells.size) {p target q : Pos}
    (hp : f.grid.contains p = true) (ht : f.grid.contains target = true)
    (hq : f.grid.contains q = true) :
    (f.move p target).slot q =
      if q = p then .vacant else if q = target then .fixed else f.slot q := by
  let moved : Fall := { f with grid := f.grid.shift p target, moves := f.moves + 1 }
  have hm : moved.slots.size = moved.grid.cells.size := by
    rw [show moved.grid.cells.size = f.grid.cells.size by simp [moved, Grid.shift]]
    exact hsize
  have hm' : (moved.setSlot target .fixed).slots.size = moved.grid.cells.size :=
    Array.size_setIfInBounds.trans hm
  calc (f.move p target).slot q = ((moved.setSlot target .fixed).setSlot p .vacant).slot q := rfl
    _ = if q = p then .vacant else (moved.setSlot target .fixed).slot q := slot_setSlot hm' hp hq _
    _ = if q = p then .vacant else if q = target then .fixed else f.slot q := by
      rw [slot_setSlot hm ht hq]
      rfl

/-- Vacant cells are empty, and moving ones hold a value. -/
structure Tied (f : Fall) : Prop where
  size : f.slots.size = f.grid.cells.size
  vacant : ∀ p, f.grid.contains p = true →
    (f.slot p = .vacant ↔ f.grid.get? p = some .empty)
  moving : ∀ p heading, f.grid.contains p = true → f.slot p = .moving heading →
    ∃ d, f.grid.get? p = some (.data d)

theorem slot_start {g : Grid} {p : Pos} {c : Cell} (h : g.get? p = some c) :
    (start g).slot p = Slot.ofCell c := by
  have hi := Grid.index_lt (Grid.contains_of_get? h)
  rw [← Grid.cellAt_of_get? h]
  simp [slot, start, Grid.cellAt, hi]

theorem tied_start (g : Grid) : Tied (start g) := by
  refine ⟨Array.size_map, fun p hp => ?_, fun p heading hp hs => ?_⟩
  · obtain ⟨c, hc⟩ : ∃ c, g.get? p = some c := ⟨_, Grid.get?_of_contains hp⟩
    change _ ↔ g.get? p = _
    rw [slot_start hc, hc]
    cases c <;> simp [Slot.ofCell]
  · obtain ⟨c, hc⟩ : ∃ c, g.get? p = some c := ⟨_, Grid.get?_of_contains hp⟩
    rw [slot_start hc] at hs
    cases c with
    | data d => exact ⟨d, hc⟩
    | empty | border | operator | pipe => cases hs

/-- A value may change its state as long as it does not become vacant. -/
theorem Tied.setSlot {f : Fall} (h : Tied f) {p : Pos} (hp : f.grid.contains p = true)
    {heading : Dir} (hs : f.slot p = .moving heading) {s : Slot} (hne : s ≠ .vacant) :
    Tied (f.setSlot p s) := by
  obtain ⟨d, hd⟩ := h.moving p heading hp hs
  have hslot := fun q hq => slot_setSlot h.size hp (q := q) hq s
  refine ⟨Array.size_setIfInBounds.trans h.size, fun q hq => ?_, fun q heading' hq hm => ?_⟩
  · rw [hslot q hq]
    change _ ↔ f.grid.get? q = _
    split
    · next e => simp [e, hd, hne]
    · exact h.vacant q hq
  · rw [hslot q hq] at hm
    split at hm
    · next e => exact ⟨d, e ▸ hd⟩
    · exact h.moving q heading' hq hm

theorem Tied.move {f : Fall} (h : Tied f) {p target : Pos} (hp : f.grid.contains p = true)
    (ht : f.grid.contains target = true) {heading : Dir} (hs : f.slot p = .moving heading)
    (hv : f.slot target = .vacant) : Tied (f.move p target) := by
  obtain ⟨d, hd⟩ := h.moving p heading hp hs
  have hne : target ≠ p := by
    rintro rfl
    rw [hs] at hv
    cases hv
  have hslot := fun q hq => slot_move h.size hp ht (q := q) hq
  have hcell : ∀ q, (f.move p target).grid.get? q =
      if q = target then f.grid.get? p else if q = p then some .empty else f.grid.get? q :=
    Grid.get?_shift hp ht
  refine ⟨by simpa [Fall.move, Fall.setSlot, Grid.shift] using h.size, fun q hq => ?_,
    fun q heading' hq hm => ?_⟩
  · rw [hslot q hq, hcell q]
    rcases eq_or_ne q p with rfl | hqp
    · simp [hne.symm]
    · rcases eq_or_ne q target with rfl | hqt
      · simp [hqp, hd]
      · simpa [hqp, hqt] using h.vacant q hq
  · rw [hslot q hq] at hm
    split at hm
    · cases hm
    · next hqp =>
      split at hm
      · cases hm
      · next hqt =>
        rw [hcell q, if_neg hqt, if_neg hqp]
        exact h.moving q heading' hq hm

theorem Step.tied {f f' : Fall} (h : Step f f') (hf : Tied f) : Tied f' := by
  cases h with
  | off hp hs _ => exact hf.setSlot (Grid.mem_interior.mp hp).1 hs (by simp)
  | move hp hs ht hv =>
    exact hf.move (Grid.mem_interior.mp hp).1 (Grid.contains_of_step? ht) hs hv
  | turn hp hs _ _ => exact hf.setSlot (Grid.mem_interior.mp hp).1 hs (by simp)
  | stop hp hs _ _ _ => exact hf.setSlot (Grid.mem_interior.mp hp).1 hs (by simp)
  | meet hp hs _ _ => exact hf.setSlot (Grid.mem_interior.mp hp).1 hs (by simp)

theorem Steps.tied {f f' : Fall} (h : Steps f f') (hf : Tied f) : Tied f' := by
  induction h with
  | refl => exact hf
  | tail _ hstep ih => exact hstep.tied ih

end Gridfall.Fall
