/-
  The settlement phase ends. Inside a closed ring a value that waits, waits for a value that is
  further down, or further on in the direction in which both slide. `rank` counts this way, so
  some value does not wait, and a pass that meets a moving value makes a change (`Live.progress`).

  A value that heads down can still change twice, and one that has turned once. `pending` counts
  the changes left; it falls with every change. So `n` values need no more than `2 * n` passes that
  change something and one that finds all of them at rest (`exists_ends`).
-/
import Gridfall.Proofs.Frame
import Gridfall.Proofs.Tick.Scan

namespace Gridfall

theorem Drift.dir_ne_up (d : Drift) : d.dir ≠ .up := by
  cases d <;> decide

namespace Fall

open Relation (ReflTransGen TransGen)

/-! ## A phase inside a closed ring -/

/-- The ring is closed, and no value heads up. -/
structure Live (f : Fall) : Prop where
  tied : Tied f
  framed : f.grid.Framed
  level : ∀ p ∈ f.grid.interior, f.slot p ≠ .moving .up

/-- Values that move are inside the ring. -/
theorem Live.interior {f : Fall} (h : Live f) {p : Pos} (hp : f.grid.contains p = true)
    {heading : Dir} (hs : f.slot p = .moving heading) : p ∈ f.grid.interior := by
  obtain ⟨d, hd⟩ := h.tied.moving p heading hp hs
  exact h.framed.interior hd (by simp)

theorem live_start {g : Grid} (hf : g.Framed) : Live (start g) := by
  refine ⟨tied_start g, hf, fun p hp => ?_⟩
  have hc : g.get? p = some (g.cellAt p) := Grid.get?_of_contains (Grid.contains_of_interior hp)
  rw [slot_start hc]
  cases g.cellAt p <;> simp [Slot.ofCell]

theorem level_setSlot {f : Fall} (h : Live f) {p : Pos} (hp : p ∈ f.grid.interior) {s : Slot}
    (hs : s ≠ .moving .up) :
    ∀ q ∈ (f.setSlot p s).grid.interior, (f.setSlot p s).slot q ≠ .moving .up := by
  intro q hq
  rw [slot_setSlot h.tied.size (Grid.contains_of_interior hp) (Grid.contains_of_interior hq)]
  split
  · exact hs
  · exact h.level q hq

theorem Step.live {f f' : Fall} (h : Step f f') (hf : Live f) : Live f' := by
  refine ⟨h.tied hf.tied, (h.frame hf.tied).framed hf.framed, ?_⟩
  cases h with
  | off hp | stop hp | meet hp => exact level_setSlot hf hp (by simp)
  | @turn p target hp hs _ _ =>
    obtain ⟨d, hd⟩ := hf.tied.moving p .down (Grid.contains_of_interior hp) hs
    rw [turn_eq hd]
    exact level_setSlot hf hp (by simpa using d.drift.dir_ne_up)
  | @move p target heading hp _ ht _ =>
    intro q hq
    rw [slot_move hf.tied.size (Grid.contains_of_interior hp) (Grid.contains_of_step? ht)
      (Grid.contains_of_interior hq)]
    split
    · simp
    · split
      · simp
      · exact hf.level q hq

theorem Steps.live {f f' : Fall} (h : Steps f f') (hf : Live f) : Live f' := by
  induction h with
  | refl => exact hf
  | tail _ hstep ih => exact hstep.live ih

/-! ## Somebody does not wait -/

/-- How far a value that waits may look for one that does not: whole rows down, and places ahead in
    its own row. -/
def rank (g : Grid) (p : Pos) (heading : Dir) : Nat :=
  (g.height - p.y) * (g.width + 1) +
    match heading with
    | .right => g.width - p.x
    | .left => p.x
    | .up | .down => 0

theorem rank_beside_lt {g : Grid} {p : Pos} (hp : p ∈ g.interior) {heading other : Dir}
    (hheading : heading ≠ .up) (hother : other ≠ .up) (hne : other ≠ heading.opposite) :
    rank g (p.beside heading) other < rank g p heading := by
  have hin := Grid.mem_interior_iff.mp hp
  cases heading with
  | up => exact absurd rfl hheading
  | down =>
    -- A whole row counts more than any place in the next one.
    have hrows : g.height - p.y = g.height - (p.y + 1) + 1 := by omega
    have hmul := Nat.add_one_mul (g.height - (p.y + 1)) (g.width + 1)
    cases other <;> simp only [rank, Pos.beside, Pos.around] <;> rw [hrows] <;> omega
  | left =>
    cases other with
    | up => exact absurd rfl hother
    | right => exact absurd rfl hne
    | left | down => simp only [rank, Pos.beside, Pos.around]; omega
  | right =>
    cases other with
    | up => exact absurd rfl hother
    | left => exact absurd rfl hne
    | right | down => simp only [rank, Pos.beside, Pos.around]; omega

/-- Where a value moves, there is one that moves and does not wait. -/
theorem Live.exists_ready {f : Fall} (hf : Live f) {p : Pos} (hp : p ∈ f.grid.interior)
    {heading : Dir} (hs : f.slot p = .moving heading) :
    ∃ q ∈ f.grid.interior, ∃ e, f.slot q = .moving e ∧ ¬ f.Waits q := by
  induction hr : rank f.grid p heading using Nat.strong_induction_on generalizing p heading with
  | _ r ih =>
    by_cases hw : f.Waits p
    · obtain ⟨heading', other, hs', ho, hne⟩ := hw
      obtain rfl : heading' = heading := by
        rw [hs] at hs'
        exact (Slot.moving.inj hs').symm
      have hq : p.beside heading' ∈ f.grid.interior :=
        hf.interior (Grid.contains_beside hp heading') ho
      have hheading : heading' ≠ .up := fun h => hf.level p hp (h ▸ hs)
      have hother : other ≠ .up := fun h => hf.level _ hq (h ▸ ho)
      exact ih _ (hr ▸ rank_beside_lt hp hheading hother hne) hq ho rfl
    · exact ⟨p, hp, heading, hs, hw⟩

/-- A pass that meets a moving value makes a change. -/
theorem Live.progress {f : Fall} (hf : Live f) (hmet : f.pass.2 = true) :
    TransGen Orderly f f.pass.1 := by
  obtain ⟨p, hp, heading, hs⟩ := (pass_met f).mp hmet
  rcases pass_changes hf.tied with ⟨-, hwaits⟩ | hchange
  · obtain ⟨q, hq, e, hqs, hready⟩ := hf.exists_ready hp hs
    exact absurd (hwaits q hq e hqs) hready
  · exact hchange

/-- A pass that meets no moving value changes nothing. -/
theorem pass_of_not_met {f : Fall} (hf : Tied f) (hmet : f.pass.2 = false) : f.pass.1 = f := by
  rcases pass_changes hf with ⟨heq, -⟩ | hchange
  · exact heq
  · obtain ⟨f', horderly, -⟩ := TransGen.head'_iff.mp hchange
    have hsource : ∃ p ∈ f.grid.interior, ∃ heading, f.slot p = .moving heading := by
      cases horderly.step with
      | off hp hs | move hp hs | turn hp hs | stop hp hs | meet hp hs => exact ⟨_, hp, _, hs⟩
    rw [(pass_met f).mpr hsource] at hmet
    cases hmet

end Fall

/-! ## Changes left -/

namespace Slot

/-- Whether a value still tries to move. -/
def isMoving : Slot → Bool
  | .moving _ => true
  | .vacant | .fixed => false

/-- How often a value can still turn, move or come to rest. -/
def changes : Slot → Nat
  | .moving .down => 2
  | .moving _ => 1
  | .vacant | .fixed => 0

theorem changes_moving_pos (heading : Dir) : 1 ≤ (moving heading).changes := by
  cases heading <;> decide

theorem changes_moving_drift (d : Drift) : (moving d.dir).changes = 1 := by
  cases d <;> rfl

theorem changes_eq (s : Slot) :
    s.changes = (if s.isMoving then 1 else 0) + if decide (s = .moving .down) then 1 else 0 := by
  cases s with
  | vacant | fixed => rfl
  | moving heading => cases heading <;> rfl

end Slot

namespace Fall

open Relation (ReflTransGen TransGen)

/-- How many changes all values together can still make. -/
def pending (f : Fall) : Nat :=
  f.slots.countP Slot.isMoving + f.slots.countP fun s => decide (s = .moving .down)

theorem countP_setSlot (P : Slot → Bool) {f : Fall} (hsize : f.slots.size = f.grid.cells.size)
    {p : Pos} (hp : f.grid.contains p = true) (s : Slot) :
    (f.setSlot p s).slots.countP P + (if P (f.slot p) then 1 else 0) =
      f.slots.countP P + if P s then 1 else 0 := by
  have hlt : f.grid.index p < f.slots.size := hsize ▸ Grid.index_lt hp
  have hset : (f.setSlot p s).slots = f.slots.set (f.grid.index p) s hlt := by
    simp [setSlot, Array.setIfInBounds_def, hlt]
  have hslot : f.slot p = f.slots[f.grid.index p] := by
    simp [slot, hlt]
  have hle : (if P f.slots[f.grid.index p] then 1 else 0) ≤ f.slots.countP P :=
    Array.boole_getElem_le_countP hlt
  rw [hset, hslot, Array.countP_set hlt]
  omega

theorem pending_setSlot {f : Fall} (hsize : f.slots.size = f.grid.cells.size) {p : Pos}
    (hp : f.grid.contains p = true) (s : Slot) :
    pending (f.setSlot p s) + (f.slot p).changes = pending f + s.changes := by
  have hmoving := countP_setSlot Slot.isMoving hsize hp s
  have hdown := countP_setSlot (fun s => decide (s = .moving .down)) hsize hp s
  rw [Slot.changes_eq, Slot.changes_eq]
  unfold pending
  omega

theorem pending_move {f : Fall} (hsize : f.slots.size = f.grid.cells.size) {p target : Pos}
    (hp : f.grid.contains p = true) (ht : f.grid.contains target = true) (hne : p ≠ target)
    (hv : f.slot target = .vacant) :
    pending (f.move p target) + (f.slot p).changes = pending f := by
  let moved : Fall := { f with grid := f.grid.shift p target, moves := f.moves + 1 }
  have hm : moved.slots.size = moved.grid.cells.size := hsize.trans (Grid.size_shift _ _ _).symm
  have hm' : (moved.setSlot target .fixed).slots.size = moved.grid.cells.size :=
    Array.size_setIfInBounds.trans hm
  have htarget : pending (moved.setSlot target .fixed) + (f.slot target).changes = pending f + 0 :=
    pending_setSlot hm ht .fixed
  have hsource : pending (f.move p target) + ((moved.setSlot target .fixed).slot p).changes =
      pending (moved.setSlot target .fixed) + 0 := pending_setSlot hm' hp .vacant
  have hslot : (moved.setSlot target .fixed).slot p = f.slot p := by
    rw [slot_setSlot hm ht hp, if_neg hne]
    rfl
  rw [hslot] at hsource
  rw [hv] at htarget
  have hzero : Slot.vacant.changes = 0 := rfl
  omega

/-- Every change uses up one of the changes left. -/
theorem Step.pending_lt {f f' : Fall} (h : Step f f') (hf : Tied f) : pending f' < pending f := by
  have fix : ∀ {p heading}, p ∈ f.grid.interior → f.slot p = .moving heading →
      pending (f.setSlot p .fixed) < pending f := by
    intro p heading hp hs
    have hcount := pending_setSlot hf.size (Grid.contains_of_interior hp) .fixed
    have hpos := Slot.changes_moving_pos heading
    have hzero : Slot.fixed.changes = 0 := rfl
    rw [hs] at hcount
    omega
  cases h with
  | off hp hs | stop hp hs | meet hp hs => exact fix hp hs
  | @turn p target hp hs _ _ =>
    have hcontains := Grid.contains_of_interior hp
    obtain ⟨d, hd⟩ := hf.moving p .down hcontains hs
    have hcount := pending_setSlot hf.size hcontains (.moving d.drift.dir)
    have htwo : (Slot.moving .down).changes = 2 := rfl
    rw [hs, Slot.changes_moving_drift] at hcount
    rw [turn_eq hd]
    omega
  | @move p target heading hp hs ht hv =>
    have hne : p ≠ target := by
      rintro rfl
      rw [hs] at hv
      cases hv
    have hcount := pending_move hf.size (Grid.contains_of_interior hp) (Grid.contains_of_step? ht)
      hne hv
    have hpos := Slot.changes_moving_pos heading
    rw [hs] at hcount
    omega

theorem pending_lt_of_transGen {f f' : Fall} (h : TransGen Orderly f f') (hf : Tied f) :
    pending f' < pending f := by
  induction h with
  | single h => exact h.step.pending_lt hf
  | tail hpath h ih =>
    exact (h.step.pending_lt (Steps.tied (steps_of_orderly hpath.to_reflTransGen) hf)).trans ih

/-- At the start every value has two changes left. -/
theorem pending_start (g : Grid) : pending (start g) = 2 * g.cells.countP Cell.isData := by
  have hmoving : Slot.isMoving ∘ Slot.ofCell = Cell.isData := by
    funext c
    cases c <;> rfl
  have hdown : (fun s => decide (s = Slot.moving .down)) ∘ Slot.ofCell = Cell.isData := by
    funext c
    cases c <;> rfl
  unfold pending start
  rw [Array.countP_map, Array.countP_map, hmoving, hdown]
  omega

/-! ## The loop of passes -/

/-- A pass that meets a moving value, so that another one follows. -/
def Again (f f' : Fall) : Prop := f.pass = (f', true)

/-- The loop of passes, begun in `f`, ends in `f'` with its `k`-th pass. -/
inductive Ends : (k : Nat) → Fall → Fall → Prop
  | last {f f' : Fall} (h : f.pass = (f', false)) : Ends 1 f f'
  | again {k : Nat} {f f₁ f' : Fall} (h : Again f f₁) (next : Ends k f₁ f') : Ends (k + 1) f f'

/-- No value inside the ring moves any more. -/
def AtRest (f : Fall) : Prop := ∀ p ∈ f.grid.interior, ∀ heading, f.slot p ≠ .moving heading

theorem Ends.passes_eq {k : Nat} {f f' : Fall} (h : Ends k f f') {fuel : Nat} (hk : k ≤ fuel) :
    passes fuel f = f' := by
  induction h generalizing fuel with
  | last h =>
    obtain ⟨fuel, rfl⟩ : ∃ m, fuel = m + 1 := ⟨fuel - 1, by omega⟩
    simp only [passes, h, Bool.false_eq_true, if_false]
  | again h _ ih =>
    obtain ⟨fuel, rfl⟩ : ∃ m, fuel = m + 1 := ⟨fuel - 1, by omega⟩
    simp only [passes, show _ = _ from h, if_true]
    exact ih (by omega)

theorem Again.orderly {f f' : Fall} (h : Again f f') (hf : Live f) : TransGen Orderly f f' := by
  have hchange := hf.progress (congrArg Prod.snd h)
  rw [show f.pass.1 = f' from congrArg Prod.fst h] at hchange
  exact hchange

theorem live_of_orderly {f f' : Fall} (h : ReflTransGen Orderly f f') (hf : Live f) : Live f' :=
  Steps.live (steps_of_orderly h) hf

/-- Between two passes the phase is still one inside a closed ring. -/
theorem live_of_again {f f' : Fall} (h : ReflTransGen Again f f') (hf : Live f) : Live f' := by
  induction h with
  | refl => exact hf
  | tail _ hagain ih => exact live_of_orderly (hagain.orderly ih).to_reflTransGen ih

theorem Ends.orderly {k : Nat} {f f' : Fall} (h : Ends k f f') (hf : Live f) :
    ReflTransGen Orderly f f' ∧ AtRest f' := by
  induction h with
  | @last f f' h =>
    have hmet : f.pass.2 = false := congrArg Prod.snd h
    obtain rfl : f' = f := by
      rw [← pass_of_not_met hf.tied hmet, h]
    refine ⟨.refl, fun p hp heading hs => ?_⟩
    rw [(pass_met f').mpr ⟨p, hp, heading, hs⟩] at hmet
    cases hmet
  | again h _ ih =>
    have hpath := (h.orderly hf).to_reflTransGen
    obtain ⟨hrest, hend⟩ := ih (live_of_orderly hpath hf)
    exact ⟨hpath.trans hrest, hend⟩

/-- The loop ends, with one pass more than there are changes left at most. -/
theorem exists_ends {f : Fall} (hf : Live f) : ∃ k f', k ≤ pending f + 1 ∧ Ends k f f' := by
  induction hm : pending f using Nat.strong_induction_on generalizing f with
  | _ m ih =>
    cases hpass : f.pass with
    | mk f₁ met =>
      cases met with
      | false => exact ⟨1, f₁, by omega, .last hpass⟩
      | true =>
        have hchange := Again.orderly hpass hf
        have hlt := pending_lt_of_transGen hchange hf.tied
        obtain ⟨k, f', hk, hends⟩ :=
          ih (pending f₁) (hm ▸ hlt) (live_of_orderly hchange.to_reflTransGen hf) rfl
        exact ⟨k + 1, f', by omega, .again hpass hends⟩

end Fall

open Relation (ReflTransGen TransGen)

theorem Grid.hasData_iff (g : Grid) : g.hasData = true ↔ 1 ≤ g.cells.countP Cell.isData := by
  unfold Grid.hasData
  rw [Array.any_eq_true', Nat.one_le_iff_ne_zero, ← Nat.pos_iff_ne_zero, Array.countP_pos_iff]

/-- On a framed grid with a value the phase is the loop of passes, run to its end. -/
theorem settle_eq {g : Grid} (hf : g.Framed) (hd : g.hasData = true) :
    ∃ k f, k ≤ 2 * g.cells.countP Cell.isData + 1 ∧ Fall.Ends k (Fall.start g) f ∧
      settle g = (f.grid, .settled f.moves) := by
  obtain ⟨k, f, hk, hends⟩ := Fall.exists_ends (Fall.live_start hf)
  rw [Fall.pending_start] at hk
  refine ⟨k, f, hk, hends, ?_⟩
  unfold settle
  rw [if_pos hd, hends.passes_eq hk]

/-- The loop of the phase ends: between two passes, a pass that meets a moving value inside the ring
    makes a change and does not leave all slots as they were, and for `n` values the loop is over
    after `2 * n + 1` passes at most. -/
theorem settle_ends {g : Grid} (hf : g.Framed) {n : Nat} (hn : g.cells.countP Cell.isData = n)
    (hpos : 1 ≤ n) :
    (∀ f, ReflTransGen Fall.Again (Fall.start g) f →
      (f.pass.2 = true ↔ ∃ p ∈ f.grid.interior, ∃ heading, f.slot p = .moving heading) ∧
      (f.pass.2 = true → TransGen Fall.Step f f.pass.1 ∧ f.pass.1.slots ≠ f.slots)) ∧
    ∃ k f, k ≤ 2 * n + 1 ∧ Fall.Ends k (Fall.start g) f ∧
      settle g = (f.grid, .settled f.moves) := by
  constructor
  · intro f hreach
    have hlive := Fall.live_of_again hreach (Fall.live_start hf)
    refine ⟨Fall.pass_met f, fun hmet => ?_⟩
    have hchange := hlive.progress hmet
    have hlt := Fall.pending_lt_of_transGen hchange hlive.tied
    refine ⟨TransGen.mono (fun _ _ (h : Fall.Orderly _ _) => h.step) _ _ hchange, fun heq => ?_⟩
    unfold Fall.pending at hlt
    rw [heq] at hlt
    omega
  · have hd : g.hasData = true := g.hasData_iff.mpr (hn ▸ hpos)
    have hend := settle_eq hf hd
    rw [hn] at hend
    exact hend

/-- Two values in a row wait for each other and for a third one, below, that cannot move. -/
def queue : Grid :=
  ⟨5, 4,
    #[.border, .border, .border, .border, .border,
      .border, .data (.number 1), .data (.number 2), .empty, .border,
      .border, .border, .data (.number 3), .border, .border,
      .border, .border, .border, .border, .border], rfl⟩

theorem settle_ends_queue :
    queue.Framed ∧ queue.cells.countP Cell.isData = 3 ∧
      ∃ k f, k ≤ 7 ∧ Fall.Ends k (Fall.start queue) f ∧
        settle queue = (f.grid, .settled f.moves) :=
  have hf : queue.Framed := by decide
  have hn : queue.cells.countP Cell.isData = 3 := by decide
  ⟨hf, hn, (settle_ends hf hn (by decide)).2⟩

end Gridfall
