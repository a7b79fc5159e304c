/-
  How teleporters are paired. A value that enters a teleporter goes on from its partner, which is
  looked for cell by cell. Here the answer is given by the line ahead alone: `Grid.distances` are
  the numbers of steps at which there are teleporters inside the outermost ring, and the partner is
  at the least of them. Where there are none, there is no partner (`seeks_nearest`).

  The way back leads over the same places. A teleporter in between on the way back would have been
  in between on the way there, so a teleporter is the partner of its partner in the opposite
  direction (`Nearest.turn`).
-/
import Gridfall.Proofs.Routing.Termination
import Mathlib.Order.Bounds.Basic

namespace Gridfall

namespace Grid

variable {g : Grid} {p q : Pos} {d : Dir} {n : Nat}

/-! ## The nearest teleporter -/

/-- At how many steps from `p`, in the direction `d`, there is a teleporter inside the ring. -/
def distances (g : Grid) (p : Pos) (d : Dir) : Set Nat :=
  {n | 0 < n ∧ ∃ q ∈ g.interior, p.Ahead d n q ∧ g.get? q = some (.pipe .teleporter)}

/-- The nearest teleporter inside the ring, strictly ahead of `p`. -/
inductive Nearest (g : Grid) (p : Pos) (d : Dir) : Option Pos → Prop
  | absent (h : g.distances p d = ∅) : Nearest g p d none
  | present {n : Nat} {q : Pos} (hq : p.Ahead d n q) (hn : IsLeast (g.distances p d) n) :
      Nearest g p d (some q)

theorem Nearest.unique {a₁ a₂ : Option Pos} (h₁ : g.Nearest p d a₁) (h₂ : g.Nearest p d a₂) :
    a₁ = a₂ := by
  cases h₁ with
  | absent h =>
    cases h₂ with
    | absent => rfl
    | present _ hn => exact absurd hn.1 (h ▸ Set.notMem_empty _)
  | present hq hn =>
    cases h₂ with
    | absent h => exact absurd hn.1 (h ▸ Set.notMem_empty _)
    | present hq' hn' =>
      obtain rfl := hn.unique hn'
      rw [hq.unique hq']

/-- Before the ring there is no teleporter any more. -/
theorem distances_eq_empty (hp : p ∈ g.interior) (hq : p.Ahead d 1 q) (he : g.isEdge q = true) :
    g.distances p d = ∅ := by
  refine Set.eq_empty_of_forall_notMem ?_
  rintro n ⟨hn, r, hr, hpr, -⟩
  obtain ⟨k, rfl⟩ := Nat.exists_eq_add_of_le hn
  have hin := interior_between hp hr hq (hq.rest hpr)
  rw [(mem_interior.mp hin).2] at he
  cases he

/-- Over a cell that is no teleporter, all distances become less by one. -/
theorem succ_mem_distances (hq : p.Ahead d 1 q) (hc : g.get? q ≠ some (.pipe .teleporter)) :
    1 + n ∈ g.distances p d ↔ n ∈ g.distances q d := by
  constructor
  · rintro ⟨-, r, hr, hpr, ht⟩
    have hqr := hq.rest hpr
    refine ⟨Nat.pos_of_ne_zero ?_, r, hr, hqr, ht⟩
    rintro rfl
    have hsame : q.Ahead d 0 q := by constructor <;> simp
    exact hc (hsame.unique hqr ▸ ht)
  · rintro ⟨-, r, hr, hqr, ht⟩
    exact ⟨by omega, r, hr, hq.trans hqr, ht⟩

theorem Nearest.step {answer : Option Pos} (hq : p.Ahead d 1 q)
    (hc : g.get? q ≠ some (.pipe .teleporter)) (h : g.Nearest q d answer) :
    g.Nearest p d answer := by
  -- Every distance from `p` is positive, so it is one more than some number.
  have hsplit : ∀ n ∈ g.distances p d, ∃ k ∈ g.distances q d, n = 1 + k := by
    intro n hn
    obtain ⟨k, rfl⟩ := Nat.exists_eq_add_of_le hn.1
    exact ⟨k, (succ_mem_distances hq hc).mp hn, rfl⟩
  cases h with
  | absent h =>
    refine .absent (Set.eq_empty_of_forall_notMem fun n hn => ?_)
    obtain ⟨k, hk, -⟩ := hsplit n hn
    exact absurd hk (h ▸ Set.notMem_empty k)
  | present hr hn =>
    refine .present (hq.trans hr) ⟨(succ_mem_distances hq hc).mpr hn.1, fun m hm => ?_⟩
    obtain ⟨k, hk, rfl⟩ := hsplit m hm
    exact Nat.add_le_add_left (hn.2 hk) 1

/-- The look for a partner answers with the nearest teleporter. -/
theorem seeks_nearest {answer : Option Pos} (h : g.Seeks d p answer) (hp : p ∈ g.interior) :
    g.Nearest p d answer := by
  induction h with
  | off h =>
    rw [step?_interior hp] at h
    cases h
  | edge h he => exact .absent (distances_eq_empty hp (ahead_of_step? h) he)
  | found h he hc =>
    have hin := contains_of_step? h
    have hone := ahead_of_step? h
    refine .present hone ⟨⟨Nat.one_pos, _, mem_interior.mpr ⟨hin, he⟩, hone, ?_⟩, fun n hn => hn.1⟩
    rw [get?_of_contains hin, hc]
  | next h he hc _ ih =>
    have hin := contains_of_step? h
    refine .step (ahead_of_step? h) ?_ (ih (mem_interior.mpr ⟨hin, he⟩))
    rw [get?_of_contains hin]
    exact fun ht => hc (Option.some.inj ht)

theorem partner?_eq_iff (hp : p ∈ g.interior) {answer : Option Pos} :
    g.partner? p d = answer ↔ g.Nearest p d answer := by
  have hnearest : g.Nearest p d (g.partner? p d) := seeks_nearest (seeks_iff.mpr rfl) hp
  constructor
  · rintro rfl
    exact hnearest
  · intro h
    exact hnearest.unique h

/-! ## The way back -/

/-- Seen from the nearest teleporter, the nearest one on the way back is the one at its start. -/
theorem Nearest.turn (hp : p ∈ g.interior) (ht : g.get? p = some (.pipe .teleporter))
    (h : g.Nearest p d (some q)) : q ∈ g.interior ∧ g.Nearest q d.opposite (some p) := by
  cases h with
  | @present n _ hq hn =>
    obtain ⟨⟨hpos, r, hr, hpr, -⟩, hleast⟩ := hn
    obtain rfl := hq.unique hpr
    refine ⟨hr, .present hq.turn ⟨⟨hpos, p, hp, hq.turn, ht⟩, ?_⟩⟩
    rintro m ⟨hm, s, hs, hqs, hts⟩
    by_contra! hlt
    -- A teleporter `m` steps back from `q` would be `n - m` steps ahead of `p`, before `q`.
    obtain ⟨k, rfl⟩ := Nat.exists_eq_add_of_le hlt.le
    have hps : p.Ahead d k s := by
      simpa only [Dir.opposite_opposite] using (hqs.rest hq.turn).turn
    have hle : m + k ≤ k := hleast ⟨by omega, s, hs, hps, hts⟩
    omega

/-- How teleporters are paired, on every grid, closed ring or not. From a teleporter inside the
    outermost ring, in every direction, the look for a partner ends, and without its limit it would
    have the same answer. The answer is the nearest teleporter inside the ring that is strictly
    ahead, and no place if there is none before the ring. In the opposite direction, the partner of
    the partner is the teleporter itself. -/
theorem teleporters_pair (g : Grid) (p : Pos) (d : Dir) (hp : p ∈ g.interior)
    (ht : g.get? p = some (.pipe .teleporter)) :
    (∀ answer, g.Seeks d p answer ↔ answer = g.partner? p d) ∧
    (∀ answer, g.partner? p d = answer ↔ g.Nearest p d answer) ∧
    ∀ q, g.partner? p d = some q → g.partner? q d.opposite = some p := by
  refine ⟨fun answer => seeks_iff, fun answer => partner?_eq_iff hp, fun q hq => ?_⟩
  obtain ⟨hin, hback⟩ := ((partner?_eq_iff hp).mp hq).turn hp ht
  exact (partner?_eq_iff hin).mpr hback

/-- Three teleporters in a row, and one below the second behind a pipe. -/
def arcade : Grid :=
  ⟨7, 5,
    #[.border, .border, .border, .border, .border, .border, .border,
      .border, .pipe .teleporter, .empty, .pipe .teleporter, .empty, .pipe .teleporter, .border,
      .border, .empty, .empty, .pipe .horizontal, .empty, .empty, .border,
      .border, .empty, .empty, .pipe .teleporter, .empty, .empty, .border,
      .border, .border, .border, .border, .border, .border, .border], rfl⟩

/-- The teleporter in the middle of the row has a partner on each side and one below, but none
    above. The partner of the first in the row is the one in the middle, not the last. -/
theorem teleporters_pair_arcade :
    arcade.Framed ∧ ⟨3, 1⟩ ∈ arcade.interior ∧
    arcade.get? ⟨3, 1⟩ = some (.pipe .teleporter) ∧
    arcade.Nearest ⟨3, 1⟩ .right (some ⟨5, 1⟩) ∧ arcade.Nearest ⟨3, 1⟩ .down (some ⟨3, 3⟩) ∧
    arcade.Nearest ⟨3, 1⟩ .up none ∧ arcade.partner? ⟨3, 3⟩ .up = some ⟨3, 1⟩ ∧
    arcade.partner? ⟨1, 1⟩ .right = some ⟨3, 1⟩ := by
  have hp : ⟨3, 1⟩ ∈ arcade.interior := by decide
  have ht : arcade.get? ⟨3, 1⟩ = some (.pipe .teleporter) := by decide
  have hpair := fun d => teleporters_pair arcade ⟨3, 1⟩ d hp ht
  refine ⟨by decide, hp, ht, ?_, ?_, ?_, ?_, ?_⟩
  · exact ((hpair .right).2.1 _).mp rfl
  · exact ((hpair .down).2.1 _).mp rfl
  · exact ((hpair .up).2.1 _).mp rfl
  · exact (hpair .down).2.2 ⟨3, 3⟩ rfl
  · exact (hpair .left).2.2 ⟨1, 1⟩ rfl

end Grid

end Gridfall
