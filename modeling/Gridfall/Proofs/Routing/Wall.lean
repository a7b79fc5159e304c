/-
  A border in the place of an operator. An operator that is not special takes no value in and lets
  none through: for a value on its way it is a wall. So a border may stand in its place, and a run
  stays what it was, hop by hop (`simulation_walled`). Hence placing agrees (`place_walled`), also
  for an operator that overwrites, as long as it does not aim at the wall.
-/
import Gridfall.Proofs.Routing.Simulation

namespace Gridfall

namespace Grid

/-- The cell at `p` is an operator, and not a special one. -/
def Plain (g : Grid) (p : Pos) : Prop :=
  ∃ op, g.get? p = some (.operator op) ∧ op.code.isSpecial = false

/-- The grid with a border at `p`. -/
def walled (g : Grid) (p : Pos) : Grid := g.set p .border

variable {g : Grid} {p : Pos} (hp : g.Plain p)
include hp

theorem Plain.contains : g.contains p = true := by
  obtain ⟨op, hop, -⟩ := hp
  exact contains_of_get? hop

theorem Plain.of_fills {g' : Grid} (h : g.Fills g') : g'.Plain p := by
  obtain ⟨op, hop, hspecial⟩ := hp
  exact ⟨op, (h.get?_operator p op).mpr hop, hspecial⟩

theorem get?_walled (q : Pos) :
    (g.walled p).get? q = if q = p then some .border else g.get? q :=
  get?_set hp.contains q .border

/-- Only the operator itself is lost to the eye. -/
theorem get?_walled_iff {q : Pos} {c : Cell} (hborder : c ≠ .border)
    (hop : ∀ op, c = .operator op → op.code.isSpecial = true) :
    (g.walled p).get? q = some c ↔ g.get? q = some c := by
  rw [get?_walled hp]
  split
  · next hq =>
    obtain ⟨op, hcell, hspecial⟩ := hp
    rw [hq, hcell, Option.some_inj, Option.some_inj]
    refine iff_of_false (Ne.symm hborder) fun h => ?_
    rw [hop op h.symm] at hspecial
    cases hspecial
  · rfl

theorem partner?_walled (q : Pos) (d : Dir) : (g.walled p).partner? q d = g.partner? q d := by
  have hw : (g.walled p).width = g.width := rfl
  have hh : (g.walled p).height = g.height := rfl
  exact partner?_congr hw hh (fun t => get?_walled_iff hp (by simp) (by simp)) q d

theorem hop_walled (q : Pos) (d : Dir) : (g.walled p).hop q d = g.hop q d := by
  have hcell := get?_walled hp q
  split at hcell
  · next hq =>
    obtain ⟨op, hop, hspecial⟩ := hp
    subst hq
    simp [Grid.hop, hcell, hop, hspecial]
  · have hleave : (g.walled p).leave = g.leave := rfl
    simp only [hop, hcell, partner?_walled hp, hleave]

/-- What is written elsewhere does not matter to the wall. -/
theorem walled_set {q : Pos} (hq : g.contains q = true) (hne : q ≠ p) (c : Cell) :
    (g.set q c).walled p = (g.walled p).set q c := by
  have hp := hp.contains
  refine ext_get? rfl rfl fun t => ?_
  unfold walled
  rw [get?_set (g := g.set q c) hp, get?_set hq, get?_set (g := g.set p .border) hq, get?_set hp]
  split_ifs with htp htq
  · exact absurd (htq.symm.trans htp) hne
  · rfl
  · rfl
  · rfl

end Grid

namespace Router

/-- The router with a border at `p`. -/
def walled (r : Router) (p : Pos) : Router := { r with grid := r.grid.walled p }

theorem write_walled {r : Router} {p q : Pos} (hp : r.grid.Plain p) (hq : r.grid.contains q = true)
    (hne : q ≠ p) (d : Datum) : (r.write q d).walled p = (r.walled p).write q d := by
  unfold walled write
  rw [Grid.walled_set hp hq hne]

/-- The one router with a border in the place of the operator is the other. -/
structure Walled (p : Pos) (r r' : Router) : Prop where
  plain : r.grid.Plain p
  same : r' = r.walled p

/-- Every turn of a walk keeps the border in the place of the operator. -/
theorem simulation_walled (p : Pos) : Simulation Eq (Walled p) where
  trail h := by rw [h.same]; rfl
  step? h q d := by rw [h.same]; rfl
  hop h q d := by
    rw [h.same]
    exact Grid.hop_walled h.plain q d
  vacant h q := by
    rw [h.same]
    exact Grid.get?_walled_iff h.plain (by simp) (by simp)
  routable h q := by
    rw [h.same, walled, Grid.get?_walled h.plain]
    split
    · next hq =>
      obtain ⟨op, hop, hspecial⟩ := h.plain
      rw [hq, hop]
      exact hspecial.symm
    · rfl
  enter h s := ⟨h.plain, by rw [h.same]; rfl⟩
  leave h s := ⟨h.plain, by rw [h.same]; rfl⟩
  drop {r r' e e'} h he q dir := by
    rw [← he]
    exact ⟨h.plain, by rw [h.same]; rfl⟩
  write {r r' e e' q} h he hempty := by
    refine ⟨h.plain.of_fills (.set hempty e), ?_⟩
    have hne : q ≠ p := by
      intro hq
      obtain ⟨op, hop, -⟩ := h.plain
      cases (hq ▸ hop).symm.trans hempty
    rw [h.same, ← he, write_walled h.plain (Grid.contains_of_get? hempty) hne]
  receive h he code := by
    rw [h.same, ← he]
    exact ⟨rel_refl _, h.plain, rfl⟩

/-- Placing is the same with a border in the place of the operator, unless it overwrites it. -/
theorem place_walled {r : Router} (hr : r.trail = []) {p : Pos} (hp : r.grid.Plain p)
    (d : Option Datum) {target : Pos} (dir : Dir) {overwrite : Bool}
    (haim : overwrite = true → target ≠ p) :
    (r.walled p).place d target dir overwrite =
      ((r.place d target dir overwrite).1, (r.place d target dir overwrite).2.walled p) := by
  cases overwrite with
  | false =>
    obtain ⟨hflag, hend⟩ :=
      (simulation_walled p).place ⟨hp, rfl⟩ hr (rel_refl d) target dir
    exact Prod.ext hflag hend.same
  | true =>
    have hne := haim rfl
    have hcell : (r.walled p).grid.get? target = r.grid.get? target := by
      rw [walled, Grid.get?_walled hp, if_neg hne]
    unfold place offer
    rw [hcell]
    cases d with
    | none => rfl
    | some d =>
      cases hc : r.grid.get? target with
      | none => rfl
      | some c =>
        have hwrite := write_walled hp (Grid.contains_of_get? hc) hne d
        exact congrArg (Prod.mk true) hwrite.symm

end Router

end Gridfall
