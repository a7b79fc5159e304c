/-
  One production phase in two contexts. If the contexts are related by what operators keep
  (`Context.Kept`), the phase does the same in both: it leaves the same grid and the same counts,
  and contexts that are related again (`produce_twin`). The grid must not hold an operator that
  reads or draws where the relation does not cover that (`Grid.Admits`).

  The context of a router is replaced with `adopt`, so that "the same but for the context" is an
  equation. A value on its way meets its context only in special operators, so a run in the one
  context is a run in the other, state by state (`simulation_adopted`). Hence placing agrees
  (`place_adopt`), every firing matches (`matches_twin`) and the whole phase agrees (`twin_ended`).
-/
import Gridfall.Proofs.Routing.Simulation
import Gridfall.Proofs.Routing.Termination
import Gridfall.Proofs.Tick.Coupling

namespace Gridfall

open Context (Kept)

variable {reads draws : Bool} {R : Context → Context → Prop}

/-! ## Placing -/

namespace Router

/-- The same router in a related context. -/
structure Adopted (R : Context → Context → Prop) (r r' : Router) : Prop where
  same : r' = r.adopt r'.context
  context : R r.context r'.context

/-- Every turn of a walk is the same in related contexts, and keeps them related. -/
theorem simulation_adopted (hR : Kept reads draws R) : Simulation Eq (Adopted R) where
  trail h := by rw [h.same]; rfl
  step? h p d := by rw [h.same]; rfl
  hop h p d := by rw [h.same]; rfl
  vacant h p := by rw [h.same]; rfl
  routable h p := by rw [h.same]; rfl
  enter h s := ⟨by rw [h.same]; rfl, h.context⟩
  leave h s := ⟨by rw [h.same]; rfl, h.context⟩
  drop {r r' d d'} h he p dir := by
    rw [← he]
    exact ⟨by rw [h.same]; rfl, hR.note _ h.context⟩
  write {r r' d d' p} h he _ := by
    rw [← he]
    exact ⟨by rw [h.same]; rfl, h.context⟩
  receive {r r' d d'} h he code := by
    obtain ⟨hanswer, hreceived⟩ := Operator.receive_alike hR code d h.context
    rw [← he, hanswer]
    exact ⟨rel_refl _, by rw [h.same]; rfl, hreceived⟩

/-- Placing does the same in related contexts. -/
theorem place_adopt (hR : Kept reads draws R) {r : Router} (hr : r.trail = []) {ctx : Context}
    (hctx : R r.context ctx) (d : Option Datum) (target : Pos) (dir : Dir) (overwrite : Bool) :
    ∃ ctx', (r.adopt ctx).place d target dir overwrite =
        ((r.place d target dir overwrite).1, (r.place d target dir overwrite).2.adopt ctx') ∧
      R (r.place d target dir overwrite).2.context ctx' := by
  cases overwrite with
  | false =>
    have hstart : Adopted R r (r.adopt ctx) := ⟨rfl, hctx⟩
    obtain ⟨hflag, hend⟩ := (simulation_adopted hR).place hstart hr (rel_refl d) target dir
    exact ⟨((r.adopt ctx).place d target dir false).2.context, Prod.ext hflag hend.same,
      hend.context⟩
  | true =>
    cases d with
    | none => exact ⟨ctx, rfl, hctx⟩
    | some d =>
      simp only [place, offer, grid_adopt]
      cases r.grid.get? target with
      | none => exact ⟨ctx, rfl, hctx⟩
      | some c => exact ⟨ctx, rfl, hctx⟩

/-- The same router in a related context, with no value on its way. -/
structure Twin (R : Context → Context → Prop) (r r' : Router) : Prop where
  same : r' = r.adopt r'.context
  context : R r.context r'.context
  idle : r.trail = []

theorem Twin.place (hR : Kept reads draws R) {r r' : Router} (h : Twin R r r') (d : Option Datum)
    (target : Pos) (dir : Dir) (overwrite : Bool) :
    (r'.place d target dir overwrite).1 = (r.place d target dir overwrite).1 ∧
      Twin R (r.place d target dir overwrite).2 (r'.place d target dir overwrite).2 := by
  obtain ⟨ctx, hplace, hctx⟩ := place_adopt hR h.idle h.context d target dir overwrite
  rw [h.same, hplace]
  exact ⟨rfl, rfl, hctx, trail_place h.idle d target dir overwrite⟩

end Router

open Router (Twin)

/-! ## Phases -/

/-- Grids whose operators read only if `reads` and draw only if `draws`. -/
def Grid.Admits (reads draws : Bool) (g : Grid) : Prop :=
  ∀ p op, g.get? p = some (.operator op) →
    (op.code.reads = true → reads = true) ∧ (op.code.draws = true → draws = true)

namespace Production

/-- A firing whose operator neither reads nor draws unduly does the same in related contexts. -/
theorem matches_twin (hR : Kept reads draws R) (g : Grid) {f : Firing}
    (hreads : f.op.code.reads = true → reads = true)
    (hdraws : f.op.code.draws = true → draws = true) : Matches g g (Twin R) f where
  run {r r'} h := by
    obtain ⟨hanswer, hnext⟩ := Firing.run_alike hR g hreads hdraws h.context
    refine ⟨hanswer, ?_, hnext, h.idle⟩
    rw [h.same]
    rfl
  place e _ _ d _ _ h := (h.place hR d e.place e.dir f.op.code.overwrites).2
  flag e _ _ d _ _ h := (h.place hR d e.place e.dir f.op.code.overwrites).1

theorem twin_ended (hR : Kept reads draws R) {g : Grid} (hg : g.Admits reads draws)
    {a b : Context} (h : R a b) : Coupled (Twin R) 0 (ended g a) (ended g b) := by
  have hmatches : ∀ f ∈ allFirings g, Matches g g (Twin R) f := by
    intro f hf
    obtain ⟨p, hp⟩ := (chosen_of_mem hf).home
    obtain ⟨hreads, hdraws⟩ := hg p f.op hp
    exact matches_twin hR g hreads hdraws
  have hstart : Coupled (Twin R) 0 (start g a) (start g b) := ⟨⟨⟨rfl, h, rfl⟩, rfl, rfl⟩, rfl⟩
  exact hstart.foldl hmatches rfl

end Production

/-- A phase in two related contexts leaves the same grid, the same counts and related contexts. -/
theorem produce_twin (hR : Kept reads draws R) {g : Grid} (hg : g.Admits reads draws)
    {a b : Context} (h : R a b) :
    (produce g b).1 = (produce g a).1 ∧
      (produce g b).2.1 = { (produce g a).2.1 with halt := (produce g b).2.2.halt } ∧
      R (produce g a).2.2 (produce g b).2.2 := by
  have hended := Production.twin_ended hR hg h
  have hsame := hended.router.same
  have hgrid := congrArg Router.grid hsame
  have hwrites := congrArg Router.writes hsame
  have hcleared : Production.cleared g b = Production.cleared g a := by
    unfold Production.cleared
    rw [hended.stays, hgrid]
    rfl
  rw [produce_eq, produce_eq, hcleared]
  refine ⟨rfl, ?_, hended.router.context⟩
  dsimp only
  rw [hended.fired, hended.failed, hwrites]
  rfl

end Gridfall
