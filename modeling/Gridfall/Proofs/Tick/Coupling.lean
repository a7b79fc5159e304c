/-
  Two phases side by side, firing by firing. `Level Q k s s'` relates them by a relation `Q` of
  their routers; they have fired equally often, and the first has failed `k` times more. `Coupled`
  says that they have also consumed the same.

  A firing is attuned to `Q` if it computes the same in both phases and its placements keep the
  routers related (`Attuned`). Then performing it keeps the phases level (`Level.perform`). If the
  placements also succeed alike (`Matches`), it keeps them coupled (`Coupled.perform`). So do lists
  of such firings. The phases may be over two grids; coupled phases need grids of the same width.
-/
import Gridfall.Proofs.Routing.Walk
import Gridfall.Proofs.Tick.Firing

namespace Gridfall.Production

/-- Two phases with related routers that have fired equally often, the first with `k` more
    failures. -/
structure Level (Q : Router → Router → Prop) (k : Nat) (s s' : Production) : Prop where
  router : Q s.router s'.router
  fired : s'.fired = s.fired
  failed : s.failed = s'.failed + k

/-- Two level phases that have consumed the same. -/
structure Coupled (Q : Router → Router → Prop) (k : Nat) (s s' : Production) : Prop
    extends Level Q k s s' where
  stays : s'.stays = s.stays

/-- The firing computes the same over both grids, and neither this nor its placements break the
    relation of the routers. -/
structure Attuned (g g' : Grid) (Q : Router → Router → Prop) (f : Firing) : Prop where
  run : ∀ {r r' : Router}, Q r r' →
    (f.run g' r'.context).1 = (f.run g r.context).1 ∧
      Q (r.adopt (f.run g r.context).2) (r'.adopt (f.run g' r'.context).2)
  place : ∀ e ∈ f.sites, e.gives.isEmpty = false → ∀ (d : Option Datum) {r r' : Router}, Q r r' →
    Q (r.place d e.place e.dir f.op.code.overwrites).2
      (r'.place d e.place e.dir f.op.code.overwrites).2

/-- An attuned firing whose placements succeed alike. -/
structure Matches (g g' : Grid) (Q : Router → Router → Prop) (f : Firing) : Prop
    extends Attuned g g' Q f where
  flag : ∀ e ∈ f.sites, e.gives.isEmpty = false → ∀ (d : Option Datum) {r r' : Router}, Q r r' →
    (r'.place d e.place e.dir f.op.code.overwrites).1 =
      (r.place d e.place e.dir f.op.code.overwrites).1

variable {g g' : Grid} {Q : Router → Router → Prop} {k : Nat} {f : Firing} {s s' : Production}

theorem Attuned.runs (hf : Attuned g g' Q f) {r r' : Router} (h : Q r r') :
    ∃ answer ctx ctx', f.run g r.context = (answer, ctx) ∧ f.run g' r'.context = (answer, ctx') ∧
      Q (r.adopt ctx) (r'.adopt ctx') := by
  obtain ⟨hanswer, hrouter⟩ := hf.run h
  exact ⟨(f.run g r.context).1, (f.run g r.context).2, (f.run g' r'.context).2, rfl,
    Prod.ext hanswer rfl, hrouter⟩

/-! ## Placing -/

theorem Level.emit (hf : Attuned g g' Q f) (h : Level Q k s s') {e : Site} (he : e ∈ f.sites)
    (d : Option Datum) (placed placed' : Bool) :
    Level Q k (emit f.op.code.overwrites e.gives d e.place e.dir placed s).2
      (emit f.op.code.overwrites e.gives d e.place e.dir placed' s').2 := by
  unfold Production.emit
  split
  · exact h
  · next hgives => exact ⟨hf.place e he (by simpa using hgives) d h.router, h.fired, h.failed⟩

theorem Level.flag_emit (hf : Matches g g' Q f) (h : Level Q k s s') {e : Site} (he : e ∈ f.sites)
    (d : Option Datum) {placed placed' : Bool} (hplaced : placed' = placed) :
    (Production.emit f.op.code.overwrites e.gives d e.place e.dir placed' s').1 =
      (Production.emit f.op.code.overwrites e.gives d e.place e.dir placed s).1 := by
  unfold Production.emit
  split
  · exact hplaced
  · next hgives =>
    have hflag := hf.flag e he (by simpa using hgives) d h.router
    exact congrArg₂ or hplaced hflag

/-- Placing the results of a firing keeps the phases level, and succeeds alike if each placement
    does. -/
theorem Level.emitSites (hf : Attuned g g' Q f) (h : Level Q k s s') (outs : List (Option Datum)) :
    Level Q k (emitSites f outs s).2 (emitSites f outs s').2 ∧
      (Matches g g' Q f → (emitSites f outs s').1 = (emitSites f outs s).1) := by
  unfold Production.emitSites
  split
  · exact ⟨h, fun _ => rfl⟩
  · have hsites : ∀ e ∈ f.sites.zip outs, e.1 ∈ f.sites := fun e he => (List.of_mem_zip he).1
    have hflag : Matches g g' Q f → (false, s').1 = (false, s).1 := fun _ => rfl
    replace h : Level Q k (false, s).2 (false, s').2 := h
    generalize f.sites.zip outs = todo at hsites ⊢
    generalize (false, s) = acc, (false, s') = acc' at h hflag ⊢
    induction todo generalizing acc acc' with
    | nil => exact ⟨h, hflag⟩
    | cons e todo ih =>
      obtain ⟨he, htodo⟩ := List.forall_mem_cons.mp hsites
      exact ih htodo _ _ (h.emit hf he e.2 _ _) fun hm => h.flag_emit hm he e.2 (hflag hm)

/-! ## Performing -/

theorem Level.begun (h : Level Q k s s') {ctx ctx' : Context}
    (hrouter : Q (s.router.adopt ctx) (s'.router.adopt ctx')) :
    Level Q k (s.begun ctx) (s'.begun ctx') :=
  ⟨hrouter, congrArg (· + 1) h.fired, h.failed⟩

/-- An attuned firing keeps the phases level. -/
theorem Level.perform (hf : Attuned g g' Q f) (h : Level Q k s s') :
    Level Q k (perform g s f) (perform g' s' f) := by
  obtain ⟨_ | outs, ctx, ctx', hrun, hrun', hrouter⟩ := hf.runs h.router
  · rw [perform_of_none hrun, perform_of_none hrun']
    have hfailed : s.failed + 1 = s'.failed + 1 + k := by
      rw [h.failed, Nat.add_right_comm]
    exact ⟨hrouter, h.fired, hfailed⟩
  · obtain ⟨hemit, -⟩ := (h.begun hrouter).emitSites hf outs
    obtain ⟨stays, hperform⟩ := perform_eq_emitSites hrun
    obtain ⟨stays', hperform'⟩ := perform_eq_emitSites hrun'
    rw [hperform, hperform']
    exact ⟨hemit.router, hemit.fired, hemit.failed⟩

/-- A firing that matches keeps the phases coupled. -/
theorem Coupled.perform (hf : Matches g g' Q f) (hindex : g'.index = g.index)
    (h : Coupled Q k s s') : Coupled Q k (perform g s f) (perform g' s' f) := by
  refine ⟨h.toLevel.perform hf.toAttuned, ?_⟩
  obtain ⟨_ | outs, ctx, ctx', hrun, hrun', hrouter⟩ := hf.runs h.router
  · rw [perform_of_none hrun, perform_of_none hrun']
    exact h.stays
  · have hflag := ((h.toLevel.begun hrouter).emitSites hf.toAttuned outs).2 hf
    have hstays : (Production.emitSites f outs (s'.begun ctx')).2.stays =
        (Production.emitSites f outs (s.begun ctx)).2.stays := by
      rw [stays_emitSites, stays_emitSites]
      exact h.stays
    rcases hemit : Production.emitSites f outs (s.begun ctx) with ⟨placed, emitted⟩
    rcases hemit' : Production.emitSites f outs (s'.begun ctx') with ⟨placed', emitted'⟩
    rw [hemit, hemit'] at hflag hstays
    obtain rfl : placed' = placed := hflag
    rw [perform_of_some hrun hemit, perform_of_some hrun' hemit']
    split
    · have hstrike : strike g' f.sites = strike g f.sites := by
        funext stays
        unfold strike
        rw [hindex]
      rw [consumeSites_eq, consumeSites_eq, hstrike]
      exact congrArg (strike g f.sites) hstays
    · exact hstays

theorem Level.foldl {fs : List Firing} (hfs : ∀ f ∈ fs, Attuned g g' Q f) (h : Level Q k s s') :
    Level Q k (fs.foldl (Production.perform g) s) (fs.foldl (Production.perform g') s') := by
  induction fs generalizing s s' with
  | nil => exact h
  | cons f fs ih =>
    obtain ⟨hf, hfs⟩ := List.forall_mem_cons.mp hfs
    exact ih hfs (h.perform hf)

theorem Coupled.foldl {fs : List Firing} (hfs : ∀ f ∈ fs, Matches g g' Q f)
    (hindex : g'.index = g.index) (h : Coupled Q k s s') :
    Coupled Q k (fs.foldl (Production.perform g) s) (fs.foldl (Production.perform g') s') := by
  induction fs generalizing s s' with
  | nil => exact h
  | cons f fs ih =>
    obtain ⟨hf, hfs⟩ := List.forall_mem_cons.mp hfs
    exact ih hfs (h.perform hf hindex)

end Gridfall.Production
