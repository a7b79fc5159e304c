/-
  Production seen from the cells, on grids without pipes and special operators.

  The phase visits operators and scatters what they emit. Here it is read the other way round: the
  list of invocations is fixed by the grid before the phase and by the console and the generator
  alone, and from that list each cell can tell what becomes of it. `produce_cellwise` says that both
  readings agree, in the next grid, in the report and in the context.

  * An empty cell takes the first attempt that is aimed at it.
  * A value is consumed if some consuming invocation asked for it and put something down; otherwise
    it is replaced by the last overwriting attempt that is aimed at it, or stays.
  * All other cells stay.

  An operator may also consume although it found no room for its results, if it writes them over
  other values (`ConsumedOver`). The letters name no such operator, so this is a case of its own.
-/
import Gridfall.Proofs.Operator.Conform
import Gridfall.Proofs.Symbols
import Gridfall.Proofs.Tick.Attempt

namespace Gridfall

/-! ## Invocations -/

/-- A firing with what came of it: the values that it tries to place, or nothing if its computation
    failed. -/
structure Invocation where
  firing : Firing
  result : Option (List Attempt)

namespace Invocation

/-- The computation succeeded. -/
def succeeded (i : Invocation) : Bool := i.result.isSome

/-- The values that the invocation tries to place, in order. -/
def attempts (i : Invocation) : List Attempt := i.result.getD []

/-- The invocation asks something of the cell at `q`. -/
def Asks (i : Invocation) (q : Pos) : Prop :=
  ∃ s ∈ i.firing.sites, s.asks.isEmpty = false ∧ s.place = q

end Invocation

/-- The attempts of a list of invocations, in order. -/
def attemptsOf (invocations : List Invocation) : List Attempt :=
  invocations.flatMap Invocation.attempts

/-- The attempt at a site with the result of the computation there, if the signature yields to
    it. -/
def Site.attempt? (overwrite : Bool) (e : Site × Option Datum) : Option Attempt :=
  if e.1.gives.isEmpty then none else e.2.map fun d => ⟨e.1.place, d, overwrite⟩

/-- The attempts of a firing with the results `outs` of its computation. -/
def Firing.attempts (f : Firing) (outs : List (Option Datum)) : List Attempt :=
  (f.sites.zip outs).filterMap (Site.attempt? f.op.code.overwrites)

/-- The invocations of a list of firings, with the context handed on from one to the next. -/
def invoke (g : Grid) : List Firing → Context → List Invocation × Context
  | [], ctx => ([], ctx)
  | f :: fs, ctx =>
    let (outs, ctx) := f.run g ctx
    let (rest, ctx) := invoke g fs ctx
    (⟨f, outs.map f.attempts⟩ :: rest, ctx)

/-- The invocations of a production phase. -/
def invocations (g : Grid) (ctx : Context) : List Invocation × Context :=
  invoke g (Production.allFirings g) ctx

/-- After the invocations `before`, the invocation puts something down: its signature yields
    nothing, or one of its attempts is the first at an empty cell. -/
def Invocation.PutsDown (g : Grid) (before : List Invocation) (i : Invocation) : Prop :=
  i.firing.sig.yieldsNothing = true ∨
    ∃ a ∈ i.attempts, g.get? a.target = some .empty ∧ ∀ b ∈ attemptsOf before, b.target ≠ a.target

/-- One of the attempts of the invocation overwrites. -/
def Invocation.WritesOver (i : Invocation) : Prop := ∃ a ∈ i.attempts, a.overwrite = true

/-- A consuming invocation asked for the cell at `q`, succeeded and put something down. -/
def ConsumedBy (g : Grid) (invocations : List Invocation) (q : Pos) : Prop :=
  ∃ before i after, invocations = before ++ i :: after ∧ i.succeeded = true ∧
    i.firing.op.consumes = true ∧ i.Asks q ∧ i.PutsDown g before

/-- A consuming invocation asked for the cell at `q`, succeeded and wrote over a value. -/
def ConsumedOver (invocations : List Invocation) (q : Pos) : Prop :=
  ∃ i ∈ invocations, i.succeeded = true ∧ i.firing.op.consumes = true ∧ i.Asks q ∧ i.WritesOver

/-- The value of the cell at `q` is consumed, in one way or the other. -/
def Consumed (g : Grid) (invocations : List Invocation) (q : Pos) : Prop :=
  ConsumedBy g invocations q ∨ ConsumedOver invocations q

/-! ## What one firing places -/

/-- Whether any of the attempts `new` lands, one after the other, after the attempts `before`. -/
def Attempt.anyLands (g : Grid) : (before new : List Attempt) → Bool
  | _, [] => false
  | before, a :: new => a.lands g before || anyLands g (before ++ [a]) new

/-- If a later attempt would be the first but for an earlier one of the same list, then the earlier
    one is the first. -/
theorem Attempt.anyLands_iff {g : Grid} {before new : List Attempt} :
    anyLands g before new = true ↔
      (∃ a ∈ new, g.get? a.target = some .empty ∧ ∀ b ∈ before, b.target ≠ a.target) ∨
        ∃ a ∈ new, a.overwrite = true := by
  induction new generalizing before with
  | nil => simp [anyLands]
  | cons a new ih =>
    have hlands : a.lands g before = true ↔
        (g.get? a.target = some .empty ∧ ∀ b ∈ before, b.target ≠ a.target) ∨
          a.overwrite = true := by
      simp [lands, isFirst, aims, or_comm]
    rw [anyLands, Bool.or_eq_true_iff, ih, hlands, List.exists_mem_cons_iff,
      List.exists_mem_cons_iff]
    constructor
    · rintro ((h | ho) | ⟨a', ha', hempty, hfirst⟩ | ho)
      · exact .inl (.inl h)
      · exact .inr (.inl ho)
      · exact .inl (.inr ⟨a', ha', hempty, fun b hb => hfirst b (List.mem_append_left _ hb)⟩)
      · exact .inr (.inr ho)
    · rintro ((h | ⟨a', ha', hempty, hfirst⟩) | ho | ho)
      · exact .inl (.inl h)
      · by_cases hsame : a.target = a'.target
        · refine .inl (.inl ⟨hsame ▸ hempty, ?_⟩)
          rw [hsame]
          exact hfirst
        · refine .inr (.inl ⟨a', ha', hempty, fun b hb => ?_⟩)
          rcases List.mem_append.mp hb with hb | hb
          · exact hfirst b hb
          · rw [List.mem_singleton.mp hb]
            exact hsame
      · exact .inl (.inr ho)
      · exact .inr (.inr ho)

namespace Production

variable {g : Grid} {before : List Attempt}

/-- Placing the results of a computation adds its attempts to the picture. -/
theorem foldl_emit_draws (hf : g.Framed) (hu : g.Unrouted) {overwrite : Bool}
    {todo : List (Site × Option Datum)} (hyields : ∀ e ∈ todo, e.1.gives.Yields e.2)
    (hback : ∀ e ∈ todo, ∀ a, Site.attempt? overwrite e = some a → a.Backed g)
    {s : Production} (h : s.router.Draws g before) (placed : Bool) :
    ∃ r, todo.foldl (fun acc e => emit overwrite e.1.gives e.2 e.1.place e.1.dir acc.1 acc.2)
        (placed, s) =
        (placed || Attempt.anyLands g before (todo.filterMap (Site.attempt? overwrite)),
          { s with router := r }) ∧
      r.Draws g (before ++ todo.filterMap (Site.attempt? overwrite)) ∧
      r.context = s.router.context := by
  induction todo generalizing before s placed with
  | nil =>
    refine ⟨s.router, ?_, ?_, rfl⟩
    · simp [Attempt.anyLands]
    · simpa using h
  | cons e todo ih =>
    obtain ⟨hyield, hyields⟩ := List.forall_mem_cons.mp hyields
    obtain ⟨hbacked, hback⟩ := List.forall_mem_cons.mp hback
    rw [List.foldl_cons]
    cases hgives : e.1.gives.isEmpty with
    | true =>
      have hnone : Site.attempt? overwrite e = none := by simp [Site.attempt?, hgives]
      have hemit : emit overwrite e.1.gives e.2 e.1.place e.1.dir placed s = (placed, s) := by
        simp [emit, hgives]
      rw [hemit, List.filterMap_cons_none hnone]
      exact ih hyields hback h placed
    | false =>
      obtain ⟨d, hd⟩ := Option.isSome_iff_exists.mp (hyield.isSome hgives)
      let a : Attempt := ⟨e.1.place, d, overwrite⟩
      have hsome : Site.attempt? overwrite e = some a := by simp [Site.attempt?, hgives, hd, a]
      obtain ⟨hlands, hdraws, hctx⟩ := Router.place_draws hf hu h (hbacked a hsome) e.1.dir
      have hemit : emit overwrite e.1.gives e.2 e.1.place e.1.dir placed s =
          (placed || a.lands g before,
            { s with
              router := (s.router.place (some a.datum) a.target e.1.dir a.overwrite).2 }) := by
        rw [← hlands, hd]
        simp [emit, hgives, a]
      rw [hemit, List.filterMap_cons_some hsome]
      obtain ⟨r, hfold, hr, hctx'⟩ := ih (s := { s with
        router := (s.router.place (some a.datum) a.target e.1.dir a.overwrite).2 })
        hyields hback hdraws (placed || a.lands g before)
      refine ⟨r, ?_, ?_, hctx'.trans hctx⟩
      · rw [hfold, Attempt.anyLands, Bool.or_assoc]
      · rw [List.append_assoc] at hr
        exact hr

theorem attempts_of_yieldsNothing {f : Firing} (h : f.sig.yieldsNothing = true)
    (outs : List (Option Datum)) : f.attempts outs = [] := by
  have hgives : ∀ site ∈ f.sites, site.gives.isEmpty = true := by
    intro site hsite
    have hslot : site.gives ∈ f.sig.yields.toList := (List.of_mem_zip (Firing.mem_slots hsite)).2
    exact List.all_eq_true.mp h site.gives hslot
  refine List.filterMap_eq_nil_iff.mpr fun e he => ?_
  rw [Site.attempt?, if_pos (hgives e.1 (List.of_mem_zip he).1)]

/-- The attempts of a firing are backed by values where they overwrite. -/
theorem backed_of_attempt? {f : Firing} (hc : f.Chosen g) {e : Site × Option Datum}
    (he : e.1 ∈ f.sites) {a : Attempt} (ha : Site.attempt? f.op.code.overwrites e = some a) :
    a.Backed g := by
  unfold Site.attempt? at ha
  split at ha
  · cases ha
  · next hgives =>
    obtain ⟨d, -, rfl⟩ := Option.map_eq_some_iff.mp ha
    intro ho
    exact datum_of_overwrites hc ho he (by simpa using hgives)

theorem emitSites_draws (hf : g.Framed) (hu : g.Unrouted) {f : Firing} (hc : f.Chosen g)
    {outs : List (Option Datum)} (hyields : ∀ e ∈ f.sites.zip outs, e.1.gives.Yields e.2)
    {s : Production} (h : s.router.Draws g before) :
    ∃ placed r, emitSites f outs s = (placed, { s with router := r }) ∧
      (placed = true ↔ (f.sig.yieldsNothing = true ∨ ∃ a ∈ f.attempts outs,
          g.get? a.target = some .empty ∧ ∀ b ∈ before, b.target ≠ a.target) ∨
        ∃ a ∈ f.attempts outs, a.overwrite = true) ∧
      r.Draws g (before ++ f.attempts outs) ∧ r.context = s.router.context := by
  cases hnothing : f.sig.yieldsNothing with
  | true =>
    refine ⟨true, s.router, ?_, by simp, ?_, rfl⟩
    · rw [emitSites, if_pos hnothing]
    · rw [attempts_of_yieldsNothing hnothing, List.append_nil]
      exact h
  | false =>
    obtain ⟨r, hfold, hr, hctx⟩ := foldl_emit_draws hf hu hyields
      (fun e he a ha => backed_of_attempt? hc (List.of_mem_zip he).1 ha) h false
    refine ⟨Attempt.anyLands g before (f.attempts outs), r, ?_, ?_, hr, hctx⟩
    · rw [emitSites, hnothing, if_neg (by simp), hfold, Bool.false_or]
      rfl
    · rw [Attempt.anyLands_iff]
      simp

/-! ## What one firing consumes -/

/-- Whether the value of the cell at `q` is to be consumed. -/
def gone (g : Grid) (stays : Array Bool) (q : Pos) : Bool := !stays[g.index q]?.getD true

theorem gone_set {stays : Array Bool} (hsize : stays.size = g.cells.size) {p q : Pos}
    (hp : g.contains p = true) (hq : g.contains q = true) :
    gone g (stays.setIfInBounds (g.index p) false) q = true ↔ gone g stays q = true ∨ p = q := by
  have hlt : g.index p < stays.size := hsize ▸ Grid.index_lt hp
  unfold gone
  rcases eq_or_ne p q with rfl | hne
  · rw [Array.getElem?_setIfInBounds_self_of_lt hlt]
    simp
  · rw [Array.getElem?_setIfInBounds_ne fun hi => hne (Grid.index_inj hp hq hi)]
    simp [hne]

theorem gone_strike {sites : List Site}
    (hsites : ∀ e ∈ sites, e.asks.isEmpty = false → g.contains e.place = true) {stays : Array Bool}
    (hsize : stays.size = g.cells.size) :
    (strike g sites stays).size = g.cells.size ∧
      ∀ q, g.contains q = true → (gone g (strike g sites stays) q = true ↔
        gone g stays q = true ∨ ∃ e ∈ sites, e.asks.isEmpty = false ∧ e.place = q) := by
  induction sites generalizing stays with
  | nil => exact ⟨hsize, fun q _ => by simp [strike]⟩
  | cons e sites ih =>
    obtain ⟨he, hsites⟩ := List.forall_mem_cons.mp hsites
    cases hasks : e.asks.isEmpty with
    | true =>
      have hstrike : strike g (e :: sites) stays = strike g sites stays := by
        simp [strike, hasks]
      obtain ⟨hsize', hgone⟩ := ih hsites hsize
      rw [hstrike]
      refine ⟨hsize', fun q hq => ?_⟩
      rw [hgone q hq]
      simp [hasks]
    | false =>
      have hstrike : strike g (e :: sites) stays =
          strike g sites (stays.setIfInBounds (g.index e.place) false) := by
        simp [strike, hasks]
      obtain ⟨hsize', hgone⟩ := ih hsites (Array.size_setIfInBounds.trans hsize)
      rw [hstrike]
      refine ⟨hsize', fun q hq => ?_⟩
      rw [hgone q hq, gone_set hsize (he hasks) hq]
      simp [hasks, or_assoc]

theorem datum_of_asked {f : Firing} (hc : f.Chosen g) {e : Site} (he : e ∈ f.sites)
    (hasks : e.asks.isEmpty = false) : ∃ d, g.get? e.place = some (.data d) := by
  obtain ⟨d, hd, -⟩ := exists_of_fits (hc.fits e he) hasks
  exact ⟨d, Grid.datum?_eq_some_iff.mp hd⟩

theorem contains_of_asked {f : Firing} (hc : f.Chosen g) {e : Site} (he : e ∈ f.sites)
    (hasks : e.asks.isEmpty = false) : g.contains e.place = true := by
  obtain ⟨d, hd⟩ := datum_of_asked hc he hasks
  exact Grid.contains_of_get? hd

end Production

/-! ## One invocation after the other -/

theorem attemptsOf_append (before : List Invocation) (i : Invocation) :
    attemptsOf (before ++ [i]) = attemptsOf before ++ i.attempts := by
  simp [attemptsOf]

theorem consumedBy_append {g : Grid} {invocations : List Invocation} {i : Invocation} {q : Pos} :
    ConsumedBy g (invocations ++ [i]) q ↔ ConsumedBy g invocations q ∨
      i.succeeded = true ∧ i.firing.op.consumes = true ∧ i.Asks q ∧ i.PutsDown g invocations := by
  constructor
  · rintro ⟨before, j, after, hsplit, hj⟩
    -- The consuming invocation is the last one, or it stands before the last one.
    rcases List.eq_nil_or_concat after with rfl | ⟨after, last, rfl⟩
    · obtain ⟨rfl, hlast⟩ := List.append_inj' hsplit rfl
      cases List.singleton_inj.mp hlast
      exact .inr hj
    · have hsplit : invocations ++ [i] = (before ++ j :: after) ++ [last] := by
        rw [hsplit]
        simp
      obtain ⟨hsplit, -⟩ := List.append_inj' hsplit rfl
      exact .inl ⟨before, j, after, hsplit, hj⟩
  · rintro (⟨before, j, after, rfl, hj⟩ | hi)
    · exact ⟨before, j, after ++ [i], by simp, hj⟩
    · exact ⟨invocations, i, [], rfl, hi⟩

theorem consumedOver_append {invocations : List Invocation} {i : Invocation} {q : Pos} :
    ConsumedOver (invocations ++ [i]) q ↔ ConsumedOver invocations q ∨
      i.succeeded = true ∧ i.firing.op.consumes = true ∧ i.Asks q ∧ i.WritesOver := by
  simp [ConsumedOver, or_and_right, exists_or]

theorem consumed_append {g : Grid} {invocations : List Invocation} {i : Invocation} {q : Pos} :
    Consumed g (invocations ++ [i]) q ↔ Consumed g invocations q ∨
      i.succeeded = true ∧ i.firing.op.consumes = true ∧ i.Asks q ∧
        (i.PutsDown g invocations ∨ i.WritesOver) := by
  rw [Consumed, Consumed, consumedBy_append, consumedOver_append, or_or_or_comm]
  simp only [and_or_left]

namespace Production

/-- A phase that has come as far as the invocations say. -/
structure Tracks (g : Grid) (invocations : List Invocation) (s : Production) : Prop where
  draws : s.router.Draws g (attemptsOf invocations)
  size : s.stays.size = g.cells.size
  gone : ∀ q, g.contains q = true → (gone g s.stays q = true ↔ Consumed g invocations q)
  fired : s.fired = invocations.countP Invocation.succeeded
  failed : s.failed = invocations.countP fun i => !i.succeeded

variable {invocations : List Invocation} {s : Production} {f : Firing}

/-- A failed computation changes no cell and consumes nothing. -/
theorem Tracks.failure (h : Tracks g invocations s) (ctx : Context) :
    Tracks g (invocations ++ [⟨f, none⟩])
      { s with router := { s.router with context := ctx }, failed := s.failed + 1 } := by
  have hattempts : attemptsOf (invocations ++ [⟨f, none⟩]) = attemptsOf invocations := by
    rw [attemptsOf_append]
    exact List.append_nil _
  have hdraws := h.draws
  refine ⟨?_, h.size, fun q hq => ?_, ?_, ?_⟩
  · rw [hattempts]
    exact ⟨hdraws.width, hdraws.height, hdraws.cell, hdraws.writes⟩
  · rw [consumed_append, ← h.gone q hq]
    simp [Invocation.succeeded]
  · rw [List.countP_append, ← h.fired]
    rfl
  · rw [List.countP_append, ← h.failed]
    rfl

section

variable {r : Router} {ctx : Context} {attempts : List Attempt} (h : Tracks g invocations s)
  (hr : r.Draws g (attemptsOf invocations ++ attempts))
include h hr

theorem Tracks.counts :
    r.Draws g (attemptsOf (invocations ++ [⟨f, some attempts⟩])) ∧
      s.fired + 1 = List.countP Invocation.succeeded (invocations ++ [⟨f, some attempts⟩]) ∧
      s.failed = List.countP (fun i => !i.succeeded) (invocations ++ [⟨f, some attempts⟩]) := by
  refine ⟨?_, ?_, ?_⟩
  · rw [attemptsOf_append]
    exact hr
  · rw [List.countP_append, ← h.fired]
    rfl
  · rw [List.countP_append, ← h.failed]
    rfl

/-- A computation that succeeds consumes nothing if its operator keeps its inputs or if it neither
    put anything down nor wrote over a value. -/
theorem Tracks.keep (hnot : ¬ (f.op.consumes = true ∧
      (Invocation.PutsDown g invocations ⟨f, some attempts⟩ ∨
        Invocation.WritesOver ⟨f, some attempts⟩))) :
    Tracks g (invocations ++ [⟨f, some attempts⟩]) { s.begun ctx with router := r } := by
  obtain ⟨hdraws, hfired, hfailed⟩ := h.counts (f := f) hr
  refine ⟨hdraws, h.size, fun q hq => ?_, hfired, hfailed⟩
  rw [consumed_append, ← h.gone q hq]
  refine (or_iff_left ?_).symm
  rintro ⟨-, hcons, -, hputs⟩
  exact hnot ⟨hcons, hputs⟩

/-- Otherwise it consumes what it asked for. -/
theorem Tracks.consume (hc : f.Chosen g) (hcons : f.op.consumes = true)
    (hputs : Invocation.PutsDown g invocations ⟨f, some attempts⟩ ∨
      Invocation.WritesOver ⟨f, some attempts⟩) :
    Tracks g (invocations ++ [⟨f, some attempts⟩])
        (consumeSites g f { s.begun ctx with router := r }) ∧
      (consumeSites g f { s.begun ctx with router := r }).router = r := by
  obtain ⟨hdraws, hfired, hfailed⟩ := h.counts (f := f) hr
  obtain ⟨hsize, hgone⟩ := gone_strike (fun e => contains_of_asked hc (e := e)) h.size
  rw [consumeSites_eq]
  refine ⟨⟨hdraws, hsize, fun q hq => ?_, hfired, hfailed⟩, rfl⟩
  refine (hgone q hq).trans ?_
  rw [consumed_append]
  refine or_congr (h.gone q hq) ?_
  constructor
  · intro hasks
    exact ⟨rfl, hcons, hasks, hputs⟩
  · rintro ⟨-, -, hasks, -⟩
    exact hasks

end

/-- Where nothing is routed, no stamp fires. -/
theorem code_ne_tickStamp (hu : g.Unrouted) (hc : f.Chosen g) : f.op.code ≠ .tickStamp := by
  obtain ⟨p, hp⟩ := hc.home
  intro hcode
  have hroutable := hu p _ hp
  rw [Cell.isRoutable, hcode] at hroutable
  cases hroutable

/-- A computation that succeeds places its attempts and consumes what it asked for if it put
    something down. -/
theorem perform_of_succeeded (hf : g.Framed) (hu : g.Unrouted) (hc : f.Chosen g)
    (h : Tracks g invocations s) {outs : List (Option Datum)} {ctx : Context}
    (hrun : f.run g s.router.context = (some outs, ctx)) :
    Tracks g (invocations ++ [⟨f, some (f.attempts outs)⟩]) (perform g s f) ∧
      (perform g s f).router.context = ctx := by
  have hbegun : (s.begun ctx).router.Draws g (attemptsOf invocations) :=
    ⟨h.draws.width, h.draws.height, h.draws.cell, h.draws.writes⟩
  obtain ⟨placed, r, hemit, hplaced, hr, hctx⟩ := emitSites_draws hf hu hc
    (Firing.run_conforms hc (code_ne_tickStamp hu hc) hrun)
    (s := s.begun ctx) hbegun
  have hputs : placed = true ↔
      Invocation.PutsDown g invocations ⟨f, some (f.attempts outs)⟩ ∨
        Invocation.WritesOver ⟨f, some (f.attempts outs)⟩ := hplaced
  rw [perform_of_some hrun hemit]
  split
  · next hboth =>
    obtain ⟨hp, hcons⟩ := Bool.and_eq_true_iff.mp hboth
    obtain ⟨htracks, hrouter⟩ := h.consume hr hc hcons (hputs.mp hp)
    exact ⟨htracks, (congrArg Router.context hrouter).trans hctx⟩
  · next hnot =>
    refine ⟨h.keep hr ?_, hctx⟩
    rintro ⟨hcons, hp⟩
    exact hnot (by rw [hputs.mpr hp, hcons]; rfl)

/-- A firing adds its invocation and hands its context on. -/
theorem perform_tracks (hf : g.Framed) (hu : g.Unrouted) (hc : f.Chosen g)
    (h : Tracks g invocations s) :
    Tracks g (invocations ++ [⟨f, (f.run g s.router.context).1.map f.attempts⟩]) (perform g s f) ∧
      (perform g s f).router.context = (f.run g s.router.context).2 := by
  rcases hrun : f.run g s.router.context with ⟨_ | outs, ctx⟩
  · rw [perform_of_none hrun]
    exact ⟨h.failure ctx, rfl⟩
  · exact perform_of_succeeded hf hu hc h hrun

/-- Firings one after the other add their invocations. -/
theorem foldl_perform_tracks (hf : g.Framed) (hu : g.Unrouted) {fs : List Firing}
    (hfs : ∀ f ∈ fs, f.Chosen g) (h : Tracks g invocations s) :
    Tracks g (invocations ++ (invoke g fs s.router.context).1) (fs.foldl (perform g) s) ∧
      (fs.foldl (perform g) s).router.context = (invoke g fs s.router.context).2 := by
  induction fs generalizing invocations s with
  | nil => exact ⟨by simpa [invoke] using h, rfl⟩
  | cons f fs ih =>
    obtain ⟨hc, hfs⟩ := List.forall_mem_cons.mp hfs
    obtain ⟨hstep, hctx⟩ := perform_tracks hf hu hc h
    obtain ⟨hrest, hctx'⟩ := ih hfs hstep
    rw [hctx] at hrest hctx'
    rw [List.foldl_cons]
    refine ⟨?_, hctx'⟩
    rw [List.append_assoc] at hrest
    exact hrest

theorem tracks_start (g : Grid) (ctx : Context) : Tracks g [] (start g ctx) := by
  have hdraws : (start g ctx).router.Draws g [] :=
    ⟨rfl, rfl, fun q => (g.drawn_nil q).symm, g.tally_nil.symm⟩
  refine ⟨hdraws, Array.size_replicate, fun q hq => ?_, rfl, rfl⟩
  have hstays : gone g (start g ctx).stays q = false := by
    simp [gone, start, Grid.index_lt hq]
  rw [hstays]
  simp [Consumed, ConsumedBy, ConsumedOver]

/-- The phase after its last firing has come as far as all its invocations say. -/
theorem ended_tracks (hf : g.Framed) (hu : g.Unrouted) (ctx : Context) :
    Tracks g (Gridfall.invocations g ctx).1 (ended g ctx) ∧
      (ended g ctx).router.context = (Gridfall.invocations g ctx).2 :=
  foldl_perform_tracks hf hu (fun _ hf => chosen_of_mem hf) (tracks_start g ctx)

/-! ## Emptying what was consumed -/

/-- Whether the cell at `p` is to be emptied. -/
def isCleared (stays : Array Bool) (g : Grid) (p : Pos) : Bool :=
  gone g stays p && (g.cellAt p).isData

theorem clear_eq (stays : Array Bool) (g : Grid) (n : Nat) (p : Pos) :
    clear stays (g, n) p =
      if isCleared stays g p then (g.set p .empty, n + 1) else (g, n) := rfl

theorem isCleared_set {stays : Array Bool} {p q : Pos}
    (hp : g.contains p = true) (hq : g.contains q = true) (hne : q ≠ p) (c : Cell) :
    isCleared stays (g.set p c) q = isCleared stays g q := by
  have hcell : (g.set p c).cellAt q = g.cellAt q := by
    refine Grid.cellAt_of_get? ?_
    rw [Grid.get?_set_ne hp hne, Grid.get?_of_contains hq]
  rw [isCleared, isCleared, hcell]
  rfl

/-- Emptying touches exactly the cells to be emptied, and counts them. -/
theorem foldl_clear (stays : Array Bool) {ps : List Pos} (hnodup : ps.Nodup)
    (hps : ∀ p ∈ ps, g.contains p = true) (n : Nat) :
    let cleared := ps.foldl (clear stays) (g, n)
    cleared.1.width = g.width ∧ cleared.1.height = g.height ∧
      (∀ q, cleared.1.get? q =
        if q ∈ ps ∧ isCleared stays g q = true then some .empty else g.get? q) ∧
      cleared.2 = n + ps.countP (isCleared stays g) := by
  induction ps generalizing g n with
  | nil => simp
  | cons p ps ih =>
    obtain ⟨hp, hps⟩ := List.forall_mem_cons.mp hps
    obtain ⟨hnotin, hnodup⟩ := List.nodup_cons.mp hnodup
    dsimp only
    rw [List.foldl_cons, clear_eq]
    cases hclear : isCleared stays g p with
    | false =>
      obtain ⟨hw, hh, hcell, hcount⟩ := ih hnodup hps n
      refine ⟨hw, hh, fun q => ?_, ?_⟩
      · rw [if_neg (by simp), hcell q]
        rcases eq_or_ne q p with rfl | hne
        · simp [hclear]
        · simp [hne]
      · rw [if_neg (by simp), hcount, List.countP_cons, hclear]
        rfl
    | true =>
      have hsame : ∀ q ∈ ps, isCleared stays (g.set p .empty) q = isCleared stays g q := by
        intro q hq
        exact isCleared_set hp (hps q hq) (fun e => hnotin (e ▸ hq)) .empty
      obtain ⟨hw, hh, hcell, hcount⟩ := ih (g := g.set p .empty) hnodup hps (n + 1)
      rw [if_pos rfl]
      refine ⟨hw, hh, fun q => ?_, ?_⟩
      · rw [hcell q, Grid.get?_set hp]
        rcases eq_or_ne q p with rfl | hne
        · simp [hclear, hnotin]
        · by_cases hq : q ∈ ps
          · simp [hne, hq, hsame q hq]
          · simp [hne, hq]
      · rw [hcount, List.countP_cons, hclear, if_pos rfl,
          List.countP_congr fun q hq => by rw [hsame q hq]]
        omega

end Production

/-! ## The phase as a whole -/

theorem mem_invoke {g : Grid} {fs : List Firing} {ctx : Context} {i : Invocation}
    (hi : i ∈ (invoke g fs ctx).1) :
    i.firing ∈ fs ∧
      ∃ outs : Option (List (Option Datum)), i.result = outs.map i.firing.attempts := by
  induction fs generalizing ctx with
  | nil => cases hi
  | cons f fs ih =>
    rcases List.mem_cons.mp hi with rfl | hi
    · exact ⟨List.mem_cons_self, _, rfl⟩
    · obtain ⟨hmem, hresult⟩ := ih hi
      exact ⟨List.mem_cons_of_mem f hmem, hresult⟩

theorem chosen_of_mem_invocations {g : Grid} {ctx : Context} {i : Invocation}
    (hi : i ∈ (invocations g ctx).1) : i.firing.Chosen g :=
  Production.chosen_of_mem (mem_invoke hi).1

/-- Only values are asked for. -/
theorem Invocation.Asks.datum {g : Grid} {ctx : Context} {i : Invocation}
    (hi : i ∈ (invocations g ctx).1) {q : Pos} (h : i.Asks q) :
    ∃ d, g.get? q = some (.data d) := by
  obtain ⟨e, he, hasks, rfl⟩ := h
  exact Production.datum_of_asked (chosen_of_mem_invocations hi) he hasks

/-- Only values are consumed. -/
theorem Consumed.datum {g : Grid} {ctx : Context} {q : Pos}
    (h : Consumed g (invocations g ctx).1 q) : ∃ d, g.get? q = some (.data d) := by
  rcases h with ⟨before, i, after, hsplit, -, -, hasks, -⟩ | ⟨i, hi, -, -, hasks, -⟩
  · have hi : i ∈ (invocations g ctx).1 := by
      rw [hsplit]
      exact List.mem_append_right before List.mem_cons_self
    exact hasks.datum hi
  · exact hasks.datum hi

/-! ## Operators that overwrite and consume -/

/-- No letter names an operator that overwrites and consumes. -/
theorem Operator.Named.overwrites {op : Operator} (h : op.Named)
    (hconsumes : op.consumes = true) : op.code.overwrites = false := by
  obtain ⟨ch, h⟩ := h
  obtain ⟨code, -, rfl⟩ := Option.map_eq_some_iff.mp h
  have hpeeks : code.alwaysPeeks = false := by
    simp [Operator.consumes] at hconsumes
    exact hconsumes.2
  cases code with
  | redirect | swap => cases hpeeks
  | _ => rfl

theorem overwrite_of_mem_attempts {f : Firing} {outs : List (Option Datum)} {a : Attempt}
    (ha : a ∈ f.attempts outs) : a.overwrite = f.op.code.overwrites := by
  obtain ⟨e, -, he⟩ := List.mem_filterMap.mp ha
  unfold Site.attempt? at he
  split at he
  · cases he
  · obtain ⟨d, -, rfl⟩ := Option.map_eq_some_iff.mp he
    rfl

/-- A consuming operator that a letter names does not write over values. -/
theorem not_writesOver {g : Grid} {ctx : Context} {i : Invocation}
    (hi : i ∈ (invocations g ctx).1) (hnamed : i.firing.op.Named)
    (hconsumes : i.firing.op.consumes = true) : ¬ i.WritesOver := by
  rintro ⟨a, ha, ho⟩
  obtain ⟨-, outs, hresult⟩ := mem_invoke hi
  rw [Invocation.attempts, hresult] at ha
  cases outs with
  | none => cases ha
  | some outs =>
    rw [overwrite_of_mem_attempts ha, hnamed.overwrites hconsumes] at ho
    cases ho

theorem Grid.Named.not_consumedOver {g : Grid} (hg : g.Named) (ctx : Context) (q : Pos) :
    ¬ ConsumedOver (invocations g ctx).1 q := by
  rintro ⟨i, hi, -, hconsumes, -, hover⟩
  obtain ⟨p, hp⟩ := (chosen_of_mem_invocations hi).home
  have hnamed : i.firing.op.Named := hg p _ hp
  exact not_writesOver hi hnamed hconsumes hover

/-! ## The next grid -/

section

variable {g : Grid} (hf : g.Framed) (hu : g.Unrouted) (ctx : Context)
include hf hu

theorem isCleared_iff {q : Pos} (hq : g.contains q = true) :
    Production.isCleared (Production.ended g ctx).stays (Production.ended g ctx).router.grid q
      = true ↔ Consumed g (invocations g ctx).1 q := by
  obtain ⟨htracks, -⟩ := Production.ended_tracks hf hu ctx
  have hdraws := htracks.draws
  have hindex : (Production.ended g ctx).router.grid.index q = g.index q := by
    rw [Grid.index, Grid.index, hdraws.width]
  have hgone := htracks.gone q hq
  rw [Production.isCleared, Production.gone, hindex, ← Production.gone, Bool.and_eq_true_iff, hgone]
  refine and_iff_left_of_imp fun hconsumed => ?_
  -- A value is covered by values only, so there is still one to be consumed.
  obtain ⟨d, hd⟩ := hconsumed.datum
  have hcell : (Production.ended g ctx).router.grid.get? q =
      some (.data ((((attemptsOf (invocations g ctx).1).reverse.find? (Attempt.covers q)).map
        Attempt.datum).getD d)) := by
    rw [hdraws.cell, Grid.drawn, hd]
  rw [Grid.cellAt_of_get? hcell]
  rfl

theorem contains_ended (q : Pos) :
    (Production.ended g ctx).router.grid.contains q = g.contains q := by
  have hdraws := (Production.ended_tracks hf hu ctx).1.draws
  rw [Grid.contains, hdraws.width, hdraws.height]
  rfl

/-- The next grid, cell by cell. -/
theorem cleared_cellwise :
    (Production.cleared g ctx).1.width = g.width ∧
      (Production.cleared g ctx).1.height = g.height ∧
      (∀ q ∈ g.interior, Consumed g (invocations g ctx).1 q →
        (Production.cleared g ctx).1.get? q = some .empty) ∧
      (∀ q, ¬ Consumed g (invocations g ctx).1 q →
        (Production.cleared g ctx).1.get? q = g.drawn (attemptsOf (invocations g ctx).1) q) ∧
      (Production.cleared g ctx).2 = g.interior.countP
        (Production.isCleared (Production.ended g ctx).stays
          (Production.ended g ctx).router.grid) := by
  have hdraws := (Production.ended_tracks hf hu ctx).1.draws
  have hinside : ∀ q ∈ g.interior, (Production.ended g ctx).router.grid.contains q = true := by
    intro q hq
    rw [contains_ended hf hu ctx q]
    exact (Grid.mem_interior.mp hq).1
  obtain ⟨hw, hh, hcell, hcount⟩ := Production.foldl_clear (Production.ended g ctx).stays
    g.nodup_interior hinside 0
  refine ⟨hw.trans hdraws.width, hh.trans hdraws.height, fun q hq hconsumed => ?_,
    fun q hkept => ?_, hcount.trans (Nat.zero_add _)⟩
  · have hclear := (isCleared_iff hf hu ctx (Grid.mem_interior.mp hq).1).mpr hconsumed
    rw [Production.cleared, hcell q, if_pos ⟨hq, hclear⟩]
  · rw [Production.cleared, hcell q, if_neg, hdraws.cell]
    rintro ⟨hq, hclear⟩
    exact hkept ((isCleared_iff hf hu ctx (Grid.mem_interior.mp hq).1).mp hclear)

/-- A value that is not consumed is not empty after the phase. -/
theorem cleared_eq_empty_iff {q : Pos} {d : Datum} (hq : g.get? q = some (.data d)) :
    (Production.cleared g ctx).1.get? q = some .empty ↔ Consumed g (invocations g ctx).1 q := by
  obtain ⟨-, -, hconsumed, hkept, -⟩ := cleared_cellwise hf hu ctx
  constructor
  · intro hempty
    by_contra hnot
    rw [hkept q hnot, Grid.drawn, hq] at hempty
    cases hempty
  · exact hconsumed q (hf.interior hq (by simp))

/-- The values that are counted as consumed are those that are gone. -/
theorem cleared_count :
    (Production.cleared g ctx).2 =
      g.data.countP fun e => decide ((Production.cleared g ctx).1.get? e.1 = some .empty) := by
  obtain ⟨-, -, -, -, hcount⟩ := cleared_cellwise hf hu ctx
  rw [hcount, Grid.data, List.countP_filterMap]
  refine List.countP_congr fun q hq => ?_
  rw [isCleared_iff hf hu ctx (Grid.mem_interior.mp hq).1]
  constructor
  · intro hconsumed
    obtain ⟨d, hd⟩ := hconsumed.datum
    have hempty := (cleared_eq_empty_iff hf hu ctx hd).mpr hconsumed
    rw [Grid.datum?_eq_some_iff.mpr hd]
    simpa using hempty
  · intro hany
    cases hd : g.datum? q with
    | none =>
      rw [hd] at hany
      cases hany
    | some d =>
      rw [hd] at hany
      have hempty : (Production.cleared g ctx).1.get? q = some .empty := by simpa using hany
      exact (cleared_eq_empty_iff hf hu ctx (Grid.datum?_eq_some_iff.mp hd)).mp hempty

end

/-- On a framed grid without pipes and special operators, production is what the cells read off the
    list of invocations. A value is consumed by an invocation that puts something down, or else by
    one that writes over values; the second takes an operator that no letter names. -/
theorem produce_cellwise (g : Grid) (hf : g.Framed) (hu : g.Unrouted) (ctx : Context) :
    let invs := (invocations g ctx).1
    let attempts := attemptsOf invs
    let next := (produce g ctx).1
    let report := (produce g ctx).2.1
    (next.width = g.width ∧ next.height = g.height) ∧
    (∀ q, g.get? q = some .empty →
      next.get? q =
        some (((attempts.find? fun a => a.target == q).map fun a => .data a.datum).getD .empty)) ∧
    (∀ q d, g.get? q = some (.data d) →
      (next.get? q = some .empty ↔ ConsumedBy g invs q ∨ ConsumedOver invs q) ∧
      (¬ (ConsumedBy g invs q ∨ ConsumedOver invs q) → next.get? q = some (.data
        (((attempts.reverse.find? fun a => a.overwrite && a.target == q).map
          Attempt.datum).getD d)))) ∧
    (∀ q c, g.get? q = some c → c ≠ .empty → (∀ d, c ≠ .data d) → next.get? q = some c) ∧
    report.fired = invs.countP Invocation.succeeded ∧
    report.failed = invs.countP (fun i => !i.succeeded) ∧
    report.writes = g.tally attempts ∧
    report.consumed = g.data.countP (fun e => decide (next.get? e.1 = some .empty)) ∧
    report.halt = (invocations g ctx).2.halt ∧
    (produce g ctx).2.2 = (invocations g ctx).2 ∧
    (∀ i ∈ invs, i.firing.op.Named → i.firing.op.consumes = true → ¬ i.WritesOver) ∧
    (g.Named → ∀ q, ¬ ConsumedOver invs q) := by
  obtain ⟨htracks, hctx⟩ := Production.ended_tracks hf hu ctx
  obtain ⟨hw, hh, -, hkept, -⟩ := cleared_cellwise hf hu ctx
  have hcell : ∀ q c, g.get? q = some c → (∀ d, c ≠ .data d) →
      (Production.cleared g ctx).1.get? q = g.drawn (attemptsOf (invocations g ctx).1) q := by
    intro q c hq hc
    refine hkept q fun hconsumed => ?_
    obtain ⟨d, hd⟩ := hconsumed.datum
    rw [hq] at hd
    exact hc d (Option.some.inj hd)
  rw [produce_eq]
  refine ⟨⟨hw, hh⟩, ?_, ?_, ?_, htracks.fired, htracks.failed, htracks.draws.writes,
    cleared_count hf hu ctx, congrArg Context.halt hctx, hctx,
    fun i hi hnamed hconsumes => not_writesOver hi hnamed hconsumes,
    fun hnamed q => hnamed.not_consumedOver ctx q⟩
  · intro q hq
    dsimp only
    rw [hcell q .empty hq (by simp), Grid.drawn, hq]
    rfl
  · intro q d hq
    refine ⟨cleared_eq_empty_iff hf hu ctx hq, fun hnot => ?_⟩
    dsimp only
    rw [hkept q hnot, Grid.drawn, hq]
    rfl
  · intro q c hq he hd
    dsimp only
    rw [hcell q c hq hd, Grid.drawn_of_fixed hq he hd]

/-- Two operators aim at one empty cell: the upper one has a five above it, the lower one a seven to
    its left. -/
def contended : Grid :=
  ⟨5, 5,
    #[.border, .border, .border, .border, .border,
      .border, .empty, .empty, .data (.number 5), .border,
      .border, .empty, .empty, .operator (.ofCode .not), .border,
      .border, .data (.number 7), .operator (.ofCode .lower), .empty, .border,
      .border, .border, .border, .border, .border], rfl⟩

/-- The first of the two gets the cell, and its input is consumed. -/
theorem produce_cellwise_contended :
    contended.Framed ∧ contended.Unrouted ∧
      let phase := produce contended ⟨{}, ⟨0⟩, 0, none, #[]⟩
      phase.1.get? ⟨3, 3⟩ = some (.data (.number 0)) ∧ phase.1.get? ⟨3, 1⟩ = some .empty ∧
        phase.2.1.fired = 2 ∧ phase.2.1.writes = 1 := by
  have hf : contended.Framed := by decide
  have hu : contended.Unrouted := by decide
  obtain ⟨-, hempty, hdata, -, hfired, -, hwrites, -⟩ :=
    produce_cellwise contended hf hu ⟨{}, ⟨0⟩, 0, none, #[]⟩
  refine ⟨hf, hu, hempty ⟨3, 3⟩ rfl, (hdata ⟨3, 1⟩ _ rfl).1.mpr (.inl ?_), hfired, hwrites⟩
  refine ⟨[], _, _, rfl, rfl, rfl, ?_, ?_⟩
  · exact ⟨_, List.mem_cons_self, rfl, rfl⟩
  · exact .inr ⟨_, List.mem_cons_self, rfl, by simp [attemptsOf]⟩

/-- A redirection that consumes, with a five above it and a seven to its left. -/
def overrun : Grid :=
  ⟨4, 4,
    #[.border, .border, .border, .border,
      .border, .empty, .data (.number 5), .border,
      .border, .data (.number 7), .operator ⟨.redirect, false⟩, .border,
      .border, .border, .border, .border], rfl⟩

/-- The five is consumed although its operator put nothing down: the only attempt is aimed at the
    seven. -/
theorem consumed_without_room :
    let ctx : Context := ⟨{}, ⟨0⟩, 0, none, #[]⟩
    overrun.Framed ∧ overrun.Unrouted ∧ overrun.get? ⟨2, 1⟩ = some (.data (.number 5)) ∧
      (produce overrun ctx).1.get? ⟨2, 1⟩ = some .empty ∧
      ¬ ConsumedBy overrun (invocations overrun ctx).1 ⟨2, 1⟩ := by
  intro ctx
  refine ⟨by decide, by decide, by decide, by decide +kernel, ?_⟩
  obtain ⟨i, hone, hyields, a, hattempts, hfull⟩ :
      ∃ i, (invocations overrun ctx).1 = [i] ∧ i.firing.sig.yieldsNothing = false ∧
        ∃ a, i.attempts = [a] ∧ overrun.get? a.target ≠ some .empty :=
    ⟨_, rfl, rfl, _, rfl, by decide⟩
  rintro ⟨before, j, after, hsplit, -, -, -, hputs⟩
  have hj : j = i := by
    have hmem : j ∈ (invocations overrun ctx).1 := by
      rw [hsplit]
      exact List.mem_append_right _ List.mem_cons_self
    rw [hone] at hmem
    exact List.mem_singleton.mp hmem
  subst hj
  rcases hputs with hnothing | ⟨b, hb, hempty, -⟩
  · rw [hyields] at hnothing
    cases hnothing
  · rw [hattempts] at hb
    rw [List.mem_singleton.mp hb] at hempty
    exact hfull hempty

end Gridfall
