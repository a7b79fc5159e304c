/-
  The account of a production phase, on grids without the two operators that overwrite. Values come
  from writes and go by consumption, and nothing else happens to them: the data cells after the
  phase and the consumed ones are as many as the data cells before and the writes
  (`production_accounts`).

  `Production.Writes g ctx q v` says that `v` is written at `q` at some moment of the phase. Without
  overwriting every placement fills empty cells, and then so do the placements of a firing and the
  firings of the phase, one after the other (`takes_foldl_iff`): what was written is there when the
  last operator has fired. Consumption comes after that and is of cells that held a value before the
  phase (`Marked`), so what was written stays.
-/
import Gridfall.Proofs.Noninterference
import Gridfall.Proofs.Routing.Atomic
import Gridfall.Proofs.Routing.Writes
import Gridfall.Proofs.Tick.Cellwise
import Gridfall.Proofs.Tick.Quiet

namespace Gridfall

/-! ## One step after the other -/

/-- One of the steps does it, after the steps before it. -/
def Happens {σ α : Type} (step : σ → α → σ) (does : σ → α → Prop) (l : List α) (s : σ) : Prop :=
  ∃ before a after, l = before ++ a :: after ∧ does (before.foldl step s) a

section

variable {σ α : Type} {step : σ → α → σ} {does : σ → α → Prop}

theorem not_happens_nil (s : σ) : ¬ Happens step does [] s := by
  rintro ⟨before, a, after, hsplit, -⟩
  simp at hsplit

theorem happens_cons_iff {a : α} {l : List α} {s : σ} :
    Happens step does (a :: l) s ↔ does s a ∨ Happens step does l (step s a) := by
  constructor
  · rintro ⟨before, a', after, hsplit, hdoes⟩
    cases before with
    | nil =>
      cases hsplit
      exact .inl hdoes
    | cons b before =>
      cases hsplit
      exact .inr ⟨before, a', after, rfl, hdoes⟩
  · rintro (hdoes | ⟨before, a', after, rfl, hdoes⟩)
    · exact ⟨[], a, l, rfl, hdoes⟩
    · exact ⟨a :: before, a', after, rfl, hdoes⟩

instance Happens.decidable [∀ s a, Decidable (does s a)] :
    (l : List α) → (s : σ) → Decidable (Happens step does l s)
  | [], s => isFalse (not_happens_nil s)
  | a :: l, s =>
    have := Happens.decidable l (step s a)
    decidable_of_iff' _ happens_cons_iff

end

/-- If every step fills empty cells and writes what its grid takes, then all steps together write
    what the grid takes from the first to the last. -/
theorem Grid.takes_foldl_iff {σ α : Type} {grid : σ → Grid} {step : σ → α → σ}
    {Writes : Pos → Datum → σ → α → Prop} {Good : σ → Prop} {l : List α}
    (hstep : ∀ a ∈ l, ∀ s, Good s → Good (step s a) ∧ (grid s).Fills (grid (step s a)) ∧
      ∀ q v, Writes q v s a ↔ (grid s).Takes (grid (step s a)) q v) {s : σ} (hs : Good s) :
    Good (l.foldl step s) ∧ (grid s).Fills (grid (l.foldl step s)) ∧
      ∀ q v, Happens step (Writes q v) l s ↔ (grid s).Takes (grid (l.foldl step s)) q v := by
  induction l generalizing s with
  | nil =>
    exact ⟨hs, .refl _, fun q v =>
      iff_of_false (not_happens_nil s) (Grid.not_takes_self _ q v)⟩
  | cons a l ih =>
    obtain ⟨hgood, hfills, hwrites⟩ := hstep a List.mem_cons_self s hs
    obtain ⟨hend, hrest, htakes⟩ := ih (fun b hb => hstep b (List.mem_cons_of_mem a hb)) hgood
    refine ⟨hend, hfills.trans hrest, fun q v => ?_⟩
    rw [happens_cons_iff, hwrites, htakes, List.foldl_cons, hfills.takes_iff hrest]

/-! ## The writes of a phase -/

/-- A placement writes `v` at `q`. -/
def Router.PlaceWrites (r : Router) (d : Option Datum) (target : Pos) (dir : Dir) (overwrite : Bool)
    (q : Pos) (v : Datum) : Prop :=
  if overwrite then r.grid.contains target = true ∧ q = target ∧ d = some v
  else Writes true (.offer d target dir) r q v

namespace Production

/-- Places what goes to one site. -/
def emitSite (overwrite : Bool) (acc : Bool × Production) (e : Site × Option Datum) :
    Bool × Production :=
  emit overwrite e.1.gives e.2 e.1.place e.1.dir acc.1 acc.2

/-- Placing what goes to a site writes `v` at `q`. -/
def SiteWrites (overwrite : Bool) (q : Pos) (v : Datum) (acc : Bool × Production)
    (e : Site × Option Datum) : Prop :=
  e.1.gives.isEmpty = false ∧
    acc.2.router.PlaceWrites e.2 e.1.place e.1.dir overwrite q v

/-- Placing the results of a firing writes `v` at `q`. -/
def SitesWrite (f : Firing) (outs : List (Option Datum)) (s : Production) (q : Pos) (v : Datum) :
    Prop :=
  f.sig.yieldsNothing = false ∧
    Happens (emitSite f.op.code.overwrites) (SiteWrites f.op.code.overwrites q v)
      (f.sites.zip outs) (false, s)

/-- Performing a firing writes `v` at `q`. -/
def FiringWrites (g : Grid) (q : Pos) (v : Datum) (s : Production) (f : Firing) : Prop :=
  ∃ outs context, f.run g s.router.context = (some outs, context) ∧
    SitesWrite f outs (s.begun context) q v

/-- The phase writes `v` at `q`. -/
def Writes (g : Grid) (ctx : Context) (q : Pos) (v : Datum) : Prop :=
  Happens (perform g) (FiringWrites g q v) (allFirings g) (start g ctx)

/-- No value is on its way, and the writes so far are the empty cells that are gone of `n`. -/
structure Counted (n : Nat) (r : Router) : Prop where
  idle : r.trail = []
  count : r.writes + r.grid.vacant.ncard = n

variable {n : Nat}

theorem counted_emitSite {acc : Bool × Production} (h : Counted n acc.2.router)
    (e : Site × Option Datum) :
    Counted n (emitSite false acc e).2.router ∧
      acc.2.router.grid.Fills (emitSite false acc e).2.router.grid ∧
      ∀ q v, SiteWrites false q v acc e ↔
        acc.2.router.grid.Takes (emitSite false acc e).2.router.grid q v := by
  unfold emitSite emit SiteWrites
  split
  · next hgives =>
    exact ⟨h, .refl _, fun q v => iff_of_false (by simp [hgives]) (Grid.not_takes_self _ q v)⟩
  · next hgives =>
    have hrun := Router.place_runs (.nil h.idle) e.2 e.1.place e.1.dir
    have hout := hrun.outcome
    refine ⟨⟨Router.trail_place h.idle e.2 e.1.place e.1.dir false, hout.count.trans h.count⟩,
      hout.fills, fun q v => ?_⟩
    have hgives : e.1.gives.isEmpty = false := by simpa using hgives
    exact (and_iff_right hgives).trans hrun.writes_iff

theorem counted_emitSites {f : Firing} (hf : f.op.code.overwrites = false)
    (outs : List (Option Datum)) {s : Production} (h : Counted n s.router) :
    Counted n (emitSites f outs s).2.router ∧
      s.router.grid.Fills (emitSites f outs s).2.router.grid ∧
      ∀ q v, SitesWrite f outs s q v ↔
        s.router.grid.Takes (emitSites f outs s).2.router.grid q v := by
  unfold emitSites SitesWrite
  split
  · next hnothing =>
    exact ⟨h, .refl _, fun q v =>
      iff_of_false (by simp [hnothing]) (Grid.not_takes_self _ q v)⟩
  · next hnothing =>
    have hnothing : f.sig.yieldsNothing = false := by simpa using hnothing
    rw [hf]
    have hstep : ∀ e ∈ f.sites.zip outs, ∀ acc : Bool × Production, Counted n acc.2.router → _ :=
      fun e _ acc hacc => counted_emitSite hacc e
    obtain ⟨hgood, hfills, htakes⟩ := Grid.takes_foldl_iff hstep (s := (false, s)) h
    exact ⟨hgood, hfills, fun q v => (and_iff_right hnothing).trans (htakes q v)⟩

theorem counted_perform (g : Grid) {f : Firing} (hf : f.op.code.overwrites = false)
    {s : Production} (h : Counted n s.router) :
    Counted n (perform g s f).router ∧ s.router.grid.Fills (perform g s f).router.grid ∧
      ∀ q v, FiringWrites g q v s f ↔ s.router.grid.Takes (perform g s f).router.grid q v := by
  rcases hrun : f.run g s.router.context with ⟨_ | outs, context⟩
  · rw [perform_of_none hrun]
    refine ⟨⟨h.idle, h.count⟩, .refl _, fun q v => iff_of_false ?_ (Grid.not_takes_self _ q v)⟩
    rintro ⟨outs, context', hrun', -⟩
    cases hrun.symm.trans hrun'
  · have hbegun : Counted n (s.begun context).router := ⟨h.idle, h.count⟩
    obtain ⟨hgood, hfills, htakes⟩ := counted_emitSites hf outs hbegun
    obtain ⟨stays, hperform⟩ := perform_eq_emitSites hrun
    rw [hperform]
    refine ⟨hgood, hfills, fun q v => Iff.trans ⟨?_, fun hw => ⟨outs, context, hrun, hw⟩⟩
      (htakes q v)⟩
    rintro ⟨outs', context', hrun', hw⟩
    cases hrun.symm.trans hrun'
    exact hw

/-- Without overwriting, the phase writes what the grid takes until the last operator has fired. -/
theorem ended_takes {g : Grid} (hg : ∀ f ∈ allFirings g, f.op.code.overwrites = false)
    (ctx : Context) :
    Counted g.vacant.ncard (ended g ctx).router ∧ g.Fills (ended g ctx).router.grid ∧
      ∀ q v, Writes g ctx q v ↔ g.Takes (ended g ctx).router.grid q v := by
  have hstart : Counted g.vacant.ncard (start g ctx).router := ⟨rfl, Nat.zero_add _⟩
  have hstep : ∀ f ∈ allFirings g, ∀ s : Production, Counted g.vacant.ncard s.router → _ :=
    fun f hf s hs => counted_perform g (hg f hf) hs
  exact Grid.takes_foldl_iff hstep (s := start g ctx) hstart

/-! ## What is consumed -/

/-- Only cells that held a value before the phase are marked as consumed. -/
structure Marked (g : Grid) (s : Production) : Prop where
  size : s.stays.size = g.cells.size
  data : ∀ q, g.contains q = true → gone g s.stays q = true → ∃ d, g.get? q = some (.data d)

theorem Marked.perform {g : Grid} {f : Firing} (hf : f.Chosen g) {s : Production}
    (h : Marked g s) : Marked g (perform g s f) := by
  rcases hrun : f.run g s.router.context with ⟨_ | outs, context⟩
  · rw [perform_of_none hrun]
    exact ⟨h.size, h.data⟩
  · rcases hemit : emitSites f outs (s.begun context) with ⟨placed, emitted⟩
    have hstays : emitted.stays = s.stays := by
      have hkept := stays_emitSites f outs (s.begun context)
      rw [hemit] at hkept
      exact hkept
    rw [perform_of_some hrun hemit]
    split
    · obtain ⟨hsize, hgone⟩ := gone_strike (fun e => contains_of_asked hf (e := e)) h.size
      rw [consumeSites_eq, hstays]
      refine ⟨hsize, fun q hq hmark => ?_⟩
      rcases (hgone q hq).mp hmark with hmark | ⟨e, he, hasks, rfl⟩
      · exact h.data q hq hmark
      · exact datum_of_asked hf he hasks
    · exact ⟨hstays ▸ h.size, hstays ▸ h.data⟩

theorem marked_ended (g : Grid) (ctx : Context) : Marked g (ended g ctx) := by
  refine kept_ended (fun f hf s hs => hs.perform hf) ctx ?_
  refine ⟨Array.size_replicate, fun q hq hmark => ?_⟩
  simp [gone, start, Grid.index_lt hq] at hmark

end Production

/-! ## The next grid -/

/-- The data cells of the filled grid are those that were there and those that are new. -/
theorem Grid.Fills.card_occupied {g g' : Grid} (h : g.Fills g') :
    g'.occupied.card = g.occupied.card + (g.changed g').ncard := by
  have hunion : (g'.occupied : Set Pos) = (g.occupied : Set Pos) ∪ g.changed g' := by
    ext p
    rw [Set.mem_union, Finset.mem_coe, Finset.mem_coe, mem_occupied, mem_occupied, changed,
      Set.mem_ofPred_eq]
    rcases h.cell p with hsame | ⟨hempty, d, hdata⟩
    · simp [hsame]
    · simp [hempty, hdata]
  have hdisjoint : Disjoint (g.occupied : Set Pos) (g.changed g') := by
    rw [Set.disjoint_left, h.changed_eq]
    rintro p hp ⟨hempty, -⟩
    obtain ⟨d, hd⟩ := mem_occupied.mp hp
    cases hd.symm.trans hempty
  have hfinite : (g.changed g').Finite := by
    rw [h.changed_eq]
    exact g.finite_vacant.subset Set.sdiff_subset
  rw [← Set.ncard_coe_finset, hunion, Set.ncard_union_eq hdisjoint (Finset.finite_toSet _) hfinite,
    Set.ncard_coe_finset]

/-- Without the two operators that overwrite, no firing overwrites. -/
theorem Firing.Chosen.overwrites_of_lacks {g : Grid} (hredirect : g.Lacks .redirect)
    (hswap : g.Lacks .swap) {f : Firing} (hf : f.Chosen g) : f.op.code.overwrites = false := by
  obtain ⟨p, hp⟩ := hf.home
  have hredirect := hredirect.code_ne hp
  have hswap := hswap.code_ne hp
  cases hcode : f.op.code with
  | redirect => exact absurd hcode hredirect
  | swap => exact absurd hcode hswap
  | _ => rfl

namespace Production

/-- The places whose values are consumed. -/
def emptied (g : Grid) (ctx : Context) : Finset Pos :=
  g.interior.toFinset.filter fun p =>
    isCleared (ended g ctx).stays (ended g ctx).router.grid p = true

theorem mem_emptied {g : Grid} {ctx : Context} {p : Pos} : p ∈ emptied g ctx ↔
    p ∈ g.interior ∧ isCleared (ended g ctx).stays (ended g ctx).router.grid p = true := by
  rw [emptied, Finset.mem_filter, List.mem_toFinset]

/-- The consumed cells are emptied, each counted once, and the others stay as they were when the
    last operator had fired. -/
theorem cleared_eq (g : Grid) (ctx : Context) :
    (∀ q, (cleared g ctx).1.get? q =
      if q ∈ emptied g ctx then some .empty else (ended g ctx).router.grid.get? q) ∧
    (cleared g ctx).2 = (emptied g ctx).card := by
  obtain ⟨-, -, hcell, hcount⟩ :=
    foldl_clear (ended g ctx).stays g.nodup_interior (inside_ended g ctx) 0
  refine ⟨fun q => ?_, ?_⟩
  · rw [cleared, hcell q, if_congr mem_emptied.symm rfl rfl]
  · rw [cleared, hcount, Nat.zero_add, emptied, g.nodup_interior.card_eq_countP]
    simp

section

variable {g : Grid} {ctx : Context} (hfills : g.Fills (ended g ctx).router.grid)
include hfills

/-- Only cells that held a value before the phase are emptied. -/
theorem datum_of_mem_emptied {q : Pos} (hq : q ∈ emptied g ctx) :
    ∃ d, g.get? q = some (.data d) := by
  obtain ⟨hq, hclear⟩ := mem_emptied.mp hq
  obtain ⟨hgone, -⟩ := Bool.and_eq_true_iff.mp hclear
  have hindex : (ended g ctx).router.grid.index q = g.index q := by
    rw [Grid.index, Grid.index, hfills.width]
  rw [gone, hindex] at hgone
  exact (marked_ended g ctx).data q (Grid.mem_interior.mp hq).1 hgone

/-- A value is consumed or stays. -/
theorem cleared_of_data {q : Pos} {d : Datum} (hq : g.get? q = some (.data d)) :
    (cleared g ctx).1.get? q = if q ∈ emptied g ctx then some .empty else some (.data d) := by
  rw [(cleared_eq g ctx).1 q, hfills.get?_of_not_empty hq (by simp)]

/-- What was empty is left to the operators. -/
theorem cleared_of_empty {q : Pos} (hq : g.get? q = some .empty) :
    (cleared g ctx).1.get? q = (ended g ctx).router.grid.get? q := by
  rw [(cleared_eq g ctx).1 q, if_neg]
  intro hmem
  obtain ⟨d, hd⟩ := datum_of_mem_emptied hfills hmem
  cases hq.symm.trans hd

theorem emptied_eq_filter :
    emptied g ctx = g.occupied.filter fun q => (cleared g ctx).1.get? q = some .empty := by
  ext q
  rw [Finset.mem_filter, Grid.mem_occupied]
  constructor
  · intro hq
    exact ⟨datum_of_mem_emptied hfills hq, by rw [(cleared_eq g ctx).1 q, if_pos hq]⟩
  · rintro ⟨⟨d, hd⟩, hempty⟩
    by_contra hq
    rw [cleared_of_data hfills hd, if_neg hq] at hempty
    cases hempty

/-- What was consumed and what is left are the data cells when the last operator had fired. -/
theorem card_occupied_cleared : (cleared g ctx).1.occupied.card + (emptied g ctx).card =
    (ended g ctx).router.grid.occupied.card := by
  have hleft : (cleared g ctx).1.occupied =
      (ended g ctx).router.grid.occupied \ emptied g ctx := by
    ext q
    rw [Finset.mem_sdiff, Grid.mem_occupied, Grid.mem_occupied, (cleared_eq g ctx).1 q]
    by_cases hq : q ∈ emptied g ctx <;> simp [hq]
  have hsubset : emptied g ctx ⊆ (ended g ctx).router.grid.occupied := by
    intro q hq
    obtain ⟨d, hd⟩ := datum_of_mem_emptied hfills hq
    exact Grid.mem_occupied.mpr ⟨d, hfills.get?_of_not_empty hd (by simp)⟩
  rw [hleft, Finset.card_sdiff_add_card_eq_card hsubset]

end

end Production

/-- Without operators that overwrite, values come by writes and go by consumption. The data cells of
    the next grid and the consumed ones are as many as the data cells before and the writes. A value
    is written at a cell exactly if the cell was empty and holds the value in the next grid. A data
    cell stays as it is or is empty in the next grid, and the latter are counted as consumed. -/
theorem production_accounts (g : Grid) (hredirect : g.Lacks .redirect) (hswap : g.Lacks .swap)
    (ctx : Context) :
    let next := (produce g ctx).1
    let report := (produce g ctx).2.1
    next.cells.countP Cell.isData + report.consumed =
      g.cells.countP Cell.isData + report.writes ∧
    (∀ q v, Production.Writes g ctx q v ↔
      g.get? q = some .empty ∧ next.get? q = some (.data v)) ∧
    (∀ q d, g.get? q = some (.data d) →
      next.get? q = some (.data d) ∨ next.get? q = some .empty) ∧
    report.consumed = (g.occupied.filter fun q => next.get? q = some .empty).card := by
  obtain ⟨hcounted, hfills, hwrites⟩ := Production.ended_takes
    (fun f hf => (Production.chosen_of_mem hf).overwrites_of_lacks hredirect hswap) ctx
  have hconsumed := (Production.cleared_eq g ctx).2
  rw [produce_eq]
  dsimp only
  refine ⟨?_, fun q v => ?_, fun q d hq => ?_, ?_⟩
  · have hcleared := Production.card_occupied_cleared hfills
    have hfilled := hfills.card_occupied
    have hchanged := hfills.ncard_changed
    have hcount := hcounted.count
    rw [← Grid.card_occupied, ← Grid.card_occupied]
    omega
  · rw [hwrites]
    refine and_congr_right fun hempty => ?_
    rw [Production.cleared_of_empty hfills hempty]
  · rw [Production.cleared_of_data hfills hq]
    split
    · exact .inr rfl
    · exact .inl rfl
  · rw [hconsumed, Production.emptied_eq_filter hfills]

/-- An operator above a duplicator. -/
def forked : Grid :=
  ⟨5, 5,
    #[.border, .border, .border, .border, .border,
      .border, .empty, .data (.number 5), .empty, .border,
      .border, .empty, .operator (.ofCode .not), .empty, .border,
      .border, .empty, .pipe .duplicator, .empty, .border,
      .border, .border, .border, .border, .border], rfl⟩

/-- The result is written on both sides of the duplicator, and the one input is consumed. -/
theorem production_accounts_forked :
    let phase := produce forked ⟨{}, ⟨0⟩, 0, none, #[]⟩
    forked.Lacks .redirect ∧ forked.Lacks .swap ∧
      Production.Writes forked ⟨{}, ⟨0⟩, 0, none, #[]⟩ ⟨1, 3⟩ (.number 0) ∧
      Production.Writes forked ⟨{}, ⟨0⟩, 0, none, #[]⟩ ⟨3, 3⟩ (.number 0) ∧
      phase.2.1.writes = 2 ∧ phase.2.1.consumed = 1 ∧
      phase.1.cells.countP Cell.isData + phase.2.1.consumed =
        forked.cells.countP Cell.isData + phase.2.1.writes := by
  have hredirect : forked.Lacks .redirect := by decide
  have hswap : forked.Lacks .swap := by decide
  obtain ⟨hbalance, hwrites, -⟩ :=
    production_accounts forked hredirect hswap ⟨{}, ⟨0⟩, 0, none, #[]⟩
  refine ⟨hredirect, hswap, (hwrites ⟨1, 3⟩ _).mpr ⟨rfl, ?_⟩, (hwrites ⟨3, 3⟩ _).mpr ⟨rfl, ?_⟩,
    ?_, ?_, hbalance⟩
  · decide +kernel
  · decide +kernel
  · decide +kernel
  · decide +kernel

end Gridfall
