/-
  The loop guard compared with a walk that has none. `placeUnguarded` places a value as `place`
  does, but never looks at the trail; it may fail to end, so it takes fuel.

  If the unguarded walk ends, then no state on its way leads back to itself, and the guarded walk
  finds nothing on its trail: both do the same. This needs that the way of a value depends on its
  place and heading only. A tick stamp breaks that at tick zero: it turns a value that is not empty
  into the number zero, which is empty and which the next stamp absorbs. So the guard is exact
  but for values that are not empty, at tick zero, on grids with a tick stamp, and there it is not
  (`loop_guard_exact_iff`).
-/
import Gridfall.Proofs.Routing.Reach

namespace Gridfall

open Relation (TransGen)

namespace Grid

/-! ## The hop graph of a value that stamps let through -/

/-- The hop graph, with a way on through tick stamps for a value that is `live`, that is, not
    empty. -/
def Hands (g : Grid) (live : Bool) (s t : Pos × Dir) : Prop :=
  g.Leads s t ∨ live = true ∧ t.2 = .down ∧ g.step? s.1 .down = some t.1 ∧
    ∃ op, g.get? s.1 = some (.operator op) ∧ op.code = .tickStamp

theorem hands_onward {g : Grid} {live : Bool} {p q : Pos} {dir e : Dir}
    (h : g.hop p dir = .onward q e) : g.Hands live (p, dir) (q, e) :=
  .inl (leads_iff.mpr (h ▸ rfl))

theorem hands_fork {g : Grid} {live : Bool} {p q : Pos} {dir e e₁ e₂ : Dir}
    (h : g.hop p dir = .fork e₁ e₂) (he : e = e₁ ∨ e = e₂) (hq : g.step? p e = some q) :
    g.Hands live (p, dir) (q, e) := by
  refine .inl (leads_iff.mpr ?_)
  rw [h]
  exact ⟨he, hq⟩

/-- What a hop says about the ways on, read backward. -/
theorem Hands.hop {g : Grid} {live : Bool} {p : Pos} {dir : Dir} {t : Pos × Dir}
    (h : g.Hands live (p, dir) t) :
    t ∈ (g.hop p dir).targets g p ∨
      live = true ∧ t.2 = .down ∧ g.step? p .down = some t.1 ∧
        g.hop p dir = .deliver .tickStamp := by
  rcases h with h | ⟨hl, he, hq, op, ho, hc⟩
  · exact .inl (leads_iff.mp h)
  · refine .inr ⟨hl, he, hq, ?_⟩
    rw [hop_operator ho (by rw [hc]; rfl), hc]

theorem Fills.hands {g g' : Grid} (h : g.Fills g') (live : Bool) :
    g'.Hands live = g.Hands live := by
  funext s t
  simp only [Hands, h.leads, h.step?, h.get?_operator]

/-- From a state on which every path ends, no path leads back to it. -/
theorem not_transGen_self {α : Type} {R : α → α → Prop} {s : α} (h : Acc (fun a b => R b a) s) :
    ¬ TransGen R s s := by
  induction h with
  | intro s _ ih =>
    intro hs
    obtain ⟨u, hu, hus⟩ := TransGen.head'_iff.mp hs
    exact ih u hu (TransGen.tail' hus hu)

end Grid

namespace Router

/-! ## Values that do not change between empty and not empty -/

/-- The value stays as empty or as full as it is, whatever stamps it meets. -/
structure Steady (live : Bool) (tick : UInt64) (g : Grid) (d : Datum) : Prop where
  value : d.value.isEmpty = !live
  stamp : live = true → tick ≠ 0 ∨ g.Unstamped

theorem tickNumber_ne_zero {ctx : Context} (h : ctx.tick ≠ 0) : ctx.tickNumber ≠ 0 := by
  unfold Context.tickNumber
  split
  · intro h0
    apply h
    have : ctx.tick.toInt64.toUInt64 = 0 := congrArg Int64.toUInt64 h0
    simpa using this
  · decide

/-- What a special operator lets through is as empty or as full as what came in. -/
theorem Steady.receive {live : Bool} {r : Router} {d e : Datum} {p : Pos} {dir : Dir}
    {code : Operator.Code} (h : Steady live r.context.tick r.grid d)
    (hop : r.grid.hop p dir = .deliver code)
    (he : (Operator.receive code d r.context).1 = some e) :
    Steady live (Operator.receive code d r.context).2.tick r.grid e := by
  rw [(Operator.receive_services code d r.context).2.2]
  cases Grid.reason_of_hop hop with
  | @deliver op ho hs =>
    cases hc : op.code <;> rw [hc] at he hs <;> simp [Operator.Code.isSpecial] at hs <;>
      simp [Operator.receive] at he
    · exact he ▸ h
    · obtain ⟨hne, rfl⟩ := he
      have hlive : live = true := by simpa [hne] using h.value
      have htick : r.context.tick ≠ 0 := by
        rcases h.stamp hlive with ht | hu
        · exact ht
        · exact absurd (congrArg some hc) (hu p _ ho)
      have := tickNumber_ne_zero htick
      exact ⟨by simpa [Datum.number, Datum.fresh, Value.isEmpty, hlive] using this, h.stamp⟩

/-- A special operator with a way on lets the value through, and only then. -/
theorem Steady.hands_iff {live : Bool} {r : Router} {d : Datum} {p : Pos} {dir : Dir}
    {code : Operator.Code} (h : Steady live r.context.tick r.grid d)
    (hop : r.grid.hop p dir = .deliver code) {t : Pos × Dir} :
    r.grid.Hands live (p, dir) t ↔ (Operator.receive code d r.context).1.isSome = true ∧
      t.2 = .down ∧ r.grid.step? p .down = some t.1 := by
  have hv := h.value
  cases Grid.reason_of_hop hop with
  | @deliver op ho hs =>
    constructor
    · intro ht
      rcases ht.hop with ht | ⟨hl, he, hq, hc⟩
      · rw [hop] at ht
        obtain ⟨hc, he, hq⟩ := ht
        exact ⟨by rw [hc]; rfl, he, hq⟩
      · rw [hop] at hc
        refine ⟨?_, he, hq⟩
        rw [Hop.deliver.inj hc]
        simp [Operator.receive, hv, hl]
    · rintro ⟨hsome, he, hq⟩
      cases hc : op.code <;> rw [hc] at hsome hs <;> simp [Operator.Code.isSpecial] at hs <;>
        simp [Operator.receive] at hsome
      · refine .inl (Grid.leads_iff.mpr ?_)
        rw [hop]
        exact ⟨hc, he, hq⟩
      · rw [hv] at hsome
        exact .inr ⟨by simpa using hsome, he, hq, op, ho, hc⟩

theorem Steady.run {live : Bool} {r r' : Router} {b : Bool} {d : Datum}
    (h : Steady live r.context.tick r.grid d) (ho : Outcome r b r') :
    Steady live r'.context.tick r'.grid d :=
  ⟨h.value, fun hl => (h.stamp hl).imp (fun ht => by rwa [ho.tick]) fun hu => ho.fills.unstamped hu⟩

/-! ## A walk that ends has no loop -/

theorem not_hands {g : Grid} {live : Bool} {p : Pos} {dir : Dir} {t : Pos × Dir}
    (h : (g.hop p dir).targets g p = ∅) (hs : g.hop p dir ≠ .deliver .tickStamp) :
    ¬ g.Hands live (p, dir) t := by
  intro ht
  rcases ht.hop with ht | ⟨-, -, -, hc⟩
  · rw [h] at ht
    exact ht
  · exact hs hc

/-- Where there is no way on, every path ends at once. -/
theorem acc_of_targets {g : Grid} {live : Bool} {p : Pos} {dir : Dir}
    (h : (g.hop p dir).targets g p = ∅) (hs : g.hop p dir ≠ .deliver .tickStamp) :
    Acc (fun a b => g.Hands live b a) (p, dir) :=
  ⟨_, fun _ ht => absurd ht (not_hands h hs)⟩

/-- If an unguarded run ends, every path from where it starts ends. -/
theorem Runs.ends {live : Bool} {t : Task} {r r' : Router} {b : Bool} (h : Runs false t r b r')
    (hd : ∀ d, t.datum? = some d → Steady live r.context.tick r.grid d) {s : Pos × Dir}
    (hs : s ∈ t.starts r.grid) : Acc (fun a b => r.grid.Hands live b a) s := by
  induction h generalizing s with
  | loop hg => cases hg
  | land _ hop =>
    cases hs
    exact acc_of_targets (by rw [hop]; rfl) (by simp [hop])
  | absorb _ hop =>
    cases hs
    exact acc_of_targets (by rw [hop]; rfl) (by simp [hop])
  | blocked _ hop =>
    cases hs
    exact acc_of_targets (by rw [hop]; rfl) (by simp [hop])
  | onward _ hop _ ih =>
    cases hs
    refine ⟨_, fun t ht => ?_⟩
    rcases ht.hop with ht | ⟨-, -, -, hc⟩
    · rw [hop] at ht
      exact ih hd ht
    · rw [hop] at hc
      cases hc
  | @fork r d p dir e₁ e₂ b₁ b₂ r₁ r₂ _ hop h₁ _ ih₁ ih₂ =>
    cases hs
    refine ⟨_, fun t ht => ?_⟩
    have ho := h₁.outcome
    rcases ht.hop with ht | ⟨-, -, -, hc⟩
    · rw [hop] at ht
      obtain ⟨he | he, hq⟩ := ht
      · exact ih₁ hd ⟨he, he ▸ hq⟩
      · have hend := ih₂ (fun d hd' => Steady.run (r := r.enter (p, dir)) (hd d hd') ho)
          ⟨he, (ho.fills.step? _ _).trans (he ▸ hq)⟩
        rw [ho.fills.hands] at hend
        exact hend
    · rw [hop] at hc
      cases hc
  | @deliver r d p dir code q b r' _ hop hq below ih =>
    cases hs
    refine ⟨_, fun t ht => ?_⟩
    obtain ⟨hsome, he, ht⟩ := ((hd d rfl).hands_iff hop).mp ht
    obtain ⟨e, hemit⟩ := Option.isSome_iff_exists.mp hsome
    refine ih (fun e' he' => (hd d rfl).receive hop he') ?_
    rw [hemit]
    exact Prod.ext (Option.some.inj (ht.symm.trans hq)) he
  | @deliverOff r d p dir code _ hop hq =>
    cases hs
    refine ⟨_, fun t ht => ?_⟩
    obtain ⟨-, -, ht⟩ := ((hd d rfl).hands_iff hop).mp ht
    rw [hq] at ht
    cases ht
  | off hq =>
    obtain ⟨-, hs⟩ := hs
    rw [hq] at hs
    cases hs
  | on hq _ ih =>
    obtain ⟨he, hs⟩ := hs
    exact ih hd (Prod.ext (Option.some.inj (hs.symm.trans hq)) he)
  | nothing => cases hs
  | put hc =>
    cases hs
    refine acc_of_targets ?_ ?_ <;> simp [Grid.hop, hc, Hop.targets]
  | carry _ _ _ ih => exact ih hd hs
  | @refuse r d p dir hc =>
    have hop : r.grid.hop p dir = .blocked := hop_of_refused hc
    cases hs
    exact acc_of_targets (by rw [hop]; rfl) (by simp [hop])

/-! ## Without a loop the guard finds nothing -/

/-- Every path from `starts` ends, and the states on the trail all lead there. -/
structure Open (live : Bool) (g : Grid) (trail : List (Pos × Dir)) (starts : Set (Pos × Dir)) :
    Prop where
  ends : ∀ s ∈ starts, Acc (fun a b => g.Hands live b a) s
  trail : ∀ u ∈ trail, ∀ s ∈ starts, TransGen (g.Hands live) u s

namespace Open

variable {live : Bool} {g : Grid} {trail : List (Pos × Dir)} {s : Pos × Dir}
  {starts : Set (Pos × Dir)}

theorem not_mem (h : Open live g trail {s}) : s ∉ trail := fun hm =>
  Grid.not_transGen_self (h.ends s rfl) (h.trail s hm s rfl)

theorem enter (h : Open live g trail {s}) (hs : ∀ t ∈ starts, g.Hands live s t) :
    Open live g (s :: trail) starts := by
  refine ⟨fun t ht => (h.ends s rfl).inv (hs t ht), fun u hu t ht => ?_⟩
  rcases List.mem_cons.mp hu with rfl | hu
  · exact .single (hs t ht)
  · exact (h.trail u hu s rfl).tail (hs t ht)

theorem run {r r' : Router} {b : Bool} (h : Open live r.grid r.trail starts)
    (ho : Outcome r b r') : Open live r'.grid r'.trail starts := by
  have hhands : r'.grid.Hands live = r.grid.Hands live := ho.fills.hands live
  refine ⟨fun s hs => ?_, fun u hu s hs => ?_⟩
  · rw [hhands]
    exact h.ends s hs
  · rw [hhands]
    exact h.trail u (ho.trail.subset hu) s hs

end Open

/-- An unguarded run that meets no loop is a guarded run. -/
theorem Runs.guarded {live : Bool} {t : Task} {r r' : Router} {b : Bool} (h : Runs false t r b r')
    (hd : ∀ d, t.datum? = some d → Steady live r.context.tick r.grid d)
    (ho : Open live r.grid r.trail (t.starts r.grid)) : Runs true t r b r' := by
  induction h with
  | loop hg => cases hg
  | land _ hop => exact .land (fun _ => ho.not_mem) hop
  | absorb _ hop => exact .absorb (fun _ => ho.not_mem) hop
  | blocked _ hop => exact .blocked (fun _ => ho.not_mem) hop
  | onward _ hop _ ih =>
    refine .onward (fun _ => ho.not_mem) hop (ih hd (ho.enter ?_))
    rintro t rfl
    exact Grid.hands_onward hop
  | @fork r d p dir e₁ e₂ b₁ b₂ r₁ r₂ _ hop h₁ _ ih₁ ih₂ =>
    have o₁ := h₁.outcome
    refine .fork (fun _ => ho.not_mem) hop (ih₁ hd (ho.enter ?_))
      (ih₂ ?_ (Open.run (ho.enter ?_) o₁))
    · rintro ⟨q, e⟩ ⟨rfl, hq⟩
      exact Grid.hands_fork hop (.inl rfl) hq
    · exact fun d' hd' => Steady.run (r := r.enter (p, dir)) (hd d' hd') o₁
    · rintro ⟨q, e⟩ ⟨rfl, hq⟩
      rw [o₁.fills.step?] at hq
      exact Grid.hands_fork hop (.inr rfl) hq
  | @deliver r d p dir code q b r' _ hop hq below ih =>
    have hs := hd d rfl
    refine .deliver (fun _ => ho.not_mem) hop hq (ih (fun e he => hs.receive hop he) (ho.enter ?_))
    intro t ht
    cases hemit : (Operator.receive code d r.context).1 with
    | none => rw [hemit] at ht; cases ht
    | some e =>
      rw [hemit] at ht
      cases ht
      exact (hs.hands_iff hop).mpr ⟨by rw [hemit]; rfl, rfl, hq⟩
  | deliverOff _ hop hq => exact .deliverOff (fun _ => ho.not_mem) hop hq
  | off hq => exact .off hq
  | @on r d p dir q b r' hq _ ih =>
    refine .on hq (ih hd ⟨?_, ?_⟩)
    · rintro s rfl
      exact ho.ends _ ⟨rfl, hq⟩
    · rintro u hu s rfl
      exact ho.trail u hu _ ⟨rfl, hq⟩
  | nothing => exact .nothing
  | put hc => exact .put hc
  | carry hc hr _ ih => exact .carry hc hr (ih hd ho)
  | refuse hc => exact .refuse hc

/-- An unguarded run reports no loop. -/
theorem Runs.log_eq {t : Task} {r r' : Router} {b : Bool} (h : Runs false t r b r') :
    r'.context.log = r.context.log := by
  have receive : ∀ code d ctx, (Operator.receive code d ctx).2.log = ctx.log := by
    intro code d ctx
    cases code <;> simp only [Operator.receive, Operator.haltOn] <;> (try split) <;> rfl
  induction h with
  | loop hg => cases hg
  | onward _ _ _ ih => exact ih
  | fork _ _ _ _ ih₁ ih₂ => exact ih₂.trans ih₁
  | deliver _ _ _ _ ih => exact ih.trans (receive _ _ _)
  | deliverOff => exact receive _ _ _
  | on _ _ ih => exact ih
  | carry _ _ _ ih => exact ih
  | land | absorb | blocked | off | nothing | put | refuse => rfl

/-! ## Placing with and without the guard -/

/-- The placement rule with a walk that never looks at its trail, along paths of at most `fuel`
    hops. Without an answer the walk was not finished. -/
def placeUnguarded (fuel : Nat) (r : Router) (d : Option Datum) (target : Pos) (dir : Dir)
    (overwrite : Bool) : Option (Bool × Router) :=
  offer (explore false fuel) r d target dir overwrite

theorem place_eq_of_unguarded {live : Bool} {fuel : Nat} {r : Router} {d : Datum} {target : Pos}
    {dir : Dir} {overwrite : Bool} {res : Bool × Router} (hr : r.trail = [])
    (hd : Steady live r.context.tick r.grid d)
    (h : placeUnguarded fuel r (some d) target dir overwrite = some res) :
    r.place (some d) target dir overwrite = res ∧ res.2.context.log = r.context.log := by
  obtain ⟨b, r'⟩ := res
  cases overwrite with
  | true =>
    -- Nothing is carried, so the two rules are one.
    simp only [placeUnguarded, offer, Bool.true_or, if_true] at h
    simp only [place, offer, Bool.true_or, if_true]
    split at h <;> cases h <;> exact ⟨rfl, rfl⟩
  | false =>
    have hrun := (explore_sound false fuel).perform (t := .offer (some d) target dir) h
    have hsteady : ∀ d', (Task.offer (some d) target dir).datum? = some d' →
        Steady live r.context.tick r.grid d' := by
      rintro d' hd'
      cases hd'
      exact hd
    have hopen : Open live r.grid r.trail ((Task.offer (some d) target dir).starts r.grid) :=
      ⟨fun s hs => hrun.ends hsteady hs, fun u hu => by simp [hr] at hu⟩
    obtain ⟨hb, hr'⟩ := (place_runs (.nil hr) (some d) target dir).unique
      (hrun.guarded hsteady hopen)
    exact ⟨Prod.ext hb hr', hrun.log_eq⟩

/-- What a placement shows: the answer, the grid, the number of writes and the halt request. -/
def shown (res : Bool × Router) : Bool × Grid × Nat × Option HaltRequest :=
  (res.1, res.2.grid, res.2.writes, res.2.context.halt)

/-- A tick stamp above a bouncer. -/
def stampLoop : Grid :=
  ⟨3, 4,
    #[.border, .border, .border,
      .border, .operator (.ofCode .tickStamp), .border,
      .border, .pipe .bouncer, .border,
      .border, .border, .border], rfl⟩

/-- At tick zero the guard gives up on a number that comes back to the bouncer as zero. -/
theorem shown_place_stampLoop :
    shown (place { grid := stampLoop, context := ⟨{}, ⟨0⟩, 0, none, #[]⟩ } (some (.number 5))
      ⟨1, 2⟩ .down false) = (false, stampLoop, 0, none) := by
  decide +kernel

/-- At tick zero the second stamp absorbs the zero that the first one made. -/
theorem shown_placeUnguarded_stampLoop :
    (placeUnguarded 4 { grid := stampLoop, context := ⟨{}, ⟨0⟩, 0, none, #[]⟩ } (some (.number 5))
      ⟨1, 2⟩ .down false).map shown = some (true, stampLoop, 0, none) := by
  decide +kernel

/-- The guard is exact for all ticks, values and grids, but for values that are not empty, at tick
    zero, on grids with a tick stamp: if the walk without the guard ends, then `place` shows the
    same and reports no loop. -/
theorem loop_guard_exact_iff (tick : UInt64) (empty stamped : Bool) :
    (∀ (g : Grid) (ctx : Context) (writes : Nat) (d : Datum) (target : Pos) (dir : Dir)
        (overwrite : Bool) (fuel : Nat) (res : Bool × Router),
      g.Framed → ctx.tick = tick → d.value.isEmpty = empty → (g.Unstamped ↔ stamped = false) →
      placeUnguarded fuel { grid := g, context := ctx, writes := writes } (some d) target dir
        overwrite = some res →
      let placed := place { grid := g, context := ctx, writes := writes } (some d) target dir
        overwrite
      shown placed = shown res ∧ placed.2.context.log = ctx.log) ↔
    tick ≠ 0 ∨ empty = true ∨ stamped = false := by
  constructor
  · intro h
    by_contra hcon
    obtain ⟨rfl, rfl, rfl⟩ : tick = 0 ∧ empty = false ∧ stamped = true := by simpa using hcon
    obtain ⟨res, hres, hshown⟩ := Option.map_eq_some_iff.mp shown_placeUnguarded_stampLoop
    have hsame := (h stampLoop ⟨{}, ⟨0⟩, 0, none, #[]⟩ 0 (.number 5) ⟨1, 2⟩ .down false 4 res
      (by decide) rfl rfl (by decide) hres).1
    rw [shown_place_stampLoop, hshown] at hsame
    exact absurd (congrArg Prod.fst hsame) (by decide)
  · intro hcase g ctx writes d target dir overwrite fuel res _ htick hempty hstamped hres
    have hsteady : Steady (!empty) ctx.tick g d := by
      refine ⟨by simpa using hempty, fun hlive => ?_⟩
      rcases hcase with h | h | h
      · exact .inl (htick ▸ h)
      · rw [h] at hlive
        cases hlive
      · exact .inr (hstamped.mpr h)
    obtain ⟨heq, hlog⟩ := place_eq_of_unguarded
      (r := { grid := g, context := ctx, writes := writes }) rfl hsteady hres
    exact ⟨congrArg shown heq, heq ▸ hlog⟩

/-- A framed grid on which the walk without the guard ends and delivers, and `place` refuses. -/
theorem loop_guard_drops_stamped_number :
    stampLoop.Framed ∧
      (placeUnguarded 4 { grid := stampLoop, context := ⟨{}, ⟨0⟩, 0, none, #[]⟩ }
        (some (.number 5)) ⟨1, 2⟩ .down false).map Prod.fst = some true ∧
      (place { grid := stampLoop, context := ⟨{}, ⟨0⟩, 0, none, #[]⟩ }
        (some (.number 5)) ⟨1, 2⟩ .down false).1 = false := by
  refine ⟨by decide, ?_, congrArg Prod.fst shown_place_stampLoop⟩
  obtain ⟨res, hres, hshown⟩ := Option.map_eq_some_iff.mp shown_placeUnguarded_stampLoop
  rw [hres]
  exact congrArg some (congrArg Prod.fst hshown)

end Router

end Gridfall
