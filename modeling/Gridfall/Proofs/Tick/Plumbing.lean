/-
  Dispatch does not see the plumbing. Which operators fire, what they compute and what they do at
  the console and with the generator depends on the values and the operators of the grid alone, and
  not on the empty cells, borders and pipes between them.

  `Grid.SameParts` relates two grids that differ in their plumbing only. They have the same firings
  (`SameParts.allFirings`). Two phases over them are kept level (`Production.Level`): they have
  fired and failed equally often, and their routers have the same console, generator and tick
  (`Router.Idle`). A firing keeps two phases level, because its computation sees values only, and
  because placing its results, however far they travel, touches neither the console nor the
  generator nor the tick (`place_services`).
-/
import Gridfall.Proofs.Routing.Termination
import Gridfall.Proofs.Tick.Coupling

namespace Gridfall

open Context (SameServices)

/-- Placing a value leaves the services alone, however far the value travels. -/
theorem Router.place_services {r : Router} (hr : r.trail = []) (d : Option Datum) (target : Pos)
    (dir : Dir) (overwrite : Bool) :
    SameServices r.context (r.place d target dir overwrite).2.context := by
  cases overwrite with
  | false =>
    have ho := (place_runs (.nil hr) d target dir).outcome
    exact ⟨ho.console, ho.generator, ho.tick⟩
  | true =>
    unfold place offer
    cases d with
    | none => exact .refl _
    | some d => cases r.grid.get? target <;> exact .refl _

/-! ## Grids with the same values and operators -/

namespace Grid

/-- Two grids of one size with the same values and the same operators. Elsewhere each of them has
    empty cells, borders and pipes as it likes. -/
structure SameParts (g g' : Grid) : Prop where
  width : g'.width = g.width
  height : g'.height = g.height
  data : ∀ p d, g'.get? p = some (.data d) ↔ g.get? p = some (.data d)
  operator : ∀ p op, g'.get? p = some (.operator op) ↔ g.get? p = some (.operator op)

/-- What operators can tell of a cell: its value or its operator. -/
def seen : Cell → Option (Datum ⊕ Operator)
  | .data d => some (.inl d)
  | .operator op => some (.inr op)
  | .empty | .border | .pipe _ => none

theorem seen_eq_iff {c c' : Cell} : seen c' = seen c ↔
    (∀ d, c' = .data d ↔ c = .data d) ∧ ∀ op, c' = .operator op ↔ c = .operator op := by
  constructor
  · intro h
    cases c <;> cases c' <;> simp_all [seen]
  · rintro ⟨hdata, hop⟩
    cases c with
    | data d => rw [(hdata d).mpr rfl]
    | operator op => rw [(hop op).mpr rfl]
    | empty | border | pipe =>
      cases c' with
      | data d => cases (hdata d).mp rfl
      | operator op => cases (hop op).mp rfl
      | empty | border | pipe => rfl

theorem sameParts_iff {g g' : Grid} : g.SameParts g' ↔
    (g'.width = g.width ∧ g'.height = g.height) ∧
      ∀ p ∈ g.positions, seen (g'.cellAt p) = seen (g.cellAt p) := by
  have hcells : g'.width = g.width → g'.height = g.height → ∀ p, g.contains p = true →
      g.get? p = some (g.cellAt p) ∧ g'.get? p = some (g'.cellAt p) := by
    intro hw hh p hp
    refine ⟨get?_of_contains hp, get?_of_contains ?_⟩
    rw [contains_iff] at hp ⊢
    omega
  constructor
  · intro h
    refine ⟨⟨h.width, h.height⟩, fun p hp => ?_⟩
    obtain ⟨hg, hg'⟩ := hcells h.width h.height p (mem_positions.mp hp)
    have hdata := h.data p
    have hop := h.operator p
    simp only [hg, hg', Option.some.injEq] at hdata hop
    exact seen_eq_iff.mpr ⟨hdata, hop⟩
  · rintro ⟨⟨hw, hh⟩, hseen⟩
    have hcell : ∀ p, (∀ d, g'.get? p = some (.data d) ↔ g.get? p = some (.data d)) ∧
        ∀ op, g'.get? p = some (.operator op) ↔ g.get? p = some (.operator op) := by
      intro p
      by_cases hp : g.contains p = true
      · obtain ⟨hg, hg'⟩ := hcells hw hh p hp
        simp only [hg, hg', Option.some.injEq]
        exact seen_eq_iff.mp (hseen p (mem_positions.mpr hp))
      · have hp' : ¬ g'.contains p = true := by
          rw [contains_iff] at hp ⊢
          omega
        simp [get?_eq_none hp, get?_eq_none hp']
    exact ⟨hw, hh, fun p => (hcell p).1, fun p => (hcell p).2⟩

instance (g g' : Grid) : Decidable (g.SameParts g') := decidable_of_iff' _ sameParts_iff

namespace SameParts

variable {g g' : Grid} (h : g.SameParts g')
include h

theorem interior : g'.interior = g.interior := by
  unfold Grid.interior
  rw [h.width, h.height]

theorem datum? : g'.datum? = g.datum? := by
  funext p
  apply Option.ext
  intro d
  rw [datum?_eq_some_iff, datum?_eq_some_iff]
  exact h.data p d

theorem firings (p : Pos) : Production.firings g' p = Production.firings g p := by
  unfold Production.firings
  split
  · next op hop =>
    rw [(h.operator p op).mp hop]
    dsimp only
    rw [Production.operatorFirings_congr h.datum?]
  · next hnone =>
    split
    · next op hop => exact absurd ((h.operator p op).mpr hop) (hnone op)
    · rfl

/-- The same firings in the same order. -/
theorem allFirings : Production.allFirings g' = Production.allFirings g := by
  unfold Production.allFirings
  rw [h.interior, funext h.firings]

theorem run (f : Firing) (ctx : Context) : f.run g' ctx = f.run g ctx :=
  Firing.run_congr h.datum? f ctx

end SameParts

end Grid

/-! ## Two phases side by side -/

/-- Two routers with the same services and no value on its way. -/
structure Router.Idle (r r' : Router) : Prop where
  services : SameServices r.context r'.context
  left : r.trail = []
  right : r'.trail = []

namespace Production

/-- A firing computes the same over both grids, and where its results go is not seen by the firings
    after it. -/
theorem attuned_of_sameParts {g g' : Grid} (h : g.SameParts g') (f : Firing) :
    Attuned g g' Router.Idle f where
  run {r r'} hr := by
    obtain ⟨hanswer, hnext⟩ := Firing.run_alike Context.kept_sameServices g (fun _ => rfl)
      (fun _ => rfl) hr.services (f := f)
    rw [h.run]
    exact ⟨hanswer, hnext, hr.left, hr.right⟩
  place e _ _ d {r r'} hr := by
    have hleft := Router.place_services hr.left d e.place e.dir f.op.code.overwrites
    have hright := Router.place_services hr.right d e.place e.dir f.op.code.overwrites
    exact ⟨hleft.symm.trans (hr.services.trans hright), Router.trail_place hr.left _ _ _ _,
      Router.trail_place hr.right _ _ _ _⟩

theorem level_ended {g g' : Grid} (h : g.SameParts g') {ctx ctx' : Context}
    (hctx : SameServices ctx ctx') : Level Router.Idle 0 (ended g ctx) (ended g' ctx') := by
  have hstart : Level Router.Idle 0 (start g ctx) (start g' ctx') :=
    ⟨⟨hctx, rfl, rfl⟩, rfl, rfl⟩
  unfold ended
  rw [h.allFirings]
  exact hstart.foldl fun f _ => attuned_of_sameParts h f

end Production

/-- Over two grids with the same values and operators, started with the same services, a production
    phase fires and fails equally often, and leaves the same console, with the same input still to
    come and the same output, and the same generator. -/
theorem produce_ignores_plumbing {g g' : Grid} (h : g.SameParts g') {ctx ctx' : Context}
    (hctx : SameServices ctx ctx') :
    (produce g' ctx').2.1.fired = (produce g ctx).2.1.fired ∧
      (produce g' ctx').2.1.failed = (produce g ctx).2.1.failed ∧
      (produce g' ctx').2.2.console = (produce g ctx).2.2.console ∧
      (produce g' ctx').2.2.generator = (produce g ctx).2.2.generator := by
  have hlevel := Production.level_ended h hctx
  have hservices := hlevel.router.services
  rw [produce_eq, produce_eq]
  exact ⟨hlevel.fired, hlevel.failed.symm, hservices.console, hservices.generator⟩

/-- A negation and an echo beside each other, with `outlet` below the negation and `between` next to
    it. -/
def echoing (outlet between : Cell) : Grid :=
  ⟨5, 5,
    #[.border, .border, .border, .border, .border,
      .border, .data (.number 5), .empty, .data (.fresh .input), .border,
      .border, .operator (.ofCode .not), .empty, .operator (.ofCode .writeText), .border,
      .border, outlet, between, .data (.fresh .output), .border,
      .border, .border, .border, .border, .border], rfl⟩

/-- Where one grid has room for the result of the negation, the other one has a pipe that throws it
    back, and a wall. The echo does not notice. -/
theorem produce_ignores_plumbing_echo :
    let g := echoing .empty .empty
    let g' := echoing (.pipe .bouncer) .border
    let ctx : Context := ⟨{ pending := [[104, 105]] }, ⟨0⟩, 3, none, #[]⟩
    g.SameParts g' ∧ (produce g ctx).1 ≠ (produce g' ctx).1 ∧
      (produce g' ctx).2.1.fired = (produce g ctx).2.1.fired ∧
      (produce g' ctx).2.2.console = (produce g ctx).2.2.console := by
  intro g g' ctx
  have hparts : g.SameParts g' := by decide
  have hgrids : (produce g ctx).1 ≠ (produce g' ctx).1 := by decide +kernel
  obtain ⟨hfired, -, hconsole, -⟩ := produce_ignores_plumbing hparts (.refl ctx)
  exact ⟨hparts, hgrids, hfired, hconsole⟩

end Gridfall
