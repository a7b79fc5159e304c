/-
  Placing a value always ends, on every grid, closed ring or not. Two searches are limited in the
  definitions by a number that is worked out beforehand: the walk by `Router.reach`, and the look
  for a partner teleporter by the width and the height of the grid. Here both are compared with the
  same searches without a limit.

  `Grid.Seeks` is the look for a partner as a relation, cell by cell to the end; the limited one
  finds the same (`seeks_iff`). `Router.Runs` is the walk as a relation. Every placement has such a
  run, and with `Router.reach` hops or more the walk always gets to its end (`place_ends`).
-/
import Gridfall.Proofs.Routing.Bound

namespace Gridfall

namespace Grid

/-! ## The look for a partner -/

/-- The look for a teleporter, straight ahead from `p`, ends with an answer. -/
inductive Seeks (g : Grid) (d : Dir) : (p : Pos) → (answer : Option Pos) → Prop
  /-- The grid ends. -/
  | off {p} (h : g.step? p d = none) : Seeks g d p none
  /-- The outermost ring comes first. -/
  | edge {p q} (h : g.step? p d = some q) (he : g.isEdge q = true) : Seeks g d p none
  | found {p q} (h : g.step? p d = some q) (he : g.isEdge q = false)
      (hc : g.cellAt q = .pipe .teleporter) : Seeks g d p (some q)
  | next {p q answer} (h : g.step? p d = some q) (he : g.isEdge q = false)
      (hc : g.cellAt q ≠ .pipe .teleporter) (rest : Seeks g d q answer) : Seeks g d p answer

theorem Seeks.unique {g : Grid} {d : Dir} {p : Pos} {a₁ a₂ : Option Pos} (h₁ : g.Seeks d p a₁)
    (h₂ : g.Seeks d p a₂) : a₁ = a₂ := by
  induction h₁ with
  | off h => cases h₂ <;> simp_all
  | edge h he => cases h₂ <;> simp_all
  | found h he hc => cases h₂ <;> simp_all
  | next h he hc _ ih =>
    cases h₂ with
    | next h' _ _ rest =>
      rw [h] at h'
      cases h'
      exact ih rest
    | off | edge | found => simp_all

/-- How many places lie ahead of `p`. -/
def ahead (g : Grid) (p : Pos) : Dir → Nat
  | .up => p.y
  | .left => p.x
  | .right => g.width - (p.x + 1)
  | .down => g.height - (p.y + 1)

theorem ahead_step? {g : Grid} {p q : Pos} {d : Dir} (h : g.step? p d = some q) :
    g.ahead q d < g.ahead p d ∧ g.ahead p d ≤ g.width + g.height := by
  have hq := contains_iff.mp (contains_of_step? h)
  obtain ⟨hx, hy⟩ := ahead_of_step? h
  cases d <;> simp only [Dir.offset, ahead] at hx hy ⊢ <;> omega

theorem seeks_partnerWithin {g : Grid} {d : Dir} {fuel : Nat} {p : Pos}
    (h : g.ahead p d ≤ fuel) : g.Seeks d p (g.partnerWithin d fuel p) := by
  induction fuel generalizing p with
  | zero =>
    refine .off ?_
    cases hq : g.step? p d with
    | none => rfl
    | some q =>
      have hlt := (ahead_step? hq).1
      omega
  | succ fuel ih =>
    unfold partnerWithin
    cases hq : g.step? p d with
    | none => exact .off hq
    | some q =>
      have hlt := (ahead_step? hq).1
      dsimp only
      split
      · next he => exact .edge hq he
      · next he =>
        have he' : g.isEdge q = false := by simpa using he
        split
        · next hc => exact .found hq he' hc
        · next hc => exact .next hq he' hc (ih (by omega))

/-- The look for a partner ends, and no answer is lost by its limit. -/
theorem seeks_iff {g : Grid} {d : Dir} {p : Pos} {answer : Option Pos} :
    g.Seeks d p answer ↔ answer = g.partner? p d := by
  have hseeks : g.Seeks d p (g.partner? p d) := by
    cases hq : g.step? p d with
    | some q => exact seeks_partnerWithin (ahead_step? hq).2
    | none =>
      have hnone : g.partner? p d = none := by
        unfold partner?
        cases g.width + g.height with
        | zero => rfl
        | succ fuel => simp only [partnerWithin, hq]
      rw [hnone]
      exact .off hq
  refine ⟨fun h => h.unique hseeks, fun h => ?_⟩
  rw [h]
  exact hseeks

end Grid

namespace Router

/-! ## The walk -/

/-- With enough hops the walk answers, and always the same. -/
theorem offer_explore {r : Router} (hr : Tracked r) (d : Option Datum) (target : Pos) (dir : Dir)
    {fuel : Nat} (hf : r.reach ≤ fuel) :
    offer (explore true fuel) r d target dir false = some (r.place d target dir false) := by
  have hneed : need r ≤ fuel := r.need_le_reach.trans hf
  have hsome := perform_isSome (explore_isSome fuel r hr hneed) (.offer d target dir)
  obtain ⟨⟨b, r'⟩, h⟩ := Option.isSome_iff_exists.mp hsome
  have hrun : Runs true (.offer d target dir) r b r' := (explore_sound true fuel).perform h
  obtain ⟨hb, hr'⟩ := hrun.unique (place_runs hr d target dir)
  change (Task.offer d target dir).perform (explore true fuel) r = _
  rw [h, hb, hr']

/-- An overwriting placement takes no walk. -/
theorem offer_overwriting (carry : Carrier) (r : Router) (d : Option Datum) (target : Pos)
    (dir : Dir) : offer carry r d target dir true = some (r.place d target dir true) := by
  unfold place offer
  cases d with
  | none => rfl
  | some d =>
    cases r.grid.get? target with
    | none => rfl
    | some cell => simp only [Bool.true_or, if_true, Option.getD_some]

/-- A placement leaves no state on an empty trail, so the next one starts as this one did. -/
theorem trail_place {r : Router} (hr : r.trail = []) (d : Option Datum) (target : Pos) (dir : Dir)
    (overwrite : Bool) : (r.place d target dir overwrite).2.trail = [] := by
  cases overwrite with
  | false =>
    have hsub := (place_runs (.nil hr) d target dir).outcome.trail
    rw [hr] at hsub
    exact List.sublist_nil.mp hsub
  | true =>
    unfold place offer
    cases d with
    | none => exact hr
    | some d =>
      cases r.grid.get? target with
      | none => exact hr
      | some cell => rfl

/-- Placing ends, on every grid, for all that can be placed, wherever it is placed: along no path
    does the walk make more than `reach` hops, whatever it is granted beyond them; it is a finite
    run of the walk without a limit; and on the way each look for a partner ends with the answer
    that it would have without its limit. -/
theorem place_ends (g : Grid) (ctx : Context) (writes : Nat) (d : Option Datum) (target : Pos)
    (dir : Dir) (overwrite : Bool) :
    let r : Router := { grid := g, context := ctx, writes := writes }
    let placed := r.place d target dir overwrite
    (∀ fuel, r.reach ≤ fuel →
      offer (fun r d p dir => walk fuel r d p dir []) r d target dir overwrite = some placed) ∧
    (overwrite = false → Runs true (.offer d target dir) r placed.1 placed.2) ∧
    placed.2.trail = [] ∧
    ∀ (g' : Grid) (p : Pos) (e : Dir) (answer : Option Pos),
      g'.Seeks e p answer ↔ answer = g'.partner? p e := by
  intro r placed
  have hr : Tracked r := .nil rfl
  refine ⟨fun fuel hf => ?_, ?_, trail_place rfl d target dir overwrite,
    fun g' p e answer => Grid.seeks_iff⟩
  · cases overwrite with
    | true => exact offer_overwriting _ r d target dir
    | false =>
      have hwalk : (fun r d p dir => walk fuel r d p dir []) = explore true fuel := by
        funext r d p dir
        exact walk_eq_explore fuel r d p dir
      rw [hwalk]
      exact offer_explore hr d target dir hf
  · rintro rfl
    exact place_runs hr d target dir

end Router

end Gridfall
