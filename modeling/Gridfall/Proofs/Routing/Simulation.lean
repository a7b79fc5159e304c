/-
  Two runs side by side. A run is a matter of hops: which cell the value enters, whether its state
  is on the trail, what a special operator makes of it. `Simulation S R` says that a relation `R` of
  routers settles all of this and outlasts it, where the one router carries values and the other
  those related to them by `S`: related routers have the same trail, the same hops and the same free
  cells, and stay related when both enter a state, leave it, drop a value, write one, or hand one to
  an operator.

  Then a run of the one router is matched by a run of the other, with the same answer and with
  related routers at the end (`Simulation.run`). Since runs are unique, placing agrees
  (`Simulation.place`).
-/
import Gridfall.Proofs.Routing.Bound

namespace Gridfall.Router

/-- Every turn of a walk keeps the relation `R`, if the values carried are related by `S`. -/
structure Simulation (S : Datum → Datum → Prop) (R : Router → Router → Prop) : Prop where
  trail : ∀ {r₁ r₂}, R r₁ r₂ → r₂.trail = r₁.trail
  step? : ∀ {r₁ r₂}, R r₁ r₂ → ∀ p d, r₂.grid.step? p d = r₁.grid.step? p d
  hop : ∀ {r₁ r₂}, R r₁ r₂ → ∀ p d, r₂.grid.hop p d = r₁.grid.hop p d
  vacant : ∀ {r₁ r₂}, R r₁ r₂ → ∀ p, r₂.grid.get? p = some .empty ↔ r₁.grid.get? p = some .empty
  routable : ∀ {r₁ r₂}, R r₁ r₂ → ∀ p,
    (r₂.grid.get? p).any Cell.isRoutable = (r₁.grid.get? p).any Cell.isRoutable
  enter : ∀ {r₁ r₂}, R r₁ r₂ → ∀ s, R (r₁.enter s) (r₂.enter s)
  leave : ∀ {r₁ r₂}, R r₁ r₂ → ∀ s, R (r₁.leave s) (r₂.leave s)
  drop : ∀ {r₁ r₂ e₁ e₂}, R r₁ r₂ → S e₁ e₂ → ∀ p dir, R (r₁.drop p dir e₁) (r₂.drop p dir e₂)
  write : ∀ {r₁ r₂ e₁ e₂ p}, R r₁ r₂ → S e₁ e₂ → r₁.grid.get? p = some .empty →
    R (r₁.write p e₁) (r₂.write p e₂)
  receive : ∀ {r₁ r₂ e₁ e₂}, R r₁ r₂ → S e₁ e₂ → ∀ code,
    Option.Rel S (Operator.receive code e₁ r₁.context).1 (Operator.receive code e₂ r₂.context).1 ∧
      R (r₁.adopt (Operator.receive code e₁ r₁.context).2)
        (r₂.adopt (Operator.receive code e₂ r₂.context).2)

/-- The same task with a related value. -/
inductive Task.Related (S : Datum → Datum → Prop) : Task → Task → Prop
  | visit {e₁ e₂ p dir} (h : S e₁ e₂) : Related S (.visit e₁ p dir) (.visit e₂ p dir)
  | advance {e₁ e₂ p dir} (h : S e₁ e₂) : Related S (.advance e₁ p dir) (.advance e₂ p dir)
  | offer {o₁ o₂ p dir} (h : Option.Rel S o₁ o₂) : Related S (.offer o₁ p dir) (.offer o₂ p dir)

theorem isNone_of_rel {S : Datum → Datum → Prop} {o₁ o₂ : Option Datum} (h : Option.Rel S o₁ o₂) :
    o₂.isNone = o₁.isNone := by
  cases h <;> rfl

theorem rel_refl (o : Option Datum) : Option.Rel Eq o o := by
  cases o with
  | none => exact .none
  | some d => exact .some rfl

namespace Simulation

variable {S : Datum → Datum → Prop} {R : Router → Router → Prop} (hsim : Simulation S R)
include hsim

theorem free {r₁ r₂ : Router} (hr : R r₁ r₂) {guarded : Bool} {s : Pos × Dir}
    (hs : guarded = true → s ∉ r₁.trail) : guarded = true → s ∉ r₂.trail := by
  rw [hsim.trail hr]
  exact hs

/-- A cell that refuses a value refuses the related one. -/
theorem refuses {r₁ r₂ : Router} (hr : R r₁ r₂) {p : Pos}
    (h : ∀ c, r₁.grid.get? p = some c → c.isEmpty = false ∧ c.isRoutable = false) {c : Cell}
    (hc : r₂.grid.get? p = some c) : c.isEmpty = false ∧ c.isRoutable = false := by
  constructor
  · rw [← Bool.not_eq_true]
    intro hempty
    have hvacant : c = .empty := by
      cases c <;> first | rfl | cases hempty
    cases (h .empty ((hsim.vacant hr p).mp (hvacant ▸ hc))).1
  · rw [← Bool.not_eq_true]
    intro hroutable
    have hany := (Option.any_eq_true _ _).mpr ⟨c, hc, hroutable⟩
    rw [hsim.routable hr] at hany
    obtain ⟨c', hc', hroutable'⟩ := (Option.any_eq_true _ _).mp hany
    cases (h c' hc').2.symm.trans hroutable'

/-- A run of the one router is matched by a run of the other. -/
theorem run {guarded : Bool} {t₁ t₂ : Task} {r₁ r₁' r₂ : Router} {b : Bool}
    (h : Runs guarded t₁ r₁ b r₁') (ht : Task.Related S t₁ t₂) (hr : R r₁ r₂) :
    ∃ r₂', Runs guarded t₂ r₂ b r₂' ∧ R r₁' r₂' := by
  induction h generalizing t₂ r₂ with
  | @loop r d p dir hg hs =>
    cases ht with
    | visit he => exact ⟨_, .loop hg (hsim.trail hr ▸ hs), hsim.drop hr he p dir⟩
  | @land r d p dir hs hop =>
    cases ht with
    | visit he =>
      refine ⟨_, .land (hsim.free hr hs) ((hsim.hop hr p dir).trans hop), ?_⟩
      exact hsim.leave (hsim.write (hsim.enter hr _) he (Grid.get?_of_land hop)) _
  | @absorb r d p dir hs hop =>
    cases ht with
    | visit he =>
      refine ⟨_, .absorb (hsim.free hr hs) ((hsim.hop hr p dir).trans hop), ?_⟩
      exact hsim.leave (hsim.enter hr _) _
  | @blocked r d p dir hs hop =>
    cases ht with
    | visit he =>
      refine ⟨_, .blocked (hsim.free hr hs) ((hsim.hop hr p dir).trans hop), ?_⟩
      exact hsim.leave (hsim.enter hr _) _
  | @onward r d p dir q e b r' hs hop _ ih =>
    cases ht with
    | visit he =>
      obtain ⟨r₂', hnext, hr'⟩ := ih (.visit he) (hsim.enter hr (p, dir))
      refine ⟨_, .onward (hsim.free hr hs) ((hsim.hop hr p dir).trans hop) hnext, ?_⟩
      exact hsim.leave hr' _
  | @fork r d p dir e₁ e₂ b₁ b₂ r' r'' hs hop _ _ ih₁ ih₂ =>
    cases ht with
    | visit he =>
      obtain ⟨r₂', hfirst, hr'⟩ := ih₁ (.advance he) (hsim.enter hr (p, dir))
      obtain ⟨r₂'', hsecond, hr''⟩ := ih₂ (.advance he) hr'
      refine ⟨_, .fork (hsim.free hr hs) ((hsim.hop hr p dir).trans hop) hfirst hsecond, ?_⟩
      exact hsim.leave hr'' _
  | @deliver r d p dir code q b r' hs hop hq _ ih =>
    cases ht with
    | visit he =>
      obtain ⟨hpassed, hctx⟩ := hsim.receive (hsim.enter hr (p, dir)) he code
      obtain ⟨r₂', hbelow, hr'⟩ := ih (.offer hpassed) hctx
      refine ⟨_, .deliver (hsim.free hr hs) ((hsim.hop hr p dir).trans hop) ?_ hbelow, ?_⟩
      · exact (hsim.step? hr p .down).trans hq
      · exact hsim.leave hr' _
  | @deliverOff r d p dir code hs hop hq =>
    cases ht with
    | visit he =>
      obtain ⟨hpassed, hctx⟩ := hsim.receive (hsim.enter hr (p, dir)) he code
      have hanswer := isNone_of_rel hpassed
      refine ⟨_, ?_, hsim.leave hctx _⟩
      exact hanswer ▸ .deliverOff (hsim.free hr hs) ((hsim.hop hr p dir).trans hop)
        ((hsim.step? hr p .down).trans hq)
  | @off r d p dir hq =>
    cases ht with
    | advance he => exact ⟨r₂, .off ((hsim.step? hr p dir).trans hq), hr⟩
  | @on r d p dir q b r' hq _ ih =>
    cases ht with
    | advance he =>
      obtain ⟨r₂', hnext, hr'⟩ := ih (.visit he) hr
      exact ⟨r₂', .on ((hsim.step? hr p dir).trans hq) hnext, hr'⟩
  | nothing =>
    cases ht with
    | offer he =>
      cases he
      exact ⟨r₂, .nothing, hr⟩
  | @put r d p dir hc =>
    cases ht with
    | offer he =>
      cases he with
      | some he => exact ⟨_, .put ((hsim.vacant hr p).mpr hc), hsim.write hr he hc⟩
  | @carry r d p dir c b r' hc hroute _ ih =>
    cases ht with
    | offer he =>
      cases he with
      | some he =>
        obtain ⟨r₂', hnext, hr'⟩ := ih (.visit he) hr
        have hany := hsim.routable hr p
        rw [hc, Option.any_some, hroute, Option.any_eq_true] at hany
        obtain ⟨c', hc', hroute'⟩ := hany
        exact ⟨r₂', .carry hc' hroute' hnext, hr'⟩
  | @refuse r d p dir hc =>
    cases ht with
    | offer he =>
      cases he with
      | some he => exact ⟨r₂, .refuse fun c hcell => hsim.refuses hr hc hcell, hr⟩

/-- Placing without overwriting gives the same answer and leaves the routers related. -/
theorem place {r₁ r₂ : Router} (hr : R r₁ r₂) (hidle : r₁.trail = []) {o₁ o₂ : Option Datum}
    (ho : Option.Rel S o₁ o₂) (target : Pos) (dir : Dir) :
    (r₂.place o₂ target dir false).1 = (r₁.place o₁ target dir false).1 ∧
      R (r₁.place o₁ target dir false).2 (r₂.place o₂ target dir false).2 := by
  have hidle₂ : r₂.trail = [] := (hsim.trail hr).trans hidle
  obtain ⟨r', hother, hend⟩ := hsim.run (place_runs (.nil hidle) o₁ target dir) (.offer ho) hr
  obtain ⟨hflag, hrouter⟩ := (place_runs (.nil hidle₂) o₂ target dir).unique hother
  rw [hflag, hrouter]
  exact ⟨rfl, hend⟩

end Simulation

end Gridfall.Router
