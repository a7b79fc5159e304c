/-
  The writes of a run, one by one. `Writes guarded t r q v` says that in the course of the task `t`,
  begun with the router `r`, the value `v` is written at `q`: it has one rule for each way in which
  a write can come about, now or at a later turn of the task, and it does not look at the router at
  the end.

  Still, what is written stays: a run writes `v` at `q` exactly if the cell was empty before the run
  and holds `v` after it (`Runs.writes_iff`). For each part of a run fills empty cells only, and so
  the parts never write at the same place (`Fills.takes_iff`).
-/
import Gridfall.Proofs.Routing.Fill

namespace Gridfall

namespace Grid

/-- From the first grid to the second, the cell at `q` goes from empty to the value `v`. -/
def Takes (g g' : Grid) (q : Pos) (v : Datum) : Prop :=
  g.get? q = some .empty ∧ g'.get? q = some (.data v)

theorem not_takes_self (g : Grid) (q : Pos) (v : Datum) : ¬ g.Takes g q v := by
  rintro ⟨hempty, hdata⟩
  cases hempty.symm.trans hdata

theorem takes_set_iff {g : Grid} {p : Pos} (hp : g.get? p = some .empty) (d : Datum) {q : Pos}
    {v : Datum} : g.Takes (g.set p (.data d)) q v ↔ q = p ∧ v = d := by
  unfold Takes
  rw [get?_set (contains_of_get? hp)]
  by_cases hq : q = p
  · simp [hq, hp, eq_comm]
  · simp only [hq, if_false, false_and, iff_false]
    exact g.not_takes_self q v

/-- What is taken on the way from one grid to another is taken in one part of it. -/
theorem Fills.takes_iff {a b c : Grid} (h₁ : a.Fills b) (h₂ : b.Fills c) {q : Pos} {v : Datum} :
    a.Takes c q v ↔ a.Takes b q v ∨ b.Takes c q v := by
  constructor
  · rintro ⟨hempty, hdata⟩
    rcases h₁.cell q with hsame | ⟨-, d, hd⟩
    · exact .inr ⟨hsame.trans hempty, hdata⟩
    · have hkept := h₂.get?_of_not_empty hd (by simp)
      cases hkept.symm.trans hdata
      exact .inl ⟨hempty, hd⟩
  · rintro (⟨hempty, hdata⟩ | ⟨hempty, hdata⟩)
    · exact ⟨hempty, h₂.get?_of_not_empty hdata (by simp)⟩
    · exact ⟨h₁.get?_of_get? hempty rfl, hdata⟩

end Grid

namespace Router

/-- In the course of a task a value is written at a place. -/
inductive Writes (guarded : Bool) : Task → Router → Pos → Datum → Prop
  | land {r d p dir} (hs : guarded = true → (p, dir) ∉ r.trail)
      (hop : r.grid.hop p dir = .land) : Writes guarded (.visit d p dir) r p d
  | onward {r d p dir q e t v} (hs : guarded = true → (p, dir) ∉ r.trail)
      (hop : r.grid.hop p dir = .onward q e)
      (next : Writes guarded (.visit d q e) (r.enter (p, dir)) t v) :
      Writes guarded (.visit d p dir) r t v
  | first {r d p dir e₁ e₂ t v} (hs : guarded = true → (p, dir) ∉ r.trail)
      (hop : r.grid.hop p dir = .fork e₁ e₂)
      (next : Writes guarded (.advance d p e₁) (r.enter (p, dir)) t v) :
      Writes guarded (.visit d p dir) r t v
  | second {r d p dir e₁ e₂ b r₁ t v} (hs : guarded = true → (p, dir) ∉ r.trail)
      (hop : r.grid.hop p dir = .fork e₁ e₂)
      (first : Runs guarded (.advance d p e₁) (r.enter (p, dir)) b r₁)
      (next : Writes guarded (.advance d p e₂) r₁ t v) : Writes guarded (.visit d p dir) r t v
  | deliver {r d p dir code q t v} (hs : guarded = true → (p, dir) ∉ r.trail)
      (hop : r.grid.hop p dir = .deliver code) (hq : r.grid.step? p .down = some q)
      (below : Writes guarded (.offer (Operator.receive code d r.context).1 q .down)
        ((r.enter (p, dir)).adopt (Operator.receive code d r.context).2) t v) :
      Writes guarded (.visit d p dir) r t v
  | on {r d p dir q t v} (hq : r.grid.step? p dir = some q)
      (next : Writes guarded (.visit d q dir) r t v) : Writes guarded (.advance d p dir) r t v
  | put {r d p dir} (hc : r.grid.get? p = some .empty) :
      Writes guarded (.offer (some d) p dir) r p d
  | carry {r d p dir c t v} (hc : r.grid.get? p = some c) (hr : c.isRoutable = true)
      (next : Writes guarded (.visit d p dir) r t v) : Writes guarded (.offer (some d) p dir) r t v

variable {guarded : Bool} {r : Router} {d : Datum} {p : Pos} {dir : Dir} {t : Pos} {v : Datum}

/-- What is written after a hop. -/
def HopWrites (guarded : Bool) (r : Router) (d : Datum) (p : Pos) (dir : Dir) (t : Pos)
    (v : Datum) : Hop → Prop
  | .land => t = p ∧ v = d
  | .onward q e => Writes guarded (.visit d q e) (r.enter (p, dir)) t v
  | .fork e₁ e₂ => Writes guarded (.advance d p e₁) (r.enter (p, dir)) t v ∨
      ∃ b r₁, Runs guarded (.advance d p e₁) (r.enter (p, dir)) b r₁ ∧
        Writes guarded (.advance d p e₂) r₁ t v
  | .deliver code => ∃ q, r.grid.step? p .down = some q ∧
      Writes guarded (.offer (Operator.receive code d r.context).1 q .down)
        ((r.enter (p, dir)).adopt (Operator.receive code d r.context).2) t v
  | .absorb | .blocked => False

theorem writes_visit_iff : Writes guarded (.visit d p dir) r t v ↔
    (guarded = true → (p, dir) ∉ r.trail) ∧ HopWrites guarded r d p dir t v (r.grid.hop p dir) := by
  constructor
  · intro h
    cases h with
    | land hs hop => rw [hop]; exact ⟨hs, rfl, rfl⟩
    | onward hs hop next => rw [hop]; exact ⟨hs, next⟩
    | first hs hop next => rw [hop]; exact ⟨hs, .inl next⟩
    | second hs hop first next => rw [hop]; exact ⟨hs, .inr ⟨_, _, first, next⟩⟩
    | deliver hs hop hq below => rw [hop]; exact ⟨hs, _, hq, below⟩
  · rintro ⟨hs, h⟩
    cases hop : r.grid.hop p dir with
    | land => rw [hop] at h; obtain ⟨rfl, rfl⟩ := h; exact .land hs hop
    | onward q e => rw [hop] at h; exact .onward hs hop h
    | fork e₁ e₂ =>
      rw [hop] at h
      rcases h with h | ⟨b, r₁, hfirst, h⟩
      · exact .first hs hop h
      · exact .second hs hop hfirst h
    | deliver code =>
      rw [hop] at h
      obtain ⟨q, hq, h⟩ := h
      exact .deliver hs hop hq h
    | absorb | blocked => rw [hop] at h; exact h.elim

/-- A run writes what its grid has taken at the end. -/
theorem Runs.writes_iff {task : Task} {r' : Router} {b : Bool} (h : Runs guarded task r b r') :
    Writes guarded task r t v ↔ r.grid.Takes r'.grid t v := by
  induction h with
  | loop hg hs =>
    refine iff_of_false (fun hw => ?_) (Grid.not_takes_self _ t v)
    exact (writes_visit_iff.mp hw).1 hg hs
  | land hs hop =>
    rw [writes_visit_iff, hop]
    refine (and_iff_right hs).trans (Iff.symm ?_)
    exact Grid.takes_set_iff (Grid.get?_of_land hop) _
  | absorb hs hop | blocked hs hop =>
    rw [writes_visit_iff, hop]
    exact iff_of_false (fun hw => hw.2) (Grid.not_takes_self _ t v)
  | onward hs hop _ ih =>
    rw [writes_visit_iff, hop]
    exact (and_iff_right hs).trans ih
  | fork hs hop first second ih₁ ih₂ =>
    rw [writes_visit_iff, hop]
    refine (and_iff_right hs).trans (Iff.trans ?_ (first.outcome.fills.takes_iff
      second.outcome.fills).symm)
    refine or_congr ih₁ ⟨?_, fun htakes => ⟨_, _, first, ih₂.mpr htakes⟩⟩
    rintro ⟨b, r₁, hfirst, hw⟩
    obtain ⟨-, rfl⟩ := first.unique hfirst
    exact ih₂.mp hw
  | deliver hs hop hq _ ih =>
    rw [writes_visit_iff, hop]
    refine (and_iff_right hs).trans (Iff.trans ?_ ih)
    constructor
    · rintro ⟨q, hq', hw⟩
      cases hq.symm.trans hq'
      exact hw
    · exact fun hw => ⟨_, hq, hw⟩
  | deliverOff hs hop hq =>
    rw [writes_visit_iff, hop]
    refine iff_of_false ?_ (Grid.not_takes_self _ t v)
    rintro ⟨-, q, hq', -⟩
    cases hq.symm.trans hq'
  | off hq =>
    refine iff_of_false (fun hw => ?_) (Grid.not_takes_self _ t v)
    cases hw with
    | on hq' _ => cases hq.symm.trans hq'
  | on hq _ ih =>
    refine Iff.trans ⟨fun hw => ?_, .on hq⟩ ih
    cases hw with
    | on hq' hw => cases hq.symm.trans hq'; exact hw
  | nothing =>
    refine iff_of_false (fun hw => ?_) (Grid.not_takes_self _ t v)
    cases hw
  | put hc =>
    refine Iff.trans ⟨fun hw => ?_, ?_⟩ (Grid.takes_set_iff hc _).symm
    · cases hw with
      | put _ => exact ⟨rfl, rfl⟩
      | carry hc' hr _ => cases hc.symm.trans hc'; cases hr
    · rintro ⟨rfl, rfl⟩
      exact .put hc
  | carry hc hr _ ih =>
    refine Iff.trans ⟨fun hw => ?_, .carry hc hr⟩ ih
    cases hw with
    | put hc' => cases hc.symm.trans hc'; cases hr
    | carry _ _ hw => exact hw
  | refuse hc =>
    refine iff_of_false (fun hw => ?_) (Grid.not_takes_self _ t v)
    cases hw with
    | put hc' => cases (hc _ hc').1
    | carry hc' hr _ => cases (hc _ hc').2.symm.trans hr

end Router

end Gridfall
