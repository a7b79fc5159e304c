/-
  The walk of a value as a relation.

  `explore guarded fuel` is the walk written turn by turn: a state is put on the trail, the hop is
  made, and the state is taken off again. With the guard it is `walk` (`walk_eq_explore`); without
  the guard it is the same walk with the check of the trail left out.

  `Runs guarded t r b r'` says that the task `t`, begun with the router `r`, ends with the answer
  `b` and the router `r'`. It has one rule for each thing that can happen to a value, and no fuel.
  `explore_sound` and `Runs.complete` tie it to the walk: an answer of `explore` is a run, and a
  run is what `explore` answers with any fuel that is large enough. So a run is unique
  (`Runs.unique`), and every fact about placing is proved by induction on `Runs`.
-/
import Gridfall.Proofs.Grid
import Gridfall.Routing.Place

namespace Gridfall.Router

/-! ## The walk, turn by turn -/

/-- Takes a state off the trail. -/
def leave (r : Router) (s : Pos × Dir) : Router := { r with trail := r.trail.erase s }

/-- Takes over what an operator has changed. -/
def adopt (r : Router) (context : Context) : Router := { r with context }

@[simp] theorem grid_enter (r : Router) (s : Pos × Dir) : (r.enter s).grid = r.grid := rfl

@[simp] theorem grid_leave (r : Router) (s : Pos × Dir) : (r.leave s).grid = r.grid := rfl

@[simp] theorem grid_adopt (r : Router) (ctx : Context) : (r.adopt ctx).grid = r.grid := rfl

/-- What the cell `p` does with a value, with `carry` for what follows. -/
def pursue (carry : Carrier) : Carrier := fun r d p dir =>
  match r.grid.hop p dir with
  | .land => some (true, r.write p d)
  | .deliver code => deliver carry r code d p
  | .absorb => some (true, r)
  | .fork first second => fork carry r d p first second
  | .onward q e => carry r d q e
  | .blocked => some (false, r)

/-- One turn: the check of the trail, if there is one, and then the hop. -/
def visit (guarded : Bool) (carry : Carrier) : Carrier := fun r d p dir =>
  if guarded && r.trail.contains (p, dir) then some (false, r.drop p dir d)
  else
    (pursue carry (r.enter (p, dir)) d p dir).map fun res => (res.1, res.2.leave (p, dir))

/-- The walk along paths of at most `fuel` hops. -/
def explore (guarded : Bool) : (fuel : Nat) → Carrier
  | 0 => fun _ _ _ _ => none
  | fuel + 1 => visit guarded (explore guarded fuel)

/-- The states that a walk has entered before only matter at its end. -/
theorem walk_entered (fuel : Nat) (r : Router) (d : Datum) (p : Pos) (dir : Dir)
    (entered : List (Pos × Dir)) :
    walk fuel r d p dir entered =
      (walk fuel r d p dir []).map fun res => (res.1, res.2.retreat entered) := by
  induction fuel generalizing r p dir entered with
  | zero => rfl
  | succ fuel ih =>
    unfold walk
    split
    · rfl
    · dsimp only
      cases (r.enter (p, dir)).grid.hop p dir with
      | onward q e =>
        dsimp only
        rw [ih _ _ _ ((p, dir) :: entered), ih _ _ _ [(p, dir)], Option.map_map]
        rfl
      | deliver code => dsimp only; rw [Option.map_map]; rfl
      | fork first second => dsimp only; rw [Option.map_map]; rfl
      | _ => rfl

theorem walk_eq_explore (fuel : Nat) (r : Router) (d : Datum) (p : Pos) (dir : Dir) :
    walk fuel r d p dir [] = explore true fuel r d p dir := by
  induction fuel generalizing r d p dir with
  | zero => rfl
  | succ fuel ih =>
    have hcarry : (fun r d p dir => walk fuel r d p dir []) = explore true fuel := by
      funext r d p dir
      exact ih r d p dir
    unfold walk explore visit pursue
    rw [Bool.true_and]
    split
    · rfl
    · dsimp only
      rw [hcarry]
      cases (r.enter (p, dir)).grid.hop p dir with
      | onward q e => dsimp only; rw [walk_entered, ih]; rfl
      | _ => rfl

theorem send_eq_explore (r : Router) : r.send = explore true r.reach := by
  funext r' d p dir
  exact walk_eq_explore r.reach r' d p dir

/-! ## Tasks and their runs -/

/-- What a router can be asked to do with a value. -/
inductive Task where
  /-- Carry it into a cell. -/
  | visit (d : Datum) (p : Pos) (dir : Dir)
  /-- Carry it into the neighbour in a direction. -/
  | advance (d : Datum) (p : Pos) (dir : Dir)
  /-- Place it, or nothing, at a target without overwriting. -/
  | offer (d : Option Datum) (p : Pos) (dir : Dir)

/-- The runs of a task. The check of the trail is made if `guarded`. -/
inductive Runs (guarded : Bool) : Task → Router → Bool → Router → Prop
  | loop {r d p dir} (hg : guarded = true) (hs : (p, dir) ∈ r.trail) :
      Runs guarded (.visit d p dir) r false (r.drop p dir d)
  | land {r d p dir} (hs : guarded = true → (p, dir) ∉ r.trail)
      (hop : r.grid.hop p dir = .land) :
      Runs guarded (.visit d p dir) r true (((r.enter (p, dir)).write p d).leave (p, dir))
  | absorb {r d p dir} (hs : guarded = true → (p, dir) ∉ r.trail)
      (hop : r.grid.hop p dir = .absorb) :
      Runs guarded (.visit d p dir) r true ((r.enter (p, dir)).leave (p, dir))
  | blocked {r d p dir} (hs : guarded = true → (p, dir) ∉ r.trail)
      (hop : r.grid.hop p dir = .blocked) :
      Runs guarded (.visit d p dir) r false ((r.enter (p, dir)).leave (p, dir))
  | onward {r d p dir q e b r'} (hs : guarded = true → (p, dir) ∉ r.trail)
      (hop : r.grid.hop p dir = .onward q e)
      (next : Runs guarded (.visit d q e) (r.enter (p, dir)) b r') :
      Runs guarded (.visit d p dir) r b (r'.leave (p, dir))
  | fork {r d p dir e₁ e₂ b₁ b₂ r₁ r₂} (hs : guarded = true → (p, dir) ∉ r.trail)
      (hop : r.grid.hop p dir = .fork e₁ e₂)
      (first : Runs guarded (.advance d p e₁) (r.enter (p, dir)) b₁ r₁)
      (second : Runs guarded (.advance d p e₂) r₁ b₂ r₂) :
      Runs guarded (.visit d p dir) r (b₁ || b₂) (r₂.leave (p, dir))
  | deliver {r d p dir code q b r'} (hs : guarded = true → (p, dir) ∉ r.trail)
      (hop : r.grid.hop p dir = .deliver code) (hq : r.grid.step? p .down = some q)
      (below : Runs guarded (.offer (Operator.receive code d r.context).1 q .down)
        ((r.enter (p, dir)).adopt (Operator.receive code d r.context).2) b r') :
      Runs guarded (.visit d p dir) r b (r'.leave (p, dir))
  | deliverOff {r d p dir code} (hs : guarded = true → (p, dir) ∉ r.trail)
      (hop : r.grid.hop p dir = .deliver code) (hq : r.grid.step? p .down = none) :
      Runs guarded (.visit d p dir) r (Operator.receive code d r.context).1.isNone
        (((r.enter (p, dir)).adopt (Operator.receive code d r.context).2).leave (p, dir))
  | off {r d p dir} (hq : r.grid.step? p dir = none) : Runs guarded (.advance d p dir) r false r
  | on {r d p dir q b r'} (hq : r.grid.step? p dir = some q)
      (next : Runs guarded (.visit d q dir) r b r') : Runs guarded (.advance d p dir) r b r'
  | nothing {r p dir} : Runs guarded (.offer none p dir) r true r
  | put {r d p dir} (hc : r.grid.get? p = some .empty) :
      Runs guarded (.offer (some d) p dir) r true (r.write p d)
  | carry {r d p dir c b r'} (hc : r.grid.get? p = some c) (hr : c.isRoutable = true)
      (next : Runs guarded (.visit d p dir) r b r') : Runs guarded (.offer (some d) p dir) r b r'
  | refuse {r d p dir}
      (hc : ∀ c, r.grid.get? p = some c → c.isEmpty = false ∧ c.isRoutable = false) :
      Runs guarded (.offer (some d) p dir) r false r

/-! ## Runs are the answers of the walk -/

/-- Does a task, with `carry` for pipes and special operators. -/
def Task.perform (carry : Carrier) (r : Router) : Task → Option (Bool × Router)
  | .visit d p dir => carry r d p dir
  | .advance d p dir => Router.advance carry r d p dir
  | .offer d p dir => Router.offer carry r d p dir false

/-- The answers of `carry` are runs. -/
def Sound (guarded : Bool) (carry : Carrier) : Prop :=
  ∀ r d p dir b r', carry r d p dir = some (b, r') → Runs guarded (.visit d p dir) r b r'

theorem Sound.perform {guarded : Bool} {carry : Carrier} (hc : Sound guarded carry) {t : Task}
    {r r' : Router} {b : Bool} (h : t.perform carry r = some (b, r')) : Runs guarded t r b r' := by
  cases t with
  | visit d p dir => exact hc r d p dir b r' h
  | advance d p dir =>
    simp only [Task.perform, advance] at h
    split at h
    · next q hq => exact .on hq (hc _ _ _ _ _ _ h)
    · next hq => cases h; exact .off hq
  | offer d p dir =>
    simp only [Task.perform, offer, Bool.false_or] at h
    split at h
    · cases h; exact .nothing
    · split at h
      · next hg => cases h; exact .refuse (by simp [hg])
      · next cell hg =>
        split at h
        · next he =>
          cases cell <;> simp [Cell.isEmpty] at he
          cases h; exact .put hg
        · next he =>
          split at h
          · next hr => exact .carry hg hr (hc _ _ _ _ _ _ h)
          · next hr =>
            cases h
            refine .refuse fun c hc' => ?_
            rw [hg] at hc'
            cases hc'
            simp_all

theorem Sound.visit {guarded : Bool} {carry : Carrier} (hc : Sound guarded carry) :
    Sound guarded (visit guarded carry) := by
  intro r d p dir b r' h
  unfold Router.visit at h
  split at h
  · next hg =>
    obtain ⟨hg, hs⟩ := (Bool.and_eq_true _ _).mp hg
    cases h
    exact .loop hg (List.contains_iff_mem.mp hs)
  · next hg =>
    have hs : guarded = true → (p, dir) ∉ r.trail := by
      rintro rfl hmem
      exact hg (by simpa using hmem)
    obtain ⟨⟨b₀, r₀⟩, hres, heq⟩ := Option.map_eq_some_iff.mp h
    cases heq
    rw [pursue, grid_enter] at hres
    cases hop : r.grid.hop p dir with
    | land => rw [hop] at hres; cases hres; exact .land hs hop
    | absorb => rw [hop] at hres; cases hres; exact .absorb hs hop
    | blocked => rw [hop] at hres; cases hres; exact .blocked hs hop
    | onward q e =>
      rw [hop] at hres
      exact .onward hs hop (hc _ _ _ _ _ _ hres)
    | fork e₁ e₂ =>
      rw [hop] at hres
      obtain ⟨⟨b₁, r₁⟩, h₁, hres⟩ := Option.bind_eq_some_iff.mp hres
      obtain ⟨⟨b₂, r₂⟩, h₂, hres⟩ := Option.bind_eq_some_iff.mp hres
      cases hres
      exact .fork hs hop (hc.perform h₁) (hc.perform h₂)
    | deliver code =>
      rw [hop] at hres
      simp only [deliver] at hres
      split at hres
      · next q hq => exact .deliver hs hop hq (hc.perform hres)
      · next hq => cases hres; exact .deliverOff hs hop hq

theorem explore_sound (guarded : Bool) (fuel : Nat) : Sound guarded (explore guarded fuel) := by
  induction fuel with
  | zero => intro r d p dir b r' h; cases h
  | succ fuel ih => exact ih.visit

theorem visit_of_free {guarded : Bool} {r : Router} {p : Pos} {dir : Dir}
    (hs : guarded = true → (p, dir) ∉ r.trail) (carry : Carrier) (d : Datum) :
    visit guarded carry r d p dir =
      (pursue carry (r.enter (p, dir)) d p dir).map fun res => (res.1, res.2.leave (p, dir)) := by
  have hg : ¬ (guarded && r.trail.contains (p, dir)) = true := by
    cases guarded with
    | false => simp
    | true => simpa using hs rfl
  rw [visit, if_neg hg]

/-- A run is what the walk answers, with any fuel from some amount on. -/
theorem Runs.complete {guarded : Bool} {t : Task} {r r' : Router} {b : Bool}
    (h : Runs guarded t r b r') :
    ∃ least, ∀ fuel, least ≤ fuel → t.perform (explore guarded fuel) r = some (b, r') := by
  -- A visit needs one more hop than what it leads to; the other tasks need no hop of their own.
  have succ : ∀ {least fuel : Nat}, least + 1 ≤ fuel → ∃ k, fuel = k + 1 ∧ least ≤ k :=
    fun {_ fuel} hle => ⟨fuel - 1, by omega, by omega⟩
  induction h with
  | loop hg hs =>
    refine ⟨1, fun fuel hle => ?_⟩
    obtain ⟨k, rfl, -⟩ := succ hle
    simp [Task.perform, explore, visit, hg, hs]
  | land hs hop =>
    refine ⟨1, fun fuel hle => ?_⟩
    obtain ⟨k, rfl, -⟩ := succ hle
    simp [Task.perform, explore, visit_of_free hs, pursue, hop]
  | absorb hs hop =>
    refine ⟨1, fun fuel hle => ?_⟩
    obtain ⟨k, rfl, -⟩ := succ hle
    simp [Task.perform, explore, visit_of_free hs, pursue, hop]
  | blocked hs hop =>
    refine ⟨1, fun fuel hle => ?_⟩
    obtain ⟨k, rfl, -⟩ := succ hle
    simp [Task.perform, explore, visit_of_free hs, pursue, hop]
  | onward hs hop _ ih =>
    obtain ⟨least, hl⟩ := ih
    refine ⟨least + 1, fun fuel hle => ?_⟩
    obtain ⟨k, rfl, hk⟩ := succ hle
    have hnext := hl k hk
    simp only [Task.perform] at hnext ⊢
    simp [explore, visit_of_free hs, pursue, hop, hnext]
  | fork hs hop _ _ ih₁ ih₂ =>
    obtain ⟨l₁, hl₁⟩ := ih₁
    obtain ⟨l₂, hl₂⟩ := ih₂
    refine ⟨max l₁ l₂ + 1, fun fuel hle => ?_⟩
    obtain ⟨k, rfl, hk⟩ := succ hle
    have h₁ := hl₁ k (by omega)
    have h₂ := hl₂ k (by omega)
    simp only [Task.perform] at h₁ h₂ ⊢
    simp [explore, visit_of_free hs, pursue, hop, Router.fork, h₁, h₂]
  | deliver hs hop hq _ ih =>
    obtain ⟨least, hl⟩ := ih
    refine ⟨least + 1, fun fuel hle => ?_⟩
    obtain ⟨k, rfl, hk⟩ := succ hle
    simp only [Task.perform, explore, visit_of_free hs, pursue, hop, Router.deliver, grid_enter, hq]
    exact congrArg (Option.map _) (hl k hk)
  | deliverOff hs hop hq =>
    refine ⟨1, fun fuel hle => ?_⟩
    obtain ⟨k, rfl, -⟩ := succ hle
    simp only [Task.perform, explore, visit_of_free hs, pursue, hop, Router.deliver, grid_enter, hq]
    rfl
  | off hq => exact ⟨0, fun fuel _ => by simp [Task.perform, Router.advance, hq]⟩
  | on hq _ ih =>
    obtain ⟨least, hl⟩ := ih
    refine ⟨least, fun fuel hle => ?_⟩
    simp only [Task.perform, Router.advance, hq]
    exact hl fuel hle
  | nothing => exact ⟨0, fun fuel _ => rfl⟩
  | put hc => exact ⟨0, fun fuel _ => by simp [Task.perform, Router.offer, hc, Cell.isEmpty]⟩
  | @carry r d p dir c b r' hc hr _ ih =>
    obtain ⟨least, hl⟩ := ih
    refine ⟨least, fun fuel hle => ?_⟩
    have hempty : c.isEmpty = false := by cases c <;> simp_all [Cell.isEmpty, Cell.isRoutable]
    simp only [Task.perform, Router.offer, hc, hempty, hr, Bool.or_self, Bool.false_eq_true,
      if_false, if_true]
    exact hl fuel hle
  | @refuse r d p dir hc =>
    refine ⟨0, fun fuel _ => ?_⟩
    cases hg : r.grid.get? p with
    | none => simp [Task.perform, Router.offer, hg]
    | some c => simp [Task.perform, Router.offer, hg, hc c hg]

theorem Runs.unique {guarded : Bool} {t : Task} {r r₁ r₂ : Router} {b₁ b₂ : Bool}
    (h₁ : Runs guarded t r b₁ r₁) (h₂ : Runs guarded t r b₂ r₂) : b₁ = b₂ ∧ r₁ = r₂ := by
  obtain ⟨l₁, hl₁⟩ := h₁.complete
  obtain ⟨l₂, hl₂⟩ := h₂.complete
  have := (hl₁ (max l₁ l₂) (by omega)).symm.trans (hl₂ (max l₁ l₂) (by omega))
  simpa using this

end Gridfall.Router
