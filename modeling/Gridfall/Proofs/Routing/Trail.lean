/-
  What the trail holds while a value is on its way.

  A walk that comes to a duplicator or to a special operator begins another walk and waits for it.
  To speak of the middle of a placement, `Moment` writes the walks that wait as a list, each with
  the states that it has entered itself, and `next` takes a placement from one moment to the next.
  The last moment of a placement has the answer and the router of `place` (`place_later`), so these
  are the moments that a placement goes through, and no others.

  A `Footstep` is a state with the number of writes there had been when it was entered. So the
  footsteps of the active path, that is, of the walk under way and of all that wait for it, tell
  which of its states were entered since the last write. These are the trail, no more and no less
  (`Faithful`). The point is the end of a walk: it takes off the trail every state that it has
  entered, also one that a write has wiped from the trail since, and that may have been entered
  again. It cannot be that a walk that still waits has entered it again, since that walk was there
  first: along the path, from the latest footstep to the earliest, the number of writes never grows
  (`Faithful.retreat`).

  After a placement there is no path any more, and the trail is empty. So a router that has placed
  values is as good as a new one (`placeAll_eq`).
-/
import Gridfall.Proofs.Routing.Simulation
import Gridfall.Proofs.Routing.Termination
import Mathlib.Logic.Relation

namespace Gridfall.Router

open Relation (ReflTransGen)

/-! ## The moments of a placement -/

/-- A state that a walk has entered, and the number of writes by then. -/
structure Footstep where
  state : Pos × Dir
  writes : Nat

/-- A walk that waits for another, with its own footsteps, the latest first. -/
inductive Waiting where
  /-- It waits for the first of two branches; the value goes the second way then. -/
  | branch (own : List Footstep) (d : Datum) (p : Pos) (second : Dir)
  /-- It waits for the last that it has begun. It succeeds if that does, or if it has before. -/
  | last (own : List Footstep) (before : Bool)

/-- The footsteps of a walk that waits. -/
def Waiting.own : Waiting → List Footstep
  | .branch own _ _ _ | .last own _ => own

/-- A moment of a placement. -/
inductive Moment where
  /-- A value is about to enter a state, on a walk with these footsteps of its own. -/
  | hop (r : Router) (d : Datum) (p : Pos) (dir : Dir) (own : List Footstep)
      (waiting : List Waiting)
  /-- There is an answer for the walk that waits, or for the whole placement. -/
  | answer (r : Router) (b : Bool) (waiting : List Waiting)

namespace Moment

/-- The router at a moment. -/
def router : Moment → Router
  | hop r _ _ _ _ _ | answer r _ _ => r

/-- The footsteps of the active path, the latest first. -/
def path : Moment → List Footstep
  | hop _ _ _ _ own waiting => own ++ waiting.flatMap Waiting.own
  | answer _ _ waiting => waiting.flatMap Waiting.own

/-- A value goes one cell on, by a walk of its own. -/
def advance (r : Router) (d : Datum) (p : Pos) (dir : Dir) (waiting : List Waiting) : Moment :=
  match r.grid.step? p dir with
  | some q => .hop r d q dir [] waiting
  | none => .answer r false waiting

/-- A value, or nothing, is placed. -/
def offer (r : Router) (d : Option Datum) (target : Pos) (dir : Dir) (overwrite : Bool)
    (waiting : List Waiting) : Moment :=
  match d with
  | none => .answer r true waiting
  | some d =>
    match r.grid.get? target with
    | none => .answer r false waiting
    | some cell =>
      if overwrite || cell.isEmpty then .answer (r.write target d) true waiting
      else if cell.isRoutable then .hop r d target dir [] waiting
      else .answer r false waiting

/-- The end of a walk: its states are taken off the trail. -/
def finish (r : Router) (own : List Footstep) (b : Bool) (waiting : List Waiting) : Moment :=
  .answer (r.retreat (own.map Footstep.state)) b waiting

/-- What a hop leads to, once its state is on the trail and among the footsteps of the walk. -/
def pursue (r : Router) (d : Datum) (p : Pos) (own : List Footstep) (waiting : List Waiting) :
    Hop → Moment
  | .land => finish (r.write p d) own true waiting
  | .absorb => finish r own true waiting
  | .blocked => finish r own false waiting
  | .onward q e => hop r d q e own waiting
  | .fork first second => advance r d p first (.branch own d p second :: waiting)
  | .deliver code =>
    let (emitted, context) := Operator.receive code d r.context
    match r.grid.step? p .down with
    | some q => offer (r.adopt context) emitted q .down false (.last own false :: waiting)
    | none => finish (r.adopt context) own emitted.isNone waiting

/-- The moment after. There is none after the answer for the whole placement. -/
def next : Moment → Option Moment
  | hop r d p dir own waiting =>
    if r.trail.contains (p, dir) then some (finish (r.drop p dir d) own false waiting)
    else
      some (pursue (r.enter (p, dir)) d p (⟨(p, dir), r.writes⟩ :: own) waiting
        (r.grid.hop p dir))
  | answer r b (.branch own d p second :: waiting) =>
    some (advance r d p second (.last own b :: waiting))
  | answer r b (.last own before :: waiting) => some (finish r own (before || b) waiting)
  | answer _ _ [] => none

/-- A moment, or one that comes after it. -/
def Later : Moment → Moment → Prop := ReflTransGen fun m m' => m.next = some m'

theorem Later.head {m m' m'' : Moment} (h : m.next = some m') (hlater : Later m' m'') :
    Later m m'' := ReflTransGen.head h hlater

/-- Every moment after the first is on the way to the last. -/
theorem Later.last_of_later {m m' : Moment} {r : Router} {b : Bool} (h : Later m (.answer r b []))
    (hm : Later m m') : Later m' (.answer r b []) := by
  have hunique : Relator.RightUnique fun m m' : Moment => m.next = some m' :=
    fun _ _ _ h₁ h₂ => Option.some.inj (h₁.symm.trans h₂)
  rcases ReflTransGen.total_of_right_unique hunique hm h with hlast | hover
  · exact hlast
  · -- Nothing comes after the last moment.
    obtain rfl | ⟨m'', hnext, -⟩ := hover.cases_head
    · exact .refl
    · cases hnext

end Moment

/-! ## The moments are those of the walk -/

/-- The answers of `carry` are reached moment by moment. -/
def Stepwise (carry : Carrier) : Prop :=
  ∀ r d p dir b r', carry r d p dir = some (b, r') →
    ∀ waiting, Moment.Later (.hop r d p dir [] waiting) (.answer r' b waiting)

theorem Stepwise.advance {carry : Carrier} (hc : Stepwise carry) {r r' : Router} {d : Datum}
    {p : Pos} {dir : Dir} {b : Bool} (h : Router.advance carry r d p dir = some (b, r'))
    (waiting : List Waiting) :
    Moment.Later (.advance r d p dir waiting) (.answer r' b waiting) := by
  unfold Router.advance at h
  unfold Moment.advance
  cases hq : r.grid.step? p dir with
  | some q =>
    rw [hq] at h
    exact hc _ _ _ _ _ _ h waiting
  | none =>
    rw [hq] at h
    cases h
    exact .refl

theorem Stepwise.offer {carry : Carrier} (hc : Stepwise carry) {r r' : Router}
    {d : Option Datum} {p : Pos} {dir : Dir} {overwrite b : Bool}
    (h : Router.offer carry r d p dir overwrite = some (b, r')) (waiting : List Waiting) :
    Moment.Later (.offer r d p dir overwrite waiting) (.answer r' b waiting) := by
  unfold Router.offer at h
  unfold Moment.offer
  cases d with
  | none =>
    cases h
    exact .refl
  | some d =>
    cases hcell : r.grid.get? p with
    | none =>
      rw [hcell] at h
      cases h
      exact .refl
    | some cell =>
      simp only [hcell] at h ⊢
      split at h
      · next hfree =>
        cases h
        rw [if_pos hfree]
        exact .refl
      · next hfree =>
        rw [if_neg hfree]
        split at h
        · next hroute =>
          rw [if_pos hroute]
          exact hc _ _ _ _ _ _ h waiting
        · next hroute =>
          cases h
          rw [if_neg hroute]
          exact .refl

theorem walk_later (fuel : Nat) (r : Router) (d : Datum) (p : Pos) (dir : Dir)
    (own : List Footstep) (b : Bool) (r' : Router)
    (h : walk fuel r d p dir (own.map Footstep.state) = some (b, r')) (waiting : List Waiting) :
    Moment.Later (.hop r d p dir own waiting) (.answer r' b waiting) := by
  induction fuel generalizing r d p dir own b r' waiting with
  | zero => cases h
  | succ fuel ih =>
    have hcarry : Stepwise fun r d p dir => walk fuel r d p dir [] :=
      fun r d p dir b r' h waiting => ih r d p dir [] b r' h waiting
    unfold walk at h
    split at h
    · next hs =>
      cases h
      exact .head (if_pos hs) .refl
    · next hs =>
      refine .head (if_neg hs) ?_
      dsimp only at h
      rw [grid_enter] at h
      cases hop : r.grid.hop p dir with
      | land | absorb | blocked =>
        rw [hop] at h
        cases h
        exact .refl
      | onward q e =>
        rw [hop] at h
        exact ih _ _ _ _ (⟨(p, dir), r.writes⟩ :: own) _ _ h waiting
      | fork e₁ e₂ =>
        rw [hop] at h
        obtain ⟨⟨b₀, r₀⟩, hfork, hfinish⟩ := Option.map_eq_some_iff.mp h
        obtain ⟨⟨b₁, r₁⟩, hfirst, hfork⟩ := Option.bind_eq_some_iff.mp hfork
        obtain ⟨⟨b₂, r₂⟩, hsecond, hfork⟩ := Option.bind_eq_some_iff.mp hfork
        cases hfork
        cases hfinish
        have first := hcarry.advance hfirst
          (.branch (⟨(p, dir), r.writes⟩ :: own) d p e₂ :: waiting)
        have second := hcarry.advance hsecond
          (.last (⟨(p, dir), r.writes⟩ :: own) b₁ :: waiting)
        exact first.trans (.head rfl (second.trans (.head rfl .refl)))
      | deliver code =>
        rw [hop] at h
        obtain ⟨⟨b₀, r₀⟩, hdeliver, hfinish⟩ := Option.map_eq_some_iff.mp h
        cases hfinish
        simp only [deliver, grid_enter] at hdeliver
        simp only [Moment.pursue, grid_enter]
        cases hq : r.grid.step? p .down with
        | some q =>
          rw [hq] at hdeliver
          have below := hcarry.offer hdeliver
            (.last (⟨(p, dir), r.writes⟩ :: own) false :: waiting)
          exact below.trans (.head rfl .refl)
        | none =>
          rw [hq] at hdeliver
          cases hdeliver
          exact .refl

theorem offer_send {r : Router} (hr : r.trail = []) (d : Option Datum) (target : Pos) (dir : Dir)
    (overwrite : Bool) :
    offer r.send r d target dir overwrite = some (r.place d target dir overwrite) := by
  cases overwrite with
  | true => exact offer_overwriting _ r d target dir
  | false =>
    rw [send_eq_explore]
    exact offer_explore (.nil hr) d target dir (Nat.le_refl _)

/-- The last moment of a placement is what `place` gives. -/
theorem place_later {r : Router} (hr : r.trail = []) (d : Option Datum) (target : Pos) (dir : Dir)
    (overwrite : Bool) :
    Moment.Later (.offer r d target dir overwrite [])
      (.answer (r.place d target dir overwrite).2 (r.place d target dir overwrite).1 []) := by
  have hsend : Stepwise r.send := fun r' d p dir b r'' h => walk_later r.reach r' d p dir [] b r'' h
  exact hsend.offer (offer_send hr d target dir overwrite) []

/-! ## The trail along a path -/

/-- The states of a path that were entered since the last of so many writes. -/
def recent (writes : Nat) (path : List Footstep) : List (Pos × Dir) :=
  (path.filter fun f => f.writes == writes).map Footstep.state

theorem mem_recent {writes : Nat} {path : List Footstep} {s : Pos × Dir} :
    s ∈ recent writes path ↔ ∃ f ∈ path, f.writes = writes ∧ f.state = s := by
  simp [recent, and_assoc]

theorem recent_append (writes : Nat) (path path' : List Footstep) :
    recent writes (path ++ path') = recent writes path ++ recent writes path' := by
  rw [recent, List.filter_append, List.map_append, recent, recent]

/-- The trail is what was entered on the path since the last write. -/
structure Faithful (r : Router) (path : List Footstep) : Prop where
  trail : r.trail = recent r.writes path
  nodup : r.trail.Nodup
  /-- The earlier a footstep, the fewer writes there had been. -/
  ordered : path.Pairwise fun later earlier => earlier.writes ≤ later.writes
  past : ∀ f ∈ path, f.writes ≤ r.writes

namespace Faithful

variable {r : Router} {path : List Footstep}

theorem nil (hr : r.trail = []) : Faithful r [] := by
  refine ⟨hr, ?_, .nil, ?_⟩ <;> simp [hr]

theorem adopt (h : Faithful r path) (context : Context) : Faithful (r.adopt context) path :=
  ⟨h.trail, h.nodup, h.ordered, h.past⟩

theorem enter (h : Faithful r path) {s : Pos × Dir} (hs : s ∉ r.trail) :
    Faithful (r.enter s) (⟨s, r.writes⟩ :: path) := by
  refine ⟨?_, List.nodup_cons.mpr ⟨hs, h.nodup⟩, List.pairwise_cons.mpr ⟨h.past, h.ordered⟩, ?_⟩
  · have hrecent : recent r.writes (⟨s, r.writes⟩ :: path) = s :: recent r.writes path := by
      simp [recent]
    rw [show (r.enter s).writes = r.writes from rfl, hrecent, ← h.trail]
    rfl
  · exact List.forall_mem_cons.mpr ⟨Nat.le_refl _, h.past⟩

/-- After a write nothing of the path is recent. -/
theorem write (h : Faithful r path) (p : Pos) (d : Datum) : Faithful (r.write p d) path := by
  have hwrites : (r.write p d).writes = r.writes + 1 := rfl
  have hnone : recent (r.writes + 1) path = [] := by
    refine List.eq_nil_iff_forall_not_mem.mpr fun s hs => ?_
    obtain ⟨f, hf, hlast, -⟩ := mem_recent.mp hs
    have hle := h.past f hf
    omega
  refine ⟨?_, List.nodup_nil, h.ordered, fun f hf => ?_⟩
  · rw [hwrites, hnone]
    rfl
  · have hle := h.past f hf
    omega

/-- A walk that ends takes its own states off the trail, and no state of the walks that wait. -/
theorem retreat {own : List Footstep} (h : Faithful r (own ++ path)) :
    Faithful (r.retreat (own.map Footstep.state)) path := by
  obtain ⟨-, hordered, hbefore⟩ := List.pairwise_append.mp h.ordered
  have hnodup := h.nodup
  rw [h.trail, recent_append] at hnodup
  have hdisjoint := (List.nodup_append.mp hnodup).2.2
  have howned : ∀ s ∈ recent r.writes own, s ∈ own.map Footstep.state := by
    intro s hs
    obtain ⟨f, hf, -, rfl⟩ := mem_recent.mp hs
    exact List.mem_map_of_mem hf
  have hforeign : ∀ s ∈ recent r.writes path, s ∉ own.map Footstep.state := by
    intro s hs hown
    obtain ⟨f, hf, hwrites, rfl⟩ := mem_recent.mp hs
    obtain ⟨f', hf', hstate⟩ := List.mem_map.mp hown
    -- The footstep of the walk is the later one, so it is recent as well: the state would be on the
    -- trail twice.
    have hle := hbefore f' hf' f hf
    have hpast := h.past f' (List.mem_append_left _ hf')
    have hrecent : f.state ∈ recent r.writes own := mem_recent.mpr ⟨f', hf', by omega, hstate⟩
    exact hdisjoint _ hrecent _ hs rfl
  have htrail : (r.retreat (own.map Footstep.state)).trail = recent r.writes path := by
    calc (r.retreat (own.map Footstep.state)).trail
        = r.trail.diff (own.map Footstep.state) := (List.diff_eq_foldl _ _).symm
      _ = r.trail.filter (· ∉ own.map Footstep.state) := h.nodup.sdiff_eq_filter
      _ = recent r.writes path := by
        rw [h.trail, recent_append, List.filter_append,
          List.filter_eq_nil_iff.mpr fun s hs => by simpa using howned s hs,
          List.filter_eq_self.mpr fun s hs => by simpa using hforeign s hs, List.nil_append]
  refine ⟨htrail, ?_, hordered, fun f hf => h.past f (List.mem_append_right _ hf)⟩
  rw [htrail]
  exact (List.nodup_append.mp hnodup).2.1

end Faithful

/-! ## Every moment -/

namespace Moment

/-- The trail is what was entered on the active path since the last write. -/
def Exact (m : Moment) : Prop := Faithful m.router m.path

theorem exact_advance {r : Router} {waiting : List Waiting}
    (h : Faithful r (waiting.flatMap Waiting.own)) (d : Datum) (p : Pos) (dir : Dir) :
    (advance r d p dir waiting).Exact := by
  unfold advance
  split
  · exact h
  · exact h

theorem exact_offer {r : Router} {waiting : List Waiting}
    (h : Faithful r (waiting.flatMap Waiting.own)) (d : Option Datum) (target : Pos) (dir : Dir)
    (overwrite : Bool) : (offer r d target dir overwrite waiting).Exact := by
  unfold offer
  split
  · exact h
  · split
    · exact h
    · split
      · exact h.write target _
      · split
        · exact h
        · exact h

theorem exact_finish {r : Router} {own : List Footstep} {waiting : List Waiting}
    (h : Faithful r (own ++ waiting.flatMap Waiting.own)) (b : Bool) :
    (finish r own b waiting).Exact := h.retreat

theorem exact_pursue {r : Router} {own : List Footstep} {waiting : List Waiting}
    (h : Faithful r (own ++ waiting.flatMap Waiting.own)) (d : Datum) (p : Pos) (hop : Hop) :
    (pursue r d p own waiting hop).Exact := by
  cases hop with
  | land => exact exact_finish (h.write p d) true
  | absorb => exact exact_finish h true
  | blocked => exact exact_finish h false
  | onward q e => exact h
  | fork first second => exact exact_advance h d p first
  | deliver code =>
    have hafter := h.adopt (Operator.receive code d r.context).2
    simp only [pursue]
    split
    · next q _ => exact exact_offer hafter _ q .down false
    · exact exact_finish hafter _

/-- One step: a moment after an exact one is exact. -/
theorem exact_next {m m' : Moment} (h : m.Exact) (hnext : m.next = some m') : m'.Exact := by
  cases m with
  | hop r d p dir own waiting =>
    have hpath : Faithful r (own ++ waiting.flatMap Waiting.own) := h
    by_cases hs : r.trail.contains (p, dir) = true
    · rw [next, if_pos hs] at hnext
      cases hnext
      exact exact_finish (hpath.adopt _) false
    · rw [next, if_neg hs] at hnext
      cases hnext
      have hentered := hpath.enter (by simpa using hs)
      exact exact_pursue hentered d p _
  | answer r b waiting =>
    cases waiting with
    | nil => cases hnext
    | cons first waiting =>
      cases first with
      | branch own d p second =>
        cases hnext
        have hpath : Faithful r ((Waiting.last own b :: waiting).flatMap Waiting.own) := h
        exact exact_advance hpath d p second
      | last own before =>
        cases hnext
        exact exact_finish h _

/-- A whole run: every moment after an exact one is exact. -/
theorem exact_later {m m' : Moment} (h : m.Exact) (hlater : Later m m') : m'.Exact := by
  induction hlater with
  | refl => exact h
  | tail _ hnext ih => exact exact_next ih hnext

end Moment

/-! ## Placements in a row -/

/-- What is placed, and where. -/
structure Placement where
  datum : Option Datum
  target : Pos
  dir : Dir
  overwrite : Bool

/-- Makes a placement. -/
def Placement.make (q : Placement) (r : Router) : Bool × Router :=
  r.place q.datum q.target q.dir q.overwrite

/-- The first moment of a placement. -/
def Placement.opening (q : Placement) (r : Router) : Moment :=
  .offer r q.datum q.target q.dir q.overwrite []

/-- Makes placements one after the other: their answers, and the router after. -/
def placeAll (r : Router) : List Placement → List Bool × Router
  | [] => ([], r)
  | q :: rest =>
    let done := placeAll (q.make r).2 rest
    ((q.make r).1 :: done.1, done.2)

/-- What is seen of placements. -/
structure Seen where
  answers : List Bool
  grid : Grid
  context : Context
  writes : Nat

/-- Makes placements one after the other, each with a router of its own, and adds up the writes. -/
def placeEach (g : Grid) (ctx : Context) : List Placement → Seen
  | [] => ⟨[], g, ctx, 0⟩
  | q :: rest =>
    let made := q.make { grid := g, context := ctx }
    let done := placeEach made.2.grid made.2.context rest
    { done with answers := made.1 :: done.answers, writes := made.2.writes + done.writes }

theorem trail_placeAll {r : Router} (hr : r.trail = []) (qs : List Placement) :
    (placeAll r qs).2.trail = [] := by
  induction qs generalizing r with
  | nil => exact hr
  | cons q rest ih => exact ih (trail_place hr q.datum q.target q.dir q.overwrite)

/-- The same router with more writes behind it. -/
def counted (more : Nat) (r : Router) : Router := { r with writes := more + r.writes }

theorem simulation_counted (more : Nat) : Simulation Eq fun r₁ r₂ => r₂ = counted more r₁ where
  trail := by rintro _ _ rfl; rfl
  step? := by rintro _ _ rfl _ _; rfl
  hop := by rintro _ _ rfl _ _; rfl
  vacant := by rintro _ _ rfl _; rfl
  routable := by rintro _ _ rfl _; rfl
  enter := by rintro _ _ rfl _; rfl
  leave := by rintro _ _ rfl _; rfl
  drop := by rintro _ _ _ _ rfl rfl _ _; rfl
  write := by rintro _ _ _ _ _ rfl rfl _; rfl
  receive := by rintro _ _ _ _ rfl rfl _; exact ⟨rel_refl _, rfl⟩

/-- Nothing depends on how many writes there have been. -/
theorem make_counted {r : Router} (hr : r.trail = []) (more : Nat) (q : Placement) :
    q.make (counted more r) = ((q.make r).1, counted more (q.make r).2) := by
  obtain ⟨d, target, dir, overwrite⟩ := q
  cases overwrite with
  | false =>
    obtain ⟨hflag, hrouter⟩ := (simulation_counted more).place rfl hr (rel_refl d) target dir
    exact Prod.ext hflag hrouter
  | true =>
    have hgrid : (counted more r).grid = r.grid := rfl
    simp only [Placement.make, place, offer, Bool.true_or, if_true, hgrid]
    cases d with
    | none => rfl
    | some d => cases r.grid.get? target <;> rfl

/-- A router with an empty trail is a new one with some writes behind it. -/
theorem eq_counted {r : Router} (hr : r.trail = []) :
    r = counted r.writes { grid := r.grid, context := r.context } := by
  obtain ⟨grid, context, trail, writes⟩ := r
  cases hr
  rfl

/-- One router does for many placements: it shows the same as a new one for each. -/
theorem placeAll_eq {r : Router} (hr : r.trail = []) (qs : List Placement) :
    placeAll r qs =
      ((placeEach r.grid r.context qs).answers,
        { grid := (placeEach r.grid r.context qs).grid
          context := (placeEach r.grid r.context qs).context
          writes := r.writes + (placeEach r.grid r.context qs).writes }) := by
  induction qs generalizing r with
  | nil => exact Prod.ext rfl (eq_counted hr)
  | cons q rest ih =>
    have hmake := make_counted (r := { grid := r.grid, context := r.context }) rfl r.writes q
    rw [← eq_counted hr] at hmake
    have htrail : (q.make r).2.trail = [] := trail_place hr q.datum q.target q.dir q.overwrite
    rw [placeAll, ih htrail, hmake]
    simp only [counted, placeEach, Nat.add_assoc]

/-- The trail at every moment of every placement, and what it means for placements in a row.

    Whatever a router has placed before, at every moment on the way to the answer of a placement its
    trail holds exactly the states that were entered on the active path since the last write, each
    of them once. After the placement the trail is empty. And the answers, the grid, the context
    with its halt request, and the number of writes are those of placements with a new router
    each. -/
theorem trail_exact (g : Grid) (ctx : Context) (before : List Placement) (q : Placement) :
    let r := (placeAll { grid := g, context := ctx } before).2
    (∀ m, Moment.Later (q.opening r) m →
      Moment.Later m (.answer (q.make r).2 (q.make r).1 []) ∧
      (∀ s, s ∈ m.router.trail ↔ ∃ f ∈ m.path, f.writes = m.router.writes ∧ f.state = s) ∧
      m.router.trail.Nodup) ∧
    (q.make r).2.trail = [] ∧
    (placeAll { grid := g, context := ctx } before).1 = (placeEach g ctx before).answers ∧
    r.grid = (placeEach g ctx before).grid ∧
    r.context = (placeEach g ctx before).context ∧
    r.writes = (placeEach g ctx before).writes := by
  intro r
  have hr : r.trail = [] := trail_placeAll rfl before
  have hall := placeAll_eq (r := { grid := g, context := ctx }) rfl before
  have hopening : (q.opening r).Exact := Moment.exact_offer (Faithful.nil hr) _ _ _ _
  refine ⟨fun m hm => ?_, trail_place hr _ _ _ _, congrArg Prod.fst hall, ?_, ?_, ?_⟩
  · have hexact := Moment.exact_later hopening hm
    refine ⟨(place_later hr _ _ _ _).last_of_later hm, fun s => ?_, hexact.nodup⟩
    rw [hexact.trail]
    exact mem_recent
  · exact congrArg (fun done => done.2.grid) hall
  · exact congrArg (fun done => done.2.context) hall
  · have hwrites := congrArg (fun done => done.2.writes) hall
    simpa only [Nat.zero_add] using hwrites

/-- A duplicator with an empty cell on the right. The way out to the left leads around and back
    into it from above. -/
def roundabout : Grid :=
  ⟨5, 4,
    #[.border, .border, .border, .border, .border,
      .border, .pipe .turnRight, .pipe .turnRight, .border, .border,
      .border, .pipe .turnRight, .pipe .duplicator, .empty, .border,
      .border, .border, .border, .border, .border], rfl⟩

/-- The first branch writes, and the second comes back to the duplicator, which may be entered
    again. Its state is on the path twice then, before the write and after it, and on the trail
    once. -/
theorem trail_exact_roundabout :
    let q : Placement := ⟨some (.number 7), ⟨2, 2⟩, .down, false⟩
    let r := (placeAll { grid := roundabout, context := ⟨{}, ⟨0⟩, 0, none, #[]⟩ } []).2
    ∃ m, Moment.Later (q.opening r) m ∧
      m.path.map Footstep.state =
        [(⟨2, 2⟩, .down), (⟨2, 1⟩, .right), (⟨1, 1⟩, .up), (⟨1, 2⟩, .left), (⟨2, 2⟩, .down)] ∧
      m.router.writes = 1 ∧ m.router.trail.count (⟨2, 2⟩, .down) = 1 ∧
      Moment.Later m (.answer (q.make r).2 (q.make r).1 []) := by
  intro q r
  obtain ⟨m, hm, hpath, hwrites⟩ : ∃ m, Moment.Later (q.opening r) m ∧
      m.path = [⟨(⟨2, 2⟩, .down), 1⟩, ⟨(⟨2, 1⟩, .right), 1⟩, ⟨(⟨1, 1⟩, .up), 1⟩,
        ⟨(⟨1, 2⟩, .left), 1⟩, ⟨(⟨2, 2⟩, .down), 0⟩] ∧ m.router.writes = 1 :=
    -- The first three steps are those of the branch to the right, until the one to the left begins.
    ⟨_, .head rfl (.head rfl (.head rfl (.head rfl (.head rfl (.head rfl (.head rfl .refl)))))),
      rfl, rfl⟩
  obtain ⟨hmoments, -⟩ := trail_exact roundabout ⟨{}, ⟨0⟩, 0, none, #[]⟩ [] q
  obtain ⟨hlast, htrail, hnodup⟩ := hmoments m hm
  have hmem : (⟨2, 2⟩, .down) ∈ m.router.trail := by
    refine (htrail _).mpr ⟨⟨(⟨2, 2⟩, .down), 1⟩, ?_, hwrites.symm, rfl⟩
    rw [hpath]
    exact List.mem_cons_self
  exact ⟨m, hm, by rw [hpath]; rfl, hwrites, List.count_eq_one_of_mem hnodup hmem, hlast⟩

end Gridfall.Router
