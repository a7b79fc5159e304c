/-
  What placing leaves behind. A run of the router only fills empty cells (`Grid.Fills`): no other
  cell changes, and the writes it counts are the empty cells that are gone. So the way on from a
  cell is the same before and after a run, except that a value can no longer land in a filled cell.

  `Outcome r b r'` collects what holds between the routers before and after. In particular the
  trail gets no new states, and a run that ends with the answer `false` has written nothing and
  asked for no halt. What a run has written is its own value, or the tick from a stamp on the way
  (`Runs.written`).
-/
import Gridfall.Proofs.Operator.Services
import Gridfall.Proofs.Routing.Hop
import Gridfall.Proofs.Routing.Walk
import Mathlib.Data.Set.Card

namespace Gridfall

namespace Grid

/-! ## Filling empty cells -/

/-- `g'` is `g` with values in some of its empty cells. -/
structure Fills (g g' : Grid) : Prop where
  width : g'.width = g.width
  height : g'.height = g.height
  cell : ∀ p, g'.get? p = g.get? p ∨ g.get? p = some .empty ∧ ∃ d, g'.get? p = some (.data d)

namespace Fills

theorem refl (g : Grid) : g.Fills g := ⟨rfl, rfl, fun _ => .inl rfl⟩

theorem trans {a b c : Grid} (h₁ : a.Fills b) (h₂ : b.Fills c) : a.Fills c := by
  refine ⟨h₂.width.trans h₁.width, h₂.height.trans h₁.height, fun p => ?_⟩
  rcases h₁.cell p with e₁ | ⟨he, d, e₁⟩
  · rcases h₂.cell p with e₂ | ⟨he, hd⟩
    · exact .inl (e₂.trans e₁)
    · exact .inr ⟨e₁ ▸ he, hd⟩
  · rcases h₂.cell p with e₂ | ⟨he', -⟩
    · exact .inr ⟨he, d, e₂.trans e₁⟩
    · rw [e₁] at he'
      cases he'

theorem set {g : Grid} {p : Pos} (h : g.get? p = some .empty) (d : Datum) :
    g.Fills (g.set p (.data d)) := by
  refine ⟨rfl, rfl, fun q => ?_⟩
  rw [get?_set (contains_of_get? h)]
  split
  · next hq => exact .inr ⟨hq ▸ h, d, rfl⟩
  · exact .inl rfl

variable {g g' : Grid} (h : g.Fills g')
include h

theorem contains (p : Pos) : g'.contains p = g.contains p := by
  unfold Grid.contains
  rw [h.width, h.height]

theorem step? (p : Pos) (d : Dir) : g'.step? p d = g.step? p d := by
  have : g'.contains = g.contains := funext h.contains
  unfold Grid.step?
  rw [this]

theorem get?_of_not_empty {p : Pos} {c : Cell} (hc : g.get? p = some c) (hne : c ≠ .empty) :
    g'.get? p = some c := by
  rcases h.cell p with e | ⟨he, -⟩
  · exact e.trans hc
  · exact absurd (Option.some.inj (hc.symm.trans he)) hne

theorem get?_of_get? {p : Pos} {c : Cell} (hc : g'.get? p = some c) (hd : c.isData = false) :
    g.get? p = some c := by
  rcases h.cell p with e | ⟨-, d, e⟩
  · exact e ▸ hc
  · rw [e] at hc
    cases hc
    cases hd

theorem get?_pipe (p : Pos) (k : Pipe) : g'.get? p = some (.pipe k) ↔ g.get? p = some (.pipe k) :=
  ⟨fun hc => h.get?_of_get? hc rfl, fun hc => h.get?_of_not_empty hc (by simp)⟩

theorem get?_operator (p : Pos) (op : Operator) :
    g'.get? p = some (.operator op) ↔ g.get? p = some (.operator op) :=
  ⟨fun hc => h.get?_of_get? hc rfl, fun hc => h.get?_of_not_empty hc (by simp)⟩

theorem partner? (p : Pos) (d : Dir) : g'.partner? p d = g.partner? p d :=
  partner?_congr h.width h.height (fun q => h.get?_pipe q .teleporter) p d

end Fills

/-! ## Counting the empty cells -/

/-- The empty places. -/
def vacant (g : Grid) : Set Pos := {p | g.get? p = some .empty}

theorem positions_length (g : Grid) : g.positions.length = g.cells.size := by
  simp [positions, block, g.size_eq, Nat.mul_comm]

theorem vacant_subset (g : Grid) : g.vacant ⊆ g.positions.toFinset := by
  intro p hp
  simpa using mem_positions.mpr (contains_of_get? hp)

theorem finite_vacant (g : Grid) : g.vacant.Finite :=
  g.positions.toFinset.finite_toSet.subset g.vacant_subset

theorem ncard_vacant_le (g : Grid) : g.vacant.ncard ≤ g.cells.size := by
  calc g.vacant.ncard ≤ (g.positions.toFinset : Set Pos).ncard :=
        Set.ncard_le_ncard g.vacant_subset (Finset.finite_toSet _)
    _ = g.positions.toFinset.card := Set.ncard_coe_finset _
    _ ≤ g.positions.length := List.toFinset_card_le _
    _ = g.cells.size := g.positions_length

theorem vacant_set_data {g : Grid} {p : Pos} (h : g.contains p = true) (d : Datum) :
    (g.set p (.data d)).vacant = g.vacant \ {p} := by
  ext q
  simp only [vacant, Set.mem_ofPred_eq, Set.mem_sdiff, Set.mem_singleton_iff, get?_set h]
  split
  · next hq => simp [hq]
  · next hq => simp [hq]

theorem ncard_vacant_set {g : Grid} {p : Pos} (h : g.get? p = some .empty) (d : Datum) :
    (g.set p (.data d)).vacant.ncard + 1 = g.vacant.ncard := by
  rw [vacant_set_data (contains_of_get? h)]
  exact Set.ncard_sdiff_singleton_add_one h g.finite_vacant

end Grid

namespace Operator

/-! ## Special operators -/

/-- An operator that lets something through changes nothing else. -/
theorem receive_some {code : Code} {d e : Datum} {ctx : Context}
    (h : (receive code d ctx).1 = some e) : (receive code d ctx).2 = ctx := by
  cases code <;> simp_all [receive]

theorem receive_services (code : Code) (d : Datum) (ctx : Context) :
    (receive code d ctx).2.console = ctx.console ∧
      (receive code d ctx).2.generator = ctx.generator ∧
      (receive code d ctx).2.tick = ctx.tick := by
  have hhalt : ∀ v dump, (haltOn v dump ctx).console = ctx.console ∧
      (haltOn v dump ctx).generator = ctx.generator ∧ (haltOn v dump ctx).tick = ctx.tick := by
    intro v dump
    unfold haltOn
    split <;> exact ⟨rfl, rfl, rfl⟩
  cases code with
  | halt => exact hhalt d.value false
  | haltDump => exact hhalt d.value true
  | _ => exact ⟨rfl, rfl, rfl⟩

/-- A special operator lets a value through as it is, or the tick in its place. -/
theorem receive_emits {code : Code} {d e : Datum} {ctx : Context}
    (h : (receive code d ctx).1 = some e) : e = d ∨ e = .number ctx.tickNumber := by
  unfold receive at h
  split at h
  · exact .inl (Option.some.inj h).symm
  · simp only at h
    split at h
    · cases h
    · exact .inr (Option.some.inj h).symm
  all_goals cases h

end Operator

namespace Router

/-! ## The outcome of a run -/

/-- What holds between the routers before and after a run with the answer `b`. -/
structure Outcome (r : Router) (b : Bool) (r' : Router) : Prop where
  fills : r.grid.Fills r'.grid
  /-- Each write fills an empty cell. -/
  count : r'.writes + r'.grid.vacant.ncard = r.writes + r.grid.vacant.ncard
  grows : r.writes ≤ r'.writes
  trail : r'.trail.Sublist r.trail
  quiet : r'.writes = r.writes → r'.grid = r.grid ∧ r'.trail = r.trail
  refused : b = false → r'.writes = r.writes ∧ r'.context.halt = r.context.halt
  console : r'.context.console = r.context.console
  generator : r'.context.generator = r.context.generator
  tick : r'.context.tick = r.context.tick

namespace Outcome

/-- Nothing but the context changes. -/
theorem ofContext {r : Router} {b : Bool} {ctx : Context} (hc : ctx.console = r.context.console)
    (hg : ctx.generator = r.context.generator) (ht : ctx.tick = r.context.tick)
    (hh : b = false → ctx.halt = r.context.halt) : Outcome r b (r.adopt ctx) :=
  ⟨.refl _, rfl, Nat.le_refl _, .refl _, fun _ => ⟨rfl, rfl⟩, fun hb => ⟨rfl, hh hb⟩, hc, hg, ht⟩

theorem refl (r : Router) (b : Bool) : Outcome r b r :=
  ofContext rfl rfl rfl fun _ => rfl

theorem write (r : Router) {p : Pos} (h : r.grid.get? p = some .empty) (d : Datum) :
    Outcome r true (r.write p d) := by
  have hcount : (r.write p d).grid.vacant.ncard + 1 = r.grid.vacant.ncard :=
    Grid.ncard_vacant_set h d
  have hwrites : (r.write p d).writes = r.writes + 1 := rfl
  exact
    { fills := .set h d
      count := by omega
      grows := by omega
      trail := List.nil_sublist _
      quiet := fun hq => by omega
      refused := fun hb => by cases hb
      console := rfl
      generator := rfl
      tick := rfl }

theorem trans {r r₁ r₂ : Router} {b₁ b₂ : Bool} (h₁ : Outcome r b₁ r₁) (h₂ : Outcome r₁ b₂ r₂) :
    Outcome r (b₁ || b₂) r₂ := by
  have hg₁ := h₁.grows
  have hg₂ := h₂.grows
  refine
    { fills := h₁.fills.trans h₂.fills
      count := h₂.count.trans h₁.count
      grows := hg₁.trans hg₂
      trail := h₂.trail.trans h₁.trail
      quiet := fun hq => ?_
      refused := fun hb => ?_
      console := h₂.console.trans h₁.console
      generator := h₂.generator.trans h₁.generator
      tick := h₂.tick.trans h₁.tick }
  · obtain ⟨g₁, t₁⟩ := h₁.quiet (by omega)
    obtain ⟨g₂, t₂⟩ := h₂.quiet (by omega)
    exact ⟨g₂.trans g₁, t₂.trans t₁⟩
  · obtain ⟨hb₁, hb₂⟩ := Bool.or_eq_false_iff.mp hb
    obtain ⟨w₁, e₁⟩ := h₁.refused hb₁
    obtain ⟨w₂, e₂⟩ := h₂.refused hb₂
    exact ⟨w₂.trans w₁, e₂.trans e₁⟩

/-- A state that is on the trail for the time of a run leaves no mark. -/
theorem around {r r' : Router} {b : Bool} {s : Pos × Dir} (h : Outcome (r.enter s) b r') :
    Outcome r b (r'.leave s) := by
  refine { h with trail := ?_, quiet := fun hq => ?_ }
  · have := h.trail.erase s
    rwa [show (r.enter s).trail = s :: r.trail from rfl, List.erase_cons_head] at this
  · obtain ⟨hg, ht⟩ := h.quiet hq
    refine ⟨hg, ?_⟩
    rw [show (r'.leave s).trail = r'.trail.erase s from rfl, ht]
    exact List.erase_cons_head s r.trail

/-- What a special operator lets through is placed after the operator had its effect. -/
theorem receive {r r' : Router} {b : Bool} {code : Operator.Code} {d : Datum}
    (h : Outcome (r.adopt (Operator.receive code d r.context).2) b r')
    (hb : b = false → ((Operator.receive code d r.context).1).isSome) : Outcome r b r' := by
  obtain ⟨hc, hg, ht⟩ := Operator.receive_services code d r.context
  refine { h with refused := fun hf => ?_, console := ?_, generator := ?_, tick := ?_ }
  · obtain ⟨e, he⟩ := Option.isSome_iff_exists.mp (hb hf)
    obtain ⟨hw, hh⟩ := h.refused hf
    exact ⟨hw, hh.trans (congrArg Context.halt (Operator.receive_some he))⟩
  · exact h.console.trans hc
  · exact h.generator.trans hg
  · exact h.tick.trans ht

end Outcome

theorem Runs.outcome {guarded : Bool} {t : Task} {r r' : Router} {b : Bool}
    (h : Runs guarded t r b r') : Outcome r b r' := by
  induction h with
  | loop => exact .ofContext rfl rfl rfl fun _ => rfl
  | land _ hop => exact (Outcome.write (Router.enter _ _) (Grid.get?_of_land hop) _).around
  | absorb => exact .around (.refl _ _)
  | blocked => exact .around (.refl _ _)
  | onward _ _ _ ih => exact ih.around
  | fork _ _ _ _ ih₁ ih₂ => exact (ih₁.trans ih₂).around
  | @deliver r d _ _ code _ _ _ _ _ _ below ih =>
    refine (Outcome.receive ih fun hb => ?_).around
    -- Placing nothing always succeeds, so a refused value was one that came through.
    rw [Option.isSome_iff_ne_none]
    intro hn
    have hnone : (Operator.receive code d r.context).1 = none := hn
    rw [hnone] at below
    cases below
    cases hb
  | deliverOff _ _ _ =>
    refine (Outcome.receive (.refl _ _) fun hb => ?_).around
    rw [← Option.not_isNone]
    exact Bool.not_eq_true' _ |>.mpr hb
  | off => exact .refl _ _
  | on _ _ ih => exact ih
  | nothing => exact .refl _ _
  | put hc => exact .write _ hc _
  | carry _ _ _ ih => exact ih
  | refuse => exact .refl _ _

/-! ## What is written -/

/-- The value that a task is about. -/
def Task.datum? : Task → Option Datum
  | .visit d _ _ | .advance d _ _ => some d
  | .offer d _ _ => d

/-- The values that a task can write: its own, and the tick from a stamp on the way. -/
def Task.Puts (t : Task) (ctx : Context) (e : Datum) : Prop :=
  t.datum? = some e ∨ e = .number ctx.tickNumber

/-- The cell at `q` is as it was, or holds something that the task can write. -/
def Written (t : Task) (r r' : Router) (q : Pos) : Prop :=
  r'.grid.get? q = r.grid.get? q ∨ ∃ e, r'.grid.get? q = some (.data e) ∧ t.Puts r.context e

theorem written_write {t : Task} {r : Router} {p : Pos} {d : Datum}
    (hp : r.grid.contains p = true) (ht : t.datum? = some d) (q : Pos) :
    Written t r (r.write p d) q := by
  unfold Written
  rw [show (r.write p d).grid = r.grid.set p (.data d) from rfl, Grid.get?_set hp]
  split
  · exact .inr ⟨d, rfl, .inl ht⟩
  · exact .inl rfl

/-- Every cell after a run is as before, or holds the value of the task, or the tick. -/
theorem Runs.written {guarded : Bool} {t : Task} {r r' : Router} {b : Bool}
    (h : Runs guarded t r b r') (q : Pos) : Written t r r' q := by
  induction h with
  | loop => exact .inl rfl
  | land _ hop => exact written_write (Grid.contains_of_get? (Grid.get?_of_land hop)) rfl q
  | absorb => exact .inl rfl
  | blocked => exact .inl rfl
  | onward _ _ _ ih => exact ih
  | fork _ _ first _ ih₁ ih₂ =>
    rcases ih₂ with hsame | ⟨e, he, hputs⟩
    · rcases ih₁ with hsame₁ | ⟨e, he, hputs⟩
      · exact .inl (hsame.trans hsame₁)
      · exact .inr ⟨e, hsame.trans he, hputs⟩
    · refine .inr ⟨e, he, hputs.imp id fun hstamp => ?_⟩
      rw [hstamp, Context.tickNumber_congr first.outcome.tick]
      rfl
  | @deliver r d p dir code _ _ _ _ _ _ _ ih =>
    refine ih.imp id ?_
    rintro ⟨e, he, hputs⟩
    have htick := (Operator.receive_services code d r.context).2.2
    refine ⟨e, he, ?_⟩
    rcases hputs with hputs | hstamp
    · exact (Operator.receive_emits hputs).imp (congrArg some ·.symm) id
    · exact .inr (hstamp.trans (by rw [← Context.tickNumber_congr htick]; rfl))
  | deliverOff => exact .inl rfl
  | off => exact .inl rfl
  | on _ _ ih => exact ih
  | nothing => exact .inl rfl
  | put hc => exact written_write (Grid.contains_of_get? hc) rfl q
  | carry _ _ _ ih => exact ih
  | refuse => exact .inl rfl

end Router

end Gridfall
