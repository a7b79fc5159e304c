/-
  The hop graph. Its nodes are the states (place, heading) of a value on its way; `Grid.Leads` has
  an edge for each way on, read off the cells and not off the walk. `leads_iff` ties it to the
  hops: the edges out of a state are the targets of its hop.

  Filling empty cells leaves the graph as it is (`Fills.leads`), since neither an empty cell nor a
  value has a way on.
-/
import Gridfall.Proofs.Routing.Fill
import Mathlib.Logic.Relation

namespace Gridfall

namespace Grid

/-! ## Edges -/

/-- A value at the first state goes on to the second. -/
inductive Leads (g : Grid) : Pos × Dir → Pos × Dir → Prop
  /-- A pipe with one exit leads to the neighbour in its exit direction. -/
  | exit {p dir k e q} (h : g.get? p = some (.pipe k)) (he : k.exit? dir = some e)
      (hq : g.step? p e = some q) : Leads g (p, dir) (q, e)
  /-- A duplicator leads to both neighbours at a right angle. -/
  | fork {p dir e q} (h : g.get? p = some (.pipe .duplicator))
      (he : e.isVertical ≠ dir.isVertical) (hq : g.step? p e = some q) : Leads g (p, dir) (q, e)
  /-- A teleporter leads to the cell past its partner. -/
  | jump {p dir m q} (h : g.get? p = some (.pipe .teleporter)) (hm : g.partner? p dir = some m)
      (hq : g.step? m dir = some q) : Leads g (p, dir) (q, dir)
  /-- A pass operator leads to the cell below it. -/
  | pass {p dir op q} (h : g.get? p = some (.operator op)) (hc : op.code = .pass)
      (hq : g.step? p .down = some q) : Leads g (p, dir) (q, .down)

/-- The states that a value can come to from `s` on. -/
def reachable (g : Grid) (s : Pos × Dir) : Set (Pos × Dir) :=
  {t | Relation.ReflTransGen g.Leads s t}

end Grid

theorem Dir.isVertical_ne_iff {e dir : Dir} :
    e.isVertical ≠ dir.isVertical ↔ e = dir.sides.1 ∨ e = dir.sides.2 := by
  cases e <;> cases dir <;> decide

/-- Where a hop at `p` leads to. -/
def Hop.targets (g : Grid) (p : Pos) : Hop → Set (Pos × Dir)
  | .onward q e => {(q, e)}
  | .fork e₁ e₂ => {t | (t.2 = e₁ ∨ t.2 = e₂) ∧ g.step? p t.2 = some t.1}
  | .deliver code => {t | code = .pass ∧ t.2 = .down ∧ g.step? p .down = some t.1}
  | .land | .absorb | .blocked => ∅

/-- The code of an operator cell. -/
def Cell.code? : Cell → Option Operator.Code
  | .operator op => some op.code
  | _ => none

/-- Whether a value comes to its end in a hop without being blocked. -/
def Hop.ends : Hop → Bool
  | .land | .absorb => true
  | .deliver code => code ∈ [.sink, .halt, .haltDump]
  | .fork .. | .onward .. | .blocked => false

namespace Grid

theorem leads_iff {g : Grid} {p : Pos} {dir : Dir} {t : Pos × Dir} :
    g.Leads (p, dir) t ↔ t ∈ (g.hop p dir).targets g p := by
  constructor
  · intro h
    cases h with
    | exit h he hq => rw [hop_exit h he hq]; rfl
    | fork h he hq => rw [hop_duplicator h]; exact ⟨Dir.isVertical_ne_iff.mp he, hq⟩
    | jump h hm hq => rw [hop_teleporter h hm hq]; rfl
    | pass h hc hq => rw [hop_operator h (by rw [hc]; rfl)]; exact ⟨hc, rfl, hq⟩
  · intro ht
    have hr := g.hop_reason p dir
    generalize g.hop p dir = h at hr ht
    cases hr with
    | deliver h _ =>
      obtain ⟨q, e⟩ := t
      obtain ⟨hc, he, hq⟩ := ht
      cases he
      exact .pass h hc hq
    | fork h => exact .fork h (Dir.isVertical_ne_iff.mpr ht.1) ht.2
    | jump h hm hq => cases ht; exact .jump h hm hq
    | exit h he hq => cases ht; exact .exit h he hq
    | land | absorb | blocked => cases ht

theorem Fills.leads {g g' : Grid} (h : g.Fills g') : g'.Leads = g.Leads := by
  funext s t
  refine propext ⟨fun hl => ?_, fun hl => ?_⟩
  · cases hl with
    | exit hc he hq => exact .exit ((h.get?_pipe _ _).mp hc) he (h.step? _ _ ▸ hq)
    | fork hc he hq => exact .fork ((h.get?_pipe _ _).mp hc) he (h.step? _ _ ▸ hq)
    | jump hc hm hq =>
      exact .jump ((h.get?_pipe _ _).mp hc) (h.partner? _ _ ▸ hm) (h.step? _ _ ▸ hq)
    | pass hc hp hq => exact .pass ((h.get?_operator _ _).mp hc) hp (h.step? _ _ ▸ hq)
  · cases hl with
    | exit hc he hq => exact .exit ((h.get?_pipe _ _).mpr hc) he ((h.step? _ _).trans hq)
    | fork hc he hq => exact .fork ((h.get?_pipe _ _).mpr hc) he ((h.step? _ _).trans hq)
    | jump hc hm hq =>
      exact .jump ((h.get?_pipe _ _).mpr hc) ((h.partner? _ _).trans hm)
        ((h.step? _ _).trans hq)
    | pass hc hp hq => exact .pass ((h.get?_operator _ _).mpr hc) hp ((h.step? _ _).trans hq)

/-! ## Ends -/

/-- A value can end at the state: in an empty cell, an eraser, a sink or a halt operator. -/
def Accepts (g : Grid) (s : Pos × Dir) : Prop :=
  g.get? s.1 = some .empty ∨ g.get? s.1 = some (.pipe .eraser) ∨
    ∃ op, g.get? s.1 = some (.operator op) ∧ op.code ∈ [.sink, .halt, .haltDump]

/-- There is a halt operator at the state, which asks for a dump or does not. -/
def HaltsAt (g : Grid) (s : Pos × Dir) (dump : Bool) : Prop :=
  ∃ op, g.get? s.1 = some (.operator op) ∧ op.code = if dump then .haltDump else .halt

/-- No operator of the grid stamps values with the tick. -/
def Unstamped (g : Grid) : Prop := ∀ p c, g.get? p = some c → c.code? ≠ some .tickStamp

instance (g : Grid) : Decidable g.Unstamped := decidable_of_iff' _ forall_get?_iff

namespace Fills

variable {g g' : Grid} (h : g.Fills g')
include h

theorem accepts {s : Pos × Dir} (ha : g'.Accepts s) : g.Accepts s := by
  rcases ha with he | he | ⟨op, ho, hc⟩
  · exact .inl (h.get?_of_get? he rfl)
  · exact .inr (.inl ((h.get?_pipe _ _).mp he))
  · exact .inr (.inr ⟨op, (h.get?_operator _ _).mp ho, hc⟩)

/-- Only an empty cell can stop taking values. -/
theorem accepts_or {s : Pos × Dir} (ha : g.Accepts s) :
    g'.Accepts s ∨ g.get? s.1 = some .empty ∧ g'.get? s.1 ≠ some .empty := by
  rcases ha with he | he | ⟨op, ho, hc⟩
  · by_cases hn : g'.get? s.1 = some .empty
    · exact .inl (.inl hn)
    · exact .inr ⟨he, hn⟩
  · exact .inl (.inr (.inl ((h.get?_pipe _ _).mpr he)))
  · exact .inl (.inr (.inr ⟨op, (h.get?_operator _ _).mpr ho, hc⟩))

theorem haltsAt (s : Pos × Dir) (dump : Bool) : g'.HaltsAt s dump ↔ g.HaltsAt s dump := by
  simp only [HaltsAt, h.get?_operator]

theorem unstamped (hu : g.Unstamped) : g'.Unstamped := by
  intro p c hc
  rcases h.cell p with e | ⟨-, d, e⟩
  · exact hu p c (e ▸ hc)
  · rw [e] at hc
    cases hc
    simp [Cell.code?]

end Fills

theorem HaltsAt.accepts {g : Grid} {s : Pos × Dir} {dump : Bool} (h : g.HaltsAt s dump) :
    g.Accepts s := by
  obtain ⟨op, ho, hc⟩ := h
  refine .inr (.inr ⟨op, ho, ?_⟩)
  rw [hc]
  cases dump <;> decide

theorem accepts_iff {g : Grid} {p : Pos} {dir : Dir} :
    g.Accepts (p, dir) ↔ (g.hop p dir).ends = true := by
  constructor
  · rintro (he | he | ⟨op, ho, hc⟩)
    · simp only [hop, he, Hop.ends]
    · simp only [hop, he, Hop.ends]
    · have hs : op.code.isSpecial = true := by
        simp only [List.mem_cons, List.not_mem_nil, or_false] at hc
        rcases hc with hc | hc | hc <;> rw [hc] <;> rfl
      rw [hop_operator ho hs]
      exact decide_eq_true hc
  · intro he
    have hr := g.hop_reason p dir
    generalize g.hop p dir = h at hr he
    cases hr with
    | land h => exact .inl h
    | absorb h => exact .inr (.inl h)
    | deliver h _ => exact .inr (.inr ⟨_, h, of_decide_eq_true he⟩)
    | fork | jump | exit | blocked => cases he

end Grid

end Gridfall
