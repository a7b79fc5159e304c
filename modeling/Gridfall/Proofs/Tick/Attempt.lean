/-
  Placements seen from the cells. On a grid without pipes and special operators a list of attempts
  to place values can be read cell by cell: an empty cell takes the first attempt aimed at it, and a
  cell with a value takes the last overwriting one. `drawn` is that reading, and `tally` counts the
  attempts that land.

  `place_draws` is the step: a router that shows `drawn` of the attempts so far shows it of one more
  attempt after `place`, and `place` answers whether that attempt lands.
-/
import Gridfall.Proofs.Grid
import Gridfall.Routing.Place

namespace Gridfall

/-- No cell carries values on. -/
def Grid.Unrouted (g : Grid) : Prop := ∀ p c, g.get? p = some c → c.isRoutable = false

instance (g : Grid) : Decidable g.Unrouted := decidable_of_iff' _ Grid.forall_get?_iff

/-- A value that is to be placed. -/
structure Attempt where
  target : Pos
  datum : Datum
  overwrite : Bool

namespace Attempt

/-- The attempt is aimed at `q`. -/
def aims (q : Pos) (a : Attempt) : Bool := a.target == q

/-- The attempt is aimed at `q` and writes over what is there. -/
def covers (q : Pos) (a : Attempt) : Bool := a.overwrite && a.aims q

/-- An overwriting attempt is aimed at a value. -/
def Backed (g : Grid) (a : Attempt) : Prop :=
  a.overwrite = true → ∃ d, g.get? a.target = some (.data d)

/-- Whether the attempt is the first that is aimed at an empty cell, after the attempts `before`. -/
def isFirst (g : Grid) (before : List Attempt) (a : Attempt) : Bool :=
  decide (g.get? a.target = some .empty) && !before.any (aims a.target)

/-- Whether the attempt lands after the attempts `before`. -/
def lands (g : Grid) (before : List Attempt) (a : Attempt) : Bool :=
  a.overwrite || a.isFirst g before

theorem isFirst_iff {g : Grid} {before : List Attempt} {a : Attempt} :
    a.isFirst g before = true ↔
      g.get? a.target = some .empty ∧ before.any (aims a.target) = false := by
  simp [isFirst]

end Attempt

namespace Grid

/-! ## What the cells show -/

/-- The cell at `q` after the attempts: the first value aimed at an empty cell, the last one that
    covers a value. -/
def drawn (g : Grid) (attempts : List Attempt) (q : Pos) : Option Cell :=
  match g.get? q with
  | some .empty => some (((attempts.find? (Attempt.aims q)).map fun a => .data a.datum).getD .empty)
  | some (.data d) =>
    some (.data (((attempts.reverse.find? (Attempt.covers q)).map Attempt.datum).getD d))
  | c => c

/-- Whether `q` is an empty cell at which something is aimed. -/
def isFilled (g : Grid) (attempts : List Attempt) (q : Pos) : Bool :=
  decide (g.get? q = some .empty) && attempts.any (Attempt.aims q)

/-- The number of attempts that land: one for each empty cell that is aimed at, and all that
    overwrite. -/
def tally (g : Grid) (attempts : List Attempt) : Nat :=
  g.interior.countP (g.isFilled attempts) + attempts.countP Attempt.overwrite

variable {g : Grid} {attempts : List Attempt} {a : Attempt}

theorem drawn_nil (g : Grid) (q : Pos) : g.drawn [] q = g.get? q := by
  unfold drawn
  split
  · next h => rw [h]; rfl
  · next h => rw [h]; rfl
  · rfl

/-- Only empty cells and values show anything new. -/
theorem drawn_of_fixed {q : Pos} {c : Cell} (hq : g.get? q = some c) (he : c ≠ .empty)
    (hd : ∀ d, c ≠ .data d) : g.drawn attempts q = some c := by
  unfold drawn
  rw [hq]
  cases c with
  | empty => exact absurd rfl he
  | data d => exact absurd rfl (hd d)
  | border | operator | pipe => rfl

/-- A cell shows as empty as long as nothing was aimed at it. -/
theorem drawn_eq_empty_iff {q : Pos} : g.drawn attempts q = some .empty ↔
    g.get? q = some .empty ∧ attempts.any (Attempt.aims q) = false := by
  unfold drawn
  split
  · next hq =>
    cases hf : attempts.find? (Attempt.aims q) with
    | none =>
      have hnone : attempts.any (Attempt.aims q) = false := by
        simpa using List.find?_eq_none.mp hf
      simp [hq, hnone]
    | some a =>
      have hsome : attempts.any (Attempt.aims q) = true :=
        List.any_eq_true.mpr ⟨a, List.mem_of_find?_eq_some hf, List.find?_some hf⟩
      simp [hsome]
  · next hq => simp [hq]
  · next c he hd =>
    constructor
    · intro hc
      exact absurd hc he
    · rintro ⟨hc, -⟩
      exact absurd hc he

theorem drawn_append_of_ne {q : Pos} (h : a.target ≠ q) :
    g.drawn (attempts ++ [a]) q = g.drawn attempts q := by
  have haims : Attempt.aims q a = false := by simpa [Attempt.aims] using h
  have hcovers : Attempt.covers q a = false := by simp [Attempt.covers, haims]
  unfold drawn
  simp [List.find?_append, haims, hcovers]

/-- An attempt that does not land changes nothing. -/
theorem drawn_append_of_not_lands (h : a.lands g attempts = false) :
    g.drawn (attempts ++ [a]) = g.drawn attempts := by
  funext q
  rcases eq_or_ne a.target q with rfl | hne
  · obtain ⟨ho, h⟩ := Bool.or_eq_false_iff.mp h
    have hcovers : Attempt.covers a.target a = false := by simp [Attempt.covers, ho]
    unfold drawn
    split
    · next hq =>
      have hany : attempts.any (Attempt.aims a.target) = true := by
        simpa [Attempt.isFirst, hq] using h
      obtain ⟨b, hb, haims⟩ := List.any_eq_true.mp hany
      obtain ⟨b, hb⟩ := Option.isSome_iff_exists.mp (List.find?_isSome.mpr ⟨b, hb, haims⟩)
      simp [List.find?_append, hb]
    · simp [hcovers]
    · rfl
  · exact drawn_append_of_ne hne

/-- An attempt that lands is what its target shows. -/
theorem drawn_append_of_lands (hb : a.Backed g) (h : a.lands g attempts = true) :
    g.drawn (attempts ++ [a]) a.target = some (.data a.datum) := by
  have haims : Attempt.aims a.target a = true := by simp [Attempt.aims]
  cases ho : a.overwrite with
  | true =>
    obtain ⟨d, hd⟩ := hb ho
    have hcovers : Attempt.covers a.target a = true := by simp [Attempt.covers, ho, haims]
    unfold drawn
    rw [hd]
    simp [hcovers]
  | false =>
    have hfirst : a.isFirst g attempts = true := by simpa [Attempt.lands, ho] using h
    obtain ⟨hempty, hany⟩ := Attempt.isFirst_iff.mp hfirst
    have hfind : attempts.find? (Attempt.aims a.target) = none := by
      rw [List.find?_eq_none]
      simpa using hany
    unfold drawn
    rw [hempty]
    simp [List.find?_append, hfind, haims]

theorem Unrouted.drawn (hu : g.Unrouted) {q : Pos} {c : Cell}
    (hc : g.drawn attempts q = some c) : c.isRoutable = false := by
  unfold Grid.drawn at hc
  split at hc
  · cases Option.some.inj hc
    cases attempts.find? (Attempt.aims q) <;> rfl
  · cases Option.some.inj hc
    rfl
  · exact hu q c hc

/-! ## How many land -/

/-- A count over a list without repeats grows by one if one more element is counted. -/
theorem countP_of_one_more {l : List Pos} (hl : l.Nodup) {t : Pos} (ht : t ∈ l)
    {P Q : Pos → Bool} (hP : P t = false) (hQ : Q t = true) (h : ∀ x, x ≠ t → Q x = P x) :
    l.countP Q = l.countP P + 1 := by
  induction l with
  | nil => cases ht
  | cons x l ih =>
    obtain ⟨hx, hl⟩ := List.nodup_cons.mp hl
    rcases eq_or_ne x t with rfl | hne
    · have hrest : l.countP Q = l.countP P :=
        List.countP_congr fun y hy => by rw [h y fun e => hx (e ▸ hy)]
      simp [hP, hQ, hrest]
    · have ht : t ∈ l := (List.mem_cons.mp ht).resolve_left hne.symm
      rw [List.countP_cons, List.countP_cons, ih hl ht, h x hne]
      omega

theorem tally_nil (g : Grid) : g.tally [] = 0 := by
  have hnone : g.isFilled [] = fun _ => false := by
    funext q
    simp [isFilled]
  rw [tally, hnone]
  simp

theorem isFilled_append_of_ne {q : Pos} (h : a.target ≠ q) :
    g.isFilled (attempts ++ [a]) q = g.isFilled attempts q := by
  have haims : Attempt.aims q a = false := by simpa [Attempt.aims] using h
  simp [isFilled, haims]

/-- One more empty cell is filled exactly if the attempt is the first at it. -/
theorem countP_isFilled_append (hf : g.Framed) :
    g.interior.countP (g.isFilled (attempts ++ [a])) =
      g.interior.countP (g.isFilled attempts) + if a.isFirst g attempts then 1 else 0 := by
  have hthere : g.isFilled (attempts ++ [a]) a.target = decide (g.get? a.target = some .empty) := by
    simp [isFilled, Attempt.aims]
  cases hfirst : a.isFirst g attempts with
  | true =>
    obtain ⟨hempty, hany⟩ := Attempt.isFirst_iff.mp hfirst
    refine countP_of_one_more g.nodup_interior (hf.interior hempty (by simp)) ?_ ?_ ?_
    · rw [isFilled, hany, Bool.and_false]
    · rw [hthere, hempty]
      rfl
    · exact fun q hq => isFilled_append_of_ne hq.symm
  | false =>
    refine List.countP_congr fun q _ => ?_
    rcases eq_or_ne a.target q with rfl | hq
    · rw [hthere]
      cases hempty : decide (g.get? a.target = some .empty) with
      | false => rw [isFilled, hempty, Bool.false_and]
      | true =>
        have hany : attempts.any (Attempt.aims a.target) = true := by
          simpa [Attempt.isFirst, hempty] using hfirst
        rw [isFilled, hempty, hany, Bool.true_and]
    · rw [isFilled_append_of_ne hq]

/-- The tally grows by one exactly if the attempt lands. -/
theorem tally_append (hf : g.Framed) (hb : a.Backed g) :
    g.tally (attempts ++ [a]) = g.tally attempts + if a.lands g attempts then 1 else 0 := by
  unfold tally
  rw [countP_isFilled_append hf, List.countP_append, List.countP_singleton, Attempt.lands]
  cases ho : a.overwrite with
  | false =>
    simp only [Bool.false_eq_true, if_false, Bool.false_or]
    omega
  | true =>
    obtain ⟨d, hd⟩ := hb ho
    have hfirst : a.isFirst g attempts = false := by simp [Attempt.isFirst, hd]
    simp only [hfirst, Bool.false_eq_true, if_false, if_true, Bool.true_or]
    omega

end Grid

namespace Router

/-! ## Placing -/

/-- The router's grid shows what the attempts draw, and its count is their tally. -/
structure Draws (g : Grid) (attempts : List Attempt) (r : Router) : Prop where
  width : r.grid.width = g.width
  height : r.grid.height = g.height
  cell : ∀ q, r.grid.get? q = g.drawn attempts q
  writes : r.writes = g.tally attempts

variable {g : Grid} {attempts : List Attempt} {a : Attempt} {r : Router}

theorem place_of_lands (h : r.Draws g attempts) (hb : a.Backed g) (hl : a.lands g attempts = true)
    (dir : Dir) :
    r.place (some a.datum) a.target dir a.overwrite = (true, r.write a.target a.datum) := by
  cases ho : a.overwrite with
  | true =>
    obtain ⟨d, hd⟩ := hb ho
    obtain ⟨c, hcell⟩ : ∃ c, r.grid.get? a.target = some c := by
      rw [h.cell, Grid.drawn, hd]
      exact ⟨_, rfl⟩
    simp [place, offer, hcell]
  | false =>
    have hfirst : a.isFirst g attempts = true := by simpa [Attempt.lands, ho] using hl
    have hcell : r.grid.get? a.target = some .empty := by
      rw [h.cell]
      exact Grid.drawn_eq_empty_iff.mpr (Attempt.isFirst_iff.mp hfirst)
    simp [place, offer, hcell, Cell.isEmpty]

theorem place_of_not_lands (hu : g.Unrouted) (h : r.Draws g attempts)
    (hl : a.lands g attempts = false) (dir : Dir) :
    r.place (some a.datum) a.target dir a.overwrite = (false, r) := by
  obtain ⟨ho, hfirst⟩ := Bool.or_eq_false_iff.mp hl
  cases hcell : r.grid.get? a.target with
  | none => simp [place, offer, hcell]
  | some c =>
    have hdrawn : g.drawn attempts a.target = some c := by rw [← h.cell, hcell]
    have hroutable : c.isRoutable = false := hu.drawn hdrawn
    have hempty : c.isEmpty = false := by
      cases c with
      | empty =>
        rw [Attempt.isFirst_iff.mpr (Grid.drawn_eq_empty_iff.mp hdrawn)] at hfirst
        cases hfirst
      | border | data | operator | pipe => rfl
    simp [place, offer, hcell, ho, hroutable, hempty]

theorem Draws.write (hf : g.Framed) (h : r.Draws g attempts) (hb : a.Backed g)
    (hl : a.lands g attempts = true) :
    (r.write a.target a.datum).Draws g (attempts ++ [a]) := by
  have hon : r.grid.contains a.target = true := by
    have hcontains : g.contains a.target = true := by
      rcases Bool.or_eq_true_iff.mp hl with ho | hfirst
      · obtain ⟨d, hd⟩ := hb ho
        exact Grid.contains_of_get? hd
      · exact Grid.contains_of_get? (Attempt.isFirst_iff.mp hfirst).1
    rw [Grid.contains, h.width, h.height]
    exact hcontains
  refine ⟨h.width, h.height, fun q => ?_, ?_⟩
  · have hset : (r.write a.target a.datum).grid.get? q =
        if q = a.target then some (.data a.datum) else r.grid.get? q := Grid.get?_set hon q _
    rw [hset]
    split
    · next hq => rw [hq, Grid.drawn_append_of_lands hb hl]
    · next hq => rw [h.cell, Grid.drawn_append_of_ne (Ne.symm hq)]
  · have hwrites : (r.write a.target a.datum).writes = r.writes + 1 := rfl
    rw [hwrites, h.writes, Grid.tally_append hf hb, if_pos hl]

/-- Placing adds an attempt to the picture and answers whether it lands. -/
theorem place_draws (hf : g.Framed) (hu : g.Unrouted) (h : r.Draws g attempts) (hb : a.Backed g)
    (dir : Dir) :
    (r.place (some a.datum) a.target dir a.overwrite).1 = a.lands g attempts ∧
      (r.place (some a.datum) a.target dir a.overwrite).2.Draws g (attempts ++ [a]) ∧
      (r.place (some a.datum) a.target dir a.overwrite).2.context = r.context := by
  cases hl : a.lands g attempts with
  | true =>
    rw [place_of_lands h hb hl dir]
    exact ⟨rfl, h.write hf hb hl, rfl⟩
  | false =>
    rw [place_of_not_lands hu h hl dir]
    refine ⟨rfl, ⟨h.width, h.height, ?_, ?_⟩, rfl⟩
    · rw [Grid.drawn_append_of_not_lands hl]
      exact h.cell
    · rw [h.writes, Grid.tally_append hf hb, hl]
      rfl

end Router

end Gridfall
