/-
  Hops read backward. `Grid.Reason g p dir h` says which cell at `p` makes a value that enters it
  heading `dir` do the hop `h`; `hop_reason` gives the reason of every hop, so that no later proof
  opens `Grid.hop`. A blocked value needs no reason.
-/
import Gridfall.Proofs.Grid
import Gridfall.Routing.Hop

namespace Gridfall

/-- The two directions at a right angle, in the order in which a duplicator serves them. -/
def Dir.sides : Dir → Dir × Dir
  | .up | .down => (.right, .left)
  | .left | .right => (.up, .down)

namespace Grid

/-- The cell behind a hop. -/
inductive Reason (g : Grid) (p : Pos) (dir : Dir) : Hop → Prop
  | land (h : g.get? p = some .empty) : Reason g p dir .land
  | deliver {op} (h : g.get? p = some (.operator op)) (hs : op.code.isSpecial = true) :
      Reason g p dir (.deliver op.code)
  | absorb (h : g.get? p = some (.pipe .eraser)) : Reason g p dir .absorb
  | fork (h : g.get? p = some (.pipe .duplicator)) :
      Reason g p dir (.fork dir.sides.1 dir.sides.2)
  | jump {m q} (h : g.get? p = some (.pipe .teleporter)) (hm : g.partner? p dir = some m)
      (hq : g.step? m dir = some q) : Reason g p dir (.onward q dir)
  | exit {k e q} (h : g.get? p = some (.pipe k)) (he : k.exit? dir = some e)
      (hq : g.step? p e = some q) : Reason g p dir (.onward q e)
  | blocked : Reason g p dir .blocked

theorem reason_leave {g : Grid} {p m : Pos} {dir e : Dir}
    (h : ∀ q, g.step? m e = some q → g.Reason p dir (.onward q e)) :
    g.Reason p dir (g.leave m e) := by
  unfold leave
  split
  · next q hq => exact h q hq
  · exact .blocked

theorem hop_reason (g : Grid) (p : Pos) (dir : Dir) : g.Reason p dir (g.hop p dir) := by
  unfold hop
  split
  · next h => exact .land h
  · next op h =>
    split
    · next hs => exact .deliver h hs
    · exact .blocked
  · next h => exact .absorb h
  · next h => cases dir <;> exact .fork h
  · next h =>
    split
    · next m hm => exact reason_leave fun q hq => .jump h hm hq
    · exact .blocked
  · next k _ _ _ h =>
    split
    · next e he => exact reason_leave fun q hq => .exit h he hq
    · exact .blocked
  all_goals exact .blocked

/-- The reason of a hop that is known. -/
theorem reason_of_hop {g : Grid} {p : Pos} {dir : Dir} {h : Hop} (hop : g.hop p dir = h) :
    g.Reason p dir h := hop ▸ g.hop_reason p dir

theorem get?_of_land {g : Grid} {p : Pos} {dir : Dir} (hop : g.hop p dir = .land) :
    g.get? p = some .empty := by
  cases reason_of_hop hop with
  | land h => exact h

theorem contains_of_hop {g : Grid} {p : Pos} {dir : Dir} (hop : g.hop p dir ≠ .blocked) :
    g.contains p = true := by
  by_contra hp
  exact hop (by simp only [Grid.hop, get?_eq_none hp])

/-! ## The teleporter ahead -/

section

variable {g g' : Grid} (hw : g'.width = g.width) (hh : g'.height = g.height)
  (htele : ∀ p, g'.get? p = some (.pipe .teleporter) ↔ g.get? p = some (.pipe .teleporter))
include hw hh htele

theorem partnerWithin_congr (d : Dir) (fuel : Nat) (p : Pos) :
    g'.partnerWithin d fuel p = g.partnerWithin d fuel p := by
  have hcontains : g'.contains = g.contains := by
    funext q
    rw [contains, contains, hw, hh]
  have hedge : g'.isEdge = g.isEdge := by
    funext q
    rw [isEdge, isEdge, hw, hh]
  induction fuel generalizing p with
  | zero => rfl
  | succ fuel ih =>
    have hstep : g'.step? p d = g.step? p d := by
      unfold step?
      rw [hcontains]
    unfold partnerWithin
    rw [hstep, hedge]
    cases hq : g.step? p d with
    | none => rfl
    | some q =>
      have hcell : g'.cellAt q = .pipe .teleporter ↔ g.cellAt q = .pipe .teleporter := by
        have hin := contains_of_step? hq
        have hin' : g'.contains q = true := by rw [hcontains]; exact hin
        have hq := htele q
        rwa [get?_of_contains hin, get?_of_contains hin', Option.some_inj, Option.some_inj] at hq
      simp only [hcell, ih]

/-- Which teleporter is ahead depends on the places of the teleporters only. -/
theorem partner?_congr (p : Pos) (d : Dir) : g'.partner? p d = g.partner? p d := by
  rw [partner?, partner?, hw, hh, partnerWithin_congr hw hh htele]

end

/-! ## The hop at each kind of cell -/

theorem hop_operator {g : Grid} {p : Pos} {op : Operator} (h : g.get? p = some (.operator op))
    (hs : op.code.isSpecial = true) (dir : Dir) : g.hop p dir = .deliver op.code := by
  simp only [hop, h, hs, if_true]

theorem hop_duplicator {g : Grid} {p : Pos} (h : g.get? p = some (.pipe .duplicator)) (dir : Dir) :
    g.hop p dir = .fork dir.sides.1 dir.sides.2 := by
  simp only [hop, h]
  cases dir <;> rfl

theorem hop_teleporter {g : Grid} {p m q : Pos} {dir : Dir}
    (h : g.get? p = some (.pipe .teleporter)) (hm : g.partner? p dir = some m)
    (hq : g.step? m dir = some q) : g.hop p dir = .onward q dir := by
  simp only [hop, h, hm, leave, hq]

theorem hop_exit {g : Grid} {p q : Pos} {dir e : Dir} {k : Pipe} (h : g.get? p = some (.pipe k))
    (he : k.exit? dir = some e) (hq : g.step? p e = some q) : g.hop p dir = .onward q e := by
  cases k <;> simp only [hop, h, he, leave, hq] <;> cases he

end Grid

end Gridfall
