/-
  Placing is all or nothing. A value may be handed on through forks, jumps and special operators,
  and some of its ways may end at a wall while others do not. Still, a placement that is refused
  leaves the grid, the number of writes and the request to halt as they were: a way that writes or
  halts is a way that succeeds, and success passes every fork on the way back (`Outcome.refused`).

  A placement that does not overwrite changes empty cells only, and each write changes one
  (`Outcome.writes_eq`). Together: `place_atomic`.
-/
import Gridfall.Proofs.Routing.Termination

namespace Gridfall

/-- The places at which two grids differ. -/
def Grid.changed (g g' : Grid) : Set Pos := {p | g'.get? p ≠ g.get? p}

/-- Filling changes the cells that were empty and are so no more. -/
theorem Grid.Fills.changed_eq {g g' : Grid} (h : g.Fills g') :
    g.changed g' = g.vacant \ g'.vacant := by
  ext p
  simp only [changed, vacant, Set.mem_ofPred_eq, Set.mem_sdiff]
  rcases h.cell p with hsame | ⟨hempty, d, hdata⟩
  · rw [hsame]
    exact ⟨fun hne => absurd rfl hne, fun hp => absurd hp.1 hp.2⟩
  · rw [hempty, hdata]
    simp

/-- The cells that are changed are the empty cells that are gone. -/
theorem Grid.Fills.ncard_changed {g g' : Grid} (h : g.Fills g') :
    (g.changed g').ncard + g'.vacant.ncard = g.vacant.ncard := by
  have hsubset : g'.vacant ⊆ g.vacant := by
    intro p hp
    exact h.get?_of_get? hp rfl
  rw [h.changed_eq]
  exact Set.ncard_sdiff_add_ncard_of_subset hsubset g.finite_vacant

namespace Router

/-- The writes of a run are as many as the cells that it changes. -/
theorem Outcome.writes_eq {r r' : Router} {b : Bool} (h : Outcome r b r') :
    r'.writes = r.writes + (r.grid.changed r'.grid).ncard := by
  have hcount := h.count
  have hsplit := h.fills.ncard_changed
  omega

/-- What a run changes was empty, and then holds the value of the task, or the tick. -/
theorem Runs.changes {guarded : Bool} {t : Task} {r r' : Router} {b : Bool}
    (h : Runs guarded t r b r') {p : Pos} (hp : p ∈ r.grid.changed r'.grid) :
    r.grid.get? p = some .empty ∧ ∃ e, r'.grid.get? p = some (.data e) ∧ t.Puts r.context e := by
  refine ⟨?_, (h.written p).resolve_left hp⟩
  rw [h.outcome.fills.changed_eq] at hp
  exact hp.1

/-- An overwriting placement writes at its target, or has no effect. -/
theorem place_overwriting (r : Router) (d : Option Datum) (target : Pos) (dir : Dir) :
    (r.place d target dir true).2 = r ∨
      (r.place d target dir true).1 = true ∧
        ∃ e, (r.place d target dir true).2 = r.write target e := by
  unfold place offer
  cases d with
  | none => exact .inl rfl
  | some d =>
    cases r.grid.get? target with
    | none => exact .inl rfl
    | some cell => exact .inr ⟨rfl, d, rfl⟩

/-- Whatever is placed, wherever and in whichever way: a refused placement leaves the grid, the
    number of writes and the request to halt as they were. One that does not overwrite changes empty
    cells only, into the value placed or into the tick, and writes as often as it changes a cell.
    The console and the generator are not touched, and the trail is empty again for the next
    placement. -/
theorem place_atomic (g : Grid) (ctx : Context) (writes : Nat) (d : Option Datum) (target : Pos)
    (dir : Dir) (overwrite : Bool) :
    let r : Router := { grid := g, context := ctx, writes := writes }
    let placed := r.place d target dir overwrite
    (placed.1 = false →
      placed.2.grid = g ∧ placed.2.writes = writes ∧ placed.2.context.halt = ctx.halt) ∧
    (overwrite = false →
      (∀ p ∈ g.changed placed.2.grid, g.get? p = some .empty ∧
        ∃ e, placed.2.grid.get? p = some (.data e) ∧
          (d = some e ∨ e = ⟨.number ctx.tickNumber, .right⟩)) ∧
      placed.2.writes = writes + (g.changed placed.2.grid).ncard) ∧
    placed.2.context.console = ctx.console ∧ placed.2.context.generator = ctx.generator ∧
    placed.2.trail = [] := by
  intro r placed
  have htrail : placed.2.trail = [] := trail_place rfl d target dir overwrite
  cases overwrite with
  | false =>
    have hrun : Runs true (.offer d target dir) r placed.1 placed.2 :=
      place_runs (.nil rfl) d target dir
    have hout := hrun.outcome
    refine ⟨fun hb => ?_, fun _ => ⟨fun p hp => hrun.changes hp, hout.writes_eq⟩, hout.console,
      hout.generator, htrail⟩
    obtain ⟨hwrites, hhalt⟩ := hout.refused hb
    exact ⟨(hout.quiet hwrites).1, hwrites, hhalt⟩
  | true =>
    rcases place_overwriting r d target dir with hsame | ⟨hb, e, hwrite⟩
    · have hsame : placed.2 = r := hsame
      rw [hsame]
      exact ⟨fun _ => ⟨rfl, rfl, rfl⟩, fun h => (by cases h), rfl, rfl, rfl⟩
    · have hwrite : placed.2 = r.write target e := hwrite
      refine ⟨fun hb' => ?_, fun h => (by cases h), ?_, ?_, htrail⟩
      · cases hb.symm.trans hb'
      · rw [hwrite]
        rfl
      · rw [hwrite]
        rfl

/-- A duplicator between a stamp with room below and a passage onto a wall. -/
def lopsided : Grid :=
  ⟨5, 4,
    #[.border, .border, .border, .border, .border,
      .border, .operator (.ofCode .tickStamp), .pipe .duplicator, .operator (.ofCode .pass),
        .border,
      .border, .empty, .border, .border, .border,
      .border, .border, .border, .border, .border], rfl⟩

/-- A text that falls into the duplicator is refused on one side and leaves the tick on the other:
    one write, one cell changed. Let straight into the passage, it leaves no trace. -/
theorem place_atomic_lopsided :
    let r : Router := { grid := lopsided, context := ⟨{}, ⟨0⟩, 9, some ⟨true⟩, #[]⟩, writes := 4 }
    let forked := r.place (some (.text "v")) ⟨2, 1⟩ .down false
    let refused := r.place (some (.text "v")) ⟨3, 1⟩ .down false
    (forked.1 = true ∧ forked.2.writes = 4 + (lopsided.changed forked.2.grid).ncard ∧
      forked.2.writes = 5 ∧ forked.2.grid.get? ⟨1, 2⟩ = some (.data ⟨.number 9, .right⟩)) ∧
    refused.1 = false ∧ refused.2.grid = lopsided ∧ refused.2.writes = 4 ∧
      refused.2.context.halt = some ⟨true⟩ := by
  intro r forked refused
  have hforked : forked.1 = true := by decide +kernel
  have hwrites : forked.2.writes = 5 := by decide +kernel
  have hstamped : forked.2.grid.get? ⟨1, 2⟩ = some (.data ⟨.number 9, .right⟩) := by decide +kernel
  have hrefused : refused.1 = false := by decide +kernel
  obtain ⟨-, hfills, -⟩ :=
    place_atomic lopsided ⟨{}, ⟨0⟩, 9, some ⟨true⟩, #[]⟩ 4 (some (.text "v")) ⟨2, 1⟩ .down false
  obtain ⟨hkept, -⟩ :=
    place_atomic lopsided ⟨{}, ⟨0⟩, 9, some ⟨true⟩, #[]⟩ 4 (some (.text "v")) ⟨3, 1⟩ .down false
  exact ⟨⟨hforked, (hfills rfl).2, hwrites, hstamped⟩, hrefused, hkept hrefused⟩

end Router

end Gridfall
