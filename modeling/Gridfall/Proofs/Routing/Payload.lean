/-
  Routing does not look at the payload. A value on its way meets walls, pipes and special operators,
  and of these only the stamp and the two halts look at it: they ask whether it is empty. So two
  values that are both empty, or both not, take the same ways, write at the same places and ask for
  the same halt.

  Two runs are kept side by side (`Router.Abreast`): one of them carries `d₁` where the other
  carries `d₂`, or both carry the same stamp (`Datum.Paired`). Their grids hold what they held
  before, or such a pair of values where both have written (`Grid.Paired`); hence every hop is the
  same in both (`Paired.hop`). A stamp replaces the payload in both runs at the same turn, even if
  it is empty itself, as at tick zero. So each turn of a walk keeps the routers side by side
  (`simulation_abreast`), and placing agrees (`place_paired`).
-/
import Gridfall.Proofs.Routing.Atomic
import Gridfall.Proofs.Routing.Simulation
import Gridfall.Proofs.Routing.Writes

namespace Gridfall

/-! ## Pairs of values -/

/-- The payload `d₁` of the one run and `d₂` of the other, or the stamp `n` in both. -/
inductive Datum.Paired (d₁ d₂ : Datum) (n : Number) : Datum → Datum → Prop
  | payload : Paired d₁ d₂ n d₁ d₂
  | stamp : Paired d₁ d₂ n (.number n) (.number n)

theorem Datum.Paired.isEmpty {d₁ d₂ : Datum} (h : d₂.value.isEmpty = d₁.value.isEmpty) {n : Number}
    {e₁ e₂ : Datum} (he : Paired d₁ d₂ n e₁ e₂) : e₂.value.isEmpty = e₁.value.isEmpty := by
  cases he with
  | payload => exact h
  | stamp => rfl

/-- Two contexts at the tick `n` with the same request to halt. -/
structure Context.Paired (n : Number) (a b : Context) : Prop where
  first : a.tickNumber = n
  second : b.tickNumber = n
  halt : b.halt = a.halt

namespace Operator

variable {d₁ d₂ : Datum} {n : Number} {a b : Context}

theorem haltOn_paired (h : Context.Paired n a b) {v w : Value} (hempty : w.isEmpty = v.isEmpty)
    (dump : Bool) : Context.Paired n (haltOn v dump a) (haltOn w dump b) := by
  unfold haltOn
  rw [hempty]
  split
  · exact h
  · exact ⟨h.first, h.second, rfl⟩

/-- A special operator lets both values of a pair through, as a pair again, or neither. -/
theorem receive_paired (hempty : d₂.value.isEmpty = d₁.value.isEmpty) (h : Context.Paired n a b)
    {e₁ e₂ : Datum} (he : Datum.Paired d₁ d₂ n e₁ e₂) (code : Code) :
    Option.Rel (Datum.Paired d₁ d₂ n) (receive code e₁ a).1 (receive code e₂ b).1 ∧
      Context.Paired n (receive code e₁ a).2 (receive code e₂ b).2 := by
  have hsame := he.isEmpty hempty
  cases code with
  | pass => exact ⟨.some he, h⟩
  | tickStamp =>
    refine ⟨?_, h⟩
    simp only [receive, hsame, h.first, h.second]
    split
    · exact .none
    · exact .some .stamp
  | halt => exact ⟨.none, haltOn_paired h hsame false⟩
  | haltDump => exact ⟨.none, haltOn_paired h hsame true⟩
  | _ => exact ⟨.none, h⟩

end Operator

/-! ## Grids -/

namespace Grid

/-- Two grids that hold what `g` holds, or values related by `S` at the same places. -/
structure Paired (g : Grid) (S : Datum → Datum → Prop) (g₁ g₂ : Grid) : Prop where
  width : g₂.width = g₁.width
  height : g₂.height = g₁.height
  cell : ∀ p, (g₁.get? p = g.get? p ∧ g₂.get? p = g.get? p) ∨
    ∃ e₁ e₂, S e₁ e₂ ∧ g₁.get? p = some (.data e₁) ∧ g₂.get? p = some (.data e₂)

namespace Paired

theorem refl (g : Grid) (S : Datum → Datum → Prop) : g.Paired S g g :=
  ⟨rfl, rfl, fun _ => .inl ⟨rfl, rfl⟩⟩

variable {g g₁ g₂ : Grid} {S : Datum → Datum → Prop} (h : g.Paired S g₁ g₂)
include h

theorem contains (p : Pos) : g₂.contains p = g₁.contains p := by
  unfold Grid.contains
  rw [h.width, h.height]

theorem step? (p : Pos) (d : Dir) : g₂.step? p d = g₁.step? p d := by
  have hcontains : g₂.contains = g₁.contains := funext h.contains
  unfold Grid.step?
  rw [hcontains]

/-- What is not a value is the same in both. -/
theorem get?_iff {p : Pos} {c : Cell} (hc : c.isData = false) :
    g₂.get? p = some c ↔ g₁.get? p = some c := by
  rcases h.cell p with ⟨hone, htwo⟩ | ⟨e₁, e₂, -, hone, htwo⟩
  · rw [hone, htwo]
  · rw [hone, htwo]
    constructor <;> intro heq <;> cases heq <;> cases hc

theorem routable (p : Pos) :
    (g₂.get? p).any Cell.isRoutable = (g₁.get? p).any Cell.isRoutable := by
  rcases h.cell p with ⟨hone, htwo⟩ | ⟨e₁, e₂, -, hone, htwo⟩
  · rw [hone, htwo]
  · rw [hone, htwo]
    rfl

theorem partner? (p : Pos) (d : Dir) : g₂.partner? p d = g₁.partner? p d :=
  partner?_congr h.width h.height (fun _ => h.get?_iff rfl) p d

theorem leave (p : Pos) (d : Dir) : g₂.leave p d = g₁.leave p d := by
  unfold Grid.leave
  rw [h.step?]

/-- A hop is the same in both. -/
theorem hop (p : Pos) (d : Dir) : g₂.hop p d = g₁.hop p d := by
  unfold Grid.hop
  rcases h.cell p with ⟨hone, htwo⟩ | ⟨e₁, e₂, -, hone, htwo⟩
  · simp only [hone, htwo, h.partner?, h.leave]
  · rw [hone, htwo]

/-- A pair of values is written at the same place. -/
theorem set {p : Pos} (hp : g₁.contains p = true) {e₁ e₂ : Datum} (he : S e₁ e₂) :
    g.Paired S (g₁.set p (.data e₁)) (g₂.set p (.data e₂)) := by
  refine ⟨h.width, h.height, fun q => ?_⟩
  rw [get?_set hp, get?_set ((h.contains p).trans hp)]
  by_cases hq : q = p
  · rw [if_pos hq, if_pos hq]
    exact .inr ⟨e₁, e₂, he, rfl, rfl⟩
  · rw [if_neg hq, if_neg hq]
    exact h.cell q

end Paired

end Grid

/-! ## Runs -/

namespace Router

/-- Two routers side by side, which have started with the grid `g` and carry `d₁` and `d₂`. -/
structure Abreast (g : Grid) (d₁ d₂ : Datum) (n : Number) (r₁ r₂ : Router) : Prop where
  grid : g.Paired (Datum.Paired d₁ d₂ n) r₁.grid r₂.grid
  context : Context.Paired n r₁.context r₂.context
  trail : r₂.trail = r₁.trail
  writes : r₂.writes = r₁.writes

theorem Abreast.write {g : Grid} {d₁ d₂ : Datum} {n : Number} {r₁ r₂ : Router}
    (h : Abreast g d₁ d₂ n r₁ r₂) {p : Pos} (hp : r₁.grid.contains p = true) {e₁ e₂ : Datum}
    (he : Datum.Paired d₁ d₂ n e₁ e₂) : Abreast g d₁ d₂ n (r₁.write p e₁) (r₂.write p e₂) :=
  ⟨h.grid.set hp he, h.context, rfl, congrArg (· + 1) h.writes⟩

/-- Every turn of a walk keeps two routers side by side. -/
theorem simulation_abreast {d₁ d₂ : Datum} (hempty : d₂.value.isEmpty = d₁.value.isEmpty)
    (g : Grid) (n : Number) : Simulation (Datum.Paired d₁ d₂ n) (Abreast g d₁ d₂ n) where
  trail h := h.trail
  step? h := h.grid.step?
  hop h := h.grid.hop
  vacant h p := h.grid.get?_iff rfl
  routable h := h.grid.routable
  enter h s := ⟨h.grid, h.context, congrArg (s :: ·) h.trail, h.writes⟩
  leave h s := ⟨h.grid, h.context, congrArg (·.erase s) h.trail, h.writes⟩
  drop h _ _ _ := ⟨h.grid, ⟨h.context.first, h.context.second, h.context.halt⟩, h.trail, h.writes⟩
  write h he hp := h.write (Grid.contains_of_get? hp) he
  receive h he code := by
    obtain ⟨hpassed, hctx⟩ := Operator.receive_paired hempty h.context he code
    exact ⟨hpassed, h.grid, hctx, h.trail, h.writes⟩

/-! ## Placing -/

/-- The places at which a placement writes. -/
def written (r : Router) (d : Datum) (target : Pos) (dir : Dir) : (overwrite : Bool) → Set Pos
  | true => {q | q = target ∧ r.grid.contains q = true}
  | false => {q | ∃ v, Writes true (.offer (some d) target dir) r q v}

theorem place_overwriting_eq (r : Router) (d : Datum) (target : Pos) (dir : Dir) :
    r.place (some d) target dir true =
      if r.grid.contains target then (true, r.write target d) else (false, r) := by
  unfold place offer
  by_cases hin : r.grid.contains target = true
  · rw [if_pos hin, Grid.get?_of_contains hin]
    rfl
  · rw [if_neg hin, Grid.get?_eq_none hin]
    rfl

/-- Without overwriting, these are the places that change. -/
theorem written_eq_changed {r : Router} (hr : r.trail = []) (d : Datum) (target : Pos) (dir : Dir) :
    r.written d target dir false = r.grid.changed (r.place (some d) target dir false).2.grid := by
  have hrun := place_runs (.nil hr) (some d) target dir
  ext q
  constructor
  · intro hq
    obtain ⟨v, hv⟩ := hq
    obtain ⟨hempty, hdata⟩ := hrun.writes_iff.mp hv
    intro hsame
    cases (hempty.symm.trans hsame.symm).trans hdata
  · intro hq
    obtain ⟨hempty, e, hdata, -⟩ := hrun.changes hq
    exact ⟨e, hrun.writes_iff.mpr ⟨hempty, hdata⟩⟩

/-- A placement counts as many writes as there are places at which it writes. -/
theorem writes_place {r : Router} (hr : r.trail = []) (d : Datum) (target : Pos) (dir : Dir)
    (overwrite : Bool) :
    (r.place (some d) target dir overwrite).2.writes =
      r.writes + (r.written d target dir overwrite).ncard := by
  cases overwrite with
  | false =>
    rw [written_eq_changed hr]
    exact (place_runs (.nil hr) (some d) target dir).outcome.writes_eq
  | true =>
    rw [place_overwriting_eq]
    split
    · next hin =>
      have hone : r.written d target dir true = {target} := by
        ext q
        exact ⟨fun hq => hq.1, fun hq => ⟨hq, hq ▸ hin⟩⟩
      rw [hone, Set.ncard_singleton]
      rfl
    · next hout =>
      have hnone : r.written d target dir true = ∅ := by
        ext q
        exact ⟨fun hq => hout (hq.1 ▸ hq.2), fun hq => hq.elim⟩
      rw [hnone, Set.ncard_empty]
      rfl

/-- Where a placement does not write, it leaves the cell as it is. -/
theorem get?_place_of_not_written {r : Router} (hr : r.trail = []) {d : Datum} {target : Pos}
    {dir : Dir} {overwrite : Bool} {q : Pos} (hq : q ∉ r.written d target dir overwrite) :
    (r.place (some d) target dir overwrite).2.grid.get? q = r.grid.get? q := by
  cases overwrite with
  | false =>
    rw [written_eq_changed hr] at hq
    exact not_not.mp hq
  | true =>
    rw [place_overwriting_eq]
    split
    · next hin =>
      have hne : q ≠ target := fun heq => hq ⟨heq, heq ▸ hin⟩
      exact Grid.get?_set_ne hin hne _
    · rfl

section

variable {d₁ d₂ : Datum} (hempty : d₂.value.isEmpty = d₁.value.isEmpty) {r : Router}
  (hr : r.trail = []) (target : Pos) (dir : Dir)
include hempty hr

/-- Two placements from the same router end side by side, with the same answer. -/
theorem place_paired (overwrite : Bool) :
    (r.place (some d₂) target dir overwrite).1 = (r.place (some d₁) target dir overwrite).1 ∧
      Abreast r.grid d₁ d₂ r.context.tickNumber (r.place (some d₁) target dir overwrite).2
        (r.place (some d₂) target dir overwrite).2 := by
  have hstart : Abreast r.grid d₁ d₂ r.context.tickNumber r r :=
    ⟨.refl _ _, ⟨rfl, rfl, rfl⟩, rfl, rfl⟩
  cases overwrite with
  | false =>
    have hsim := simulation_abreast hempty r.grid r.context.tickNumber
    exact hsim.place hstart hr (.some .payload) target dir
  | true =>
    rw [place_overwriting_eq, place_overwriting_eq]
    split
    · next hin => exact ⟨rfl, hstart.write hin .payload⟩
    · exact ⟨rfl, hstart⟩

/-- Both placements write at the same places. -/
theorem written_paired (overwrite : Bool) :
    r.written d₂ target dir overwrite = r.written d₁ target dir overwrite := by
  cases overwrite with
  | true => rfl
  | false =>
    obtain ⟨-, hend⟩ := place_paired hempty hr target dir false
    have hfirst := (place_runs (.nil hr) (some d₁) target dir).outcome.fills
    have hsecond := (place_runs (.nil hr) (some d₂) target dir).outcome.fills
    rw [written_eq_changed hr, written_eq_changed hr, hfirst.changed_eq, hsecond.changed_eq]
    congr 1
    ext q
    exact hend.grid.get?_iff rfl

/-- Where both write, they write a pair of values. -/
theorem exists_paired_of_written {overwrite : Bool} {q : Pos}
    (hq : q ∈ r.written d₁ target dir overwrite) :
    ∃ v₁ v₂, Datum.Paired d₁ d₂ r.context.tickNumber v₁ v₂ ∧
      (r.place (some d₁) target dir overwrite).2.grid.get? q = some (.data v₁) ∧
      (r.place (some d₂) target dir overwrite).2.grid.get? q = some (.data v₂) := by
  cases overwrite with
  | false =>
    obtain ⟨-, hend⟩ := place_paired hempty hr target dir false
    rw [written_eq_changed hr] at hq
    exact (hend.grid.cell q).resolve_left fun hsame => hq hsame.1
  | true =>
    obtain ⟨hq, hin⟩ := hq
    rw [hq] at hin ⊢
    rw [place_overwriting_eq, place_overwriting_eq, if_pos hin, if_pos hin]
    exact ⟨d₁, d₂, .payload, Grid.get?_set_self hin _, Grid.get?_set_self hin _⟩

end

/-- Whatever the grid, the tick, the target, the direction and the flag: two values that are both
    empty or both not are placed with the same answer, at the same places and with the same request
    to halt. Each of these places gets the tick in both cases, or each value in its own case; all
    other cells stay as they were. The places are as many as the writes that are counted. -/
theorem place_ignores_payload (g : Grid) (ctx : Context) (writes : Nat) {d₁ d₂ : Datum}
    (hempty : d₂.value.isEmpty = d₁.value.isEmpty) (target : Pos) (dir : Dir) (overwrite : Bool) :
    let r : Router := { grid := g, context := ctx, writes := writes }
    let first := r.place (some d₁) target dir overwrite
    let second := r.place (some d₂) target dir overwrite
    second.1 = first.1 ∧
    r.written d₂ target dir overwrite = r.written d₁ target dir overwrite ∧
    second.2.context.halt = first.2.context.halt ∧
    (∀ q ∈ r.written d₁ target dir overwrite, ∃ v₁ v₂,
      Datum.Paired d₁ d₂ ctx.tickNumber v₁ v₂ ∧
      first.2.grid.get? q = some (.data v₁) ∧ second.2.grid.get? q = some (.data v₂)) ∧
    (∀ q ∉ r.written d₁ target dir overwrite,
      first.2.grid.get? q = g.get? q ∧ second.2.grid.get? q = g.get? q) ∧
    first.2.writes = writes + (r.written d₁ target dir overwrite).ncard ∧
    second.2.writes = first.2.writes := by
  intro r first second
  have hr : r.trail = [] := rfl
  obtain ⟨hflag, hend⟩ := place_paired hempty hr target dir overwrite
  have hwritten := written_paired hempty hr target dir overwrite
  refine ⟨hflag, hwritten, hend.context.halt, fun q hq => ?_, fun q hq => ⟨?_, ?_⟩,
    writes_place hr d₁ target dir overwrite, hend.writes⟩
  · exact exists_paired_of_written hempty hr target dir hq
  · exact get?_place_of_not_written hr hq
  · rw [← hwritten] at hq
    exact get?_place_of_not_written hr hq

/-- A duplicator between a stamp and a passage, each with room below. -/
def delta : Grid :=
  ⟨5, 4,
    #[.border, .border, .border, .border, .border,
      .border, .operator (.ofCode .tickStamp), .pipe .duplicator, .operator (.ofCode .pass),
        .border,
      .border, .empty, .border, .empty, .border,
      .border, .border, .border, .border, .border], rfl⟩

/-- A text and a number that fall into the duplicator at tick zero: both leave a zero below the
    stamp, and each leaves itself below the passage. -/
theorem place_ignores_payload_forked :
    let r : Router := { grid := delta, context := ⟨{}, ⟨0⟩, 0, none, #[]⟩, writes := 0 }
    let first := r.place (some (.text "v")) ⟨2, 1⟩ .down false
    let second := r.place (some (.number 7)) ⟨2, 1⟩ .down false
    (Datum.number 7).value.isEmpty = (Datum.text "v").value.isEmpty ∧
    first.1 = true ∧ second.1 = true ∧ second.2.writes = 2 ∧
    (r.written (.text "v") ⟨2, 1⟩ .down false).ncard = 2 ∧
    second.2.grid.get? ⟨1, 2⟩ = some (.data (.number 0)) ∧
    second.2.grid.get? ⟨3, 2⟩ = some (.data (.number 7)) := by
  intro r first second
  have hempty : (Datum.number 7).value.isEmpty = (Datum.text "v").value.isEmpty := by decide
  have hplaced : first.1 = true := by decide +kernel
  have hwrites : first.2.writes = 2 := by decide +kernel
  have hstamped : first.2.grid.get? ⟨1, 2⟩ = some (.data (.number 0)) := by decide +kernel
  have hpassed : first.2.grid.get? ⟨3, 2⟩ = some (.data (.text "v")) := by decide +kernel
  obtain ⟨hflag, -, -, hpaired, hkept, hcount, hsame⟩ :=
    place_ignores_payload delta ⟨{}, ⟨0⟩, 0, none, #[]⟩ 0 hempty ⟨2, 1⟩ .down false
  -- A cell that was empty and holds a value in the one case has been written in both.
  have hother : ∀ q v, delta.get? q = some .empty → first.2.grid.get? q = some (.data v) →
      ∃ w, Datum.Paired (.text "v") (.number 7) 0 v w ∧ second.2.grid.get? q = some (.data w) := by
    intro q v hbefore hafter
    have hq : q ∈ r.written (.text "v") ⟨2, 1⟩ .down false := by
      by_contra hout
      cases (hafter.symm.trans (hkept q hout).1).trans hbefore
    obtain ⟨v₁, v₂, hpair, hone, htwo⟩ := hpaired q hq
    cases hafter.symm.trans hone
    exact ⟨v₂, hpair, htwo⟩
  obtain ⟨w, hw, hleft⟩ := hother ⟨1, 2⟩ (.number 0) (by decide +kernel) hstamped
  obtain ⟨u, hu, hright⟩ := hother ⟨3, 2⟩ (.text "v") (by decide +kernel) hpassed
  refine ⟨hempty, hplaced, hflag.trans hplaced, hsame.trans hwrites, ?_, ?_, ?_⟩
  · exact (Nat.zero_add _).symm.trans (hcount.symm.trans hwrites)
  · cases hw
    exact hleft
  · cases hu
    exact hright

end Router

end Gridfall
