/-
  What no run of a machine can change. Borders, operators and pipes are fixed: they stay where they
  are and as they are. All other cells stay loose, that is, empty or with a value in them.

  `Grid.Frame g g'` says this of two grids of one size. Production keeps the frame because routed
  values only fill empty cells, because overwriting operators aim at values only, and because what
  is consumed is a value. Settlement keeps it because a value moves into an empty cell. The frame is
  transitive, so it holds along every sequence of calls (`calls_keep_frame`).
-/
import Gridfall.Machine.Basic
import Gridfall.Proofs.Routing.Bound
import Gridfall.Proofs.Tick.Fall
import Gridfall.Proofs.Tick.Firing

namespace Gridfall

/-- Cells that come and go: empty ones and values. -/
def Cell.isLoose : Cell → Bool
  | .empty | .data _ => true
  | .border | .operator _ | .pipe _ => false

namespace Grid

/-! ## The frame of a grid -/

/-- `g'` has the size of `g` and its fixed cells, and its other cells are loose as well. -/
structure Frame (g g' : Grid) : Prop where
  width : g'.width = g.width
  height : g'.height = g.height
  fixed : ∀ p c, g.get? p = some c → c.isLoose = false → g'.get? p = some c
  loose : ∀ p c, g.get? p = some c → c.isLoose = true →
    g'.get? p = some .empty ∨ ∃ d, g'.get? p = some (.data d)

theorem isLoose_iff {c : Cell} : c.isLoose = true ↔ c = .empty ∨ ∃ d, c = .data d := by
  cases c <;> simp [Cell.isLoose]

namespace Frame

theorem refl (g : Grid) : g.Frame g := by
  refine ⟨rfl, rfl, fun _ _ h _ => h, fun p c h hc => ?_⟩
  rcases isLoose_iff.mp hc with rfl | ⟨d, rfl⟩
  · exact .inl h
  · exact .inr ⟨d, h⟩

theorem trans {a b c : Grid} (h₁ : a.Frame b) (h₂ : b.Frame c) : a.Frame c := by
  refine ⟨h₂.width.trans h₁.width, h₂.height.trans h₁.height, ?_, ?_⟩
  · intro p cell hp hc
    exact h₂.fixed p cell (h₁.fixed p cell hp hc) hc
  · intro p cell hp hc
    rcases h₁.loose p cell hp hc with h | ⟨d, h⟩
    · exact h₂.loose p _ h rfl
    · exact h₂.loose p _ h rfl

theorem contains {g g' : Grid} (h : g.Frame g') (p : Pos) : g'.contains p = g.contains p := by
  unfold Grid.contains
  rw [h.width, h.height]

/-- A loose cell may take any loose content. -/
theorem set {g : Grid} {p : Pos} {c c' : Cell} (hp : g.get? p = some c) (hc : c.isLoose = true)
    (hc' : c'.isLoose = true) : g.Frame (g.set p c') := by
  have hcell : ∀ q, (g.set p c').get? q = if q = p then some c' else g.get? q := fun q =>
    get?_set (contains_of_get? hp) q c'
  refine ⟨rfl, rfl, fun q cell hq hfixed => ?_, fun q cell hq hloose => ?_⟩
  · have hne : q ≠ p := by
      rintro rfl
      rw [hp] at hq
      cases hq
      rw [hc] at hfixed
      cases hfixed
    rw [hcell, if_neg hne]
    exact hq
  · rw [hcell]
    split
    · rcases isLoose_iff.mp hc' with rfl | ⟨d, rfl⟩
      · exact .inl rfl
      · exact .inr ⟨d, rfl⟩
    · exact (refl g).loose q cell hq hloose

/-- No operator appears. -/
theorem get?_operator {g g' : Grid} (h : g.Frame g') {p : Pos} {op : Operator}
    (hp : g'.get? p = some (.operator op)) : g.get? p = some (.operator op) := by
  have hcontains : g.contains p = true := h.contains p ▸ contains_of_get? hp
  have hcell := get?_of_contains hcontains
  by_cases hloose : (g.cellAt p).isLoose = true
  · rcases h.loose p _ hcell hloose with he | ⟨d, he⟩
    · cases hp.symm.trans he
    · cases hp.symm.trans he
  · have hfixed := h.fixed p _ hcell (by simpa using hloose)
    rw [hcell, ← hfixed, hp]

theorem framed {g g' : Grid} (h : g.Frame g') (hf : g.Framed) : g'.Framed := by
  intro p c hp hedge
  have hcontains : g.contains p = true := h.contains p ▸ contains_of_get? hp
  have hborder : g.get? p = some .border := by
    rw [get?_of_contains hcontains]
    refine congrArg some (hf p _ (get?_of_contains hcontains) ?_)
    rw [← hedge, isEdge, isEdge, h.width, h.height]
  have hfixed := h.fixed p .border hborder rfl
  rw [hp] at hfixed
  exact Option.some.inj hfixed

end Frame

theorem Fills.frame {g g' : Grid} (h : g.Fills g') : g.Frame g' := by
  refine ⟨h.width, h.height, fun p c hp hc => ?_, fun p c hp hc => ?_⟩
  · rcases h.cell p with he | ⟨he, -⟩
    · exact he.trans hp
    · rw [hp] at he
      cases he
      cases hc
  · rcases h.cell p with he | ⟨-, hd⟩
    · rw [he]
      exact (Frame.refl g).loose p c hp hc
    · exact .inr hd

end Grid

/-! ## Production -/

/-- A grid that values are placed into keeps the frame, and no value is on its way. -/
structure Router.Keeps (g : Grid) (r : Router) : Prop where
  frame : g.Frame r.grid
  idle : r.trail = []

/-- Placing keeps the frame if an overwriting operator aims at what was a value. -/
theorem Router.Keeps.place {g : Grid} {r : Router} (h : r.Keeps g) (d : Option Datum) {target : Pos}
    (dir : Dir) {overwrite : Bool}
    (haim : overwrite = true → ∃ e, g.get? target = some (.data e)) :
    (r.place d target dir overwrite).2.Keeps g := by
  cases overwrite with
  | false =>
    have ho := (place_runs (.nil h.idle) d target dir).outcome
    refine ⟨h.frame.trans ho.fills.frame, ?_⟩
    have htrail := ho.trail
    rw [h.idle] at htrail
    exact List.sublist_nil.mp htrail
  | true =>
    cases d with
    | none => exact h
    | some d =>
      obtain ⟨e, he⟩ := haim rfl
      obtain ⟨c, hc, hloose⟩ : ∃ c, r.grid.get? target = some c ∧ c.isLoose = true := by
        rcases h.frame.loose target _ he rfl with hc | ⟨e', hc⟩
        · exact ⟨_, hc, rfl⟩
        · exact ⟨_, hc, rfl⟩
      have hplace : r.place (some d) target dir true = (true, r.write target d) := by
        simp [Router.place, offer, hc]
      rw [hplace]
      exact ⟨h.frame.trans (.set hc hloose rfl), rfl⟩

namespace Production

/-- What an overwriting operator aims at was a value, so the frame is kept by every firing. -/
theorem stable_keeps (g : Grid) : Stable g (Router.Keeps g) := by
  refine ⟨fun _ h => ⟨h.frame, h.idle⟩, ?_⟩
  intro f hf ctx ctx' outs _ e he hgives r h
  have hsite : e.1 ∈ f.sites := (List.of_mem_zip he).1
  exact h.place e.2 e.1.dir fun ho => datum_of_overwrites hf ho hsite hgives

theorem frame_clear (stays : Array Bool) (next : Grid) (n : Nat) {p : Pos}
    (hp : next.contains p = true) : next.Frame (clear stays (next, n) p).1 := by
  unfold clear
  simp only
  split
  · next hclear =>
    obtain ⟨-, hdata⟩ := Bool.and_eq_true_iff.mp hclear
    refine .set (Grid.get?_of_contains hp) ?_ rfl
    cases hc : next.cellAt p <;> simp_all [Cell.isData, Cell.datum?, Cell.isLoose]
  · exact .refl next

theorem frame_foldl_clear (stays : Array Bool) (ps : List Pos) (acc : Grid × Nat)
    (hps : ∀ p ∈ ps, acc.1.contains p = true) : acc.1.Frame (ps.foldl (clear stays) acc).1 := by
  induction ps generalizing acc with
  | nil => exact .refl _
  | cons p ps ih =>
    obtain ⟨hp, hps⟩ := List.forall_mem_cons.mp hps
    have hstep := frame_clear stays acc.1 acc.2 hp
    refine hstep.trans (ih _ fun q hq => ?_)
    rw [hstep.contains q]
    exact hps q hq

theorem keeps_ended (g : Grid) (ctx : Context) : (ended g ctx).router.Keeps g :=
  (stable_keeps g).ended ctx ⟨.refl g, rfl⟩

/-- The interior stays on the grid that is filled. -/
theorem inside_ended (g : Grid) (ctx : Context) :
    ∀ p ∈ g.interior, (ended g ctx).router.grid.contains p = true := by
  intro p hp
  rw [(keeps_ended g ctx).frame.contains p]
  exact (Grid.mem_interior.mp hp).1

end Production

/-- A production phase keeps the frame. -/
theorem frame_produce (g : Grid) (ctx : Context) : g.Frame (produce g ctx).1 := by
  rw [produce_eq]
  have hclear := Production.frame_foldl_clear (Production.ended g ctx).stays g.interior
    ((Production.ended g ctx).router.grid, 0) (Production.inside_ended g ctx)
  exact (Production.keeps_ended g ctx).frame.trans hclear

/-! ## Settlement -/

theorem Fall.Step.frame {f f' : Fall} (h : Step f f') (hf : Tied f) : f.grid.Frame f'.grid := by
  cases h with
  | off | turn | stop | meet => exact .refl _
  | @move p target heading hp hs ht hv =>
    obtain ⟨hp, -⟩ := Grid.mem_interior.mp hp
    have ht := Grid.contains_of_step? ht
    obtain ⟨d, hd⟩ := hf.moving p heading hp hs
    have hempty : (f.grid.set p .empty).get? target = some .empty := by
      rw [Grid.get?_set hp]
      split
      · rfl
      · exact (hf.vacant target ht).mp hv
    have hcell : f.grid.cellAt p = .data d := Grid.cellAt_of_get? hd
    have hsource : f.grid.Frame (f.grid.set p .empty) := .set hd rfl rfl
    have htarget : (f.grid.set p .empty).Frame (f.move p target).grid :=
      .set hempty rfl (by rw [hcell]; rfl)
    exact hsource.trans htarget

theorem Fall.Steps.frame {f f' : Fall} (h : Steps f f') (hf : Tied f) :
    f.grid.Frame f'.grid := by
  induction h with
  | refl => exact .refl _
  | tail hsteps hstep ih => exact ih.trans (hstep.frame (Fall.Steps.tied hsteps hf))

/-- A settlement phase keeps the frame. -/
theorem frame_settle (g : Grid) : g.Frame (settle g).1 := by
  unfold settle
  split
  · exact Fall.Steps.frame (Fall.steps_passes _ (Fall.start g)) (Fall.tied_start g)
  · exact .refl g

/-! ## Machines -/

namespace Machine

/-- What can be asked of a machine. -/
inductive Call where
  | produce
  | settle
  | step
  | runFor (n : Nat)
  | dumpValues

/-- A machine after a call. -/
def call (m : Machine) : Call → Machine
  | .produce => m.produce
  | .settle => m.settle
  | .step => m.step
  | .runFor n => m.runFor n
  | .dumpValues => m.dumpValues

theorem grid_obey (m : Machine) (request : HaltRequest) : (m.obey request).grid = m.grid := by
  unfold obey
  dsimp only
  split <;> rfl

/-! What both phases keep is kept by every sequence of calls. -/
section

variable {P : Grid → Prop} (hproduce : ∀ g ctx, P g → P (Gridfall.produce g ctx).1)
  (hsettle : ∀ g, P g → P (Gridfall.settle g).1)

include hproduce in
theorem kept_produce {m : Machine} (h : P m.grid) : P m.produce.grid := by
  unfold produce
  split
  · exact h
  · have hnext := hproduce m.grid m.context h
    dsimp only
    split
    · rw [grid_obey]
      exact hnext
    · exact hnext

include hsettle in
theorem kept_settle {m : Machine} (h : P m.grid) : P m.settle.grid := by
  unfold settle
  split
  · exact h
  · have hnext := hsettle m.grid h
    dsimp only
    split <;> exact hnext

include hproduce hsettle

theorem kept_step {m : Machine} (h : P m.grid) : P m.step.grid := by
  unfold step
  split
  · exact h
  · exact kept_settle hsettle (kept_produce hproduce h)

theorem kept_runFor (n : Nat) {m : Machine} (h : P m.grid) : P (m.runFor n).grid := by
  induction n generalizing m with
  | zero => exact h
  | succ n ih =>
    have hstep := kept_step hproduce hsettle h
    unfold runFor
    dsimp only
    split
    · exact hstep
    · exact ih hstep

theorem kept_call (c : Call) {m : Machine} (h : P m.grid) : P (m.call c).grid := by
  cases c with
  | produce => exact kept_produce hproduce h
  | settle => exact kept_settle hsettle h
  | step => exact kept_step hproduce hsettle h
  | runFor n => exact kept_runFor hproduce hsettle n h
  | dumpValues => exact h

theorem kept_foldl_call (calls : List Call) {m : Machine} (h : P m.grid) :
    P (calls.foldl call m).grid := by
  induction calls generalizing m with
  | nil => exact h
  | cons c calls ih => exact ih (kept_call hproduce hsettle c h)

end

theorem frame_foldl_call (calls : List Call) (m : Machine) :
    m.grid.Frame (calls.foldl call m).grid :=
  kept_foldl_call (fun g ctx h => h.trans (frame_produce g ctx))
    (fun g h => h.trans (frame_settle g)) calls (.refl m.grid)

/-- No sequence of calls changes the size of the grid or one of its borders, operators and pipes,
    and all other cells stay empty or hold a value; so a closed ring stays closed. -/
theorem calls_keep_frame (g : Grid) (console : Console) (seed : UInt64) (log : Array Event)
    (calls : List Call) :
    g.Frame (calls.foldl call (start g console seed log)).grid ∧
      (g.Framed → (calls.foldl call (start g console seed log)).grid.Framed) :=
  have hframe := frame_foldl_call calls (start g console seed log)
  ⟨hframe, hframe.framed⟩

end Machine

end Gridfall
