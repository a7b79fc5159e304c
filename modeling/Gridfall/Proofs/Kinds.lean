/-
  Values keep to the kinds of the signature tables. On neighbours that meet a signature, a
  computation that succeeds puts nothing on a side for which no kind is listed, and on every other
  side only a value of a listed kind (`KindSet.Permits`). A side with kinds may stay without a
  value: the tick stamp makes nothing of an empty one.

  The nothing value belongs to no kind, so no computation makes it. Routing hands a value on as it
  is or puts the tick in its place, and settlement only moves values. Hence a grid without the
  nothing value stays without it, along every sequence of calls.
-/
import Gridfall.Proofs.Frame
import Gridfall.Proofs.Operator.Conform
import Gridfall.Proofs.Routing.Termination

namespace Gridfall

/-! ## What a signature permits -/

namespace KindSet

/-- Nothing goes to a side without kinds, and what goes to a side is of a listed kind. -/
def Permits (k : KindSet) (out : Option Datum) : Prop :=
  (k.isEmpty = true → out = none) ∧ ∀ d, out = some d → k.holds d.value = true

theorem holds_of_isEmpty {k : KindSet} (h : k.isEmpty = true) (v : Value) : k.holds v = false := by
  have hk : k = empty := by simpa [isEmpty] using h
  rw [hk]
  cases v <;> rfl

theorem holds_none (k : KindSet) : k.holds .none = false := rfl

theorem permits_of_holds {k : KindSet} {out : Option Datum}
    (h : ∀ d, out = some d → k.holds d.value = true) : k.Permits out := by
  refine ⟨fun hk => ?_, h⟩
  rw [Option.eq_none_iff_forall_ne_some]
  intro d hd
  have hholds := h d hd
  rw [holds_of_isEmpty hk] at hholds
  cases hholds

theorem permits_none (k : KindSet) : k.Permits none := ⟨fun _ => rfl, fun _ hd => nomatch hd⟩

theorem Yields.permits {k : KindSet} {out : Option Datum} (h : k.Yields out) : k.Permits out := by
  apply permits_of_holds
  intro d hd
  rw [hd] at h
  exact h

theorem Permits.ne_none {k : KindSet} {out : Option Datum} (h : k.Permits out) {d : Datum}
    (hd : out = some d) : d.value ≠ .none := by
  intro hv
  have hholds := h.2 d hd
  rw [hv, holds_none] at hholds
  cases hholds

end KindSet

/-- Every side of an emission is permitted. -/
structure Emission.Permitted (yields : Sides KindSet) (e : Emission) : Prop where
  up : yields.up.Permits e.up
  left : yields.left.Permits e.left
  right : yields.right.Permits e.right
  down : yields.down.Permits e.down

namespace Emission

theorem Conforms.permitted {yields : Sides KindSet} {e : Emission} (h : Conforms yields e) :
    Permitted yields e :=
  ⟨h.up.permits, h.left.permits, h.right.permits, h.down.permits⟩

end Emission

/-- The emission of an operator on a pair, as one on four sides. -/
def PairEmission.sides (e : PairEmission) : Emission := ⟨e.back, none, none, e.ahead⟩

namespace Operator

open Emission (Permitted onlyBelow)
open KindSet (permits_none)
open Production (fits fitsJoint fitsPair)

variable {code : Code} {index : Nat} {sig : Signature} {ctx : Context}

theorem permitted_stamp {near : Sides (Option Datum)} {e : Emission}
    (hentry : Code.tickStamp.signatures[index]? = some sig)
    (hrun : (runJoint .tickStamp index near ctx).1 = .ok e) : Permitted sig.yields e := by
  have hyields : sig.yields = onlyBelow .numbers :=
    forall_entry (P := fun _ s => s.yields = onlyBelow .numbers) (by decide) hentry
  rw [hyields]
  simp only [runJoint, Except.ok.injEq] at hrun
  rw [← hrun]
  split
  · exact ⟨permits_none _, permits_none _, permits_none _, permits_none _⟩
  · exact (Emission.conforms_below rfl).permitted

theorem runJoint_permitted {near : Sides (Option Datum)} {e : Emission}
    (hpair : code.isPair = false) (hentry : code.signatures[index]? = some sig)
    (hfits : fitsJoint sig near = true) (hrun : (runJoint code index near ctx).1 = .ok e) :
    Permitted sig.yields e := by
  by_cases hstamp : code = .tickStamp
  · subst hstamp
    exact permitted_stamp hentry hrun
  · exact (runJoint_conforms hpair hstamp hentry hfits hrun).permitted

theorem runPair_permitted {first second : Option Datum} {e : PairEmission}
    (hpair : code.isPair = true) (hentry : code.signatures[index]? = some sig)
    (hfits : fitsPair sig first second = true)
    (hrun : (runPair code index first second ctx).1 = .ok e) :
    Permitted sig.yields e.sides := by
  have hconf := runPair_conforms hpair hentry hfits hrun
  exact ⟨hconf.back.permits, permits_none _, permits_none _, hconf.ahead.permits⟩

end Operator

/-- A firing that succeeds sends to each of its sites only what is permitted there. -/
theorem Firing.run_permits {g : Grid} {f : Firing} (hf : f.Chosen g) {ctx ctx' : Context}
    {outs : List (Option Datum)} (hrun : f.run g ctx = (some outs, ctx')) :
    ∀ e ∈ f.sites.zip outs, e.1.gives.Permits e.2 := by
  refine Firing.run_sites hf (fun hpair hfits hok => ?_) (fun hpair hfits hok => ?_) hrun
  · have h := Operator.runJoint_permitted hpair hf.entry hfits hok
    exact ⟨h.up, h.left, h.right, h.down⟩
  · have h := Operator.runPair_permitted hpair hf.entry hfits hok
    exact ⟨h.up, h.down⟩

/-! ## Grids without the nothing value -/

namespace Grid

/-- Every value on the grid belongs to a kind. -/
def Kinded (g : Grid) : Prop := ∀ p d, g.get? p = some (.data d) → d.value ≠ .none

theorem kinded_iff {g : Grid} :
    g.Kinded ↔ ∀ p ∈ g.positions, ∀ d ∈ g.datum? p, d.value ≠ .none := by
  constructor
  · intro h p _ d hd
    exact h p d (datum?_eq_some_iff.mp hd)
  · intro h p d hd
    exact h p (mem_positions.mpr (contains_of_get? hd)) d (datum?_eq_some_iff.mpr hd)

instance (g : Grid) : Decidable g.Kinded := decidable_of_iff' _ kinded_iff

variable {g : Grid} (h : g.Kinded)
include h

theorem Kinded.set {p : Pos} (hp : g.contains p = true) {c : Cell}
    (hc : ∀ d, c = .data d → d.value ≠ .none) : (g.set p c).Kinded := by
  intro q d hq
  rw [get?_set hp] at hq
  split at hq
  · exact hc d (Option.some.inj hq)
  · exact h q d hq

theorem Kinded.shift {p q : Pos} (hp : g.contains p = true) (hq : g.contains q = true) :
    (g.shift p q).Kinded := by
  intro r d hr
  rw [get?_shift hp hq] at hr
  split at hr
  · exact h p d hr
  · split at hr
    · cases hr
    · exact h r d hr

end Grid

/-! ## Production -/

/-- A grid without the nothing value that values are placed into, with no value on its way. -/
structure Router.Kinded (r : Router) : Prop where
  grid : r.grid.Kinded
  idle : r.trail = []

theorem Router.Kinded.place {r : Router} (h : r.Kinded) {d : Option Datum}
    (hd : ∀ e, d = some e → e.value ≠ .none) (target : Pos) (dir : Dir) (overwrite : Bool) :
    (r.place d target dir overwrite).2.Kinded := by
  refine ⟨?_, trail_place h.idle d target dir overwrite⟩
  cases overwrite with
  | false =>
    intro q e hq
    rcases (place_runs (.nil h.idle) d target dir).written q with hsame | ⟨e', he', hputs⟩
    · exact h.grid q e (hsame.symm.trans hq)
    · rw [he'] at hq
      cases hq
      rcases hputs with hputs | hstamp
      · exact hd e hputs
      · rw [hstamp]
        exact Value.noConfusion
  | true =>
    cases d with
    | none => exact h.grid
    | some d =>
      cases hc : r.grid.get? target with
      | none =>
        have hplace : r.place (some d) target dir true = (false, r) := by
          simp [Router.place, offer, hc]
        rw [hplace]
        exact h.grid
      | some c =>
        have hplace : r.place (some d) target dir true = (true, r.write target d) := by
          simp [Router.place, offer, hc]
        rw [hplace]
        apply h.grid.set (Grid.contains_of_get? hc)
        intro e he
        cases he
        exact hd d rfl

namespace Production

theorem stable_kinded (g : Grid) : Stable g Router.Kinded := by
  refine ⟨fun _ h => ⟨h.grid, h.idle⟩, ?_⟩
  intro f hf ctx ctx' outs hrun e he _ r h
  have hpermits := Firing.run_permits hf hrun e he
  exact h.place (fun d hd => hpermits.ne_none hd) _ _ _

theorem kinded_foldl_clear (stays : Array Bool) (ps : List Pos) (acc : Grid × Nat)
    (hps : ∀ p ∈ ps, acc.1.contains p = true) (h : acc.1.Kinded) :
    (ps.foldl (clear stays) acc).1.Kinded := by
  induction ps generalizing acc with
  | nil => exact h
  | cons p ps ih =>
    obtain ⟨hp, hps⟩ := List.forall_mem_cons.mp hps
    apply ih
    · intro q hq
      rw [(frame_clear stays acc.1 acc.2 hp).contains q]
      exact hps q hq
    · unfold clear
      dsimp only
      split
      · exact h.set hp fun d hd => nomatch hd
      · exact h

end Production

theorem kinded_produce (g : Grid) (ctx : Context) (h : g.Kinded) : (produce g ctx).1.Kinded := by
  rw [produce_eq]
  have hended := (Production.stable_kinded g).ended ctx ⟨h, rfl⟩
  exact Production.kinded_foldl_clear (Production.ended g ctx).stays g.interior
    ((Production.ended g ctx).router.grid, 0) (Production.inside_ended g ctx) hended.grid

/-! ## Settlement -/

theorem Fall.Steps.kinded {f f' : Fall} (hsteps : Steps f f') (h : f.grid.Kinded) :
    f'.grid.Kinded := by
  induction hsteps with
  | refl => exact h
  | tail _ hstep ih =>
    cases hstep with
    | off | turn | stop | meet => exact ih
    | move hp _ ht _ => exact ih.shift (Grid.contains_of_interior hp) (Grid.contains_of_step? ht)

theorem kinded_settle (g : Grid) (h : g.Kinded) : (settle g).1.Kinded := by
  unfold settle
  split
  · exact Fall.Steps.kinded (Fall.steps_passes _ (Fall.start g)) h
  · exact h

/-! ## The catalog and whole runs -/

open Production (fitsJoint fitsPair) in
/-- Every code, every entry of its table, all neighbours that meet the entry, every context: what a
    successful computation emits is permitted by the outcome of the entry, side by side. So no run
    of a machine brings the nothing value onto a grid that does not have it. -/
theorem computations_keep_to_signatures :
    (∀ (code : Operator.Code) (index : Nat) (sig : Signature) (near : Sides (Option Datum))
      (ctx : Context) (e : Emission), code.isPair = false →
      code.signatures[index]? = some sig → fitsJoint sig near = true →
      (Operator.runJoint code index near ctx).1 = .ok e → e.Permitted sig.yields) ∧
    (∀ (code : Operator.Code) (index : Nat) (sig : Signature) (first second : Option Datum)
      (ctx : Context) (e : PairEmission), code.isPair = true →
      code.signatures[index]? = some sig → fitsPair sig first second = true →
      (Operator.runPair code index first second ctx).1 = .ok e →
      e.sides.Permitted sig.yields) ∧
    ∀ (g : Grid) (console : Console) (seed : UInt64) (log : Array Event)
      (calls : List Machine.Call), g.Kinded →
      (calls.foldl Machine.call (Machine.start g console seed log)).grid.Kinded := by
  refine ⟨?_, ?_, ?_⟩
  · intro code index sig near ctx e hpair hentry hfits hrun
    exact Operator.runJoint_permitted hpair hentry hfits hrun
  · intro code index sig first second ctx e hpair hentry hfits hrun
    exact Operator.runPair_permitted hpair hentry hfits hrun
  · intro g console seed log calls h
    exact Machine.kept_foldl_call kinded_produce kinded_settle calls
      (m := Machine.start g console seed log) h

/-- A text that is cut at a comma. One half goes to the right of the operator, and the other one
    into the stamp below it. -/
def halves : Grid :=
  ⟨5, 6,
    #[.border, .border, .border, .border, .border,
      .border, .empty, .data (.text "a,b"), .empty, .border,
      .border, .data (.text ","), .operator (.ofCode .divide), .empty, .border,
      .border, .empty, .operator (.ofCode .tickStamp), .empty, .border,
      .border, .empty, .empty, .empty, .border,
      .border, .border, .border, .border, .border], rfl⟩

open Production (fitsJoint) in
/-- The cut is permitted by the last entry of the division table, and no run over the grid brings in
    the nothing value. -/
theorem computations_keep_to_signatures_halves :
    let near : Sides (Option Datum) := ⟨some (.text "a,b"), some (.text ","), none, none⟩
    let sig := Signature.of .texts .texts .empty .empty .empty .empty .texts .texts
    let ctx : Context := ⟨{}, ⟨0⟩, 0, none, #[]⟩
    let cut : Emission := ⟨none, none, some (.text "b"), some (.text "a")⟩
    Operator.Code.divide.signatures[5]? = some sig ∧ fitsJoint sig near = true ∧
      (Operator.runJoint .divide 5 near ctx).1 = .ok cut ∧ cut.Permitted sig.yields ∧
      halves.Kinded ∧
      ([.step, .runFor 3].foldl Machine.call (Machine.start halves {} 0 #[])).grid.Kinded := by
  intro near sig ctx cut
  have hcut : (Operator.runJoint .divide 5
      ⟨some (.text "a,b"), some (.text ","), none, none⟩ ⟨{}, ⟨0⟩, 0, none, #[]⟩).1 =
      .ok ⟨none, none, some (.text "b"), some (.text "a")⟩ := by rfl
  have hkinded : halves.Kinded := by decide
  obtain ⟨hjoint, -, hruns⟩ := computations_keep_to_signatures
  have hpermitted := hjoint .divide 5 sig near ctx cut rfl rfl rfl hcut
  exact ⟨rfl, rfl, hcut, hpermitted, hkinded, hruns halves {} 0 #[] _ hkinded⟩

end Gridfall
