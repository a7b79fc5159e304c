/-
  Failing is local and silent. An operator whose computations all fail leaves no trace in a phase
  but the number of its failures and some notes in the log: with a border in its place, the phase
  writes, consumes, prints, reads, draws and asks for a halt as before (`failure_silent`).

  The two phases are coupled (`Coupled`): one router is the other with a border at the operator's
  place (`Router.Beside`). The firings of the other operators match, because they do not see the
  operator and because values do not pass it (`Wall`). The firings of the operator itself happen in
  one phase only, and each of them fails, which costs a note (`Firing.noted_of_none`).
-/
import Gridfall.Proofs.Routing.Wall
import Gridfall.Proofs.Tick.Account

namespace Gridfall

/-! ## Computations that fail -/

namespace Operator

/-- What fails has not touched the context: an operator that reads, writes or asks for a halt does
    not fail. -/
theorem runJoint_error {code : Code} {index : Nat} {near : Sides (Option Datum)}
    {ctx ctx' : Context} {fault : Fault}
    (h : runJoint code index near ctx = (.error fault, ctx')) : ctx' = ctx := by
  cases code with
  | writeText | writeNumber =>
    simp only [runJoint] at h
    split at h <;> cases h
  | multiply | divide | remainder => exact (congrArg Prod.snd h).symm
  | _ => cases h

/-- The same for pairs: the operator that draws does not fail. -/
theorem runPair_error {code : Code} {index : Nat} {first second : Option Datum}
    {ctx ctx' : Context} {fault : Fault}
    (h : runPair code index first second ctx = (.error fault, ctx')) : ctx' = ctx := by
  cases code with
  | random =>
    simp only [runPair] at h
    split at h <;> cases h
  | convert => exact (congrArg Prod.snd h).symm
  | _ => cases h

end Operator

/-- A computation that fails leaves a note and nothing else. -/
theorem Firing.noted_of_none {g : Grid} {f : Firing} {ctx ctx' : Context}
    (h : f.run g ctx = (none, ctx')) : ∃ e, ctx' = ctx.note e := by
  unfold run at h
  split at h
  · split at h
    · next hrun =>
      cases h
      exact ⟨_, congrArg (Context.note · _) (Operator.runJoint_error hrun)⟩
    · cases h
  · split at h
    · next hrun =>
      cases h
      exact ⟨_, congrArg (Context.note · _) (Operator.runPair_error hrun)⟩
    · cases h

namespace Production

/-- The phase when the cell at `p` has its turn. -/
def reached (g : Grid) (ctx : Context) (p : Pos) : Production :=
  (g.interior.takeWhile (· ≠ p)).foldl (turn g) (start g ctx)

/-- The computation of a firing succeeds. -/
def Succeeds (g : Grid) (s : Production) (f : Firing) : Prop :=
  (f.run g s.router.context).1.isSome = true

instance (g : Grid) (s : Production) (f : Firing) : Decidable (Succeeds g s f) :=
  inferInstanceAs (Decidable (_ = _))

/-- In its turn, the operator at `p` has no firing that succeeds. -/
def FailsAt (g : Grid) (ctx : Context) (p : Pos) : Prop :=
  ¬ Happens (perform g) (Succeeds g) (firings g p) (reached g ctx p)

instance (g : Grid) (ctx : Context) (p : Pos) : Decidable (FailsAt g ctx p) :=
  inferInstanceAs (Decidable (¬ _))

end Production

/-! ## Beside the operator -/

open Context (SameButLog)

namespace Grid

variable {g : Grid} {p : Pos} (hp : g.Plain p)
include hp

theorem datum?_walled : (g.walled p).datum? = g.datum? := by
  funext q
  apply Option.ext
  intro d
  rw [datum?_eq_some_iff, datum?_eq_some_iff]
  exact get?_walled_iff hp (by simp) (by simp)

/-- The wall has no firings, and the other cells have theirs. -/
theorem firings_walled (q : Pos) :
    Production.firings (g.walled p) q = if q = p then [] else Production.firings g q := by
  unfold Production.firings
  rw [get?_walled hp, Production.operatorFirings_congr (datum?_walled hp)]
  split_ifs <;> rfl

end Grid

/-- The same router with a border at `p`, but for the log. The operator at `p` is where it was. -/
structure Router.Beside (g : Grid) (p : Pos) (r r' : Router) : Prop where
  keeps : r.Keeps g
  same : r' = (r.walled p).adopt r'.context
  context : SameButLog r.context r'.context

section

variable {g : Grid} {p : Pos} (hp : g.Plain p)
include hp

theorem Grid.Plain.of_frame {g' : Grid} (h : g.Frame g') : g'.Plain p := by
  obtain ⟨op, hop, hspecial⟩ := hp
  exact ⟨op, h.fixed p _ hop rfl, hspecial⟩

/-- Placing goes the same way beside the operator. -/
theorem Router.Beside.place {r r' : Router} (h : Beside g p r r') (d : Option Datum) {target : Pos}
    (dir : Dir) {overwrite : Bool} (haim : overwrite = true → ∃ e, g.get? target = some (.data e)) :
    (r'.place d target dir overwrite).1 = (r.place d target dir overwrite).1 ∧
      Beside g p (r.place d target dir overwrite).2 (r'.place d target dir overwrite).2 := by
  have hne : overwrite = true → target ≠ p := by
    rintro ho rfl
    obtain ⟨e, he⟩ := haim ho
    obtain ⟨op, hop, -⟩ := hp
    cases he.symm.trans hop
  have hwalled := place_walled h.keeps.idle (hp.of_frame h.keeps.frame) d dir hne
  obtain ⟨ctx, hplace, hctx⟩ := place_adopt (r := r.walled p) Context.kept_sameButLog h.keeps.idle
    h.context d target dir overwrite
  rw [hwalled] at hplace hctx
  rw [h.same, hplace]
  exact ⟨rfl, h.keeps.place d dir haim, rfl, hctx⟩

namespace Production

/-- The firings of the other operators do the same beside the operator. -/
theorem matches_beside {f : Firing} (hf : f.Chosen g) :
    Matches g (g.walled p) (Router.Beside g p) f where
  run {r r'} h := by
    obtain ⟨hanswer, hnext⟩ := Firing.run_alike Context.kept_sameButLog g (fun _ => rfl)
      (fun _ => rfl) h.context (f := f)
    rw [Firing.run_congr (Grid.datum?_walled hp)]
    refine ⟨hanswer, ⟨h.keeps.frame, h.keeps.idle⟩, ?_, hnext⟩
    rw [h.same]
    rfl
  place e he hgives d _ _ h :=
    (h.place hp d e.dir fun ho => datum_of_overwrites hf ho he hgives).2
  flag e he hgives d _ _ h :=
    (h.place hp d e.dir fun ho => datum_of_overwrites hf ho he hgives).1

omit hp

/-- A firing that fails is one failure more, beside which nothing happens. -/
theorem Coupled.fail {k : Nat} {f : Firing} {s s' : Production}
    (h : Coupled (Router.Beside g p) k s s') (hf : ¬ Succeeds g s f) :
    Coupled (Router.Beside g p) (k + 1) (Production.perform g s f) s' := by
  rcases hrun : f.run g s.router.context with ⟨_ | outs, ctx⟩
  · obtain ⟨e, rfl⟩ := Firing.noted_of_none hrun
    rw [perform_of_none hrun]
    obtain ⟨⟨⟨hkeeps, hsame, hcontext⟩, hfired, hfailed⟩, hstays⟩ := h
    have hnoted : SameButLog (s.router.context.note e) s'.router.context :=
      ⟨⟨hcontext.console, hcontext.generator, hcontext.tick⟩, hcontext.halt⟩
    have hbeside : Router.Beside g p (s.router.adopt (s.router.context.note e)) s'.router :=
      ⟨⟨hkeeps.frame, hkeeps.idle⟩, hsame, hnoted⟩
    exact ⟨⟨hbeside, hfired, congrArg (· + 1) hfailed⟩, hstays⟩
  · exact absurd (by rw [Succeeds, hrun]; rfl) hf

theorem Coupled.fails {k : Nat} {fs : List Firing} {s s' : Production}
    (h : Coupled (Router.Beside g p) k s s')
    (hfs : ¬ Happens (Production.perform g) (Succeeds g) fs s) :
    Coupled (Router.Beside g p) (k + fs.length) (fs.foldl (Production.perform g) s) s' := by
  induction fs generalizing k s with
  | nil => exact h
  | cons f fs ih =>
    rw [happens_cons_iff, not_or] at hfs
    have hrest := ih (h.fail hfs.1) hfs.2
    rw [List.length_cons, Nat.add_comm fs.length 1, ← Nat.add_assoc]
    exact hrest

include hp

/-- When the last operator has fired, the phases are coupled, with all firings of the operator
    failed. -/
theorem beside_ended (hinside : p ∈ g.interior) {ctx : Context} (hfail : FailsAt g ctx p) :
    Coupled (Router.Beside g p) (firings g p).length (ended g ctx) (ended (g.walled p) ctx) := by
  obtain ⟨before, after, hsplit⟩ := List.append_of_mem hinside
  have hnodup := g.nodup_interior
  rw [hsplit, List.nodup_middle, List.nodup_cons, List.mem_append, not_or] at hnodup
  obtain ⟨⟨hbefore, hafter⟩, -⟩ := hnodup
  have hothers : ∀ ps : List Pos, p ∉ ps →
      ps.flatMap (firings (g.walled p)) = ps.flatMap (firings g) := by
    intro ps hps
    refine List.flatMap_congr fun q hq => ?_
    have hne : q ≠ p := by
      rintro rfl
      exact hps hq
    rw [Grid.firings_walled hp, if_neg hne]
  have hall : allFirings g =
      before.flatMap (firings g) ++ (firings g p ++ after.flatMap (firings g)) := by
    rw [allFirings, hsplit, List.flatMap_append, List.flatMap_cons]
  have hwalled : allFirings (g.walled p) =
      before.flatMap (firings g) ++ after.flatMap (firings g) := by
    have hinterior : (g.walled p).interior = g.interior := rfl
    rw [allFirings, hinterior, hsplit, List.flatMap_append, List.flatMap_cons, hothers _ hbefore,
      hothers _ hafter, Grid.firings_walled hp, if_pos rfl, List.nil_append]
  have hmatches : ∀ f ∈ allFirings g, Matches g (g.walled p) (Router.Beside g p) f :=
    fun f hf => matches_beside hp (chosen_of_mem hf)
  rw [hall, List.forall_mem_append, List.forall_mem_append] at hmatches
  obtain ⟨hfirst, -, hlast⟩ := hmatches
  have hreached : reached g ctx p =
      (before.flatMap (firings g)).foldl (perform g) (start g ctx) := by
    rw [reached, hsplit, List.takeWhile_append_of_pos, foldl_turn]
    · simp
    · intro q hq
      simpa using fun e : q = p => hbefore (e ▸ hq)
  have hstart : Coupled (Router.Beside g p) 0 (start g ctx) (start (g.walled p) ctx) := by
    refine ⟨⟨⟨⟨.refl g, rfl⟩, rfl, ⟨.refl ctx, rfl⟩⟩, rfl, rfl⟩, ?_⟩
    rw [start, start, Grid.walled, Grid.size_set]
  rw [FailsAt, hreached] at hfail
  have hturn := (hstart.foldl hfirst rfl).fails hfail
  rw [Nat.zero_add] at hturn
  rw [ended, ended, hall, hwalled, List.foldl_append, List.foldl_append, List.foldl_append]
  exact hturn.foldl hlast rfl

/-- Neither the operator nor the wall is emptied. -/
theorem isCleared_walled (stays : Array Bool) {q : Pos} (hq : g.contains q = true) :
    isCleared stays (g.walled p) q = isCleared stays g q := by
  have hdata : ((g.walled p).cellAt q).isData = (g.cellAt q).isData := by
    have hcell := Grid.get?_walled hp q
    split at hcell
    · next hqp =>
      obtain ⟨op, hop, -⟩ := hp
      rw [Grid.cellAt_of_get? hcell, hqp, Grid.cellAt_of_get? hop]
      rfl
    · rw [Grid.cellAt_of_get? (hcell.trans (Grid.get?_of_contains hq))]
  rw [isCleared, isCleared, hdata]
  rfl

theorem emptied_walled {ctx : Context} {k : Nat}
    (h : Coupled (Router.Beside g p) k (ended g ctx) (ended (g.walled p) ctx)) :
    emptied (g.walled p) ctx = emptied g ctx := by
  have hgrid : (ended (g.walled p) ctx).router.grid = (ended g ctx).router.grid.walled p :=
    congrArg Router.grid h.router.same
  have hplain := hp.of_frame h.router.keeps.frame
  ext q
  rw [mem_emptied, mem_emptied, h.stays, hgrid]
  refine and_congr_right fun hq => ?_
  rw [isCleared_walled hplain _ (inside_ended g ctx q hq)]

end Production

end

/-- Let the operator at `p` of a framed grid not be special, and let no computation of it succeed
    when it has its turn; where no signature fits, there is none. With a border in its place, the
    phase leaves the same cells elsewhere, the same console and generator, the same request to halt,
    and the same counts, except that each firing of the operator was one failure more. -/
theorem failure_silent {g : Grid} (hf : g.Framed) {p : Pos} {op : Operator}
    (hp : g.get? p = some (.operator op)) (hspecial : op.code.isSpecial = false) {ctx : Context}
    (hfail : Production.FailsAt g ctx p) :
    let phase := produce g ctx
    let walled := produce (g.set p .border) ctx
    (∀ q, q ≠ p → walled.1.get? q = phase.1.get? q) ∧
    walled.2.1.fired = phase.2.1.fired ∧
    walled.2.1.writes = phase.2.1.writes ∧
    walled.2.1.consumed = phase.2.1.consumed ∧
    walled.2.1.halt = phase.2.1.halt ∧
    walled.2.2.console = phase.2.2.console ∧
    walled.2.2.generator = phase.2.2.generator ∧
    phase.2.1.failed = walled.2.1.failed + (Production.firings g p).length := by
  have hplain : g.Plain p := ⟨op, hp, hspecial⟩
  have hended := Production.beside_ended hplain (hf.interior hp (by simp)) hfail
  have hbeside := hended.router
  have hemptied := Production.emptied_walled hplain hended
  obtain ⟨hcell, hcount⟩ := Production.cleared_eq g ctx
  obtain ⟨hcell', hcount'⟩ := Production.cleared_eq (g.walled p) ctx
  have hwrites := congrArg Router.writes hbeside.same
  have hwalled : g.set p .border = g.walled p := rfl
  rw [hwalled, produce_eq, produce_eq]
  dsimp only
  refine ⟨fun q hq => ?_, hended.fired, hwrites, ?_, hbeside.context.halt, hbeside.context.console,
    hbeside.context.generator, hended.failed⟩
  · have hgrid : (Production.ended (g.walled p) ctx).router.grid =
        (Production.ended g ctx).router.grid.walled p := congrArg Router.grid hbeside.same
    rw [hcell, hcell', hemptied, hgrid, Grid.get?_walled (hplain.of_frame hbeside.keeps.frame),
      if_neg hq]
  · rw [hcount, hcount', hemptied]

/-- A five that is divided by zero and also negated. -/
def dividing : Grid :=
  ⟨6, 5,
    #[.border, .border, .border, .border, .border, .border,
      .border, .empty, .data (.number 5), .operator (.ofCode .not), .empty, .border,
      .border, .data (.number 0), .operator (.ofCode .divide), .empty, .empty, .border,
      .border, .empty, .empty, .empty, .empty, .border,
      .border, .border, .border, .border, .border, .border], rfl⟩

/-- The division fails once. It does not hold on to the five, which the negation consumes. -/
theorem failure_silent_dividing :
    let ctx : Context := ⟨{}, ⟨0⟩, 0, none, #[]⟩
    dividing.Framed ∧ Production.FailsAt dividing ctx ⟨2, 2⟩ ∧
      (Production.firings dividing ⟨2, 2⟩).length = 1 ∧
      (produce dividing ctx).2.1.consumed = 1 ∧
      (produce (dividing.set ⟨2, 2⟩ .border) ctx).2.1.consumed =
        (produce dividing ctx).2.1.consumed ∧
      (produce dividing ctx).2.1.failed =
        (produce (dividing.set ⟨2, 2⟩ .border) ctx).2.1.failed + 1 := by
  intro ctx
  have hf : dividing.Framed := by decide
  have hfail : Production.FailsAt dividing ctx ⟨2, 2⟩ := by decide +kernel
  have hlength : (Production.firings dividing ⟨2, 2⟩).length = 1 := by decide +kernel
  have hp : dividing.get? ⟨2, 2⟩ = some (.operator (.ofCode .divide)) := by decide
  obtain ⟨-, -, -, hconsumed, -, -, -, hfailed⟩ := failure_silent hf hp rfl hfail
  rw [hlength] at hfailed
  exact ⟨hf, hfail, hlength, by decide +kernel, hconsumed, hfailed⟩

end Gridfall
