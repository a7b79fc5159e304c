/-
  Noninterference of the seed and of the input. On a grid without a random operator the seed is
  never seen, and on a grid without the two operators that read, the input is never seen: whatever
  is called, and in which order, everything that can be observed of the machine is the same.

  Both statements are about two machines in lockstep. `Context.Lasting` adds to what operators keep
  what is needed between the phases, and `Machine.Alike` relates two machines by such a relation of
  their contexts. Each call keeps machines alike (`Alike.call`), as long as the grid admits it; and
  it goes on admitting it, since no call puts an operator on the grid (`admits_produce`,
  `admits_settle`). The two statements are two choices of the relation: `SameButGenerator` and
  `SameButInput`.
-/
import Gridfall.Proofs.Frame
import Gridfall.Proofs.Routing.Graph
import Gridfall.Proofs.Tick.Twin

namespace Gridfall

/-! ## Grids without an operator -/

namespace Grid

/-- No operator of the grid has the code. -/
def Lacks (g : Grid) (code : Operator.Code) : Prop :=
  ∀ p c, g.get? p = some c → c.code? ≠ some code

instance (g : Grid) (code : Operator.Code) : Decidable (g.Lacks code) :=
  decidable_of_iff' _ forall_get?_iff

theorem Lacks.code_ne {g : Grid} {code : Operator.Code} (h : g.Lacks code) {p : Pos} {op : Operator}
    (hp : g.get? p = some (.operator op)) : op.code ≠ code := by
  intro hcode
  exact h p _ hp (congrArg some hcode)

theorem admits_of_lacks_random {g : Grid} (h : g.Lacks .random) : g.Admits true false := by
  intro p op hp
  refine ⟨fun _ => rfl, fun hdraws => absurd ?_ (h.code_ne hp)⟩
  cases hcode : op.code <;> simp_all [Operator.Code.draws]

theorem admits_of_lacks_reading {g : Grid} (htext : g.Lacks .writeText)
    (hnumber : g.Lacks .writeNumber) : g.Admits false true := by
  intro p op hp
  refine ⟨fun hreads => ?_, fun _ => rfl⟩
  have htext := htext.code_ne hp
  have hnumber := hnumber.code_ne hp
  cases hcode : op.code <;> simp_all [Operator.Code.reads]

variable {reads draws : Bool}

theorem Frame.admits {g g' : Grid} (h : g.Frame g') (hg : g.Admits reads draws) :
    g'.Admits reads draws := fun p op hp => hg p op (h.get?_operator hp)

end Grid

/-! ## Relations that last -/

namespace Context

/-- Relations that operators keep, that show in no request to halt, and that hold on from one phase
    to the next, where the request is withdrawn and the tick may have advanced. -/
structure Lasting (reads draws : Bool) (R : Context → Context → Prop) : Prop
    extends Kept reads draws R where
  request : ∀ {a b : Context}, R a b → b.halt = a.halt
  renew : ∀ {a b : Context} (tick : UInt64), R a b →
    R { a with tick, halt := none } { b with tick, halt := none }

/-- All but the generator is the same. -/
structure SameButGenerator (a b : Context) : Prop where
  console : b.console = a.console
  tick : b.tick = a.tick
  halt : b.halt = a.halt
  log : b.log = a.log

theorem lasting_sameButGenerator : Lasting true false SameButGenerator where
  tick h := h.tick
  note e h := ⟨h.console, h.tick, h.halt, congrArg (·.push e) h.log⟩
  halt _ h := ⟨h.console, h.tick, rfl, h.log⟩
  write {a b} s h := by
    rw [write_eq, write_eq, h.console, h.log]
    exact ⟨rfl, h.tick, h.halt, rfl⟩
  token _ {a b} h := by
    rw [readToken_eq, readToken_eq, h.console, h.log]
    exact ⟨rfl, rfl, h.tick, h.halt, rfl⟩
  number _ {a b} h := by
    rw [readNumber_eq, readNumber_eq, h.console, h.log]
    exact ⟨rfl, rfl, h.tick, h.halt, rfl⟩
  random hdraws := by cases hdraws
  request h := h.halt
  renew _ h := ⟨h.console, rfl, rfl, h.log⟩

end Context

/-- The same output, and the same writes still to be accepted. -/
structure Console.SameOutput (c c' : Console) : Prop where
  output : c'.output = c.output
  writesLeft : c'.writesLeft = c.writesLeft
  writeFault : c'.writeFault = c.writeFault

/-- Writing does not look at the input. -/
theorem Console.SameOutput.write {c c' : Console} (h : c.SameOutput c') (s : String) :
    (c.write s).1.SameOutput (c'.write s).1 ∧ (c'.write s).2 = (c.write s).2 := by
  unfold Console.write
  rw [h.writesLeft, h.writeFault, h.output]
  split
  · exact ⟨h, rfl⟩
  · split
    · exact ⟨⟨rfl, rfl, rfl⟩, rfl⟩
    · exact ⟨h, rfl⟩
    · exact ⟨⟨rfl, rfl, rfl⟩, rfl⟩

namespace Context

/-- All but the input is the same. -/
structure SameButInput (a b : Context) : Prop where
  console : a.console.SameOutput b.console
  generator : b.generator = a.generator
  tick : b.tick = a.tick
  halt : b.halt = a.halt
  log : b.log = a.log

theorem lasting_sameButInput : Lasting false true SameButInput where
  tick h := h.tick
  note e h := ⟨h.console, h.generator, h.tick, h.halt, congrArg (·.push e) h.log⟩
  halt _ h := ⟨h.console, h.generator, h.tick, rfl, h.log⟩
  write {a b} s h := by
    obtain ⟨hconsole, htrouble⟩ := h.console.write s
    rw [write_eq, write_eq, htrouble, h.log]
    exact ⟨hconsole, h.generator, h.tick, h.halt, rfl⟩
  token hreads := by cases hreads
  number hreads := by cases hreads
  random _ {a b} n h := by
    rw [random_eq, random_eq, h.generator]
    exact ⟨rfl, h.console, rfl, h.tick, h.halt, h.log⟩
  request h := h.halt
  renew _ h := ⟨h.console, h.generator, rfl, rfl, h.log⟩

end Context

/-! ## Machines in lockstep -/

namespace Machine

open Context (Lasting)

/-- The same machine, with what operators can reach replaced by something related. -/
def Alike (R : Context → Context → Prop) (m m' : Machine) : Prop :=
  ∃ ctx, m' = m.adopt ctx ∧ R m.context m'.context

theorem grid_adopt (m : Machine) (ctx : Context) : (m.adopt ctx).grid = m.grid := rfl

theorem halted_adopt (m : Machine) (ctx : Context) : (m.adopt ctx).halted = m.halted := rfl

/-- What a machine that is not halted makes of a production phase. -/
def conclude (m : Machine) (x : Grid × ProductionReport × Context) : Machine :=
  let next := ({ m with grid := x.1, report := x.2.1 }.adopt x.2.2).note
    (.produced m.tick x.2.1.fired x.2.1.failed x.2.1.writes x.2.1.consumed)
  match x.2.1.halt with
  | some request => next.obey request
  | none => next

theorem produce_eq_conclude (m : Machine) :
    m.produce =
      if m.halted.isSome then m else m.conclude (Gridfall.produce m.grid m.context) := rfl

variable {reads draws : Bool} {R : Context → Context → Prop} (hR : Lasting reads draws R)
include hR

theorem Alike.note {m m' : Machine} (h : Alike R m m') (e : Event) :
    Alike R (m.note e) (m'.note e) := by
  obtain ⟨ctx, rfl, hctx⟩ := h
  exact ⟨ctx.note e, rfl, hR.note e hctx⟩

theorem alike_adopt (m : Machine) {a b : Context} (h : R a b) : Alike R (m.adopt a) (m.adopt b) :=
  ⟨b, rfl, hR.renew m.tick h⟩

theorem dumpValue_related (v : Value) {a b : Context} (h : R a b) :
    R (dumpValue a v) (dumpValue b v) := by
  cases v with
  | number n => exact hR.write " " (hR.write n.text h)
  | text s => exact hR.write " " (hR.write s h)
  | none | input | output => exact h

theorem Alike.dumpValues {m m' : Machine} (h : Alike R m m') :
    Alike R m.dumpValues m'.dumpValues := by
  obtain ⟨ctx, rfl, hctx⟩ := h
  apply alike_adopt hR m
  show R (m.grid.data.foldl _ m.context) (m.grid.data.foldl _ (m.adopt ctx).context)
  generalize m.context = a at hctx
  generalize (m.adopt ctx).context = b at hctx
  induction m.grid.data generalizing a b with
  | nil => exact hctx
  | cons e rest ih => exact ih _ _ (dumpValue_related hR e.2.value hctx)

theorem Alike.obey {m m' : Machine} (h : Alike R m m') (request : HaltRequest) :
    Alike R (m.obey request) (m'.obey request) := by
  obtain ⟨ctx, rfl, hctx⟩ := h
  have hhalted : Alike R { m with halted := some (.operator request.dump) }
      { m.adopt ctx with halted := some (.operator request.dump) } := ⟨ctx, rfl, hctx⟩
  have hnoted := hhalted.note hR (.halting m.tick request.dump)
  unfold Machine.obey
  dsimp only
  split
  · exact hnoted.dumpValues hR
  · exact hnoted

/-- The same grid and report are made the same of, in related contexts. -/
theorem alike_conclude (m : Machine) (ctx : Context) (grid : Grid) (report : ProductionReport)
    {a b : Context} (h : R a b) :
    Alike R (m.conclude (grid, report, a)) ((m.adopt ctx).conclude (grid, report, b)) := by
  have hnoted := (alike_adopt hR { m with grid, report } h).note hR
    (.produced m.tick report.fired report.failed report.writes report.consumed)
  unfold Machine.conclude
  dsimp only
  cases report.halt with
  | none => exact hnoted
  | some request => exact hnoted.obey hR request

theorem Alike.produce {m m' : Machine} (h : Alike R m m') (hg : m.grid.Admits reads draws) :
    Alike R m.produce m'.produce := by
  obtain ⟨ctx, rfl, hctx⟩ := h
  obtain ⟨hgrid, hreport, hnext⟩ := produce_twin hR.toKept hg hctx
  rw [hR.request hnext] at hreport
  rw [produce_eq_conclude, produce_eq_conclude, grid_adopt, halted_adopt]
  split
  · exact ⟨ctx, rfl, hctx⟩
  · have hphase : Gridfall.produce m.grid (m.adopt ctx).context =
        ((Gridfall.produce m.grid m.context).1, (Gridfall.produce m.grid m.context).2.1,
          (Gridfall.produce m.grid (m.adopt ctx).context).2.2) :=
      Prod.ext hgrid (Prod.ext hreport rfl)
    rw [hphase]
    exact alike_conclude hR m ctx _ _ hnext

theorem Alike.settle {m m' : Machine} (h : Alike R m m') : Alike R m.settle m'.settle := by
  obtain ⟨ctx, rfl, hctx⟩ := h
  unfold Machine.settle
  rw [grid_adopt, halted_adopt]
  split
  · exact ⟨ctx, rfl, hctx⟩
  · rcases Gridfall.settle m.grid with ⟨grid, outcome⟩
    cases outcome with
    | noData =>
      exact ⟨ctx.note (.noData m.tick), rfl, hR.renew (m.tick + 1) (hR.note (.noData m.tick) hctx)⟩
    | settled moves =>
      exact ⟨ctx.note (.settled m.tick moves), rfl,
        hR.renew (m.tick + 1) (hR.note (.settled m.tick moves) hctx)⟩

theorem Alike.step {m m' : Machine} (h : Alike R m m') (hg : m.grid.Admits reads draws) :
    Alike R m.step m'.step := by
  have hnext := (h.produce hR hg).settle hR
  obtain ⟨ctx, rfl, hctx⟩ := h
  unfold Machine.step
  rw [halted_adopt]
  split
  · exact ⟨ctx, rfl, hctx⟩
  · obtain ⟨ctx', hsame, hctx'⟩ := hnext
    dsimp only
    rw [hsame] at hctx' ⊢
    exact ⟨ctx', rfl, hctx'⟩

end Machine

/-! ## Runs -/

/-- No call puts an operator on the grid, so what it admits it goes on admitting. -/
theorem admits_produce {reads draws : Bool} (g : Grid) (ctx : Context)
    (h : g.Admits reads draws) : (produce g ctx).1.Admits reads draws :=
  (frame_produce g ctx).admits h

theorem admits_settle {reads draws : Bool} (g : Grid) (h : g.Admits reads draws) :
    (settle g).1.Admits reads draws := (frame_settle g).admits h

namespace Machine

open Context (Lasting)

variable {reads draws : Bool} {R : Context → Context → Prop} (hR : Lasting reads draws R)
include hR

theorem Alike.runFor (n : Nat) {m m' : Machine} (h : Alike R m m')
    (hg : m.grid.Admits reads draws) : Alike R (m.runFor n) (m'.runFor n) := by
  induction n generalizing m m' with
  | zero => exact h
  | succ n ih =>
    have hstep := h.step hR hg
    have hgrid := kept_step admits_produce admits_settle hg
    have hnext := ih hstep hgrid
    obtain ⟨ctx, hsame, hctx⟩ := hstep
    unfold Machine.runFor
    dsimp only
    rw [hsame] at hctx hnext ⊢
    rw [halted_adopt]
    split
    · exact ⟨ctx, rfl, hctx⟩
    · exact hnext

theorem Alike.call (c : Call) {m m' : Machine} (h : Alike R m m')
    (hg : m.grid.Admits reads draws) : Alike R (m.call c) (m'.call c) := by
  cases c with
  | produce => exact h.produce hR hg
  | settle => exact h.settle hR
  | step => exact h.step hR hg
  | runFor n => exact h.runFor hR n hg
  | dumpValues => exact h.dumpValues hR

theorem Alike.foldl_call (calls : List Call) {m m' : Machine} (h : Alike R m m')
    (hg : m.grid.Admits reads draws) :
    Alike R (calls.foldl Machine.call m) (calls.foldl Machine.call m') := by
  induction calls generalizing m m' with
  | nil => exact h
  | cons c calls ih => exact ih (h.call hR c hg) (kept_call admits_produce admits_settle c hg)

omit hR

/-- What can be observed of a machine: the grid, the counters, why it stopped, the report, the log
    and the output. -/
structure Agree (m m' : Machine) : Prop where
  grid : m'.grid = m.grid
  tick : m'.tick = m.tick
  lastTick : m'.lastTick = m.lastTick
  halted : m'.halted = m.halted
  report : m'.report = m.report
  log : m'.log = m.log
  output : m'.console.output = m.console.output

theorem Alike.agree {m m' : Machine} (h : Alike R m m')
    (hlog : ∀ {a b : Context}, R a b → b.log = a.log)
    (houtput : ∀ {a b : Context}, R a b → b.console.output = a.console.output) : Agree m m' := by
  obtain ⟨ctx, rfl, hctx⟩ := h
  exact ⟨rfl, rfl, rfl, rfl, rfl, hlog hctx, houtput hctx⟩

/-- Whatever is called: without a random operator the seed is not seen, and the console is the same
    as well; without an operator that reads, the input is not seen, and the generator is the same as
    well. -/
theorem calls_ignore_seed_and_input (g : Grid) (console : Console) (seed : UInt64)
    (log : Array Event) (calls : List Call) :
    (g.Lacks .random → ∀ seed' : UInt64,
      let m := calls.foldl call (start g console seed log)
      let m' := calls.foldl call (start g console seed' log)
      Agree m m' ∧ m'.console = m.console) ∧
    (g.Lacks .writeText → g.Lacks .writeNumber →
      ∀ (pending : List (List UInt8)) (readFault : Option String),
      let m := calls.foldl call (start g console seed log)
      let m' := calls.foldl call (start g { console with pending, readFault } seed log)
      Agree m m' ∧ m'.generator = m.generator) := by
  constructor
  · intro hrandom seed'
    have hstart : Alike Context.SameButGenerator (start g console seed log)
        (start g console seed' log) := ⟨⟨console, ⟨seed'⟩, 0, none, log⟩, rfl, rfl, rfl, rfl, rfl⟩
    have hrun := hstart.foldl_call Context.lasting_sameButGenerator calls
      (Grid.admits_of_lacks_random hrandom)
    refine ⟨hrun.agree (fun h => h.log) fun h => congrArg Console.output h.console, ?_⟩
    obtain ⟨ctx, -, hctx⟩ := hrun
    exact hctx.console
  · intro htext hnumber pending readFault
    have hstart : Alike Context.SameButInput (start g console seed log)
        (start g { console with pending, readFault } seed log) :=
      ⟨⟨{ console with pending, readFault }, ⟨seed⟩, 0, none, log⟩, rfl, ⟨rfl, rfl, rfl⟩, rfl, rfl,
        rfl, rfl⟩
    have hrun := hstart.foldl_call Context.lasting_sameButInput calls
      (Grid.admits_of_lacks_reading htext hnumber)
    refine ⟨hrun.agree (fun h => h.log) fun h => h.console.output, ?_⟩
    obtain ⟨ctx, -, hctx⟩ := hrun
    exact hctx.generator

/-- An operator with a cell above and a cell below. -/
def tower (above : Cell) (code : Operator.Code) (below : Cell) : Grid :=
  ⟨3, 5,
    #[.border, .border, .border,
      .border, above, .border,
      .border, .operator (.ofCode code), .border,
      .border, below, .border,
      .border, .border, .border], rfl⟩

/-- A production phase and two ticks over a grid. -/
def trial (g : Grid) (pending : List (List UInt8)) (seed : UInt64) : Machine :=
  [Call.produce, .runFor 2].foldl call (start g { pending } seed #[])

/-- An echo does not see the seed, and a draw does not see the input, though it does see
    the seed. -/
theorem calls_ignore_seed_and_input_tower :
    let echo := tower (.data (.fresh .input)) .writeText (.data (.fresh .output))
    let draw := tower (.data (.number 600)) .random .empty
    (echo.Lacks .random ∧ Agree (trial echo [[104, 105]] 1) (trial echo [[104, 105]] 2)) ∧
      (draw.Lacks .writeText ∧ draw.Lacks .writeNumber ∧
        Agree (trial draw [] 1) (trial draw [[104, 105]] 1) ∧
        (trial draw [[104, 105]] 1).generator = (trial draw [] 1).generator) ∧
      (trial draw [] 1).grid ≠ (trial draw [] 2).grid := by
  intro echo draw
  have hrandom : echo.Lacks .random := by decide
  have htext : draw.Lacks .writeText := by decide
  have hnumber : draw.Lacks .writeNumber := by decide
  have hecho := calls_ignore_seed_and_input echo { pending := [[104, 105]] } 1 #[]
    [.produce, .runFor 2]
  have hdraw := calls_ignore_seed_and_input draw {} 1 #[] [.produce, .runFor 2]
  refine ⟨⟨hrandom, (hecho.1 hrandom 2).1⟩,
    ⟨htext, hnumber, hdraw.2 htext hnumber [[104, 105]] none⟩, ?_⟩
  decide +kernel

end Machine

end Gridfall
