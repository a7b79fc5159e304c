/-
  Cases do not disturb one another. The cases of a suite share one console, and a case may leave
  anything on it: a dump at its end writes to it, and the permitted writes may be used up. A case
  whose program loads and has no operator that reads (`Case.SelfContained`) gets the same verdict in
  any suite of such cases as alone.

  This is one more choice of the relation between two machines in lockstep: `SameButConsole` keeps
  the generator, the tick and the request to halt, and says nothing about the console and the log.
  The verdict on a case is that of a bounded run and a production phase, and both keep machines
  alike (`Case.probe_alike`). Each case starts a new machine from the seed, so its verdict depends
  on nothing that the cases before it have left behind (`Case.SelfContained.run_eq`), and the report
  of a suite follows by induction on its cases (`runCases_eq`).
-/
import Gridfall.Proofs.Noninterference
import Gridfall.Proofs.Suite.Verdict

namespace Gridfall

namespace Context

/-- The same generator, tick and request to halt. -/
structure SameButConsole (a b : Context) : Prop where
  generator : b.generator = a.generator
  tick : b.tick = a.tick
  halt : b.halt = a.halt

theorem lasting_sameButConsole : Lasting false true SameButConsole where
  tick h := h.tick
  note _ h := ⟨h.generator, h.tick, h.halt⟩
  halt _ h := ⟨h.generator, h.tick, rfl⟩
  write {a b} s h := by
    rw [write_eq, write_eq]
    exact ⟨h.generator, h.tick, h.halt⟩
  token hreads := by cases hreads
  number hreads := by cases hreads
  random _ {a b} n h := by
    rw [random_eq, random_eq, h.generator]
    exact ⟨rfl, rfl, h.tick, h.halt⟩
  request h := h.halt
  renew _ h := ⟨h.generator, rfl, rfl⟩

end Context

namespace Suite

open Context (Lasting)

/-! ## One case -/

/-- The loop of a case gives the same verdict on machines that are alike. -/
theorem Case.probe_alike {reads draws : Bool} {R : Context → Context → Prop}
    (hR : Lasting reads draws R) (c : Case) {m m' : Machine} (h : Machine.Alike R m m')
    (hg : m.grid.Admits reads draws) (hm : m.halted = none) : (c.probe m').1 = (c.probe m).1 := by
  let n := (c.tick - m.tick).toNat
  have hrun := h.runFor hR n hg
  have hproduced := hrun.produce hR (Machine.kept_runFor admits_produce admits_settle n hg)
  obtain ⟨ctx, hsame, -⟩ := h
  obtain ⟨ctx', hran, -⟩ := hrun
  obtain ⟨ctx'', hlooked, -⟩ := hproduced
  have hdistance : (c.tick - m'.tick).toNat = n := by
    rw [hsame]
    rfl
  have hm' : m'.halted = none := by
    rw [hsame]
    exact hm
  have hverdict := c.probe_iff n rfl hm m.lastTick
  have hverdict' := c.probe_iff n hdistance hm' m'.lastTick
  have hunstamped : m.stamped m.lastTick = m := rfl
  have hunstamped' : m'.stamped m'.lastTick = m' := rfl
  rw [hunstamped] at hverdict
  rw [hunstamped', hlooked, hran] at hverdict'
  rw [Bool.eq_iff_iff, hverdict, hverdict']
  rfl

/-- A case is run by a new machine on its program. -/
theorem Case.run_of_load {c : Case} {g : Grid} (h : Source.load c.program = .ok g)
    (console : Console) (seed : UInt64) (log : Array Event) :
    c.run console seed log =
      .ok (c.probe (Machine.start g console seed (log.push (.loaded g.width g.height)))) := by
  unfold Case.run Source.loadNoted
  rw [h]
  rfl

/-- The program of the case loads, and none of its operators reads from the console. -/
def Case.SelfContained (c : Case) : Prop :=
  ∃ g, Source.load c.program = .ok g ∧ g.Lacks .writeText ∧ g.Lacks .writeNumber

/-- The verdict on the case alone, on a console without input; a program that does not load has
    none, and counts as failed. -/
def Case.verdict (c : Case) (seed : UInt64) : Bool :=
  match c.run {} seed #[] with
  | .ok (passed, _) => passed
  | .error _ => false

/-- The verdict is the same on every console and with every log. -/
theorem Case.SelfContained.run_eq {c : Case} (h : c.SelfContained) (seed : UInt64)
    (console : Console) (log : Array Event) :
    ∃ m, c.run console seed log = .ok (c.verdict seed, m) := by
  obtain ⟨g, hload, htext, hnumber⟩ := h
  have hg : g.Admits false true := Grid.admits_of_lacks_reading htext hnumber
  -- Both machines start from the seed; they differ in the console and the log only.
  let alone := Machine.start g {} seed #[.loaded g.width g.height]
  let m := Machine.start g console seed (log.push (.loaded g.width g.height))
  have hstart : Machine.Alike Context.SameButConsole alone m := ⟨m.context, rfl, rfl, rfl, rfl⟩
  have hsame : (c.probe m).1 = (c.probe alone).1 :=
    c.probe_alike Context.lasting_sameButConsole hstart hg rfl
  have hverdict : c.verdict seed = (c.probe alone).1 := by
    unfold Case.verdict
    rw [Case.run_of_load hload]
    rfl
  refine ⟨(c.probe m).2, ?_⟩
  rw [Case.run_of_load hload, hverdict, ← hsame]

/-! ## A suite -/

/-- The outcome of the case alone. -/
def Case.outcome (c : Case) (seed : UInt64) : Outcome := ⟨c.name, c.verdict seed⟩

/-- After any verdicts, and with any console and log, the rest of a suite adds the outcome that each
    case has alone. -/
theorem runCases_eq (seed : UInt64) {cases : List Case} (h : ∀ c ∈ cases, c.SelfContained)
    (done : Array Outcome) (console : Console) (log : Array Event) :
    (runCases seed cases done console log).1 =
      .ok ⟨done.toList ++ cases.map fun c => c.outcome seed⟩ := by
  induction cases generalizing done console log with
  | nil =>
    rw [List.map_nil, List.append_nil]
    rfl
  | cons c cases ih =>
    obtain ⟨hc, hcases⟩ := List.forall_mem_cons.mp h
    obtain ⟨m, hm⟩ := hc.run_eq seed console log
    rw [runCases, hm]
    refine (ih hcases _ _ _).trans ?_
    rw [Array.toList_push, List.append_assoc]
    rfl

theorem run_eq (seed : UInt64) {cases : List Case} (h : ∀ c ∈ cases, c.SelfContained)
    (console : Console) (log : Array Event) :
    (run cases console seed log).1 = .ok ⟨cases.map fun c => c.outcome seed⟩ :=
  runCases_eq seed h #[] console log

/-- A suite of self-contained cases runs to its end, and each case gets the verdict that it gets
    alone, on any console. So, whichever such cases another suite has, in which order, and on which
    console it is run: a case that stands in both has the same outcome in both. -/
theorem cases_isolated (seed : UInt64) {cases : List Case} (h : ∀ c ∈ cases, c.SelfContained)
    (console : Console) (log : Array Event) :
    ∃ r, (run cases console seed log).1 = .ok r ∧
      List.Forall₂ (fun c o => o.name = c.name ∧
        ∀ alone log', ∃ m, c.run alone seed log' = .ok (o.passed, m)) cases r.outcomes ∧
      ∀ others : List Case, (∀ c ∈ others, c.SelfContained) → ∀ console' log', ∃ r',
        (run others console' seed log').1 = .ok r' ∧
        ∀ i j : Nat, cases[i]? = others[j]? → r'.outcomes[j]? = r.outcomes[i]? := by
  refine ⟨_, run_eq seed h console log, ?_, ?_⟩
  · rw [List.forall₂_map_right_iff, List.forall₂_same]
    intro c hc
    exact ⟨rfl, (h c hc).run_eq seed⟩
  · intro others hothers console' log'
    refine ⟨_, run_eq seed hothers console' log', ?_⟩
    intro i j hij
    rw [List.getElem?_map, List.getElem?_map, hij]

/-- A case that dumps its value and one that fails, in both orders, on a console that refuses every
    write and on one with input. -/
theorem cases_isolated_ringing :
    (∀ c ∈ [Case.ringing 0, Case.ringing 1], c.SelfContained) ∧
      ∃ r r', (run [Case.ringing 0, Case.ringing 1] { writesLeft := some 0 } 7 #[]).1 = .ok r ∧
        (run [Case.ringing 1, Case.ringing 0] { pending := [[52, 10]] } 7 #[]).1 = .ok r' ∧
        r'.outcomes[1]? = r.outcomes[0]? ∧ r'.outcomes[0]? = r.outcomes[1]? := by
  have hload : Source.load "5\nh\n" = .ok Case.alarm := by decide +kernel
  have hall : ∀ tick, (Case.ringing tick).SelfContained :=
    fun _ => ⟨Case.alarm, hload, by decide, by decide⟩
  have hcases : ∀ c ∈ [Case.ringing 0, Case.ringing 1], c.SelfContained := by simp [hall]
  have hothers : ∀ c ∈ [Case.ringing 1, Case.ringing 0], c.SelfContained := by simp [hall]
  obtain ⟨r, hr, -, hsame⟩ := cases_isolated 7 hcases { writesLeft := some 0 } #[]
  obtain ⟨r', hr', houtcomes⟩ := hsame _ hothers { pending := [[52, 10]] } #[]
  exact ⟨hcases, r, r', hr, hr', houtcomes 0 1 rfl, houtcomes 1 0 rfl⟩

end Suite

end Gridfall
