/-
  The drivers of a machine: its two phases one at a time, whole ticks, runs of a given length, and
  runs until it halts, with or without an observer. Each of them is a sequence of phases, and they
  agree wherever they meet.

  * `runFor_eq_iterate`: a run of length `n` is `n` ticks, since a tick of a halted machine does
    nothing. So runs compose, and where a run is cut does not matter.
  * `Ran m phases m'`: the machine `m'` comes out of `m` by the given phases, none of which was
    asked of a halted machine. Every sequence of calls is of this kind (`exists_ran`), and the
    counter is the number of settlement phases among them (`Ran.tick`).
  * `runWith?_eq_some_iff`: a run until the machine halts is a number of rounds, each an observation
    and a tick of a machine that has not halted. Without an observer it ends where runs of a given
    length end, if one of them does.
-/
import Gridfall.Machine.Timing
import Gridfall.Proofs.Frame
import Mathlib.Logic.Function.Iterate

namespace Gridfall.Machine

/-! ## Halted machines -/

section

variable {m : Machine} (h : m.halted.isSome = true)
include h

theorem produce_of_halted : m.produce = m := if_pos h

theorem settle_of_halted : m.settle = m := if_pos h

theorem step_of_halted : m.step = m := if_pos h

theorem runWith?_of_halted {σ : Type} (before : Machine × σ → Machine × σ) (s : σ) :
    m.runWith? before s = some (m, s) := by
  rw [runWith?]
  exact if_pos h

theorem run?_of_halted : m.run? = some m := by
  unfold run?
  rw [runWith?_of_halted h]
  rfl

end

/-! ## Runs of a given length -/

/-- The check after each tick only saves ticks that do nothing. -/
theorem runFor_eq_iterate (n : Nat) (m : Machine) : m.runFor n = step^[n] m := by
  induction n generalizing m with
  | zero => rfl
  | succ n ih =>
    rw [Function.iterate_succ_apply]
    unfold runFor
    dsimp only
    split
    · next h => exact (Function.iterate_fixed (step_of_halted h) n).symm
    · exact ih m.step

theorem runFor_add (n k : Nat) (m : Machine) : (m.runFor n).runFor k = m.runFor (n + k) := by
  simp only [runFor_eq_iterate]
  rw [Nat.add_comm, Function.iterate_add_apply]

theorem runFor_of_halted {m : Machine} (h : m.halted.isSome = true) (n : Nat) :
    m.runFor n = m := by
  rw [runFor_eq_iterate]
  exact Function.iterate_fixed (step_of_halted h) n

/-- From the tick on in which a machine halts, longer runs change nothing. -/
theorem runFor_of_le {m : Machine} {n k : Nat} (h : (m.runFor n).halted.isSome = true)
    (hnk : n ≤ k) : m.runFor k = m.runFor n := by
  obtain ⟨d, rfl⟩ := Nat.exists_eq_add_of_le hnk
  rw [← runFor_add]
  exact runFor_of_halted h d

/-! ## The counter -/

/-- The machine with another time of its latest full tick. -/
def stamped (m : Machine) (lastTick : Option UInt64) : Machine := { m with lastTick }

theorem halted_obey (m : Machine) (request : HaltRequest) :
    (m.obey request).halted = some (.operator request.dump) := by
  unfold obey
  dsimp only
  split <;> rfl

/-- Only a halt operator stops a machine in its production phase. -/
theorem halted_produce {m : Machine} (h : m.halted = none) :
    m.produce.halted = none ∨ ∃ dump, m.produce.halted = some (.operator dump) := by
  unfold produce
  rw [if_neg (by simp [h])]
  dsimp only
  split
  · exact .inr ⟨_, halted_obey _ _⟩
  · exact .inl h

/-- Only a lack of values stops a machine in its settlement phase. -/
theorem halted_settle {m : Machine} (h : m.halted = none) :
    m.settle.halted = none ∨ m.settle.halted = some .noData := by
  unfold settle
  rw [if_neg (by simp [h])]
  dsimp only
  split
  · exact .inr rfl
  · exact .inl h

/-- A tick is stopped by a halt operator after its production phase, or it runs both phases. -/
theorem step_cases {m : Machine} (h : m.halted = none) :
    ((∃ dump, m.step.halted = some (.operator dump)) ∧
      m.step = m.produce.stamped (some m.produce.tick)) ∨
    ((m.step.halted = none ∨ m.step.halted = some .noData) ∧ m.produce.halted = none ∧
      m.step = m.produce.settle.stamped (some m.produce.settle.tick)) := by
  have hstep : m.step = m.produce.settle.stamped (some m.produce.settle.tick) :=
    if_neg (by simp [h])
  rcases halted_produce h with hrunning | ⟨dump, hstopped⟩
  · exact .inr ⟨hstep ▸ halted_settle hrunning, hrunning, hstep⟩
  · rw [settle_of_halted (by simp [hstopped])] at hstep
    exact .inl ⟨⟨dump, hstep ▸ hstopped⟩, hstep⟩

/-- A tick that a halt operator stops does not count. -/
theorem tick_step_of_operator {m : Machine} (h : m.halted = none) {dump : Bool}
    (hstop : m.step.halted = some (.operator dump)) : m.step.tick = m.tick := by
  rcases step_cases h with ⟨-, hstep⟩ | ⟨hother, -, -⟩
  · rw [hstep]
    exact tick_produce m
  · rcases hother with hother | hother <;> cases hstop.symm.trans hother

/-- Every other tick counts, also one that finds no value to settle. -/
theorem tick_step_of_settled {m : Machine} (h : m.halted = none)
    (hstop : m.step.halted = none ∨ m.step.halted = some .noData) : m.step.tick = m.tick + 1 := by
  rcases step_cases h with ⟨⟨dump, hother⟩, -⟩ | ⟨-, hrunning, hstep⟩
  · rcases hstop with hstop | hstop <;> cases hstop.symm.trans hother
  · rw [hstep]
    exact (tick_settle hrunning).trans (congrArg (· + 1) (tick_produce m))

/-- `Ran m phases m'`: the phases lead from `m` to `m'`, and each of them was asked of a machine
    that had not halted. Writing the values out and noting the time of a tick are no phases. -/
inductive Ran : Machine → List Phase → Machine → Prop where
  | rest (m : Machine) : Ran m [] m
  | production {m m' : Machine} {phases : List Phase} (h : m.halted = none) :
    Ran m.produce phases m' → Ran m (.production :: phases) m'
  | settlement {m m' : Machine} {phases : List Phase} (h : m.halted = none) :
    Ran m.settle phases m' → Ran m (.settlement :: phases) m'
  | dump {m m' : Machine} {phases : List Phase} : Ran m.dumpValues phases m' → Ran m phases m'
  | timed {m m' : Machine} {phases : List Phase} (lastTick : Option UInt64) :
    Ran (m.stamped lastTick) phases m' → Ran m phases m'

namespace Ran

theorem trans {a b c : Machine} {ps qs : List Phase} (h₁ : Ran a ps b) (h₂ : Ran b qs c) :
    Ran a (ps ++ qs) c := by
  induction h₁ with
  | rest => exact h₂
  | production h _ ih => exact .production h (ih h₂)
  | settlement h _ ih => exact .settlement h (ih h₂)
  | dump _ ih => exact .dump (ih h₂)
  | timed lastTick _ ih => exact .timed lastTick (ih h₂)

/-- The counter has advanced by the settlement phases. -/
theorem tick {m m' : Machine} {phases : List Phase} (h : Ran m phases m') :
    m'.tick = m.tick + UInt64.ofNat (phases.count .settlement) := by
  induction h with
  | rest => simp
  | @production m m' phases _ _ ih =>
    rw [ih, tick_produce, List.count_cons_of_ne (by decide)]
  | @settlement m m' phases hm _ ih =>
    rw [ih, tick_settle hm, List.count_cons_self, UInt64.ofNat_add, UInt64.add_assoc,
      UInt64.add_comm 1]
    rfl
  | dump _ ih => exact ih
  | timed _ _ ih => exact ih

/-- The number of settlement phases is exact as long as it does not take the counter past its
    end. -/
theorem toNat_tick {m m' : Machine} {phases : List Phase} (h : Ran m phases m')
    (hend : m.tick.toNat + phases.count .settlement < UInt64.size) :
    m'.tick.toNat = m.tick.toNat + phases.count .settlement := by
  rw [h.tick, UInt64.toNat_add, UInt64.toNat_ofNat']
  have hcount : phases.count Phase.settlement % UInt64.size = phases.count Phase.settlement :=
    Nat.mod_eq_of_lt (by omega)
  exact (congrArg (fun n => (m.tick.toNat + n) % UInt64.size) hcount).trans (Nat.mod_eq_of_lt hend)

end Ran

theorem exists_ran_step (m : Machine) : ∃ phases, Ran m phases m.step := by
  rcases hm : m.halted with _ | reason
  · rcases step_cases hm with ⟨-, hstep⟩ | ⟨-, hrunning, hstep⟩
    · rw [hstep]
      exact ⟨[.production], .production hm (.timed _ (.rest _))⟩
    · rw [hstep]
      exact ⟨[.production, .settlement], .production hm (.settlement hrunning (.timed _ (.rest _)))⟩
  · rw [step_of_halted (by simp [hm])]
    exact ⟨[], .rest m⟩

theorem exists_ran_runFor (n : Nat) (m : Machine) : ∃ phases, Ran m phases (m.runFor n) := by
  rw [runFor_eq_iterate]
  induction n generalizing m with
  | zero => exact ⟨[], .rest m⟩
  | succ n ih =>
    obtain ⟨ps, hps⟩ := exists_ran_step m
    obtain ⟨qs, hqs⟩ := ih m.step
    exact ⟨ps ++ qs, hps.trans hqs⟩

theorem exists_ran_call (c : Call) (m : Machine) : ∃ phases, Ran m phases (m.call c) := by
  cases c with
  | produce =>
    rcases hm : m.halted with _ | reason
    · exact ⟨[.production], .production hm (.rest _)⟩
    · refine ⟨[], ?_⟩
      rw [call, produce_of_halted (by simp [hm])]
      exact .rest m
  | settle =>
    rcases hm : m.halted with _ | reason
    · exact ⟨[.settlement], .settlement hm (.rest _)⟩
    · refine ⟨[], ?_⟩
      rw [call, settle_of_halted (by simp [hm])]
      exact .rest m
  | step => exact exists_ran_step m
  | runFor n => exact exists_ran_runFor n m
  | dumpValues => exact ⟨[], .dump (.rest _)⟩

/-- Whatever is called, a sequence of phases is run. -/
theorem exists_ran (calls : List Call) (m : Machine) :
    ∃ phases, Ran m phases (calls.foldl call m) := by
  induction calls generalizing m with
  | nil => exact ⟨[], .rest m⟩
  | cons c calls ih =>
    obtain ⟨ps, hps⟩ := exists_ran_call c m
    obtain ⟨qs, hqs⟩ := ih (m.call c)
    exact ⟨ps ++ qs, hps.trans hqs⟩

/-! ## Runs until the machine halts -/

section

variable {σ : Type}

/-- An observation and the tick after it. -/
def round (before : Machine × σ → Machine × σ) (s : Machine × σ) : Machine × σ :=
  ((before s).1.step, (before s).2)

/-- The rounds of a run: the machine has halted after `k` of them, and before each of them it had
    not. -/
structure Rounds (before : Machine × σ → Machine × σ) (k : Nat) (s t : Machine × σ) : Prop where
  result : (round before)^[k] s = t
  halted : t.1.halted.isSome = true
  running : ∀ i < k, ((round before)^[i] s).1.halted = none

theorem Rounds.next {before : Machine × σ → Machine × σ} {k : Nat} {s t : Machine × σ}
    (hs : s.1.halted = none) (h : Rounds before k (round before s) t) :
    Rounds before (k + 1) s t := by
  refine ⟨h.result, h.halted, fun i hi => ?_⟩
  cases i with
  | zero => exact hs
  | succ i => exact h.running i (by omega)

/-- A run until the machine halts has a result exactly if its rounds come to an end. -/
theorem runWith?_eq_some_iff (before : Machine × σ → Machine × σ) (m : Machine) (s : σ)
    (t : Machine × σ) : m.runWith? before s = some t ↔ ∃ k, Rounds before k (m, s) t := by
  constructor
  · revert m s t
    apply runWith?.partial_correctness
    intro run ih m s t hrun
    split at hrun
    · next hs =>
      cases hrun
      exact ⟨0, rfl, hs, fun i hi => by omega⟩
    · next hs =>
      obtain ⟨k, hk⟩ := ih _ _ t hrun
      exact ⟨k + 1, hk.next (by simpa using hs)⟩
  · rintro ⟨k, hk⟩
    induction k generalizing m s with
    | zero =>
      obtain ⟨rfl, hm, -⟩ := hk
      exact runWith?_of_halted hm before s
    | succ k ih =>
      have hm : m.halted = none := hk.running 0 (by omega)
      rw [runWith?, if_neg (by simp [hm])]
      exact ih _ _ ⟨hk.result, hk.halted, fun i hi => hk.running (i + 1) (by omega)⟩

/-- An observer that looks at the machine and leaves it alone. -/
def watching (see : Machine → σ → σ) (s : Machine × σ) : Machine × σ := (s.1, see s.1 s.2)

/-- It sees the machine as it is ahead of each tick, once and in order. -/
theorem iterate_round_watching (see : Machine → σ → σ) (k : Nat) (m : Machine) (s : σ) :
    (round (watching see))^[k] (m, s) =
      (m.runFor k, ((List.range k).map fun i => m.runFor i).foldl (fun s m => see m s) s) := by
  induction k with
  | zero => rfl
  | succ k ih =>
    rw [Function.iterate_succ_apply', ih, List.range_succ, List.map_append, List.foldl_append,
      ← runFor_add k 1, runFor_eq_iterate 1]
    rfl

/-- The machine halts in the last of `k` ticks, or has halted already if there are none. -/
structure HaltsIn (m : Machine) (k : Nat) : Prop where
  halted : (m.runFor k).halted.isSome = true
  running : ∀ i < k, (m.runFor i).halted = none

theorem rounds_watching_iff (see : Machine → σ → σ) (k : Nat) (m : Machine) (s : σ)
    (t : Machine × σ) :
    Rounds (watching see) k (m, s) t ↔ m.HaltsIn k ∧
      t = (m.runFor k, ((List.range k).map fun i => m.runFor i).foldl (fun s m => see m s) s) := by
  constructor
  · rintro ⟨rfl, hhalted, hrunning⟩
    rw [iterate_round_watching] at hhalted ⊢
    refine ⟨⟨hhalted, fun i hi => ?_⟩, rfl⟩
    have hi' := hrunning i hi
    rwa [iterate_round_watching] at hi'
  · rintro ⟨⟨hhalted, hrunning⟩, rfl⟩
    refine ⟨iterate_round_watching see k m s, hhalted, fun i hi => ?_⟩
    rw [iterate_round_watching]
    exact hrunning i hi

theorem runWith?_watching_iff (see : Machine → σ → σ) (m : Machine) (s : σ) (t : Machine × σ) :
    m.runWith? (watching see) s = some t ↔ ∃ k, m.HaltsIn k ∧
      t = (m.runFor k, ((List.range k).map fun i => m.runFor i).foldl (fun s m => see m s) s) := by
  rw [runWith?_eq_some_iff]
  exact exists_congr fun k => rounds_watching_iff see k m s t

end

/-- A machine that halts at all halts in a first tick, and stays as it is from there. -/
theorem exists_haltsIn {m : Machine} {k : Nat} (h : (m.runFor k).halted.isSome = true) :
    ∃ j, m.HaltsIn j ∧ m.runFor j = m.runFor k := by
  induction k with
  | zero => exact ⟨0, ⟨h, fun i hi => by omega⟩, rfl⟩
  | succ k ih =>
    rcases hk : (m.runFor k).halted.isSome with _ | _
    · refine ⟨k + 1, ⟨h, fun i hi => ?_⟩, rfl⟩
      by_contra hi'
      have hsome : (m.runFor i).halted.isSome = true := Option.isSome_iff_ne_none.mpr hi'
      rw [runFor_of_le hsome (by omega), hsome] at hk
      cases hk
    · obtain ⟨j, hj, hsame⟩ := ih hk
      exact ⟨j, hj, hsame.trans (runFor_of_le hk (by omega)).symm⟩

/-- A run until the machine halts has a result exactly if a run of some length halts, and the same
    one. -/
theorem run?_eq_some_iff (m t : Machine) :
    m.run? = some t ↔ ∃ k, (m.runFor k).halted.isSome = true ∧ m.runFor k = t := by
  have hid : (id : Machine × Unit → Machine × Unit) = watching fun _ s => s := rfl
  unfold run?
  rw [hid, Option.map_eq_some_iff]
  constructor
  · rintro ⟨s, hs, rfl⟩
    obtain ⟨k, hk, rfl⟩ := (runWith?_watching_iff _ m () s).mp hs
    exact ⟨k, hk.halted, rfl⟩
  · rintro ⟨k, hk, rfl⟩
    obtain ⟨j, hj, hsame⟩ := exists_haltsIn hk
    exact ⟨_, (runWith?_watching_iff _ m () _).mpr ⟨j, hj, rfl⟩, hsame⟩

/-- Runs compose. A halted machine is left as it is by every driver, and they answer its reason. The
    counter has advanced by the settlement phases that were run, whatever was called: a tick that a
    halt operator stops does not count, and one without values does. A run until the machine halts
    ends where a run of some length halts, if there is one. An observer is called once ahead of each
    tick, and one that only looks on sees the machine as runs of a given length leave it. -/
theorem drivers_agree (m : Machine) :
    (∀ n k, (m.runFor n).runFor k = m.runFor (n + k)) ∧
    (m.halted.isSome = true →
      m.produce = m ∧ m.settle = m ∧ m.step = m ∧ m.run? = some m ∧ ∀ n, m.runFor n = m) ∧
    (∀ calls : List Call,
      (∃ phases, Ran m phases (calls.foldl call m)) ∧
      ∀ phases, Ran m phases (calls.foldl call m) →
        m.tick.toNat + phases.count .settlement < UInt64.size →
        (calls.foldl call m).tick.toNat = m.tick.toNat + phases.count .settlement) ∧
    (m.halted = none →
      (∀ dump, m.step.halted = some (.operator dump) → m.step.tick = m.tick) ∧
      (m.step.halted = none ∨ m.step.halted = some .noData → m.step.tick = m.tick + 1)) ∧
    (∀ t, m.run? = some t ↔ ∃ k, (m.runFor k).halted.isSome = true ∧ m.runFor k = t) ∧
    ∀ (σ : Type) (s : σ) (t : Machine × σ),
      (∀ before, m.runWith? before s = some t ↔ ∃ k, Rounds before k (m, s) t) ∧
      ∀ see, m.runWith? (watching see) s = some t ↔ ∃ k, m.HaltsIn k ∧
        t = (m.runFor k,
          ((List.range k).map fun i => m.runFor i).foldl (fun s m => see m s) s) := by
  refine ⟨fun n k => runFor_add n k m, fun h => ?_, fun calls => ?_, fun h => ?_,
    run?_eq_some_iff m, fun σ s t => ?_⟩
  · exact ⟨produce_of_halted h, settle_of_halted h, step_of_halted h, run?_of_halted h,
      runFor_of_halted h⟩
  · exact ⟨exists_ran calls m, fun phases hran hend => hran.toNat_tick hend⟩
  · exact ⟨fun dump hstop => tick_step_of_operator h hstop, tick_step_of_settled h⟩
  · exact ⟨fun before => runWith?_eq_some_iff before m s t,
      fun see => runWith?_watching_iff see m s t⟩

/-- A number two cells above a halt operator: it falls in the first tick and stops the machine in
    the second. -/
def falling : Machine :=
  start
    ⟨3, 5,
      #[.border, .border, .border,
        .border, .data (.number 5), .border,
        .border, .empty, .border,
        .border, .operator (.ofCode .halt), .border,
        .border, .border, .border], rfl⟩
    {} 0 #[]

/-- The first tick counts and the second does not, the machine stays as the run of length two leaves
    it, and an observer is called twice. -/
theorem drivers_agree_falling :
    (falling.runFor 2).halted = some (.operator false) ∧ falling.settle.tick.toNat = 1 ∧
      falling.step.tick = 1 ∧ (falling.runFor 1).step.tick = (falling.runFor 1).tick ∧
      falling.run? = some (falling.runFor 2) ∧ (falling.runFor 2).runFor 3 = falling.runFor 2 ∧
      falling.runWith? (watching fun m seen => m.tick :: seen) [] =
        some (falling.runFor 2, [1, 0]) := by
  have hhalted : (falling.runFor 2).halted = some (.operator false) := by decide +kernel
  have hrunning : ∀ i < 2, (falling.runFor i).halted = none := by decide +kernel
  have hsome : (falling.runFor 2).halted.isSome = true := by rw [hhalted]; rfl
  obtain ⟨-, -, hcount, htick, hrun, hobserve⟩ := drivers_agree falling
  obtain ⟨-, -, -, hstop, -⟩ := drivers_agree (falling.runFor 1)
  obtain ⟨-, hstays, -⟩ := drivers_agree (falling.runFor 2)
  have hfirst : falling.step.tick = 1 :=
    (htick (hrunning 0 (by decide))).2 (.inl (by decide +kernel))
  refine ⟨hhalted, ?_, hfirst, ?_, ?_, (hstays hsome).2.2.2.2 3, ?_⟩
  · exact (hcount [.settle]).2 [.settlement] (.settlement rfl (.rest _)) (by decide)
  · exact (hstop (hrunning 1 (by decide))).1 false (by decide +kernel)
  · exact (hrun _).mpr ⟨2, hsome, rfl⟩
  · refine ((hobserve _ _ _).2 _).mpr ⟨2, ⟨hsome, hrunning⟩, ?_⟩
    have hsecond : (falling.runFor 1).tick = 1 := by rw [runFor_eq_iterate]; exact hfirst
    show _ = (falling.runFor 2, [(falling.runFor 1).tick, 0])
    rw [hsecond]

end Gridfall.Machine
