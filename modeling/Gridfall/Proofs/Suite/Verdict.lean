/-
  The verdict on a case. `Case.probe` is a loop of its own over the two phases of a tick, and looks
  at the place of the case between them. It always returns, and its verdict is that of the drivers
  of a machine: the run up to the tick of the case does not halt, and one production phase later the
  place holds what is expected.

  * `Returns`: the loop without the measure by which it ends; it returns in one of its passes
    (`exists_returns`).
  * `probe_iff`: the verdict, by induction on the ticks still to run. The loop does not note the
    time of a tick as whole ticks do, and no phase looks at it (`produce_stamped`,
    `settle_stamped`).
-/
import Gridfall.Proofs.Drivers
import Gridfall.Suite.Run

namespace Gridfall

namespace Machine

/-! ## The time of the latest tick -/

theorem obey_stamped (m : Machine) (lastTick : Option UInt64) (request : HaltRequest) :
    (m.stamped lastTick).obey request = (m.obey request).stamped lastTick := by
  unfold obey
  dsimp only
  split <;> rfl

theorem produce_stamped (m : Machine) (lastTick : Option UInt64) :
    (m.stamped lastTick).produce = m.produce.stamped lastTick := by
  have hhalted : (m.stamped lastTick).halted = m.halted := rfl
  have hphase : Gridfall.produce (m.stamped lastTick).grid (m.stamped lastTick).context =
      Gridfall.produce m.grid m.context := rfl
  unfold produce
  rw [hhalted, hphase]
  rcases Gridfall.produce m.grid m.context with ⟨grid, ⟨fired, failed, writes, consumed, halt⟩, ctx⟩
  split
  · rfl
  · cases halt with
    | none => rfl
    | some request =>
      let report : ProductionReport := ⟨fired, failed, writes, consumed, some request⟩
      exact obey_stamped (({ m with grid, report }.adopt ctx).note
        (.produced m.tick fired failed writes consumed)) lastTick request

theorem settle_stamped (m : Machine) (lastTick : Option UInt64) :
    (m.stamped lastTick).settle = m.settle.stamped lastTick := by
  have hhalted : (m.stamped lastTick).halted = m.halted := rfl
  have hgrid : (m.stamped lastTick).grid = m.grid := rfl
  unfold settle
  rw [hhalted, hgrid]
  rcases Gridfall.settle m.grid with ⟨grid, outcome⟩
  split
  · rfl
  · cases outcome <;> rfl

theorem step_stamped {m : Machine} (h : m.halted = none) (lastTick : Option UInt64) :
    (m.stamped lastTick).step = m.step := by
  have hhalted : (m.stamped lastTick).halted = m.halted := rfl
  unfold step
  rw [produce_stamped, settle_stamped, hhalted, if_neg (by simp [h]), if_neg (by simp [h])]
  rfl

end Machine

namespace Suite

/-- The value that is expected, if one is. -/
def Expected.value? : Expected → Option Value
  | empty => none
  | number n => some (.number n)
  | text s => some (.text s)
  | input => some .input
  | output => some .output

theorem Expected.isMet_iff (e : Expected) (c : Cell) :
    e.isMet c = true ↔ c.datum?.map Datum.value = e.value? := by
  unfold isMet
  rcases c.datum?.map Datum.value with _ | v
  · cases e <;> simp [value?]
  · cases e <;> cases v <;> simp [value?]
    · exact eq_comm
    · exact eq_comm

namespace Case

theorem holds_iff (c : Case) (g : Grid) :
    c.holds g = true ↔
      ∃ cell, g.get? c.place = some cell ∧ cell.datum?.map Datum.value = c.expected.value? := by
  unfold holds
  simp only [Option.any_eq_true, Expected.isMet_iff]

/-- `c.Returns k m r`: started on `m`, the loop goes round `k` times and returns `r` in the pass
    after. -/
inductive Returns (c : Case) : Nat → Machine → Bool × Machine → Prop where
  /-- The tick of the case has come. -/
  | due {m : Machine} (h : m.produce.tick = c.tick) :
    Returns c 0 m (c.holds m.produce.grid, m.produce)
  /-- A halt operator stops the machine before. -/
  | stopped {m : Machine} (h : m.produce.tick ≠ c.tick) (hstop : m.produce.halted.isSome = true) :
    Returns c 0 m (false, m.produce)
  /-- The machine runs out of values before. -/
  | starved {m : Machine} (h : m.produce.tick ≠ c.tick) (hlive : m.produce.halted = none)
    (hstop : m.produce.settle.halted.isSome = true) : Returns c 0 m (false, m.produce.settle)
  /-- The next tick begins. -/
  | again {m : Machine} {k : Nat} {r : Bool × Machine} (h : m.produce.tick ≠ c.tick)
    (hlive : m.produce.halted = none) (hnext : m.produce.settle.halted = none) :
    Returns c k m.produce.settle r → Returns c (k + 1) m r

/-- The loop returns, after no more rounds than there are ticks to run. -/
theorem exists_returns (c : Case) (m : Machine) :
    ∃ k ≤ (c.tick - m.tick).toNat, c.Returns k m (c.probe m) := by
  fun_induction Case.probe c m with
  | case1 m hdue => exact ⟨0, Nat.zero_le _, .due hdue⟩
  | case2 m hdue hstop => exact ⟨0, Nat.zero_le _, .stopped hdue hstop⟩
  | case3 m hdue hlive _ hstop =>
    exact ⟨0, Nat.zero_le _, .starved hdue (by simpa using hlive) hstop⟩
  | case4 m hdue hlive hcloser hnext ih =>
    obtain ⟨k, hk, hreturns⟩ := ih
    exact ⟨k + 1, by omega, .again hdue (by simpa using hlive) (by simpa using hnext) hreturns⟩

/-- A tick before that of the case must not halt the machine, and then the loop goes on. -/
theorem probe_tick (c : Case) {m : Machine} (hm : m.halted = none)
    (hdue : m.produce.tick ≠ c.tick) :
    (c.probe m).1 = true ↔ m.step.halted = none ∧ (c.probe m.produce.settle).1 = true := by
  rw [Case.probe, dif_neg hdue]
  rcases Machine.step_cases hm with ⟨⟨dump, hstop⟩, hstep⟩ | ⟨-, hlive, hstep⟩
  · rw [hstep] at hstop ⊢
    have hproduced : m.produce.halted = some (.operator dump) := hstop
    simp [hproduced, hstop]
  · rw [dif_neg (by simp [hlive]), hstep]
    show _ ↔ m.produce.settle.halted = none ∧ _
    cases m.produce.settle.halted <;> simp

/-- The verdict is that of the run up to the tick of the case and one more production phase. -/
theorem probe_iff (c : Case) (n : Nat) {m : Machine} (hn : (c.tick - m.tick).toNat = n)
    (hm : m.halted = none) (lastTick : Option UInt64) :
    (c.probe m).1 = true ↔ ((m.stamped lastTick).runFor n).halted = none ∧
      c.holds ((m.stamped lastTick).runFor n).produce.grid = true := by
  induction n generalizing m lastTick with
  | zero =>
    have hdue : m.produce.tick = c.tick := by
      have hzero : c.tick - m.tick = 0 := UInt64.toNat_inj.mp hn
      rw [Machine.tick_produce]
      simpa using (congrArg (· + m.tick) hzero).symm
    rw [Case.probe, dif_pos hdue, Machine.runFor, Machine.produce_stamped]
    exact ⟨fun h => ⟨hm, h⟩, fun h => h.2⟩
  | succ n ih =>
    have hdue : m.produce.tick ≠ c.tick := by
      intro h
      rw [Machine.tick_produce] at h
      simp [h] at hn
    have hrun : (m.stamped lastTick).runFor (n + 1) = m.step.runFor n := by
      rw [Nat.add_comm, ← Machine.runFor_add, Machine.runFor_eq_iterate 1]
      exact congrArg (Machine.runFor n) (Machine.step_stamped hm lastTick)
    rw [c.probe_tick hm hdue, hrun]
    rcases Machine.step_cases hm with ⟨⟨dump, hstop⟩, -⟩ | ⟨-, hlive, hstep⟩
    · rw [Machine.runFor_of_halted (by rw [hstop]; rfl), hstop]
      simp
    · have hcloser := distance_eq hdue (by simp [hlive])
      rcases hnext : m.step.halted with _ | reason
      · rw [hstep] at hnext ⊢
        have hlater := ih (m := m.produce.settle) (by omega) hnext (some m.produce.settle.tick)
        exact (and_iff_right rfl).trans hlater
      · rw [Machine.runFor_of_halted (by rw [hnext]; rfl), hnext]
        simp

/-- A case fails to load exactly if its program does, and with the same error. Otherwise its loop
    returns, and the case passes exactly if the run up to its tick does not halt and, after one more
    production phase, its place is on the grid and holds what is expected. -/
theorem verdict_of_drivers (c : Case) (console : Console) (seed : UInt64) (log : Array Event) :
    (∀ e, c.run console seed log = .error e ↔ Source.load c.program = .error e) ∧
    ∀ g, Source.load c.program = .ok g →
      let m := Machine.start g console seed (log.push (.loaded g.width g.height))
      ∃ passed m', c.run console seed log = .ok (passed, m') ∧
        (∃ k ≤ c.tick.toNat, c.Returns k m (passed, m')) ∧
        (passed = true ↔ (m.runFor c.tick.toNat).halted = none ∧
          ∃ cell, (m.runFor c.tick.toNat).produce.grid.get? c.place = some cell ∧
            cell.datum?.map Datum.value = c.expected.value?) := by
  constructor
  · intro e
    unfold Case.run Source.loadNoted
    cases Source.load c.program <;> simp [Except.map]
  · intro g hg m
    have hdistance : (c.tick - m.tick).toNat = c.tick.toNat :=
      congrArg UInt64.toNat (UInt64.sub_zero c.tick)
    refine ⟨(c.probe m).1, (c.probe m).2, ?_, ?_, ?_⟩
    · unfold Case.run Source.loadNoted
      rw [hg]
      rfl
    · obtain ⟨k, hk, hreturns⟩ := c.exists_returns m
      exact ⟨k, hdistance ▸ hk, hreturns⟩
    · rw [← holds_iff]
      exact c.probe_iff c.tick.toNat hdistance rfl none

/-- A number over a halt operator that keeps it. -/
def alarm : Grid :=
  ⟨3, 4,
    #[.border, .border, .border,
      .border, .ofValue (.number 5), .border,
      .border, .operator (.ofCode .haltDump), .border,
      .border, .border, .border], rfl⟩

/-- The number is expected where it stands, right after the production phase of a tick. -/
def ringing (tick : UInt64) : Case := ⟨"rings", tick, ⟨1, 1⟩, .number 5, "5\nh\n"⟩

/-- The machine halts in its first production phase. A case that looks right after it passes, and
    one that looks a tick later fails. -/
theorem verdict_of_drivers_ringing :
    Source.load "5\nh\n" = .ok alarm ∧
      (∃ m, (ringing 0).run {} 0 #[] = .ok (true, m)) ∧
      ∃ m, (ringing 1).run {} 0 #[] = .ok (false, m) := by
  have hload : Source.load "5\nh\n" = .ok alarm := by decide +kernel
  refine ⟨hload, ?_, ?_⟩
  · obtain ⟨passed, m, hrun, -, hiff⟩ := (verdict_of_drivers (ringing 0) {} 0 #[]).2 alarm hload
    rw [hiff.mpr ⟨by decide +kernel, .ofValue (.number 5), by decide +kernel, rfl⟩] at hrun
    exact ⟨m, hrun⟩
  · obtain ⟨passed, m, hrun, -, hiff⟩ := (verdict_of_drivers (ringing 1) {} 0 #[]).2 alarm hload
    have hfailed : passed = false := by
      rw [← Bool.not_eq_true, hiff, not_and_or]
      exact .inl (by decide +kernel)
    rw [hfailed] at hrun
    exact ⟨m, hrun⟩

end Case

end Suite

end Gridfall
