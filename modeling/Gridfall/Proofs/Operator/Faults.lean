/-
  Which computations fail, and why. Four codes have entries in their tables that can fail
  (`CanFail`): quotients and remainders of numbers, repetitions, and numbers read from texts. On any
  neighbours the other entries give a result (`runJoint_ok`, `runPair_ok`).

  A quotient and a remainder of the same numbers fail together, and are otherwise the two parts of
  an exact division (`divided`). A text that is read fails unless it is a decimal of a number
  (`runPair_convert`). Repetitions have a module of their own.
-/
import Gridfall.Operator.Execution
import Gridfall.Proofs.Text

namespace Gridfall

namespace Operator

open Text.Decimal (Spells)

/-! ## Division -/

/-- What becomes of the quotient and of the remainder of `a` by `b`. The cases exclude
    each other. -/
inductive Divided (a b : Number) : Except Fault Number → Except Fault Number → Prop
  | byZero (hb : b = 0) : Divided a b (.error .divisionByZero) (.error .divisionByZero)
  | tooLarge (ha : a = Number.least) (hb : b = -1) :
      Divided a b (.error .overflow) (.error .overflow)
  | exact {q r : Number} (hb : b ≠ 0) (hfits : ¬ (a = Number.least ∧ b = -1))
      (hsum : a.toInt = q.toInt * b.toInt + r.toInt)
      (hless : r.toInt.natAbs < b.toInt.natAbs)
      (hsign : r = 0 ∨ r.toInt.sign = a.toInt.sign) : Divided a b (.ok q) (.ok r)

theorem toInt_eq_zero_iff {n : Number} : n.toInt = 0 ↔ n = 0 := Int64.toInt_inj (y := 0)

/-- The quotient is rounded toward zero, as an integer. -/
theorem toInt_div {a b : Number} (hfits : ¬ (a = Number.least ∧ b = -1)) :
    (a / b).toInt = a.toInt.tdiv b.toInt := by
  by_cases ha : a = Number.least
  · exact Int64.toInt_div_of_ne_right a b fun hb => hfits ⟨ha, hb⟩
  · exact Int64.toInt_div_of_ne_left a b ha

/-- The result of a division, where it has one. -/
def checked (a b n : Number) : Except Fault Number :=
  if b = 0 then .error .divisionByZero
  else if a = Number.least ∧ b = -1 then .error .overflow
  else .ok n

theorem quotient_eq (a b : Number) : quotient a b = checked a b (a / b) := by
  by_cases hzero : b = 0
  · simp [quotient, checked, hzero]
  · by_cases hlarge : a = Number.least ∧ b = -1 <;>
      simp [quotient, checked, Number.quotient?, Number.indivisible, hzero, hlarge]

theorem remainder_eq (a b : Number) : remainder a b = checked a b (a % b) := by
  by_cases hzero : b = 0
  · simp [remainder, checked, hzero]
  · by_cases hlarge : a = Number.least ∧ b = -1 <;>
      simp [remainder, checked, Number.remainder?, Number.indivisible, hzero, hlarge]

/-- A quotient and a remainder fail together, and are otherwise the parts of an exact division. -/
theorem divided (a b : Number) : Divided a b (quotient a b) (remainder a b) := by
  rw [quotient_eq, remainder_eq]
  unfold checked
  split
  · next hzero => exact .byZero hzero
  · next hzero =>
    split
    · next hlarge => exact .tooLarge hlarge.1 hlarge.2
    · next hfits =>
      have hb : b.toInt ≠ 0 := mt toInt_eq_zero_iff.mp hzero
      refine .exact hzero hfits ?_ ?_ ?_
      · rw [toInt_div hfits, Int64.toInt_mod, Int.mul_comm]
        exact (Int.mul_tdiv_add_tmod a.toInt b.toInt).symm
      · rw [Int64.toInt_mod, Int.natAbs_tmod]
        exact Nat.mod_lt _ (Int.natAbs_pos.mpr hb)
      · rw [← toInt_eq_zero_iff, Int64.toInt_mod]
        have hsign := Int.sign_tmod a.toInt b.toInt
        split at hsign
        · exact .inl (Int.sign_eq_zero_iff_zero.mp hsign)
        · exact .inr hsign

/-! ## Entries that can fail -/

/-- The entries of the tables whose computations can fail. -/
def CanFail : Code → Nat → Prop
  | .divide, index => index < 4
  | .remainder, index => index ≠ 1
  | .multiply, index => index % 2 = 1
  | .convert, index => index = 1
  | _, _ => False

theorem runJoint_ok {code : Code} {index : Nat} (h : ¬ CanFail code index)
    (near : Sides (Option Datum)) (ctx : Context) :
    ∃ e, (runJoint code index near ctx).1 = .ok e := by
  cases code with
  | writeText | writeNumber =>
    rcases index with _ | _ | index <;> exact ⟨_, rfl⟩
  | divide =>
    obtain ⟨index, rfl⟩ : ∃ i, index = i + 4 := ⟨index - 4, by simp [CanFail] at h; omega⟩
    cases index <;> exact ⟨_, rfl⟩
  | remainder =>
    obtain rfl : index = 1 := by simpa [CanFail] using h
    exact ⟨_, rfl⟩
  | multiply =>
    have heven : (index % 2 == 0) = true := by simpa [CanFail] using h
    simp only [runJoint, heven]
    exact ⟨_, rfl⟩
  | _ => exact ⟨_, rfl⟩

theorem runPair_ok {code : Code} {index : Nat} (h : ¬ CanFail code index)
    (first second : Option Datum) (ctx : Context) :
    ∃ e, (runPair code index first second ctx).1 = .ok e := by
  cases code with
  | random =>
    simp only [runPair]
    split <;> exact ⟨_, rfl⟩
  | convert =>
    rcases index with _ | _ | _ | _ | index
    · exact ⟨_, rfl⟩
    · exact absurd rfl h
    · exact ⟨_, rfl⟩
    · exact ⟨_, rfl⟩
    · exact ⟨_, rfl⟩
  | _ => exact ⟨_, rfl⟩

/-! ## Numbers and texts -/

/-- The operands of an entry of the arithmetic tables. -/
def operandsOf (index : Nat) (near : Sides (Option Datum)) : List Value :=
  operands index (valueOf near.up) (valueOf near.left) (valueOf near.right)

/-- A computed number goes below. -/
def numberBelow (r : Except Fault Number) : Except Fault Emission :=
  r.map fun n => .below (.number n)

/-- The first fault of two computations in a row is the fault of both. -/
theorem numberBelow_bind (r : Except Fault Number) (f : Number → Except Fault Number) :
    (do
      let n ← r
      let m ← f n
      return .below (.number m)) = numberBelow (r >>= f) := by
  cases r with
  | error => rfl
  | ok n =>
    show (f n >>= fun m => pure (.below (.number m))) = numberBelow (f n)
    cases f n <;> rfl

section

variable {near : Sides (Option Datum)} {a b : Number} (ctx : Context)

/-- Quotients and remainders of two numbers, in each of the three arrangements. -/
theorem runJoint_two {form : Nat} (hform : form = 1 ∨ form = 2 ∨ form = 3)
    (h : operandsOf (2 * form) near = [.number a, .number b]) :
    (runJoint .divide form near ctx).1 = numberBelow (quotient a b) ∧
      (runJoint .remainder (form + 1) near ctx).1 = numberBelow (remainder a b) := by
  rcases hform with rfl | rfl | rfl
  all_goals
    injection h with ha htail
    injection htail with hb
    simp only [runJoint, ha, hb]
    exact ⟨rfl, rfl⟩

theorem runJoint_three {c : Number}
    (h : operandsOf 0 near = [.number a, .number b, .number c]) :
    (runJoint .divide 0 near ctx).1 = numberBelow (quotient a b >>= fun q => quotient q c) ∧
      (runJoint .remainder 0 near ctx).1 =
        numberBelow (remainder a b >>= fun r => remainder r c) := by
  injection h with ha htail
  injection htail with hb htail
  injection htail with hc
  simp only [runJoint, ha, hb, hc]
  exact ⟨numberBelow_bind _ _, numberBelow_bind _ _⟩

end

/-- A text is read as the number that it spells, and refused if it spells none. -/
theorem runPair_convert {first : Option Datum} {s : String} (h : valueOf first = .text s)
    (second : Option Datum) (ctx : Context) :
    (∀ n : Number, (runPair .convert 1 first second ctx).1 = .ok ⟨none, some (.number n)⟩ ↔
        Spells s.toList n.toInt) ∧
      ((runPair .convert 1 first second ctx).1 = .error (.notANumber s) ↔
        ¬ ∃ n : Number, Spells s.toList n.toInt) := by
  simp only [runPair, h, ← Number.ofText?_eq_some_iff]
  cases Number.ofText? s with
  | none => simp
  | some m => simp [Datum.number, Datum.fresh]

/-- Failures are exact. Quotients and remainders of two numbers fail together, for the divisor zero
    and for the one quotient that is too large; with three numbers the first fault counts. A text is
    refused as a number if and only if it spells none. Apart from repetitions nothing else fails. -/
theorem faults_exact (near : Sides (Option Datum)) (ctx : Context) :
    (∀ a b : Number, Divided a b (quotient a b) (remainder a b)) ∧
    (∀ form, form = 1 ∨ form = 2 ∨ form = 3 → ∀ a b : Number,
      operandsOf (2 * form) near = [.number a, .number b] →
        (runJoint .divide form near ctx).1 = numberBelow (quotient a b) ∧
        (runJoint .remainder (form + 1) near ctx).1 = numberBelow (remainder a b)) ∧
    (∀ a b c : Number, operandsOf 0 near = [.number a, .number b, .number c] →
      (runJoint .divide 0 near ctx).1 = numberBelow (quotient a b >>= fun q => quotient q c) ∧
      (runJoint .remainder 0 near ctx).1 =
        numberBelow (remainder a b >>= fun r => remainder r c)) ∧
    (∀ (s : String) (first second : Option Datum), valueOf first = .text s →
      (∀ n : Number, (runPair .convert 1 first second ctx).1 = .ok ⟨none, some (.number n)⟩ ↔
        Spells s.toList n.toInt) ∧
      ((runPair .convert 1 first second ctx).1 = .error (.notANumber s) ↔
        ¬ ∃ n : Number, Spells s.toList n.toInt)) ∧
    (∀ code index, ¬ CanFail code index →
      (∃ e, (runJoint code index near ctx).1 = .ok e) ∧
      ∀ first second, ∃ e, (runPair code index first second ctx).1 = .ok e) := by
  refine ⟨divided, ?_, ?_, ?_, ?_⟩
  · intro form hform a b h
    exact runJoint_two ctx hform h
  · intro a b c h
    exact runJoint_three ctx h
  · intro s first second h
    exact runPair_convert h second ctx
  · intro code index h
    exact ⟨runJoint_ok h near ctx, fun first second => runPair_ok h first second ctx⟩

/-- The least number above, minus one to the left, and zero to the right. -/
def corner : Sides (Option Datum) :=
  ⟨some (.number Number.least), some (.number (-1)), some (.number 0), none⟩

/-- The quotient of the first two numbers is too large, so the zero is not looked at. -/
theorem faults_exact_corner :
    operandsOf 2 corner = [.number Number.least, .number (-1)] ∧
    (runJoint .divide 1 corner ⟨{}, ⟨0⟩, 0, none, #[]⟩).1 = .error .overflow ∧
    (runJoint .remainder 2 corner ⟨{}, ⟨0⟩, 0, none, #[]⟩).1 = .error .overflow ∧
    (runJoint .divide 0 corner ⟨{}, ⟨0⟩, 0, none, #[]⟩).1 = .error .overflow ∧
    (runPair .convert 1 (some (.text "+7")) none ⟨{}, ⟨0⟩, 0, none, #[]⟩).1 =
      .ok ⟨none, some (.number 7)⟩ ∧
    ∃ e, (runJoint .divide 5 corner ⟨{}, ⟨0⟩, 0, none, #[]⟩).1 = .ok e := by
  obtain ⟨-, htwo, hthree, hconvert, hother⟩ := faults_exact corner ⟨{}, ⟨0⟩, 0, none, #[]⟩
  obtain ⟨hquotient, hremainder⟩ := htwo 1 (.inl rfl) Number.least (-1) rfl
  obtain ⟨hchain, -⟩ := hthree Number.least (-1) 0 rfl
  obtain ⟨hread, -⟩ := hconvert "+7" (some (.text "+7")) none rfl
  have hspelt : Spells "+7".toList (7 : Number).toInt :=
    @Spells.plus ['7'] (by simp) (by simp [Text.Decimal.isDigit])
  refine ⟨rfl, ?_, ?_, ?_, (hread 7).mpr hspelt, ?_⟩
  · rw [hquotient]
    decide
  · rw [hremainder]
    decide
  · rw [hchain]
    decide
  · exact (hother .divide 5 (by simp [CanFail])).1

end Operator

end Gridfall
