/-
  Numbers against the integers: what the functions that work on magnitudes compute.

  The magnitude of a number is its absolute value (`toNat_magnitude`), at most `2 ^ 63`, so every
  magnitude is an exact word.

  * Primes. `Trial n i b` is trial division of `n` by `i`, `i + 2`, … in exact arithmetic, to its
    end and without a limit. The loop on words answers the same (`trial_noDivisorFrom`): below
    `2 ^ 32` its squares are exact, and from there on they are above every magnitude, so that the
    loop never gets far beyond. The answer of a trial that starts at three is whether `n` is prime,
    since the least divisor of a number that is not prime is at most its square root
    (`Trial.prime_iff`).
  * Greatest common divisors. The loop on words finds the greatest common divisor of the magnitudes
    (`toNat_euclid`). It is a number unless it is `2 ^ 63`.
-/
import Gridfall.Number
import Mathlib.Data.Nat.Prime.Basic
import Mathlib.Tactic.Linarith
import Mathlib.Tactic.NormNum.Prime

namespace Gridfall.Number

/-! ## Magnitudes -/

/-- A number as a word, modulo the size of words. -/
theorem toNat_toUInt64 (n : Number) : (n.toUInt64.toNat : Int) = n.toInt % (2 ^ 64 : Nat) := by
  have hword : n.toUInt64.toNat = n.toBitVec.toNat := rfl
  have hlt : n.toBitVec.toNat < 2 ^ 64 := n.toBitVec.isLt
  rw [hword, ← Int64.toInt_toBitVec, BitVec.toInt_eq_toNat_bmod, Int.bmod_emod]
  omega

/-- A word as a number, modulo the size of words. -/
theorem toInt_toInt64 (w : UInt64) : w.toInt64.toInt = (w.toNat : Int).bmod (2 ^ 64) := by
  rw [← Int64.toInt_toBitVec, BitVec.toInt_eq_toNat_bmod]
  rfl

theorem toNat_magnitude (n : Number) : n.magnitude.toNat = n.toInt.natAbs := by
  have hmin := n.le_toInt
  have hmax := n.toInt_lt
  have hzero : (0 : Number).toInt = 0 := rfl
  unfold magnitude abs
  split
  · next hneg =>
    rw [Int64.lt_iff_toInt_lt, hzero] at hneg
    have hword := toNat_toUInt64 (-n)
    rw [Int64.toInt_neg, Int.bmod_emod] at hword
    omega
  · next hpos =>
    rw [Int64.lt_iff_toInt_lt, hzero] at hpos
    have hword := toNat_toUInt64 n
    omega

theorem toNat_magnitude_le (n : Number) : n.magnitude.toNat ≤ 2 ^ 63 := by
  have hmin := n.le_toInt
  have hmax := n.toInt_lt
  rw [toNat_magnitude]
  omega

/-! ## Primes -/

/-- Trial division of `n` by `i`, `i + 2`, … ends with the answer whether none of them divides
    `n`. -/
inductive Trial (n : Nat) : Nat → Bool → Prop
  | past {i} (h : n < i * i) : Trial n i true
  | divides {i} (h : i * i ≤ n) (hd : i ∣ n) : Trial n i false
  | next {i b} (h : i * i ≤ n) (hd : ¬ i ∣ n) (rest : Trial n (i + 2) b) : Trial n i b

theorem Trial.unique {n i : Nat} {a b : Bool} (ha : Trial n i a) (hb : Trial n i b) : a = b := by
  induction ha with
  | past h =>
    cases hb with
    | past => rfl
    | divides h' | next h' => omega
  | divides h hd =>
    cases hb with
    | past h' => omega
    | divides => rfl
    | next _ hd' => contradiction
  | next h hd _ ih =>
    cases hb with
    | past h' => omega
    | divides _ hd' => contradiction
    | next _ _ rest => exact ih rest

/-- The answer is whether `n` is prime, if two and all numbers below `i` are known not to divide
    it. -/
theorem Trial.prime_iff {n i : Nat} {b : Bool} (h : Trial n i b) (hn : 1 < n) (hodd : ¬ 2 ∣ n)
    (hi : 1 < i ∧ i % 2 = 1) (hbelow : ∀ d, 2 ≤ d → d < i → ¬ d ∣ n) : b = true ↔ n.Prime := by
  induction h with
  | past h =>
    refine iff_of_true rfl ?_
    by_contra hprime
    have hsquare := Nat.minFac_sq_le_self (by omega) hprime
    have htwo := (Nat.minFac_prime (by omega : n ≠ 1)).two_le
    have hleast := mt (hbelow n.minFac htwo) (not_not.mpr n.minFac_dvd)
    nlinarith
  | @divides i h hd =>
    refine iff_of_false Bool.false_ne_true fun hprime => ?_
    rcases (Nat.dvd_prime hprime).mp hd with hone | hall
    · omega
    · nlinarith
  | @next i b h hd _ ih =>
    apply ih (by omega)
    intro d hd2 hdlt hdn
    rcases Nat.lt_or_ge d i with hlt | hge
    · exact hbelow d hd2 hlt hdn
    · -- Of the two numbers that are new, the second one is even.
      rcases Nat.eq_or_lt_of_le hge with heq | hgt
      · exact hd (heq ▸ hdn)
      · exact hodd ((by omega : 2 ∣ d).trans hdn)

/-- The square of a word compares with a magnitude as it should, whether it fits or not. -/
theorem cappedSquare_le_iff {m : UInt64} (hm : m.toNat ≤ 2 ^ 63) (i : UInt64) :
    cappedSquare i ≤ m ↔ i.toNat * i.toNat ≤ m.toNat := by
  rw [UInt64.le_iff_toNat_le]
  unfold cappedSquare
  split
  · next hsmall =>
    have hlt : i.toNat < 2 ^ 32 := UInt64.lt_iff_toNat_lt.mp hsmall
    have hsquare : i.toNat * i.toNat < 2 ^ 64 := by nlinarith
    rw [UInt64.toNat_mul, Nat.mod_eq_of_lt hsquare]
  · next hlarge =>
    have hge : 2 ^ 32 ≤ i.toNat := by
      rw [UInt64.lt_iff_toNat_lt] at hlarge
      exact Nat.le_of_not_lt hlarge
    have hsquare : 2 ^ 64 ≤ i.toNat * i.toNat := by nlinarith
    have hcap : (0xFFFFFFFFFFFFFFFF : UInt64).toNat = 2 ^ 64 - 1 := rfl
    omega

/-- A divisor that is tried has a successor among the words. -/
theorem toNat_add_two {m i : UInt64} (hm : m.toNat ≤ 2 ^ 63) (h : i.toNat * i.toNat ≤ m.toNat) :
    (i + 2).toNat = i.toNat + 2 := by
  have hlt : i.toNat < 2 ^ 32 := by nlinarith
  have htwo : (2 : UInt64).toNat = 2 := rfl
  rw [UInt64.toNat_add, htwo]
  omega

/-- The loop on words goes through the exact trial, if it may go on up to `2 ^ 32`. -/
theorem trial_noDivisorFrom {m : UInt64} (hm : m.toNat ≤ 2 ^ 63) (fuel : Nat) (i : UInt64)
    (hfuel : 2 ^ 32 ≤ i.toNat + 2 * fuel) : Trial m.toNat i.toNat (noDivisorFrom fuel m i) := by
  induction fuel generalizing i with
  | zero =>
    apply Trial.past
    nlinarith
  | succ fuel ih =>
    unfold noDivisorFrom
    have hrest : (m % i == 0) = true ↔ i.toNat ∣ m.toNat := by
      rw [beq_iff_eq, ← UInt64.toNat_inj, UInt64.toNat_mod]
      exact (Nat.dvd_iff_mod_eq_zero).symm
    simp only [cappedSquare_le_iff hm]
    split
    · next hle =>
      split
      · next hd => exact .divides hle (hrest.mp hd)
      · next hd =>
        have hnext := toNat_add_two hm hle
        refine .next hle (mt hrest.mpr hd) ?_
        rw [← hnext]
        apply ih
        omega
    · next hgt => exact .past (by omega)

/-- The exact trial ends as the loop on words does, however many more turns that is granted. -/
theorem trial_iff (n : Number) (k : Nat) (b : Bool) :
    Trial n.toInt.natAbs 3 b ↔ b = noDivisorFrom (0x80000000 + k) n.magnitude 3 := by
  have hthree : (3 : UInt64).toNat = 3 := rfl
  have htrial := trial_noDivisorFrom n.toNat_magnitude_le (0x80000000 + k) 3 (by omega)
  rw [toNat_magnitude, hthree] at htrial
  constructor
  · intro h
    exact h.unique htrial
  · intro h
    rw [h]
    exact htrial

theorem isPrime_iff (n : Number) : isPrime n = true ↔ n.toInt.natAbs.Prime := by
  have hzero : (0 : UInt64).toNat = 0 := rfl
  have htwo : (2 : UInt64).toNat = 2 := rfl
  simp only [isPrime, UInt64.lt_iff_toNat_lt, beq_iff_eq, ← UInt64.toNat_inj, UInt64.toNat_mod,
    toNat_magnitude, hzero, htwo]
  split_ifs with hsmall heq heven
  · refine iff_of_false id fun hprime => ?_
    have hle := hprime.two_le
    omega
  · exact iff_of_true rfl (heq ▸ Nat.prime_two)
  · refine iff_of_false id fun hprime => ?_
    rcases hprime.eq_two_or_odd with htwo | hodd <;> omega
  · have htrial := (trial_iff n 0 _).mpr rfl
    apply htrial.prime_iff (by omega) (by omega) (by omega)
    intro d hd hlt
    obtain rfl : d = 2 := by omega
    omega

/-- Primes are told exactly, for every number. The square of a word is never on the wrong side of
    the magnitude, a divisor that was tried is followed by the next odd one, and trial division ends
    with the answer of the loop, however many turns the loop may make beyond the `2 ^ 31` it is
    given. -/
theorem trial_division_exact (n : Number) :
    (isPrime n = true ↔ n.toInt.natAbs.Prime) ∧
    (∀ i : UInt64, cappedSquare i ≤ n.magnitude ↔ i.toNat * i.toNat ≤ n.toInt.natAbs) ∧
    (∀ i : UInt64, cappedSquare i ≤ n.magnitude → (i + 2).toNat = i.toNat + 2) ∧
    ∀ k b, Trial n.toInt.natAbs 3 b ↔ b = noDivisorFrom (0x80000000 + k) n.magnitude 3 := by
  have hsquare := cappedSquare_le_iff n.toNat_magnitude_le
  refine ⟨isPrime_iff n, fun i => ?_, fun i hi => ?_, trial_iff n⟩
  · rw [hsquare, toNat_magnitude]
  · exact toNat_add_two n.toNat_magnitude_le ((hsquare i).mp hi)

/-- The greatest divisor that could be tried for the least number, and the word after it, which is
    past the square root. -/
theorem trial_division_exact_root :
    isPrime (-97) = true ∧ isPrime least = false ∧
    cappedSquare 3037000499 ≤ magnitude least ∧ (3037000499 + 2 : UInt64).toNat = 3037000499 + 2 ∧
    ¬ cappedSquare 3037000500 ≤ magnitude least := by
  obtain ⟨hprime, -⟩ := trial_division_exact (-97)
  obtain ⟨hleast, hsquare, hnext, -⟩ := trial_division_exact least
  have hroot : cappedSquare 3037000499 ≤ magnitude least := (hsquare _).mpr (by decide)
  refine ⟨hprime.mpr ?_, ?_, hroot, hnext _ hroot, mt (hsquare _).mp (by decide)⟩
  · show Nat.Prime 97
    norm_num
  · rw [← Bool.not_eq_true, hleast]
    show ¬ Nat.Prime (2 ^ 63)
    exact Nat.Prime.not_prime_pow (by decide)

/-! ## Greatest common divisors -/

theorem toNat_euclid (a b : UInt64) : (euclid a b).toNat = Nat.gcd a.toNat b.toNat := by
  fun_induction euclid a b with
  | case1 a => exact (Nat.gcd_zero_right a.toNat).symm
  | case2 a b _ _ ih => rw [ih, UInt64.toNat_mod, Nat.gcd_comm, ← Nat.gcd_rec, Nat.gcd_comm]

/-- The greatest common divisor of the absolute values. -/
def divisor (a b : Number) : Nat := Nat.gcd a.toInt.natAbs b.toInt.natAbs

theorem divisor_dvd (a b : Number) :
    divisor a b ∣ a.toInt.natAbs ∧ divisor a b ∣ b.toInt.natAbs :=
  ⟨Nat.gcd_dvd_left _ _, Nat.gcd_dvd_right _ _⟩

theorem divisor_le (a b : Number) : divisor a b ≤ 2 ^ 63 := by
  have ha := a.toNat_magnitude_le
  have hb := b.toNat_magnitude_le
  rw [toNat_magnitude] at ha hb
  unfold divisor
  rcases Nat.eq_zero_or_pos a.toInt.natAbs with hzero | hpos
  · rw [hzero, Nat.gcd_zero_left]
    exact hb
  · exact (Nat.gcd_le_left _ hpos).trans ha

/-- Only zero and the least number are multiples of `2 ^ 63`. -/
theorem eq_of_dvd {a : Number} (h : 2 ^ 63 ∣ a.toInt.natAbs) : a = 0 ∨ a = least := by
  have hmin := a.le_toInt
  have hmax := a.toInt_lt
  have hzero : (0 : Number).toInt = 0 := rfl
  have hleast : least.toInt = -2 ^ 63 := rfl
  rw [← Int64.toInt_inj, ← Int64.toInt_inj, hzero, hleast]
  omega

/-- The greatest common divisor is too large for a number in three cases. -/
theorem divisor_eq_iff (a b : Number) :
    divisor a b = 2 ^ 63 ↔ (a, b) ∈ [(least, 0), (0, least), (least, least)] := by
  constructor
  · intro h
    obtain ⟨ha, hb⟩ := divisor_dvd a b
    rw [h] at ha hb
    rcases eq_of_dvd ha with rfl | rfl <;> rcases eq_of_dvd hb with rfl | rfl
    · cases h
    all_goals simp
  · intro h
    simp only [List.mem_cons, Prod.mk.injEq, List.not_mem_nil, or_false] at h
    rcases h with ⟨rfl, rfl⟩ | ⟨rfl, rfl⟩ | ⟨rfl, rfl⟩ <;> decide

theorem toInt_gcd (a b : Number) :
    (gcd a b).toInt = if divisor a b = 2 ^ 63 then -2 ^ 63 else (divisor a b : Int) := by
  have hle := divisor_le a b
  have hword : (euclid (magnitude a) (magnitude b)).toNat = divisor a b := by
    rw [toNat_euclid, toNat_magnitude, toNat_magnitude]
    rfl
  rw [gcd, toInt_toInt64, hword, Int.bmod_def]
  split <;> split <;> omega

theorem toInt_gcd_dvd (a b : Number) :
    (gcd a b).toInt ∣ a.toInt ∧ (gcd a b).toInt ∣ b.toInt := by
  have habs : (gcd a b).toInt.natAbs = divisor a b := by
    rw [toInt_gcd]
    split <;> omega
  rw [← Int.natAbs_dvd_natAbs, ← Int.natAbs_dvd_natAbs, habs]
  exact divisor_dvd a b

/-- The greatest common divisor is that of the absolute values, except where it is `2 ^ 63`: there,
    in three cases, the result is the least number. It does not depend on the order of the
    arguments, divides both, and is negative in those three cases only. -/
theorem gcd_exact (a b : Number) :
    ((gcd a b).toInt =
      if divisor a b = 2 ^ 63 then least.toInt else (divisor a b : Int)) ∧
    (divisor a b = 2 ^ 63 ↔ (a, b) ∈ [(least, 0), (0, least), (least, least)]) ∧
    gcd b a = gcd a b ∧
    ((gcd a b).toInt ∣ a.toInt ∧ (gcd a b).toInt ∣ b.toInt) ∧
    (gcd a b < 0 ↔ (a, b) ∈ [(least, 0), (0, least), (least, least)]) := by
  refine ⟨toInt_gcd a b, divisor_eq_iff a b, ?_, toInt_gcd_dvd a b, ?_⟩
  · have hcomm : divisor b a = divisor a b := Nat.gcd_comm _ _
    rw [← Int64.toInt_inj, toInt_gcd, toInt_gcd, hcomm]
  · have hzero : (0 : Number).toInt = 0 := rfl
    rw [← divisor_eq_iff, Int64.lt_iff_toInt_lt, toInt_gcd, hzero]
    split <;> omega

end Gridfall.Number
