/-
  Digits in reverse. `mirrored m` is the natural number whose decimal digits are those of `m` the
  other way round; zeros that come to stand in front are no digits of it (`digits_mirrored`). So it
  is undone by itself on a number that does not end in zero (`mirrored_mirrored`).

  The loop on words takes the last digit off a magnitude and appends it to what it has. Every one of
  its steps wraps, and what it ends with is the exact result modulo the size of words
  (`toNat_appendReversed`). The signed cast and the negation after it only choose another
  representative, so that one reduction of the signed exact result is left (`toInt_reverseDigits`).
-/
import Gridfall.Proofs.Number
import Mathlib.Data.List.TakeWhile
import Mathlib.Data.Nat.Digits.Lemmas
import Mathlib.Tactic.Ring

namespace Gridfall.Number

/-! ## Exact digits -/

/-- The number with the decimal digits of `m` in reverse order. -/
def mirrored (m : Nat) : Nat := Nat.ofDigits 10 (Nat.digits 10 m).reverse

/-- A number given by its digits, the first one in front, has them without the zeros in front. -/
theorem digits_ofDigits_reverse {ds : List Nat} (h : ∀ d ∈ ds, d < 10) :
    (Nat.digits 10 (Nat.ofDigits 10 ds.reverse)).reverse = ds.dropWhile (· == 0) := by
  induction ds with
  | nil => rfl
  | cons d ds ih =>
    obtain ⟨-, hds⟩ := List.forall_mem_cons.mp h
    by_cases hd : d = 0
    · rw [hd, List.reverse_cons, Nat.ofDigits_append_zero, ih hds]
      rfl
    · have hsmall : ∀ e ∈ (d :: ds).reverse, e < 10 := fun e he => h e (List.mem_reverse.mp he)
      have hlast : ∀ hne : (d :: ds).reverse ≠ [], (d :: ds).reverse.getLast hne ≠ 0 := by
        intro hne
        rw [List.getLast_reverse]
        exact hd
      rw [Nat.digits_ofDigits 10 (by decide) _ hsmall hlast, List.reverse_reverse,
        List.dropWhile_cons_of_neg (by simpa using hd)]

/-- Written out, the digits are those of `m` from the last to the first, without the zeros that
    would stand in front. -/
theorem digits_mirrored (m : Nat) :
    (Nat.digits 10 (mirrored m)).reverse = (Nat.digits 10 m).dropWhile (· == 0) :=
  digits_ofDigits_reverse fun _ hd => Nat.digits_lt_base (by decide) hd

theorem mirrored_mirrored {m : Nat} (h : m % 10 ≠ 0) : mirrored (mirrored m) = m := by
  have hdigits : Nat.digits 10 m = m % 10 :: Nat.digits 10 (m / 10) :=
    Nat.digits_def' (by decide) (by omega)
  have hwhole : (Nat.digits 10 m).dropWhile (· == 0) = Nat.digits 10 m := by
    rw [hdigits]
    exact List.dropWhile_cons_of_neg (by simpa using h)
  calc mirrored (mirrored m)
      = Nat.ofDigits 10 (Nat.digits 10 (mirrored m)).reverse := rfl
    _ = Nat.ofDigits 10 (Nat.digits 10 m) := by rw [digits_mirrored, hwhole]
    _ = m := Nat.ofDigits_digits 10 m

theorem mirrored_pos {m : Nat} (h : 0 < m) : 0 < mirrored m := by
  apply Nat.pos_of_ne_zero
  intro hzero
  have hlost := digits_mirrored m
  rw [hzero, Nat.digits_zero, List.reverse_nil, eq_comm, List.dropWhile_eq_nil_iff] at hlost
  -- Only zeros would be dropped, but the first digit of `m` is none.
  have hfirst := Nat.getLast_digit_ne_zero 10 h.ne'
  exact hfirst (by simpa using hlost _ (List.getLast_mem _))

/-! ## The loop on words -/

/-- The digits of `m`, the last one first, are appended to those of `acc`, modulo the size of
    words. -/
theorem toNat_appendReversed (m acc : UInt64) :
    (appendReversed m acc).toNat =
      (acc.toNat * 10 ^ (Nat.digits 10 m.toNat).length + mirrored m.toNat) % 2 ^ 64 := by
  fun_induction appendReversed m acc with
  | case1 acc =>
    show acc.toNat = (acc.toNat * 10 ^ 0 + 0) % 2 ^ 64
    have hlt := acc.toNat_lt
    omega
  | case2 m acc hm _ ih =>
    have hten : (10 : UInt64).toNat = 10 := rfl
    have hdigits : Nat.digits 10 m.toNat = m.toNat % 10 :: Nat.digits 10 (m.toNat / 10) :=
      Nat.digits_def' (by decide) (toNat_pos hm)
    have hacc : (acc * 10 + m % 10).toNat = (acc.toNat * 10 + m.toNat % 10) % 2 ^ 64 := by
      rw [UInt64.toNat_add, UInt64.toNat_mul, UInt64.toNat_mod, hten]
      omega
    have hmirrored : mirrored m.toNat =
        mirrored (m.toNat / 10) +
          10 ^ (Nat.digits 10 (m.toNat / 10)).length * (m.toNat % 10) := by
      unfold mirrored
      rw [hdigits, List.reverse_cons, Nat.ofDigits_append, List.length_reverse,
        Nat.ofDigits_singleton]
    rw [ih, hacc, UInt64.toNat_div, hten, hmirrored, hdigits, List.length_cons]
    generalize (Nat.digits 10 (m.toNat / 10)).length = k
    generalize mirrored (m.toNat / 10) = r
    -- What has wrapped so far is congruent to the exact prefix, and stays so under a power of ten.
    have hwrap : (acc.toNat * 10 + m.toNat % 10) % 2 ^ 64 * 10 ^ k + r ≡
        (acc.toNat * 10 + m.toNat % 10) * 10 ^ k + r [MOD 2 ^ 64] :=
      ((Nat.mod_modEq _ _).mul_right _).add_right _
    refine hwrap.trans (congrArg (· % 2 ^ 64) ?_)
    ring

/-- The exact result under the sign of `n`, reduced once. -/
theorem toInt_reverseDigits (n : Number) :
    (reverseDigits n).toInt = (n.toInt.sign * mirrored n.toInt.natAbs).bmod (2 ^ 64) := by
  have hzero : (0 : Number).toInt = 0 := rfl
  have hword : (appendReversed (magnitude n) 0).toInt64.toInt =
      (mirrored n.toInt.natAbs : Int).bmod (2 ^ 64) := by
    rw [toInt_toInt64, toNat_appendReversed, toNat_magnitude, UInt64.toNat_zero, Nat.zero_mul,
      Nat.zero_add, Int.natCast_mod, Int.emod_bmod]
  unfold reverseDigits
  dsimp only
  split
  · next hneg =>
    rw [Int64.lt_iff_toInt_lt, hzero] at hneg
    rw [Int64.toInt_neg, hword, Int.bmod_neg_bmod, Int.sign_eq_neg_one_of_neg hneg, Int.neg_one_mul]
  · next hpos =>
    rw [Int64.lt_iff_toInt_lt, hzero, Int.not_lt] at hpos
    rw [hword]
    rcases hpos.lt_or_eq with hlt | heq
    · rw [Int.sign_eq_one_of_pos hlt, Int.one_mul]
    · rw [← heq]
      rfl

theorem toInt_reverseDigits_of_le {n : Number}
    (h : (mirrored n.toInt.natAbs : Int) ≤ greatest.toInt) :
    (reverseDigits n).toInt = n.toInt.sign * mirrored n.toInt.natAbs := by
  have hgreatest : greatest.toInt = 2 ^ 63 - 1 := rfl
  rw [toInt_reverseDigits]
  rcases Int.sign_trichotomy n.toInt with hs | hs | hs <;>
  · rw [hs]
    exact Int.bmod_eq_of_le (by omega) (by omega)

/-- The result has the sign of `n`, if it is exact. -/
theorem sign_reverseDigits_of_le {n : Number}
    (h : (mirrored n.toInt.natAbs : Int) ≤ greatest.toInt) :
    (reverseDigits n).toInt.sign = n.toInt.sign := by
  rw [toInt_reverseDigits_of_le h, Int.sign_mul, Int.sign_sign]
  by_cases hn : n.toInt = 0
  · simp [hn]
  · have hpos : (0 : Int) < mirrored n.toInt.natAbs :=
      Int.natCast_pos.mpr (mirrored_pos (Int.natAbs_pos.mpr hn))
    rw [Int.sign_eq_one_of_pos hpos, Int.mul_one]

/-- Reversing twice gives back every number that does not end in zero and whose reverse is exact.
    The least number is among them, though its magnitude is no number. -/
theorem reverseDigits_reverseDigits {n : Number} (hlast : n.toInt.natAbs % 10 ≠ 0)
    (h : (mirrored n.toInt.natAbs : Int) ≤ greatest.toInt) :
    reverseDigits (reverseDigits n) = n := by
  have hmin := n.le_toInt
  have hmax := n.toInt_lt
  have habs : (reverseDigits n).toInt.natAbs = mirrored n.toInt.natAbs := by
    rw [toInt_reverseDigits_of_le h, Int.natAbs_mul, Int.natAbs_sign_of_ne_zero (by omega),
      Nat.one_mul, Int.natAbs_natCast]
  rw [← Int64.toInt_inj, toInt_reverseDigits, habs, mirrored_mirrored hlast,
    sign_reverseDigits_of_le h, Int.sign_mul_natAbs]
  exact Int.bmod_eq_of_le (by omega) (by omega)

/-- Reversed digits, for every number `n`. The exact reverse of the magnitude is known by its
    digits; the result is that reverse under the sign of `n`, modulo the size of words. Where the
    reverse is at most the greatest number, the result is exact and keeps the sign, and a second
    reversal gives back every such number that does not end in zero. -/
theorem reversed_digits_wrap (n : Number) :
    let rev := mirrored n.toInt.natAbs
    (Nat.digits 10 rev).reverse = (Nat.digits 10 n.toInt.natAbs).dropWhile (· == 0) ∧
    (reverseDigits n).toInt = (n.toInt.sign * rev).bmod (2 ^ 64) ∧
    (rev ≤ greatest.toInt →
      (reverseDigits n).toInt = n.toInt.sign * rev ∧
        (reverseDigits n).toInt.sign = n.toInt.sign) ∧
    (n.toInt.natAbs % 10 ≠ 0 → rev ≤ greatest.toInt → reverseDigits (reverseDigits n) = n) :=
  ⟨digits_mirrored _, toInt_reverseDigits n,
    fun h => ⟨toInt_reverseDigits_of_le h, sign_reverseDigits_of_le h⟩,
    reverseDigits_reverseDigits⟩

/-- The least number comes back, and a number of nineteen digits whose reverse does not fit changes
    its sign. -/
theorem reversed_digits_wrap_least :
    reverseDigits least = -8085774586302733229 ∧ reverseDigits (reverseDigits least) = least ∧
      reverseDigits 1999999999999999999 = -8446744073709551625 := by
  have hexact : (mirrored least.toInt.natAbs : Int) ≤ greatest.toInt := by decide +kernel
  obtain ⟨-, -, hle, htwice⟩ := reversed_digits_wrap least
  obtain ⟨-, hwrapped, -⟩ := reversed_digits_wrap 1999999999999999999
  refine ⟨?_, htwice (by decide) hexact, ?_⟩
  · rw [← Int64.toInt_inj, (hle hexact).1]
    decide +kernel
  · rw [← Int64.toInt_inj, hwrapped]
    decide +kernel

end Gridfall.Number
