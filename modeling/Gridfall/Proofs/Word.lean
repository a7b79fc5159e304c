/-
  Words of 64 bits under the operations that scatter them. Each one can be undone, so that no two
  words are ever taken to the same word:

  * `mul_bijective`: a product with a fixed odd word, since an odd number has no factor in common
    with `2 ^ 64`.
  * `xorShift_injective`: a word combined by exclusive or with itself shifted to the right. The
    highest bits stay as they are, and each other bit is told from the result and a higher bit.
-/
import Mathlib.Data.FinEnum
import Mathlib.Data.Nat.ModEq
import Mathlib.Data.Nat.Prime.Basic

namespace Gridfall.Word

open Function

/-! ## Odd factors -/

theorem coprime_of_odd {n : Nat} (h : n % 2 = 1) : Nat.gcd (2 ^ 64) n = 1 :=
  Nat.Coprime.pow_left 64 (Nat.coprime_two_left.mpr (Nat.odd_iff.mpr h))

/-- Numbers that are equal modulo the number of words are still so without an odd factor. -/
theorem modEq_of_mul_odd {a b c : Nat} (hc : c % 2 = 1)
    (h : a * c ≡ b * c [MOD 2 ^ 64]) : a ≡ b [MOD 2 ^ 64] :=
  h.cancel_right_of_coprime (coprime_of_odd hc)

theorem mul_injective {c : UInt64} (hc : c.toNat % 2 = 1) : Injective fun w : UInt64 => w * c := by
  intro a b h
  have hnat : a.toNat * c.toNat ≡ b.toNat * c.toNat [MOD 2 ^ 64] := by
    rw [Nat.ModEq, ← UInt64.toNat_mul, ← UInt64.toNat_mul]
    exact congrArg UInt64.toNat h
  apply UInt64.toNat_inj.mp
  exact (modEq_of_mul_odd hc hnat).eq_of_lt_of_lt a.toNat_lt b.toNat_lt

theorem mul_bijective {c : UInt64} (hc : c.toNat % 2 = 1) : Bijective fun w : UInt64 => w * c :=
  Finite.injective_iff_bijective.mp (mul_injective hc)

/-! ## Shifts -/

theorem testBit_xorShift (w k : UInt64) (i : Nat) :
    (w ^^^ (w >>> k)).toNat.testBit i =
      (w.toNat.testBit i ^^ w.toNat.testBit (k.toNat % 64 + i)) := by
  rw [UInt64.toNat_xor, UInt64.toNat_shiftRight, Nat.testBit_xor, Nat.testBit_shiftRight]

theorem xorShift_injective {k : UInt64} (hk : k.toNat % 64 ≠ 0) :
    Injective fun w : UInt64 => w ^^^ (w >>> k) := by
  intro a b h
  -- From the highest bit down: `n` bits at the top are known to agree.
  have hbits : ∀ n i, 64 ≤ i + n → a.toNat.testBit i = b.toNat.testBit i := by
    intro n
    induction n with
    | zero =>
      intro i hi
      have hpow : 2 ^ 64 ≤ 2 ^ i := Nat.pow_le_pow_right (by decide) hi
      rw [Nat.testBit_lt_two_pow (a.toNat_lt.trans_le hpow),
        Nat.testBit_lt_two_pow (b.toNat_lt.trans_le hpow)]
    | succ n ih =>
      intro i hi
      have hhigh := ih (k.toNat % 64 + i) (by omega)
      have hxor := congrArg (fun w : UInt64 => w.toNat.testBit i) h
      simp only [testBit_xorShift, hhigh] at hxor
      exact Bool.xor_left_inj.mp hxor
  apply UInt64.toNat_inj.mp
  exact Nat.eq_of_testBit_eq fun i => hbits 64 i (by omega)

end Gridfall.Word
