/-
  The range of random draws. A draw below a bound is the exact high word of a product of 128 bits
  (`toNat_below`), hence below the bound whatever the generator gives (`below_lt`).

  A program asks for a draw with a signed number. Every draw that is made for one is below `2 ^ 63`,
  also for the least number, whose magnitude is `2 ^ 63` itself (`below_magnitude_lt`). So neither
  the cast to a signed number nor the negation after it leaves the numbers (`Exact`), and the result
  is the draw under the sign of the number (`toInt_random`). A character of a text is drawn by its
  place, with the length of the text as the bound, so there is a character at that place
  (`randomChar_eq`).
-/
import Gridfall.Operator.Execution
import Gridfall.Proofs.Number

namespace Gridfall

namespace Generator

/-! ## Draws below a bound -/

/-- The product of two words has at most 128 bits. -/
theorem product_lt (a b : UInt64) : a.toNat * b.toNat < 2 ^ 128 := by
  have ha := a.toNat_lt
  have hb := b.toNat_lt
  calc a.toNat * b.toNat < 2 ^ 64 * 2 ^ 64 := Nat.mul_lt_mul'' ha hb
    _ = 2 ^ 128 := by norm_num

theorem toNat_below (g : Generator) (bound : UInt64) :
    (g.below bound).1.toNat = g.next.1.toNat * bound.toNat / 2 ^ 64 := by
  have hlt := product_lt g.next.1 bound
  have hhigh : g.next.1.toNat * bound.toNat / UInt64.size < UInt64.size := by
    unfold UInt64.size
    omega
  exact UInt64.toNat_ofNat_of_lt' hhigh

theorem below_lt (g : Generator) {bound : UInt64} (h : 0 < bound.toNat) :
    (g.below bound).1.toNat < bound.toNat := by
  rw [toNat_below]
  apply Nat.div_lt_of_lt_mul
  exact Nat.mul_lt_mul_of_pos_right g.next.1.toNat_lt h

/-! ## Draws for a number -/

/-- The cast of the word to a number is the word, and the negation of that number is exact. -/
def Exact (w : UInt64) : Prop :=
  w.toInt64.toInt = w.toNat ∧ (-w.toInt64).toInt = -(w.toNat : Int)

theorem exact_of_lt {w : UInt64} (h : w.toNat < 2 ^ 63) : Exact w := by
  have hcast : w.toInt64.toInt = w.toNat := by
    rw [Number.toInt_toInt64]
    exact Int.bmod_eq_of_le (by omega) (by omega)
  refine ⟨hcast, ?_⟩
  rw [Int64.toInt_neg, hcast]
  exact Int.bmod_eq_of_le (by omega) (by omega)

theorem below_magnitude_lt (g : Generator) (n : Number) :
    (g.below n.magnitude).1.toNat < 2 ^ 63 := by
  have hle := n.toNat_magnitude_le
  rcases Nat.eq_zero_or_pos n.magnitude.toNat with hzero | hpos
  · -- No draw is made for zero, but the bound holds for it as well.
    rw [toNat_below, hzero, Nat.mul_zero, Nat.zero_div]
    decide
  · have hlt := g.below_lt hpos
    omega

theorem half_lt (w : UInt64) : (w >>> 1).toNat < 2 ^ 63 := by
  have hlt := w.toNat_lt
  have hhalf : (w >>> 1).toNat = w.toNat / 2 := by
    rw [UInt64.toNat_shiftRight]
    exact Nat.shiftRight_eq_div_pow _ 1
  omega

/-- For a number other than zero, the draw below its magnitude under its sign. -/
theorem toInt_random (g : Generator) {n : Number} (hn : n.toInt ≠ 0) :
    (g.random n).1.toInt = n.toInt.sign * (g.below n.magnitude).1.toNat := by
  have hzero : (0 : Number).toInt = 0 := rfl
  have hne : n ≠ 0 := fun h => hn (congrArg Int64.toInt h)
  obtain ⟨hcast, hneg⟩ := exact_of_lt (g.below_magnitude_lt n)
  have hdraw : (g.random n).1 =
      if n < 0 then -(g.below n.magnitude).1.toInt64 else (g.below n.magnitude).1.toInt64 := by
    unfold random
    rw [if_neg (by simpa using hne)]
  rw [hdraw]
  split
  · next h =>
    rw [Int64.lt_iff_toInt_lt, hzero] at h
    rw [hneg, Int.sign_eq_neg_one_of_neg h, Int.neg_one_mul]
  · next h =>
    rw [Int64.lt_iff_toInt_lt, hzero] at h
    rw [hcast, Int.sign_eq_one_of_pos (by omega), Int.one_mul]

/-- For zero, half a word under a random sign. -/
theorem natAbs_random_zero (g : Generator) :
    (g.random 0).1.toInt.natAbs = (g.next.1 >>> 1).toNat := by
  obtain ⟨hcast, hneg⟩ := exact_of_lt (half_lt g.next.1)
  have hdraw : (g.random 0).1 =
      if g.next.2.next.1 &&& 1 == 0 then (g.next.1 >>> 1).toInt64
      else -(g.next.1 >>> 1).toInt64 := rfl
  rw [hdraw]
  split
  · rw [hcast, Int.natAbs_natCast]
  · rw [hneg, Int.natAbs_neg, Int.natAbs_natCast]

theorem random_pos (g : Generator) {n : Number} (h : 0 < n.toInt) :
    0 ≤ (g.random n).1.toInt ∧ (g.random n).1.toInt < n.toInt := by
  have hmagnitude := n.toNat_magnitude
  have hlt := g.below_lt (by omega : 0 < n.magnitude.toNat)
  rw [toInt_random g (by omega), Int.sign_eq_one_of_pos h]
  omega

theorem random_neg (g : Generator) {n : Number} (h : n.toInt < 0) :
    n.toInt < (g.random n).1.toInt ∧ (g.random n).1.toInt ≤ 0 := by
  have hmagnitude := n.toNat_magnitude
  have hlt := g.below_lt (by omega : 0 < n.magnitude.toNat)
  rw [toInt_random g (by omega), Int.sign_eq_neg_one_of_neg h]
  omega

theorem random_zero (g : Generator) :
    -(2 ^ 63 - 1) ≤ (g.random 0).1.toInt ∧ (g.random 0).1.toInt ≤ 2 ^ 63 - 1 := by
  have hlt := half_lt g.next.1
  rw [← natAbs_random_zero] at hlt
  omega

end Generator

/-! ## Drawing a character -/

namespace Operator

/-- A text that is not empty has a character at the place that is drawn, and that is the result. -/
theorem randomChar_eq {s : List Char} (hne : s ≠ []) (hs : s.length < 2 ^ 63) (ctx : Context) :
    ∃ i c, (ctx.generator.random (Int64.ofNat s.length)).1.toInt = (i : Nat) ∧ s[i]? = some c ∧
      randomChar s ctx =
        ([c], { ctx with generator := (ctx.generator.random (Int64.ofNat s.length)).2 }) := by
  have hlength : (Int64.ofNat s.length).toInt = s.length := Int64.toInt_ofNat_of_lt hs
  have hpos := List.length_pos_iff.mpr hne
  obtain ⟨hlow, hhigh⟩ := ctx.generator.random_pos (n := Int64.ofNat s.length) (by omega)
  obtain ⟨i, hi⟩ := Int.eq_ofNat_of_zero_le hlow
  have hplace : i < s.length := by omega
  refine ⟨i, s[i], hi, List.getElem?_eq_getElem hplace, ?_⟩
  have hdrawn : randomChar s ctx =
      (s[(ctx.generator.random (Int64.ofNat s.length)).1.toInt.toNat]?.toList,
        { ctx with generator := (ctx.generator.random (Int64.ofNat s.length)).2 }) := by
    unfold randomChar
    rw [if_neg (by simpa using hne)]
    rfl
  rw [hdrawn, hi, Int.toNat_natCast, List.getElem?_eq_getElem hplace]
  rfl

end Operator

/-- Draws stay in range, for every generator and every number.

    A positive `n` gives `0` to `n - 1`, a negative one `n + 1` to `0`, and zero any number but the
    least. The product that a draw is taken from has at most 128 bits, its high word is exact, and
    so are the cast of a draw to a number and the negation of that. The operator finds a character
    at the place that it draws for a text that is not empty, and gives that character. -/
theorem draws_in_range (g : Generator) :
    (∀ n : Number,
      (0 < n → 0 ≤ (g.random n).1 ∧ (g.random n).1 < n) ∧
      (n < 0 → n < (g.random n).1 ∧ (g.random n).1 ≤ 0) ∧
      (n = 0 → -(2 ^ 63 - 1) ≤ (g.random n).1.toInt ∧ (g.random n).1.toInt ≤ 2 ^ 63 - 1)) ∧
    ((∀ n : Number,
        g.next.1.toNat * n.magnitude.toNat < 2 ^ 128 ∧
        (g.below n.magnitude).1.toNat = g.next.1.toNat * n.toInt.natAbs / 2 ^ 64 ∧
        Generator.Exact (g.below n.magnitude).1) ∧
      Generator.Exact (g.next.1 >>> 1)) ∧
    ∀ (ctx : Context) (s : String), ctx.generator = g → s ≠ "" → s.length < 2 ^ 63 →
      ∀ (index : Nat) (drift : Drift) (second : Option Datum), ∃ i c,
        (g.random (Int64.ofNat s.length)).1.toInt = (i : Nat) ∧ s.toList[i]? = some c ∧
        Operator.runPair .random index (some ⟨.text s, drift⟩) second ctx =
          (.ok ⟨none, some (.text (String.singleton c))⟩,
            { ctx with generator := (g.random (Int64.ofNat s.length)).2 }) := by
  have hzero : (0 : Number).toInt = 0 := rfl
  refine ⟨fun n => ⟨?_, ?_, ?_⟩, ⟨fun n => ⟨?_, ?_, ?_⟩, ?_⟩, ?_⟩
  · simp only [Int64.lt_iff_toInt_lt, Int64.le_iff_toInt_le, hzero]
    exact g.random_pos
  · simp only [Int64.lt_iff_toInt_lt, Int64.le_iff_toInt_le, hzero]
    exact g.random_neg
  · intro hn
    rw [hn]
    exact g.random_zero
  · exact Generator.product_lt _ _
  · rw [Generator.toNat_below, Number.toNat_magnitude]
  · exact Generator.exact_of_lt (g.below_magnitude_lt n)
  · exact Generator.exact_of_lt (Generator.half_lt _)
  · intro ctx s hg hne hs index drift second
    subst hg
    obtain ⟨i, c, hi, hc, hdrawn⟩ :=
      Operator.randomChar_eq (s := s.toList) (by simpa using hne) hs ctx
    refine ⟨i, c, hi, hc, ?_⟩
    have hrun : Operator.runPair .random index (some ⟨.text s, drift⟩) second ctx =
        (.ok ⟨none, some (.chars (Operator.randomChar s.toList ctx).1)⟩,
          (Operator.randomChar s.toList ctx).2) := rfl
    rw [hrun, hdrawn]
    rfl

/-- The least number, whose magnitude is not a number, and a text with a character of two bytes. -/
theorem draws_in_range_least :
    (Number.least < ((⟨3⟩ : Generator).random Number.least).1 ∧
      ((⟨3⟩ : Generator).random Number.least).1 ≤ 0) ∧
    ("né" ≠ "" ∧ "né".length < 2 ^ 63 ∧
      ∃ c ∈ "né".toList,
        (Operator.runPair .random 0 (some (.text "né")) none ⟨{}, ⟨3⟩, 0, none, #[]⟩).1 =
          .ok ⟨none, some (.text (String.singleton c))⟩) := by
  have hne : "né" ≠ "" := by decide
  have hlength : "né".length < 2 ^ 63 := by decide
  obtain ⟨hrange, -, hchar⟩ := draws_in_range ⟨3⟩
  obtain ⟨i, c, -, hc, hrun⟩ :=
    hchar ⟨{}, ⟨3⟩, 0, none, #[]⟩ "né" rfl hne hlength 0 Drift.fresh none
  exact ⟨(hrange Number.least).2.1 (by decide), hne, hlength, c, List.mem_of_getElem? hc,
    congrArg Prod.fst hrun⟩

end Gridfall
