/-
  The stream of words of a generator. Both parts of a draw lose nothing.

  The word is the next state, scattered by products with odd words and by shifts, and each of these
  can be undone (`mix_injective`); so a word tells the state that it was drawn in.

  The state grows by a fixed odd word. After `n` draws it has grown by `n` times that word, and two
  such numbers are the same word only if the numbers of draws differ by a multiple of `2 ^ 64`
  (`iterate_advance_eq_iff`). So the states form one circle: from each state every state is reached,
  and no state comes again before all the others have been there. Hence all the words of a stream
  differ from each other until `2 ^ 64` are drawn, from wherever in the stream (`nodup_words_iff`).
-/
import Gridfall.Proofs.Word
import Gridfall.Random
import Mathlib.Data.List.Iterate
import Mathlib.Dynamics.PeriodicPts.Defs

namespace Gridfall.Generator

open Function

/-! ## The word of a draw -/

theorem mix_injective : Injective mix := by
  have hfirst : Injective fun w : UInt64 => w ^^^ (w >>> 30) := Word.xorShift_injective (by decide)
  have hsecond : Injective fun w : UInt64 => w ^^^ (w >>> 27) := Word.xorShift_injective (by decide)
  have hthird : Injective fun w : UInt64 => w ^^^ (w >>> 31) := Word.xorShift_injective (by decide)
  have hmul : Injective fun w : UInt64 => w * 0xBF58476D1CE4E5B9 := Word.mul_injective (by decide)
  have hmul' : Injective fun w : UInt64 => w * 0x94D049BB133111EB := Word.mul_injective (by decide)
  exact hthird.comp (hmul'.comp (hsecond.comp (hmul.comp hfirst)))

/-! ## The states of a stream -/

theorem advance_bijective : Bijective advance := by
  refine bijective_iff_has_inverse.mpr ⟨fun g => ⟨g.state - increment⟩, fun g => ?_, fun g => ?_⟩
  · exact congrArg Generator.mk (UInt64.add_sub_cancel g.state increment)
  · exact congrArg Generator.mk (UInt64.sub_add_cancel g.state increment)

theorem word_injective : Injective fun g : Generator => g.next.1 := fun _ _ h =>
  advance_bijective.injective (congrArg Generator.mk (mix_injective h))

theorem increment_odd : increment.toNat % 2 = 1 := by decide

/-- The state after `n` draws, in exact arithmetic. -/
theorem toNat_iterate_advance (g : Generator) (n : Nat) :
    (advance^[n] g).state.toNat = (g.state.toNat + n * increment.toNat) % 2 ^ 64 := by
  induction n with
  | zero =>
    have hlt := g.state.toNat_lt
    rw [iterate_zero_apply]
    omega
  | succ n ih =>
    rw [iterate_succ_apply', advance, UInt64.toNat_add, ih, Nat.mod_add_mod, Nat.succ_mul,
      Nat.add_assoc]

theorem iterate_advance_eq_iff (g : Generator) (m n : Nat) :
    advance^[m] g = advance^[n] g ↔ m ≡ n [MOD 2 ^ 64] := by
  have hstate : advance^[m] g = advance^[n] g ↔
      g.state.toNat + m * increment.toNat ≡ g.state.toNat + n * increment.toNat [MOD 2 ^ 64] := by
    rw [Nat.ModEq, ← toNat_iterate_advance, ← toNat_iterate_advance, UInt64.toNat_inj]
    exact ⟨congrArg state, congrArg Generator.mk⟩
  rw [hstate]
  constructor
  · intro h
    exact Word.modEq_of_mul_odd increment_odd (h.add_left_cancel' _)
  · intro h
    exact (h.mul_right _).add_left _

theorem minimalPeriod_advance (g : Generator) : minimalPeriod advance g = 2 ^ 64 := by
  have hperiodic : ∀ n, minimalPeriod advance g ∣ n ↔ 2 ^ 64 ∣ n := by
    intro n
    rw [← isPeriodicPt_iff_minimalPeriod_dvd, ← Nat.modEq_zero_iff_dvd]
    exact iterate_advance_eq_iff g n 0
  exact Nat.dvd_antisymm ((hperiodic _).mpr dvd_rfl) ((hperiodic _).mp dvd_rfl)

/-- Every state comes up in every stream. -/
theorem exists_iterate_advance (g h : Generator) : ∃ n < 2 ^ 64, advance^[n] g = h := by
  -- The number of draws is the distance of the states, divided by the odd word.
  obtain ⟨w, hw⟩ := (Word.mul_bijective increment_odd).surjective (h.state - g.state)
  have hreach : h.state = g.state + w * increment := by
    rw [show w * increment = h.state - g.state from hw, UInt64.add_comm, UInt64.sub_add_cancel]
  refine ⟨w.toNat, w.toNat_lt, ?_⟩
  have hstate : (advance^[w.toNat] g).state = h.state := by
    apply UInt64.toNat_inj.mp
    rw [toNat_iterate_advance, hreach, UInt64.toNat_add, UInt64.toNat_mul, Nat.add_mod_mod]
  exact congrArg Generator.mk hstate

/-! ## The words of a stream -/

/-- The words of `n` draws in a row. -/
def words : (n : Nat) → Generator → List UInt64
  | 0, _ => []
  | n + 1, g => g.next.1 :: words n g.next.2

theorem words_eq_map (n : Nat) (g : Generator) :
    g.words n = (List.range n).map fun i => (advance^[i] g).next.1 := by
  have hiterate : g.words n = (List.iterate advance g n).map fun g => g.next.1 := by
    induction n generalizing g with
    | zero => rfl
    | succ n ih => rw [words, ih, List.iterate, List.map_cons, next]
  rw [hiterate, ← List.range_map_iterate, List.map_map, comp_def]

/-- Two words of a stream are the same only if a number of whole circles lies between them. -/
theorem word_iterate_eq_iff (g : Generator) (m n : Nat) :
    (advance^[m] g).next.1 = (advance^[n] g).next.1 ↔ m ≡ n [MOD 2 ^ 64] := by
  rw [← iterate_advance_eq_iff g]
  exact word_injective.eq_iff

theorem nodup_words_iff (n : Nat) (g : Generator) : (g.words n).Nodup ↔ n ≤ 2 ^ 64 := by
  rw [words_eq_map]
  constructor
  · intro h
    by_contra hn
    -- After a whole circle the first word comes again.
    have hagain := (word_iterate_eq_iff g 0 (2 ^ 64)).mpr (Nat.mod_self _).symm
    have hsame := List.inj_on_of_nodup_map h (List.mem_range.mpr (by omega))
      (List.mem_range.mpr (by omega)) hagain
    omega
  · intro hn
    refine List.nodup_range.map_on fun i hi j hj h => ?_
    have hi := List.mem_range.mp hi
    have hj := List.mem_range.mp hj
    exact ((word_iterate_eq_iff g i j).mp h).eq_of_lt_of_lt (by omega) (by omega)

/-- Generators in different states draw different words. A draw permutes the states, and all of them
    in one circle: each state comes again after `2 ^ 64` draws and not before, and each is reached
    from each. So `n` draws in a row give `n` different words, wherever in the stream they start,
    for as long as there are `n` words. -/
theorem next_full_period :
    Injective (fun g : Generator => g.next.1) ∧
    Bijective (fun g : Generator => g.next.2) ∧
    (∀ g : Generator, minimalPeriod (fun g : Generator => g.next.2) g = 2 ^ 64) ∧
    (∀ g h : Generator, ∃ n < 2 ^ 64, (fun g : Generator => g.next.2)^[n] g = h) ∧
    ∀ (n : Nat) (g : Generator), (g.words n).Nodup ↔ n ≤ 2 ^ 64 := by
  exact ⟨word_injective, advance_bijective, minimalPeriod_advance, exists_iterate_advance,
    nodup_words_iff⟩

end Gridfall.Generator
