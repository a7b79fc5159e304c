/-
  Removing a pattern from a text until it no longer occurs.

  `Deletes p s t` takes the leftmost occurrence of `p` out of `s`, and `Deletions p n s t` does so
  `n` times in a row. What stands before a deleted occurrence and what follows it move together, and
  `p` may occur anew across the cut. So nothing is said about the places of later occurrences; each
  deletion makes the text shorter by the length of `p`, in whatever unit (`Deletions.measure`), and
  there is only one deletion to make at a time (`Deletes.removeAll_eq`). Hence every chain of
  deletions ends, and all that end at a text without `p` end at the same one, `removeAll p s`.
-/
import Gridfall.Proofs.Search

namespace Gridfall.Text

/-! ## One deletion -/

/-- The text `t` is `s` without the leftmost occurrence of `p`. -/
def Deletes (p s t : List Char) : Prop :=
  ∃ u v, s = u ++ p ++ v ∧ t = u ++ v ∧ ∀ u' v', s = u' ++ p ++ v' → u.length ≤ u'.length

/-- A pattern occurs at a place if it stands behind as many characters. -/
theorem prefix_drop_iff {p s : List Char} (hp : p ≠ []) {k : Nat} :
    p <+: s.drop k ↔ ∃ u v, s = u ++ p ++ v ∧ u.length = k := by
  constructor
  · intro h
    have hle := h.length_le
    have hpos : 0 < p.length := List.length_pos_iff.mpr hp
    rw [List.length_drop] at hle
    obtain ⟨v, hv⟩ := h
    refine ⟨s.take k, v, ?_, List.length_take_of_le (by omega)⟩
    rw [List.append_assoc, hv, List.take_append_drop]
  · intro h
    obtain ⟨u, v, hs, hu⟩ := h
    rw [hs, ← hu, List.append_assoc, List.drop_left]
    exact List.prefix_append p v

theorem find?_eq_none_iff_not_occurs {p s : List Char} (hp : p ≠ []) :
    find? p s = none ↔ ¬ p <:+: s := by
  rw [find?_eq_none_iff]
  constructor
  · intro hnever h
    obtain ⟨u, v, hs⟩ := h
    exact hnever u.length ((prefix_drop_iff hp).mpr ⟨u, v, hs.symm, rfl⟩)
  · intro hnot k hk
    obtain ⟨u, v, hs, -⟩ := (prefix_drop_iff hp).mp hk
    exact hnot ⟨u, v, hs.symm⟩

/-- The leftmost occurrence is the one that a search finds. -/
theorem deletes_iff {p s t : List Char} (hp : p ≠ []) :
    Deletes p s t ↔ ∃ k, find? p s = some k ∧ t = s.take k ++ s.drop (k + p.length) := by
  constructor
  · intro h
    obtain ⟨u, v, hs, ht, hfirst⟩ := h
    refine ⟨u.length, find?_eq_some_iff.mpr ⟨?_, fun j hj => ?_⟩, ?_⟩
    · exact (prefix_drop_iff hp).mpr ⟨u, v, hs, rfl⟩
    · obtain ⟨u', v', hs', hu'⟩ := (prefix_drop_iff hp).mp hj
      rw [← hu']
      exact hfirst u' v' hs'
    · rw [hs, ht, ← List.drop_drop, List.append_assoc, List.take_left, List.drop_left,
        List.drop_left]
  · intro h
    obtain ⟨k, hk, ht⟩ := h
    have hplace := (find?_eq_some_iff.mp hk).2
    have hle := findFrom_le hk
    refine ⟨s.take k, s.drop (k + p.length), (take_append_of_find? hk).symm, ht, ?_⟩
    intro u' v' hs'
    rw [List.length_take_of_le (by omega)]
    exact hplace ((prefix_drop_iff hp).mpr ⟨u', v', hs', rfl⟩)

theorem Deletes.sublist {p s t : List Char} (h : Deletes p s t) : t.Sublist s := by
  obtain ⟨u, v, hs, ht, -⟩ := h
  rw [hs, ht]
  exact (List.sublist_append_left u p).append_right v

/-- A deletion takes away as much as the pattern measures. -/
theorem Deletes.measure {p s t : List Char} (h : Deletes p s t) {f : List Char → Nat}
    (hf : ∀ a b, f (a ++ b) = f a + f b) : f s = f t + f p := by
  obtain ⟨u, v, hs, ht, -⟩ := h
  rw [hs, ht, hf, hf, hf]
  omega

/-! ## Deleting until there is nothing to delete -/

/-- From `s` to `t` by `n` deletions in a row. -/
inductive Deletions (p : List Char) : Nat → List Char → List Char → Prop
  | none {s} : Deletions p 0 s s
  | more {n s t w} (h : Deletes p s t) (rest : Deletions p n t w) : Deletions p (n + 1) s w

theorem removeAll_of_not_occurs {p s : List Char} (h : ¬ p <:+: s) : removeAll p s = s := by
  have hp : p ≠ [] := by
    intro hp
    exact h (hp ▸ List.nil_infix)
  have hnone := (find?_eq_none_iff_not_occurs hp).mpr h
  rw [removeAll, dif_neg hp]
  split
  · rfl
  · next k hk => cases hnone.symm.trans hk

theorem Deletes.removeAll_eq {p s t : List Char} (hp : p ≠ []) (h : Deletes p s t) :
    removeAll p s = removeAll p t := by
  obtain ⟨k, hk, ht⟩ := (deletes_iff hp).mp h
  rw [removeAll, dif_neg hp]
  split
  · next hnone => cases hnone.symm.trans hk
  · next j hj =>
    obtain rfl : j = k := Option.some.inj (hj.symm.trans hk)
    rw [ht]

namespace Deletions

variable {p s t : List Char} {n : Nat} (h : Deletions p n s t)
include h

theorem sublist : t.Sublist s := by
  induction h with
  | none => exact List.Sublist.refl _
  | more hstep _ ih => exact ih.trans hstep.sublist

/-- Deletions take away a multiple of what the pattern measures. -/
theorem measure {f : List Char → Nat} (hf : ∀ a b, f (a ++ b) = f a + f b) :
    f s = f t + n * f p := by
  induction h with
  | none => omega
  | more hstep _ ih => rw [hstep.measure hf, ih, Nat.add_mul, Nat.one_mul, Nat.add_assoc]

theorem length : s.length = t.length + n * p.length := h.measure fun _ _ => List.length_append

theorem utf8ByteSize : (String.ofList s).utf8ByteSize =
    (String.ofList t).utf8ByteSize + n * (String.ofList p).utf8ByteSize := by
  apply h.measure (f := fun l => (String.ofList l).utf8ByteSize)
  intro a b
  rw [String.ofList_append, String.utf8ByteSize_append]

/-- The result is settled from the start, whatever has been deleted already. -/
theorem removeAll_eq (hp : p ≠ []) : removeAll p s = removeAll p t := by
  induction h with
  | none => rfl
  | more hstep _ ih => exact (hstep.removeAll_eq hp).trans ih

end Deletions

/-- Removal is a chain of deletions, and stops where the pattern no longer occurs. -/
theorem exists_deletions {p : List Char} (hp : p ≠ []) (s : List Char) :
    ∃ n, Deletions p n s (removeAll p s) ∧ ¬ p <:+: removeAll p s := by
  fun_induction removeAll p s with
  | case1 => contradiction
  | case2 s _ hnone => exact ⟨0, .none, (find?_eq_none_iff_not_occurs hp).mp hnone⟩
  | case3 s _ k hk _ ih =>
    obtain ⟨n, hchain, hgone⟩ := ih
    exact ⟨n + 1, .more ((deletes_iff hp).mpr ⟨k, hk, rfl⟩) hchain, hgone⟩

/-- Removing a pattern that is not empty ends, and ends where it must. No chain of deletions of the
    leftmost occurrence is longer than the text. One of them leads to the result, which is a
    subsequence of the text and shorter by a multiple of the pattern, in characters as in bytes. The
    pattern does not occur in the result, and every chain to a text in which it does not occur leads
    there. A text without the pattern stays as it is; so does one from which it has been removed. -/
theorem removeAll_normal_form {p : List Char} (hp : p ≠ []) (s : List Char) :
    (∀ n t, Deletions p n s t → n ≤ s.length) ∧
    (∃ n, Deletions p n s (removeAll p s) ∧
      s.length = (removeAll p s).length + n * p.length ∧
      (String.ofList s).utf8ByteSize =
        (String.ofList (removeAll p s)).utf8ByteSize + n * (String.ofList p).utf8ByteSize) ∧
    (removeAll p s).Sublist s ∧
    ¬ p <:+: removeAll p s ∧
    (∀ n t, Deletions p n s t → ¬ p <:+: t → t = removeAll p s) ∧
    (¬ p <:+: s → removeAll p s = s) ∧
    removeAll p (removeAll p s) = removeAll p s := by
  obtain ⟨n, hchain, hgone⟩ := exists_deletions hp s
  refine ⟨fun m t hmore => ?_, ⟨n, hchain, hchain.length, hchain.utf8ByteSize⟩, hchain.sublist,
    hgone, fun m t hother ht => ?_, removeAll_of_not_occurs, removeAll_of_not_occurs hgone⟩
  · have hpos : 1 ≤ p.length := List.length_pos_iff.mpr hp
    have hlength := hmore.length
    have hmul := Nat.mul_le_mul_left m hpos
    omega
  · rw [hother.removeAll_eq hp, removeAll_of_not_occurs ht]

/-- The first deletion makes a new occurrence: `ab` stands in the text twice and is deleted three
    times. -/
theorem removeAll_normal_form_nested :
    "ab".toList ≠ [] ∧ removeAll "ab".toList "éaabbab".toList = "é".toList ∧
    ¬ "ab".toList <:+: removeAll "ab".toList "éaabbab".toList ∧
    removeAll "ab".toList (removeAll "ab".toList "éaabbab".toList) = "é".toList := by
  have hp : "ab".toList ≠ [] := by decide
  have hchain : Deletions "ab".toList 3 "éaabbab".toList "é".toList := by
    refine .more ((deletes_iff hp).mpr ⟨2, by decide, rfl⟩) ?_
    refine .more ((deletes_iff hp).mpr ⟨1, by decide, rfl⟩) ?_
    exact .more ((deletes_iff hp).mpr ⟨1, by decide, rfl⟩) .none
  obtain ⟨-, -, -, hgone, hunique, -, hagain⟩ := removeAll_normal_form hp "éaabbab".toList
  have hresult := hunique 3 "é".toList hchain (by decide)
  exact ⟨hp, hresult.symm, hgone, hagain.trans hresult.symm⟩

end Gridfall.Text
