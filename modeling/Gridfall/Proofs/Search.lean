/-
  Searching and cutting texts. A search finds the least place where the pattern occurs
  (`find?_eq_some_iff`). The other functions are read off from it: `split` takes the text apart
  around the occurrence (`split_of_find?`), and replacement goes on behind it
  (`replaceFrom_of_find?`). So replacing is the same as splitting until no delimiter is left and
  joining the pieces (`replaceFrom_eq_intercalate`).
-/
import Gridfall.Operator.Compute
import Mathlib.Order.Lattice.Nat

namespace Gridfall

namespace Text

/-! ## Searching -/

theorem findFrom_eq (d s : List Char) (j : Nat) : findFrom d j s = (find? d s).map (· + j) := by
  induction s generalizing j with
  | nil =>
    unfold find? findFrom
    split <;> simp
  | cons c s ih =>
    have hrest : findFrom d 1 s = (find? d s).map (· + 1) := ih 1
    unfold find? findFrom
    split
    · simp
    · rw [ih (j + 1), Nat.zero_add, hrest, Option.map_map]
      congr 1
      funext k
      simp only [Function.comp_apply]
      omega

theorem find?_cons (d : List Char) (c : Char) (s : List Char) :
    find? d (c :: s) = if d <+: c :: s then some 0 else (find? d s).map (· + 1) := by
  rw [find?, findFrom, findFrom_eq, Nat.zero_add]
  simp only [List.isPrefixOf_iff_prefix]

theorem find?_nil {d : List Char} (hd : d ≠ []) : find? d [] = none := by
  unfold find? findFrom
  rw [if_neg (by simpa using hd)]

/-- A search finds the least place where the pattern occurs. -/
theorem find?_eq_some_iff {d s : List Char} {k : Nat} :
    find? d s = some k ↔ IsLeast {j | d <+: s.drop j} k := by
  induction s generalizing k with
  | nil =>
    cases d with
    | nil =>
      constructor
      · rintro ⟨⟩
        exact ⟨List.nil_prefix, fun j _ => Nat.zero_le j⟩
      · intro hleast
        rw [Nat.le_zero.mp (hleast.2 (show [] <+: [].drop 0 from List.nil_prefix))]
        rfl
    | cons e d =>
      rw [find?_nil (List.cons_ne_nil e d)]
      constructor
      · rintro ⟨⟩
      · intro hleast
        have hoccurs := hleast.1
        simp at hoccurs
  | cons c s ih =>
    rw [find?_cons]
    split
    · next hhere =>
      constructor
      · rintro ⟨⟩
        exact ⟨hhere, fun j _ => Nat.zero_le j⟩
      · intro hleast
        rw [Nat.le_zero.mp (hleast.2 (show d <+: (c :: s).drop 0 from hhere))]
    · next hhere =>
      -- Without an occurrence in front, places are those of the rest, one further on.
      rw [Option.map_eq_some_iff]
      constructor
      · rintro ⟨k, hk, rfl⟩
        obtain ⟨hoccurs, hleast⟩ := ih.mp hk
        refine ⟨hoccurs, fun j hj => ?_⟩
        cases j with
        | zero => exact absurd hj hhere
        | succ j => exact Nat.succ_le_succ (hleast hj)
      · rintro ⟨hoccurs, hleast⟩
        cases k with
        | zero => exact absurd hoccurs hhere
        | succ k =>
          exact ⟨k, ih.mpr ⟨hoccurs, fun j hj => Nat.le_of_succ_le_succ (hleast hj)⟩, rfl⟩

theorem find?_eq_none_iff {d s : List Char} :
    find? d s = none ↔ ∀ k, ¬ d <+: s.drop k := by
  constructor
  · intro hnone k hk
    obtain ⟨j, hj⟩ : ∃ j, IsLeast {j | d <+: s.drop j} j :=
      ⟨_, Nat.sInf_mem ⟨k, hk⟩, fun _ => Nat.sInf_le⟩
    rw [find?_eq_some_iff.mpr hj] at hnone
    cases hnone
  · intro hnever
    cases hfind : find? d s with
    | none => rfl
    | some k => exact absurd (find?_eq_some_iff.mp hfind).1 (hnever k)

/-- The text is what stands before an occurrence, the occurrence, and what follows it. -/
theorem take_append_of_find? {d s : List Char} {k : Nat} (h : find? d s = some k) :
    s.take k ++ d ++ s.drop (k + d.length) = s := by
  have hoccurs : d ++ (s.drop k).drop d.length = s.drop k :=
    List.prefix_iff_eq_append.mp (find?_eq_some_iff.mp h).1
  rw [List.append_assoc, ← List.drop_drop, hoccurs, List.take_append_drop]

/-! ## Splitting -/

theorem split_of_find? {d s : List Char} (hd : d ≠ []) {k : Nat} (h : find? d s = some k) :
    split d s = (s.take k, s.drop (k + d.length)) := by
  rw [split, if_neg (by simpa using hd), h]

theorem split_of_find?_none {d s : List Char} (h : d ≠ [] → find? d s = none) :
    split d s = (s, []) := by
  unfold split
  split
  · rfl
  · next hd => rw [h (by simpa using hd)]

theorem length_split_lt {d s : List Char} (hd : d ≠ []) {k : Nat} (h : find? d s = some k) :
    (split d s).2.length < s.length := by
  have hlt := length_delete_lt hd h
  rw [List.length_append] at hlt
  rw [split_of_find? hd h]
  dsimp only
  omega

/-- Splits at a delimiter until none is left. -/
def splitAll (d s : List Char) : List (List Char) :=
  if hmore : d ≠ [] ∧ (find? d s).isSome then
    have : (split d s).2.length < s.length := length_split_lt hmore.1 (Option.some_get hmore.2).symm
    (split d s).1 :: splitAll d (split d s).2
  else [s]
termination_by s.length

theorem splitAll_ne_nil (d s : List Char) : splitAll d s ≠ [] := by
  unfold splitAll
  split <;> simp

/-! ## Replacing -/

theorem replaceFrom_eq_drop (d t : List Char) (n : Nat) (s : List Char) :
    replaceFrom d t n s = replaceFrom d t 0 (s.drop n) := by
  induction s generalizing n with
  | nil => cases n <;> simp [replaceFrom]
  | cons c s ih =>
    cases n with
    | zero => rfl
    | succ n => rw [replaceFrom, ih, List.drop_succ_cons]

theorem replaceFrom_of_find?_none {d t s : List Char} (h : find? d s = none) :
    replaceFrom d t 0 s = s := by
  induction s with
  | nil => rfl
  | cons c s ih =>
    rw [find?_cons] at h
    split at h
    · cases h
    · next hhere =>
      rw [replaceFrom, if_neg (by simpa using hhere), ih (Option.map_eq_none_iff.mp h)]

/-- The first occurrence is replaced, and the replacement goes on behind it. -/
theorem replaceFrom_of_find? {d t s : List Char} (hd : d ≠ []) {k : Nat}
    (h : find? d s = some k) :
    replaceFrom d t 0 s = s.take k ++ (t ++ replaceFrom d t 0 (s.drop (k + d.length))) := by
  induction s generalizing k with
  | nil =>
    rw [find?_nil hd] at h
    cases h
  | cons c s ih =>
    rw [find?_cons] at h
    split at h
    · next hhere =>
      cases h
      obtain ⟨m, hm⟩ := Nat.exists_eq_add_one.mpr (List.length_pos_iff.mpr hd)
      rw [replaceFrom, if_pos (by simpa using hhere), replaceFrom_eq_drop, hm, Nat.zero_add,
        List.drop_succ_cons, Nat.add_sub_cancel]
      rfl
    · next hhere =>
      obtain ⟨j, hj, rfl⟩ := Option.map_eq_some_iff.mp h
      rw [replaceFrom, if_neg (by simpa using hhere), ih hj, Nat.add_right_comm,
        List.drop_succ_cons, List.take_succ_cons]
      rfl

/-- Replacing is splitting at every delimiter and joining the pieces. -/
theorem replaceFrom_eq_intercalate {d : List Char} (hd : d ≠ []) (t s : List Char) :
    replaceFrom d t 0 s = t.intercalate (splitAll d s) := by
  fun_induction splitAll d s with
  | case1 s h _ ih =>
    obtain ⟨k, hk⟩ := Option.isSome_iff_exists.mp h.2
    have hsplit := split_of_find? hd hk
    rw [replaceFrom_of_find? hd hk]
    rw [hsplit] at ih ⊢
    dsimp only at ih ⊢
    obtain ⟨p, ps, hpieces⟩ :=
      List.exists_cons_of_ne_nil (splitAll_ne_nil d (s.drop (k + d.length)))
    rw [ih, hpieces, List.intercalate_cons_cons, List.append_assoc]
  | case2 s h =>
    have hnone : find? d s = none := by simpa [hd] using h
    rw [replaceFrom_of_find?_none hnone]
    simp

/-! ## Cutting -/

theorem cut_append (n : Int) (s : List Char) : (cut n s).1 ++ (cut n s).2 = s :=
  List.take_append_drop _ s

theorem length_cut (n : Int) (s : List Char) :
    ((cut n s).1.length : Int) =
      if 0 ≤ n then min n s.length else max 0 (s.length + n) := by
  unfold cut
  rw [List.length_take]
  split <;> split <;> omega

end Text

namespace Operator

open Text

/-- The pattern and the text are not empty, and the pattern occurs. -/
def Present (d s : List Char) : Prop := s ≠ [] ∧ d ≠ [] ∧ ∃ k, d <+: s.drop k

theorem placeOf_of_find? {d s : List Char} (hs : s ≠ []) (hd : d ≠ []) {k : Nat}
    (h : find? d s = some k) : placeOf d s = Int64.ofNat k := by
  rw [placeOf, if_neg (by simp [hs, hd]), h]

theorem find?_of_not_present {d s : List Char} (h : ¬ Present d s) (hd : d ≠ []) :
    find? d s = none := by
  by_cases hs : s = []
  · rw [hs, find?_nil hd]
  · exact find?_eq_none_iff.mpr fun k hk => h ⟨hs, hd, k, hk⟩

theorem placeOf_of_not_present {d s : List Char} (h : ¬ Present d s) : placeOf d s = -1 := by
  unfold placeOf
  split
  · rfl
  · next hne =>
    simp only [Bool.or_eq_true, List.isEmpty_iff, not_or] at hne
    rw [find?_of_not_present h hne.2]

/-- In a text whose places are numbers, the place of a pattern is the least one. -/
theorem toInt_placeOf_eq_iff {s : List Char} (hs : s.length < 2 ^ 63) {d : List Char} {k : Nat} :
    (placeOf d s).toInt = k ↔ Present d s ∧ IsLeast {j | d <+: s.drop j} k := by
  by_cases hpresent : Present d s
  · obtain ⟨hs', hd, j, hj⟩ := id hpresent
    cases hfind : find? d s with
    | none => exact absurd hj (find?_eq_none_iff.mp hfind j)
    | some i =>
      have hle := findFrom_le hfind
      have hi : (Int64.ofNat i).toInt = i := Int64.toInt_ofNat_of_lt (by omega)
      rw [placeOf_of_find? hs' hd hfind, hi, ← find?_eq_some_iff, hfind, Int.ofNat_inj]
      simp [hpresent]
  · have hminus : (-1 : Number).toInt = -1 := rfl
    rw [placeOf_of_not_present hpresent, hminus]
    constructor
    · intro hk
      omega
    · rintro ⟨habsurd, -⟩
      exact absurd habsurd hpresent

theorem not_present_of_placeOf_neg {s : List Char} (hs : s.length < 2 ^ 63) {d : List Char}
    (h : (placeOf d s).toInt < 0) : ¬ Present d s := by
  intro hpresent
  obtain ⟨-, -, j, hj⟩ := id hpresent
  cases hfind : find? d s with
  | none => exact find?_eq_none_iff.mp hfind j hj
  | some k =>
    have hk := (toInt_placeOf_eq_iff hs).mpr ⟨hpresent, find?_eq_some_iff.mp hfind⟩
    omega

/-- Searching, splitting, cutting and replacing agree with one another, counting characters. -/
theorem text_operations_agree {s : List Char} (hs : s.length < 2 ^ 63) (d t : List Char)
    (n : Number) :
    -- The place of `d` is the least one, if both texts are not empty and there is one.
    ((∀ k : Nat, (placeOf d s).toInt = k ↔ Present d s ∧ IsLeast {j | d <+: s.drop j} k) ∧
      (¬ Present d s → placeOf d s = -1)) ∧
    -- A split takes the text apart around that place, and leaves it whole if there is none.
    ((∀ k : Nat, (placeOf d s).toInt = k →
        split d s = (s.take k, s.drop (k + d.length)) ∧
          (split d s).1 ++ d ++ (split d s).2 = s) ∧
      ((placeOf d s).toInt < 0 → split d s = (s, []))) ∧
    -- A cut loses nothing, and is made at a place in the text.
    ((cut n.toInt s).1 ++ (cut n.toInt s).2 = s ∧
      ((cut n.toInt s).1.length : Int) =
        if 0 ≤ n.toInt then min n.toInt s.length else max 0 (s.length + n.toInt)) ∧
    -- A replacement joins what repeated splits leave.
    replaceAll d t s = if d = [] then s else t.intercalate (splitAll d s) := by
  refine ⟨⟨fun k => toInt_placeOf_eq_iff hs, placeOf_of_not_present⟩,
    ⟨fun k hk => ?_, fun hneg => ?_⟩, ⟨cut_append n.toInt s, length_cut n.toInt s⟩, ?_⟩
  · obtain ⟨⟨-, hd, -⟩, hleast⟩ := (toInt_placeOf_eq_iff hs).mp hk
    have hfind := find?_eq_some_iff.mpr hleast
    rw [split_of_find? hd hfind]
    exact ⟨rfl, take_append_of_find? hfind⟩
  · exact split_of_find?_none (find?_of_not_present (not_present_of_placeOf_neg hs hneg))
  · unfold replaceAll
    by_cases hd : d = []
    · simp [hd]
    · rw [if_neg (by simpa using hd), if_neg hd, replaceFrom_eq_intercalate hd]

/-- Overlapping occurrences of characters of two bytes, a place counted from the end, and one far
    outside of the text. -/
theorem text_operations_agree_overlapping :
    "ééééé".toList.length < 2 ^ 63 ∧
    (placeOf "éé".toList "ééééé".toList).toInt = 0 ∧
    split "éé".toList "ééééé".toList = ([], "ééé".toList) ∧
    (cut (-2) "ééééé".toList).1.length = 3 ∧
    (cut Number.least.toInt "ééééé".toList).1.length = 0 ∧
    ['a'].intercalate (splitAll "éé".toList "ééééé".toList) = "aaé".toList := by
  have hshort : "ééééé".toList.length < 2 ^ 63 := by decide
  have hpresent : Present "éé".toList "ééééé".toList := ⟨by decide, by decide, 0, by decide⟩
  obtain ⟨⟨hplace, -⟩, ⟨hsplit, -⟩, ⟨-, hcut⟩, hreplace⟩ :=
    text_operations_agree hshort "éé".toList ['a'] (-2)
  obtain ⟨-, -, ⟨-, hleast⟩, -⟩ := text_operations_agree hshort "éé".toList ['a'] Number.least
  have hzero := (hplace 0).mpr ⟨hpresent, by decide, fun j _ => Nat.zero_le j⟩
  refine ⟨hshort, hzero, (hsplit 0 hzero).1, ?_, ?_, ?_⟩
  · exact Int.ofNat.inj hcut
  · exact Int.ofNat.inj hleast
  · exact hreplace.symm

end Operator

end Gridfall
