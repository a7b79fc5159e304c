/-
  Searching and cutting texts, by characters.

  * `find?`: the first place where a pattern occurs.
  * `split`, `cut`: two parts of a text, at the first delimiter or at a position.
  * `removeAll`: deletes the first occurrence of a pattern until none is left. Each deletion
    shortens the text, since a pattern that occurs lies inside it.
  * `replaceAll`: replaces the occurrences found from left to right.
-/

namespace Gridfall.Text

/-- The first place at or after `k` where `d` occurs, the text being read from place `k` on. -/
def findFrom (d : List Char) (k : Nat) : List Char → Option Nat
  | [] => if d.isEmpty then some k else none
  | c :: s => if d.isPrefixOf (c :: s) then some k else findFrom d (k + 1) s

/-- How many characters stand before the first occurrence of `d` in `s`. -/
def find? (d s : List Char) : Option Nat := findFrom d 0 s

/-- An occurrence lies inside the text. -/
theorem findFrom_le {d : List Char} {k j : Nat} {s : List Char} (h : findFrom d k s = some j) :
    k ≤ j ∧ j + d.length ≤ k + s.length := by
  induction s generalizing k with
  | nil =>
    unfold findFrom at h
    split at h
    · cases h
      simp_all
    · cases h
  | cons c s ih =>
    unfold findFrom at h
    split at h
    · next hp =>
      cases h
      have := (List.isPrefixOf_iff_prefix.mp hp).length_le
      simp at this ⊢
      omega
    · have := ih h
      simp
      omega

/-- The text before the first delimiter and the text after it. Without a delimiter, or with an
    empty one, everything stands in front. -/
def split (d s : List Char) : List Char × List Char :=
  if d.isEmpty then (s, [])
  else
    match find? d s with
    | some k => (s.take k, s.drop (k + d.length))
    | none => (s, [])

/-- The two parts of a text at a place counted from the front, or from the end when negative.
    Places outside the text are moved to its nearer end. -/
def cut (n : Int) (s : List Char) : List Char × List Char :=
  let k := (if n < 0 then n + s.length else n).toNat
  (s.take k, s.drop k)

/-- Deleting an occurrence of a non-empty pattern shortens the text. -/
theorem length_delete_lt {p s : List Char} {k : Nat} (hp : p ≠ []) (h : find? p s = some k) :
    (s.take k ++ s.drop (k + p.length)).length < s.length := by
  have h1 := findFrom_le h
  have h2 : 0 < p.length := List.length_pos_iff.mpr hp
  simp only [List.length_append, List.length_take, List.length_drop]
  omega

/-- Deletes the first occurrence of `p` until there is none; an empty `p` deletes nothing. -/
def removeAll (p s : List Char) : List Char :=
  if hp : p = [] then s
  else
    match h : find? p s with
    | none => s
    | some k =>
      have : (s.take k ++ s.drop (k + p.length)).length < s.length := length_delete_lt hp h
      removeAll p (s.take k ++ s.drop (k + p.length))
termination_by s.length
decreasing_by assumption

/-- Copies `s` and writes `t` for each occurrence of `d`, found from left to right; `skip` counts
    the characters of the current occurrence that are still to be passed over. -/
def replaceFrom (d t : List Char) : Nat → List Char → List Char
  | _, [] => []
  | skip + 1, _ :: s => replaceFrom d t skip s
  | 0, c :: s =>
    if d.isPrefixOf (c :: s) then t ++ replaceFrom d t (d.length - 1) s
    else c :: replaceFrom d t 0 s

/-- Replaces the occurrences of `d` by `t`; an empty `d` replaces nothing. -/
def replaceAll (d t s : List Char) : List Char :=
  if d.isEmpty then s else replaceFrom d t 0 s

/-- The text `s`, `n` times in a row. The empty text needs no repetition. -/
def repeated (n : Nat) (s : String) : String :=
  if s.isEmpty then "" else Nat.repeat (fun acc => acc ++ s) n ""

end Gridfall.Text
