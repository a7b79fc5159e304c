/-
  Literals as they are written. A text is written between quotes, with the quote and the backslash
  behind a backslash and line breaks as escapes (`escaped`); a number is written as a sign and
  digits. The readers give back what was written: the text itself (`readText_escaped`), and the
  integer brought into range (`readNumber_signed`).
-/
import Gridfall.Proofs.Text
import Gridfall.Source.Literal
import Mathlib.Data.Int.ModEq

namespace Gridfall

namespace Source

open Text.Decimal (digit? digits isDigit value)

/-! ## Written texts -/

/-- A character as it is written between quotes. -/
def escape (quote c : Char) : List Char :=
  if c = quote ∨ c = '\\' then ['\\', c]
  else if c = '\n' then ['\\', 'n']
  else if c = '\r' then ['\\', 'r']
  else [c]

/-- Characters as they are written between quotes. -/
def escaped (quote : Char) (cs : List Char) : List Char := cs.flatMap (escape quote)

theorem readText_escaped {quote : Char} (hslash : quote ≠ '\\') (hquote : unescape quote = quote)
    (cs rest : List Char) :
    readText quote false (escaped quote cs ++ quote :: rest) =
      some (cs, (escaped quote cs).length + 1) := by
  induction cs with
  | nil => simp [escaped, readText]
  | cons c cs ih =>
    have hnext : escaped quote (c :: cs) = escape quote c ++ escaped quote cs := List.flatMap_cons
    rw [hnext, List.append_assoc]
    unfold escape
    by_cases hmarked : c = quote ∨ c = '\\'
    · have hplain : unescape c = c := by
        rcases hmarked with rfl | rfl
        · exact hquote
        · rfl
      simp [hmarked, readText, Ne.symm hslash, ih, hplain]
    · obtain ⟨hc, hs⟩ := not_or.mp hmarked
      by_cases hnewline : c = '\n'
      · subst hnewline
        simp [hc, readText, Ne.symm hslash, ih, unescape]
      · by_cases hreturn : c = '\r'
        · subst hreturn
          simp [hc, readText, Ne.symm hslash, ih, unescape]
        · simp [hc, hs, hnewline, hreturn, readText, ih]

/-- A written text stays on its line. -/
theorem not_mem_escaped {quote : Char} {c : Char} (hc : c = '\n' ∨ c = '\r') (hquote : quote ≠ c)
    (cs : List Char) : c ∉ escaped quote cs := by
  have hslash : c ≠ '\\' := by rcases hc with rfl | rfl <;> decide
  have hletters : c ≠ 'n' ∧ c ≠ 'r' := by rcases hc with rfl | rfl <;> decide
  intro hmem
  obtain ⟨d, -, hd⟩ := List.mem_flatMap.mp hmem
  unfold escape at hd
  split at hd
  · next hmarked =>
    -- Neither the quote nor the mark before it ends a line.
    rcases hmarked with rfl | rfl
    · simp [hslash, Ne.symm hquote] at hd
    · simp [hslash] at hd
  split at hd
  · simp [hslash, hletters.1] at hd
  split at hd
  · simp [hslash, hletters.2] at hd
  · next hnewline hreturn =>
    obtain rfl : c = d := List.mem_singleton.mp hd
    exact hc.elim hnewline hreturn

/-! ## Written numbers -/

/-- The sign in front of the digits. -/
def minus (negative : Bool) : List Char := if negative then ['-'] else []

/-- The integer that a sign and digits spell. -/
def signedValue (negative : Bool) (ds : List Char) : Int :=
  if negative then -(value ds : Int) else value ds

theorem foldl_ofNat (ds : List Char) (n : Nat) :
    ds.foldl (fun m c => m * 10 + Int64.ofNat ((digit? c).getD 0)) (Int64.ofNat n) =
      Int64.ofNat (ds.foldl (fun m c => m * 10 + (digit? c).getD 0) n) := by
  induction ds generalizing n with
  | nil => rfl
  | cons c ds ih =>
    rw [List.foldl_cons, List.foldl_cons, ← ih, Int64.ofNat_add, Int64.ofNat_mul]
    rfl

section

variable {close : Char} (hclose : digit? close = none) (hminus : close ≠ '-')
include hclose hminus

theorem readNumber_digits {ds : List Char} (hds : ∀ c ∈ ds, isDigit c = true)
    (atStart negative : Bool) (n : Number) (rest : List Char) :
    readNumber atStart negative n (ds ++ close :: rest) =
      let m := ds.foldl (fun m c => m * 10 + Int64.ofNat ((digit? c).getD 0)) n
      some (if negative then -m else m, ds.length + 1) := by
  induction ds generalizing atStart n with
  | nil => simp [readNumber, hclose, hminus]
  | cons c ds ih =>
    obtain ⟨hc, hds⟩ := List.forall_mem_cons.mp hds
    have hd : digit? c = some (c.toNat - '0'.toNat) := if_pos hc
    rw [List.cons_append, readNumber, hd]
    dsimp only
    rw [ih hds]
    simp [hd]

/-- The number that is read is the integer that was written, brought into range. -/
theorem readNumber_signed {ds : List Char} (hds : ∀ c ∈ ds, isDigit c = true) (negative : Bool)
    (rest : List Char) :
    readNumber true false 0 (minus negative ++ ds ++ close :: rest) =
      some (Int64.ofInt (signedValue negative ds), (minus negative ++ ds).length + 1) := by
  have hfold : ds.foldl (fun m c => m * 10 + Int64.ofNat ((digit? c).getD 0)) (0 : Number) =
      Int64.ofNat (value ds) := foldl_ofNat ds 0
  cases negative with
  | false =>
    show readNumber true false 0 (ds ++ close :: rest) = _
    rw [readNumber_digits hclose hminus hds]
    dsimp only
    rw [hfold, if_neg Bool.false_ne_true]
    simp [minus, signedValue, Int64.ofInt_eq_ofNat]
  | true =>
    show (readNumber false true 0 (ds ++ close :: rest)).map _ = _
    rw [readNumber_digits hclose hminus hds]
    dsimp only
    rw [hfold, if_pos rfl]
    simp [minus, signedValue, Int64.ofInt_neg, Int64.ofInt_eq_ofNat]

end

theorem toInt_ofInt_modEq (z : Int) : (Int64.ofInt z).toInt ≡ z [ZMOD 2 ^ 64] := by
  rw [Int64.toInt_ofInt]
  exact Int.bmod_emod

/-- The text of a number is a sign and digits that spell it. -/
theorem text_signed (n : Number) :
    ∃ negative ds, n.text.toList = minus negative ++ ds ∧ (∀ c ∈ ds, isDigit c = true) ∧
      Int64.ofInt (signedValue negative ds) = n := by
  have hdigits : ∀ c ∈ digits n.toInt.natAbs, isDigit c = true :=
    fun c hc => Text.Decimal.isDigit_of_mem_digits hc
  by_cases hneg : n.toInt < 0
  · refine ⟨true, digits n.toInt.natAbs, ?_, hdigits, ?_⟩
    · rw [Number.text, Text.Decimal.ofInt, if_pos hneg, String.toList_ofList]
      rfl
    · have hsigned : signedValue true (digits n.toInt.natAbs) = n.toInt := by
        rw [signedValue, if_pos rfl, Text.Decimal.value_digits]
        omega
      rw [hsigned, Int64.ofInt_toInt]
  · refine ⟨false, digits n.toInt.natAbs, ?_, hdigits, ?_⟩
    · rw [Number.text, Text.Decimal.ofInt, if_neg hneg, Text.Decimal.ofNat, String.toList_ofList]
      rfl
    · have hsigned : signedValue false (digits n.toInt.natAbs) = n.toInt := by
        rw [signedValue, if_neg Bool.false_ne_true, Text.Decimal.value_digits]
        omega
      rw [hsigned, Int64.ofInt_toInt]

end Source

end Gridfall
