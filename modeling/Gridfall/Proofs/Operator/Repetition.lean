/-
  Repeated texts. The count of a repetition is the product of the numbers among the operands, and it
  wraps around before the size of the result is looked at (`repetition_eq`). `exactRepetition` is
  the repetition by the product as an integer. The two agree if and only if there is not just one
  text, the text is empty, the product fits a number, or both counts mean the same
  (`repetition_exact_iff`).
-/
import Gridfall.Proofs.Operator.Faults
import Mathlib.Tactic.Linarith

namespace Gridfall

namespace Text

theorem toList_repeat (s : String) (n : Nat) :
    (Nat.repeat (fun acc => acc ++ s) n "").toList = (List.replicate n s.toList).flatten := by
  induction n with
  | zero => rfl
  | succ n ih =>
    rw [List.replicate_succ', List.flatten_append, ← ih, List.flatten_singleton,
      ← String.toList_append]
    rfl

theorem repeated_eq (n : Nat) (s : String) :
    repeated n s = String.ofList (List.replicate n s.toList).flatten := by
  unfold repeated
  split
  · next hempty =>
    rw [String.isEmpty_iff.mp hempty]
    simp
  · rw [← toList_repeat, String.ofList_toList]

end Text

namespace Operator

open Text

/-! ## Exact repetition -/

/-- The texts among the operands. -/
def texts (vs : List Value) : List String := vs.filterMap Value.text?

/-- How often an operand asks for the text. -/
def times : Value → Int
  | .number n => n.toInt
  | .none | .text _ | .input | .output => 1

/-- The product of the numbers among the operands, as an integer. -/
def exactProduct (vs : List Value) : Int := (vs.map times).prod

/-- The one text among the operands. -/
def theText (vs : List Value) : Except Fault String :=
  match texts vs with
  | [s] => .ok s
  | _ => .error .repeatOperands

/-- A text as often as an integer says: not at all below one, and not beyond a size of
    2 ^ 24 bytes. -/
def bounded (s : String) (z : Int) : Except Fault String :=
  if z < 1 then .ok ""
  else if s.utf8ByteSize * z ≤ 2 ^ 24 then
    .ok (String.ofList (List.replicate z.toNat s.toList).flatten)
  else .error .overflow

/-- The one text among the operands, as often as the product of the numbers says. -/
def exactRepetition (vs : List Value) : Except Fault String :=
  (theText vs).bind fun s => bounded s (exactProduct vs)

/-! ## Operands -/

/-- A number or a text. -/
def IsScalar (v : Value) : Prop := KindSet.scalars.holds v = true

instance (v : Value) : Decidable (IsScalar v) := inferInstanceAs (Decidable (_ = true))

-- The modulus as a power, the form in which `Int64.toInt_mul` has it.
theorem toInt_ofInt (z : Int) : (Int64.ofInt z).toInt = z.bmod (2 ^ 64) := Int64.toInt_ofInt

/-- A product wraps around no matter how its factors are grouped. -/
theorem ofInt_mul_toInt (n m : Number) (z : Int) :
    Int64.ofInt ((n * m).toInt * z) = Int64.ofInt (n.toInt * (m.toInt * z)) := by
  rw [← Int64.toInt_inj, toInt_ofInt, toInt_ofInt, Int64.toInt_mul, Int.bmod_mul_bmod,
    Int.mul_assoc]

theorem repetitionParts_some {vs : List Value} (h : ∀ v ∈ vs, IsScalar v) (s : String)
    (n : Number) :
    repetitionParts vs (some s) n =
      if texts vs = [] then .ok (s, Int64.ofInt (n.toInt * exactProduct vs))
      else .error .repeatOperands := by
  induction vs generalizing n with
  | nil => simp [repetitionParts, texts, exactProduct]
  | cons v vs ih =>
    obtain ⟨hv, hvs⟩ := List.forall_mem_cons.mp h
    cases v with
    | number m =>
      rw [repetitionParts, ih hvs, ofInt_mul_toInt]
      rfl
    | text t => rfl
    | none | input | output => cases hv

theorem repetitionParts_none {vs : List Value} (h : ∀ v ∈ vs, IsScalar v) (n : Number) :
    repetitionParts vs none n =
      (theText vs).map fun s => (s, Int64.ofInt (n.toInt * exactProduct vs)) := by
  induction vs generalizing n with
  | nil => rfl
  | cons v vs ih =>
    obtain ⟨hv, hvs⟩ := List.forall_mem_cons.mp h
    cases v with
    | number m =>
      rw [repetitionParts, ih hvs, ofInt_mul_toInt]
      rfl
    | text s =>
      rw [repetitionParts, repetitionParts_some hvs]
      have htexts : texts (.text s :: vs) = s :: texts vs := rfl
      have hproduct : exactProduct (.text s :: vs) = exactProduct vs := Int.one_mul _
      rw [theText, htexts, hproduct]
      cases texts vs <;> rfl
    | none | input | output => cases hv

/-- A repetition counts with the wrapped product. -/
theorem repetition_eq {vs : List Value} (h : ∀ v ∈ vs, IsScalar v) :
    repetition vs = (theText vs).bind fun s => bounded s ((exactProduct vs).bmod (2 ^ 64)) := by
  have hone : (1 : Number).toInt * exactProduct vs = exactProduct vs := Int.one_mul _
  unfold repetition
  rw [repetitionParts_none h, hone, ← toInt_ofInt]
  generalize Int64.ofInt (exactProduct vs) = n
  cases theText vs with
  | error f => rfl
  | ok s =>
    have hless : n < 1 ↔ n.toInt < 1 := Int64.lt_iff_toInt_lt
    show (if n < 1 then _ else _) = bounded s n.toInt
    unfold bounded
    by_cases hn : n.toInt < 1
    · rw [if_pos (hless.mpr hn), if_pos hn]
    · have hcast : (n.toInt.toNat : Int) = n.toInt := Int.toNat_of_nonneg (by omega)
      have hsize : s.utf8ByteSize * n.toInt.toNat ≤ repetitionLimit ↔
          s.utf8ByteSize * n.toInt ≤ 2 ^ 24 := by
        rw [← hcast, ← Nat.cast_mul, Int.toNat_natCast, repetitionLimit]
        omega
      rw [if_neg (mt hless.mp hn), if_neg hn, repeated_eq]
      simp only [hsize]

/-! ## Agreement -/

theorem bounded_empty (z : Int) : bounded "" z = .ok "" := by
  unfold bounded
  split
  · rfl
  · simp

/-- A text that is not empty disappears only when it is repeated less than once. -/
theorem bounded_eq_nothing_iff {s : String} (hs : s ≠ "") {z : Int} :
    bounded s z = .ok "" ↔ z < 1 := by
  unfold bounded
  split
  · next hz => simp [hz]
  · next hz =>
    have hz' : z.toNat ≠ 0 := by omega
    split
    · simp [hs, hz, hz']
    · simp [hz]

theorem bounded_eq_overflow_iff {s : String} {z : Int} :
    bounded s z = .error .overflow ↔ 1 ≤ z ∧ 2 ^ 24 < s.utf8ByteSize * z := by
  unfold bounded
  split
  · simp
    omega
  · split
    · simp
      omega
    · simp
      omega

/-- A wrapped integer is the integer itself, or the integer is beyond all numbers. -/
theorem bmod_cases (z : Int) :
    (-2 ^ 63 ≤ z.bmod (2 ^ 64) ∧ z.bmod (2 ^ 64) < 2 ^ 63) ∧
      (z.bmod (2 ^ 64) = z ∨ z < -2 ^ 63 ∨ 2 ^ 63 ≤ z) := by
  have hlow := Int.le_bmod (x := z) (m := 2 ^ 64) (by decide)
  have hhigh := Int.bmod_lt (x := z) (m := 2 ^ 64) (by decide)
  refine ⟨by omega, ?_⟩
  by_cases hz : -2 ^ 63 ≤ z ∧ z < 2 ^ 63
  · exact .inl (Int.bmod_eq_of_le (by omega) (by omega))
  · omega

/-- Counting with `w` in place of `z` gives the right answer: the text is empty, the counts are the
    same, both are below one, or both go beyond the limit. -/
def Harmless (s : String) (w z : Int) : Prop :=
  s = "" ∨ w = z ∨ z < 1 ∧ w < 1 ∨ 1 ≤ z ∧ 2 ^ 24 < s.utf8ByteSize * w

theorem bounded_wrapped_iff (s : String) (z : Int) :
    bounded s (z.bmod (2 ^ 64)) = bounded s z ↔ Harmless s (z.bmod (2 ^ 64)) z := by
  obtain ⟨hrange, hcases⟩ := bmod_cases z
  generalize z.bmod (2 ^ 64) = w at hrange hcases
  by_cases hs : s = ""
  · simp [hs, bounded_empty, Harmless]
  rcases hcases with rfl | hlow | hhigh
  · simp [Harmless]
  · have hnothing : bounded s z = .ok "" := (bounded_eq_nothing_iff hs).mpr (by omega)
    rw [hnothing, bounded_eq_nothing_iff hs]
    simp only [Harmless, hs, false_or]
    omega
  · have hsize : 1 ≤ s.utf8ByteSize :=
      Nat.one_le_iff_ne_zero.mpr (mt String.utf8ByteSize_eq_zero_iff.mp hs)
    have hbeyond : 2 ^ 24 < s.utf8ByteSize * z := by nlinarith
    have hoverflow : bounded s z = .error .overflow :=
      bounded_eq_overflow_iff.mpr ⟨by omega, hbeyond⟩
    have hpositive : 2 ^ 24 < s.utf8ByteSize * w → 1 ≤ w := by
      intro hlarge
      by_contra hless
      nlinarith
    rw [hoverflow, bounded_eq_overflow_iff]
    simp only [Harmless, hs, false_or]
    constructor
    · rintro ⟨-, hlarge⟩
      exact .inr (.inr ⟨by omega, hlarge⟩)
    · rintro (hsame | hsmall | ⟨-, hlarge⟩)
      · omega
      · omega
      · exact ⟨hpositive hlarge, hlarge⟩

theorem map_below_text_inj {r r' : Except Fault String} :
    r.map (fun s => Emission.below (.text s)) = r'.map (fun s => Emission.below (.text s)) ↔
      r = r' := by
  cases r <;> cases r' <;> simp [Except.map, Emission.below, Datum.text, Datum.fresh]

theorem bind_eq_iff {r : Except Fault String} {f f' : String → Except Fault String} :
    r.bind f = r.bind f' ↔ ∀ s, r = .ok s → f s = f' s := by
  cases r <;> simp [Except.bind]

/-- On two or three numbers and texts, multiplication gives the exact repetition if and only if the
    wrapped count does no harm to the one text. -/
theorem repetition_exact_iff {index : Nat} (hodd : index % 2 = 1) {near : Sides (Option Datum)}
    (hscalars : ∀ v ∈ operandsOf index near, IsScalar v) (ctx : Context) :
    (runJoint .multiply index near ctx).1 =
        (exactRepetition (operandsOf index near)).map (fun s => .below (.text s)) ↔
      ∀ s, theText (operandsOf index near) = .ok s →
        Harmless s ((exactProduct (operandsOf index near)).bmod (2 ^ 64))
          (exactProduct (operandsOf index near)) := by
  have hrun : (runJoint .multiply index near ctx).1 =
      (repetition (operandsOf index near)).map (fun s => .below (.text s)) := by
    simp only [runJoint, hodd]
    rfl
  rw [hrun, map_below_text_inj, repetition_eq hscalars, exactRepetition, bind_eq_iff]
  simp only [bounded_wrapped_iff]

/-- Neighbours with a text between two numbers. -/
def between (n : Number) (s : String) (m : Number) : Sides (Option Datum) :=
  ⟨some (.number n), some (.text s), some (.number m), none⟩

/-- The product `5 * 2 ^ 62` fits no number, and still the answer is right: the wrapped count is
    `2 ^ 62`. -/
theorem repetition_exact_iff_beyond :
    (∀ v ∈ operandsOf 1 (between 5 "a" 0x4000000000000000), IsScalar v) ∧
      (runJoint .multiply 1 (between 5 "a" 0x4000000000000000) ⟨{}, ⟨0⟩, 0, none, #[]⟩).1 =
        .error .overflow := by
  have hscalars : ∀ v ∈ operandsOf 1 (between 5 "a" 0x4000000000000000), IsScalar v := by decide
  refine ⟨hscalars, ?_⟩
  rw [(repetition_exact_iff rfl hscalars ⟨{}, ⟨0⟩, 0, none, #[]⟩).mpr ?_]
  · decide
  · rintro s ⟨⟩
    exact .inr (.inr (.inr ⟨by decide, by decide⟩))

/-- The product `2 ^ 64` wraps to zero. So the answer is the empty text, though the result would be
    far beyond the limit. -/
theorem repetition_vanishes :
    (∀ v ∈ operandsOf 1 (between 0x100000000 "ab" 0x100000000), IsScalar v) ∧
      exactRepetition (operandsOf 1 (between 0x100000000 "ab" 0x100000000)) = .error .overflow ∧
      (runJoint .multiply 1 (between 0x100000000 "ab" 0x100000000)
        ⟨{}, ⟨0⟩, 0, none, #[]⟩).1 = .ok (.below (.text "")) := by
  refine ⟨by decide, by decide, by decide⟩

end Operator

end Gridfall
