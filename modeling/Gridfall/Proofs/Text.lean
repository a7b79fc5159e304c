/-
  What the text functions give on texts that were put together: words, lines and pieces are found
  again where they were joined (`word_append`, `firstLine_append`, `pieces_flatMap`), and a number
  is read back from its decimal digits (`word?_digits`, `ofChars?_text`).

  `words` is all the words of a text at once. Taking one word after the other finds the same ones,
  since a text is blank or has a first word (`blank_or_firstWord`).
-/
import Gridfall.Number
import Mathlib.Data.List.TakeDrop
import Mathlib.Data.List.TakeWhile

namespace Gridfall.Text

/-! ## Words -/

/-- A word ends where a blank follows it. -/
theorem word_append {w : List Char} (hw : ∀ c ∈ w, isBlank c = false) {b : Char}
    (hb : isBlank b = true) (cs : List Char) : word (w ++ b :: cs) = (w, b :: cs) := by
  have hsolid : ∀ c ∈ w, (!isBlank c) = true := fun c hc => by simp [hw c hc]
  unfold word
  rw [List.span_eq_takeWhile_dropWhile, List.takeWhile_append_of_pos hsolid,
    List.dropWhile_append_of_pos hsolid]
  simp [hb]

theorem word_of_solid {w : List Char} (hw : ∀ c ∈ w, isBlank c = false) : word w = (w, []) := by
  have hsolid : ∀ c ∈ w, (!isBlank c) = true := fun c hc => by simp [hw c hc]
  unfold word
  rw [List.span_eq_takeWhile_dropWhile]
  exact Prod.ext (List.takeWhile_eq_self_iff.mpr hsolid) (List.dropWhile_eq_nil_iff.mpr hsolid)

/-- There is nothing to trim in front of a word. -/
theorem trimStart_eq_self {cs : List Char} (h : ∀ c ∈ cs.head?, isBlank c = false) :
    trimStart cs = cs := by
  cases cs with
  | nil => rfl
  | cons c cs =>
    have hc : isBlank c = false := h c rfl
    exact List.dropWhile_cons_of_neg (by simp [hc])

theorem trimStart_space (cs : List Char) : trimStart (' ' :: cs) = trimStart cs :=
  List.dropWhile_cons_of_pos (by decide)

/-- The words of a text, with any blanks between them. -/
def words (cs : List Char) : List (List Char) := (cs.splitOnP isBlank).filter fun w => !w.isEmpty

/-- A blank belongs to no word, and no word goes past it. -/
theorem words_append {b : Char} (hb : isBlank b = true) (xs ys : List Char) :
    words (xs ++ b :: ys) = words xs ++ words ys := by
  unfold words
  rw [List.splitOnP_append_cons xs ys hb, List.filter_append]

theorem words_cons {b : Char} (hb : isBlank b = true) (cs : List Char) :
    words (b :: cs) = words cs := words_append hb [] cs

theorem words_of_solid {w : List Char} (hne : w ≠ []) (hw : ∀ c ∈ w, isBlank c = false) :
    words w = [w] := by
  unfold words
  rw [List.splitOnP_eq_singleton hw]
  simp [hne]

theorem words_blank_append {gap : List Char} (hgap : ∀ c ∈ gap, isBlank c = true) (cs : List Char) :
    words (gap ++ cs) = words cs := by
  induction gap with
  | nil => rfl
  | cons b gap ih =>
    obtain ⟨hb, hgap⟩ := List.forall_mem_cons.mp hgap
    rw [List.cons_append, words_cons hb, ih hgap]

/-- Blanks, and then a word that ends where a blank follows it or the text ends. -/
structure FirstWord (cs gap w rest : List Char) : Prop where
  text : cs = gap ++ (w ++ rest)
  gap : ∀ c ∈ gap, isBlank c = true
  nonempty : w ≠ []
  solid : ∀ c ∈ w, isBlank c = false
  ended : ∀ c ∈ rest.head?, isBlank c = true

theorem FirstWord.words {cs gap w rest : List Char} (h : FirstWord cs gap w rest) :
    words cs = w :: words rest := by
  rw [h.text, words_blank_append h.gap]
  cases rest with
  | nil => rw [List.append_nil, words_of_solid h.nonempty h.solid]; rfl
  | cons b rest =>
    have hb := h.ended b rfl
    rw [words_append hb, words_of_solid h.nonempty h.solid, words_cons hb]
    rfl

/-- The first word is the one that is taken. -/
theorem FirstWord.word_trimStart {cs gap w rest : List Char} (h : FirstWord cs gap w rest) :
    word (trimStart cs) = (w, rest) := by
  have hhead : ∀ c ∈ (w ++ rest).head?, isBlank c = false := by
    obtain ⟨d, ds, rfl⟩ := List.exists_cons_of_ne_nil h.nonempty
    simpa using h.solid d List.mem_cons_self
  have htrim : trimStart cs = trimStart (w ++ rest) := by
    rw [h.text]
    exact List.dropWhile_append_of_pos h.gap
  rw [htrim, trimStart_eq_self hhead]
  cases rest with
  | nil => rw [List.append_nil, word_of_solid h.solid]
  | cons b rest => exact word_append h.solid (h.ended b rfl) rest

/-- What is blank throughout has no word, and everything else has a first one. -/
theorem blank_or_firstWord (cs : List Char) :
    (∀ c ∈ cs, isBlank c = true) ∨ ∃ gap w rest, FirstWord cs gap w rest := by
  by_cases hblank : ∀ c ∈ cs, isBlank c = true
  · exact .inl hblank
  · refine .inr ⟨cs.takeWhile isBlank, (cs.dropWhile isBlank).takeWhile (!isBlank ·),
      (cs.dropWhile isBlank).dropWhile (!isBlank ·), ?_, ?_, ?_, ?_, ?_⟩
    · rw [List.takeWhile_append_dropWhile, List.takeWhile_append_dropWhile]
    · exact fun c hc => List.mem_takeWhile_imp hc
    · have hne : cs.dropWhile isBlank ≠ [] := by simpa [List.dropWhile_eq_nil_iff] using hblank
      have hhead := List.head_dropWhile_not isBlank hne
      obtain ⟨c, ds, hds⟩ := List.exists_cons_of_ne_nil hne
      simp only [hds, List.head_cons] at hhead ⊢
      simp [hhead]
    · intro c hc
      simpa using List.mem_takeWhile_imp hc
    · intro c hc
      have := List.head?_dropWhile_not (!isBlank ·) (cs.dropWhile isBlank)
      rw [hc] at this
      simpa using this

theorem words_eq_nil_iff {cs : List Char} : words cs = [] ↔ ∀ c ∈ cs, isBlank c = true := by
  constructor
  · intro hnone
    rcases blank_or_firstWord cs with hblank | ⟨gap, w, rest, hfirst⟩
    · exact hblank
    · cases hfirst.words.symm.trans hnone
  · intro hblank
    have hnone := words_blank_append hblank []
    rwa [List.append_nil] at hnone

/-! ## Lines -/

section

variable {l : List Char} (h : '\n' ∉ l) (cs : List Char)
include h

theorem bne_newline : ∀ c ∈ l, (c != '\n') = true := by
  intro c hc
  rw [bne_iff_ne]
  rintro rfl
  exact h hc

theorem firstLine_append : firstLine (l ++ '\n' :: cs) = l := by
  unfold firstLine
  rw [List.takeWhile_append_of_pos (bne_newline h)]
  simp

theorem afterFirstLine_append : afterFirstLine (l ++ '\n' :: cs) = cs := by
  unfold afterFirstLine
  rw [List.dropWhile_append_of_pos (bne_newline h)]
  simp

end

theorem dropTrailing_eq_self {c : Char} {cs : List Char} (h : cs.getLast? ≠ some c) :
    dropTrailing c cs = cs := by
  rw [← List.head?_reverse] at h
  unfold dropTrailing
  cases hcs : cs.reverse with
  | nil => simpa using hcs
  | cons d ds =>
    rw [hcs] at h
    rw [List.dropWhile_cons_of_neg (by simpa using h), ← hcs, List.reverse_reverse]

/-! ## Pieces -/

theorem pieces_of_not_mem {c : Char} {p : List Char} (h : c ∉ p) : pieces c p = [p] := by
  induction p with
  | nil => rfl
  | cons d p ih =>
    obtain ⟨hd, hp⟩ := not_or.mp (List.mem_cons.not.mp h)
    simp [pieces, ih hp, Ne.symm hd]

theorem pieces_append {c : Char} {p : List Char} (h : c ∉ p) (cs : List Char) :
    pieces c (p ++ c :: cs) = p :: pieces c cs := by
  induction p with
  | nil => simp [pieces]
  | cons d p ih =>
    obtain ⟨hd, hp⟩ := not_or.mp (List.mem_cons.not.mp h)
    simp [pieces, ih hp, Ne.symm hd]

/-- A text is cut where its pieces were joined. -/
theorem pieces_flatMap {c : Char} {p : List Char} {ps : List (List Char)}
    (h : ∀ q ∈ p :: ps, c ∉ q) : pieces c (p ++ ps.flatMap (c :: ·)) = p :: ps := by
  induction ps generalizing p with
  | nil =>
    rw [List.flatMap_nil, List.append_nil]
    exact pieces_of_not_mem (h p List.mem_cons_self)
  | cons q ps ih =>
    obtain ⟨hp, hps⟩ := List.forall_mem_cons.mp h
    rw [List.flatMap_cons, List.cons_append, pieces_append hp, ih hps]

theorem intercalate_singleton (c : Char) (p : List Char) (ps : List (List Char)) :
    [c].intercalate (p :: ps) = p ++ ps.flatMap (c :: ·) := by
  induction ps generalizing p with
  | nil => simp
  | cons q ps ih =>
    rw [List.intercalate_cons_cons, ih, List.flatMap_cons, List.append_assoc]
    rfl

theorem pieces_intercalate {c : Char} {ps : List (List Char)} (hne : ps ≠ [])
    (h : ∀ p ∈ ps, c ∉ p) : pieces c ([c].intercalate ps) = ps := by
  obtain ⟨p, ps, rfl⟩ := List.exists_cons_of_ne_nil hne
  rw [intercalate_singleton, pieces_flatMap h]

/-! ## Decimals -/

namespace Decimal

theorem isDigit_iff {c : Char} : isDigit c = true ↔ 48 ≤ c.toNat ∧ c.toNat ≤ 57 := by
  unfold isDigit
  rw [Bool.and_eq_true, decide_eq_true_iff, decide_eq_true_iff]
  exact Iff.rfl

theorem not_isBlank_of_isDigit {c : Char} (h : isDigit c = true) : isBlank c = false := by
  obtain ⟨hlow, hhigh⟩ := isDigit_iff.mp h
  rw [← Bool.not_eq_true, isBlank]
  simp only [Bool.or_eq_true, Bool.and_eq_true, decide_eq_true_eq, beq_iff_eq]
  omega

theorem isDigit_of_mem_digits {n : Nat} {c : Char} (h : c ∈ digits n) : isDigit c = true :=
  Nat.isDigit_of_mem_toDigits (by decide) (by decide) h

theorem not_mem_digits {c : Char} (h : isDigit c = false) (n : Nat) : c ∉ digits n := by
  intro hc
  rw [isDigit_of_mem_digits hc] at h
  cases h

theorem digits_ne_nil (n : Nat) : digits n ≠ [] := Nat.toDigits_ne_nil

theorem foldl_digits {ds : List Char} (h : ∀ c ∈ ds, isDigit c = true) (acc : Nat) :
    ds.foldl (fun acc c => acc * 10 + (digit? c).getD 0) acc = Nat.ofDigitChars 10 ds acc := by
  induction ds generalizing acc with
  | nil => simp
  | cons c ds ih =>
    obtain ⟨hc, hds⟩ := List.forall_mem_cons.mp h
    rw [Nat.ofDigitChars_cons, ← ih hds, List.foldl_cons, digit?, if_pos hc, Nat.mul_comm]
    rfl

theorem value_digits (n : Nat) : value (digits n) = n :=
  (foldl_digits (fun _ hc => isDigit_of_mem_digits hc) 0).trans Nat.ofDigitChars_ten_toDigits

theorem digits?_digits (n : Nat) : digits? (digits n) = some n := by
  have hall : ∀ c ∈ digits n, isDigit c = true := fun c hc => isDigit_of_mem_digits hc
  unfold digits?
  rw [if_neg (by simpa [digits_ne_nil] using hall), value_digits]

theorem unsigned?_digits (n : Nat) : unsigned? (digits n) = some n := by
  have hplus : '+' ∉ digits n := not_mem_digits rfl n
  unfold unsigned?
  split
  · next ds hds => exact absurd (hds ▸ List.mem_cons_self) hplus
  · exact digits?_digits n

/-- A word is read back from its digits. -/
theorem word?_digits {n : Nat} (h : n < UInt64.size) : word? (digits n) = some n.toUInt64 := by
  rw [word?, unsigned?_digits]
  exact if_pos h

theorem signed?_digits (n : Nat) : signed? (digits n) = some (n : Int) := by
  have hminus : '-' ∉ digits n := not_mem_digits rfl n
  have hplus : '+' ∉ digits n := not_mem_digits rfl n
  unfold signed?
  split
  · next ds hds => exact absurd (hds ▸ List.mem_cons_self) hminus
  · next ds hds => exact absurd (hds ▸ List.mem_cons_self) hplus
  · rw [digits?_digits]
    rfl

theorem mem_ofInt {z : Int} {c : Char} (h : c ∈ (ofInt z).toList) : isDigit c = true ∨ c = '-' := by
  unfold ofInt at h
  split at h
  · rw [String.toList_ofList] at h
    rcases List.mem_cons.mp h with hc | hc
    · exact .inr hc
    · exact .inl (isDigit_of_mem_digits hc)
  · rw [ofNat, String.toList_ofList] at h
    exact .inl (isDigit_of_mem_digits h)

theorem signed?_ofInt (z : Int) : signed? (ofInt z).toList = some z := by
  unfold ofInt
  split
  · rw [String.toList_ofList, signed?, digits?_digits]
    show some (-(z.natAbs : Int)) = some z
    congr 1
    omega
  · rw [ofNat, String.toList_ofList, signed?_digits]
    congr 1
    omega

/-- An optional sign and digits, at least one, and the integer that they spell. -/
inductive Spells : List Char → Int → Prop
  | plain {ds : List Char} (hne : ds ≠ []) (hds : ∀ c ∈ ds, isDigit c = true) :
      Spells ds (Nat.ofDigitChars 10 ds 0)
  | plus {ds : List Char} (hne : ds ≠ []) (hds : ∀ c ∈ ds, isDigit c = true) :
      Spells ('+' :: ds) (Nat.ofDigitChars 10 ds 0)
  | minus {ds : List Char} (hne : ds ≠ []) (hds : ∀ c ∈ ds, isDigit c = true) :
      Spells ('-' :: ds) (-(Nat.ofDigitChars 10 ds 0 : Nat))

theorem digits?_eq_some_iff {ds : List Char} {n : Nat} :
    digits? ds = some n ↔
      (ds ≠ [] ∧ ∀ c ∈ ds, isDigit c = true) ∧ Nat.ofDigitChars 10 ds 0 = n := by
  unfold digits?
  by_cases h : ds ≠ [] ∧ ∀ c ∈ ds, isDigit c = true
  · rw [if_neg (by simpa using h), value, foldl_digits h.2, Option.some_inj]
    exact (and_iff_right h).symm
  · rw [if_pos (by simpa [imp_iff_not_or] using h)]
    simp [h]

theorem signed?_eq_some_iff {cs : List Char} {z : Int} : signed? cs = some z ↔ Spells cs z := by
  constructor
  · intro h
    unfold signed? at h
    split at h
    all_goals
      obtain ⟨z', hz', rfl⟩ := Option.map_eq_some_iff.mp h
      obtain ⟨n, hn, hcast⟩ := Option.bind_eq_some_iff.mp hz'
      cases hcast
      obtain ⟨⟨hne, hds⟩, rfl⟩ := digits?_eq_some_iff.mp hn
    · exact .minus hne hds
    · exact .plus hne hds
    · exact .plain hne hds
  · intro h
    cases h with
    | plain hne hds =>
      unfold signed?
      split
      · cases hds '-' List.mem_cons_self
      · cases hds '+' List.mem_cons_self
      · rw [digits?_eq_some_iff.mpr ⟨⟨hne, hds⟩, rfl⟩]
        rfl
    | plus hne hds =>
      rw [signed?, digits?_eq_some_iff.mpr ⟨⟨hne, hds⟩, rfl⟩]
      rfl
    | minus hne hds =>
      rw [signed?, digits?_eq_some_iff.mpr ⟨⟨hne, hds⟩, rfl⟩]
      rfl

end Decimal

end Gridfall.Text

namespace Gridfall.Number

theorem ofInt?_toInt (n : Number) : ofInt? n.toInt = some n := by
  have hlow := Int64.le_toInt n
  have hhigh := Int64.toInt_lt n
  unfold ofInt?
  rw [if_pos ⟨by omega, by omega⟩, Int64.ofInt_toInt]

theorem ofInt?_eq_some_iff {z : Int} {n : Number} : ofInt? z = some n ↔ z = n.toInt := by
  constructor
  · intro h
    unfold ofInt? at h
    split at h
    · next hrange =>
      cases h
      rw [Int64.toInt_ofInt_of_le (by omega) (by omega)]
    · cases h
  · rintro rfl
    exact ofInt?_toInt n

/-- What is read as a number is a decimal that spells it. -/
theorem ofChars?_eq_some_iff {cs : List Char} {n : Number} :
    ofChars? cs = some n ↔ Text.Decimal.Spells cs n.toInt := by
  rw [ofChars?, Option.bind_eq_some_iff, ← Text.Decimal.signed?_eq_some_iff]
  constructor
  · rintro ⟨z, hz, hn⟩
    rwa [← ofInt?_eq_some_iff.mp hn]
  · exact fun h => ⟨n.toInt, h, ofInt?_toInt n⟩

theorem ofText?_eq_some_iff {s : String} {n : Number} :
    ofText? s = some n ↔ Text.Decimal.Spells s.toList n.toInt := ofChars?_eq_some_iff

/-- A number is read back from its text. -/
theorem ofChars?_text (n : Number) : ofChars? n.text.toList = some n := by
  unfold ofChars? text
  rw [Text.Decimal.signed?_ofInt]
  exact ofInt?_toInt n

theorem not_isBlank_of_mem_text {n : Number} {c : Char} (h : c ∈ n.text.toList) :
    Text.isBlank c = false := by
  rcases Text.Decimal.mem_ofInt h with hc | rfl
  · exact Text.Decimal.not_isBlank_of_isDigit hc
  · rfl

end Gridfall.Number
