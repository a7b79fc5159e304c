/-
  Texts are read back from their bytes. The bytes of a text are those of its characters, one after
  the other (`bytes_eq`). A character is written with one to four bytes, and each of the four forms
  is read as the character that it was written for (`exists_lead`): the bits that the bytes carry
  are put together again, and the second byte is in the range that its lead byte leaves for it,
  since a character is written in its shortest form and is no surrogate. So `scan` takes one
  character off after the other (`scan_encode`), and no byte of a text is malformed (`text?_bytes`).
-/
import Gridfall.Text.Utf8
import Mathlib.Tactic.Common

namespace Gridfall.Text.Utf8

/-! ## Bytes -/

theorem bytes_eq (s : String) : bytes s = s.toList.flatMap String.utf8EncodeChar := by
  have hlist : s.toByteArray = s.toList.utf8Encode := by
    rw [← String.toByteArray_ofList, String.ofList_toList]
  unfold bytes
  rw [hlist, List.utf8Encode, List.data_toByteArray]

theorem bytes_append (s t : String) : bytes (s ++ t) = bytes s ++ bytes t := by
  rw [bytes_eq, bytes_eq, bytes_eq, String.toList_append, List.flatMap_append]

/-- A continuation byte carries six bits. -/
theorem isTail_ofNat (v : Nat) : isTail (UInt8.ofNat (v % 64 + 128)) = true := by
  simp only [isTail, Bool.and_eq_true, decide_eq_true_eq, UInt8.le_iff_toNat_le,
    UInt8.toNat_ofNat', UInt8.reduceToNat]
  omega

theorem tailBits_ofNat (v : Nat) : tailBits (UInt8.ofNat (v % 64 + 128)) = v % 64 := by
  rw [tailBits, UInt8.toNat_ofNat']
  omega

/-- The second byte may follow, if the lead byte is none of the four that restrict it further or the
    byte keeps to the restriction. -/
theorem isSecond_of_toNat {b c : UInt8} (h : 0x80 ≤ c.toNat ∧ c.toNat ≤ 0xBF)
    (hshort3 : b.toNat = 0xE0 → 0xA0 ≤ c.toNat) (hsurrogate : b.toNat = 0xED → c.toNat ≤ 0x9F)
    (hshort4 : b.toNat = 0xF0 → 0x90 ≤ c.toNat) (hlast : b.toNat = 0xF4 → c.toNat ≤ 0x8F) :
    isSecond b c = true := by
  simp only [isSecond, secondRange, beq_iff_eq, ← UInt8.toNat_inj]
  split_ifs with h1 h2 h3 h4 <;>
  · simp only [Bool.and_eq_true, decide_eq_true_eq, UInt8.le_iff_toNat_le]
    simp only [UInt8.reduceToNat] at *
    omega

/-! ## The four forms -/

theorem lead_one {b : UInt8} (hb : b.toNat < 0x80) (r : List UInt8) :
    lead b r = (some (Char.ofNat b.toNat), 0) := by
  simp only [lead, UInt8.lt_iff_toNat_lt, UInt8.reduceToNat]
  rw [if_pos hb]

theorem lead_two {b c : UInt8} (hb : 0xC2 ≤ b.toNat ∧ b.toNat < 0xE0) (hc : isTail c = true)
    (r : List UInt8) :
    lead b (c :: r) = (some (Char.ofNat (b.toNat % 32 * 64 + tailBits c)), 1) := by
  simp only [lead, UInt8.lt_iff_toNat_lt, UInt8.reduceToNat]
  rw [if_neg (by omega), if_neg (by omega), if_pos hb.2, if_pos hc]

theorem lead_three {b c d : UInt8} (hb : 0xE0 ≤ b.toNat ∧ b.toNat < 0xF0)
    (hc : isSecond b c = true) (hd : isTail d = true) (r : List UInt8) :
    lead b (c :: d :: r) =
      (some (Char.ofNat (b.toNat % 16 * 4096 + tailBits c * 64 + tailBits d)), 2) := by
  simp only [lead, UInt8.lt_iff_toNat_lt, UInt8.reduceToNat]
  rw [if_neg (by omega), if_neg (by omega), if_neg (by omega), if_pos hb.2, hc, hd]
  rfl

theorem lead_four {b c d e : UInt8} (hb : 0xF0 ≤ b.toNat ∧ b.toNat < 0xF5)
    (hc : isSecond b c = true) (hd : isTail d = true) (he : isTail e = true) (r : List UInt8) :
    lead b (c :: d :: e :: r) =
      (some (Char.ofNat
        (b.toNat % 8 * 262144 + tailBits c * 4096 + tailBits d * 64 + tailBits e)), 3) := by
  simp only [lead, UInt8.lt_iff_toNat_lt, UInt8.reduceToNat]
  rw [if_neg (by omega), if_neg (by omega), if_neg (by omega), if_neg (by omega), if_pos hb.2, hc,
    hd, he]
  rfl

/-- The bytes of a character start with one as which, together with the others, the character is
    read. -/
theorem exists_lead (c : Char) :
    ∃ b tail, String.utf8EncodeChar c = b :: tail ∧
      ∀ rest, lead b (tail ++ rest) = (some c, tail.length) := by
  have hvalid : c.val.toNat < 0xD800 ∨ 0xDFFF < c.val.toNat ∧ c.val.toNat < 0x110000 := c.valid
  have hchar : ∀ n, n = c.val.toNat → (some (Char.ofNat n) : Option Char) = some c := by
    intro n hn
    rw [hn]
    exact congrArg some (Char.ofNat_toNat c)
  have hbyte : ∀ n < 256, (UInt8.ofNat n).toNat = n := fun n hn => UInt8.toNat_ofNat_of_lt' hn
  unfold String.utf8EncodeChar
  dsimp only
  -- From here on the character is known by its code alone. In the forms of three and four bytes the
  -- restricted second bytes are those of codes below the form, of surrogates, and past the last
  -- code.
  generalize c.val.toNat = v at *
  split_ifs with hone htwo hthree <;> refine ⟨_, _, rfl, fun rest => ?_⟩
  · have hb := hbyte v (by omega)
    rw [lead_one (by omega), hchar _ hb]
    rfl
  · have hb := hbyte (v / 64 % 32 + 192) (by omega)
    refine (lead_two (by omega) (isTail_ofNat v) rest).trans ?_
    rw [hb, tailBits_ofNat, hchar _ (by omega)]
    rfl
  · have hb := hbyte (v / 4096 % 16 + 224) (by omega)
    have hc := hbyte (v / 64 % 64 + 128) (by omega)
    have hsecond := isSecond_of_toNat (b := UInt8.ofNat (v / 4096 % 16 + 224))
      (c := UInt8.ofNat (v / 64 % 64 + 128)) (by omega) (by omega) (by omega) (by omega) (by omega)
    refine (lead_three (by omega) hsecond (isTail_ofNat v) rest).trans ?_
    rw [hb, tailBits_ofNat, tailBits_ofNat, hchar _ (by omega)]
    rfl
  · have hb := hbyte (v / 262144 % 8 + 240) (by omega)
    have hc := hbyte (v / 4096 % 64 + 128) (by omega)
    have hsecond := isSecond_of_toNat (b := UInt8.ofNat (v / 262144 % 8 + 240))
      (c := UInt8.ofNat (v / 4096 % 64 + 128)) (by omega) (by omega) (by omega) (by omega)
      (by omega)
    refine (lead_four (by omega) hsecond (isTail_ofNat (v / 64)) (isTail_ofNat v) rest).trans ?_
    rw [hb, tailBits_ofNat, tailBits_ofNat, tailBits_ofNat, hchar _ (by omega)]
    rfl

/-! ## Texts -/

theorem scan_encode (c : Char) (rest : List UInt8) :
    scan (String.utf8EncodeChar c ++ rest) = some c :: scan rest := by
  obtain ⟨b, tail, hencoded, hlead⟩ := exists_lead c
  rw [hencoded, List.cons_append, scan, hlead, List.drop_left]

theorem scan_flatMap (cs : List Char) :
    scan (cs.flatMap String.utf8EncodeChar) = cs.map some := by
  induction cs with
  | nil => rw [List.flatMap_nil, scan]; rfl
  | cons c cs ih => rw [List.flatMap_cons, scan_encode, ih, List.map_cons]

/-- A text is read back from its bytes. -/
theorem text?_bytes (s : String) : text? (bytes s) = some s := by
  have hall : (s.toList.map some).mapM id = some s.toList := by
    induction s.toList with
    | nil => rfl
    | cons c cs ih => simp [ih]
  rw [text?, bytes_eq, scan_flatMap, hall, Option.map_some, String.ofList_toList]

/-- A byte of a character is its code, or is none of an ASCII character. -/
theorem toNat_of_mem_encode {c : Char} {b : UInt8} (h : b ∈ String.utf8EncodeChar c) :
    b.toNat = c.toNat ∨ 0x80 ≤ b.toNat := by
  have hcode : c.toNat = c.val.toNat := rfl
  unfold String.utf8EncodeChar at h
  dsimp only at h
  split_ifs at h <;>
  · simp only [List.mem_cons, List.not_mem_nil, or_false, ← UInt8.toNat_inj,
      UInt8.toNat_ofNat'] at h
    omega

/-- Only a newline has the byte of a newline. -/
theorem newline_not_mem_bytes {s : String} (h : '\n' ∉ s.toList) : 10 ∉ bytes s := by
  rw [bytes_eq, List.mem_flatMap]
  intro hmem
  obtain ⟨c, hc, hbyte⟩ := hmem
  have hten : (10 : UInt8).toNat = 10 := rfl
  have hcode : c.toNat = 10 := by
    have hcases := toNat_of_mem_encode hbyte
    omega
  have hnewline : c = '\n' := by
    rw [← Char.ofNat_toNat c, hcode]
  exact h (hnewline ▸ hc)

end Gridfall.Text.Utf8
