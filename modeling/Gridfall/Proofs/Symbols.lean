/-
  Pictures of cells, read backward. The letter that names an operator is the one by which the
  operator is pictured (`Operator.symbol_of_ofSymbol?`), so among the operators that have a name at
  all, a letter tells one from the others. `Cell.ofGlyph?` reads the picture of a cell; it finds
  every cell again but the values, and never takes a value for anything else (`ofGlyph?_glyph`).
-/
import Gridfall.Proofs.Grid

namespace Gridfall

namespace Operator

namespace Code

/-- A letter that names a code is the letter of the code, in either case unless it has one only. -/
theorem letter_of_ofLetter? {ch : Char} {c : Code} (h : ofLetter? ch = some c) :
    if c.hasOneLetter then c.letter = ch else c.letter = ch.toUpper := by
  unfold ofLetter? at h
  split at h
  case h_8 =>
    split at h
    case h_18 => cases h
    all_goals
      next hupper =>
      cases h
      exact hupper.symm
  all_goals
    cases h
    rfl

theorem hasOneLetter_of_alwaysPeeks {c : Code} (h : c.alwaysPeeks = true) :
    c.hasOneLetter = true := by
  simp [hasOneLetter, h]

end Code

/-- A letter is its capital, put in lower case if the letter is. -/
theorem recase_toUpper (ch : Char) :
    (if ch.isLower then ch.toUpper.toLower else ch.toUpper) = ch := by
  have hiff : ch.isLower = true ↔ ch.val ≥ 'a'.val ∧ ch.val ≤ 'z'.val :=
    Bool.and_eq_true_iff.trans (and_congr decide_eq_true_iff decide_eq_true_iff)
  split
  · next hlower =>
    rw [hiff] at hlower
    have hdown : ch.toUpper.val = ch.val + ('A'.val - 'a'.val) := by
      delta Char.toUpper
      rw [dif_pos hlower]
    have hupper : ch.toUpper.val ≥ 'A'.val ∧ ch.toUpper.val ≤ 'Z'.val := by
      simp [hdown, UInt32.le_iff_toNat_le] at hlower ⊢
      omega
    have hback : ch.toUpper.toLower.val = ch.toUpper.val + ('a'.val - 'A'.val) := by
      delta Char.toLower
      rw [dif_pos hupper]
    rw [← Char.val_inj, hback, hdown]
    simp [UInt32.add_assoc]
  · next hlower =>
    delta Char.toUpper
    rw [dif_neg (mt hiff.mpr hlower)]

/-- An operator is pictured by the letter that names it. -/
theorem symbol_of_ofSymbol? {ch : Char} {op : Operator} (h : ofSymbol? ch = some op) :
    op.symbol = ch := by
  obtain ⟨c, hc, rfl⟩ := Option.map_eq_some_iff.mp h
  have hletter := Code.letter_of_ofLetter? hc
  cases hone : c.hasOneLetter with
  | true =>
    rw [hone, if_pos rfl] at hletter
    simp only [symbol, hone, Bool.not_true, Bool.and_false, Bool.false_eq_true, if_false]
    exact hletter
  | false =>
    have hpeeks : c.alwaysPeeks = false := by
      rw [← Bool.not_eq_true]
      intro hpeeks
      rw [Code.hasOneLetter_of_alwaysPeeks hpeeks] at hone
      cases hone
    rw [hone, if_neg Bool.false_ne_true] at hletter
    simp only [symbol, hone, hpeeks, hletter, Bool.or_false, Bool.not_false, Bool.and_true]
    exact recase_toUpper ch

/-- Some letter names the operator. -/
def Named (op : Operator) : Prop := ∃ ch, ofSymbol? ch = some op

theorem named_iff {op : Operator} : op.Named ↔ ofSymbol? op.symbol = some op := by
  constructor
  · rintro ⟨ch, h⟩
    rw [symbol_of_ofSymbol? h]
    exact h
  · exact fun h => ⟨op.symbol, h⟩

instance (op : Operator) : Decidable op.Named := decidable_of_iff' _ named_iff

/-- The letters of operators are not used for pipes, empty cells or borders. -/
theorem symbol_apart (op : Operator) :
    Pipe.ofSymbol? op.symbol = none ∧ op.symbol ≠ ' ' ∧ op.symbol ≠ '#' := by
  obtain ⟨code, peek⟩ := op
  cases code <;> cases peek <;> decide

end Operator

theorem Pipe.ofSymbol?_symbol (p : Pipe) : ofSymbol? p.symbol = some p := by
  cases p <;> rfl

namespace Cell

/-- A cell other than an operator without a name. -/
def Named : Cell → Prop
  | operator op => op.Named
  | empty | border | data _ | pipe _ => True

instance : (c : Cell) → Decidable c.Named
  | operator op => inferInstanceAs (Decidable op.Named)
  | empty | border | data _ | pipe _ => inferInstanceAs (Decidable True)

/-- The cell of a picture; a picture of a value does not tell which. -/
def ofGlyph? (ch : Char) : Option Cell :=
  if ch = ' ' then some .empty else if ch = '#' then some .border else ofSymbol? ch

/-- Every cell is known from its picture, except that values are only known to be values. -/
theorem ofGlyph?_glyph {c : Cell} (hc : c.Named) :
    ofGlyph? c.glyph = if c.isData then none else some c := by
  cases c with
  | empty | border => rfl
  | data d =>
    obtain ⟨value, drift⟩ := d
    cases value <;> rfl
  | operator op =>
    obtain ⟨hpipe, hspace, hborder⟩ := op.symbol_apart
    have hop := Operator.named_iff.mp hc
    simp [ofGlyph?, glyph, ofSymbol?, isData, datum?, hspace, hborder, hpipe, hop]
  | pipe p => cases p <;> rfl

end Cell

/-- Every operator of the grid has a name. -/
def Grid.Named (g : Grid) : Prop := ∀ p c, g.get? p = some c → c.Named

instance (g : Grid) : Decidable g.Named := decidable_of_iff' _ Grid.forall_get?_iff

end Gridfall
