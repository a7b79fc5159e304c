/-
  Suites are read back from their text. `Case.text` writes a case as a header line and its program,
  and `Written` joins the texts of a list of cases. Reading gives the cases again, each program with
  one more newline (`read_written`). A suite without cases is the one exception: its text is empty,
  and a suite has to start with a marker (`read_nothing_written`).

  A text is cut at the markers first, which stand nowhere else (`not_mem_sections`), and then every
  section is read on its own (`readCase_body`): the fields end at the blanks between them, the
  payload at the end of the header line, and the program is what follows. `Writable` says what a
  case must not contain for this.
-/
import Gridfall.Proofs.Text
import Gridfall.Suite.Read
import Mathlib.Data.List.Forall2

namespace Gridfall.Suite

open Text

/-! ## Writing -/

/-- How an expectation is written, by its kind and its payload. The empty text may be left out with
    the blank in front of it. -/
inductive Expected.Written : Expected → String → Prop where
  | empty : Written .empty "e"
  | number (n : Number) : Written (.number n) ("n " ++ n.text)
  | text (s : String) : Written (.text s) ("s " ++ s)
  | bare : Written (.text "") "s"
  | input : Written .input "i"
  | output : Written .output "o"

/-- A case with its expectation written as `kind`. -/
def Case.text (c : Case) (kind : String) : String :=
  "@" ++ c.name ++ " " ++ Decimal.ofNat c.tick.toNat ++ " " ++ Decimal.ofNat c.place.x ++ " " ++
    Decimal.ofNat c.place.y ++ " " ++ kind ++ "\n" ++ c.program

/-- The cases one after the other. -/
inductive Written : List Case → String → Prop where
  | nil : Written [] ""
  | cons {c : Case} {cs : List Case} {kind rest : String} :
    c.expected.Written kind → Written cs rest → Written (c :: cs) (c.text kind ++ rest)

/-- What can be written as the text of an expectation: one line, without a marker, that does not end
    in a return. -/
structure OneLine (s : String) : Prop where
  newline : '\n' ∉ s.toList
  marker : '@' ∉ s.toList
  ending : s.toList.getLast? ≠ some '\r'

/-- Cases that can be written. -/
structure Case.Writable (c : Case) : Prop where
  named : c.name ≠ ""
  name : ∀ ch ∈ c.name.toList, isBlank ch = false ∧ ch ≠ '@'
  x : c.place.x < UInt64.size
  y : c.place.y < UInt64.size
  text : ∀ s, c.expected = .text s → OneLine s
  program : '@' ∉ c.program.toList

theorem Case.Writable.name_ne_nil {c : Case} (h : c.Writable) : c.name.toList ≠ [] := by
  simpa using h.named

/-- The case as it is read back. -/
def Case.ended (c : Case) : Case := { c with program := c.program ++ "\n" }

/-! ## Sections -/

/-- The section of a case. -/
def Case.body (c : Case) (kind : List Char) : List Char :=
  c.name.toList ++ ' ' :: (Decimal.digits c.tick.toNat ++ ' ' :: (Decimal.digits c.place.x ++
    ' ' :: (Decimal.digits c.place.y ++ ' ' :: (kind ++ '\n' :: c.program.toList))))

theorem Case.toList_text (c : Case) (kind : String) :
    (c.text kind).toList = '@' :: c.body kind.toList := by
  unfold Case.text Case.body
  simp [Decimal.ofNat]

/-! ## Reading a section -/

theorem takeField_word (f : Field) {w : List Char} (hne : w ≠ [])
    (hw : ∀ ch ∈ w, isBlank ch = false) (cs : List Char) :
    takeField f (w ++ ' ' :: cs) = .ok (w, ' ' :: cs) := by
  have hhead : ∀ ch ∈ (w ++ ' ' :: cs).head?, isBlank ch = false := by
    cases w with
    | nil => contradiction
    | cons d w => simpa using hw d List.mem_cons_self
  unfold takeField
  rw [trimStart_eq_self hhead, word_append hw rfl]
  simp [hne]

theorem takeField_digits (f : Field) (n : Nat) (cs : List Char) :
    takeField f (' ' :: (Decimal.digits n ++ ' ' :: cs)) = .ok (Decimal.digits n, ' ' :: cs) := by
  have hsolid : ∀ ch ∈ Decimal.digits n, isBlank ch = false := fun ch hch =>
    Decimal.not_isBlank_of_isDigit (Decimal.isDigit_of_mem_digits hch)
  rw [← takeField_word f (Decimal.digits_ne_nil n) hsolid cs]
  unfold takeField
  rw [trimStart_space]

theorem readField_word? (f : Field) {n : Nat} (h : n < UInt64.size) :
    readField Decimal.word? f (Decimal.digits n) = .ok n.toUInt64 := by
  unfold readField
  rw [Decimal.word?_digits h]

/-- The expectation is read back, and the program stands after its line. -/
theorem Expected.Written.readExpected {e : Expected} {kind : String} (h : e.Written kind)
    (hline : ∀ s, e = .text s → OneLine s) (program : List Char) :
    ∃ k payload rest, kind.toList = k :: payload ∧ isBlank k = false ∧
      readExpected k (payload ++ '\n' :: program) = .ok (e, rest, true) ∧
      afterFirstLine rest = program := by
  cases h with
  | empty => exact ⟨'e', [], '\n' :: program, rfl, rfl, rfl, rfl⟩
  | input => exact ⟨'i', [], '\n' :: program, rfl, rfl, rfl, rfl⟩
  | output => exact ⟨'o', [], '\n' :: program, rfl, rfl, rfl, rfl⟩
  | bare => exact ⟨'s', [], '\n' :: program, rfl, rfl, rfl, rfl⟩
  | text s =>
    -- One blank is dropped, so the text keeps its own.
    have hs := hline s rfl
    refine ⟨'s', ' ' :: s.toList, s.toList ++ '\n' :: program, by simp, rfl, ?_,
      afterFirstLine_append hs.newline program⟩
    show Except.ok (Expected.text (String.ofList (dropTrailing '\r'
      (firstLine (s.toList ++ '\n' :: program)))), s.toList ++ '\n' :: program, true) = _
    rw [firstLine_append hs.newline, dropTrailing_eq_self hs.ending, String.ofList_toList]
  | number n =>
    -- The token is the whole rest of the line, since a number has no blank in it.
    have hsolid : ∀ ch ∈ n.text.toList, isBlank ch = false :=
      fun _ => Number.not_isBlank_of_mem_text
    have hnewline : '\n' ∉ ' ' :: n.text.toList := by
      rintro (_ | ⟨_, hn⟩)
      cases hsolid '\n' hn
    refine ⟨'n', ' ' :: n.text.toList, _, by simp, rfl, ?_, afterFirstLine_append hnewline program⟩
    have hhead : ∀ ch ∈ n.text.toList.head?, isBlank ch = false := fun ch hch =>
      hsolid ch (List.mem_of_mem_head? hch)
    show (readField Number.ofChars? .number (word (trimStart (firstLine
      (' ' :: n.text.toList ++ '\n' :: program)))).1).map _ = _
    rw [firstLine_append hnewline, trimStart_space, trimStart_eq_self hhead, word_of_solid hsolid,
      readField, Number.ofChars?_text]
    rfl

theorem readCase_body {c : Case} (hc : c.Writable) {kind : String}
    (hkind : c.expected.Written kind) : readCase (c.body kind.toList) = .ok (c.ended, none) := by
  obtain ⟨k, payload, rest, hkp, hk, hread, hafter⟩ := hkind.readExpected hc.text c.program.toList
  have hsolid : ∀ ch ∈ c.name.toList, isBlank ch = false := fun ch hch => (hc.name ch hch).1
  have htrim : trimStart (' ' :: (k :: payload ++ '\n' :: c.program.toList)) =
      k :: (payload ++ '\n' :: c.program.toList) := by
    rw [trimStart_space]
    exact trimStart_eq_self (by simpa using hk)
  simp only [readCase, Case.body, takeField_word .name hc.name_ne_nil hsolid, takeField_digits,
    readField_word? .tick c.tick.toNat_lt, readField_word? .x hc.x, readField_word? .y hc.y, hkp,
    htrim, hread, hafter, bind, Except.bind, pure, Except.pure]
  have htick : c.tick.toNat.toUInt64 = c.tick := UInt64.ofNat_toNat
  have hx : c.place.x.toUInt64.toNat = c.place.x := UInt64.toNat_ofNat_of_lt' hc.x
  have hy : c.place.y.toUInt64.toNat = c.place.y := UInt64.toNat_ofNat_of_lt' hc.y
  have hprogram : String.ofList (c.program.toList ++ ['\n']) = c.program ++ "\n" := by
    rw [String.ofList_append, String.ofList_toList]
  rw [String.ofList_toList, htick, hx, hy, hprogram]
  rfl

/-! ## Reading the sections -/

/-- The sections that a case can be written to. -/
def Case.HasSection (c : Case) (s : List Char) : Prop :=
  ∃ kind : String, c.expected.Written kind ∧ s = c.body kind.toList

theorem Written.sections {cs : List Case} {text : String} (h : Written cs text) :
    ∃ ss, text.toList = ss.flatMap ('@' :: ·) ∧ List.Forall₂ Case.HasSection cs ss := by
  induction h with
  | nil => exact ⟨[], rfl, .nil⟩
  | @cons c cs kind rest hkind hrest ih =>
    obtain ⟨ss, htext, hss⟩ := ih
    refine ⟨c.body kind.toList :: ss, ?_, .cons ⟨kind, hkind, rfl⟩ hss⟩
    rw [String.toList_append, Case.toList_text, htext, List.flatMap_cons]

theorem Expected.Written.not_mem {e : Expected} {kind : String} (h : e.Written kind)
    (hline : ∀ s, e = .text s → OneLine s) : '@' ∉ kind.toList := by
  cases h with
  | empty | input | output | bare => decide
  | text s => simpa using (hline s rfl).marker
  | number n =>
    rw [String.toList_append, List.mem_append]
    rintro (hn | hn)
    · revert hn
      decide
    · rcases Decimal.mem_ofInt hn with hdigit | hminus
      · revert hdigit
        decide
      · revert hminus
        decide

theorem Case.HasSection.not_mem {c : Case} {s : List Char} (h : c.HasSection s)
    (hc : c.Writable) : '@' ∉ s := by
  obtain ⟨kind, hkind, rfl⟩ := h
  have hname : '@' ∉ c.name.toList := fun hn => (hc.name '@' hn).2 rfl
  have hdigits : ∀ n, '@' ∉ Decimal.digits n := Decimal.not_mem_digits rfl
  simp [Case.body, hname, hdigits, hkind.not_mem hc.text, hc.program]

theorem not_mem_sections {cs : List Case} {ss : List (List Char)}
    (h : List.Forall₂ Case.HasSection cs ss) (hcs : ∀ c ∈ cs, c.Writable) : ∀ s ∈ ss, '@' ∉ s := by
  induction h with
  | nil => simp
  | cons hs _ ih =>
    obtain ⟨hc, hcs⟩ := List.forall_mem_cons.mp hcs
    exact List.forall_mem_cons.mpr ⟨hs.not_mem hc, ih hcs⟩

/-- A written section adds its case, and no event. -/
theorem readSections_cons {c : Case} {s : List Char} (h : c.HasSection s) (hc : c.Writable)
    (index : Nat) (rest : List (List Char)) (done : Array Case) (log : Array Event) :
    readSections index (s :: rest) done log =
      readSections (index + 1) rest (done.push c.ended) log := by
  obtain ⟨kind, hkind, rfl⟩ := h
  obtain ⟨ch, hch⟩ := List.exists_mem_of_ne_nil _ hc.name_ne_nil
  have hsolid : (c.body kind.toList).all isBlank = false :=
    List.all_eq_false.mpr ⟨ch, List.mem_append_left _ hch, by simp [(hc.name ch hch).1]⟩
  simp [readSections, hsolid, readCase_body hc hkind]

theorem readSections_eq {cs : List Case} {ss : List (List Char)}
    (h : List.Forall₂ Case.HasSection cs ss) (hcs : ∀ c ∈ cs, c.Writable) (index : Nat)
    (done : Array Case) (log : Array Event) :
    readSections index ss done log = (.ok (done.toList ++ cs.map Case.ended), log) := by
  induction h generalizing index done with
  | nil => simp [readSections]
  | cons hs _ ih =>
    obtain ⟨hc, hcs⟩ := List.forall_mem_cons.mp hcs
    rw [readSections_cons hs hc, ih hcs]
    simp

/-! ## The suite -/

/-- A suite that was written from one case or more is read back: the same cases in the same order,
    each program with a newline after it, and no event. -/
theorem read_written {cs : List Case} {text : String} (h : Written cs text) (hne : cs ≠ [])
    (hcs : ∀ c ∈ cs, c.Writable) (log : Array Event) :
    read text log = (.ok (cs.map Case.ended), log) := by
  obtain ⟨ss, htext, hss⟩ := h.sections
  cases hss with
  | nil => contradiction
  | @cons c s cs ss hs hrest =>
    -- The first marker opens the text and is not a cut; the others stand between the sections.
    have hmarker := not_mem_sections (.cons hs hrest) hcs
    unfold read
    rw [htext, List.flatMap_cons, List.cons_append]
    show readSections 0 (pieces '@' (s ++ ss.flatMap ('@' :: ·))) #[] log = _
    rw [pieces_flatMap hmarker, readSections_eq (.cons hs hrest) hcs]
    rfl

/-- A text with blanks at both ends and a return inside, before a program that starts with blank
    lines. -/
def spaced : Case := ⟨"späß", 0xFFFFFFFFFFFFFFFF, ⟨0, 7⟩, .text "  a\rb ", "\n\n1v"⟩

/-- The empty text, and a program without a character. -/
def blank : Case := ⟨"7", 0, ⟨0xFFFFFFFFFFFFFFFF, 0⟩, .text "", ""⟩

/-- The least number, and a program that looks like a header. -/
def least : Case := ⟨"-", 1, ⟨2, 3⟩, .number Int64.minValue, "n 0 0 0 e\n"⟩

theorem read_written_spaced :
    let text := spaced.text "s   a\rb " ++ (blank.text "s" ++
      (least.text ("n " ++ Number.text Int64.minValue) ++ ""))
    text = "@späß 18446744073709551615 0 7 s   a\rb \n\n\n1v@7 0 18446744073709551615 0 s\n" ++
        "@- 1 2 3 n -9223372036854775808\nn 0 0 0 e\n" ∧
      read text #[] = (.ok [spaced.ended, blank.ended, least.ended], #[]) := by
  have hspaced : spaced.Writable :=
    ⟨by decide, List.forall_iff_forall_mem.mp (by decide), by decide, by decide,
      fun s hs => by cases hs; exact ⟨by decide, by decide, by decide⟩, by decide⟩
  have hblank : blank.Writable :=
    ⟨by decide, List.forall_iff_forall_mem.mp (by decide), by decide, by decide,
      fun s hs => by cases hs; exact ⟨by decide, by decide, by decide⟩, by decide⟩
  have hleast : least.Writable :=
    ⟨by decide, List.forall_iff_forall_mem.mp (by decide), by decide, by decide,
      (fun s hs => by cases hs), by decide⟩
  refine ⟨by decide +kernel, ?_⟩
  have hall : ∀ c ∈ [spaced, blank, least], c.Writable := by
    rintro c (_ | ⟨_, _ | ⟨_, _ | ⟨_, ⟨⟩⟩⟩⟩)
    exacts [hspaced, hblank, hleast]
  exact read_written (.cons (.text _) (.cons .bare (.cons (.number _) .nil))) (by simp) hall #[]

/-- Without a case there is no marker, and the text is refused. -/
theorem read_nothing_written :
    Written [] "" ∧ read "" #[] = (.error .missingMarker, #[]) ∧
      read "" #[] ≠ (.ok ([].map Case.ended), #[]) := by
  refine ⟨.nil, rfl, ?_⟩
  intro h
  cases h

end Gridfall.Suite
