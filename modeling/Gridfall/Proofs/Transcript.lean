/-
  Numbers survive text and console. A number is written in decimal in one way and read in three: as
  a whole text, at the beginning of a line, and from the console, line by line.

  * `Number.Leads line z` says what a line starts with: white space, and then a numeral that spells
    `z` and does not go on. The reader of lines finds exactly the numbers that lead
    (`leading?_eq_some_iff`), and the text of a number leads wherever no digit follows it.
  * A `Line` of a transcript is a number on its own, or any other text that no number leads. A line
    is taken from the buffers as it was written (`takeLine_text`), and one read skips the lines
    without a number and takes the first one with, leaving a transcript of the rest
    (`Holds.readNumber`). So the reads, one after the other, give the numbers of the transcript in
    order and then zero (`Holds.readNumber_iterate`).
-/
import Gridfall.Proofs.Console
import Gridfall.Proofs.Operator.Services
import Gridfall.Proofs.Text
import Gridfall.Proofs.Utf8

namespace Gridfall

open Text (isBlank trimStart)
open Text.Decimal (isDigit Spells)

namespace Number

/-! ## The number that a line starts with -/

/-- White space, then a numeral that spells `z`, and then the end or something that is no digit. -/
def Leads (line : List Char) (z : Int) : Prop :=
  ∃ gap numeral rest, line = gap ++ (numeral ++ rest) ∧ (∀ c ∈ gap, isBlank c = true) ∧
    Spells numeral z ∧ ∀ c ∈ rest.head?, isDigit c = false

theorem splitSign_append (cs : List Char) : (splitSign cs).1 ++ (splitSign cs).2 = cs := by
  unfold splitSign
  split <;> rfl

theorem splitSign_of_isDigit {c : Char} (h : isDigit c = true) (cs : List Char) :
    splitSign (c :: cs) = ([], c :: cs) := by
  unfold splitSign
  split
  · next heq =>
    cases heq
    cases h
  · next heq =>
    cases heq
    cases h
  · rfl

theorem takeWhile_isDigit {ds rest : List Char} (hds : ∀ c ∈ ds, isDigit c = true)
    (hrest : ∀ c ∈ rest.head?, isDigit c = false) : (ds ++ rest).takeWhile isDigit = ds := by
  rw [List.takeWhile_append_of_pos hds]
  cases rest with
  | nil => exact List.append_nil ds
  | cons c rest => rw [List.takeWhile_cons_of_neg (by simp [hrest c rfl]), List.append_nil]

theorem ends_cons {c : Char} (h : isDigit c = false) (cs : List Char) :
    ∀ d ∈ (c :: cs).head?, isDigit d = false := by
  intro d hd
  rw [← Option.some.inj hd]
  exact h

/-- A numeral is taken apart from what follows it, if no digit follows. -/
theorem splitSign_numeral {numeral rest : List Char} {z : Int} (h : Spells numeral z)
    (hrest : ∀ c ∈ rest.head?, isDigit c = false) :
    (splitSign (numeral ++ rest)).1 ++ (splitSign (numeral ++ rest)).2.takeWhile isDigit =
      numeral := by
  cases h with
  | @plain ds hne hds =>
    obtain ⟨d, ds', rfl⟩ := List.exists_cons_of_ne_nil hne
    rw [List.cons_append, splitSign_of_isDigit (hds d List.mem_cons_self)]
    exact takeWhile_isDigit hds hrest
  | plus hne hds => exact congrArg ('+' :: ·) (takeWhile_isDigit hds hrest)
  | minus hne hds => exact congrArg ('-' :: ·) (takeWhile_isDigit hds hrest)

/-- A numeral does not start with white space. -/
theorem trimStart_numeral {numeral : List Char} {z : Int} (h : Spells numeral z)
    (rest : List Char) : trimStart (numeral ++ rest) = numeral ++ rest := by
  apply Text.trimStart_eq_self
  intro c hc
  cases h with
  | @plain ds hne hds =>
    obtain ⟨d, ds', rfl⟩ := List.exists_cons_of_ne_nil hne
    have hd : d = c := Option.some.inj hc
    exact Text.Decimal.not_isBlank_of_isDigit (hd ▸ hds d List.mem_cons_self)
  | plus hne hds =>
    cases hc
    rfl
  | minus hne hds =>
    cases hc
    rfl

theorem leading?_eq_some_iff {line : List Char} {n : Number} :
    leading? line = some n ↔ Leads line n.toInt := by
  have hread : leading? line = ofChars? ((splitSign (trimStart line)).1 ++
      (splitSign (trimStart line)).2.takeWhile isDigit) := rfl
  rw [hread]
  constructor
  · intro h
    refine ⟨line.takeWhile isBlank, _, (splitSign (trimStart line)).2.dropWhile isDigit, ?_,
      fun c hc => List.mem_takeWhile_imp hc, ofChars?_eq_some_iff.mp h, ?_⟩
    · rw [List.append_assoc, List.takeWhile_append_dropWhile, splitSign_append]
      exact List.takeWhile_append_dropWhile.symm
    · intro c hc
      have hhead := List.head?_dropWhile_not isDigit (splitSign (trimStart line)).2
      rw [Option.mem_def.mp hc] at hhead
      simpa using hhead
  · intro h
    obtain ⟨gap, numeral, rest, hline, hgap, hspells, hrest⟩ := h
    have htrim : trimStart line = numeral ++ rest := by
      rw [hline]
      exact (List.dropWhile_append_of_pos hgap).trans (trimStart_numeral hspells rest)
    rw [htrim, splitSign_numeral hspells hrest]
    exact ofChars?_eq_some_iff.mpr hspells

theorem leading?_eq_none_iff {line : List Char} :
    leading? line = none ↔ ∀ n : Number, ¬ Leads line n.toInt := by
  rw [Option.eq_none_iff_forall_ne_some]
  exact forall_congr' fun n => not_congr leading?_eq_some_iff

theorem spells_text (n : Number) : Spells n.text.toList n.toInt :=
  ofChars?_eq_some_iff.mp n.ofChars?_text

/-- The text of a number is found behind white space, if no digit follows it. -/
theorem leading?_text (n : Number) {gap rest : List Char} (hgap : ∀ c ∈ gap, isBlank c = true)
    (hrest : ∀ c ∈ rest.head?, isDigit c = false) :
    leading? (gap ++ (n.text.toList ++ rest)) = some n :=
  leading?_eq_some_iff.mpr ⟨gap, n.text.toList, rest, rfl, hgap, n.spells_text, hrest⟩

/-- What is read is a numeral of an integer in range, whatever that is. -/
theorem isSome_ofText?_iff (s : String) :
    (ofText? s).isSome = true ↔
      ∃ z, Spells s.toList z ∧ least.toInt ≤ z ∧ z ≤ greatest.toInt := by
  have hleast : least.toInt = -2 ^ 63 := rfl
  have hgreatest : greatest.toInt = 2 ^ 63 - 1 := rfl
  rw [Option.isSome_iff_exists]
  constructor
  · intro h
    obtain ⟨n, hn⟩ := h
    have hlow := n.le_toInt
    have hhigh := n.toInt_lt
    exact ⟨n.toInt, ofText?_eq_some_iff.mp hn, by omega, by omega⟩
  · intro h
    obtain ⟨z, hspells, hlow, hhigh⟩ := h
    have hz : (Int64.ofInt z).toInt = z := Int64.toInt_ofInt_of_le (by omega) (by omega)
    rw [← hz] at hspells
    exact ⟨Int64.ofInt z, ofText?_eq_some_iff.mpr hspells⟩

end Number

/-! ## Lines of a transcript -/

/-- A line that is written: a number on its own, or some other text. -/
inductive Line where
  | number (n : Number)
  | other (s : String)

namespace Line

/-- The number on the line, if it is one. -/
def number? : Line → Option Number
  | number n => some n
  | other _ => none

/-- The line without its newline. -/
def text : Line → String
  | number n => n.text
  | other s => s

/-- Other text is on one line, and no number leads it. -/
def Proper : Line → Prop
  | number _ => True
  | other s => '\n' ∉ s.toList ∧ ∀ n : Number, ¬ Number.Leads (s.toList ++ ['\n']) n.toInt

instance : DecidablePred Proper
  | number _ => isTrue trivial
  | other _ => decidable_of_iff _ (and_congr_right fun _ => Number.leading?_eq_none_iff)

/-- The number on a line is the one that leads it. -/
theorem Proper.leading? {l : Line} (h : l.Proper) :
    '\n' ∉ l.text.toList ∧ Number.leading? (l.text.toList ++ ['\n']) = l.number? := by
  cases l with
  | number n =>
    have hsolid : '\n' ∉ n.text.toList := fun hmem => by cases Number.not_isBlank_of_mem_text hmem
    exact ⟨hsolid, @Number.leading?_text n [] ['\n'] (List.forall_mem_nil _)
      (Number.ends_cons rfl [])⟩
  | other s => exact ⟨h.1, Number.leading?_eq_none_iff.mpr h.2⟩

/-- The numbers on lines of their own, in order. -/
def numbers (lines : List Line) : List Number := lines.filterMap number?

/-- The bytes of lines, each with its newline. -/
def bytes (lines : List Line) : List UInt8 :=
  lines.flatMap fun l => Text.Utf8.bytes (l.text ++ "\n")

end Line

/-- Writes a number, or a text, and a newline after it. -/
def Context.writeLine (ctx : Context) : Line → Context
  | .number n => (ctx.writeNumber n).write "\n"
  | .other s => (ctx.write s).write "\n"

/-- As long as writes are not limited, all of a text is written. -/
theorem Console.write_of_unlimited {c : Console} (h : c.writesLeft = none) (s : String) :
    (c.write s).1 = { c with output := c.output ++ s } := by
  unfold write
  split
  · next hs =>
    have hempty : s = "" := by simpa using hs
    rw [hempty, String.append_empty]
  · rw [h]

theorem Context.console_writeLine {ctx : Context} (h : ctx.console.writesLeft = none) (l : Line) :
    (ctx.writeLine l).console =
      { ctx.console with output := ctx.console.output ++ (l.text ++ "\n") } := by
  have hwrite : ∀ s, ((ctx.write s).write "\n").console =
      { ctx.console with output := ctx.console.output ++ (s ++ "\n") } := by
    intro s
    simp only [write_eq]
    rw [Console.write_of_unlimited h, ← String.append_assoc]
    exact Console.write_of_unlimited
      (c := { ctx.console with output := ctx.console.output ++ s }) h "\n"
  cases l with
  | number n => exact hwrite n.text
  | other s => exact hwrite s

/-- What is written, line by line, is the bytes of the lines. -/
theorem Context.bytes_writeLines (lines : List Line) {ctx : Context}
    (h : ctx.console.writesLeft = none) :
    Text.Utf8.bytes (lines.foldl writeLine ctx).console.output =
      Text.Utf8.bytes ctx.console.output ++ Line.bytes lines := by
  induction lines generalizing ctx with
  | nil => exact (List.append_nil _).symm
  | cons l lines ih =>
    have hwritten := console_writeLine h l
    rw [List.foldl_cons, ih (by rw [hwritten]; exact h), hwritten, Text.Utf8.bytes_append,
      List.append_assoc]
    rfl

/-! ## Reading lines -/

theorem bytes_ended (s : String) : Text.Utf8.bytes (s ++ "\n") = Text.Utf8.bytes s ++ [10] :=
  Text.Utf8.bytes_append s "\n"

/-- There are no more lines than bytes. -/
theorem Line.length_le_bytes (lines : List Line) : lines.length ≤ (Line.bytes lines).length := by
  induction lines with
  | nil => exact Nat.le_refl 0
  | cons l lines ih =>
    have hbytes : Line.bytes (l :: lines) =
        Text.Utf8.bytes l.text ++ [10] ++ Line.bytes lines := by
      rw [← bytes_ended]
      rfl
    rw [hbytes, List.length_append, List.length_append, List.length_cons, List.length_singleton]
    omega

namespace Console

theorem Plain.line_append_newline {xs : List UInt8} (h : 10 ∉ xs) (ys : List UInt8) :
    Plain.line (xs ++ 10 :: ys) = (xs ++ [10], ys) := by
  induction xs with
  | nil => rfl
  | cons b xs ih =>
    obtain ⟨hb, hxs⟩ := not_or.mp (List.mem_cons.not.mp h)
    rw [List.cons_append, line_cons (Ne.symm hb), ih hxs]
    rfl

/-- A line that has a newline ends before the input does. -/
theorem takeLine_ended {buffers : List (List UInt8)} (h : 10 ∈ buffers.flatten) :
    (takeLine buffers).2.2 = false := by
  induction buffers with
  | nil => cases h
  | cons buffer rest ih =>
    simp only [takeLine, List.span_eq_takeWhile_dropWhile]
    rcases hafter : buffer.dropWhile fun b => b != 10 with _ | ⟨newline, after⟩
    · have hbuffer : 10 ∉ buffer := by
        intro hmem
        simpa using List.dropWhile_eq_nil_iff.mp hafter 10 hmem
      rw [List.flatten_cons, List.mem_append] at h
      exact ih (h.resolve_left hbuffer)
    · rfl

/-- A text with a newline behind it is taken as one line. -/
theorem takeLine_text {buffers : List (List UInt8)} {s : String} (hs : '\n' ∉ s.toList)
    {bs : List UInt8} (h : buffers.flatten = Text.Utf8.bytes (s ++ "\n") ++ bs) :
    ∃ rest, rest.flatten = bs ∧ takeLine buffers = (Text.Utf8.bytes (s ++ "\n"), rest, false) := by
  have hplain : Plain.line buffers.flatten = (Text.Utf8.bytes (s ++ "\n"), bs) := by
    rw [h, bytes_ended, List.append_assoc]
    exact Plain.line_append_newline (Text.Utf8.newline_not_mem_bytes hs) bs
  have hended : (takeLine buffers).2.2 = false := by
    apply takeLine_ended
    rw [h, bytes_ended]
    simp
  obtain ⟨hline, hrest⟩ := takeLine_eq buffers
  rw [hplain] at hline hrest
  exact ⟨(takeLine buffers).2.1, hrest, Prod.ext hline (Prod.ext rfl hended)⟩

section

variable (fuel : Nat) {c : Console}

/-- A line is read as the number that leads it, and without one the search goes on behind it. -/
theorem readNumberWithin_text {s : String} (hs : '\n' ∉ s.toList) {bs : List UInt8}
    (h : c.pending.flatten = Text.Utf8.bytes (s ++ "\n") ++ bs) :
    ∃ pending, pending.flatten = bs ∧
      c.readNumberWithin (fuel + 1) =
        ((Number.leading? (s.toList ++ ['\n'])).elim (readNumberWithin fuel { c with pending })
          fun n => (n, { c with pending }, none)) := by
  obtain ⟨rest, hrest, htaken⟩ := takeLine_text hs h
  have hne : (Text.Utf8.bytes (s ++ "\n")).isEmpty = false := by
    rw [bytes_ended]
    simp
  have hchars : (s ++ "\n").toList = s.toList ++ ['\n'] := String.toList_append
  refine ⟨rest, hrest, ?_⟩
  rw [readNumberWithin, htaken]
  simp only [endTrouble, hne, Text.Utf8.text?_bytes, hchars]
  cases Number.leading? (s.toList ++ ['\n']) <;> rfl

/-- At the end of the input there is zero to read, whether reading on fails or not. -/
theorem readNumberWithin_end (h : c.pending.flatten = []) :
    ∃ pending trouble, pending.flatten = [] ∧
      c.readNumberWithin (fuel + 1) = (0, { c with pending }, trouble) := by
  obtain ⟨hline, hrest⟩ := takeLine_eq c.pending
  rw [h] at hline hrest
  have hempty : (takeLine c.pending).1 = [] := hline
  refine ⟨(takeLine c.pending).2.1, c.endTrouble (takeLine c.pending).2.2, hrest, ?_⟩
  simp only [readNumberWithin, hempty]
  cases c.endTrouble (takeLine c.pending).2.2 <;> rfl

end

/-- The input of the console is the bytes of proper lines, in any buffers. -/
structure Holds (c : Console) (lines : List Line) : Prop where
  proper : ∀ l ∈ lines, l.Proper
  input : c.pending.flatten = Line.bytes lines

/-- The first number is read, and the other numbers stay on the console. -/
theorem Holds.readNumberWithin {fuel : Nat} {c : Console} {lines : List Line} (h : c.Holds lines)
    (hfuel : lines.length < fuel) :
    (c.readNumberWithin fuel).1 = (Line.numbers lines).headD 0 ∧
      ∃ later, (c.readNumberWithin fuel).2.1.Holds later ∧
        Line.numbers later = (Line.numbers lines).tail := by
  induction lines generalizing fuel c with
  | nil =>
    obtain ⟨fuel, rfl⟩ := Nat.exists_eq_add_one_of_ne_zero (Nat.ne_zero_of_lt hfuel)
    obtain ⟨pending, trouble, hpending, hread⟩ := readNumberWithin_end fuel h.input
    rw [hread]
    exact ⟨rfl, [], ⟨h.proper, hpending⟩, rfl⟩
  | cons l lines ih =>
    obtain ⟨fuel, rfl⟩ := Nat.exists_eq_add_one_of_ne_zero (Nat.ne_zero_of_lt hfuel)
    obtain ⟨hl, hlines⟩ := List.forall_mem_cons.mp h.proper
    obtain ⟨hsolid, hleading⟩ := hl.leading?
    obtain ⟨pending, hpending, hread⟩ := readNumberWithin_text fuel hsolid h.input
    have hrest : Holds { c with pending } lines := ⟨hlines, hpending⟩
    rw [hread, hleading]
    cases l with
    | number n => exact ⟨rfl, lines, hrest, rfl⟩
    | other s =>
      rw [List.length_cons] at hfuel
      exact ih hrest (by omega)

/-- The console after one number has been read. -/
def afterNumber (c : Console) : Console := c.readNumber.2.1

/-- One read gives the first number, and leaves a transcript with the others. -/
theorem Holds.readNumber {c : Console} {lines : List Line} (h : c.Holds lines) :
    c.readNumber.1 = (Line.numbers lines).headD 0 ∧
      ∃ later, c.afterNumber.Holds later ∧ Line.numbers later = (Line.numbers lines).tail := by
  have hlength := Line.length_le_bytes lines
  rw [← h.input] at hlength
  exact h.readNumberWithin (Nat.lt_succ_of_le hlength)

/-- Read after read, the numbers of the lines come in order, and then zero. -/
theorem Holds.readNumber_iterate {c : Console} {lines : List Line} (h : c.Holds lines) (i : Nat) :
    (afterNumber^[i] c).readNumber.1 = (Line.numbers lines).getD i 0 := by
  induction i generalizing c lines with
  | zero => rw [Function.iterate_zero_apply, h.readNumber.1, List.headD_eq_getD]
  | succ i ih =>
    -- The later reads are reads of what the first one leaves, which is again a transcript.
    obtain ⟨-, later, hlater, hnumbers⟩ := h.readNumber
    rw [Function.iterate_succ_apply, ih hlater, hnumbers]
    cases Line.numbers lines <;> rfl

end Console

/-- Numbers survive text and console, for every number.

    A number is read back from its text. A text is read if it is an optional sign and digits, at
    least one, that spell an integer in range, and as that integer. The text of a number is found at
    the beginning of a line, behind any white space, if no digit follows it. And from the transcript
    of any lines, numbers on their own and other text that no number leads, the reads give the
    numbers in order and then zero for ever, in whatever buffers the transcript arrives and whether
    or not reading past it fails. -/
theorem numbers_survive :
    (∀ n : Number, Number.ofText? n.text = some n) ∧
    (∀ s : String,
      ((Number.ofText? s).isSome = true ↔
        ∃ z, Spells s.toList z ∧ Number.least.toInt ≤ z ∧ z ≤ Number.greatest.toInt) ∧
      ∀ n : Number, Number.ofText? s = some n ↔ Spells s.toList n.toInt) ∧
    (∀ (n : Number) (gap rest : List Char), (∀ c ∈ gap, isBlank c = true) →
      (∀ c ∈ rest.head?, isDigit c = false) →
      Number.leading? (gap ++ (n.text.toList ++ rest)) = some n) ∧
    ∀ lines : List Line, (∀ l ∈ lines, l.Proper) → ∀ (writer : Context) (reader : Console),
      writer.console.output = "" → writer.console.writesLeft = none →
      reader.pending.flatten =
        Text.Utf8.bytes (lines.foldl Context.writeLine writer).console.output →
      ∀ i, (Console.afterNumber^[i] reader).readNumber.1 = (Line.numbers lines).getD i 0 := by
  refine ⟨Number.ofChars?_text, ?_, ?_, ?_⟩
  · intro s
    exact ⟨Number.isSome_ofText?_iff s, fun n => Number.ofText?_eq_some_iff⟩
  · intro n gap rest hgap hrest
    exact n.leading?_text hgap hrest
  · intro lines hproper writer reader hfresh hunlimited hinput i
    have hbytes : reader.pending.flatten = Line.bytes lines := by
      rw [hinput, Context.bytes_writeLines lines hunlimited, hfresh]
      rfl
    exact Console.Holds.readNumber_iterate ⟨hproper, hbytes⟩ i

/-- The least number between a line that starts with a letter, one that starts with the first
    integer out of range, and a blank one. The first buffer ends within the number. -/
theorem numbers_survive_between :
    let lines := [Line.other "é7", .number Number.least, .other " 9223372036854775808", .other "",
      .number 7]
    let reader : Console :=
      { pending := [Text.Utf8.bytes "é7\n-92233",
          Text.Utf8.bytes "72036854775808\n 9223372036854775808\n\n7\n"] }
    Number.leading? " \t-9223372036854775808a".toList = some Number.least ∧
      (∀ l ∈ lines, l.Proper) ∧ reader.readNumber.1 = Number.least ∧
      reader.afterNumber.readNumber.1 = 7 ∧ reader.afterNumber.afterNumber.readNumber.1 = 0 := by
  intro lines reader
  have hproper : ∀ l ∈ lines, l.Proper := by decide +kernel
  obtain ⟨-, -, hleading, hread⟩ := numbers_survive
  have hreads := hread lines hproper ⟨{}, ⟨0⟩, 0, none, #[]⟩ reader rfl rfl (by decide +kernel)
  have hgap : ∀ c ∈ [' ', '\t'], isBlank c = true :=
    List.forall_mem_cons.mpr ⟨rfl, List.forall_mem_singleton.mpr rfl⟩
  have hfound := hleading Number.least [' ', '\t'] ['a'] hgap (Number.ends_cons rfl [])
  exact ⟨hfound, hproper, hreads 0, hreads 1, hreads 2⟩

end Gridfall
