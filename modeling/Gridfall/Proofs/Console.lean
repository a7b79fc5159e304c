/-
  Reading does not depend on the buffers in which the input arrives. The console goes through one
  buffer after the other and keeps what it has of a token or a line in between; `Plain` reads from
  one list of bytes:

  * a token is what stands between blanks, and the blank after it stays unread;
  * a line goes through the next newline, or to the end of the input;
  * a number is looked for at the beginning of whole lines; the end of the input and a line that is
    not well formed give zero.

  Scanning a token over two pieces is scanning the first and, if the token has not ended there,
  going on with the second (`scanToken_append`); `line_append` says the same of lines. So a console
  with any buffers follows the plain reader on their concatenation (`Follows`), read by read, and
  hence over every sequence of reads.
-/
import Gridfall.Console
import Mathlib.Data.List.TakeDrop

namespace Gridfall.Console

/-! ## The plain reader -/

namespace Plain

/-- The next token, and the bytes after it. -/
def token (bs : List UInt8) : String × List UInt8 :=
  let bs := bs.dropWhile isBlank
  (Text.Utf8.lossy (bs.takeWhile fun b => !isBlank b), bs.dropWhile fun b => !isBlank b)

/-- The bytes through the next newline, and the bytes after it. -/
def line (bs : List UInt8) : List UInt8 × List UInt8 :=
  let rest := bs.dropWhile fun b => b != 10
  ((bs.takeWhile fun b => b != 10) ++ rest.take 1, rest.drop 1)

theorem line_cons {b : UInt8} (h : b ≠ 10) (bs : List UInt8) :
    line (b :: bs) = (b :: (line bs).1, (line bs).2) := by
  simp [line, h]

theorem line_parts (bs : List UInt8) : (line bs).1 ++ (line bs).2 = bs := by
  simp only [line, List.append_assoc, List.take_append_drop, List.takeWhile_append_dropWhile]

theorem line_ne_nil {bs : List UInt8} (h : bs ≠ []) : (line bs).1 ≠ [] := by
  cases bs with
  | nil => contradiction
  | cons b bs =>
    by_cases hb : b = 10
    · subst hb
      simp [line]
    · simp [line_cons hb]

theorem length_line_lt {bs : List UInt8} (h : bs ≠ []) : (line bs).2.length < bs.length := by
  have hsplit := congrArg List.length (line_parts bs)
  have hpos := List.length_pos_iff.mpr (line_ne_nil h)
  rw [List.length_append] at hsplit
  omega

/-- The number that the first of the lines with one starts with, and the bytes after that line. -/
def number (bs : List UInt8) : Number × List UInt8 :=
  if h : bs = [] then (0, [])
  else
    have := length_line_lt h
    match Text.Utf8.text? (line bs).1 with
    | none => (0, (line bs).2)
    | some s =>
      match Number.leading? s.toList with
      | some n => (n, (line bs).2)
      | none => number (line bs).2
termination_by bs.length

theorem number_nil : number [] = (0, []) := by
  rw [number, dif_pos rfl]

section

variable {bs : List UInt8} (h : bs ≠ [])
include h

theorem number_malformed (htext : Text.Utf8.text? (line bs).1 = none) :
    number bs = (0, (line bs).2) := by
  rw [number, dif_neg h, htext]

theorem number_found {s : String} (htext : Text.Utf8.text? (line bs).1 = some s) {n : Number}
    (hn : Number.leading? s.toList = some n) : number bs = (n, (line bs).2) := by
  rw [number, dif_neg h, htext]
  simp only [hn]

theorem number_next {s : String} (htext : Text.Utf8.text? (line bs).1 = some s)
    (hn : Number.leading? s.toList = none) : number bs = number (line bs).2 := by
  rw [number, dif_neg h, htext]
  simp only [hn]

end

end Plain

/-! ## Sequences of reads -/

/-- What can be read. -/
inductive Read where
  | token
  | number
  | line

/-- What a read gives. -/
inductive Answer where
  | token (s : String)
  | number (n : Number)
  /-- Whether the line could be skipped. -/
  | line (done : Bool)
  deriving DecidableEq

/-- One read from the console. -/
def answer (c : Console) : Read → Answer × Console
  | .token => (.token c.readToken.1, c.readToken.2.1)
  | .number => (.number c.readNumber.1, c.readNumber.2.1)
  | .line => (.line c.skipLine.1, c.skipLine.2)

/-- Reads one after the other. -/
def answers (c : Console) : List Read → List Answer × Console
  | [] => ([], c)
  | r :: rs => ((c.answer r).1 :: ((c.answer r).2.answers rs).1, ((c.answer r).2.answers rs).2)

namespace Plain

/-- One read from a list of bytes. -/
def answer (bs : List UInt8) : Read → Answer × List UInt8
  | .token => (.token (token bs).1, (token bs).2)
  | .number => (.number (number bs).1, (number bs).2)
  | .line => (.line true, (line bs).2)

/-- Reads one after the other. -/
def answers (bs : List UInt8) : List Read → List Answer × List UInt8
  | [] => ([], bs)
  | r :: rs => ((answer bs r).1 :: (answers (answer bs r).2 rs).1, (answers (answer bs r).2 rs).2)

end Plain

/-! ## Tokens -/

/-- A token that goes on past the end of a piece goes on in the next piece. -/
theorem scanToken_append (token : Array UInt8) (xs ys : List UInt8) :
    scanToken token (xs ++ ys) =
      if (scanToken token xs).2.isEmpty then scanToken (scanToken token xs).1 ys
      else ((scanToken token xs).1, (scanToken token xs).2 ++ ys) := by
  induction xs generalizing token with
  | nil => rfl
  | cons b xs ih =>
    simp only [List.cons_append, scanToken]
    split
    · split
      · exact ih token
      · rfl
    · exact ih (token.push b)

/-- The buffers are scanned as if they were one. -/
theorem takeToken_eq (token : Array UInt8) (buffers : List (List UInt8)) :
    (takeToken token buffers).1 = (scanToken token buffers.flatten).1 ∧
      (takeToken token buffers).2.1.flatten = (scanToken token buffers.flatten).2 := by
  induction buffers generalizing token with
  | nil => exact ⟨rfl, rfl⟩
  | cons buffer rest ih =>
    rw [List.flatten_cons, scanToken_append]
    simp only [takeToken]
    split
    · exact ih (scanToken token buffer).1
    · exact ⟨rfl, rfl⟩

/-- Once a token has begun, it takes the bytes up to the next blank. -/
theorem scanToken_begun (token : Array UInt8) (h : token.isEmpty = false) (bs : List UInt8) :
    (scanToken token bs).1.toList = token.toList ++ bs.takeWhile (fun b => !isBlank b) ∧
      (scanToken token bs).2 = bs.dropWhile fun b => !isBlank b := by
  induction bs generalizing token with
  | nil => simp [scanToken]
  | cons b bs ih =>
    by_cases hb : isBlank b = true
    · simp [scanToken, hb, h]
    · have hnext := ih (token.push b) (by simp)
      simp [scanToken, hb, hnext]

/-- Before a token begins, blanks are skipped. -/
theorem scanToken_empty (bs : List UInt8) :
    (scanToken #[] bs).1.toList = (bs.dropWhile isBlank).takeWhile (fun b => !isBlank b) ∧
      (scanToken #[] bs).2 = (bs.dropWhile isBlank).dropWhile fun b => !isBlank b := by
  induction bs with
  | nil => exact ⟨rfl, rfl⟩
  | cons b bs ih =>
    by_cases hb : isBlank b = true
    · simp [scanToken, hb, ih]
    · have hbegun := scanToken_begun #[b] rfl bs
      simp [scanToken, hb, hbegun]

/-! ## Lines -/

namespace Plain

/-- A line that goes on past the end of a piece goes on in the next piece. -/
theorem line_append (xs ys : List UInt8) :
    line (xs ++ ys) =
      if (xs.dropWhile fun b => b != 10).isEmpty then (xs ++ (line ys).1, (line ys).2)
      else ((line xs).1, (line xs).2 ++ ys) := by
  induction xs with
  | nil => rfl
  | cons b xs ih =>
    by_cases hb : b = 10
    · subst hb
      rfl
    · rw [List.cons_append, line_cons hb, ih, line_cons hb, List.dropWhile_cons_of_pos (by simpa)]
      split <;> rfl

end Plain

theorem flatten_unread (buffer : List UInt8) (rest : List (List UInt8)) :
    (unread buffer rest).flatten = buffer ++ rest.flatten := by
  unfold unread
  split
  · next h => simp [List.isEmpty_iff.mp h]
  · rfl

/-- The line is taken from the buffers as if they were one. -/
theorem takeLine_eq (buffers : List (List UInt8)) :
    (takeLine buffers).1 = (Plain.line buffers.flatten).1 ∧
      (takeLine buffers).2.1.flatten = (Plain.line buffers.flatten).2 := by
  induction buffers with
  | nil => exact ⟨rfl, rfl⟩
  | cons buffer rest ih =>
    have hparts := List.takeWhile_append_dropWhile (p := fun b : UInt8 => b != 10) (l := buffer)
    rw [List.flatten_cons, Plain.line_append]
    simp only [takeLine, List.span_eq_takeWhile_dropWhile]
    rcases hafter : buffer.dropWhile fun b => b != 10 with _ | ⟨newline, after⟩
    · rw [hafter, List.append_nil] at hparts
      rw [hparts]
      exact ⟨congrArg (buffer ++ ·) ih.1, ih.2⟩
    · simp [Plain.line, hafter, flatten_unread]

/-! ## Reading -/

/-- The same answer and the same bytes left as on the plain side, and nothing else of the console
    has changed. -/
structure Follows {α : Type} (c : Console) (x : α × Console) (y : α × List UInt8) : Prop where
  answer : x.1 = y.1
  rest : x.2.pending.flatten = y.2
  same : ∃ pending, x.2 = { c with pending }

section

variable {c : Console}

theorem readToken_follows :
    Follows c (c.readToken.1, c.readToken.2.1) (Plain.token c.pending.flatten) := by
  obtain ⟨htoken, hrest⟩ := takeToken_eq #[] c.pending
  obtain ⟨hword, hafter⟩ := scanToken_empty c.pending.flatten
  refine ⟨?_, hrest.trans hafter, _, rfl⟩
  show Text.Utf8.lossy (takeToken #[] c.pending).1.toList = _
  rw [htoken, hword]
  rfl

variable (hend : c.readFault = none)
include hend

/-- The end of the input is no failure. -/
theorem endTrouble_eq_none (ended : Bool) : c.endTrouble ended = none := by
  simp [endTrouble, hend]

theorem skipLine_follows : Follows c c.skipLine (true, (Plain.line c.pending.flatten).2) := by
  refine ⟨?_, (takeLine_eq c.pending).2, _, rfl⟩
  show (c.endTrouble (takeLine c.pending).2.2).isNone = true
  rw [endTrouble_eq_none hend]
  rfl

omit hend in
/-- There are always enough lines to read. -/
theorem readNumberWithin_follows (fuel : Nat) {c : Console} (hend : c.readFault = none)
    (hfuel : c.bytesLeft < fuel) :
    Follows c ((c.readNumberWithin fuel).1, (c.readNumberWithin fuel).2.1)
      (Plain.number c.pending.flatten) := by
  induction fuel generalizing c with
  | zero => omega
  | succ fuel ih =>
    obtain ⟨hline, hrest⟩ := takeLine_eq c.pending
    simp only [readNumberWithin, endTrouble_eq_none hend, hline]
    generalize (takeLine c.pending).2.1 = rest at hrest
    by_cases hbytes : c.pending.flatten = []
    · rw [hbytes] at hrest ⊢
      rw [Plain.number_nil]
      exact ⟨rfl, hrest, rest, rfl⟩
    · rw [if_neg (by simpa using Plain.line_ne_nil hbytes)]
      rcases htext : Text.Utf8.text? (Plain.line c.pending.flatten).1 with _ | s
      · rw [Plain.number_malformed hbytes htext]
        exact ⟨rfl, hrest, rest, rfl⟩
      · rcases hn : Number.leading? s.toList with _ | n
        · have hshorter := Plain.length_line_lt hbytes
          rw [← hrest] at hshorter
          have hfewer : rest.flatten.length < fuel := by
            unfold bytesLeft at hfuel
            omega
          have hlater := ih (c := { c with pending := rest }) hend hfewer
          rw [Plain.number_next hbytes htext hn, ← hrest]
          simp only [hn]
          exact ⟨hlater.answer, hlater.rest, hlater.same⟩
        · rw [Plain.number_found hbytes htext hn]
          simp only [hn]
          exact ⟨rfl, hrest, rest, rfl⟩

theorem readNumber_follows :
    Follows c (c.readNumber.1, c.readNumber.2.1) (Plain.number c.pending.flatten) :=
  readNumberWithin_follows (c.bytesLeft + 1) hend (Nat.lt_succ_self _)

theorem answer_follows (r : Read) : Follows c (c.answer r) (Plain.answer c.pending.flatten r) := by
  cases r with
  | token =>
    have h := readToken_follows (c := c)
    exact ⟨congrArg Answer.token h.answer, h.rest, h.same⟩
  | number =>
    have h := readNumber_follows hend
    exact ⟨congrArg Answer.number h.answer, h.rest, h.same⟩
  | line =>
    have h := skipLine_follows hend
    exact ⟨congrArg Answer.line h.answer, h.rest, h.same⟩

end

/-- Whatever is read, and in which order: with any buffers, a console answers as the plain reader
    does on their concatenation, and leaves the same bytes unread. -/
theorem reads_ignore_buffers (c : Console) (hend : c.readFault = none) (reads : List Read) :
    Follows c (c.answers reads) (Plain.answers c.pending.flatten reads) := by
  induction reads generalizing c with
  | nil => exact ⟨rfl, rfl, c.pending, rfl⟩
  | cons r reads ih =>
    have hfirst := answer_follows hend r
    obtain ⟨pending, hsame⟩ := hfirst.same
    have hlater := ih (c.answer r).2 (by rw [hsame]; exact hend)
    rw [hfirst.rest] at hlater
    refine ⟨?_, hlater.rest, ?_⟩
    · show _ :: _ = _ :: _
      rw [hfirst.answer, hlater.answer]
    · obtain ⟨pending', hsame'⟩ := hlater.same
      exact ⟨pending', hsame'.trans (by rw [hsame])⟩

/-- Two blanks, a letter of two bytes, a line break, a line without a number, and one with: the
    first read meets boundaries within the blanks, within the letter and right after it. -/
theorem reads_ignore_buffers_accent :
    (({ pending := [[32], [32, 0xC3], [0xA9], [10, 120], [10, 52, 50], [10, 33]] } :
        Console).answers [.token, .number, .line, .token]).1 =
      [.token "é", .number 42, .line true, .token ""] := by
  have hfollows := reads_ignore_buffers
    { pending := [[32], [32, 0xC3], [0xA9], [10, 120], [10, 52, 50], [10, 33]] } rfl
    [.token, .number, .line, .token]
  refine hfollows.answer.trans ?_
  decide +kernel

end Gridfall.Console
