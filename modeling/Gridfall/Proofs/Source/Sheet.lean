/-
  One literal on a blank sheet. The sheet has blank lines above and below the literal and spaces
  beside it (`Spot`); the literal goes to the right or downward. Loading the sheet puts the value of
  the literal at its opener and leaves every other place inside the ring empty. Texts come back as
  they were written, and numbers up to a multiple of 2 ^ 64 (`literals_load`).

  `Drawn` says where the characters stand in the lines of the sheet, and `Drawn.shows` takes them to
  the framed page.
-/
import Gridfall.Proofs.Source.Course
import Gridfall.Proofs.Source.Written

namespace Gridfall

namespace Source

open Text.Decimal (isDigit)

/-! ## Lines with one drawing -/

/-- The lines hold `cs` from `p` on, to the right or downward, and are blank otherwise. -/
structure Drawn (ls : List (List Char)) (downward : Bool) (p : Pos) (cs : List Char) : Prop where
  char : ∀ i c, cs[i]? = some c → item? ls (Page.along downward p i) = some c
  blank : ∀ q c, item? ls q = some c → c ≠ ' ' → ∃ i, i < cs.length ∧ q = Page.along downward p i

/-- A line of spaces. -/
def spaces (n : Nat) : List Char := List.replicate n ' '

theorem eq_space_of_item? {ns : List Nat} {p : Pos} {c : Char}
    (h : item? (ns.map spaces) p = some c) : c = ' ' := by
  obtain ⟨l, hl, hc⟩ := Option.bind_eq_some_iff.mp h
  obtain ⟨n, -, rfl⟩ := List.mem_map.mp (List.mem_of_getElem? hl)
  exact List.eq_of_mem_replicate (List.mem_of_getElem? hc)

/-- Characters on one line, or each on a line of its own. -/
def block (downward : Bool) (cs : List Char) : List (List Char) :=
  if downward then cs.map ([·]) else [cs]

theorem drawn_block (downward : Bool) (cs : List Char) :
    Drawn (block downward cs) downward ⟨0, 0⟩ cs := by
  cases downward with
  | false =>
    constructor
    · intro i c hc
      simpa [item?, block, Page.along] using hc
    · rintro ⟨x, y⟩ c hq -
      obtain ⟨l, hl, hc⟩ := Option.bind_eq_some_iff.mp hq
      obtain ⟨rfl, rfl⟩ : y = 0 ∧ cs = l := by simpa [block, List.getElem?_singleton] using hl
      obtain ⟨hx, -⟩ := List.getElem?_eq_some_iff.mp hc
      exact ⟨x, hx, by simp [Page.along]⟩
  | true =>
    constructor
    · intro i c hc
      simp [item?, block, Page.along, hc]
    · rintro ⟨x, y⟩ c hq -
      obtain ⟨l, hl, hc⟩ := Option.bind_eq_some_iff.mp hq
      obtain ⟨d, hd, rfl⟩ : ∃ d, cs[y]? = some d ∧ [d] = l := by simpa [block] using hl
      obtain ⟨rfl, -⟩ : x = 0 ∧ d = c := by simpa [List.getElem?_singleton] using hc
      obtain ⟨hy, -⟩ := List.getElem?_eq_some_iff.mp hd
      exact ⟨y, hy, by simp [Page.along]⟩

namespace Drawn

variable {ls : List (List Char)} {downward : Bool} {p : Pos} {cs : List Char}
  (h : Drawn ls downward p cs)
include h

theorem congr {ls' : List (List Char)} (hitem : ∀ q, item? ls' q = item? ls q) :
    Drawn ls' downward p cs := by
  constructor
  · intro i c hc
    rw [hitem]
    exact h.char i c hc
  · intro q c hq
    rw [hitem] at hq
    exact h.blank q c hq

/-- Spaces on both sides move the drawing to the right. -/
theorem margins (left right : Nat) :
    Drawn (ls.map fun l => spaces left ++ l ++ spaces right) downward ⟨p.x + left, p.y⟩ cs := by
  have hshift : ∀ i, Page.along downward ⟨p.x + left, p.y⟩ i =
      ⟨(Page.along downward p i).x + left, (Page.along downward p i).y⟩ :=
    Page.along_shift downward p left 0
  have hleft : (spaces left).length = left := List.length_replicate
  constructor
  · intro i c hc
    obtain ⟨l, hl, hitem⟩ := Option.bind_eq_some_iff.mp (h.char i c hc)
    obtain ⟨hx, -⟩ := List.getElem?_eq_some_iff.mp hitem
    rw [hshift, item?, List.getElem?_map]
    simp only [hl, Option.map_some, Option.bind_some, List.append_assoc]
    rw [List.getElem?_append_right (by omega), hleft, Nat.add_sub_cancel,
      List.getElem?_append_left hx]
    exact hitem
  · intro q c hq hc
    obtain ⟨row, hrow, hitem⟩ := Option.bind_eq_some_iff.mp hq
    rw [List.getElem?_map] at hrow
    obtain ⟨l, hl, rfl⟩ := Option.map_eq_some_iff.mp hrow
    rw [List.append_assoc] at hitem
    by_cases hbefore : q.x < left
    · rw [List.getElem?_append_left (by omega)] at hitem
      exact absurd (List.eq_of_mem_replicate (List.mem_of_getElem? hitem)) hc
    · rw [List.getElem?_append_right (by omega), hleft] at hitem
      by_cases hafter : q.x - left < l.length
      · rw [List.getElem?_append_left hafter] at hitem
        have hinner : item? ls ⟨q.x - left, q.y⟩ = some c :=
          Option.bind_eq_some_iff.mpr ⟨l, hl, hitem⟩
        obtain ⟨i, hi, hplace⟩ := h.blank _ c hinner hc
        refine ⟨i, hi, ?_⟩
        rw [hshift, ← hplace]
        dsimp only
        rw [Nat.sub_add_cancel (by omega)]
      · rw [List.getElem?_append_right (by omega)] at hitem
        exact absurd (List.eq_of_mem_replicate (List.mem_of_getElem? hitem)) hc

/-- Blank lines on both sides move the drawing downward. -/
theorem between (above below : List Nat) :
    Drawn (above.map spaces ++ ls ++ below.map spaces) downward ⟨p.x, p.y + above.length⟩ cs := by
  have hshift : ∀ i, Page.along downward ⟨p.x, p.y + above.length⟩ i =
      ⟨(Page.along downward p i).x, (Page.along downward p i).y + above.length⟩ :=
    Page.along_shift downward p 0 above.length
  constructor
  · intro i c hc
    have hitem := h.char i c hc
    obtain ⟨-, hy⟩ := lt_longest_of_item? hitem
    rw [hshift, item?, List.append_assoc, List.getElem?_append_right (by simp),
      List.getElem?_append_left (by simpa using hy)]
    simpa [item?] using hitem
  · intro q c hq hc
    by_cases hup : q.y < above.length
    · rw [item?, List.append_assoc, List.getElem?_append_left (by simpa using hup)] at hq
      exact absurd (eq_space_of_item? hq) hc
    · rw [item?, List.append_assoc, List.getElem?_append_right (by simpa using hup),
        List.length_map] at hq
      by_cases hdown : q.y - above.length < ls.length
      · rw [List.getElem?_append_left hdown] at hq
        obtain ⟨i, hi, hplace⟩ := h.blank ⟨q.x, q.y - above.length⟩ c hq hc
        refine ⟨i, hi, ?_⟩
        rw [hshift, ← hplace]
        dsimp only
        rw [Nat.sub_add_cancel (by omega)]
      · rw [List.getElem?_append_right (by omega)] at hq
        exact absurd (eq_space_of_item? (p := ⟨q.x, q.y - above.length - ls.length⟩) hq) hc

end Drawn

/-! ## On the page -/

theorem charAt?_frame {source : String} {x y : Nat} (hx : x < longest (lines source.toList))
    (hy : y < (lines source.toList).length) :
    (Page.ofRows (frame source)).charAt? ⟨x + 1, y + 1⟩ =
      some ((item? (lines source.toList) ⟨x, y⟩).getD ' ') := by
  rw [Page.charAt?_ofRows (rectangle_frame source) (by omega) (by dsimp only; omega)
    (by dsimp only; omega)]
  exact Grid.item?_framed '#' ' ' _ hx hy

/-- A drawing is shown one column to the right and one row down, inside the ring. -/
theorem Drawn.shows {source : String} {downward : Bool} {p : Pos} {c : Char} {cs : List Char}
    (h : Drawn (lines source.toList) downward p (c :: cs)) :
    (Page.ofRows (frame source)).Shows downward ⟨p.x + 1, p.y + 1⟩ c cs := by
  obtain ⟨hwidth, hheight⟩ := Page.size_ofRows (rectangle_frame source) (by omega)
  have hshift := Page.along_shift downward p 1 1
  apply Page.Shows.of_along
  · intro i d hd
    have hitem := h.char i d hd
    obtain ⟨hx, hy⟩ := lt_longest_of_item? hitem
    rw [hshift, charAt?_frame hx hy, hitem, hwidth, hheight]
    refine ⟨?_, rfl⟩
    unfold Inside
    dsimp only
    omega
  · rintro ⟨x, y⟩ hq hoff
    rw [hwidth, hheight] at hq
    obtain ⟨⟨hx, hxw⟩, hy, hyh⟩ := hq
    dsimp only at hx hxw hy hyh
    obtain ⟨x, rfl⟩ := Nat.exists_eq_add_one.mpr hx
    obtain ⟨y, rfl⟩ := Nat.exists_eq_add_one.mpr hy
    rw [charAt?_frame (by omega) (by omega)]
    cases hitem : item? (lines source.toList) ⟨x, y⟩ with
    | none => rfl
    | some d =>
      by_cases hd : d = ' '
      · rw [hd]
        rfl
      · obtain ⟨i, hi, hplace⟩ := h.blank ⟨x, y⟩ d hitem hd
        exact absurd (by rw [hshift, ← hplace]) (hoff i hi)

/-! ## Lines of a text -/

theorem item?_append_nil (ls : List (List Char)) (q : Pos) : item? (ls ++ [[]]) q = item? ls q := by
  unfold item?
  by_cases hq : q.y < ls.length
  · rw [List.getElem?_append_left hq]
  · rw [List.getElem?_append_right (by omega), List.getElem?_eq_none (by omega : ls.length ≤ q.y)]
    cases hrow : [([] : List Char)][q.y - ls.length]? with
    | none => rfl
    | some l =>
      rw [List.mem_singleton.mp (List.mem_of_getElem? hrow)]
      rfl

theorem map_dropReturn {ls : List (List Char)} (h : ∀ l ∈ ls, '\r' ∉ l) :
    ls.map dropReturn = ls := by
  have hsame : ∀ l ∈ ls, dropReturn l = id l :=
    fun l hl => if_neg fun hlast => h l hl (List.mem_of_getLast? hlast)
  rw [List.map_congr_left hsame, List.map_id]

/-- Joined lines are cut apart again, but for an empty last line. -/
theorem item?_lines_intercalate {ls : List (List Char)} (hne : ls ≠ [])
    (hnewline : ∀ l ∈ ls, '\n' ∉ l) (hreturn : ∀ l ∈ ls, '\r' ∉ l) (q : Pos) :
    item? (lines (['\n'].intercalate ls)) q = item? ls q := by
  unfold lines
  rw [Text.pieces_intercalate hne hnewline]
  dsimp only
  split
  · next hlast =>
    have hinit : ls.dropLast ++ [[]] = ls := List.dropLast_append_getLast? [] hlast
    rw [map_dropReturn fun l hl => hreturn l (List.dropLast_subset ls hl), ← item?_append_nil,
      hinit]
  · rw [map_dropReturn hreturn]

theorem item?_lines {ls : List (List Char)} (hne : ls ≠ []) (hnewline : ∀ l ∈ ls, '\n' ∉ l)
    (hreturn : ∀ l ∈ ls, '\r' ∉ l) (ended : Bool) (q : Pos) :
    item? (lines (['\n'].intercalate ls ++ if ended then ['\n'] else [])) q = item? ls q := by
  cases ended with
  | false =>
    rw [if_neg Bool.false_ne_true, List.append_nil]
    exact item?_lines_intercalate hne hnewline hreturn q
  | true =>
    -- The final newline starts an empty line.
    obtain ⟨l, ls, rfl⟩ := List.exists_cons_of_ne_nil hne
    have hended : ['\n'].intercalate (l :: ls) ++ ['\n'] =
        ['\n'].intercalate ((l :: ls) ++ [[]]) := by
      rw [List.cons_append, Text.intercalate_singleton, Text.intercalate_singleton]
      simp
    rw [if_pos rfl, hended, item?_lines_intercalate (by simp), item?_append_nil]
    · exact List.forall_mem_append.mpr ⟨hnewline, by simp⟩
    · exact List.forall_mem_append.mpr ⟨hreturn, by simp⟩

/-! ## Spots -/

/-- Where something is written on a sheet: the lengths of the blank lines above and below, the
    numbers of spaces beside it, and whether the last line is ended by a newline. -/
structure Spot where
  above : List Nat
  left : Nat
  right : Nat
  below : List Nat
  ended : Bool

namespace Spot

/-- The lines of the sheet. -/
def lines (spot : Spot) (downward : Bool) (cs : List Char) : List (List Char) :=
  spot.above.map spaces ++
    (block downward cs).map (fun l => spaces spot.left ++ l ++ spaces spot.right) ++
    spot.below.map spaces

/-- The sheet with `cs` written on it, to the right or downward. -/
def sheet (spot : Spot) (downward : Bool) (cs : List Char) : String :=
  String.ofList (['\n'].intercalate (spot.lines downward cs) ++ if spot.ended then ['\n'] else [])

/-- The place of the first character in the grid. -/
def place (spot : Spot) : Pos := ⟨spot.left + 1, spot.above.length + 1⟩

theorem drawn_lines (spot : Spot) (downward : Bool) (cs : List Char) :
    Drawn (spot.lines downward cs) downward ⟨spot.left, spot.above.length⟩ cs := by
  have hdrawn := ((drawn_block downward cs).margins spot.left spot.right).between spot.above
    spot.below
  rwa [Nat.zero_add, Nat.zero_add] at hdrawn

/-- The lines of a sheet hold what is written, and spaces. -/
theorem not_mem_lines (spot : Spot) {downward : Bool} {cs : List Char} {c : Char} (hc : c ∉ cs)
    (hspace : c ≠ ' ') : ∀ l ∈ spot.lines downward cs, c ∉ l := by
  have hspaces : ∀ n, c ∉ spaces n := fun n hmem => hspace (List.eq_of_mem_replicate hmem)
  have hblock : ∀ l ∈ block downward cs, c ∉ l := by
    intro l hl
    unfold block at hl
    cases downward with
    | false =>
      rw [List.mem_singleton.mp hl]
      exact hc
    | true =>
      obtain ⟨d, hd, rfl⟩ := List.mem_map.mp hl
      rw [List.mem_singleton]
      rintro rfl
      exact hc hd
  intro l hl
  rcases List.mem_append.mp hl with hl | hl
  · rcases List.mem_append.mp hl with hl | hl
    · obtain ⟨n, -, rfl⟩ := List.mem_map.mp hl
      exact hspaces n
    · obtain ⟨written, hwritten, rfl⟩ := List.mem_map.mp hl
      simp only [List.mem_append, not_or]
      exact ⟨⟨hspaces _, hblock written hwritten⟩, hspaces _⟩
  · obtain ⟨n, -, rfl⟩ := List.mem_map.mp hl
    exact hspaces n

theorem lines_ne_nil (spot : Spot) (downward : Bool) {cs : List Char} (hcs : cs ≠ []) :
    spot.lines downward cs ≠ [] := by
  have hblock : block downward cs ≠ [] := by
    unfold block
    cases downward <;> simp [hcs]
  simp [lines, hblock]

theorem drawn_sheet (spot : Spot) (downward : Bool) {cs : List Char} (hcs : cs ≠ [])
    (hnewline : '\n' ∉ cs) (hreturn : '\r' ∉ cs) :
    Drawn (Source.lines (spot.sheet downward cs).toList) downward
      ⟨spot.left, spot.above.length⟩ cs := by
  apply (spot.drawn_lines downward cs).congr
  intro q
  rw [sheet, String.toList_ofList]
  exact item?_lines (spot.lines_ne_nil downward hcs)
    (spot.not_mem_lines hnewline (by decide)) (spot.not_mem_lines hreturn (by decide)) spot.ended q

/-- The sheet loads. The value is where the writing starts, and every other place is empty. -/
def Puts (spot : Spot) (downward : Bool) (cs : List Char) (v : Value) : Prop :=
  ∃ g, load (spot.sheet downward cs) = .ok g ∧ g.get? spot.place = some (.data ⟨v, .right⟩) ∧
    ∀ q ∈ g.interior, q ≠ spot.place → g.get? q = some .empty

/-- A literal that is read to its end puts its value at its opener. -/
theorem puts_literal (spot : Spot) {c : Char} {cs : List Char} {o : Opener}
    (ho : opener? c = some o) {content : Content}
    (hread : ∀ rest, o.read (cs ++ rest) = some (content, cs.length)) {v : Value}
    (hcell : ∀ p, contentCell p content = .ok (.ofValue v)) (hnewline : '\n' ∉ c :: cs)
    (hreturn : '\r' ∉ c :: cs) : spot.Puts o.downward (c :: cs) v := by
  have hshows : (Page.ofRows (frame (spot.sheet o.downward (c :: cs)))).Shows o.downward
      spot.place c cs :=
    (spot.drawn_sheet o.downward (List.cons_ne_nil c cs) hnewline hreturn).shows
  have hcourse := hshows.course (ringed_frame _) ho rfl hread (hcell spot.place)
  obtain ⟨g, hload, hwidth, hheight, hget⟩ := hcourse.load_eq
  refine ⟨g, hload, ?_, ?_⟩
  · have hplace : Inside g.width g.height spot.place := by
      rw [hwidth, hheight]
      exact hshows.inside
    rw [hget _ (Grid.contains_of_interior (Grid.mem_interior_iff.mpr hplace)), if_pos rfl]
    rfl
  · intro q hq hne
    have hin : Inside g.width g.height q := Grid.mem_interior_iff.mp hq
    rw [hwidth, hheight] at hin
    rw [hget q (Grid.contains_of_interior hq), if_neg hne, if_pos hin]

/-- A written text puts itself. -/
theorem puts_text (spot : Spot) {quote : Char} {downward : Bool}
    (ho : opener? quote = some ⟨.text, quote, downward⟩) (s : String) :
    spot.Puts downward (quote :: escaped quote s.toList ++ [quote]) (.text s) := by
  have hquote : quote = '"' ∨ quote = '\'' := by
    unfold opener? at ho
    split at ho <;> cases ho <;> simp
  have hread : ∀ rest, Opener.read ⟨.text, quote, downward⟩
      (escaped quote s.toList ++ [quote] ++ rest) =
        some (.text s, (escaped quote s.toList ++ [quote]).length) := by
    intro rest
    show (readText quote false _).map _ = _
    rw [List.append_assoc, List.singleton_append,
      readText_escaped (by rcases hquote with rfl | rfl <;> decide)
        (by rcases hquote with rfl | rfl <;> rfl)]
    simp
  have hline : ∀ c, c = '\n' ∨ c = '\r' → c ∉ quote :: (escaped quote s.toList ++ [quote]) := by
    intro c hc
    have hne : quote ≠ c := by
      rcases hquote with rfl | rfl <;> rcases hc with rfl | rfl <;> decide
    simp [not_mem_escaped hc hne, hne.symm]
  exact spot.puts_literal ho hread (fun _ => rfl) (hline '\n' (.inl rfl)) (hline '\r' (.inr rfl))

/-- A sign and digits put the integer that they spell, brought into range. -/
theorem puts_number (spot : Spot) {c close : Char} {downward : Bool}
    (ho : opener? c = some ⟨.number, close, downward⟩) (negative : Bool) {ds : List Char}
    (hds : ∀ d ∈ ds, isDigit d = true) :
    spot.Puts downward (c :: minus negative ++ ds ++ [close])
      (.number (Int64.ofInt (signedValue negative ds))) := by
  have hopen : c = '(' ∧ close = ')' ∨ c = '[' ∧ close = ']' := by
    unfold opener? at ho
    split at ho <;> cases ho <;> simp
  have hread : ∀ rest, Opener.read ⟨.number, close, downward⟩
      (minus negative ++ ds ++ [close] ++ rest) =
        some (.number (Int64.ofInt (signedValue negative ds)),
          (minus negative ++ ds ++ [close]).length) := by
    intro rest
    show (readNumber true false 0 _).map _ = _
    rw [List.append_assoc, List.singleton_append,
      readNumber_signed (by rcases hopen with ⟨-, rfl⟩ | ⟨-, rfl⟩ <;> rfl)
        (by rcases hopen with ⟨-, rfl⟩ | ⟨-, rfl⟩ <;> decide) hds]
    simp [Nat.add_assoc]
  have hline : ∀ b, b = '\n' ∨ b = '\r' → b ∉ c :: (minus negative ++ ds ++ [close]) := by
    intro b hb
    have hdigit : b ∉ ds := by
      intro hmem
      have hnot := hds b hmem
      rcases hb with rfl | rfl <;> cases hnot
    have hsign : b ∉ minus negative := by
      unfold minus
      rcases hb with rfl | rfl <;> cases negative <;> decide
    rcases hopen with ⟨rfl, rfl⟩ | ⟨rfl, rfl⟩ <;> rcases hb with rfl | rfl <;> simp [hdigit, hsign]
  exact spot.puts_literal ho hread (fun _ => rfl) (hline '\n' (.inl rfl)) (hline '\r' (.inr rfl))

end Spot

/-- Literals decode what they encode, wherever they stand on a blank sheet. A text comes back as it
    was written. A sign and digits give the number that is congruent to what they spell, so the text
    of a number gives the number itself. -/
theorem literals_load (spot : Spot) :
    (∀ s : String,
      spot.Puts false ('"' :: escaped '"' s.toList ++ ['"']) (.text s) ∧
      spot.Puts true ('\'' :: escaped '\'' s.toList ++ ['\'']) (.text s)) ∧
    (∀ negative ds, (∀ c ∈ ds, isDigit c = true) →
      ∃ n : Number, n.toInt ≡ signedValue negative ds [ZMOD 2 ^ 64] ∧
        spot.Puts false ('(' :: minus negative ++ ds ++ [')']) (.number n) ∧
        spot.Puts true ('[' :: minus negative ++ ds ++ [']']) (.number n)) ∧
    ∀ n : Number,
      spot.Puts false ('(' :: n.text.toList ++ [')']) (.number n) ∧
      spot.Puts true ('[' :: n.text.toList ++ [']']) (.number n) := by
  refine ⟨?_, ?_, ?_⟩
  · intro s
    exact ⟨spot.puts_text rfl s, spot.puts_text rfl s⟩
  · intro negative ds hds
    exact ⟨_, toInt_ofInt_modEq (signedValue negative ds), spot.puts_number rfl negative hds,
      spot.puts_number rfl negative hds⟩
  · intro n
    obtain ⟨negative, ds, htext, hds, hn⟩ := text_signed n
    have hacross := spot.puts_number (c := '(') rfl negative hds
    have hdown := spot.puts_number (c := '[') rfl negative hds
    rw [hn, List.cons_append, ← htext] at hacross hdown
    exact ⟨hacross, hdown⟩

/-- A spot between blank lines, the first and the last of them empty. -/
def indented : Spot := ⟨[0, 3], 2, 1, [4, 0], false⟩

theorem literals_load_indented :
    (∀ c ∈ "18446744073709551617".toList, isDigit c = true) ∧
    indented.Puts true ('\'' :: escaped '\'' "it's \\\n[#".toList ++ ['\''])
      (.text "it's \\\n[#") ∧
    (∃ n : Number, n.toInt ≡ -18446744073709551617 [ZMOD 2 ^ 64] ∧
      indented.Puts false "(-18446744073709551617)".toList (.number n)) ∧
    indented.Puts true "[-9223372036854775808]".toList (.number Int64.minValue) := by
  have hdigits : ∀ c ∈ "18446744073709551617".toList, isDigit c = true :=
    List.forall_iff_forall_mem.mp (by decide)
  obtain ⟨htexts, hspelt, hnumbers⟩ := literals_load indented
  obtain ⟨n, hn, hacross, -⟩ := hspelt true _ hdigits
  refine ⟨hdigits, (htexts _).2, ⟨n, hn, hacross⟩, (hnumbers Int64.minValue).2⟩

end Source

end Gridfall
