/-
  Literals, read one character at a time.

  A reader looks at no more characters than it takes (`PromptOn`), so it can be fed one by one until
  it has an answer. `literalChecked?` does so along the way of a literal, and with no other test
  than whether the next place is in the last column or the last row; off the page it has no result.
  From inside the ring it always has one, and it is that of `literalCell` (`literalChecked?_eq`):
  the last column or row is met before the page ends.
-/
import Gridfall.Proofs.Source.Page
import Gridfall.Source.Load

namespace Gridfall

namespace Source

/-! ## Readers -/

/-- What a reader answers on `cs` it answers from the characters that it took, whatever comes after
    them. -/
def PromptOn {α : Type} (read : List Char → Option (α × Nat)) (cs : List Char) : Prop :=
  ∀ a n, read cs = some (a, n) → n ≤ cs.length ∧ ∀ ds, read (cs.take n ++ ds) = some (a, n)

namespace PromptOn

variable {α : Type} {read next : List Char → Option (α × Nat)} {c : Char} {cs : List Char}

/-- The character completes what is read. -/
theorem stop (a : α) (hread : ∀ ds, read (c :: ds) = some (a, 1)) : PromptOn read (c :: cs) := by
  intro b n hb
  cases (hread cs).symm.trans hb
  exact ⟨Nat.succ_le_succ (Nat.zero_le _), hread⟩

/-- The character is taken, and `next` goes on. -/
theorem step (f : α → α)
    (hread : ∀ ds, read (c :: ds) = (next ds).map fun r => (f r.1, r.2 + 1))
    (h : PromptOn next cs) : PromptOn read (c :: cs) := by
  intro b n hb
  rw [hread] at hb
  obtain ⟨⟨a, k⟩, ha, heq⟩ := Option.map_eq_some_iff.mp hb
  cases heq
  obtain ⟨hle, hagain⟩ := h a k ha
  refine ⟨Nat.succ_le_succ hle, fun ds => ?_⟩
  rw [List.take_succ_cons, List.cons_append, hread, hagain]
  rfl

theorem map {β : Type} (f : α → β) (h : PromptOn read cs) :
    PromptOn (fun cs => (read cs).map fun r => (f r.1, r.2)) cs := by
  intro b n hb
  obtain ⟨⟨a, k⟩, ha, heq⟩ := Option.map_eq_some_iff.mp hb
  cases heq
  obtain ⟨hle, hagain⟩ := h a k ha
  exact ⟨hle, fun ds => congrArg (Option.map _) (hagain ds)⟩

end PromptOn

theorem prompt_readUpTo (close : Char) (cs : List Char) : PromptOn (readUpTo close) cs := by
  induction cs with
  | nil =>
    intro a n h
    cases h
  | cons c cs ih =>
    by_cases hc : c = close
    · exact .stop [] fun ds => by simp [readUpTo, hc]
    · exact ih.step (c :: ·) fun ds => by simp [readUpTo, hc]

theorem prompt_readNumber (atStart negative : Bool) (n : Number) (cs : List Char) :
    PromptOn (readNumber atStart negative n) cs := by
  induction cs generalizing atStart negative n with
  | nil =>
    intro a n h
    cases h
  | cons c cs ih =>
    cases hd : Text.Decimal.digit? c with
    | some d =>
      exact (ih false negative (n * 10 + Int64.ofNat d)).step id fun ds => by simp [readNumber, hd]
    | none =>
      cases hminus : atStart && c == '-' with
      | true => exact (ih false true n).step id fun ds => by simp only [readNumber, hd, hminus]; rfl
      | false =>
        exact .stop (if negative then -n else n) fun ds => by
          simp only [readNumber, hd, hminus]
          rfl

theorem prompt_readText (close : Char) (escaped : Bool) (cs : List Char) :
    PromptOn (readText close escaped) cs := by
  induction cs generalizing escaped with
  | nil =>
    intro a n h
    cases escaped <;> cases h
  | cons c cs ih =>
    cases escaped with
    | true => exact (ih false).step (unescape c :: ·) fun ds => rfl
    | false =>
      by_cases hc : c = close
      · exact .stop [] fun ds => by simp [readText, hc]
      · by_cases hslash : c = '\\'
        · exact (ih true).step id fun ds => by rw [readText, if_neg hc, if_pos hslash]; rfl
        · exact (ih false).step (c :: ·) fun ds => by rw [readText, if_neg hc, if_neg hslash]

namespace Opener

theorem promptOn_read (o : Opener) (cs : List Char) : PromptOn o.read cs := by
  obtain ⟨kind, close, downward⟩ := o
  cases kind with
  | comment => exact (prompt_readUpTo close cs).map fun _ => Content.comment
  | number => exact (prompt_readNumber true false 0 cs).map Content.number
  | text => exact (prompt_readText close false cs).map fun s => Content.text (String.ofList s)
  | constant => exact (prompt_readUpTo close cs).map fun s => Content.constant (String.ofList s)

theorem read_nil (o : Opener) : o.read [] = none := by
  obtain ⟨kind, close, downward⟩ := o
  cases kind <;> rfl

variable {o : Opener} {cs : List Char} {content : Content} {n : Nat}

/-- What is complete stays complete. -/
theorem read_append (h : o.read cs = some (content, n)) (ds : List Char) :
    o.read (cs ++ ds) = some (content, n) := by
  have hagain := (o.promptOn_read cs content n h).2 (cs.drop n ++ ds)
  rw [← List.append_assoc, List.take_append_drop] at hagain
  exact hagain

/-- What is complete only with `ds` takes some of it. -/
theorem length_lt_of_read (hnone : o.read cs = none) {ds : List Char}
    (h : o.read (cs ++ ds) = some (content, n)) : cs.length < n := by
  by_contra hle
  have hagain := (o.promptOn_read _ content n h).2 (cs.drop n)
  rw [List.take_append_of_le_length (by omega), List.take_append_drop, hnone] at hagain
  cases hagain

end Opener

/-! ## The way of a literal -/

/-- The place that follows `p` on the way of a literal. -/
def nextPlace (downward : Bool) (p : Pos) : Pos :=
  if downward then ⟨p.x, p.y + 1⟩ else ⟨p.x + 1, p.y⟩

namespace Page

/-- The next place is farther from the upper left corner. -/
theorem nextPlace_far (downward : Bool) (p : Pos) :
    p.x ≤ (nextPlace downward p).x ∧ p.y ≤ (nextPlace downward p).y ∧
      p.x + p.y < (nextPlace downward p).x + (nextPlace downward p).y := by
  cases downward with
  | false =>
    show p.x ≤ p.x + 1 ∧ p.y ≤ p.y ∧ p.x + p.y < p.x + 1 + p.y
    omega
  | true =>
    show p.x ≤ p.x ∧ p.y ≤ p.y + 1 ∧ p.x + p.y < p.x + (p.y + 1)
    omega

/-- The places ahead of `p` on the way of a literal, up to the ring. -/
def ahead (page : Page) (downward : Bool) (p : Pos) : List Pos :=
  if downward then page.below p else page.rightOf p

/-- The next place is in the last column or the last row. -/
def meetsRing (page : Page) (q : Pos) : Prop := q.x + 1 = page.width ∨ q.y + 1 = page.height

instance (page : Page) (q : Pos) : Decidable (page.meetsRing q) :=
  inferInstanceAs (Decidable (_ ∨ _))

variable {page : Page} {downward : Bool} {p : Pos}

/-- From inside, the way ends where the next place meets the ring. -/
theorem ahead_of_meetsRing (hp : Inside page.width page.height p)
    (hnext : page.meetsRing (nextPlace downward p)) : page.ahead downward p = [] := by
  obtain ⟨⟨-, hwidth⟩, -, hheight⟩ := hp
  cases downward with
  | false =>
    have hnext : p.x + 1 + 1 = page.width ∨ p.y + 1 = page.height := hnext
    have hnone : page.width - 2 - p.x = 0 := by omega
    show (List.range' (p.x + 1) (page.width - 2 - p.x)).map _ = []
    rw [hnone]
    rfl
  | true =>
    have hnext : p.x + 1 = page.width ∨ p.y + 1 + 1 = page.height := hnext
    have hnone : page.height - 2 - p.y = 0 := by omega
    show (List.range' (p.y + 1) (page.height - 2 - p.y)).map _ = []
    rw [hnone]
    rfl

theorem ahead_of_not_meetsRing (hp : Inside page.width page.height p)
    (hnext : ¬ page.meetsRing (nextPlace downward p)) :
    page.ahead downward p =
      nextPlace downward p :: page.ahead downward (nextPlace downward p) := by
  obtain ⟨⟨-, hwidth⟩, -, hheight⟩ := hp
  cases downward with
  | false =>
    have hnext : ¬ (p.x + 1 + 1 = page.width ∨ p.y + 1 = page.height) := hnext
    have hmore : page.width - 2 - p.x = page.width - 2 - (p.x + 1) + 1 := by omega
    show (List.range' (p.x + 1) (page.width - 2 - p.x)).map _ = _
    rw [hmore]
    rfl
  | true =>
    have hnext : ¬ (p.x + 1 = page.width ∨ p.y + 1 + 1 = page.height) := hnext
    have hmore : page.height - 2 - p.y = page.height - 2 - (p.y + 1) + 1 := by omega
    show (List.range' (p.y + 1) (page.height - 2 - p.y)).map _ = _
    rw [hmore]
    rfl

theorem inside_of_mem_ahead (hp : Inside page.width page.height p) {q : Pos}
    (hq : q ∈ page.ahead downward p) : Inside page.width page.height q := by
  obtain ⟨⟨hx, hwidth⟩, hy, hheight⟩ := hp
  cases downward with
  | false =>
    obtain ⟨x, hx, rfl⟩ := List.mem_map.mp hq
    have := List.mem_range'_1.mp hx
    show (0 < x ∧ x + 1 < page.width) ∧ 0 < p.y ∧ p.y + 1 < page.height
    omega
  | true =>
    obtain ⟨y, hy, rfl⟩ := List.mem_map.mp hq
    have := List.mem_range'_1.mp hy
    show (0 < p.x ∧ p.x + 1 < page.width) ∧ 0 < y ∧ y + 1 < page.height
    omega

theorem inside_nextPlace (hp : Inside page.width page.height p)
    (hnext : ¬ page.meetsRing (nextPlace downward p)) :
    Inside page.width page.height (nextPlace downward p) := by
  apply inside_of_mem_ahead hp
  rw [ahead_of_not_meetsRing hp hnext]
  exact List.mem_cons_self

theorem not_mem_ahead : p ∉ page.ahead downward p := by
  intro hp
  cases downward with
  | false =>
    obtain ⟨x, hx, heq⟩ := List.mem_map.mp hp
    have := (List.mem_range'_1.mp hx).1
    have := congrArg Pos.x heq
    simp only at this
    omega
  | true =>
    obtain ⟨y, hy, heq⟩ := List.mem_map.mp hp
    have := (List.mem_range'_1.mp hy).1
    have := congrArg Pos.y heq
    simp only at this
    omega

/-- Every place of the page has a character. -/
def Whole (page : Page) : Prop :=
  ∀ p : Pos, p.x < page.width → p.y < page.height → (page.charAt? p).isSome = true

theorem Whole.charAt? (h : page.Whole) {q : Pos} (hx : q.x < page.width) (hy : q.y < page.height) :
    page.charAt? q = some (page.charAt q) := by
  obtain ⟨c, hc⟩ := Option.isSome_iff_exists.mp (h q hx hy)
  rw [hc, charAt_of_charAt? hc]

theorem Eroded.whole {page' : Page} (h : page.Eroded page') (hw : page.Whole) : page'.Whole := by
  intro q hx hy
  rw [h.width] at hx
  rw [h.height] at hy
  exact h.isSome (hw q hx hy)

theorem Whole.inside (h : page.Whole) {q : Pos} (hq : Inside page.width page.height q) :
    page.charAt? q = some (page.charAt q) := by
  obtain ⟨⟨-, hx⟩, -, hy⟩ := hq
  exact h.charAt? (by omega) (by omega)

/-- Erasing a place does not change the way ahead of it. -/
theorem charAt_erase_of_mem_ahead (h : page.Whole) {q r : Pos}
    (hq : Inside page.width page.height q) (hr : r ∈ page.ahead downward q) :
    (page.erase q).charAt r = page.charAt r := by
  have hne : r ≠ q := by
    rintro rfl
    exact not_mem_ahead hr
  have hchar := charAt?_erase (by rw [h.inside hq]; rfl) r
  rw [if_neg hne, h.inside (inside_of_mem_ahead hq hr)] at hchar
  exact charAt_of_charAt? hchar

/-- Reads a character of the page and erases it. -/
def take? (page : Page) (p : Pos) : Option (Char × Page) :=
  (page.charAt? p).map fun c => (c, page.erase p)

theorem bound_of_take? {q : Pos} {c : Char} {next : Page} (h : page.take? q = some (c, next)) :
    (q.x < page.width ∧ q.y < page.height) ∧ next = page.erase q := by
  obtain ⟨c', hc, heq⟩ := Option.map_eq_some_iff.mp h
  cases heq
  refine ⟨?_, rfl⟩
  by_contra hoff
  simp [Page.charAt?, hoff] at hc

end Page

/-! ## Literals with checks -/

/-- Reads a literal on from `p`, after the characters `seen`: one place ahead, the test for the
    ring, then the character there, which is erased. The literal is complete once its reader has an
    answer. There is no result if a place is not on the page. -/
def literalChecked? (o : Opener) (start : Pos) (page : Page) (p : Pos) (seen : List Char) :
    Option (Except LoadError (Cell × Page)) :=
  if page.meetsRing (nextPlace o.downward p) then some (.error (.unterminatedLiteral start))
  else
    match _taken : page.take? (nextPlace o.downward p) with
    | none => none
    | some (c, next) =>
      match o.read (seen ++ [c]) with
      | some (content, _) => some ((contentCell start content).map fun cell => (cell, next))
      | none => literalChecked? o start next (nextPlace o.downward p) (seen ++ [c])
termination_by (page.width - p.x) + (page.height - p.y)
decreasing_by
  obtain ⟨⟨hx, hy⟩, rfl⟩ := Page.bound_of_take? _taken
  show page.width - (nextPlace o.downward p).x + (page.height - (nextPlace o.downward p).y) < _
  have hstep := Page.nextPlace_far o.downward p
  omega

/-- What the scan makes of a literal after the characters `seen`, with the places `path` ahead. -/
def literalRest (o : Opener) (start : Pos) (page : Page) (path : List Pos) (seen : List Char) :
    Except LoadError (Cell × Page) :=
  match o.read (seen ++ path.map page.charAt) with
  | none => .error (.unterminatedLiteral start)
  | some (content, taken) =>
    (contentCell start content).map fun cell =>
      (cell, (path.take (taken - seen.length)).foldl Page.erase page)

theorem literalCell_eq (page : Page) (p : Pos) (o : Opener) :
    literalCell page p o = literalRest o p page (page.ahead o.downward p) [] := rfl

/-- The next character completes the literal. -/
theorem literalRest_of_some {o : Opener} {start : Pos} {page : Page} {q : Pos} {path : List Pos}
    {seen : List Char} {content : Content} {n : Nat} (hseen : o.read seen = none)
    (hread : o.read (seen ++ [page.charAt q]) = some (content, n)) :
    literalRest o start page (q :: path) seen =
      (contentCell start content).map fun cell => (cell, page.erase q) := by
  have hall := Opener.read_append hread (path.map page.charAt)
  rw [List.append_assoc, List.singleton_append] at hall
  have hlower := Opener.length_lt_of_read hseen hread
  have hupper := (o.promptOn_read _ content n hread).1
  have htaken : n - seen.length = 1 := by
    rw [List.length_append, List.length_singleton] at hupper
    omega
  rw [literalRest, List.map_cons, hall]
  simp only [htaken, List.take_succ_cons, List.take_zero, List.foldl_cons, List.foldl_nil]

/-- The literal goes on after the next character. -/
theorem literalRest_of_none {o : Opener} {start : Pos} {page : Page} {q : Pos} {path : List Pos}
    {seen : List Char} (hread : o.read (seen ++ [page.charAt q]) = none)
    (hpath : ∀ r ∈ path, (page.erase q).charAt r = page.charAt r) :
    literalRest o start page (q :: path) seen =
      literalRest o start (page.erase q) path (seen ++ [page.charAt q]) := by
  unfold literalRest
  rw [List.map_congr_left hpath, List.map_cons, List.append_assoc, List.singleton_append]
  split
  · rfl
  · next content n hall =>
    rw [← List.singleton_append, ← List.append_assoc] at hall
    have hlower := Opener.length_lt_of_read hread hall
    rw [List.length_append, List.length_singleton] at hlower ⊢
    have htaken : n - seen.length = n - (seen.length + 1) + 1 := by omega
    rw [htaken, List.take_succ_cons, List.foldl_cons]

/-- A literal that starts inside the ring is read without leaving the page. -/
theorem literalChecked?_eq (o : Opener) (start : Pos) {page : Page} (hw : page.Whole) {p : Pos}
    (hp : Inside page.width page.height p) {seen : List Char} (hseen : o.read seen = none) :
    literalChecked? o start page p seen =
      some (literalRest o start page (page.ahead o.downward p) seen) := by
  -- The induction is on the way that is left; each turn takes its first place.
  generalize hpath : page.ahead o.downward p = path
  induction path generalizing page p seen with
  | nil =>
    have hring : page.meetsRing (nextPlace o.downward p) := by
      by_contra hnext
      rw [Page.ahead_of_not_meetsRing hp hnext] at hpath
      cases hpath
    rw [literalChecked?, if_pos hring]
    simp [literalRest, hseen]
  | cons q path ih =>
    have hnext : ¬ page.meetsRing (nextPlace o.downward p) := by
      intro hring
      rw [Page.ahead_of_meetsRing hp hring] at hpath
      cases hpath
    rw [Page.ahead_of_not_meetsRing hp hnext] at hpath
    obtain ⟨rfl, hrest⟩ := List.cons.inj hpath
    have hin := Page.inside_nextPlace hp hnext
    have htake : page.take? (nextPlace o.downward p) =
        some (page.charAt (nextPlace o.downward p), page.erase (nextPlace o.downward p)) := by
      rw [Page.take?, hw.inside hin]
      rfl
    rw [literalChecked?, if_neg hnext]
    split
    · next hoff => cases hoff.symm.trans htake
    · next c next hon =>
      cases hon.symm.trans htake
      split
      · next content n hread => rw [literalRest_of_some hseen hread]
      · next hread =>
        have heroded : page.Eroded (page.erase (nextPlace o.downward p)) :=
          .erase (by rw [hw.inside hin]; rfl) hin
        rw [literalRest_of_none hread fun r hr =>
          Page.charAt_erase_of_mem_ahead hw hin (hrest ▸ hr)]
        exact ih (heroded.whole hw) hin hread hrest

end Source

end Gridfall
