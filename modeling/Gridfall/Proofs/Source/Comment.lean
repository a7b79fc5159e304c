/-
  Comments are blank. Once a comment is reached as such, it can be replaced by as many spaces, and
  the program loads to the same grid or with the same error at the same place (`comment_blank`).

  The two pages are scanned in lockstep. Up to the comment they differ inside it only, and what
  stands before it on its line is read as if it were alone (`Leads`): it loads alone, so all its
  literals are complete before the comment starts. After the comment the pages differ at its opener
  only, which is on no way ahead any more.
-/
import Gridfall.Proofs.Source.Lead
import Gridfall.Proofs.Source.Lockstep

namespace Gridfall

namespace Source

/-! ## The comment and its blanks -/

theorem readUpTo_append {close : Char} {cs : List Char} (h : close ∉ cs) (rest : List Char) :
    readUpTo close (cs ++ close :: rest) = some (cs, cs.length + 1) := by
  induction cs with
  | nil => simp [readUpTo]
  | cons c cs ih =>
    obtain ⟨hc, hcs⟩ := List.ne_and_not_mem_of_not_mem_cons h
    simp [readUpTo, Ne.symm hc, ih hcs]

/-- A comment leaves an empty cell, and its characters are erased up to its end. -/
theorem scanCell_comment {a : Page} {p : Pos} {c : List Char} (hfirst : a.charAt? p = some '\x7b')
    (hclosed : '\x7d' ∉ c) (htext : c ++ ['\x7d'] <+: (a.ahead false p).map a.charAt) :
    scanCell a p = .ok (.empty, a.eraseRight p (c.length + 1)) := by
  obtain ⟨rest, hrest⟩ := htext
  have hread : Opener.read ⟨.comment, '\x7d', false⟩ ((a.ahead false p).map a.charAt) =
      some (.comment, c.length + 1) := by
    show (readUpTo '\x7d' _).map _ = _
    rw [← hrest, List.append_assoc, List.singleton_append, readUpTo_append hclosed]
    rfl
  rw [scanCell, Page.charAt_of_charAt? hfirst]
  show literalCell a p ⟨.comment, '\x7d', false⟩ = _
  rw [literalCell_eq, literalRest, List.nil_append]
  dsimp only
  rw [hread]
  rfl

/-- At `⟨x, y⟩` the first page has the comment `c` and the second one has spaces. Otherwise the
    pages are the same. No literal goes downward from the rows above. The first `w` characters of
    the row are complete, and no literal starts between them and the comment. -/
structure Blanked (base base' : Page) (w x y : Nat) (c : List Char) : Prop where
  width : base'.width = base.width
  height : base'.height = base.height
  first : Inside base.width base.height ⟨x, y⟩
  last : x + (c.length + 1) + 1 < base.width
  closed : '\x7d' ∉ c
  text : ∀ i d, ('\x7b' :: (c ++ ['\x7d']))[i]? = some d → base.charAt? ⟨x + i, y⟩ = some d
  blank : ∀ x', x ≤ x' → x' ≤ x + (c.length + 1) → base'.charAt? ⟨x', y⟩ = some ' '
  same : ∀ q : Pos, ¬ (q.y = y ∧ x ≤ q.x ∧ q.x ≤ x + (c.length + 1)) →
    base'.charAt? q = base.charAt? q
  above : ∀ (q : Pos) (d : Char) (o : Opener), q.y < y → base.charAt? q = some d →
    opener? d = some o → o.downward = false
  before : w < x
  lead : 0 < w → ∃ m : Page, m.width = w + 2 ∧ Leads m 1 base y
  gap : ∀ x' d, w < x' → x' < x → base.charAt? ⟨x', y⟩ = some d → opener? d = none

namespace Blanked

/-- The column from which on the row of the comment is to be read. -/
def column (y : Nat) (p : Pos) : Nat := if p.y < y then 1 else max 1 p.x

/-- The pages before the comment: they differ behind column `w` of its row only, where they are
    untouched, and up to that column the row is still complete. -/
structure Before (base base' : Page) (w y : Nat) (p : Pos) (a b : Page) : Prop where
  same : ∀ q : Pos, ¬ (q.y = y ∧ w < q.x) → b.charAt? q = a.charAt? q
  kept : ∀ x', w < x' → a.charAt? ⟨x', y⟩ = base.charAt? ⟨x', y⟩ ∧
    b.charAt? ⟨x', y⟩ = base'.charAt? ⟨x', y⟩
  lead : column y p ≤ w → ∃ m : Page, m.width = w + 2 ∧ Leads m (column y p) a y

/-- The pages after the comment: they differ at its opener only. -/
def After (x y : Nat) (a b : Page) : Prop := ∀ q : Pos, q ≠ ⟨x, y⟩ → b.charAt? q = a.charAt? q

section

variable {base base' : Page} {w y : Nat} {p : Pos} {a b : Page}

/-- Nothing of the row of the comment is erased. -/
theorem Before.erased (h : Before base base' w y p a b) {path : List Pos}
    (hpath : ∀ q ∈ path, q.y ≠ y) {a' b' : Page} (ha : a.Erased path a') (hb : b.Erased path b')
    {p' : Pos} (hcolumn : column y p' = column y p ∨ w < column y p') :
    Before base base' w y p' a' b' := by
  have hrow : ∀ x', (⟨x', y⟩ : Pos) ∉ path := fun x' hmem => hpath _ hmem rfl
  refine ⟨?_, ?_, ?_⟩
  · intro q hq
    rw [ha.char, hb.char, h.same q hq]
  · intro x' hx'
    rw [ha.char, hb.char, if_neg (hrow x'), if_neg (hrow x')]
    exact h.kept x' hx'
  · intro hw
    rcases hcolumn with heq | hbehind
    · rw [heq] at hw ⊢
      obtain ⟨m, hm, hlead⟩ := h.lead hw
      refine ⟨m, hm, hlead.congr ha.width fun x' _ => ?_⟩
      rw [ha.char, if_neg (hrow x')]
    · omega

end

variable {base base' : Page} {w x y : Nat} {c : List Char} (h : Blanked base base' w x y c)
include h

theorem before_start : Before base base' w y ⟨0, 0⟩ base base' := by
  have hbefore := h.before
  refine ⟨fun q hq => h.same q (by omega), fun x' _ => ⟨rfl, rfl⟩, ?_⟩
  have hy : 0 < y := h.first.2.1
  intro hw
  rw [column, if_pos hy] at hw ⊢
  exact h.lead hw

variable {a b : Page} {p : Pos}

/-- Before the comment is read, the pages differ inside it only. -/
theorem charAt?_before (hbefore : Before base base' w y p a b) {q : Pos}
    (hq : ¬ (q.y = y ∧ x ≤ q.x ∧ q.x ≤ x + (c.length + 1))) : b.charAt? q = a.charAt? q := by
  by_cases hrow : q.y = y ∧ w < q.x
  · obtain ⟨qx, qy⟩ := q
    obtain ⟨rfl, hw⟩ := hrow
    obtain ⟨hkept, hkept'⟩ := hbefore.kept qx hw
    rw [hkept, hkept', h.same _ hq]
  · exact hbefore.same q hrow

/-- The comment is read to its end. -/
theorem step_comment (hbase : base.Ringed) (ha : base.Eroded a) (hp : p = ⟨x, y⟩)
    (hbefore : Before base base' w y p a b) :
    SameResult (After x y) (scanCell a p) (scanCell b p) := by
  subst hp
  have hw := h.before
  have hlast := h.last
  have hwhole := ha.whole hbase.whole
  have hin : Inside a.width a.height ⟨x, y⟩ := by
    rw [ha.width, ha.height]
    exact h.first
  have htext : ∀ i d, ('\x7b' :: (c ++ ['\x7d']))[i]? = some d →
      a.charAt? ⟨x + i, y⟩ = some d := by
    intro i d hd
    rw [(hbefore.kept (x + i) (by omega)).1]
    exact h.text i d hd
  have hprefix : c ++ ['\x7d'] <+: (a.ahead false ⟨x, y⟩).map a.charAt := by
    apply Page.prefix_of_along
    intro i d hd
    refine ⟨?_, htext (i + 1) d hd⟩
    have hi := (List.getElem?_eq_some_iff.mp hd).1
    rw [List.length_append, List.length_singleton] at hi
    rw [ha.width]
    exact ⟨⟨by show 0 < x + (i + 1); omega, by show x + (i + 1) + 1 < _; omega⟩, hin.2⟩
  have hfirst : a.charAt? ⟨x, y⟩ = some '\x7b' := htext 0 _ rfl
  have hblank : b.charAt? ⟨x, y⟩ = some ' ' := by
    rw [(hbefore.kept x hw).2]
    exact h.blank x (Nat.le_refl x) (by omega)
  rw [scanCell_comment hfirst h.closed hprefix, scanCell_space hblank]
  refine .ok _ fun q hq => ?_
  rw [Page.charAt?_eraseRight hwhole hin (by rw [ha.width]; exact hlast)]
  split
  · next hspan =>
    obtain ⟨qx, qy⟩ := q
    obtain ⟨rfl, hlower, hupper⟩ := hspan
    dsimp only at hlower hupper
    rw [(hbefore.kept qx (by omega)).2]
    exact h.blank qx (by omega) hupper
  · next hspan =>
    apply h.charAt?_before hbefore
    rintro ⟨hrow, hlower, hupper⟩
    rcases Nat.lt_or_eq_of_le hlower with hlower | heq
    · exact hspan ⟨hrow, hlower, hupper⟩
    · exact hq (by cases q; simp_all)

variable (hbase : base.Ringed) (hbase' : base'.Ringed) (ha : base.Eroded a)
  (hb : base'.Eroded b) (hx : p.x < base.width) (hy : p.y < base.height)
include hbase hbase' ha hb hx hy

/-- In a row above the comment, literals stay in that row. -/
theorem step_above (hp : p.y < y) (hbefore : Before base base' w y p a b) :
    SameResult (Before base base' w y ⟨p.x + 1, p.y⟩) (scanCell a p) (scanCell b p) := by
  have hright : ∀ o, opener? (a.charAt p) = some o → ∀ q ∈ a.ahead o.downward p, q.y ≠ y := by
    intro o ho q hq
    obtain ⟨-, horiginal⟩ := original_of_opener hbase ha hx hy ho
    rw [h.above p _ o hp horiginal ho] at hq
    have := (Page.mem_ahead_right hq).1
    omega
  have halike := scanCell_alike hbase ha hx hy hbase' hb h.width h.height
    (hbefore.same p fun hrow => by omega)
    (fun o ho q hq => hbefore.same q fun hrow => hright o ho q hq hrow.1)
  refine halike.mono ?_
  rintro a' b' ⟨path, hpath, ha', hb'⟩
  have hcolumn : column y ⟨p.x + 1, p.y⟩ = column y p := by
    rw [column, column, if_pos hp, if_pos hp]
  refine hbefore.erased (fun q hq => ?_) ha' hb' (.inl hcolumn)
  obtain ⟨o, ho, hmem⟩ := hpath q hq
  exact hright o ho q hmem

/-- At the ring and between the complete part of the row and the comment no literal starts. -/
theorem step_plain (hp : p.y = y) (hplace : p.x = 0 ∨ w < p.x ∧ p.x < x)
    (hbefore : Before base base' w y p a b) :
    SameResult (Before base base' w y ⟨p.x + 1, p.y⟩) (scanCell a p) (scanCell b p) := by
  have hnone : ∀ o, opener? (a.charAt p) ≠ some o := by
    intro o ho
    obtain ⟨hin, horiginal⟩ := original_of_opener hbase ha hx hy ho
    rcases hplace with hzero | ⟨hlower, hupper⟩
    · have := hin.1.1
      omega
    · obtain ⟨px, py⟩ := p
      subst hp
      rw [h.gap px _ hlower hupper horiginal] at ho
      cases ho
  have hchar : b.charAt? p = a.charAt? p := by
    apply h.charAt?_before hbefore
    rintro ⟨-, hlower⟩
    have := h.before
    omega
  have halike := scanCell_alike hbase ha hx hy hbase' hb h.width h.height hchar
    (fun o ho => absurd ho (hnone o))
  refine halike.mono ?_
  rintro a' b' ⟨path, hpath, ha', hb'⟩
  have hcolumn : column y ⟨p.x + 1, p.y⟩ = column y p ∨ w < column y ⟨p.x + 1, p.y⟩ := by
    unfold column
    dsimp only
    rw [if_neg (by omega), if_neg (by omega)]
    omega
  refine hbefore.erased (fun q hq => ?_) ha' hb' hcolumn
  obtain ⟨o, ho, -⟩ := hpath q hq
  exact absurd ho (hnone o)

/-- In the complete part of the row the two scans go on as the line alone does. -/
theorem step_lead (hp : p.y = y) (hpos : 0 < p.x) (hpw : p.x ≤ w)
    (hbefore : Before base base' w y p a b) :
    SameResult (Before base base' w y ⟨p.x + 1, p.y⟩) (scanCell a p) (scanCell b p) := by
  have hwidth : b.width = a.width := by rw [hb.width, h.width, ha.width]
  have hheight : b.height = a.height := by rw [hb.height, h.height, ha.height]
  have hcolumn : column y p = p.x := by
    rw [column, if_neg (by omega)]
    omega
  obtain ⟨m, hm, hlead⟩ := hbefore.lead (hcolumn ▸ hpw)
  rw [hcolumn] at hlead
  have hlead' : Leads m p.x b y := hlead.congr hwidth fun x' hx' => hbefore.same _ (by
    dsimp only
    omega)
  obtain ⟨px, py⟩ := p
  subst hp
  have hbound := hlead.width
  have hin : Inside a.width a.height ⟨px, py⟩ := by
    have := h.first.2
    rw [ha.height]
    exact ⟨⟨hpos, by dsimp only at hpw ⊢; omega⟩, this⟩
  obtain ⟨cell, n, m', hn, hm', hscan, hnext⟩ :=
    hlead.step hpos (by dsimp only at hpw ⊢; omega) (ha.whole hbase.whole) hin
  have ha' := Page.charAt?_eraseRight (ha.whole hbase.whole) hin (Nat.lt_of_lt_of_le hn hbound)
  have hb' := Page.charAt?_eraseRight (hb.whole hbase'.whole) (p := ⟨px, py⟩) (n := n)
    (by rw [hwidth, hheight]; exact hin) (hwidth ▸ Nat.lt_of_lt_of_le hn hbound)
  rw [hscan a hlead, hscan b hlead']
  refine .ok cell ⟨?_, ?_, ?_⟩
  · intro q hq
    rw [ha', hb', hbefore.same q hq]
  · intro x' hx'
    rw [ha', hb', if_neg (by dsimp only at hn ⊢; omega), if_neg (by dsimp only at hn ⊢; omega)]
    exact hbefore.kept x' hx'
  · intro _
    have hnextColumn : column py ⟨px + 1, py⟩ = px + 1 := by
      rw [column, if_neg (by dsimp only; omega)]
      dsimp only
      omega
    rw [hnextColumn]
    exact ⟨m', hm'.trans hm, hnext⟩

theorem step_before (hp : Page.notAfter ⟨x, y⟩ p) (hne : p ≠ ⟨x, y⟩)
    (hbefore : Before base base' w y p a b) :
    SameResult (Before base base' w y ⟨p.x + 1, p.y⟩) (scanCell a p) (scanCell b p) := by
  rcases hp with hrow | ⟨hrow, hcolumn⟩
  · exact h.step_above hbase hbase' ha hb hx hy hrow hbefore
  · have hleft : p.x < x := by
      apply Nat.lt_of_le_of_ne hcolumn
      intro heq
      exact hne (by cases p; simp_all)
    by_cases hlead : 0 < p.x ∧ p.x ≤ w
    · exact h.step_lead hbase hbase' ha hb hx hy hrow hlead.1 hlead.2 hbefore
    · exact h.step_plain hbase hbase' ha hb hx hy hrow (by omega) hbefore

/-- The opener of the comment is on no way ahead of a later place. -/
theorem step_after (hp : ¬ Page.notAfter ⟨x, y⟩ p) (hafter : After x y a b) :
    SameResult (After x y) (scanCell a p) (scanCell b p) := by
  have hne : p ≠ ⟨x, y⟩ := by
    rintro rfl
    exact hp (.inr ⟨rfl, Nat.le_refl _⟩)
  have hway : ∀ o, opener? (a.charAt p) = some o → ∀ q ∈ a.ahead o.downward p, q ≠ ⟨x, y⟩ := by
    rintro o - q hq rfl
    have := Page.after_of_mem_ahead hq
    unfold Page.notAfter at hp this
    dsimp only at hp this
    omega
  have halike := scanCell_alike hbase ha hx hy hbase' hb h.width h.height (hafter p hne)
    (fun o ho q hq => hafter q (hway o ho q hq))
  refine halike.mono ?_
  rintro a' b' ⟨path, -, ha', hb'⟩ q hq
  rw [ha'.char, hb'.char, hafter q hq]

end Blanked

/-- The two pages are scanned in lockstep. -/
theorem Blanked.lockstep {base base' : Page} {w x y : Nat} {c : List Char}
    (h : Blanked base base' w x y c) (hbase : base.Ringed) (hbase' : base'.Ringed) :
    Lockstep base base' fun p a b =>
      if Page.notAfter ⟨x, y⟩ p then Before base base' w y p a b else After x y a b := by
  obtain ⟨⟨hxpos, hxw⟩, hypos, hyh⟩ := h.first
  dsimp only at hxpos hxw hypos hyh
  refine ⟨h.width, h.height, ?_, ?_, ?_⟩
  · rw [if_pos (.inl hypos)]
    exact h.before_start
  · intro y' a b hR
    by_cases hrow : y' < y
    · have hfrom : Page.notAfter ⟨x, y⟩ ⟨base.width, y'⟩ := .inl hrow
      have hto : Page.notAfter ⟨x, y⟩ ⟨0, y' + 1⟩ := by
        unfold Page.notAfter
        dsimp only
        omega
      rw [if_pos hfrom] at hR
      rw [if_pos hto]
      refine ⟨hR.same, hR.kept, fun hw => ?_⟩
      have hcolumn : column y ⟨0, y' + 1⟩ = column y ⟨base.width, y'⟩ := by
        unfold column
        dsimp only
        rw [if_pos hrow]
        split <;> omega
      rw [hcolumn] at hw ⊢
      exact hR.lead hw
    · rw [if_neg (by unfold Page.notAfter; dsimp only; omega)] at hR ⊢
      exact hR
  · intro p hx hy a b ha hb hR
    by_cases hp : Page.notAfter ⟨x, y⟩ p
    · rw [if_pos hp] at hR
      by_cases heq : p = ⟨x, y⟩
      · have hnext : ¬ Page.notAfter ⟨x, y⟩ ⟨p.x + 1, p.y⟩ := by
          rw [heq]
          unfold Page.notAfter
          dsimp only
          omega
        simp only [if_neg hnext]
        exact h.step_comment hbase ha heq hR
      · simp only [Page.notAfter_next heq, if_pos hp]
        exact h.step_before hbase hbase' ha hb hx hy hp heq hR
    · have hnext : ¬ Page.notAfter ⟨x, y⟩ ⟨p.x + 1, p.y⟩ := by
        unfold Page.notAfter at hp ⊢
        dsimp only at hp ⊢
        omega
      rw [if_neg hp] at hR
      simp only [if_neg hnext]
      exact h.step_after hbase hbase' ha hb hx hy hp hR

theorem opener?_rightward {d : Char} {o : Opener} (h : opener? d = some o)
    (hd : d ≠ '[' ∧ d ≠ '\'' ∧ d ≠ '\\') : o.downward = false := by
  unfold opener? at h
  split at h <;> cases h <;> simp_all

/-- The text with the comment and the text with spaces instead. -/
theorem blanked_frame {s s' : String} {above below : List (List Char)} {u c v : List Char}
    (hlines : lines s.toList = above ++ (u ++ ('\x7b' :: (c ++ ['\x7d']) ++ v)) :: below)
    (hlines' : lines s'.toList = above ++ (u ++ (spaces (c.length + 2) ++ v)) :: below)
    (hclosed : '\x7d' ∉ c) {g : Grid} (hload : load (String.ofList u) = .ok g)
    (hu : '\n' ∉ u) (hdown : ∀ l ∈ above, '[' ∉ l ∧ '\'' ∉ l ∧ '\\' ∉ l) :
    Blanked (Page.ofRows (frame s)) (Page.ofRows (frame s')) (dropReturn u).length (u.length + 1)
      (above.length + 1) c := by
  obtain ⟨hwidth, hheight⟩ := Page.size_ofRows (rectangle_frame s) (by omega)
  obtain ⟨hwidth', hheight'⟩ := Page.size_ofRows (rectangle_frame s') (by omega)
  obtain ⟨tail, htail, hreturn⟩ := exists_dropReturn u
  have hspaces : (spaces (c.length + 2)).length = c.length + 2 := List.length_replicate
  have hcomment : ('\x7b' :: (c ++ ['\x7d'])).length = c.length + 2 := by simp
  have hlongest : longest (lines s'.toList) = longest (lines s.toList) := by
    rw [hlines, hlines', longest, longest]
    simp only [List.map_append, List.map_cons, List.length_append, hspaces, hcomment]
  have hrows : (lines s'.toList).length = (lines s.toList).length := by
    rw [hlines, hlines', List.length_append, List.length_append]
    rfl
  have hroom : u.length + (c.length + 2) ≤ longest (lines s.toList) := by
    have hmem : u ++ ('\x7b' :: (c ++ ['\x7d']) ++ v) ∈ lines s.toList := by
      rw [hlines]
      simp
    have hline := length_le_longest hmem
    rw [List.length_append, List.length_append, hcomment] at hline
    omega
  have hrow : above.length < (lines s.toList).length := by
    rw [hlines]
    simp
  have hsameWidth : (Page.ofRows (frame s')).width = (Page.ofRows (frame s)).width := by
    rw [hwidth, hwidth', hlongest]
  have hsameHeight : (Page.ofRows (frame s')).height = (Page.ofRows (frame s)).height := by
    rw [hheight, hheight', hrows]
  refine ⟨hsameWidth, hsameHeight, ?_, by omega, hclosed, ?_, ?_, ?_, ?_, ?_,
    leads_of_load hlines hu hload, ?_⟩
  · rw [hwidth, hheight]
    exact ⟨⟨Nat.succ_pos _, by dsimp only; omega⟩, Nat.succ_pos _, by dsimp only; omega⟩
  · intro i d hd
    have hi := (List.getElem?_eq_some_iff.mp hd).1
    have hchar := charAt?_line hlines (x := u.length + i)
      (by rw [List.length_append, List.length_append]; omega)
    rw [show u.length + 1 + i = u.length + i + 1 by omega, hchar,
      List.getElem?_append_right (by omega), Nat.add_sub_cancel_left, List.getElem?_append_left hi,
      hd]
  · intro x' hlower hupper
    have hchar := charAt?_line hlines' (x := x' - 1)
      (by rw [List.length_append, List.length_append, hspaces]; omega)
    rw [show x' = x' - 1 + 1 by omega, hchar, List.getElem?_append_right (by omega),
      List.getElem?_append_left (by omega), spaces, List.getElem?_replicate, if_pos (by omega)]
  · intro q hq
    refine charAt?_frame_congr hsameWidth hsameHeight fun hx hy => ?_
    rw [hlines, hlines']
    by_cases hyq : q.y - 1 = above.length
    · rw [hyq, item?_line, item?_line]
      by_cases hbefore : q.x - 1 < u.length
      · rw [List.getElem?_append_left hbefore, List.getElem?_append_left hbefore]
      · rw [List.getElem?_append_right (by omega), List.getElem?_append_right (by omega),
          List.getElem?_append_right (by omega), List.getElem?_append_right (by omega), hspaces,
          hcomment]
    · exact item?_elsewhere above below _ _ hyq
  · intro q d o hq hd ho
    obtain ⟨hspace, hborder⟩ := opener_ne ho
    obtain ⟨l, hl, hmem⟩ := mem_above_of_charAt? hlines hq hd hspace hborder
    obtain ⟨hbracket, hquote, hslash⟩ := hdown l hl
    exact opener?_rightward ho ⟨ne_of_mem_of_not_mem hmem hbracket,
      ne_of_mem_of_not_mem hmem hquote, ne_of_mem_of_not_mem hmem hslash⟩
  · have hlength := congrArg List.length htail
    rw [List.length_append] at hlength
    omega
  · intro x' d hlower hupper hd
    -- Only a return can stand between the complete part and the comment.
    have hchar := charAt?_line hlines (x := x' - 1) (by rw [List.length_append]; omega)
    rw [Nat.sub_add_cancel (by omega), hd, List.getElem?_append_left (by omega), htail,
      List.getElem?_append_right (by omega)] at hchar
    rw [hreturn d (List.mem_of_getElem? hchar.symm)]
    rfl

/-- A comment can be replaced by as many spaces: the program loads to the same grid or with the same
    error. What stands before the comment on its line has to load alone, and the lines above must
    not hold a character that opens a literal downward. -/
theorem comment_blank {above below : List (List Char)} {u c v : List Char}
    (hline : ∀ l ∈ above ++ [u, c, v] ++ below, '\n' ∉ l) (hclosed : '\x7d' ∉ c)
    (halone : ∃ g, load (String.ofList u) = .ok g)
    (hdown : ∀ l ∈ above, '[' ∉ l ∧ '\'' ∉ l ∧ '\\' ∉ l) :
    load (joined (above ++ (u ++ '\x7b' :: c ++ '\x7d' :: v) :: below)) =
      load (joined (above ++ (u ++ spaces (c.length + 2) ++ v) :: below)) := by
  simp only [List.forall_mem_append, List.forall_mem_cons] at hline
  obtain ⟨⟨habove, hu, hc, hv, -⟩, hbelow⟩ := hline
  obtain ⟨g, hload⟩ := halone
  obtain ⟨rest, hlines⟩ := lines_joined habove hbelow
  have hcomment : lines (joined (above ++ (u ++ '\x7b' :: c ++ '\x7d' :: v) :: below)).toList =
      above.map dropReturn ++ (u ++ ('\x7b' :: (c ++ ['\x7d']) ++ dropReturn v)) :: rest := by
    have hend : u ++ '\x7b' :: c ++ '\x7d' :: v = (u ++ '\x7b' :: c) ++ ['\x7d'] ++ v := by simp
    rw [hlines _ (by simp) (by simp [hu, hc, hv]), hend,
      dropReturn_append (by rw [List.getLast?_concat]; decide)]
    simp
  have hspaces : lines (joined (above ++ (u ++ spaces (c.length + 2) ++ v) :: below)).toList =
      above.map dropReturn ++ (u ++ (spaces (c.length + 2) ++ dropReturn v)) :: rest := by
    rw [hlines _ (by simp [spaces]) (by simp [spaces, hu, hv]),
      dropReturn_append (by simp [spaces, List.getLast?_replicate]), List.append_assoc]
  have hblanked := blanked_frame hcomment hspaces hclosed hload hu ?_
  · exact (hblanked.lockstep (ringed_frame _) (ringed_frame _)).load_eq
  · intro k hk
    obtain ⟨l, hl, rfl⟩ := List.mem_map.mp hk
    obtain ⟨tail, htail, -⟩ := exists_dropReturn l
    have hkept : ∀ d, d ∉ l → d ∉ dropReturn l := by
      intro d hd hmem
      exact hd (htail ▸ List.mem_append_left tail hmem)
    obtain ⟨hbracket, hquote, hslash⟩ := hdown l hl
    exact ⟨hkept _ hbracket, hkept _ hquote, hkept _ hslash⟩

/-- A comment with openers in it, between a number and a text with a brace. -/
theorem comment_blank_openers :
    let u := "(7)".toList
    let c := "it's [".toList
    let v := "\"\x7d\"".toList
    (∀ l ∈ ["12".toList] ++ [u, c, v] ++ ["'x".toList], '\n' ∉ l) ∧ '\x7d' ∉ c ∧
      (∃ g, load (String.ofList u) = .ok g) ∧
      load "12\n(7)\x7bit's [\x7d\"\x7d\"\n'x" = load "12\n(7)        \"\x7d\"\n'x" := by
  intro u c v
  have hline : ∀ l ∈ ["12".toList] ++ [u, c, v] ++ ["'x".toList], '\n' ∉ l := by decide
  have hclosed : '\x7d' ∉ c := by decide
  have halone : ∃ g, load (String.ofList u) = .ok g := by
    have hok : (load (String.ofList u)).isOk = true := by decide +kernel
    cases hload : load (String.ofList u) with
    | ok g => exact ⟨g, rfl⟩
    | error e =>
      rw [hload] at hok
      cases hok
  have hload := comment_blank hline hclosed halone (by decide)
  have hcomment : joined (["12".toList] ++ (u ++ '\x7b' :: c ++ '\x7d' :: v) :: ["'x".toList]) =
      "12\n(7)\x7bit's [\x7d\"\x7d\"\n'x" := by decide
  have hspaces : joined (["12".toList] ++ (u ++ spaces (c.length + 2) ++ v) :: ["'x".toList]) =
      "12\n(7)        \"\x7d\"\n'x" := by decide
  rw [hcomment, hspaces] at hload
  exact ⟨hline, hclosed, halone, hload⟩

end Source

end Gridfall
