/-
  Headers across lines. The header of a case is meant to be the first line of its section, but its
  fields are taken from the section one after the other, and a line break is a blank like any other.
  So a line that lacks a field is completed with what stands below it.

  `Heads s lead kind rest` says that the section `s` starts with a complete header, wherever its
  lines end: `lead` holds the four fields before the kind. A section is refused exactly if it has no
  such header (`readCase_ok_iff`), and a suite exactly if one of its sections is refused
  (`refused_read_iff`). If the first line has fewer than five fields, then `lead` goes past it
  (`Heads.newline_mem`). Together this says when a short header is refused: if the lines below do
  not complete it, or if another section is refused (`short_header_refused_iff`).
-/
import Gridfall.Proofs.Suite.RoundTrip

namespace Gridfall.Suite

open Text

/-! ## Fields -/

theorem takeField_of_firstWord (f : Field) {cs gap w rest : List Char}
    (h : FirstWord cs gap w rest) : takeField f cs = .ok (w, rest) := by
  unfold takeField
  rw [h.word_trimStart]
  simp [h.nonempty]

theorem words_of_takeField {f : Field} {cs w rest : List Char}
    (h : takeField f cs = .ok (w, rest)) : words cs = w :: words rest := by
  rcases blank_or_firstWord cs with hblank | ⟨gap, w', rest', hfirst⟩
  · have htrim : trimStart cs = [] := List.dropWhile_eq_nil_iff.mpr hblank
    rw [takeField, htrim] at h
    cases h
  · rw [takeField_of_firstWord f hfirst] at h
    cases h
    exact hfirst.words

/-- The words of a text are taken one after the other, whatever comes after its last blank. -/
theorem takeField_append (f : Field) {lead w : List Char} {ws : List (List Char)}
    (hwords : words lead = w :: ws) (hlast : ∀ c ∈ lead.getLast?, isBlank c = true)
    (cs : List Char) :
    ∃ lead', takeField f (lead ++ cs) = .ok (w, lead' ++ cs) ∧ words lead' = ws ∧
      ∀ c ∈ lead'.getLast?, isBlank c = true := by
  rcases blank_or_firstWord lead with hblank | ⟨gap, w', rest, hfirst⟩
  · cases hwords.symm.trans (words_eq_nil_iff.mpr hblank)
  · obtain ⟨rfl, rfl⟩ := List.cons.inj (hfirst.words.symm.trans hwords)
    -- The last character is a blank, so it is not one of the word.
    have hne : rest ≠ [] := by
      rintro rfl
      obtain ⟨c, hc⟩ := Option.isSome_iff_exists.mp (List.getLast?_isSome.mpr hfirst.nonempty)
      have hblank : isBlank c = true := by
        apply hlast
        rw [hfirst.text, List.append_nil, List.getLast?_append_of_ne_nil _ hfirst.nonempty]
        exact hc
      rw [hfirst.solid c (List.mem_of_getLast? hc)] at hblank
      cases hblank
    have hagain : FirstWord (lead ++ cs) gap w' (rest ++ cs) := by
      refine ⟨?_, hfirst.gap, hfirst.nonempty, hfirst.solid, ?_⟩
      · rw [hfirst.text]
        simp
      · rw [List.head?_append_of_ne_nil _ hne]
        exact hfirst.ended
    refine ⟨rest, takeField_of_firstWord f hagain, rfl, ?_⟩
    intro c hc
    apply hlast
    rw [hfirst.text, ← List.append_assoc, List.getLast?_append_of_ne_nil _ hne]
    exact hc

/-- A text with more than `n` words has `n` of them before a character that starts another one. -/
theorem exists_lead (n : Nat) {s : List Char} (h : n < (words s).length) :
    ∃ lead kind rest, s = lead ++ kind :: rest ∧ words lead = (words s).take n ∧
      (∀ c ∈ lead.getLast?, isBlank c = true) ∧ isBlank kind = false := by
  obtain ⟨gap, w, rest, hfirst⟩ : ∃ gap w rest, FirstWord s gap w rest := by
    refine (blank_or_firstWord s).resolve_left fun hblank => ?_
    rw [words_eq_nil_iff.mpr hblank] at h
    cases h
  induction n generalizing s gap w rest with
  | zero =>
    obtain ⟨kind, w, rfl⟩ := List.exists_cons_of_ne_nil hfirst.nonempty
    refine ⟨gap, kind, w ++ rest, hfirst.text, ?_, ?_, hfirst.solid kind List.mem_cons_self⟩
    · exact words_eq_nil_iff.mpr hfirst.gap
    · exact fun c hc => hfirst.gap c (List.mem_of_getLast? hc)
  | succ n ih =>
    rw [hfirst.words] at h ⊢
    have hmore : n < (words rest).length := Nat.lt_of_succ_lt_succ h
    have hnext : ∃ gap w rest', FirstWord rest gap w rest' := by
      refine (blank_or_firstWord rest).resolve_left fun hblank => ?_
      rw [words_eq_nil_iff.mpr hblank] at hmore
      cases hmore
    obtain ⟨gap', w', rest', hnext⟩ := hnext
    obtain ⟨lead, kind, tail, hrest, hwords, hlast, hkind⟩ := ih hmore gap' w' rest' hnext
    -- A blank follows the word, so the character that starts another word is not next to it.
    have hne : lead ≠ [] := by
      rintro rfl
      have hblank := hfirst.ended kind (by rw [hrest]; rfl)
      rw [hkind] at hblank
      cases hblank
    have hlead : FirstWord (gap ++ (w ++ lead)) gap w lead := by
      refine ⟨rfl, hfirst.gap, hfirst.nonempty, hfirst.solid, ?_⟩
      have hended := hfirst.ended
      rwa [hrest, List.head?_append_of_ne_nil _ hne] at hended
    refine ⟨gap ++ (w ++ lead), kind, tail, ?_, ?_, ?_, hkind⟩
    · rw [hfirst.text, hrest]
      simp
    · rw [hlead.words, hwords]
      rfl
    · rw [← List.append_assoc, List.getLast?_append_of_ne_nil _ hne]
      exact hlast

/-! ## Complete headers -/

/-- The section starts with a complete header: four fields, the last three of them numbers, then a
    blank and the kind, and after the kind `n` a number on the same line. Any blank will do between
    the fields, line breaks included. -/
structure Heads (s lead : List Char) (kind : Char) (rest : List Char) : Prop where
  text : s = lead ++ kind :: rest
  fields : ∃ name tick x y, words lead = [name, tick, x, y] ∧ (Decimal.word? tick).isSome = true ∧
    (Decimal.word? x).isSome = true ∧ (Decimal.word? y).isSome = true
  apart : ∀ c ∈ lead.getLast?, isBlank c = true
  solid : isBlank kind = false
  payload : kind = 'n' → ∃ w ∈ (words (firstLine rest)).head?, (Number.ofChars? w).isSome = true

theorem readField_ok_iff {α : Type} {read? : List Char → Option α} {f : Field} {token : List Char} :
    (∃ a, readField read? f token = .ok a) ↔ (read? token).isSome = true := by
  unfold readField
  cases read? token <;> simp

theorem word_trimStart_fst (cs : List Char) :
    (word (trimStart cs)).1 = (words cs).head?.getD [] := by
  rcases blank_or_firstWord cs with hblank | ⟨gap, w, rest, hfirst⟩
  · have htrim : trimStart cs = [] := List.dropWhile_eq_nil_iff.mpr hblank
    rw [words_eq_nil_iff.mpr hblank, htrim]
    rfl
  · rw [hfirst.word_trimStart, hfirst.words]
    rfl

/-- Only the kind `n` can be refused, if no number follows it on its line. -/
theorem readExpected_ok_iff {kind : Char} {rest : List Char} :
    (∃ r, readExpected kind rest = .ok r) ↔
      (kind = 'n' → ∃ w ∈ (words (firstLine rest)).head?, (Number.ofChars? w).isSome = true) := by
  by_cases hkind : kind = 'n'
  · subst hkind
    have hmap : (∃ r, readExpected 'n' rest = .ok r) ↔
        ∃ n, readField Number.ofChars? .number (word (trimStart (firstLine rest))).1 = .ok n := by
      show (∃ r, (readField Number.ofChars? .number _).map _ = .ok r) ↔ _
      cases readField Number.ofChars? .number (word (trimStart (firstLine rest))).1 <;>
        simp [Except.map]
    rw [hmap, readField_ok_iff, word_trimStart_fst]
    cases (words (firstLine rest)).head? with
    | none => simp [show Number.ofChars? [] = none from rfl]
    | some w => simp
  · refine iff_of_true ?_ fun h => absurd h hkind
    unfold readExpected
    split
    · exact ⟨_, rfl⟩
    · exact ⟨_, rfl⟩
    · exact ⟨_, rfl⟩
    · contradiction
    · exact ⟨_, rfl⟩
    · exact ⟨_, rfl⟩

theorem bind_ok_iff {ε α β : Type} {x : Except ε α} {f : α → Except ε β} :
    (∃ b, x >>= f = .ok b) ↔ ∃ a, x = .ok a ∧ ∃ b, f a = .ok b := by
  cases x with
  | error e => exact iff_of_false (fun ⟨b, h⟩ => by cases h) fun ⟨a, h, _⟩ => by cases h
  | ok a => exact ⟨fun h => ⟨a, rfl, h⟩, fun ⟨a', h, hb⟩ => by cases h; exact hb⟩

/-- A case is read field by field, and then from the kind on. -/
theorem readCase_ok_iff_fields {s : List Char} : (∃ r, readCase s = .ok r) ↔
    ∃ name s₁ tick s₂ x s₃ y s₄ kind rest, takeField .name s = .ok (name, s₁) ∧
      takeField .tick s₁ = .ok (tick, s₂) ∧ (Decimal.word? tick).isSome = true ∧
      takeField .x s₂ = .ok (x, s₃) ∧ (Decimal.word? x).isSome = true ∧
      takeField .y s₃ = .ok (y, s₄) ∧ (Decimal.word? y).isSome = true ∧
      trimStart s₄ = kind :: rest ∧ ∃ r, readExpected kind rest = .ok r := by
  simp only [readCase, bind_ok_iff, Prod.exists]
  constructor
  · rintro ⟨name, s₁, hname, tick, s₂, htick, t, ht, x, s₃, hx, u, hu, y, s₄, hy, v, hv, c, e, hc⟩
    cases htrim : trimStart s₄ with
    | nil =>
      rw [htrim] at hc
      cases hc
    | cons kind rest =>
      rw [htrim] at hc
      obtain ⟨r, hr, -⟩ := bind_ok_iff.mp ⟨_, hc⟩
      exact ⟨name, s₁, tick, s₂, x, s₃, y, s₄, kind, rest, hname, htick,
        readField_ok_iff.mp ⟨t, ht⟩, hx, readField_ok_iff.mp ⟨u, hu⟩, hy,
        readField_ok_iff.mp ⟨v, hv⟩, htrim, r.1, r.2.1, r.2.2, hr⟩
  · rintro ⟨name, s₁, tick, s₂, x, s₃, y, s₄, kind, rest, hname, htick, ht, hx, hu, hy, hv, htrim,
      e, r, known, hr⟩
    obtain ⟨t, ht⟩ := readField_ok_iff.mpr ht
    obtain ⟨u, hu⟩ := readField_ok_iff.mpr hu
    obtain ⟨v, hv⟩ := readField_ok_iff.mpr hv
    refine ⟨name, s₁, hname, tick, s₂, htick, t, ht, x, s₃, hx, u, hu, y, s₄, hy, v, hv, ?_⟩
    rw [htrim]
    dsimp only
    rw [hr]
    exact ⟨_, _, rfl⟩

/-- The fields of a text that ends in a blank, in front of the kind. -/
theorem takeFields_append {lead name tick x y : List Char}
    (hwords : words lead = [name, tick, x, y])
    (hlast : ∀ c ∈ lead.getLast?, isBlank c = true) {kind : Char} (hkind : isBlank kind = false)
    (rest : List Char) :
    ∃ s₁ s₂ s₃ s₄, takeField .name (lead ++ kind :: rest) = .ok (name, s₁) ∧
      takeField .tick s₁ = .ok (tick, s₂) ∧ takeField .x s₂ = .ok (x, s₃) ∧
      takeField .y s₃ = .ok (y, s₄) ∧ trimStart s₄ = kind :: rest := by
  obtain ⟨lead₁, hname, hwords, hlast⟩ := takeField_append .name hwords hlast (kind :: rest)
  obtain ⟨lead₂, htick, hwords, hlast⟩ := takeField_append .tick hwords hlast (kind :: rest)
  obtain ⟨lead₃, hx, hwords, hlast⟩ := takeField_append .x hwords hlast (kind :: rest)
  obtain ⟨lead₄, hy, hwords, hlast⟩ := takeField_append .y hwords hlast (kind :: rest)
  refine ⟨_, _, _, _, hname, htick, hx, hy, ?_⟩
  have hblank := words_eq_nil_iff.mp hwords
  rw [trimStart, List.dropWhile_append_of_pos hblank]
  exact trimStart_eq_self (by simpa using hkind)

/-- A section is read exactly if it starts with a complete header. -/
theorem readCase_ok_iff {s : List Char} :
    (∃ r, readCase s = .ok r) ↔ ∃ lead kind rest, Heads s lead kind rest := by
  rw [readCase_ok_iff_fields]
  constructor
  · rintro ⟨name, s₁, tick, s₂, x, s₃, y, s₄, kind, rest, hname, htick, ht, hx, hu, hy, hv, htrim,
      hr⟩
    have hmore : words s₄ ≠ [] := by
      intro hnone
      rw [trimStart, List.dropWhile_eq_nil_iff.mpr (words_eq_nil_iff.mp hnone)] at htrim
      cases htrim
    have hwords : words s = name :: tick :: x :: y :: words s₄ := by
      rw [words_of_takeField hname, words_of_takeField htick, words_of_takeField hx,
        words_of_takeField hy]
    obtain ⟨lead, kind', rest', hs, hlead, hlast, hkind⟩ := exists_lead 4 (s := s) (by
      have := List.length_pos_iff.mpr hmore
      simp only [hwords, List.length_cons]
      omega)
    rw [hwords] at hlead
    -- The fields in front of the kind are those that were taken, so the kind is the one found.
    obtain ⟨t₁, t₂, t₃, t₄, hname', htick', hx', hy', htrim'⟩ :=
      takeFields_append hlead hlast hkind rest'
    rw [← hs, hname] at hname'
    cases hname'
    cases htick.symm.trans htick'
    cases hx.symm.trans hx'
    cases hy.symm.trans hy'
    cases htrim.symm.trans htrim'
    exact ⟨lead, kind, rest, hs, ⟨name, tick, x, y, hlead, ht, hu, hv⟩, hlast, hkind,
      readExpected_ok_iff.mp hr⟩
  · rintro ⟨lead, kind, rest, h⟩
    obtain ⟨name, tick, x, y, hwords, ht, hu, hv⟩ := h.fields
    obtain ⟨s₁, s₂, s₃, s₄, hname, htick, hx, hy, htrim⟩ :=
      takeFields_append hwords h.apart h.solid rest
    rw [← h.text] at hname
    exact ⟨name, s₁, tick, s₂, x, s₃, y, s₄, kind, rest, hname, htick, ht, hx, hu, hy, hv, htrim,
      readExpected_ok_iff.mpr h.payload⟩

/-! ## Suites -/

/-- A section of a suite that is not blank: what stands between two markers, or after the last. -/
def IsSection (text : String) (s : List Char) : Prop :=
  ∃ body, text.toList = '@' :: body ∧ s ∈ pieces '@' body ∧ s.all isBlank = false

/-- Reading ends with an error about a header. -/
def Refused (result : Except Error (List Case) × Array Event) : Prop :=
  ∃ index fault, result.1 = .error (.header index fault)

theorem refused_readSections_iff {index : Nat} {ss : List (List Char)} {done : Array Case}
    {log : Array Event} :
    Refused (readSections index ss done log) ↔
      ∃ s ∈ ss, s.all isBlank = false ∧ ¬ ∃ lead kind rest, Heads s lead kind rest := by
  induction ss generalizing index done log with
  | nil =>
    refine iff_of_false ?_ (by simp)
    rintro ⟨i, fault, h⟩
    cases h
  | cons s ss ih =>
    rw [List.exists_mem_cons_iff]
    unfold readSections
    split
    · next hblank => rw [ih, hblank]; simp
    · next hsolid =>
      have hsolid : s.all isBlank = false := by simpa using hsolid
      rw [← readCase_ok_iff]
      cases hcase : readCase s with
      | error fault =>
        refine iff_of_true ⟨index, fault, rfl⟩ (.inl ⟨hsolid, ?_⟩)
        rintro ⟨r, hr⟩
        cases hr
      | ok r =>
        rw [ih]
        simp

theorem refused_read_iff {text : String} (hstart : text.toList.head? = some '@')
    (log : Array Event) :
    Refused (read text log) ↔
      ∃ s, IsSection text s ∧ ¬ ∃ lead kind rest, Heads s lead kind rest := by
  obtain ⟨body, hbody⟩ : ∃ body, text.toList = '@' :: body := by
    cases htext : text.toList with
    | nil => simp [htext] at hstart
    | cons c body =>
      rw [htext] at hstart
      cases hstart
      exact ⟨body, rfl⟩
  have hread : read text log = readSections 0 (pieces '@' body) #[] log := by
    unfold read
    rw [hbody]
    rfl
  rw [hread, refused_readSections_iff]
  constructor
  · rintro ⟨s, hs, hsolid, hnone⟩
    exact ⟨s, ⟨body, hbody, hs, hsolid⟩, hnone⟩
  · rintro ⟨s, ⟨body', hbody', hs, hsolid⟩, hnone⟩
    cases hbody.symm.trans hbody'
    exact ⟨s, hs, hsolid, hnone⟩

/-! ## Short headers -/

/-- A header that its first line does not complete goes on below that line. -/
theorem Heads.newline_mem {s lead rest : List Char} {kind : Char} (h : Heads s lead kind rest)
    (hshort : (words (firstLine s)).length < 5) : '\n' ∈ lead := by
  by_contra hline
  have hkind : (kind != '\n') = true := by
    rw [bne_iff_ne]
    rintro rfl
    cases h.solid
  have hfirst : firstLine s = lead ++ kind :: firstLine rest := by
    rw [h.text, firstLine, List.takeWhile_append_of_pos (bne_newline hline),
      List.takeWhile_cons, hkind]
    rfl
  have hmore : words (kind :: firstLine rest) ≠ [] := by
    intro hnone
    have hblank := words_eq_nil_iff.mp hnone kind List.mem_cons_self
    rw [h.solid] at hblank
    cases hblank
  obtain ⟨name, tick, x, y, hwords, -⟩ := h.fields
  -- The blank in front of the kind parts the four fields from the fifth.
  rcases List.eq_nil_or_concat' lead with rfl | ⟨lead, b, rfl⟩
  · cases hwords
  · have hb : isBlank b = true := h.apart b (by simp)
    rw [words_append hb lead [], show words [] = [] from rfl, List.append_nil] at hwords
    rw [hfirst, List.append_assoc, List.singleton_append, words_append hb, hwords] at hshort
    have := List.length_pos_iff.mpr hmore
    simp only [List.length_append, List.length_cons, List.length_nil] at hshort
    omega

/-- The section starts with a header that goes past a line break. -/
def CompletedBelow (s : List Char) : Prop :=
  ∃ lead kind rest, Heads s lead kind rest ∧ '\n' ∈ lead

/-- If the first line of a section has fewer than five fields, then the suite is refused exactly if
    the lines below do not complete the header, or if another section has no complete header. -/
theorem short_header_refused_iff {text : String} {s : List Char} (hs : IsSection text s)
    (hshort : (words (firstLine s)).length < 5) (log : Array Event) :
    Refused (read text log) ↔
      ¬ CompletedBelow s ∨
        ∃ t, IsSection text t ∧ t ≠ s ∧ ¬ ∃ lead kind rest, Heads t lead kind rest := by
  have hbelow : CompletedBelow s ↔ ∃ lead kind rest, Heads s lead kind rest := by
    constructor
    · rintro ⟨lead, kind, rest, h, -⟩
      exact ⟨lead, kind, rest, h⟩
    · rintro ⟨lead, kind, rest, h⟩
      exact ⟨lead, kind, rest, h, h.newline_mem hshort⟩
  have hstart : text.toList.head? = some '@' := by
    obtain ⟨body, hbody, -⟩ := hs
    rw [hbody]
    rfl
  rw [refused_read_iff hstart, hbelow]
  constructor
  · rintro ⟨t, ht, hnone⟩
    by_cases heq : t = s
    · exact .inl (heq ▸ hnone)
    · exact .inr ⟨t, ht, heq, hnone⟩
  · rintro (hnone | ⟨t, ht, -, hnone⟩)
    · exact ⟨s, hs, hnone⟩
    · exact ⟨t, ht, hnone⟩

/-- A header with a name and a tick only, and nothing below. -/
theorem short_header_refused_iff_short :
    let text := "@ok 0 1 1 e\n@short 1\n"
    let s := "short 1\n".toList
    IsSection text s ∧ (words (firstLine s)).length < 5 ∧ Refused (read text #[]) ∧
      ¬ CompletedBelow s := by
  intro text s
  have hs : IsSection text s :=
    ⟨"ok 0 1 1 e\n@short 1\n".toList, by decide, by decide, by decide⟩
  have hshort : (words (firstLine s)).length < 5 := by decide
  have hbelow : ¬ CompletedBelow s := by
    rintro ⟨lead, kind, rest, h, -⟩
    have hcase : readCase s = .error (.missing .x) := by decide +kernel
    obtain ⟨r, hr⟩ := readCase_ok_iff.mpr ⟨lead, kind, rest, h⟩
    cases hcase.symm.trans hr
  exact ⟨hs, hshort, (short_header_refused_iff hs hshort #[]).mpr (.inl hbelow), hbelow⟩

/-- The number below the header line is taken for the kind: a case is read that expects nothing. -/
theorem short_header_accepted :
    (words (firstLine "fall 2 1 3\n5\n".toList)).length < 5 ∧
      read "@fall 2 1 3\n5\n" #[] =
        (.ok [⟨"fall", 2, ⟨1, 3⟩, .empty, "\n"⟩], #[.unknownKind "fall" '5']) := by
  decide +kernel

end Gridfall.Suite
