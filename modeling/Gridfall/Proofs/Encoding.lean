/-
  The bytes of a machine's state tell the state. Cells take different numbers of bytes, the same
  tags stand for different things at different places, and a text may hold any bytes at all. What
  makes the whole readable is that every part says where it ends: `Delimited` encodings may be
  followed by anything, and still the part and what follows can be told. Words are delimited by
  their length, a text by the length in front of it, values and cells by their tags, and a list of
  cells by their number (`Delimited.flatMap`), which is known from the size of the grid in front of
  them.

  The lengths are words. So a grid is meant whose sides and texts are short enough to be counted by
  a word (`Grid.Fits`).
-/
import Gridfall.Machine.Encoding
import Gridfall.Proofs.Symbols

namespace Gridfall

/-! ## Delimited encodings -/

/-- Among things with the property, the bytes of one are told from whatever follows them. -/
def Delimited {α : Type} (P : α → Prop) (encode : α → List UInt8) : Prop :=
  ∀ ⦃a b : α⦄, P a → P b → ∀ ⦃s t : List UInt8⦄, encode a ++ s = encode b ++ t → a = b ∧ s = t

namespace Delimited

variable {α β : Type} {P : α → Prop} {Q : β → Prop} {encode : α → List UInt8}
  {encode' : β → List UInt8}

/-- Encodings of one length. -/
theorem of_length (n : Nat) (hlength : ∀ a, (encode a).length = n)
    (hinj : ∀ ⦃a b : α⦄, P a → P b → encode a = encode b → a = b) : Delimited P encode := by
  intro a b ha hb s t h
  obtain ⟨hhead, htail⟩ := List.append_inj h ((hlength a).trans (hlength b).symm)
  exact ⟨hinj ha hb hhead, htail⟩

/-- What can be told from something that is encoded can be told. -/
theorem comap (h : Delimited Q encode') {f : α → β} (hf : ∀ ⦃a : α⦄, P a → Q (f a))
    (hinj : ∀ ⦃a b : α⦄, P a → P b → f a = f b → a = b) : Delimited P (encode' ∘ f) := by
  intro a b ha hb s t heq
  obtain ⟨hfab, hst⟩ := h (hf ha) (hf hb) heq
  exact ⟨hinj ha hb hfab, hst⟩

/-- Lists of one length, item by item. -/
theorem flatMap (h : Delimited P encode) (n : Nat) :
    Delimited (fun l : List α => l.length = n ∧ ∀ a ∈ l, P a) (List.flatMap encode) := by
  intro l l' hl hl' s t heq
  induction l generalizing l' n with
  | nil =>
    obtain rfl : l' = [] := List.length_eq_zero_iff.mp (hl'.1.trans hl.1.symm)
    exact ⟨rfl, heq⟩
  | cons a l ih =>
    cases l' with
    | nil => cases hl.1.trans hl'.1.symm
    | cons b l' =>
      rw [List.flatMap_cons, List.flatMap_cons, List.append_assoc, List.append_assoc] at heq
      obtain ⟨ha, hl⟩ := And.imp_right List.forall_mem_cons.mp hl
      obtain ⟨hb, hl'⟩ := And.imp_right List.forall_mem_cons.mp hl'
      obtain ⟨rfl, hrest⟩ := h hl.1 hl'.1 heq
      have hlength : l'.length = l.length := Nat.succ.inj (hb.trans ha.symm)
      obtain ⟨rfl, hst⟩ := ih l.length ⟨rfl, hl.2⟩ ⟨hlength, hl'.2⟩ hrest
      exact ⟨rfl, hst⟩

end Delimited

/-! ## Words, numbers and texts -/

namespace Digest

theorem wordBytes_inj {a b : UInt64} (h : wordBytes a = wordBytes b) : a = b := by
  have hbytes := congrArg (List.map UInt8.toNat) h
  simp only [wordBytes, List.map_cons, List.map_nil, UInt64.toNat_toUInt8,
    UInt64.toNat_shiftRight, UInt64.reduceToNat, Nat.reduceMod, Nat.shiftRight_eq_div_pow,
    List.cons.injEq, and_true] at hbytes
  have ha := a.toNat_lt
  have hb := b.toNat_lt
  apply UInt64.toNat_inj.mp
  omega

theorem delimited_wordBytes : Delimited (fun _ => True) wordBytes :=
  .of_length 8 (fun _ => rfl) fun _ _ _ _ h => wordBytes_inj h

theorem delimited_numberBytes : Delimited (fun _ => True) numberBytes :=
  delimited_wordBytes.comap (fun _ _ => trivial) fun _ _ _ _ h => congrArg Int64.ofUInt64 h

theorem toUInt64_inj {a b : Nat} (ha : a < UInt64.size) (hb : b < UInt64.size)
    (h : a.toUInt64 = b.toUInt64) : a = b := by
  have hnat := congrArg UInt64.toNat h
  rwa [Nat.toUInt64_eq, Nat.toUInt64_eq, UInt64.toNat_ofNat_of_lt' ha,
    UInt64.toNat_ofNat_of_lt' hb] at hnat

/-- A length, or any other count that a word can hold. -/
theorem delimited_count : Delimited (· < UInt64.size) fun n : Nat => wordBytes n.toUInt64 :=
  delimited_wordBytes.comap (fun _ _ => trivial) fun _ _ ha hb h => toUInt64_inj ha hb h

/-- The code of a character. -/
theorem delimited_char : Delimited (fun _ => True) fun c : Char => wordBytes c.toNat.toUInt64 := by
  refine delimited_count.comap (fun c _ => ?_) fun _ _ _ _ h => Char.toNat_inj.mp h
  exact c.val.toNat_lt.trans (by decide)

theorem length_utf8Bytes (s : String) : (Text.Utf8.bytes s).length = s.utf8ByteSize := by
  simp [Text.Utf8.bytes]

theorem utf8Bytes_inj {s t : String} (h : Text.Utf8.bytes s = Text.Utf8.bytes t) : s = t :=
  String.toByteArray_inj.mp (ByteArray.ext (Array.toList_inj.mp h))

/-- A text whose length a word can hold. -/
theorem delimited_textBytes :
    Delimited (fun s : String => s.utf8ByteSize < UInt64.size) textBytes := by
  intro a b ha hb s t h
  rw [textBytes, textBytes, List.append_assoc, List.append_assoc] at h
  obtain ⟨hlength, hrest⟩ := delimited_count ha hb h
  rw [← length_utf8Bytes, ← length_utf8Bytes] at hlength
  obtain ⟨hbytes, hst⟩ := List.append_inj hrest hlength
  exact ⟨utf8Bytes_inj hbytes, hst⟩

end Digest

/-! ## Values and cells -/

open Digest

/-- A text, if it is one, whose length a word can hold. -/
def Value.Fits : Value → Prop
  | text s => s.utf8ByteSize < UInt64.size
  | none | number _ | input | output => True

instance : (v : Value) → Decidable v.Fits
  | .text s => inferInstanceAs (Decidable (s.utf8ByteSize < UInt64.size))
  | .none | .number _ | .input | .output => inferInstanceAs (Decidable True)

theorem Value.delimited_encoding : Delimited Value.Fits Value.encoding := by
  intro a b ha hb s t h
  cases a <;> cases b <;> obtain ⟨htag, hrest⟩ := List.cons.inj h
  case none.none | input.input | output.output => exact ⟨rfl, hrest⟩
  case number.number =>
    obtain ⟨rfl, hst⟩ := delimited_numberBytes trivial trivial hrest
    exact ⟨rfl, hst⟩
  case text.text =>
    obtain ⟨rfl, hst⟩ := delimited_textBytes ha hb hrest
    exact ⟨rfl, hst⟩
  -- The tags of all other pairs differ.
  all_goals cases htag

/-- A value, if it is one, that fits. -/
def Cell.Fits : Cell → Prop
  | data d => d.value.Fits
  | empty | border | operator _ | pipe _ => True

instance : (c : Cell) → Decidable c.Fits
  | .data d => inferInstanceAs (Decidable d.value.Fits)
  | .empty | .border | .operator _ | .pipe _ => inferInstanceAs (Decidable True)

theorem Drift.tag_inj {a b : Drift} (h : a.tag = b.tag) : a = b := by
  cases a <;> cases b <;> cases h <;> rfl

theorem Operator.symbol_inj {a b : Operator} (ha : a.Named) (hb : b.Named)
    (h : a.symbol = b.symbol) : a = b := by
  have hsame := named_iff.mp ha
  rw [h, named_iff.mp hb] at hsame
  exact (Option.some.inj hsame).symm

theorem Pipe.symbol_inj {a b : Pipe} (h : a.symbol = b.symbol) : a = b := by
  have hsame := ofSymbol?_symbol a
  rw [h, ofSymbol?_symbol] at hsame
  exact (Option.some.inj hsame).symm

theorem Cell.delimited_encoding :
    Delimited (fun c : Cell => c.Fits ∧ c.Named) Cell.encoding := by
  intro a b ha hb s t h
  cases a <;> cases b <;> obtain ⟨htag, hrest⟩ := List.cons.inj h
  case empty.empty | border.border => exact ⟨rfl, hrest⟩
  case data.data d e =>
    obtain ⟨hdrift, hvalue⟩ := List.cons.inj hrest
    obtain ⟨hsame, hst⟩ := Value.delimited_encoding ha.1 hb.1 hvalue
    obtain ⟨value, drift⟩ := d
    obtain ⟨value', drift'⟩ := e
    cases hsame
    cases Drift.tag_inj hdrift
    exact ⟨rfl, hst⟩
  case operator.operator =>
    obtain ⟨hsymbol, hst⟩ := delimited_char trivial trivial hrest
    cases Operator.symbol_inj ha.2 hb.2 hsymbol
    exact ⟨rfl, hst⟩
  case pipe.pipe =>
    obtain ⟨hsymbol, hst⟩ := delimited_char trivial trivial hrest
    cases Pipe.symbol_inj hsymbol
    exact ⟨rfl, hst⟩
  all_goals cases htag

/-! ## Grids and machines -/

/-- A grid whose sides and texts are short enough to be counted by a word. -/
structure Grid.Fits (g : Grid) : Prop where
  width : g.width < UInt64.size
  height : g.height < UInt64.size
  cell : ∀ p c, g.get? p = some c → c.Fits

theorem Grid.forall_mem_cells {g : Grid} {P : Cell → Prop}
    (h : ∀ p c, g.get? p = some c → P c) : ∀ c ∈ g.cells.toList, P c := by
  intro c hc
  rw [g.toList_cells] at hc
  obtain ⟨p, hp, rfl⟩ := List.mem_map.mp hc
  exact h p _ (get?_of_contains (mem_positions.mp hp))

theorem Grid.ext_cells {g g' : Grid} (hw : g.width = g'.width) (hh : g.height = g'.height)
    (hc : g.cells.toList = g'.cells.toList) : g = g' := by
  obtain ⟨w, h, cells, hs⟩ := g
  obtain ⟨w', h', cells', hs'⟩ := g'
  cases hw
  cases hh
  cases Array.toList_inj.mp hc
  rfl

/-- The bytes of the cells, behind the size of the grid, tell the grid. -/
theorem Grid.eq_of_encoding_eq {g g' : Grid} (hfits : g.Fits) (hfits' : g'.Fits)
    (hnamed : g.Named) (hnamed' : g'.Named) (hw : g.width = g'.width) (hh : g.height = g'.height)
    (h : g.cells.toList.flatMap Cell.encoding = g'.cells.toList.flatMap Cell.encoding) :
    g = g' := by
  have hcells := Cell.delimited_encoding.flatMap (g.width * g.height)
    ⟨g.size_eq, forall_mem_cells fun p c hc => ⟨hfits.cell p c hc, hnamed p c hc⟩⟩
    ⟨hw ▸ hh ▸ g'.size_eq, forall_mem_cells fun p c hc => ⟨hfits'.cell p c hc, hnamed' p c hc⟩⟩
    (congrArg (· ++ []) h)
  exact ext_cells hw hh hcells.1

theorem Digest.foldl_bytes (d : Digest) (pieces : List (List UInt8)) :
    pieces.foldl bytes d = d.bytes pieces.flatten := List.foldl_flatten.symm

namespace Machine

/-- The bytes tell the counter, the generator and the grid. -/
theorem encoding_eq_iff {m m' : Machine} (hfits : m.grid.Fits) (hfits' : m'.grid.Fits)
    (hnamed : m.grid.Named) (hnamed' : m'.grid.Named) :
    m.encoding = m'.encoding ↔
      m.tick = m'.tick ∧ m.generator = m'.generator ∧ m.grid = m'.grid := by
  constructor
  · intro h
    simp only [encoding, List.append_assoc] at h
    obtain ⟨htick, h⟩ := delimited_wordBytes trivial trivial h
    obtain ⟨hstate, h⟩ := delimited_wordBytes trivial trivial h
    obtain ⟨hwidth, h⟩ := delimited_count hfits.width hfits'.width h
    obtain ⟨hheight, h⟩ := delimited_count hfits.height hfits'.height h
    exact ⟨htick, congrArg Generator.mk hstate,
      Grid.eq_of_encoding_eq hfits hfits' hnamed hnamed' hwidth hheight h⟩
  · rintro ⟨htick, hgenerator, hgrid⟩
    rw [encoding, encoding, htick, hgenerator, hgrid]

/-- Two machines feed the same bytes to the digest only if their counters, generators and grids are
    equal, where sides and texts can be counted by a word and operators have names. And it is all
    the same whether the digest takes in the bytes of several parts at once or part after part. -/
theorem encoding_tells_state :
    (∀ m m' : Machine, m.grid.Fits → m'.grid.Fits → m.grid.Named → m'.grid.Named →
      (m.encoding = m'.encoding ↔
        m.tick = m'.tick ∧ m.generator = m'.generator ∧ m.grid = m'.grid)) ∧
    (∀ (d : Digest) (pieces : List (List UInt8)),
      pieces.foldl Digest.bytes d = d.bytes pieces.flatten) ∧
    ∀ m : Machine, m.digest =
      ((wordBytes m.tick :: wordBytes m.generator.state :: wordBytes m.grid.width.toUInt64 ::
        wordBytes m.grid.height.toUInt64 :: m.grid.cells.toList.map Cell.encoding).foldl
          Digest.bytes Digest.start).state := by
  refine ⟨fun m m' hfits hfits' hnamed hnamed' => encoding_eq_iff hfits hfits' hnamed hnamed',
    foldl_bytes, fun m => ?_⟩
  rw [foldl_bytes, digest, encoding, List.flatMap_def]
  simp only [List.flatten_cons, List.append_assoc]

/-- Two texts side by side. -/
def texts (first second : String) : Grid :=
  ⟨4, 3,
    #[.border, .border, .border, .border,
      .border, .ofValue (.text first), .ofValue (.text second), .border,
      .border, .border, .border, .border], rfl⟩

/-- Two texts that read the same one after the other are told apart if the cut between them is not
    at the same place. -/
theorem encoding_tells_state_cut :
    let m := Machine.start (texts "ab" "c") {} 7 #[]
    let m' := Machine.start (texts "a" "bc") {} 7 #[]
    (m.grid.Fits ∧ m.grid.Named) ∧ (m'.grid.Fits ∧ m'.grid.Named) ∧ m.encoding ≠ m'.encoding := by
  intro m m'
  have hm : m.grid.Fits ∧ m.grid.Named :=
    ⟨⟨by decide, by decide, Grid.forall_get?_iff.mpr (by decide)⟩, by decide⟩
  have hm' : m'.grid.Fits ∧ m'.grid.Named :=
    ⟨⟨by decide, by decide, Grid.forall_get?_iff.mpr (by decide)⟩, by decide⟩
  refine ⟨hm, hm', fun h => ?_⟩
  obtain ⟨-, -, hgrid⟩ := (encoding_tells_state.1 m m' hm.1 hm'.1 hm.2 hm'.2).mp h
  exact absurd hgrid (by decide)

end Machine

end Gridfall
