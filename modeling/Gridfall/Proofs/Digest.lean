/-
  The digest tells a change of one byte. Taking in a byte is an exclusive or and a product with an
  odd word. With the byte fixed, no two digests are taken to the same one; with the digest fixed, no
  two bytes are. So digests that differ once differ for ever, whatever bytes they both take in
  (`bytes_injective`), and two byte lists that differ at one place come out apart
  (`bytes_ne_of_oneApart`).

  Of a machine's state, one byte holds the drift of a value, and each byte of the counter has a
  place of its own. So two states that differ in nothing but one of these have different digests.
-/
import Gridfall.Proofs.Encoding
import Gridfall.Proofs.Word

namespace Gridfall

open Function Digest

/-- Of one length, and with different bytes at exactly one place. -/
def OneApart (bs cs : List UInt8) : Prop := bs.length = cs.length ∧ ∃! i : Nat, bs[i]? ≠ cs[i]?

/-- What differs at one place is the same before it and after it. -/
theorem oneApart_iff {bs cs : List UInt8} :
    OneApart bs cs ↔ ∃ l a b r, a ≠ b ∧ bs = l ++ a :: r ∧ cs = l ++ b :: r := by
  constructor
  · rintro ⟨hlength, i, hi, hunique⟩
    have hb : i < bs.length := by
      by_contra hge
      exact hi (by rw [List.getElem?_eq_none (by omega), List.getElem?_eq_none (by omega)])
    have hc : i < cs.length := hlength ▸ hb
    rw [List.getElem?_eq_getElem hb, List.getElem?_eq_getElem hc] at hi
    have hset : bs.set i cs[i] = cs := by
      apply List.ext_getElem?
      intro j
      rw [List.getElem?_set]
      split
      · next hij => rw [← hij, List.getElem?_eq_getElem hc]
      · next hij =>
        by_contra hne
        exact hij (hunique j hne).symm
    refine ⟨bs.take i, bs[i], cs[i], bs.drop (i + 1), fun heq => hi (congrArg some heq), ?_, ?_⟩
    · rw [← List.drop_eq_getElem_cons hb, List.take_append_drop]
    · calc cs = bs.set i cs[i] := hset.symm
        _ = bs.take i ++ cs[i] :: bs.drop (i + 1) := by
          rw [List.set_eq_take_append_cons_drop, if_pos hb]
  · rintro ⟨l, a, b, r, hne, rfl, rfl⟩
    refine ⟨by simp, l.length, by simpa using hne, fun j hj => ?_⟩
    by_contra hother
    apply hj
    rcases Nat.lt_or_gt_of_ne hother with hbefore | hafter
    · rw [List.getElem?_append_left hbefore, List.getElem?_append_left hbefore]
    · obtain ⟨k, rfl⟩ := Nat.exists_eq_add_of_lt hafter
      rw [List.getElem?_append_right (by omega), List.getElem?_append_right (by omega),
        show l.length + k + 1 - l.length = k + 1 by omega, List.getElem?_cons_succ,
        List.getElem?_cons_succ]

namespace Digest

theorem state_inj {d e : Digest} (h : d.state = e.state) : d = e := congrArg Digest.mk h

theorem factor_odd : factor.toNat % 2 = 1 := by decide

/-- Digests that differ still do so after the same byte. -/
theorem byte_injective (b : UInt8) : Injective fun d : Digest => d.byte b := by
  intro d e h
  have hxor : d.state ^^^ b.toUInt64 = e.state ^^^ b.toUInt64 :=
    Word.mul_injective factor_odd (congrArg state h)
  exact state_inj ((UInt64.xor_left_inj _).mp hxor)

/-- Different bytes make one digest differ. -/
theorem byte_right_injective (d : Digest) : Injective d.byte := by
  intro a b h
  have hxor : d.state ^^^ a.toUInt64 = d.state ^^^ b.toUInt64 :=
    Word.mul_injective factor_odd (congrArg state h)
  exact UInt8.toUInt64_inj.mp ((UInt64.xor_right_inj _).mp hxor)

theorem bytes_injective (bs : List UInt8) : Injective fun d : Digest => d.bytes bs := by
  induction bs with
  | nil => exact injective_id
  | cons b bs ih => exact ih.comp (byte_injective b)

theorem bytes_ne {a b : UInt8} (h : a ≠ b) (d : Digest) (l r : List UInt8) :
    d.bytes (l ++ a :: r) ≠ d.bytes (l ++ b :: r) := by
  unfold bytes
  rw [List.foldl_append, List.foldl_append, List.foldl_cons, List.foldl_cons]
  exact fun heq => h (byte_right_injective _ (bytes_injective r heq))

theorem bytes_ne_of_oneApart {bs cs : List UInt8} (h : OneApart bs cs) (d : Digest) :
    d.bytes bs ≠ d.bytes cs := by
  obtain ⟨l, a, b, r, hne, rfl, rfl⟩ := oneApart_iff.mp h
  exact bytes_ne hne d l r

/-! ## The bytes of a word -/

/-- A digit of a word to the base 256, the lowest first. -/
def digit (w : UInt64) (i : Nat) : Nat := w.toNat / 256 ^ i % 256

/-- The bytes of a word are its digits to the base 256. -/
theorem wordBytes_eq_map (w : UInt64) :
    wordBytes w = (List.range 8).map fun i => UInt8.ofNat (w.toNat / 256 ^ i) := by
  have hlow : w.toUInt8 = UInt8.ofNat (w.toNat / 256 ^ 0) := by
    rw [Nat.pow_zero, Nat.div_one]
    rfl
  have hbyte : ∀ (k : UInt64) (i : Nat), k.toNat = 8 * i → i < 8 →
      (w >>> k).toUInt8 = UInt8.ofNat (w.toNat / 256 ^ i) := by
    intro k i hk hi
    apply UInt8.toNat_inj.mp
    have hplace : 8 * i % 64 = 8 * i := Nat.mod_eq_of_lt (by omega)
    rw [UInt64.toNat_toUInt8, UInt64.toNat_shiftRight, hk, hplace, Nat.shiftRight_eq_div_pow,
      Nat.pow_mul]
    rfl
  rw [wordBytes, hlow, hbyte 8 1 rfl (by decide), hbyte 16 2 rfl (by decide),
    hbyte 24 3 rfl (by decide), hbyte 32 4 rfl (by decide), hbyte 40 5 rfl (by decide),
    hbyte 48 6 rfl (by decide), hbyte 56 7 rfl (by decide)]
  rfl

/-- The bytes of two words differ where their digits do. -/
theorem getElem?_wordBytes_ne_iff (w v : UInt64) (i : Nat) :
    (wordBytes w)[i]? ≠ (wordBytes v)[i]? ↔
      i < 8 ∧ digit w i ≠ digit v i := by
  rw [wordBytes_eq_map, wordBytes_eq_map, List.getElem?_map, List.getElem?_map]
  by_cases hi : i < 8
  · rw [List.getElem?_range hi, Option.map_some, Option.map_some, ne_eq, Option.some_inj,
      ← UInt8.toNat_inj, UInt8.toNat_ofNat', UInt8.toNat_ofNat']
    exact ⟨fun h => ⟨hi, h⟩, fun h => h.2⟩
  · rw [List.getElem?_eq_none (by simpa using hi)]
    exact ⟨fun h => absurd rfl h, fun h => absurd h.1 hi⟩

end Digest

/-! ## States of a machine -/

/-- A grid that agrees with another everywhere but at `p` is that grid with its own cell at `p`. -/
theorem Grid.eq_set {g g' : Grid} {p : Pos} {c : Cell} (hw : g'.width = g.width)
    (hh : g'.height = g.height) (hp : g'.get? p = some c)
    (h : ∀ q, q ≠ p → g'.get? q = g.get? q) : g' = g.set p c := by
  have hcontains : g.contains p = true := by
    have hin := contains_of_get? hp
    rwa [contains, hw, hh] at hin
  refine ext_get? hw hh fun q => ?_
  rw [get?_set hcontains]
  split
  · next hq => rw [hq, hp]
  · next hq => exact h q hq

namespace Machine

/-- The bytes before and after those of the cell at `p` do not depend on that cell. -/
theorem exists_encoding_set {m : Machine} {p : Pos} (hp : m.grid.contains p = true) :
    ∃ l r, ∀ c, { m with grid := m.grid.set p c }.encoding = l ++ c.encoding ++ r := by
  refine ⟨wordBytes m.tick ++ wordBytes m.generator.state ++ wordBytes m.grid.width.toUInt64 ++
      wordBytes m.grid.height.toUInt64 ++
      (m.grid.cells.toList.take (m.grid.index p)).flatMap Cell.encoding,
    (m.grid.cells.toList.drop (m.grid.index p + 1)).flatMap Cell.encoding, fun c => ?_⟩
  have hcells : (m.grid.set p c).cells.toList =
      m.grid.cells.toList.take (m.grid.index p) ++ c ::
        m.grid.cells.toList.drop (m.grid.index p + 1) := by
    have hlt : m.grid.index p < m.grid.cells.toList.length := Grid.index_lt hp
    rw [Grid.set, Array.toList_setIfInBounds, List.set_eq_take_append_cons_drop, if_pos hlt]
  simp only [encoding, hcells, List.flatMap_append, List.flatMap_cons, List.append_assoc,
    Grid.width_set, Grid.height_set]

/-- The same state but for the drift of one value. -/
structure DriftApart (m m' : Machine) : Prop where
  tick : m'.tick = m.tick
  generator : m'.generator = m.generator
  width : m'.grid.width = m.grid.width
  height : m'.grid.height = m.grid.height
  cell : ∃ p value drift drift', drift ≠ drift' ∧
    m.grid.get? p = some (.data ⟨value, drift⟩) ∧ m'.grid.get? p = some (.data ⟨value, drift'⟩) ∧
    ∀ q, q ≠ p → m'.grid.get? q = m.grid.get? q

/-- The same state but for one byte of the counter. -/
structure TickApart (m m' : Machine) : Prop where
  tick : ∃! i : Nat, i < 8 ∧ digit m.tick i ≠ digit m'.tick i
  generator : m'.generator = m.generator
  grid : m'.grid = m.grid

theorem digest_ne_of_bytes {m m' : Machine}
    (h : Digest.start.bytes m.encoding ≠ Digest.start.bytes m'.encoding) :
    m.digest ≠ m'.digest := by
  unfold digest
  exact fun heq => h (state_inj heq)

theorem DriftApart.digest_ne {m m' : Machine} (h : DriftApart m m') : m.digest ≠ m'.digest := by
  obtain ⟨p, value, drift, drift', hne, hp, hp', hrest⟩ := h.cell
  obtain ⟨l, r, hencoding⟩ := exists_encoding_set (Grid.contains_of_get? hp)
  have hm : m.encoding = l ++ (Cell.data ⟨value, drift⟩).encoding ++ r := by
    rw [← hencoding, ← Grid.eq_set rfl rfl hp fun _ _ => rfl]
  have hm' : m'.encoding = l ++ (Cell.data ⟨value, drift'⟩).encoding ++ r := by
    rw [← hencoding, ← Grid.eq_set h.width h.height hp' hrest]
    simp only [encoding, h.tick, h.generator]
  -- The drift is the second byte of the cell.
  have htag : drift.tag ≠ drift'.tag := fun h => hne (Drift.tag_inj h)
  have hbytes := Digest.bytes_ne htag Digest.start (l ++ [2]) (value.encoding ++ r)
  apply digest_ne_of_bytes
  rw [hm, hm']
  simpa only [Cell.encoding, List.append_assoc, List.cons_append, List.nil_append] using hbytes

theorem TickApart.digest_ne {m m' : Machine} (h : TickApart m m') : m.digest ≠ m'.digest := by
  have hapart : OneApart (wordBytes m.tick) (wordBytes m'.tick) := by
    refine ⟨rfl, ?_⟩
    simp only [getElem?_wordBytes_ne_iff]
    exact h.tick
  obtain ⟨l, a, b, r, hne, hl, hr⟩ := oneApart_iff.mp hapart
  apply digest_ne_of_bytes
  simp only [encoding, hl, hr, h.generator, h.grid, List.append_assoc, List.cons_append]
  exact Digest.bytes_ne hne Digest.start l _

/-- Two byte lists of one length that differ at exactly one place take any digest to different ones.
    Hence the digests of two machines differ if their states do so in nothing but the drift of one
    value, or in nothing but one byte of the counter. -/
theorem digest_tells_byte :
    (∀ (d : Digest) (bs cs : List UInt8), OneApart bs cs → d.bytes bs ≠ d.bytes cs) ∧
    (∀ m m' : Machine, DriftApart m m' → m.digest ≠ m'.digest) ∧
    ∀ m m' : Machine, TickApart m m' → m.digest ≠ m'.digest :=
  ⟨fun d _ _ h => bytes_ne_of_oneApart h d, fun _ _ h => h.digest_ne, fun _ _ h => h.digest_ne⟩

/-- One number with a drift. -/
def drifting (drift : Drift) : Grid :=
  ⟨3, 3,
    #[.border, .border, .border,
      .border, .data ⟨.number 5, drift⟩, .border,
      .border, .border, .border], rfl⟩

/-- A machine over that number, with a counter. -/
def drifter (drift : Drift) (tick : UInt64) : Machine :=
  { Machine.start (drifting drift) {} 7 #[] with tick }

/-- A byte in the midst of others, a number that drifts the other way, and a counter with another
    second byte. -/
theorem digest_tells_byte_each :
    (OneApart [1, 2, 3] [1, 9, 3] ∧
      Digest.start.bytes [1, 2, 3] ≠ Digest.start.bytes [1, 9, 3]) ∧
    (DriftApart (drifter .left 4) (drifter .right 4) ∧
      (drifter .left 4).digest ≠ (drifter .right 4).digest) ∧
    (TickApart (drifter .left 0xFF) (drifter .left 0x1FF) ∧
      (drifter .left 0xFF).digest ≠ (drifter .left 0x1FF).digest) := by
  have hbytes : OneApart [1, 2, 3] [1, 9, 3] :=
    oneApart_iff.mpr ⟨[1], 2, 9, [3], by decide, rfl, rfl⟩
  have hdrift : DriftApart (drifter .left 4) (drifter .right 4) := by
    refine ⟨rfl, rfl, rfl, rfl, ⟨1, 1⟩, .number 5, .left, .right, by decide, rfl, rfl, ?_⟩
    intro q hq
    have hset : drifting .right = (drifting .left).set ⟨1, 1⟩ (.data ⟨.number 5, .right⟩) := rfl
    exact (congrArg (Grid.get? · q) hset).trans (Grid.get?_set_ne rfl hq _)
  have htick : TickApart (drifter .left 0xFF) (drifter .left 0x1FF) := by
    refine ⟨⟨1, by decide, fun i hi => ?_⟩, rfl, rfl⟩
    have hall : ∀ i < 8, digit 0xFF i ≠ digit 0x1FF i → i = 1 := by decide
    exact hall i hi.1 hi.2
  obtain ⟨hone, hturned, hlater⟩ := digest_tells_byte
  exact ⟨⟨hbytes, hone _ _ _ hbytes⟩, ⟨hdrift, hturned _ _ hdrift⟩, ⟨htick, hlater _ _ htick⟩⟩

end Machine

end Gridfall
