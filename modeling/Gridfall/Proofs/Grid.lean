/-
  The grid as a map from places to cells. `get?` and `set` are tied together here once, so that
  later proofs speak of places only and never of flat indices: two places of the grid share an
  index only if they are equal, and a write to a place of the grid changes that place and no other.

  `Framed` is the closed ring of border. Inside the ring every neighbour is on the grid, so there
  `Pos.beside` names it without a check, and the places are listed row by row. `Pos.Ahead` is a
  straight line of any number of steps, by coordinates.
-/
import Gridfall.Grid.Build
import Mathlib.Data.List.Nodup
import Mathlib.Data.List.Range

namespace Gridfall.Grid

/-! ## Places and indices -/

theorem contains_iff {g : Grid} {p : Pos} :
    g.contains p = true ↔ p.x < g.width ∧ p.y < g.height := by
  simp [contains]

theorem index_lt {g : Grid} {p : Pos} (h : g.contains p = true) : g.index p < g.cells.size := by
  obtain ⟨hx, hy⟩ := contains_iff.mp h
  rw [g.size_eq]
  unfold index
  calc p.y * g.width + p.x < p.y * g.width + g.width := by omega
    _ = (p.y + 1) * g.width := (Nat.succ_mul p.y g.width).symm
    _ ≤ g.height * g.width := Nat.mul_le_mul_right _ hy
    _ = g.width * g.height := Nat.mul_comm _ _

/-- In row-by-row order, a column and a row can be told from the flat index. -/
theorem flat_inj {w x y x' y' : Nat} (hx : x < w) (hx' : x' < w) (h : y * w + x = y' * w + x') :
    x = x' ∧ y = y' := by
  have hcolumn : x = x' := by
    have := congrArg (· % w) h
    simpa [Nat.mul_add_mod_self_right, Nat.mod_eq_of_lt hx, Nat.mod_eq_of_lt hx'] using this
  refine ⟨hcolumn, ?_⟩
  rw [hcolumn] at h
  exact Nat.eq_of_mul_eq_mul_right (by omega) (Nat.add_right_cancel h)

theorem index_inj {g : Grid} {p q : Pos} (hp : g.contains p = true) (hq : g.contains q = true)
    (h : g.index p = g.index q) : p = q := by
  obtain ⟨hpx, -⟩ := contains_iff.mp hp
  obtain ⟨hqx, -⟩ := contains_iff.mp hq
  obtain ⟨hx, hy⟩ := flat_inj hpx hqx h
  cases p; cases q; simp_all

/-! ## Reading -/

theorem get?_of_contains {g : Grid} {p : Pos} (h : g.contains p = true) :
    g.get? p = some (g.cellAt p) := by
  have hi := index_lt h
  simp [get?, cellAt, h, hi]

theorem contains_of_get? {g : Grid} {p : Pos} {c : Cell} (h : g.get? p = some c) :
    g.contains p = true := by
  by_contra hp
  simp [get?, hp] at h

theorem cellAt_of_get? {g : Grid} {p : Pos} {c : Cell} (h : g.get? p = some c) :
    g.cellAt p = c := by
  rw [get?_of_contains (contains_of_get? h)] at h
  exact Option.some.inj h

theorem get?_eq_none {g : Grid} {p : Pos} (h : ¬ g.contains p = true) : g.get? p = none := by
  simp [get?, h]

theorem datum?_eq_some_iff {g : Grid} {p : Pos} {d : Datum} :
    g.datum? p = some d ↔ g.get? p = some (.data d) := by
  unfold datum?
  cases hg : g.get? p with
  | none => simp
  | some c => cases c <;> simp [Cell.datum?]

/-- Two grids of one size with the same cell at every place are equal. -/
theorem ext_get? {g g' : Grid} (hw : g.width = g'.width) (hh : g.height = g'.height)
    (h : ∀ p, g.get? p = g'.get? p) : g = g' := by
  obtain ⟨w, ht, cells, hs⟩ := g
  obtain ⟨w', ht', cells', hs'⟩ := g'
  subst hw hh
  have hcells : cells = cells' := by
    apply Array.ext (by rw [hs, hs'])
    intro i hi hi'
    have hlt : i < w * ht := hs ▸ hi
    have hw0 : 0 < w := Nat.pos_of_ne_zero fun h0 => by subst h0; simp at hlt
    have hy : i / w < ht := Nat.div_lt_of_lt_mul hlt
    have hx : i % w < w := Nat.mod_lt _ hw0
    have := h ⟨i % w, i / w⟩
    simpa [get?, contains, hx, hy, index, Nat.div_add_mod', hi, hi'] using this
  subst hcells
  rfl

/-! ## Writing -/

@[simp] theorem width_set (g : Grid) (p : Pos) (c : Cell) : (g.set p c).width = g.width := rfl

@[simp] theorem height_set (g : Grid) (p : Pos) (c : Cell) : (g.set p c).height = g.height := rfl

@[simp] theorem size_set (g : Grid) (p : Pos) (c : Cell) :
    (g.set p c).cells.size = g.cells.size := Array.size_setIfInBounds

@[simp] theorem contains_set (g : Grid) (p q : Pos) (c : Cell) :
    (g.set p c).contains q = g.contains q := rfl

@[simp] theorem index_set (g : Grid) (p q : Pos) (c : Cell) :
    (g.set p c).index q = g.index q := rfl

@[simp] theorem step?_set (g : Grid) (p q : Pos) (c : Cell) (d : Dir) :
    (g.set p c).step? q d = g.step? q d := rfl

@[simp] theorem isEdge_set (g : Grid) (p q : Pos) (c : Cell) :
    (g.set p c).isEdge q = g.isEdge q := rfl

@[simp] theorem interior_set (g : Grid) (p : Pos) (c : Cell) :
    (g.set p c).interior = g.interior := rfl

theorem get?_set_self {g : Grid} {p : Pos} (h : g.contains p = true) (c : Cell) :
    (g.set p c).get? p = some c := by
  have hcell : (g.cells.setIfInBounds (g.index p) c)[g.index p]? = some c :=
    Array.getElem?_setIfInBounds_self_of_lt (index_lt h)
  rw [get?, contains_set, if_pos h]
  exact hcell

theorem get?_set_ne {g : Grid} {p q : Pos} (hp : g.contains p = true) (hne : q ≠ p) (c : Cell) :
    (g.set p c).get? q = g.get? q := by
  rw [get?, get?, contains_set]
  split
  · next hq =>
    have hidx : g.index p ≠ g.index q := fun h => hne (index_inj hp hq h).symm
    exact Array.getElem?_setIfInBounds_ne hidx
  · rfl

theorem get?_set {g : Grid} {p : Pos} (h : g.contains p = true) (q : Pos) (c : Cell) :
    (g.set p c).get? q = if q = p then some c else g.get? q := by
  split
  · next hq => rw [hq, get?_set_self h]
  · next hq => exact get?_set_ne h hq c

/-- A cell that moves to another place leaves an empty one. -/
theorem get?_shift {g : Grid} {p q : Pos} (hp : g.contains p = true) (hq : g.contains q = true)
    (r : Pos) : (g.shift p q).get? r =
      if r = q then g.get? p else if r = p then some .empty else g.get? r := by
  rw [shift, get?_set (g := g.set p .empty) hq, get?_set hp, get?_of_contains hp]

theorem size_shift (g : Grid) (p q : Pos) : (g.shift p q).cells.size = g.cells.size := by
  simp [shift]

/-! ## Neighbours -/

theorem contains_of_step? {g : Grid} {p q : Pos} {d : Dir} (h : g.step? p d = some q) :
    g.contains q = true := by
  unfold step? at h
  exact (Option.filter_eq_some_iff.mp h).2

/-! ## Inside the ring -/

theorem mem_block {x0 w y0 h : Nat} {p : Pos} :
    p ∈ block x0 w y0 h ↔ (x0 ≤ p.x ∧ p.x < x0 + w) ∧ y0 ≤ p.y ∧ p.y < y0 + h := by
  unfold block
  simp only [List.mem_flatMap, List.mem_map, List.mem_range'_1]
  constructor
  · rintro ⟨y, hy, x, hx, rfl⟩
    exact ⟨hx, hy⟩
  · rintro ⟨hx, hy⟩
    exact ⟨p.y, hy, p.x, hx, rfl⟩

theorem nodup_block (x0 w y0 h : Nat) : (block x0 w y0 h).Nodup := by
  unfold block
  rw [List.nodup_flatMap]
  refine ⟨fun y _ => ?_, ?_⟩
  · exact (List.nodup_range' 1).map fun a b hab => congrArg Pos.x hab
  · refine (List.nodup_range' 1).imp fun {a b} hab => ?_
    rintro p hp hq
    obtain ⟨_, _, rfl⟩ := List.mem_map.mp hp
    obtain ⟨_, _, he⟩ := List.mem_map.mp hq
    exact hab (congrArg Pos.y he).symm

theorem mem_interior {g : Grid} {p : Pos} :
    p ∈ g.interior ↔ g.contains p = true ∧ g.isEdge p = false := by
  rw [interior, mem_block, contains_iff]
  simp only [isEdge, Bool.or_eq_false_iff, beq_eq_false_iff_ne]
  omega

theorem mem_positions {g : Grid} {p : Pos} : p ∈ g.positions ↔ g.contains p = true := by
  rw [positions, mem_block, contains_iff]
  omega

theorem mem_data {g : Grid} {p : Pos} {d : Datum} :
    (p, d) ∈ g.data ↔ p ∈ g.interior ∧ g.get? p = some (.data d) := by
  unfold data
  rw [List.mem_filterMap]
  constructor
  · rintro ⟨q, hq, hmap⟩
    obtain ⟨d', hd, heq⟩ := Option.map_eq_some_iff.mp hmap
    cases heq
    exact ⟨hq, datum?_eq_some_iff.mp hd⟩
  · rintro ⟨hp, hd⟩
    exact ⟨p, hp, by rw [datum?_eq_some_iff.mpr hd]; rfl⟩

/-- A property of all cells can be checked place by place. -/
theorem forall_get?_iff {g : Grid} {P : Pos → Cell → Prop} :
    (∀ p c, g.get? p = some c → P p c) ↔ ∀ p ∈ g.positions, P p (g.cellAt p) := by
  constructor
  · intro h p hp
    exact h p _ (get?_of_contains (mem_positions.mp hp))
  · intro h p c hc
    rw [← cellAt_of_get? hc]
    exact h p (mem_positions.mpr (contains_of_get? hc))

/-- The rows of a block one after the other are its flat indices in order. -/
theorem flatMap_rows (w n : Nat) :
    (List.range' 0 n).flatMap (fun y => List.range' (y * w) w) = List.range' 0 (n * w) := by
  induction n with
  | zero => simp
  | succ n ih =>
    rw [List.range'_1_concat, List.flatMap_append, ih, List.flatMap_singleton, Nat.add_one_mul]
    simp only [Nat.zero_add]
    rw [← List.range'_append_1 (s := 0), Nat.zero_add]

theorem map_index_positions (g : Grid) : g.positions.map g.index = List.range' 0 g.cells.size := by
  have hrow : ∀ y, ((List.range' 0 g.width).map fun x => (⟨x, y⟩ : Pos)).map g.index =
      List.range' (y * g.width) g.width := by
    intro y
    rw [List.map_map, ← Nat.add_zero (y * g.width), ← List.map_add_range']
    rfl
  unfold positions block
  rw [List.map_flatMap, funext hrow, flatMap_rows, g.size_eq, Nat.mul_comm]

/-- The cells are stored in the order of the places. -/
theorem toList_cells (g : Grid) : g.cells.toList = g.positions.map g.cellAt := by
  have hat : g.positions.map g.cellAt =
      (g.positions.map g.index).map fun i => g.cells[i]?.getD .empty := by
    rw [List.map_map]
    rfl
  rw [hat, map_index_positions]
  apply List.ext_getElem (by simp)
  intro i hi hi'
  have hlt : i < g.cells.size := by simpa using hi
  simp [hlt]

theorem nodup_positions (g : Grid) : g.positions.Nodup := nodup_block _ _ _ _

theorem nodup_interior (g : Grid) : g.interior.Nodup := nodup_block _ _ _ _

/-- The outermost ring is border all around. -/
def Framed (g : Grid) : Prop := ∀ p c, g.get? p = some c → g.isEdge p = true → c = .border

instance (g : Grid) : Decidable g.Framed := decidable_of_iff' _ forall_get?_iff

theorem Framed.interior {g : Grid} (hf : g.Framed) {p : Pos} {c : Cell} (h : g.get? p = some c)
    (hc : c ≠ .border) : p ∈ g.interior := by
  refine mem_interior.mpr ⟨contains_of_get? h, ?_⟩
  by_contra he
  exact hc (hf p c h (by simpa using he))

end Gridfall.Grid

namespace Gridfall

/-! ## Neighbours inside the ring -/

/-- The place next to `p` on a side. -/
def Pos.beside (p : Pos) : Dir → Pos
  | .up => p.around.up
  | .left => p.around.left
  | .right => p.around.right
  | .down => p.around.down

namespace Grid

variable {g : Grid} {p : Pos}

theorem mem_interior_iff :
    p ∈ g.interior ↔ (1 ≤ p.x ∧ p.x + 1 < g.width) ∧ 1 ≤ p.y ∧ p.y + 1 < g.height := by
  rw [interior, mem_block]
  omega

theorem contains_of_interior (hp : p ∈ g.interior) : g.contains p = true :=
  (mem_interior.mp hp).1

theorem contains_beside (hp : p ∈ g.interior) (d : Dir) : g.contains (p.beside d) = true := by
  have hin := mem_interior_iff.mp hp
  rw [contains_iff]
  cases d <;> simp only [Pos.beside, Pos.around] <;> omega

theorem step?_interior (hp : p ∈ g.interior) (d : Dir) : g.step? p d = some (p.beside d) := by
  have hin := mem_interior_iff.mp hp
  have hc := contains_beside hp d
  unfold step?
  cases d with
  | up => simp only [if_neg (show p.y ≠ 0 by omega)]; exact Option.filter_some_pos hc
  | left => simp only [if_neg (show p.x ≠ 0 by omega)]; exact Option.filter_some_pos hc
  | right => exact Option.filter_some_pos hc
  | down => exact Option.filter_some_pos hc

theorem beside_of_step? (hp : p ∈ g.interior) {d : Dir} {q : Pos} (h : g.step? p d = some q) :
    p.beside d = q := by
  rw [step?_interior hp] at h
  exact Option.some.inj h

theorem beside_ne (hp : p ∈ g.interior) (d : Dir) : p.beside d ≠ p := by
  have hin := mem_interior_iff.mp hp
  intro h
  have hx := congrArg Pos.x h
  have hy := congrArg Pos.y h
  cases d <;> simp only [Pos.beside, Pos.around] at hx hy <;> omega

theorem beside_beside_opposite (hp : p ∈ g.interior) (d : Dir) :
    (p.beside d).beside d.opposite = p := by
  have hin := mem_interior_iff.mp hp
  obtain ⟨x, y⟩ := p
  cases d with
  | up => exact congrArg (Pos.mk x) (Nat.sub_add_cancel hin.2.1)
  | left => exact congrArg (Pos.mk · y) (Nat.sub_add_cancel hin.1.1)
  | right | down => rfl

/-- Rows are listed from top to bottom. -/
theorem pairwise_interior (g : Grid) : g.interior.Pairwise fun p q => p.y ≤ q.y := by
  unfold interior block
  rw [List.pairwise_flatMap]
  refine ⟨fun y _ => ?_, ?_⟩
  · rw [List.pairwise_map]
    exact List.pairwise_of_forall fun _ _ => Nat.le_refl y
  · refine (List.pairwise_le_range' 1).imp fun {y₁ y₂} hle p hp q hq => ?_
    obtain ⟨_, _, rfl⟩ := List.mem_map.mp hp
    obtain ⟨_, _, rfl⟩ := List.mem_map.mp hq
    exact hle

/-- A place of a higher row comes before. -/
theorem mem_before {before after : List Pos} {q : Pos} (hi : before ++ q :: after = g.interior)
    (hp : p ∈ g.interior) (hy : p.y < q.y) : p ∈ before := by
  have hpair := g.pairwise_interior
  rw [← hi] at hp hpair
  obtain ⟨-, hpair, -⟩ := List.pairwise_append.mp hpair
  obtain ⟨hle, -⟩ := List.pairwise_cons.mp hpair
  rcases List.mem_append.mp hp with hp | hp
  · exact hp
  · rcases List.mem_cons.mp hp with rfl | hp
    · omega
    · have := hle p hp
      omega

end Grid

/-! ## Straight lines -/

@[simp] theorem Dir.opposite_opposite (d : Dir) : d.opposite.opposite = d := by
  cases d <;> rfl

/-- The place `q` is `n` steps from `p`, in the direction `d`. -/
def Pos.Ahead (p : Pos) (d : Dir) (n : Nat) (q : Pos) : Prop :=
  (q.x : Int) = p.x + n * d.offset.1 ∧ (q.y : Int) = p.y + n * d.offset.2

namespace Pos.Ahead

variable {p q r : Pos} {d : Dir} {m n : Nat}

theorem unique (hq : p.Ahead d n q) (hr : p.Ahead d n r) : q = r := by
  have hx : (q.x : Int) = r.x := hq.1.trans hr.1.symm
  have hy : (q.y : Int) = r.y := hq.2.trans hr.2.symm
  obtain ⟨x, y⟩ := q
  obtain ⟨x', y'⟩ := r
  exact congrArg₂ Pos.mk (Int.ofNat_inj.mp hx) (Int.ofNat_inj.mp hy)

/-- The same way in the opposite direction. -/
theorem turn (h : p.Ahead d n q) : q.Ahead d.opposite n p := by
  obtain ⟨hx, hy⟩ := h
  cases d <;> constructor <;> simp only [Dir.opposite, Dir.offset] at hx hy ⊢ <;> omega

theorem trans (hq : p.Ahead d m q) (hr : q.Ahead d n r) : p.Ahead d (m + n) r := by
  refine ⟨?_, ?_⟩
  · rw [hr.1, hq.1, Int.natCast_add, Int.add_mul, Int.add_assoc]
  · rw [hr.2, hq.2, Int.natCast_add, Int.add_mul, Int.add_assoc]

/-- What is left of the way to `r` at a place `q` on it. -/
theorem rest (hq : p.Ahead d m q) (hr : p.Ahead d (m + n) r) : q.Ahead d n r := by
  obtain ⟨hx, hy⟩ := hr
  rw [Int.natCast_add, Int.add_mul, ← Int.add_assoc] at hx hy
  rw [← hq.1] at hx
  rw [← hq.2] at hy
  exact ⟨hx, hy⟩

end Pos.Ahead

namespace Grid

variable {g : Grid} {p q r : Pos} {d : Dir} {m n : Nat}

theorem ahead_of_step? (h : g.step? p d = some q) : p.Ahead d 1 q := by
  unfold step? at h
  have hnext := (Option.filter_eq_some_iff.mp h).1
  cases d with
  | up =>
    obtain ⟨hy, rfl⟩ : p.y ≠ 0 ∧ (⟨p.x, p.y - 1⟩ : Pos) = q := by simpa using hnext
    constructor <;> simp only [Dir.offset] <;> omega
  | left =>
    obtain ⟨hx, rfl⟩ : p.x ≠ 0 ∧ (⟨p.x - 1, p.y⟩ : Pos) = q := by simpa using hnext
    constructor <;> simp only [Dir.offset] <;> omega
  | right | down =>
    cases hnext
    constructor <;> simp only [Dir.offset] <;> omega

/-- Between two places inside the ring, the way does not leave the ring. -/
theorem interior_between (hp : p ∈ g.interior) (hr : r ∈ g.interior) (hpq : p.Ahead d m q)
    (hqr : q.Ahead d n r) : q ∈ g.interior := by
  rw [mem_interior_iff] at hp hr ⊢
  obtain ⟨hx, hy⟩ := hpq
  obtain ⟨hx', hy'⟩ := hqr
  cases d <;> simp only [Dir.offset] at hx hy hx' hy' <;> omega

end Grid

end Gridfall
