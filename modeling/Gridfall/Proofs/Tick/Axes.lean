/-
  Operators on pairs of cells. Their turn goes through the signatures once, with a flag for each
  pair that has had its turn, and stops when both have. It comes to the same as two searches, one
  for each pair, that know nothing of each other: the vertical pair runs the first signature that
  fits it, the horizontal pair the first that fits that, each of them once, and the order of the two
  runs is that of their signatures, the vertical pair first where it is the same one.

  A `Call` is a run of a signature on a pair. `calls` are the calls of an operator. They are read
  off the grid as it stood before the phase alone, so that nothing that comes of the one call, a
  failure or a placement that fails, has a say in whether and how the other is made. `First` says
  what makes a call one of them, without a search.
-/
import Gridfall.Proofs.Tick.Firing

namespace Gridfall.Production

/-- One of the two pairs of cells around an operator. -/
inductive Pair where
  /-- Above and below. -/
  | vertical
  /-- Left and right. -/
  | horizontal
  deriving DecidableEq

namespace Pair

/-- The cells of a pair. -/
def axis (around : Sides Pos) : Pair → Axis
  | vertical => Production.vertical around
  | horizontal => Production.horizontal around

/-- Whether the first and the second cell of a pair hold what a signature asks of them. -/
def admits (pair : Pair) (g : Grid) (around : Sides Pos) (sig : Signature) : Bool :=
  match pair with
  | vertical =>
    fits sig.requires.up (g.datum? around.up) && fits sig.requires.down (g.datum? around.down)
  | horizontal =>
    fits sig.requires.up (g.datum? around.left) && fits sig.requires.down (g.datum? around.right)

theorem axisFits_axis (g : Grid) (around : Sides Pos) (sig : Signature) (pair : Pair) :
    axisFits g sig (pair.axis around) = pair.admits g around sig := by
  cases pair <;> rfl

end Pair

/-- A signature, with its number, that runs on a pair. -/
structure Call where
  pair : Pair
  sig : Signature
  index : Nat

namespace Call

/-- The signature stands in the table at its number, fits the pair, and is the first to do so. -/
structure First (g : Grid) (table : List Signature) (around : Sides Pos) (c : Call) : Prop where
  entry : table[c.index]? = some c.sig
  fits : c.pair.admits g around c.sig = true
  earlier : ∀ sig ∈ table.take c.index, c.pair.admits g around sig = false

/-- By number, and for one number the vertical pair first. -/
def Before (a b : Call) : Prop :=
  a.index < b.index ∨ a.index = b.index ∧ a.pair = .vertical ∧ b.pair = .horizontal

/-- Makes a call. -/
def make (g : Grid) (op : Operator) (around : Sides Pos) (s : Production) (c : Call) :
    Production := firePair g op c.sig c.index (c.pair.axis around) s

end Call

/-! ## The first that fits -/

theorem find?_zipIdx_eq_some_iff {α : Type} {l : List α} {P : α → Bool} {a : α} {i : Nat} :
    (l.zipIdx.find? fun e => P e.1) = some (a, i) ↔
      l[i]? = some a ∧ P a = true ∧ ∀ b ∈ l.take i, P b = false := by
  rw [List.find?_eq_some_iff_getElem]
  constructor
  · rintro ⟨ha, j, hj, hentry, hearlier⟩
    rw [List.length_zipIdx] at hj
    rw [List.getElem_zipIdx, Nat.zero_add] at hentry
    cases hentry
    refine ⟨List.getElem?_eq_getElem hj, ha, fun b hb => ?_⟩
    obtain ⟨k, hk, rfl⟩ := List.mem_take_iff_getElem.mp hb
    have hnot := hearlier k (by omega)
    simpa using hnot
  · rintro ⟨hentry, ha, hearlier⟩
    obtain ⟨hi, rfl⟩ := List.getElem?_eq_some_iff.mp hentry
    refine ⟨ha, i, by simpa using hi, by simp, fun k hk => ?_⟩
    have hnot := hearlier l[k] (List.mem_take_iff_getElem.mpr ⟨k, by omega, rfl⟩)
    simpa using hnot

/-- What a pair chooses. -/
def choice (g : Grid) (table : List Signature) (around : Sides Pos) (pair : Pair) :
    Option (Signature × Nat) :=
  chooseAxis? g table.zipIdx (pair.axis around)

theorem choice_eq_some_iff {g : Grid} {table : List Signature} {around : Sides Pos} {c : Call} :
    choice g table around c.pair = some (c.sig, c.index) ↔ c.First g table around := by
  unfold choice chooseAxis?
  simp only [Pair.axisFits_axis]
  rw [find?_zipIdx_eq_some_iff]
  constructor
  · rintro ⟨hentry, hfits, hearlier⟩
    exact ⟨hentry, hfits, hearlier⟩
  · rintro ⟨hentry, hfits, hearlier⟩
    exact ⟨hentry, hfits, hearlier⟩

theorem isSome_choice_iff {g : Grid} {table : List Signature} {around : Sides Pos} {pair : Pair} :
    (choice g table around pair).isSome = true ↔
      ∃ sig ∈ table, pair.admits g around sig = true := by
  rw [choice, chooseAxis?, List.find?_isSome]
  simp only [Pair.axisFits_axis]
  constructor
  · rintro ⟨e, he, hfits⟩
    exact ⟨e.1, List.fst_mem_of_mem_zipIdx he, hfits⟩
  · rintro ⟨sig, hsig, hfits⟩
    obtain ⟨i, hi⟩ := List.getElem?_of_mem hsig
    exact ⟨(sig, i), List.mem_zipIdx_iff_getElem?.mpr hi, hfits⟩

/-! ## The calls of an operator -/

/-- The call of a pair that has chosen. -/
def Call.of (pair : Pair) (e : Signature × Nat) : Call := ⟨pair, e.1, e.2⟩

/-- The calls of two pairs that have chosen, in their order. -/
def ordered (chosen : Pair → Option (Signature × Nat)) : List Call :=
  match chosen .vertical, chosen .horizontal with
  | none, none => []
  | some v, none => [.of .vertical v]
  | none, some h => [.of .horizontal h]
  | some v, some h =>
    if h.2 < v.2 then [.of .horizontal h, .of .vertical v] else [.of .vertical v, .of .horizontal h]

/-- In whichever order, these are the calls of the two pairs. -/
theorem perm_ordered (chosen : Pair → Option (Signature × Nat)) :
    (ordered chosen).Perm ((chosen .vertical).toList.map (.of .vertical) ++
      (chosen .horizontal).toList.map (.of .horizontal)) := by
  unfold ordered
  cases chosen .vertical with
  | none => cases chosen .horizontal <;> rfl
  | some v =>
    cases chosen .horizontal with
    | none => rfl
    | some h =>
      dsimp only
      split
      · exact .swap _ _ _
      · rfl

theorem mem_ordered {chosen : Pair → Option (Signature × Nat)} {c : Call} :
    c ∈ ordered chosen ↔ chosen c.pair = some (c.sig, c.index) := by
  rw [(perm_ordered chosen).mem_iff, List.mem_append, List.mem_map, List.mem_map]
  constructor
  · rintro (⟨e, he, rfl⟩ | ⟨e, he, rfl⟩)
    · exact Option.mem_toList.mp he
    · exact Option.mem_toList.mp he
  · obtain ⟨pair, sig, index⟩ := c
    intro hchosen
    cases pair with
    | vertical => exact .inl ⟨(sig, index), Option.mem_toList.mpr hchosen, rfl⟩
    | horizontal => exact .inr ⟨(sig, index), Option.mem_toList.mpr hchosen, rfl⟩

theorem countP_ordered (chosen : Pair → Option (Signature × Nat)) (pair : Pair) :
    (ordered chosen).countP (·.pair = pair) = (chosen pair).toList.length := by
  rw [(perm_ordered chosen).countP_eq, List.countP_append, List.countP_map, List.countP_map]
  cases pair <;> simp [Call.of, Function.comp_def]

theorem pairwise_ordered (chosen : Pair → Option (Signature × Nat)) :
    (ordered chosen).Pairwise Call.Before := by
  unfold ordered
  cases chosen .vertical with
  | none => cases chosen .horizontal <;> simp
  | some v =>
    cases chosen .horizontal with
    | none => simp
    | some h =>
      have hbefore : ∀ a b : Call, a.Before b → [a, b].Pairwise Call.Before := by simp
      dsimp only
      split
      · next hlt => exact hbefore _ _ (.inl hlt)
      · next hle =>
        apply hbefore
        rcases Nat.lt_or_eq_of_le (Nat.le_of_not_lt hle) with hlt | heq
        · exact .inl hlt
        · exact .inr ⟨heq, rfl, rfl⟩

/-- The firing of a call. -/
def Call.firing (op : Operator) (around : Sides Pos) (c : Call) : Firing :=
  ⟨op, c.sig, c.index, .pair (c.pair.axis around)⟩

theorem axisFirings_eq_map (op : Operator) (around : Sides Pos)
    (chosen : Pair → Option (Signature × Nat)) :
    axisFirings op around (chosen .vertical) (chosen .horizontal) =
      (ordered chosen).map (Call.firing op around) := by
  unfold ordered
  cases chosen .vertical with
  | none => cases chosen .horizontal <;> rfl
  | some v =>
    cases chosen .horizontal with
    | none => rfl
    | some h =>
      simp only [axisFirings]
      split <;> rfl

/-- The calls of an operator, in their order. -/
def calls (g : Grid) (op : Operator) (around : Sides Pos) : List Call :=
  ordered (choice g op.signatures around)

theorem firePairs_eq_calls (g : Grid) (op : Operator) (around : Sides Pos) (s : Production) :
    firePairs g op around op.signatures.zipIdx false false s =
      (calls g op around).foldl (Call.make g op around) s := by
  have hmake : Call.make g op around = fun s c => perform g s (c.firing op around) := by
    funext s c
    exact firePair_eq g op c.sig c.index (c.pair.axis around) s
  calc firePairs g op around op.signatures.zipIdx false false s
      = (axisFirings op around (choice g op.signatures around .vertical)
          (choice g op.signatures around .horizontal)).foldl (perform g) s :=
        firePairs_eq g op around (pairwise_zipIdx _ _) false false s
    _ = (calls g op around).foldl (Call.make g op around) s := by
        rw [axisFirings_eq_map, List.foldl_map, hmake, calls]

/-! ## How many computations there are -/

/-- The computations so far, whether they succeeded or failed. -/
def computed (s : Production) : Nat := s.fired + s.failed

theorem computed_emit (overwrite : Bool) (k : KindSet) (d : Option Datum) (target : Pos) (dir : Dir)
    (placed : Bool) (s : Production) :
    (emit overwrite k d target dir placed s).2.computed = s.computed := by
  unfold emit
  split <;> rfl

theorem computed_consume (s : Production) (k : KindSet) (i : Nat) :
    (s.consume k i).computed = s.computed := by
  unfold consume
  split <;> rfl

theorem computed_emitPair (sig : Signature) (overwrite : Bool) (axis : Axis) (e : PairEmission)
    (s : Production) : (emitPair sig overwrite axis e s).2.computed = s.computed := by
  unfold emitPair
  split
  · rfl
  · dsimp only
    rw [computed_emit, computed_emit]

theorem computed_make (g : Grid) (op : Operator) (around : Sides Pos) (s : Production) (c : Call) :
    (c.make g op around s).computed = s.computed + 1 := by
  have hbegun : ∀ context, (begun s context).computed = s.computed + 1 :=
    fun _ => Nat.succ_add _ _
  unfold Call.make firePair
  rcases Operator.runPair op.code c.index (g.datum? (c.pair.axis around).back)
    (g.datum? (c.pair.axis around).ahead) s.router.context with ⟨_ | e, context⟩
  · rfl
  · dsimp only
    split
    · rw [computed_consume, computed_consume, computed_emitPair]
      exact hbegun context
    · rw [computed_emitPair]
      exact hbegun context

theorem computed_foldl_make (g : Grid) (op : Operator) (around : Sides Pos) (cs : List Call)
    (s : Production) : (cs.foldl (Call.make g op around) s).computed = s.computed + cs.length := by
  induction cs generalizing s with
  | nil => rfl
  | cons c cs ih =>
    rw [List.foldl_cons, ih, computed_make, List.length_cons]
    omega

/-- The turn of an operator on pairs makes calls that are known from the grid before the phase,
    whatever the phase has come to and whatever comes of the calls.

    They are, for each of the two pairs, the call of the first signature in the table that fits it,
    one for a pair that some signature fits and none otherwise. The one with the lower number comes
    first, and the vertical pair where the numbers are the same. The turn makes these calls one
    after the other, and as many computations as there are calls. -/
theorem pairs_resolve_apart (g : Grid) (op : Operator) (p : Pos)
    (hp : g.get? p = some (.operator op)) (hpair : op.code.isPair = true) :
    ∃ cs : List Call,
      (∀ c, c ∈ cs ↔ c.First g op.signatures p.around) ∧
      (∀ pair : Pair, cs.countP (·.pair = pair) =
        if ∃ sig ∈ op.signatures, pair.admits g p.around sig = true then 1 else 0) ∧
      cs.Pairwise Call.Before ∧
      ∀ s : Production,
        turn g s p = cs.foldl (Call.make g op p.around) s ∧
        (turn g s p).fired + (turn g s p).failed = s.fired + s.failed + cs.length := by
  have hturn : ∀ s, turn g s p = (calls g op p.around).foldl (Call.make g op p.around) s := by
    intro s
    rw [turn, hp]
    dsimp only
    rw [if_pos hpair]
    exact firePairs_eq_calls g op p.around s
  refine ⟨calls g op p.around, fun c => ?_, fun pair => ?_, pairwise_ordered _, fun s => ?_⟩
  · exact mem_ordered.trans choice_eq_some_iff
  · rw [calls, countP_ordered]
    simp only [← isSome_choice_iff]
    cases choice g op.signatures p.around pair <;> rfl
  · rw [hturn s]
    exact ⟨rfl, computed_foldl_make g op p.around _ s⟩

/-- A text above an operator that turns texts into lower case and numbers into their absolute value,
    and a number to the left of it. -/
def crossing : Grid :=
  ⟨5, 5,
    #[.border, .border, .border, .border, .border,
      .border, .empty, .ofValue (.text "AB"), .empty, .border,
      .border, .ofValue (.number (-3)), .operator (.ofCode .lower), .empty, .border,
      .border, .empty, .empty, .empty, .border,
      .border, .border, .border, .border, .border], rfl⟩

/-- Each pair finds its own signature. Numbers come first in the table, so the horizontal pair has
    its turn before the vertical one. -/
theorem pairs_resolve_apart_crossing :
    crossing.get? ⟨2, 2⟩ = some (.operator (.ofCode .lower)) ∧
    (Operator.ofCode .lower).code.isPair = true ∧
    ∃ cs : List Call,
      ⟨.horizontal, .pair .numbers .empty .empty .numbers, 0⟩ ∈ cs ∧
      ⟨.vertical, .pair .texts .empty .empty .texts, 1⟩ ∈ cs ∧
      cs.Pairwise Call.Before ∧
      ∀ s : Production,
        turn crossing s ⟨2, 2⟩ =
          cs.foldl (Call.make crossing (.ofCode .lower) (Pos.around ⟨2, 2⟩)) s := by
  have hp : crossing.get? ⟨2, 2⟩ = some (.operator (.ofCode .lower)) := by decide
  obtain ⟨cs, hfirst, -, hordered, hturn⟩ :=
    pairs_resolve_apart crossing (.ofCode .lower) ⟨2, 2⟩ hp rfl
  refine ⟨hp, rfl, cs, (hfirst _).mpr ⟨rfl, ?_, ?_⟩, (hfirst _).mpr ⟨rfl, ?_, ?_⟩, hordered,
    fun s => (hturn s).1⟩
  all_goals decide

end Gridfall.Production
