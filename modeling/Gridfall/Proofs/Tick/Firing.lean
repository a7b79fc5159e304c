/-
  The production phase as one list of firings. Which operators fire, and with which signature, is
  read off the grid as it stood before the phase; only what they emit depends on the context. So a
  phase is a fold over a list that is known beforehand: the firings of the cells in raster order.

  A `Firing` joins the two kinds of operators. Its sites are the places it looks at, each with what
  is asked and what is given there, in the order up, left, right, down.

  * `turn_eq_foldl`, `produce_eq`: a phase performs its firings one after the other.
  * `Chosen`: what holds of every firing, namely that its signature is the entry of the operator's
    table at its index and that its sites hold what is asked of them.
  * `Stable`: what every placement of a firing keeps is kept by the whole phase.
-/
import Gridfall.Proofs.Grid
import Gridfall.Proofs.Operator.Services
import Gridfall.Tick.Production

namespace Gridfall

/-- What is asked and what is given on each side. -/
def Signature.slots (s : Signature) : List (KindSet × KindSet) :=
  s.requires.toList.zip s.yields.toList

/-- A place that a firing looks at. -/
structure Site where
  asks : KindSet
  gives : KindSet
  place : Pos
  dir : Dir

/-- The cells that a firing is about. -/
inductive Scope where
  /-- The four neighbours of a place. -/
  | joint (p : Pos)
  /-- Two opposite neighbours. -/
  | pair (axis : Production.Axis)

/-- An operator with the signature that it runs. -/
structure Firing where
  op : Operator
  sig : Signature
  index : Nat
  scope : Scope

namespace Firing

/-- The places in the order in which their values are placed. -/
def sites (f : Firing) : List Site :=
  match f.scope with
  | .joint p =>
    [⟨f.sig.requires.up, f.sig.yields.up, p.around.up, .up⟩,
     ⟨f.sig.requires.left, f.sig.yields.left, p.around.left, .left⟩,
     ⟨f.sig.requires.right, f.sig.yields.right, p.around.right, .right⟩,
     ⟨f.sig.requires.down, f.sig.yields.down, p.around.down, .down⟩]
  | .pair axis =>
    [⟨f.sig.requires.up, f.sig.yields.up, axis.back, axis.backDir⟩,
     ⟨f.sig.requires.down, f.sig.yields.down, axis.ahead, axis.aheadDir⟩]

/-- The computation: what goes to each site, nothing at all if it failed, and the context after. -/
def run (g : Grid) (f : Firing) (ctx : Context) : Option (List (Option Datum)) × Context :=
  match f.scope with
  | .joint p =>
    match Operator.runJoint f.op.code f.index (p.around.map g.datum?) ctx with
    | (.error fault, ctx) => (none, ctx.note (.operatorFault f.op p fault))
    | (.ok e, ctx) => (some e.toList, ctx)
  | .pair axis =>
    match Operator.runPair f.op.code f.index (g.datum? axis.back) (g.datum? axis.ahead) ctx with
    | (.error fault, ctx) => (none, ctx.note (.pairFault f.op axis.back axis.ahead fault))
    | (.ok e, ctx) => (some [e.back, e.ahead], ctx)

/-- The computation sees nothing of the grid but its values. -/
theorem run_congr {g g' : Grid} (h : g'.datum? = g.datum?) (f : Firing) (ctx : Context) :
    f.run g' ctx = f.run g ctx := by
  unfold run
  rw [h]

/-- A firing in two contexts that are related by what its operator keeps. -/
theorem run_alike {reads draws : Bool} {R : Context → Context → Prop}
    (hR : Context.Kept reads draws R) (g : Grid) {f : Firing}
    (hreads : f.op.code.reads = true → reads = true)
    (hdraws : f.op.code.draws = true → draws = true) {a b : Context} (h : R a b) :
    Context.Alike R (f.run g a) (f.run g b) := by
  obtain ⟨op, sig, index, scope⟩ := f
  cases scope with
  | joint p =>
    obtain ⟨hanswer, hnext⟩ := Operator.runJoint_alike hR hreads index (p.around.map g.datum?) h
    simp only [run]
    generalize Operator.runJoint op.code index (p.around.map g.datum?) a = x at hanswer hnext
    generalize Operator.runJoint op.code index (p.around.map g.datum?) b = y at hanswer hnext
    obtain ⟨_, _⟩ := x
    obtain ⟨result, _⟩ := y
    subst hanswer
    cases result with
    | error fault => exact ⟨rfl, hR.note _ hnext⟩
    | ok e => exact ⟨rfl, hnext⟩
  | pair axis =>
    obtain ⟨hanswer, hnext⟩ :=
      Operator.runPair_alike hR hdraws index (g.datum? axis.back) (g.datum? axis.ahead) h
    simp only [run]
    generalize Operator.runPair op.code index (g.datum? axis.back) (g.datum? axis.ahead) a = x
      at hanswer hnext
    generalize Operator.runPair op.code index (g.datum? axis.back) (g.datum? axis.ahead) b = y
      at hanswer hnext
    obtain ⟨_, _⟩ := x
    obtain ⟨result, _⟩ := y
    subst hanswer
    cases result with
    | error fault => exact ⟨rfl, hR.note _ hnext⟩
    | ok e => exact ⟨rfl, hnext⟩

theorem mem_slots {f : Firing} {s : Site} (hs : s ∈ f.sites) :
    (s.asks, s.gives) ∈ f.sig.slots := by
  unfold sites at hs
  split at hs <;> simp only [List.mem_cons, List.not_mem_nil, or_false] at hs
  · rcases hs with rfl | rfl | rfl | rfl <;> simp [Signature.slots, Sides.toList]
  · rcases hs with rfl | rfl <;> simp [Signature.slots, Sides.toList]

end Firing

namespace Production

/-! ## The firings of a cell -/

/-- The first of the numbered signatures that fits an axis. -/
def chooseAxis? (g : Grid) (table : List (Signature × Nat)) (axis : Axis) :
    Option (Signature × Nat) :=
  table.find? fun s => axisFits g s.1 axis

/-- The firing of a numbered signature. -/
def firing (op : Operator) (scope : Scope) (s : Signature × Nat) : Firing := ⟨op, s.1, s.2, scope⟩

/-- The firings of the two axes, the one with the earlier signature first, and the vertical one
    first where both have the same. -/
def axisFirings (op : Operator) (around : Sides Pos) :
    (v h : Option (Signature × Nat)) → List Firing
  | none, none => []
  | some v, none => [firing op (.pair (vertical around)) v]
  | none, some h => [firing op (.pair (horizontal around)) h]
  | some v, some h =>
    if h.2 < v.2 then
      [firing op (.pair (horizontal around)) h, firing op (.pair (vertical around)) v]
    else [firing op (.pair (vertical around)) v, firing op (.pair (horizontal around)) h]

/-- The firings of an operator at `p`. -/
def operatorFirings (g : Grid) (op : Operator) (p : Pos) : List Firing :=
  if op.code.isPair then
    axisFirings op p.around (chooseAxis? g op.signatures.zipIdx (vertical p.around))
      (chooseAxis? g op.signatures.zipIdx (horizontal p.around))
  else (choose? op.signatures (p.around.map g.datum?)).toList.map (firing op (.joint p))

/-- What an operator fires is chosen by the values of the grid. -/
theorem operatorFirings_congr {g g' : Grid} (h : g'.datum? = g.datum?) :
    operatorFirings g' = operatorFirings g := by
  have hfits : axisFits g' = axisFits g := by
    funext sig axis
    unfold axisFits
    rw [h]
  have hchoose : chooseAxis? g' = chooseAxis? g := by
    funext table axis
    unfold chooseAxis?
    rw [hfits]
  funext op p
  unfold operatorFirings
  rw [hchoose, h]

/-- The firings of the cell at `p`. -/
def firings (g : Grid) (p : Pos) : List Firing :=
  match g.get? p with
  | some (.operator op) => operatorFirings g op p
  | _ => []

/-- Every firing of a grid, in the order in which they are performed. -/
def allFirings (g : Grid) : List Firing := g.interior.flatMap (firings g)

/-! ## What is chosen -/

theorem exists_of_fits {k : KindSet} {d : Option Datum} (h : fits k d = true)
    (hk : k.isEmpty = false) : ∃ e, d = some e ∧ k.holds e.value = true := by
  cases d with
  | none => simp [fits, KindSet.admits, hk] at h
  | some e => exact ⟨e, rfl, by simpa [fits, KindSet.admits, hk] using h⟩

end Production

/-- What holds of every firing of a grid. -/
structure Firing.Chosen (g : Grid) (f : Firing) : Prop where
  home : ∃ p, g.get? p = some (.operator f.op)
  entry : f.op.signatures[f.index]? = some f.sig
  shape : f.op.code.isPair = match f.scope with | .joint _ => false | .pair _ => true
  fits : ∀ s ∈ f.sites, Production.fits s.asks (g.datum? s.place) = true

/-- What a computation sends to the sides of its signature goes to the sites of its firing. -/
theorem Firing.run_sites {g : Grid} {f : Firing} (hf : f.Chosen g)
    {R : KindSet → Option Datum → Prop} {ctx ctx' : Context} {outs : List (Option Datum)}
    (hjoint : ∀ {near : Sides (Option Datum)} {e : Emission}, f.op.code.isPair = false →
      Production.fitsJoint f.sig near = true →
      (Operator.runJoint f.op.code f.index near ctx).1 = .ok e →
      R f.sig.yields.up e.up ∧ R f.sig.yields.left e.left ∧
        R f.sig.yields.right e.right ∧ R f.sig.yields.down e.down)
    (hpair : ∀ {first second : Option Datum} {e : PairEmission}, f.op.code.isPair = true →
      Production.fitsPair f.sig first second = true →
      (Operator.runPair f.op.code f.index first second ctx).1 = .ok e →
      R f.sig.yields.up e.back ∧ R f.sig.yields.down e.ahead)
    (hrun : f.run g ctx = (some outs, ctx')) : ∀ e ∈ f.sites.zip outs, R e.1.gives e.2 := by
  obtain ⟨op, sig, index, scope⟩ := f
  have hshape := hf.shape
  have hfits := hf.fits
  cases scope with
  | joint p =>
    have hnear : Production.fitsJoint sig (p.around.map g.datum?) = true := by
      simpa [Production.fitsJoint, Firing.sites, Sides.map, and_assoc] using hfits
    simp only [Firing.run] at hrun
    split at hrun
    · cases hrun
    · next e ctx'' hok =>
      cases hrun
      have hsides := hjoint hshape hnear (congrArg Prod.fst hok)
      simpa [Firing.sites, Sides.toList] using hsides
  | pair axis =>
    have hnear : Production.fitsPair sig (g.datum? axis.back) (g.datum? axis.ahead) = true := by
      simpa [Production.fitsPair, Firing.sites] using hfits
    simp only [Firing.run] at hrun
    split at hrun
    · cases hrun
    · next e ctx'' hok =>
      cases hrun
      have hsides := hpair hshape hnear (congrArg Prod.fst hok)
      simpa [Firing.sites] using hsides

namespace Production

theorem chosen_joint {g : Grid} {op : Operator} {p : Pos} (hp : g.get? p = some (.operator op))
    (hpair : op.code.isPair = false) {s : Signature × Nat}
    (h : choose? op.signatures (p.around.map g.datum?) = some s) :
    (firing op (.joint p) s).Chosen g := by
  refine ⟨⟨p, hp⟩, List.mem_zipIdx_iff_getElem?.mp (List.mem_of_find?_eq_some h), hpair, ?_⟩
  have hfits := List.find?_some h
  simp only [fitsJoint, Bool.and_eq_true] at hfits
  obtain ⟨⟨⟨hup, hleft⟩, hright⟩, hdown⟩ := hfits
  intro site hsite
  simp only [Firing.sites, firing, List.mem_cons, List.not_mem_nil, or_false] at hsite
  rcases hsite with rfl | rfl | rfl | rfl
  · exact hup
  · exact hleft
  · exact hright
  · exact hdown

theorem chosen_pair {g : Grid} {op : Operator} {p : Pos} (hp : g.get? p = some (.operator op))
    (hpair : op.code.isPair = true) {s : Signature × Nat} {axis : Axis}
    (h : chooseAxis? g op.signatures.zipIdx axis = some s) :
    (firing op (.pair axis) s).Chosen g := by
  refine ⟨⟨p, hp⟩, List.mem_zipIdx_iff_getElem?.mp (List.mem_of_find?_eq_some h), hpair, ?_⟩
  have hfits := List.find?_some h
  simp only [axisFits, fitsPair, Bool.and_eq_true] at hfits
  intro site hsite
  simp only [Firing.sites, firing, List.mem_cons, List.not_mem_nil, or_false] at hsite
  rcases hsite with rfl | rfl
  · exact hfits.1
  · exact hfits.2

theorem mem_axisFirings {op : Operator} {around : Sides Pos} {v h : Option (Signature × Nat)}
    {f : Firing} (hf : f ∈ axisFirings op around v h) :
    (∃ s, v = some s ∧ f = firing op (.pair (vertical around)) s) ∨
      ∃ s, h = some s ∧ f = firing op (.pair (horizontal around)) s := by
  cases v with
  | none =>
    cases h with
    | none => cases hf
    | some h => exact .inr ⟨h, rfl, List.mem_singleton.mp hf⟩
  | some v =>
    cases h with
    | none => exact .inl ⟨v, rfl, List.mem_singleton.mp hf⟩
    | some h =>
      have hf : f = firing op (.pair (vertical around)) v ∨
          f = firing op (.pair (horizontal around)) h := by
        simp only [axisFirings] at hf
        split at hf
        · simpa [or_comm] using hf
        · simpa using hf
      exact hf.imp (fun e => ⟨v, rfl, e⟩) fun e => ⟨h, rfl, e⟩

/-- Every firing of a grid is chosen by the grid. -/
theorem chosen_of_mem {g : Grid} {f : Firing} (hf : f ∈ allFirings g) : f.Chosen g := by
  obtain ⟨p, -, hf⟩ := List.mem_flatMap.mp hf
  unfold firings at hf
  split at hf
  · next op hp =>
    unfold operatorFirings at hf
    split at hf
    · next hpair =>
      rcases mem_axisFirings hf with ⟨s, hs, rfl⟩ | ⟨s, hs, rfl⟩
      · exact chosen_pair hp hpair hs
      · exact chosen_pair hp hpair hs
    · next hpair =>
      obtain ⟨s, hs, rfl⟩ := List.mem_map.mp hf
      exact chosen_joint hp (by simpa using hpair) (Option.mem_toList.mp hs)
  · cases hf

/-! ## Overwriting operators aim at values -/

theorem asked_of_overwrites {code : Operator.Code} (hc : code.overwrites = true) :
    ∀ sig ∈ code.signatures, ∀ slot ∈ sig.slots,
      slot.1.isEmpty = true → slot.2.isEmpty = true := by
  cases code with
  | redirect => decide
  | swap => decide
  | _ => cases hc

/-- Where an overwriting operator puts a value, there was one before the phase. -/
theorem datum_of_overwrites {g : Grid} {f : Firing} (hf : f.Chosen g)
    (hc : f.op.code.overwrites = true) {s : Site} (hs : s ∈ f.sites)
    (hgives : s.gives.isEmpty = false) : ∃ d, g.get? s.place = some (.data d) := by
  have hasks : s.asks.isEmpty = false := by
    by_contra hempty
    have := asked_of_overwrites hc f.sig (List.mem_of_getElem? hf.entry) _ (Firing.mem_slots hs)
      (by simpa using hempty)
    simp [hgives] at this
  obtain ⟨d, hd, -⟩ := exists_of_fits (hf.fits s hs) hasks
  exact ⟨d, Grid.datum?_eq_some_iff.mp hd⟩

/-! ## Performing a firing -/

/-- Places what goes to the sites, in their order. A signature that yields nothing counts as
    placed. -/
def emitSites (f : Firing) (outs : List (Option Datum)) (s : Production) : Bool × Production :=
  if f.sig.yieldsNothing then (true, s)
  else
    (f.sites.zip outs).foldl
      (fun acc e => emit f.op.code.overwrites e.1.gives e.2 e.1.place e.1.dir acc.1 acc.2)
      (false, s)

/-- Marks every site of which something was asked as consumed. -/
def consumeSites (g : Grid) (f : Firing) (s : Production) : Production :=
  f.sites.foldl (fun s e => s.consume e.asks (g.index e.place)) s

/-- The computation of a firing has succeeded. -/
def begun (s : Production) (context : Context) : Production :=
  { s with router := { s.router with context }, fired := s.fired + 1 }

/-- Performs a firing. -/
def perform (g : Grid) (s : Production) (f : Firing) : Production :=
  match f.run g s.router.context with
  | (none, context) => { s with router := { s.router with context }, failed := s.failed + 1 }
  | (some outs, context) =>
    let (placed, s) := emitSites f outs (s.begun context)
    if placed && f.op.consumes then consumeSites g f s else s

theorem perform_of_none {g : Grid} {s : Production} {f : Firing} {ctx : Context}
    (hrun : f.run g s.router.context = (none, ctx)) :
    perform g s f =
      { s with router := { s.router with context := ctx }, failed := s.failed + 1 } := by
  rw [perform, hrun]

theorem perform_of_some {g : Grid} {s : Production} {f : Firing} {outs : List (Option Datum)}
    {ctx : Context} (hrun : f.run g s.router.context = (some outs, ctx)) {placed : Bool}
    {emitted : Production}
    (hemit : emitSites f outs (s.begun ctx) = (placed, emitted)) :
    perform g s f = if placed && f.op.consumes then consumeSites g f emitted else emitted := by
  rw [perform, hrun]
  simp only [hemit]

theorem fireJoint_eq (g : Grid) (op : Operator) (p : Pos) (s : Production) :
    fireJoint g op p s =
      ((choose? op.signatures (p.around.map g.datum?)).toList.map (firing op (.joint p))).foldl
        (perform g) s := by
  simp only [fireJoint]
  cases choose? op.signatures (p.around.map g.datum?) with
  | none => rfl
  | some entry =>
    simp only [Option.toList_some, List.map_cons, List.map_nil, List.foldl_cons, List.foldl_nil,
      perform, Firing.run, firing]
    rcases Operator.runJoint op.code entry.2 (p.around.map g.datum?) s.router.context with
      ⟨_ | e, ctx⟩ <;> rfl

theorem firePair_eq (g : Grid) (op : Operator) (sig : Signature) (index : Nat) (axis : Axis)
    (s : Production) :
    firePair g op sig index axis s = perform g s (firing op (.pair axis) (sig, index)) := by
  simp only [firePair, perform, Firing.run, firing]
  rcases Operator.runPair op.code index (g.datum? axis.back) (g.datum? axis.ahead)
    s.router.context with ⟨_ | e, ctx⟩ <;> rfl

theorem axisFirings_vertical (op : Operator) (around : Sides Pos) {v : Signature × Nat}
    {h : Option (Signature × Nat)} (hlt : ∀ e, h = some e → v.2 ≤ e.2) :
    axisFirings op around (some v) h =
      firing op (.pair (vertical around)) v :: axisFirings op around none h := by
  cases h with
  | none => rfl
  | some e => simp [axisFirings, Nat.not_lt.mpr (hlt e rfl)]

theorem axisFirings_horizontal (op : Operator) (around : Sides Pos) {h : Signature × Nat}
    {v : Option (Signature × Nat)} (hlt : ∀ e, v = some e → h.2 < e.2) :
    axisFirings op around v (some h) =
      firing op (.pair (horizontal around)) h :: axisFirings op around v none := by
  cases v with
  | none => rfl
  | some e => simp [axisFirings, hlt e rfl]

/-- Going through the signatures once fires what the two axes choose, each on its own. -/
theorem firePairs_eq (g : Grid) (op : Operator) (around : Sides Pos)
    {table : List (Signature × Nat)} (hsort : table.Pairwise fun a b => a.2 < b.2) (v h : Bool)
    (s : Production) :
    firePairs g op around table v h s =
      (axisFirings op around (if v then none else chooseAxis? g table (vertical around))
        (if h then none else chooseAxis? g table (horizontal around))).foldl (perform g) s := by
  induction table generalizing v h s with
  | nil => cases v <;> cases h <;> rfl
  | cons entry rest ih =>
    obtain ⟨hhead, htail⟩ := List.pairwise_cons.mp hsort
    have later : ∀ {axis : Axis} {done : Bool} {e}, (if done then none else chooseAxis? g rest axis)
        = some e → entry.2 < e.2 := by
      intro axis done e he
      cases done with
      | true => cases he
      | false => exact hhead e (List.mem_of_find?_eq_some he)
    have rest_eq : ∀ (a b : Bool) (s : Production),
        (if a && b then s else firePairs g op around rest a b s) =
          (axisFirings op around (if a then none else chooseAxis? g rest (vertical around))
            (if b then none else chooseAxis? g rest (horizontal around))).foldl (perform g) s := by
      intro a b s
      split
      · next hab =>
        obtain ⟨rfl, rfl⟩ := Bool.and_eq_true_iff.mp hab
        rfl
      · exact ih htail a b s
    -- An axis fires here if it has had no turn and fits; if so, it has no turn later.
    have now : ∀ (axis : Axis) (done : Bool),
        (if done then none else chooseAxis? g (entry :: rest) axis) =
          if !done && axisFits g entry.1 axis then some entry
          else if done then none else chooseAxis? g rest axis := by
      intro axis done
      rw [chooseAxis?, List.find?_cons]
      cases done <;> cases axisFits g entry.1 axis <;> rfl
    have after : ∀ (fit done : Bool) (o : Option (Signature × Nat)),
        (if done || (!done && fit) then none else o) =
          if !done && fit then none else if done then none else o := by
      intro fit done o
      cases done <;> cases fit <;> rfl
    simp only [firePairs, firePair_eq, rest_eq, now, after]
    cases !v && axisFits g entry.1 (vertical around) <;>
      cases !h && axisFits g entry.1 (horizontal around) <;>
      simp only [Bool.false_eq_true, if_true, if_false]
    · rw [axisFirings_horizontal op around fun e he => later he]
      rfl
    · rw [axisFirings_vertical op around fun e he => (later he).le]
      rfl
    · rw [axisFirings_vertical op around fun e he => by cases he; exact Nat.le_refl _]
      rfl

theorem pairwise_zipIdx {α : Type} (l : List α) (n : Nat) :
    (l.zipIdx n).Pairwise fun a b => a.2 < b.2 := by
  induction l generalizing n with
  | nil => exact .nil
  | cons x l ih => exact .cons (fun b hb => List.le_snd_of_mem_zipIdx hb) (ih (n + 1))

/-- The turn of a cell performs its firings. -/
theorem turn_eq_foldl (g : Grid) (s : Production) (p : Pos) :
    turn g s p = (firings g p).foldl (perform g) s := by
  unfold turn firings
  cases g.get? p with
  | none => rfl
  | some c =>
    cases c with
    | operator op =>
      simp only [operatorFirings]
      split
      · exact firePairs_eq g op p.around (pairwise_zipIdx _ _) false false s
      · exact fireJoint_eq g op p s
    | empty | border | data | pipe => rfl

/-- The turns of some cells perform the firings of these cells. -/
theorem foldl_turn (g : Grid) (ps : List Pos) (s : Production) :
    ps.foldl (turn g) s = (ps.flatMap (firings g)).foldl (perform g) s := by
  have hturn : turn g = fun s p => (firings g p).foldl (perform g) s :=
    funext fun s => funext fun p => turn_eq_foldl g s p
  rw [List.foldl_flatMap, hturn]

/-- The phase before its first firing. -/
def start (g : Grid) (ctx : Context) : Production :=
  { router := { grid := g, context := ctx }, stays := Array.replicate g.cells.size true }

/-- The phase after its last firing. -/
def ended (g : Grid) (ctx : Context) : Production := (allFirings g).foldl (perform g) (start g ctx)

/-- The grid after the consumed cells are emptied, and their number. -/
def cleared (g : Grid) (ctx : Context) : Grid × Nat :=
  g.interior.foldl (clear (ended g ctx).stays) ((ended g ctx).router.grid, 0)

end Production

/-- A phase performs its firings, then empties the cells that were consumed. -/
theorem produce_eq (g : Grid) (ctx : Context) :
    produce g ctx =
      ((Production.cleared g ctx).1,
        ⟨(Production.ended g ctx).fired, (Production.ended g ctx).failed,
          (Production.ended g ctx).router.writes, (Production.cleared g ctx).2,
          (Production.ended g ctx).router.context.halt⟩,
        (Production.ended g ctx).router.context) := by
  have hended : g.interior.foldl (Production.turn g) (Production.start g ctx) =
      Production.ended g ctx := Production.foldl_turn g g.interior _
  rw [Production.cleared, ← hended]
  rfl

/-! ## What a phase keeps -/

namespace Production

theorem stays_emitSites (f : Firing) (outs : List (Option Datum)) (s : Production) :
    (emitSites f outs s).2.stays = s.stays := by
  unfold emitSites
  split
  · rfl
  · generalize false = placed
    generalize f.sites.zip outs = todo
    induction todo generalizing placed s with
    | nil => rfl
    | cons e todo ih =>
      rw [List.foldl_cons, ih]
      unfold emit
      split <;> rfl

/-- What stays after the values at the sites that ask for one are consumed. -/
def strike (g : Grid) (sites : List Site) (stays : Array Bool) : Array Bool :=
  sites.foldl
    (fun stays e => if e.asks.isEmpty then stays else stays.setIfInBounds (g.index e.place) false)
    stays

/-- Consuming changes nothing but what stays. -/
theorem consumeSites_eq (g : Grid) (f : Firing) (s : Production) :
    consumeSites g f s = { s with stays := strike g f.sites s.stays } := by
  unfold consumeSites strike
  induction f.sites generalizing s with
  | nil => rfl
  | cons e sites ih =>
    rw [List.foldl_cons, ih, List.foldl_cons]
    unfold consume
    split <;> rfl

/-- Performing a firing that succeeds is placing its results, but for what is consumed. -/
theorem perform_eq_emitSites {g : Grid} {s : Production} {f : Firing} {outs : List (Option Datum)}
    {ctx : Context} (hrun : f.run g s.router.context = (some outs, ctx)) :
    ∃ stays, perform g s f = { (emitSites f outs (s.begun ctx)).2 with stays } := by
  rcases hemit : emitSites f outs (s.begun ctx) with ⟨placed, emitted⟩
  rw [perform_of_some hrun hemit]
  split
  · exact ⟨strike g f.sites emitted.stays, consumeSites_eq g f emitted⟩
  · exact ⟨emitted.stays, rfl⟩

/-- Facts about the router that no computation touches and that no placement of a firing breaks. -/
structure Stable (g : Grid) (Q : Router → Prop) : Prop where
  context : ∀ {r : Router} (context : Context), Q r → Q { r with context }
  place : ∀ {f : Firing}, f.Chosen g → ∀ {ctx ctx' : Context} {outs : List (Option Datum)},
    f.run g ctx = (some outs, ctx') → ∀ e ∈ f.sites.zip outs, e.1.gives.isEmpty = false →
    ∀ {r : Router}, Q r → Q (r.place e.2 e.1.place e.1.dir f.op.code.overwrites).2

variable {g : Grid} {Q : Router → Prop}

theorem Stable.emitSites (hQ : Stable g Q) {f : Firing} (hf : f.Chosen g) {ctx ctx' : Context}
    {outs : List (Option Datum)} (hrun : f.run g ctx = (some outs, ctx')) {s : Production}
    (h : Q s.router) : Q (emitSites f outs s).2.router := by
  unfold Production.emitSites
  split
  · exact h
  · have hplace := fun e he hgives r => hQ.place hf hrun e he hgives (r := r)
    generalize f.sites.zip outs = todo at hplace
    generalize false = placed
    induction todo generalizing placed s with
    | nil => exact h
    | cons e todo ih =>
      refine ih ?_ (fun e' he' => hplace e' (List.mem_cons_of_mem e he')) _
      show Q (emit _ _ _ _ _ _ s).2.router
      unfold emit
      split
      · exact h
      · next hgives => exact hplace e List.mem_cons_self (by simpa using hgives) _ h

theorem Stable.perform (hQ : Stable g Q) {f : Firing} (hf : f.Chosen g) {s : Production}
    (h : Q s.router) : Q (perform g s f).router := by
  rcases hrun : f.run g s.router.context with ⟨_ | outs, context⟩
  · rw [perform_of_none hrun]
    exact hQ.context context h
  · obtain ⟨stays, hperform⟩ := perform_eq_emitSites hrun
    rw [hperform]
    exact hQ.emitSites hf hrun (s := s.begun context) (hQ.context context h)

/-- What every firing keeps holds after the last if it holds before the first. -/
theorem kept_ended {P : Production → Prop}
    (hstep : ∀ f : Firing, f.Chosen g → ∀ s, P s → P (Production.perform g s f)) (ctx : Context)
    (h : P (start g ctx)) : P (ended g ctx) := by
  have hchosen : ∀ f ∈ allFirings g, f.Chosen g := fun f hf => chosen_of_mem hf
  unfold Production.ended
  generalize start g ctx = s at h
  generalize allFirings g = fs at hchosen
  induction fs generalizing s with
  | nil => exact h
  | cons f fs ih =>
    obtain ⟨hf, hfs⟩ := List.forall_mem_cons.mp hchosen
    exact ih _ (hstep f hf s h) hfs

theorem Stable.ended (hQ : Stable g Q) (ctx : Context) (h : Q (start g ctx).router) :
    Q (ended g ctx).router :=
  kept_ended (P := fun s => Q s.router) (fun _ hf _ hs => hQ.perform hf hs) ctx h

end Production

end Gridfall
