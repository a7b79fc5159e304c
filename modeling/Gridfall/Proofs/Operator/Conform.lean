/-
  Computations keep to their signatures. On neighbours that meet a signature, a computation that
  succeeds puts a value of a listed kind on every side that the signature yields to, and nothing on
  the other sides.

  The tick stamp is the one exception: from an empty value it makes nothing, although its
  signature yields a number.
-/
import Gridfall.Proofs.Tick.Firing

namespace Gridfall

/-- What goes to a side: a value of a listed kind, or nothing where no kind is listed. -/
def KindSet.Yields (k : KindSet) (out : Option Datum) : Prop :=
  match out with
  | none => k.isEmpty = true
  | some d => k.holds d.value = true

theorem KindSet.Yields.isSome {k : KindSet} {out : Option Datum} (h : k.Yields out)
    (hk : k.isEmpty = false) : out.isSome = true := by
  cases out with
  | none =>
    rw [KindSet.Yields, hk] at h
    cases h
  | some d => rfl

/-- What goes to the four sides. -/
structure Emission.Conforms (yields : Sides KindSet) (e : Emission) : Prop where
  up : yields.up.Yields e.up
  left : yields.left.Yields e.left
  right : yields.right.Yields e.right
  down : yields.down.Yields e.down

namespace Emission

/-- The outcome of a computation that gives something below only. -/
def onlyBelow (k : KindSet) : Sides KindSet := ⟨.empty, .empty, .empty, k⟩

theorem conforms_below {k : KindSet} {d : Datum} (h : k.holds d.value = true) :
    Conforms (onlyBelow k) (below d) := ⟨rfl, rfl, rfl, h⟩

theorem conforms_nothing : Conforms (onlyBelow .empty) nothing := ⟨rfl, rfl, rfl, rfl⟩

end Emission

namespace Operator

open Production (fits fitsJoint fitsPair)
open Emission (Conforms onlyBelow conforms_below conforms_nothing)

/-! ## Tables -/

theorem forall_entry {table : List Signature} {P : Nat → Signature → Prop}
    (h : ∀ e ∈ table.zipIdx, P e.2 e.1) {index : Nat} {sig : Signature}
    (hentry : table[index]? = some sig) : P index sig :=
  h (sig, index) (List.mem_zipIdx_iff_getElem?.mpr hentry)

theorem yields_arrangements {pure mixed : KindSet} {index : Nat} {sig : Signature}
    (hentry : (Signature.arrangements pure mixed)[index]? = some sig) :
    sig.yields = onlyBelow (if index % 2 == 0 then pure else mixed) := by
  refine forall_entry (P := fun i s => s.yields = onlyBelow (if i % 2 == 0 then pure else mixed))
    ?_ hentry
  simp [Signature.arrangements, Signature.below, Signature.of, onlyBelow]

theorem yields_console {read : KindSet} {index : Nat} {sig : Signature}
    (hentry : (Signature.console read)[index]? = some sig) :
    sig.yields = onlyBelow (if index < 2 then .empty else read) := by
  refine forall_entry (P := fun i s => s.yields = onlyBelow (if i < 2 then .empty else read))
    ?_ hentry
  simp [Signature.console, Signature.below, Signature.of, onlyBelow]

/-! ## Computations that may fail -/

theorem exists_of_map {α β : Type} {x : Except Fault α} {f : α → β} {b : β}
    (h : x.map f = .ok b) : ∃ a, f a = b := by
  cases x with
  | error => cases h
  | ok a =>
    cases h
    exact ⟨a, rfl⟩

theorem exists_of_bind {α β : Type} {x : Except Fault α} {f : α → Except Fault β} {b : β}
    (h : x >>= f = .ok b) : ∃ a, f a = .ok b := by
  cases x with
  | error => cases h
  | ok a => exact ⟨a, h⟩

/-! ## Operators on four neighbours -/

variable {index : Nat} {sig : Signature} {near : Sides (Option Datum)} {ctx : Context}
  {e : Emission}

theorem conforms_write {code : Code} (hcode : code = .writeText ∨ code = .writeNumber)
    (hentry : code.signatures[index]? = some sig)
    (hrun : (runJoint code index near ctx).1 = .ok e) : Conforms sig.yields e := by
  rcases hcode with rfl | rfl
  all_goals
    rw [yields_console hentry]
    rcases index with _ | _ | n
    · cases hrun
      exact conforms_nothing
    · cases hrun
      exact conforms_nothing
    · cases hrun
      rw [if_neg (by omega)]
      exact conforms_below rfl

theorem conforms_arithmetic {code : Code}
    (hcode : code = .add ∨ code = .subtract ∨ code = .multiply ∨ code = .greater)
    (hentry : code.signatures[index]? = some sig)
    (hrun : (runJoint code index near ctx).1 = .ok e) : Conforms sig.yields e := by
  rcases hcode with rfl | rfl | rfl | rfl
  all_goals
    rw [yields_arrangements hentry]
    simp only [runJoint] at hrun
  · cases hrun
    split <;> exact conforms_below rfl
  · cases hrun
    split <;> exact conforms_below rfl
  · split at hrun
    · next heven =>
      cases hrun
      rw [if_pos heven]
      exact conforms_below rfl
    · next hodd =>
      obtain ⟨t, rfl⟩ := exists_of_map hrun
      rw [if_neg hodd]
      exact conforms_below rfl
  · cases hrun
    rw [ite_self]
    exact conforms_below rfl

theorem conforms_division (hentry : Code.divide.signatures[index]? = some sig)
    (hrun : (runJoint .divide index near ctx).1 = .ok e) : Conforms sig.yields e := by
  have hyields : sig.yields =
      if index < 4 then onlyBelow .numbers else ⟨.empty, .empty, .texts, .texts⟩ :=
    forall_entry (P := fun i s =>
      s.yields = if i < 4 then onlyBelow .numbers else ⟨.empty, .empty, .texts, .texts⟩)
      (by decide) hentry
  rw [hyields]
  simp only [runJoint] at hrun
  split at hrun
  · obtain ⟨a, hrun⟩ := exists_of_bind hrun
    obtain ⟨b, hrun⟩ := exists_of_bind hrun
    cases hrun
    exact conforms_below rfl
  · obtain ⟨n, rfl⟩ := exists_of_map hrun
    exact conforms_below rfl
  · obtain ⟨n, rfl⟩ := exists_of_map hrun
    exact conforms_below rfl
  · obtain ⟨n, rfl⟩ := exists_of_map hrun
    exact conforms_below rfl
  · cases hrun
    exact ⟨rfl, rfl, rfl, rfl⟩
  · next h0 h1 h2 h3 _ =>
    have hlast : index ≠ 0 ∧ index ≠ 1 ∧ index ≠ 2 ∧ index ≠ 3 := ⟨h0, h1, h2, h3⟩
    cases hrun
    rw [if_neg (by omega)]
    exact ⟨rfl, rfl, rfl, rfl⟩

theorem conforms_remainder (hentry : Code.remainder.signatures[index]? = some sig)
    (hrun : (runJoint .remainder index near ctx).1 = .ok e) : Conforms sig.yields e := by
  have hyields : sig.yields = onlyBelow (if index = 1 then .texts else .numbers) :=
    forall_entry (P := fun i s => s.yields = onlyBelow (if i = 1 then .texts else .numbers))
      (by decide) hentry
  rw [hyields]
  simp only [runJoint] at hrun
  split at hrun
  · obtain ⟨a, hrun⟩ := exists_of_bind hrun
    obtain ⟨b, hrun⟩ := exists_of_bind hrun
    cases hrun
    exact conforms_below rfl
  · cases hrun
    exact conforms_below rfl
  · obtain ⟨n, rfl⟩ := exists_of_map hrun
    exact conforms_below rfl
  · obtain ⟨n, rfl⟩ := exists_of_map hrun
    exact conforms_below rfl
  · next _ h1 _ _ =>
    obtain ⟨n, rfl⟩ := exists_of_map hrun
    rw [if_neg h1]
    exact conforms_below rfl

/-- Where all entries of a table yield the same below, no entry needs to be looked at. -/
theorem conforms_uniform {code : Code} {k : KindSet}
    (htable : ∀ s ∈ code.signatures, s.yields = onlyBelow k)
    (hentry : code.signatures[index]? = some sig) (he : Conforms (onlyBelow k) e) :
    Conforms sig.yields e := by
  rw [htable sig (List.mem_of_getElem? hentry)]
  exact he

/-- A copy of a neighbour conforms where the neighbour was asked for. -/
theorem yields_copy {k asks : KindSet} {d : Option Datum} (hfits : fits asks d = true)
    (hk : k.isEmpty = true ∨ k = asks) (drift : Drift → Drift) :
    k.Yields (if k.isEmpty then none else d.map fun d => { d with drift := drift d.drift }) := by
  split
  · next hempty => exact hempty
  · next hne =>
    have hasks : k = asks := hk.resolve_left hne
    obtain ⟨e, rfl, hholds⟩ := Production.exists_of_fits hfits (by rw [← hasks]; simpa using hne)
    exact hasks ▸ hholds

theorem conforms_redirect (hentry : Code.redirect.signatures[index]? = some sig)
    (hfits : fitsJoint sig near = true)
    (hrun : (runJoint .redirect index near ctx).1 = .ok e) : Conforms sig.yields e := by
  have hback : ∀ s ∈ Signature.redirection,
      (s.yields.up.isEmpty = true ∨ s.yields.up = s.requires.up) ∧
      (s.yields.left.isEmpty = true ∨ s.yields.left = s.requires.left) ∧
      (s.yields.right.isEmpty = true ∨ s.yields.right = s.requires.right) ∧
      s.yields.down.isEmpty = true := by decide
  obtain ⟨hup, hleft, hright, hdown⟩ := hback sig (List.mem_of_getElem? hentry)
  simp only [fitsJoint, Bool.and_eq_true] at hfits
  obtain ⟨⟨⟨fup, fleft⟩, fright⟩, -⟩ := hfits
  have hcopies : redirected index near = e := Except.ok.inj hrun
  have hentry : Signature.redirection[index]? = some sig := hentry
  rw [← hcopies, redirected, hentry]
  exact ⟨yields_copy fup hup Drift.flip, yields_copy fleft hleft fun _ => .left,
    yields_copy fright hright fun _ => .right, hdown⟩

theorem conforms_pass (hentry : Code.pass.signatures[index]? = some sig)
    (hfits : fitsJoint sig near = true)
    (hrun : (runJoint .pass index near ctx).1 = .ok e) : Conforms sig.yields e := by
  have hsig : sig = .below .any .empty .empty .any :=
    forall_entry (P := fun _ s => s = .below .any .empty .empty .any) (by decide) hentry
  subst hsig
  simp only [fitsJoint, Bool.and_eq_true] at hfits
  obtain ⟨d, hd, hholds⟩ := Production.exists_of_fits hfits.1.1.1 rfl
  cases hrun
  rw [hd]
  exact ⟨rfl, rfl, rfl, hholds⟩

/-- A computation on four neighbours keeps to its signature. -/
theorem runJoint_conforms {code : Code} (hpair : code.isPair = false) (hstamp : code ≠ .tickStamp)
    (hentry : code.signatures[index]? = some sig) (hfits : fitsJoint sig near = true)
    (hrun : (runJoint code index near ctx).1 = .ok e) : Conforms sig.yields e := by
  cases code with
  | writeText => exact conforms_write (.inl rfl) hentry hrun
  | writeNumber => exact conforms_write (.inr rfl) hentry hrun
  | redirect => exact conforms_redirect hentry hfits hrun
  | add => exact conforms_arithmetic (.inl rfl) hentry hrun
  | subtract => exact conforms_arithmetic (.inr (.inl rfl)) hentry hrun
  | multiply => exact conforms_arithmetic (.inr (.inr (.inl rfl))) hentry hrun
  | greater => exact conforms_arithmetic (.inr (.inr (.inr rfl))) hentry hrun
  | divide => exact conforms_division hentry hrun
  | remainder => exact conforms_remainder hentry hrun
  | factor | equal =>
    cases hrun
    exact conforms_uniform (k := .numbers) (by decide) hentry (conforms_below rfl)
  | pass => exact conforms_pass hentry hfits hrun
  | halt | haltDump =>
    cases hrun
    exact conforms_uniform (k := .empty) (by decide) hentry conforms_nothing
  | tickStamp => exact absurd rfl hstamp
  | swap | lower | upper | prime | reverse | not | random | convert | sink => cases hpair

/-! ## Operators on a pair -/

/-- What goes to the two cells of a pair. -/
structure PairConforms (sig : Signature) (e : PairEmission) : Prop where
  back : sig.yields.up.Yields e.back
  ahead : sig.yields.down.Yields e.ahead

theorem exists_number {d : Option Datum} (h : fits .numbers d = true) :
    ∃ n, valueOf d = .number n := by
  obtain ⟨e, rfl, hholds⟩ := Production.exists_of_fits h rfl
  cases hv : e.value with
  | number n => exact ⟨n, hv⟩
  | none | text | input | output =>
    rw [hv] at hholds
    cases hholds

theorem exists_text {d : Option Datum} (h : fits .texts d = true) :
    ∃ s, valueOf d = .text s := by
  obtain ⟨e, rfl, hholds⟩ := Production.exists_of_fits h rfl
  cases hv : e.value with
  | text s => exact ⟨s, hv⟩
  | none | number | input | output =>
    rw [hv] at hholds
    cases hholds

variable {first second : Option Datum} {p : PairEmission}

theorem conforms_sameKind {code : Code}
    (hcode : code = .lower ∨ code = .upper ∨ code = .reverse ∨ code = .random)
    (hentry : code.signatures[index]? = some sig) (hfits : fitsPair sig first second = true)
    (hrun : (runPair code index first second ctx).1 = .ok p) : PairConforms sig p := by
  have hsig : sig = .pair .numbers .empty .empty .numbers ∨
      sig = .pair .texts .empty .empty .texts := by
    have hmem : sig ∈ Signature.sameKind := by
      rcases hcode with rfl | rfl | rfl | rfl <;> exact List.mem_of_getElem? hentry
    simpa [Signature.sameKind] using hmem
  simp only [fitsPair, Bool.and_eq_true] at hfits
  rcases hsig with rfl | rfl
  · obtain ⟨n, hn⟩ := exists_number hfits.1
    rcases hcode with rfl | rfl | rfl | rfl <;> simp only [runPair, hn] at hrun <;> cases hrun <;>
      exact ⟨rfl, rfl⟩
  · obtain ⟨t, ht⟩ := exists_text hfits.1
    rcases hcode with rfl | rfl | rfl | rfl <;> simp only [runPair, ht] at hrun <;> cases hrun <;>
      exact ⟨rfl, rfl⟩

theorem conforms_measure {code : Code} (hcode : code = .prime ∨ code = .not)
    (hentry : code.signatures[index]? = some sig)
    (hrun : (runPair code index first second ctx).1 = .ok p) : PairConforms sig p := by
  have hyields : sig.yields.up = .empty ∧ sig.yields.down = .numbers := by
    rcases hcode with rfl | rfl
    · exact forall_entry (P := fun _ s => s.yields.up = .empty ∧ s.yields.down = .numbers)
        (by decide) hentry
    · exact forall_entry (P := fun _ s => s.yields.up = .empty ∧ s.yields.down = .numbers)
        (by decide) hentry
  obtain ⟨n, hn⟩ : ∃ n, p = ⟨none, some (.number n)⟩ := by
    rcases hcode with rfl | rfl
    · simp only [runPair] at hrun
      split at hrun <;> cases hrun <;> exact ⟨_, rfl⟩
    · cases hrun
      exact ⟨_, rfl⟩
  refine ⟨?_, ?_⟩
  · rw [hyields.1, hn]
    rfl
  · rw [hyields.2, hn]
    rfl

theorem conforms_conversion (hentry : Code.convert.signatures[index]? = some sig)
    (hfits : fitsPair sig first second = true)
    (hrun : (runPair .convert index first second ctx).1 = .ok p) : PairConforms sig p := by
  have hentry : Signature.conversion[index]? = some sig := hentry
  simp only [fitsPair, Bool.and_eq_true] at hfits
  rcases index with _ | _ | _ | _ | index
  · cases hentry
    cases hrun
    exact ⟨rfl, rfl⟩
  · cases hentry
    obtain ⟨t, ht⟩ := exists_text hfits.1
    simp only [runPair, ht] at hrun
    split at hrun <;> cases hrun
    exact ⟨rfl, rfl⟩
  · cases hentry
    cases hrun
    exact ⟨rfl, rfl⟩
  · cases hentry
    cases hrun
    exact ⟨rfl, rfl⟩
  · cases hentry

theorem conforms_swap (hentry : Code.swap.signatures[index]? = some sig)
    (hfits : fitsPair sig first second = true)
    (hrun : (runPair .swap index first second ctx).1 = .ok p) : PairConforms sig p := by
  have hsig : sig = .pair .any .any .any .any :=
    forall_entry (P := fun _ s => s = .pair .any .any .any .any) (by decide) hentry
  subst hsig
  simp only [fitsPair, Bool.and_eq_true] at hfits
  obtain ⟨d, rfl, hd⟩ := Production.exists_of_fits hfits.1 rfl
  obtain ⟨d', rfl, hd'⟩ := Production.exists_of_fits hfits.2 rfl
  cases hrun
  exact ⟨hd', hd⟩

theorem conforms_sink (hentry : Code.sink.signatures[index]? = some sig)
    (hrun : (runPair .sink index first second ctx).1 = .ok p) : PairConforms sig p := by
  have hyields : sig.yields.up = .empty ∧ sig.yields.down = .empty :=
    forall_entry (P := fun _ s => s.yields.up = .empty ∧ s.yields.down = .empty) (by decide) hentry
  cases hrun
  refine ⟨?_, ?_⟩
  · rw [hyields.1]
    rfl
  · rw [hyields.2]
    rfl

/-- A computation on a pair keeps to its signature. -/
theorem runPair_conforms {code : Code} (hpair : code.isPair = true)
    (hentry : code.signatures[index]? = some sig) (hfits : fitsPair sig first second = true)
    (hrun : (runPair code index first second ctx).1 = .ok p) : PairConforms sig p := by
  cases code with
  | swap => exact conforms_swap hentry hfits hrun
  | lower => exact conforms_sameKind (.inl rfl) hentry hfits hrun
  | upper => exact conforms_sameKind (.inr (.inl rfl)) hentry hfits hrun
  | reverse => exact conforms_sameKind (.inr (.inr (.inl rfl))) hentry hfits hrun
  | random => exact conforms_sameKind (.inr (.inr (.inr rfl))) hentry hfits hrun
  | prime => exact conforms_measure (.inl rfl) hentry hrun
  | not => exact conforms_measure (.inr rfl) hentry hrun
  | convert => exact conforms_conversion hentry hfits hrun
  | sink => exact conforms_sink hentry hrun
  | writeText | writeNumber | redirect | add | subtract | multiply | divide | remainder | factor
  | equal | greater | pass | tickStamp | halt | haltDump => cases hpair

end Operator

/-! ## Firings -/

/-- A firing that succeeds keeps to its signature on every site. -/
theorem Firing.run_conforms {g : Grid} {f : Firing} (hf : f.Chosen g)
    (hstamp : f.op.code ≠ .tickStamp) {ctx ctx' : Context} {outs : List (Option Datum)}
    (hrun : f.run g ctx = (some outs, ctx')) : ∀ e ∈ f.sites.zip outs, e.1.gives.Yields e.2 := by
  refine Firing.run_sites hf (fun hpair hfits hok => ?_) (fun hpair hfits hok => ?_) hrun
  · have hconf := Operator.runJoint_conforms hpair hstamp hf.entry hfits hok
    exact ⟨hconf.up, hconf.left, hconf.right, hconf.down⟩
  · have hconf := Operator.runPair_conforms hpair hf.entry hfits hok
    exact ⟨hconf.back, hconf.ahead⟩

end Gridfall
