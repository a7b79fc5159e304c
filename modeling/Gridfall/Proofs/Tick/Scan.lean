/-
  A pass over the interior as a whole. Either it leaves everything as it is, and then every value
  that still moves waits for another one; or it makes at least one change (`pass_changes`).

  The order of the scan matters at one point only. Two values may head for one vacant place, one
  from above and one from the side. The upper row is scanned first, so the value from above goes
  first: a value that can fall will fall (`Orderly`).
-/
import Gridfall.Proofs.Tick.Fall

namespace Gridfall

theorem Drift.dir_ne_down (d : Drift) : d.dir ≠ .down := by
  cases d <;> decide

namespace Fall

open Relation (ReflTransGen TransGen)

/-- The value at `p` heads down, and the place below it is vacant. -/
def Drops (f : Fall) (p : Pos) : Prop :=
  f.slot p = .moving .down ∧ f.slot (p.beside .down) = .vacant

/-- The value at `p` heads for a place whose value still moves and does not come toward it. -/
def Waits (f : Fall) (p : Pos) : Prop :=
  ∃ heading other, f.slot p = .moving heading ∧ f.slot (p.beside heading) = .moving other ∧
    other ≠ heading.opposite

/-- A change after which a value that could fall still can, unless the change was its fall. -/
structure Orderly (f f' : Fall) : Prop where
  step : Step f f'
  yields : ∀ p ∈ f.grid.interior, f.Drops p → f'.Drops p ∨ f'.slot p = .vacant

theorem steps_of_orderly {f f' : Fall} (h : ReflTransGen Orderly f f') : Steps f f' :=
  ReflTransGen.mono (fun _ _ (h : Orderly _ _) => h.step) _ _ h

/-! ## Changes of one slot -/

theorem slot_setSlot_self {f : Fall} (hsize : f.slots.size = f.grid.cells.size) {p : Pos}
    (hp : p ∈ f.grid.interior) (s : Slot) : (f.setSlot p s).slot p = s := by
  have hcontains := Grid.contains_of_interior hp
  rw [slot_setSlot hsize hcontains hcontains, if_pos rfl]

/-- A value that turns or comes to rest can no longer fall, and no other value is touched. -/
theorem drops_setSlot {f : Fall} (hsize : f.slots.size = f.grid.cells.size) {p q : Pos}
    (hp : p ∈ f.grid.interior) (hq : q ∈ f.grid.interior) {heading : Dir}
    (hs : f.slot p = .moving heading) {s : Slot} (hv : s ≠ .vacant) (hd : s ≠ .moving .down) :
    (f.setSlot p s).Drops q ↔ q ≠ p ∧ f.Drops q := by
  have hslot := slot_setSlot hsize (Grid.contains_of_interior hp) (Grid.contains_of_interior hq) s
  have hbelow := slot_setSlot hsize (Grid.contains_of_interior hp) (Grid.contains_beside hq .down) s
  unfold Drops
  rw [hslot, hbelow]
  by_cases hqp : q = p
  · simp [hqp, hd]
  · by_cases hbp : q.beside .down = p
    · simp [hqp, hbp, hs, hv]
    · simp [hqp, hbp]

theorem orderly_setSlot {f : Fall} (hsize : f.slots.size = f.grid.cells.size) {p : Pos}
    (hp : p ∈ f.grid.interior) {heading : Dir} (hs : f.slot p = .moving heading) {s : Slot}
    (hv : s ≠ .vacant) (hd : s ≠ .moving .down) (hstays : ¬ f.Drops p)
    (hstep : Step f (f.setSlot p s)) : Orderly f (f.setSlot p s) := by
  refine ⟨hstep, fun q hq hdrops => .inl ?_⟩
  rw [drops_setSlot hsize hp hq hs hv hd]
  refine ⟨?_, hdrops⟩
  rintro rfl
  exact hstays hdrops

/-! ## Moves -/

/-- Only the place above shares its lower neighbour; all others that border on it are further
    down. -/
theorem eq_or_lt_of_beside_down {g : Grid} {p q : Pos} (hp : p ∈ g.interior) {heading : Dir}
    (h : q.beside .down = p.beside heading) : q = p ∨ q.y < p.y := by
  have hin := Grid.mem_interior_iff.mp hp
  have hx : q.x = (p.beside heading).x := by rw [← h]; rfl
  have hy : q.y + 1 = (p.beside heading).y := by rw [← h]; rfl
  cases heading with
  | down =>
    left
    cases p
    cases q
    simp only [Pos.beside, Pos.around] at hx hy
    simp only [Pos.mk.injEq]
    omega
  | up | left | right =>
    right
    simp only [Pos.beside, Pos.around] at hy
    omega

/-- A move is orderly if no value further up could fall. -/
theorem orderly_move {f : Fall} (hsize : f.slots.size = f.grid.cells.size) {p : Pos}
    (hp : p ∈ f.grid.interior) {heading : Dir} (hs : f.slot p = .moving heading)
    (hv : f.slot (p.beside heading) = .vacant)
    (habove : ∀ q ∈ f.grid.interior, q.y < p.y → ¬ f.Drops q) :
    Orderly f (f.move p (p.beside heading)) := by
  have hslot : ∀ q, f.grid.contains q = true → (f.move p (p.beside heading)).slot q =
      if q = p then .vacant else if q = p.beside heading then .fixed else f.slot q := fun q hq =>
    slot_move hsize (Grid.contains_of_interior hp) (Grid.contains_beside hp heading) hq
  refine ⟨.move hp hs (Grid.step?_interior hp heading) hv, fun q hq hdrops => ?_⟩
  obtain ⟨hmoving, hvacant⟩ := hdrops
  by_cases hqp : q = p
  · right
    rw [hslot q (Grid.contains_of_interior hq), if_pos hqp]
  · left
    have hqt : q ≠ p.beside heading := by
      intro h
      rw [h, hv] at hmoving
      cases hmoving
    have hbp : q.beside .down ≠ p := by
      intro h
      rw [h, hs] at hvacant
      cases hvacant
    -- A value above the target stands further up than `p`, or it is `p` itself.
    have hbt : q.beside .down ≠ p.beside heading := by
      intro h
      rcases eq_or_lt_of_beside_down hp h with h | h
      · exact hqp h
      · exact habove q hq h ⟨hmoving, hvacant⟩
    constructor
    · rw [hslot q (Grid.contains_of_interior hq), if_neg hqp, if_neg hqt]
      exact hmoving
    · rw [hslot _ (Grid.contains_beside hq .down), if_neg hbp, if_neg hbt]
      exact hvacant

/-! ## Scans -/

/-- A turn takes the drift of the value. -/
theorem turn_eq {f : Fall} {p : Pos} {d : Datum} (h : f.grid.get? p = some (.data d)) :
    f.turn p = f.setSlot p (.moving d.drift.dir) := by
  unfold turn
  rw [Grid.datum?_eq_some_iff.mpr h]
  rfl

/-- The rest of a scan, from `ps` on, when no value before could fall. -/
theorem scan_changes {before ps : List Pos} {f : Fall} (hf : Tied f)
    (hi : before ++ ps = f.grid.interior) (hb : ∀ p ∈ before, ¬ f.Drops p) (met : Bool) :
    ((scan ps f met).1 = f ∧ ∀ p ∈ ps, ∀ heading, f.slot p = .moving heading → f.Waits p) ∨
      TransGen Orderly f (scan ps f met).1 := by
  induction ps generalizing before f met with
  | nil => exact .inl ⟨rfl, by simp⟩
  | cons p ps ih =>
    have hp : p ∈ f.grid.interior := by
      rw [← hi]
      simp
    have hcontains := Grid.contains_of_interior hp
    have hi' : (before ++ [p]) ++ ps = f.grid.interior := by simpa using hi
    -- The value at `p` stays as it is.
    have idle : ¬ f.Drops p → (∀ heading, f.slot p = .moving heading → f.Waits p) → ∀ met,
        ((scan ps f met).1 = f ∧
          ∀ q ∈ p :: ps, ∀ heading, f.slot q = .moving heading → f.Waits q) ∨
        TransGen Orderly f (scan ps f met).1 := by
      intro hstays hwaits met
      have hb' : ∀ q ∈ before ++ [p], ¬ f.Drops q := by
        simpa [or_imp, forall_and] using ⟨hb, hstays⟩
      rcases ih hf hi' hb' met with ⟨heq, hrest⟩ | hchange
      · exact .inl ⟨heq, List.forall_mem_cons.mpr ⟨hwaits, hrest⟩⟩
      · exact .inr hchange
    -- The value at `p` turns or comes to rest.
    have change : ∀ {heading s}, f.slot p = .moving heading → s ≠ .vacant → s ≠ .moving .down →
        ¬ f.Drops p → Step f (f.setSlot p s) → ∀ met,
        TransGen Orderly f (scan ps (f.setSlot p s) met).1 := by
      intro heading s hs hv hd hstays hstep met
      have horderly := orderly_setSlot hf.size hp hs hv hd hstays hstep
      have hb' : ∀ q ∈ before ++ [p], ¬ (f.setSlot p s).Drops q := by
        intro q hq
        have hq' : q ∈ f.grid.interior := by
          rw [← hi']
          exact List.mem_append_left _ hq
        rw [drops_setSlot hf.size hp hq' hs hv hd]
        rintro ⟨hne, hdrops⟩
        rcases List.mem_append.mp hq with hq | hq
        · exact hb q hq hdrops
        · exact hne (List.mem_singleton.mp hq)
      rcases ih (hstep.tied hf) hi' hb' met with ⟨heq, -⟩ | hchange
      · rw [heq]
        exact .single horderly
      · exact .head horderly hchange
    unfold scan
    split
    · next hs => exact idle (by simp [Drops, hs]) (by simp [hs]) met
    · next hs => exact idle (by simp [Drops, hs]) (by simp [hs]) met
    · next heading hs =>
      rw [Grid.step?_interior hp]
      dsimp only
      have ht := Grid.step?_interior hp heading
      split
      · next hv =>
        refine .inr (.single (orderly_move hf.size hp hs hv fun q hq hlt => ?_))
        exact hb q (Grid.mem_before hi hq hlt)
      · next hv =>
        right
        split
        · next hd =>
          subst hd
          obtain ⟨d, hdata⟩ := hf.moving p .down hcontains hs
          have hstep := Step.turn hp hs ht hv
          rw [turn_eq hdata] at hstep ⊢
          exact change hs (by simp) (by simpa using d.drift.dir_ne_down)
            (by simp [Drops, hv]) hstep true
        · next hd =>
          exact change hs (by simp) (by simp) (by simp [Drops, hs, hd]) (.stop hp hs hd ht hv) true
      · next other hv =>
        have hstays : ¬ f.Drops p := by
          rintro ⟨hdown, hvacant⟩
          rw [hs] at hdown
          cases hdown
          rw [hv] at hvacant
          cases hvacant
        split
        · next ho =>
          subst ho
          exact .inr (change hs (by simp) (by simp) hstays (.meet hp hs ht hv) true)
        · next ho => exact idle hstays (fun _ _ => ⟨heading, other, hs, hv, ho⟩) true

/-- A pass makes a change, or every value that moves waits. -/
theorem pass_changes {f : Fall} (hf : Tied f) :
    (f.pass.1 = f ∧ ∀ p ∈ f.grid.interior, ∀ heading, f.slot p = .moving heading → f.Waits p) ∨
      TransGen Orderly f f.pass.1 :=
  scan_changes hf (List.nil_append _) (by simp) false

theorem scan_met (ps : List Pos) (f : Fall) (met : Bool) :
    (scan ps f met).2 = true ↔ met = true ∨ ∃ p ∈ ps, ∃ heading, f.slot p = .moving heading := by
  fun_induction scan ps f met with
  | case1 => simp
  | case2 p ps f met hs ih => simp [ih, hs]
  | case3 p ps f met hs ih => simp [ih, hs]
  | case4 p ps f met heading hs ht ih =>
    exact iff_of_true (ih.mpr (.inl rfl)) (.inr ⟨p, List.mem_cons_self, heading, hs⟩)
  | case5 p ps f met heading hs target ht hv =>
    exact iff_of_true rfl (.inr ⟨p, List.mem_cons_self, heading, hs⟩)
  | case6 p ps f met heading hs target ht hv ih =>
    exact iff_of_true (ih.mpr (.inl rfl)) (.inr ⟨p, List.mem_cons_self, heading, hs⟩)
  | case7 p ps f met heading hs target ht other hv ih =>
    exact iff_of_true (ih.mpr (.inl rfl)) (.inr ⟨p, List.mem_cons_self, heading, hs⟩)

/-- The flag of a pass says whether a value inside the ring still moved. -/
theorem pass_met (f : Fall) :
    f.pass.2 = true ↔ ∃ p ∈ f.grid.interior, ∃ heading, f.slot p = .moving heading := by
  rw [pass, scan_met]
  simp

end Fall

end Gridfall
