/-
  The walk always ends. `need r` bounds the hops of a path that starts with the router `r`: a
  path enters at most four states for each cell between two writes, and each write takes an empty
  cell away. Entering a state lowers `need` by one, and a run never raises it; so `Router.reach`
  hops are enough for every placement (`place_runs`).
-/
import Gridfall.Proofs.Routing.Fill

namespace Gridfall.Router

/-- The states on the trail are places of the grid, each heading at most once there. -/
structure Tracked (r : Router) : Prop where
  nodup : r.trail.Nodup
  on_grid : ∀ s ∈ r.trail, r.grid.contains s.1 = true

/-- Hops that a path can still make. -/
noncomputable def need (r : Router) : Nat :=
  r.grid.vacant.ncard * (4 * r.grid.cells.size + 1) + (4 * r.grid.cells.size - r.trail.length) + 1

/-- Every state of the grid. -/
def states (g : Grid) : List (Pos × Dir) := g.positions.flatMap fun p => Dir.all.map fun d => (p, d)

theorem length_states (g : Grid) : (states g).length = 4 * g.cells.size := by
  rw [states, List.length_flatMap]
  simp [Dir.all, Grid.positions_length, Nat.mul_comm]

theorem mem_states {g : Grid} {s : Pos × Dir} (h : g.contains s.1 = true) : s ∈ states g := by
  obtain ⟨p, d⟩ := s
  refine List.mem_flatMap.mpr ⟨p, Grid.mem_positions.mpr h, List.mem_map.mpr ⟨d, ?_, rfl⟩⟩
  cases d <;> simp [Dir.all]

namespace Tracked

theorem nil {r : Router} (h : r.trail = []) : Tracked r := by
  refine ⟨?_, ?_⟩ <;> simp [h]

theorem length_le {r : Router} (h : Tracked r) : r.trail.length ≤ 4 * r.grid.cells.size := by
  rw [← length_states]
  exact (h.nodup.subperm fun s hs => mem_states (h.on_grid s hs)).length_le

theorem enter {r : Router} (h : Tracked r) {s : Pos × Dir} (hs : s ∉ r.trail)
    (hp : r.grid.contains s.1 = true) : Tracked (r.enter s) := by
  refine ⟨List.nodup_cons.mpr ⟨hs, h.nodup⟩, fun t ht => ?_⟩
  rcases List.mem_cons.mp ht with rfl | ht
  · exact hp
  · exact h.on_grid t ht

theorem need_enter {r : Router} {s : Pos × Dir} (h : Tracked (r.enter s)) :
    need (r.enter s) + 1 = need r := by
  have hle := h.length_le
  have hlen : (r.enter s).trail.length = r.trail.length + 1 := rfl
  simp only [need, grid_enter] at hle ⊢
  omega

theorem run {r r' : Router} {b : Bool} (h : Tracked r) (ho : Outcome r b r') : Tracked r' := by
  refine ⟨h.nodup.sublist ho.trail, fun s hs => ?_⟩
  rw [ho.fills.contains]
  exact h.on_grid s (ho.trail.mem hs)

end Tracked

theorem Outcome.size_eq {r r' : Router} {b : Bool} (h : Outcome r b r') :
    r'.grid.cells.size = r.grid.cells.size := by
  rw [r'.grid.size_eq, r.grid.size_eq, h.fills.width, h.fills.height]

theorem Outcome.need_le {r r' : Router} {b : Bool} (h : Outcome r b r') (hr : Tracked r) :
    need r' ≤ need r := by
  by_cases hw : r'.writes = r.writes
  · obtain ⟨hg, ht⟩ := h.quiet hw
    exact Nat.le_of_eq (by rw [need, need, hg, ht])
  · -- One write less to come pays for a whole trail.
    have hcount := h.count
    have hgrows := h.grows
    have hlt : r'.grid.vacant.ncard + 1 ≤ r.grid.vacant.ncard := by omega
    have hmul := Nat.mul_le_mul_right (4 * r.grid.cells.size + 1) hlt
    rw [Nat.add_mul, Nat.one_mul] at hmul
    have hlen := hr.length_le
    simp only [need, h.size_eq]
    omega

/-! ## Enough fuel -/

theorem perform_isSome {carry : Carrier} {r : Router}
    (h : ∀ d p dir, (carry r d p dir).isSome = true) (t : Task) :
    (t.perform carry r).isSome = true := by
  cases t with
  | visit d p dir => exact h d p dir
  | advance d p dir =>
    simp only [Task.perform, advance]
    split
    · exact h _ _ _
    · rfl
  | offer d p dir =>
    simp only [Task.perform, offer]
    split
    · rfl
    · split
      · rfl
      · split
        · rfl
        · split
          · exact h _ _ _
          · rfl

theorem explore_isSome (fuel : Nat) (r : Router) (hr : Tracked r) (hf : need r ≤ fuel) (d : Datum)
    (p : Pos) (dir : Dir) : (explore true fuel r d p dir).isSome = true := by
  induction fuel generalizing r d p dir with
  | zero => unfold need at hf; omega
  | succ fuel ih =>
    by_cases hs : (p, dir) ∈ r.trail
    · simp [explore, visit, hs]
    by_cases hop : r.grid.hop p dir = .blocked
    · simp [explore, visit_of_free fun _ => hs, pursue, hop]
    have hr' : Tracked (r.enter (p, dir)) := hr.enter hs (Grid.contains_of_hop hop)
    have hf' : need (r.enter (p, dir)) ≤ fuel := by
      have := hr'.need_enter
      omega
    -- Whatever the hop leads to starts with no more need than is left.
    have next : ∀ {r' b}, Outcome (r.enter (p, dir)) b r' → ∀ t : Task,
        (t.perform (explore true fuel) r').isSome = true := fun ho t =>
      perform_isSome (ih _ (hr'.run ho) ((ho.need_le hr').trans hf')) t
    rw [explore, visit_of_free (fun _ => hs), Option.isSome_map]
    cases hh : r.grid.hop p dir with
    | land => simp [pursue, hh]
    | absorb => simp [pursue, hh]
    | blocked => exact absurd hh hop
    | onward q e =>
      simp only [pursue, grid_enter, hh]
      exact next (.refl _ true) (.visit d q e)
    | fork e₁ e₂ =>
      simp only [pursue, grid_enter, hh, fork]
      obtain ⟨⟨b₁, r₁⟩, h₁⟩ :=
        Option.isSome_iff_exists.mp (next (.refl _ true) (.advance d p e₁))
      have ho := ((explore_sound true fuel).perform h₁).outcome
      obtain ⟨⟨b₂, r₂⟩, h₂⟩ := Option.isSome_iff_exists.mp (next ho (.advance d p e₂))
      simp only [Task.perform] at h₁ h₂
      simp [h₁, h₂]
    | deliver code =>
      simp only [pursue, grid_enter, hh, deliver]
      split
      · next q hq =>
        obtain ⟨hc, hg, ht⟩ := Operator.receive_services code d r.context
        exact next (b := true) (.ofContext hc hg ht (by simp)) (.offer _ q .down)
      · rfl

theorem need_le_reach (r : Router) : need r ≤ r.reach := by
  have hmul := Nat.mul_le_mul_right (4 * r.grid.cells.size + 1) r.grid.ncard_vacant_le
  unfold need reach
  rw [Nat.add_mul, Nat.one_mul]
  omega

/-- Every placement that does not overwrite is a run. -/
theorem place_runs {r : Router} (hr : Tracked r) (d : Option Datum) (target : Pos) (dir : Dir) :
    Runs true (.offer d target dir) r (r.place d target dir false).1
      (r.place d target dir false).2 := by
  have hsome := perform_isSome (explore_isSome _ r hr r.need_le_reach) (.offer d target dir)
  obtain ⟨⟨b, r'⟩, h⟩ := Option.isSome_iff_exists.mp hsome
  have hplace : r.place d target dir false = (b, r') := by
    simp only [Task.perform] at h
    rw [place, send_eq_explore, h]
    rfl
  rw [hplace]
  exact (explore_sound true _).perform h

end Gridfall.Router
