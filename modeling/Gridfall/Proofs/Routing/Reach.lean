/-
  Where a placed value ends up. On a grid without tick stamps a value does not change on its way,
  and placing it comes down to reachability in the hop graph: exactly the empty cells that can be
  reached get the value (`place_reaches`).

  The walk is a depth-first search that forgets: a state is on the trail only while it is being
  explored, and every write clears the trail. `Delivers` says what is left of that. From above,
  all that a run does happens at states that can be reached from where it starts. From below,
  it deals with every state that can be reached on a path that avoids the trail. An empty trail
  makes the two bounds meet.
-/
import Gridfall.Proofs.Routing.Bound
import Gridfall.Proofs.Routing.Graph

namespace Gridfall

open Relation (ReflTransGen)

/-! ## Paths that avoid the trail -/

/-- A step that does not enter a state of `trail`. -/
def Grid.Avoids (g : Grid) (trail : List (Pos × Dir)) (s t : Pos × Dir) : Prop :=
  g.Leads s t ∧ t ∉ trail

/-- A path from `s` can be cut at its last visit to `s`. -/
theorem Grid.avoids_cases {g : Grid} {trail : List (Pos × Dir)} {s t : Pos × Dir}
    (h : ReflTransGen (g.Avoids trail) s t) :
    t = s ∨ ∃ u, g.Leads s u ∧ u ∉ s :: trail ∧ ReflTransGen (g.Avoids (s :: trail)) u t := by
  induction h with
  | refl => exact .inl rfl
  | @tail u t _ hut ih =>
    by_cases hts : t = s
    · exact .inl hts
    have ht : t ∉ s :: trail := by
      intro hm
      rcases List.mem_cons.mp hm with hm | hm
      · exact hts hm
      · exact hut.2 hm
    rcases ih with rfl | ⟨v, hv, hvt, hpath⟩
    · exact .inr ⟨t, hut.1, ht, .refl⟩
    · exact .inr ⟨v, hv, hvt, hpath.tail ⟨hut.1, ht⟩⟩

theorem Grid.avoids_mono {g : Grid} {trail trail' : List (Pos × Dir)} (h : trail' ⊆ trail)
    {s t : Pos × Dir} (hp : ReflTransGen (g.Avoids trail) s t) :
    ReflTransGen (g.Avoids trail') s t :=
  ReflTransGen.mono (fun _ _ hs => ⟨hs.1, fun hm => hs.2 (h hm)⟩) _ _ hp

namespace Router

/-! ## What a run delivers -/

/-- The states that can be reached from `starts`. -/
def within (g : Grid) (starts : Set (Pos × Dir)) : Set (Pos × Dir) :=
  {t | ∃ s ∈ starts, ReflTransGen g.Leads s t}

/-- The states that can be reached from `starts` on paths that avoid the trail. -/
def clear (r : Router) (starts : Set (Pos × Dir)) : Set (Pos × Dir) :=
  {t | ∃ s ∈ starts, s ∉ r.trail ∧ ReflTransGen (r.grid.Avoids r.trail) s t}

/-- The request to halt comes from a halt operator among `states`. -/
def Raised (g : Grid) (states : Set (Pos × Dir)) (r' : Router) : Prop :=
  ∃ dump, r'.context.halt = some ⟨dump⟩ ∧ ∃ t ∈ states, g.HaltsAt t dump

/-- The effect of a run that carries `d` from the states `starts` on. -/
structure Delivers (d : Datum) (starts : Set (Pos × Dir)) (r : Router) (b : Bool) (r' : Router) :
    Prop where
  landed : ∀ p, r'.grid.get? p = r.grid.get? p ∨
    r'.grid.get? p = some (.data d) ∧ ∃ e, (p, e) ∈ within r.grid starts
  accepted : b = true → ∃ t ∈ within r.grid starts, r.grid.Accepts t
  halted : r'.context.halt = r.context.halt ∨
    d.value.isEmpty = false ∧ Raised r.grid (within r.grid starts) r'
  lands : ∀ t ∈ r.clear starts, r.grid.get? t.1 = some .empty → r'.grid.get? t.1 ≠ some .empty
  accepts : ∀ t ∈ r.clear starts, r.grid.Accepts t → b = true
  halts : ∀ t ∈ r.clear starts, ∀ dump, r.grid.HaltsAt t dump → d.value.isEmpty = false →
    Raised r.grid (within r.grid starts) r'

theorem Raised.mono {g : Grid} {S T : Set (Pos × Dir)} {r' : Router} (h : Raised g S r')
    (hs : S ⊆ T) : Raised g T r' := by
  obtain ⟨dump, he, t, ht, hh⟩ := h
  exact ⟨dump, he, t, hs ht, hh⟩

theorem within_mono {g : Grid} {S T : Set (Pos × Dir)} (h : S ⊆ T) : within g S ⊆ within g T := by
  rintro t ⟨s, hs, hp⟩
  exact ⟨s, h hs, hp⟩

/-- A run leaves the same states to be reached. -/
theorem Outcome.within_eq {r r' : Router} {b : Bool} (o : Outcome r b r') (S : Set (Pos × Dir)) :
    within r'.grid S = within r.grid S := by
  unfold within
  rw [o.fills.leads]

theorem Raised.before {r r' r'' : Router} {b : Bool} {states : Set (Pos × Dir)}
    (h : Raised r'.grid states r'') (o : Outcome r b r') : Raised r.grid states r'' := by
  obtain ⟨dump, he, t, ht, hh⟩ := h
  exact ⟨dump, he, t, ht, (o.fills.haltsAt t dump).mp hh⟩

/-- What the first of two runs does not reach on a clear path is clear for the second one. -/
theorem Outcome.clear_union {r r' : Router} {b : Bool} (o : Outcome r b r')
    {S T : Set (Pos × Dir)} {t : Pos × Dir} (ht : t ∈ r.clear (S ∪ T)) :
    t ∈ r.clear S ∨ t ∈ r'.clear T := by
  have havoids : r'.grid.Avoids r'.trail = r.grid.Avoids r'.trail := by
    funext a c
    rw [Grid.Avoids, Grid.Avoids, o.fills.leads]
  obtain ⟨s, hs | hs, hst, hp⟩ := ht
  · exact .inl ⟨s, hs, hst, hp⟩
  · refine .inr ⟨s, hs, fun hm => hst (o.trail.subset hm), ?_⟩
    rw [havoids]
    exact Grid.avoids_mono o.trail.subset hp

namespace Delivers

variable {d : Datum} {r r' r₁ r₂ : Router} {b b₁ b₂ : Bool} {s : Pos × Dir}
  {S S₁ S₂ : Set (Pos × Dir)}

/-- A state that is on the trail already: nothing happens, and nothing has to. -/
theorem again (hs : s ∈ r.trail) (hg : r'.grid = r.grid)
    (hh : r'.context.halt = r.context.halt) : Delivers d {s} r false r' := by
  have none : ∀ t, t ∉ r.clear {s} := by
    rintro t ⟨u, rfl, hu, -⟩
    exact hu hs
  exact
    { landed := fun p => .inl (by rw [hg])
      accepted := fun hb => by cases hb
      halted := .inl hh
      lands := fun t ht => absurd ht (none t)
      accepts := fun t ht => absurd ht (none t)
      halts := fun t ht => absurd ht (none t) }

/-- A state without a way on: only its own cell counts. -/
theorem stop (hstop : ∀ t, ¬ r.grid.Leads s t)
    (hland : ∀ p, r'.grid.get? p = r.grid.get? p ∨ r'.grid.get? p = some (.data d) ∧ p = s.1)
    (hb : b = true ↔ r.grid.Accepts s)
    (hempty : r.grid.get? s.1 = some .empty → r'.grid.get? s.1 ≠ some .empty)
    (hhalt : r'.context.halt = r.context.halt ∨ d.value.isEmpty = false ∧ Raised r.grid {s} r')
    (hraise : ∀ dump, r.grid.HaltsAt s dump → d.value.isEmpty = false → Raised r.grid {s} r') :
    Delivers d {s} r b r' := by
  have self : s ∈ within r.grid {s} := ⟨s, rfl, .refl⟩
  have sub : ({s} : Set (Pos × Dir)) ⊆ within r.grid {s} := by rintro t rfl; exact self
  have only : ∀ t ∈ r.clear {s}, t = s := by
    rintro t ⟨u, rfl, -, hp⟩
    rcases hp.cases_head with rfl | ⟨v, hv, -⟩
    · rfl
    · exact absurd hv.1 (hstop v)
  refine
    { landed := fun p => (hland p).imp_right fun ⟨he, hp⟩ => ⟨he, s.2, ?_⟩
      accepted := fun h => ⟨s, self, hb.mp h⟩
      halted := hhalt.imp_right fun ⟨he, hr⟩ => ⟨he, hr.mono sub⟩
      lands := fun t ht => only t ht ▸ hempty
      accepts := fun t ht ha => hb.mpr (only t ht ▸ ha)
      halts := fun t ht dump hh he => (hraise dump (only t ht ▸ hh) he).mono sub }
  rw [hp]
  exact self

/-- A state that a value only passes through: what counts is what its ways on deliver. -/
theorem through (hs : ¬ r.grid.Accepts s)
    (h : Delivers d {t | r.grid.Leads s t} (r.enter s) b r') :
    Delivers d {s} r b (r'.leave s) := by
  have up : within r.grid {t | r.grid.Leads s t} ⊆ within r.grid {s} := by
    rintro t ⟨u, hu, hp⟩
    exact ⟨s, rfl, .head hu hp⟩
  have down : ∀ t ∈ r.clear {s}, t = s ∨ t ∈ (r.enter s).clear {t | r.grid.Leads s t} := by
    rintro t ⟨u, rfl, -, hp⟩
    rcases Grid.avoids_cases hp with ht | ⟨v, hv, hvt, hpath⟩
    · exact .inl ht
    · exact .inr ⟨v, hv, hvt, hpath⟩
  refine
    { landed := fun p => (h.landed p).imp_right fun ⟨he, e, hp⟩ => ⟨he, e, up hp⟩
      accepted := fun hb => ?_
      halted := h.halted.imp_right fun ⟨he, hr⟩ => ⟨he, hr.mono up⟩
      lands := fun t ht he => ?_
      accepts := fun t ht ha => ?_
      halts := fun t ht dump hh he => ?_ }
  · obtain ⟨t, ht, ha⟩ := h.accepted hb
    exact ⟨t, up ht, ha⟩
  · rcases down t ht with rfl | ht
    · exact absurd (.inl he) hs
    · exact h.lands t ht he
  · rcases down t ht with rfl | ht
    · exact absurd ha hs
    · exact h.accepts t ht ha
  · rcases down t ht with rfl | ht
    · exact absurd hh.accepts hs
    · exact (h.halts t ht dump hh he).mono up

/-- Two runs one after the other. What the first one has written is answered for by `b₁`. -/
theorem seq (h₁ : Delivers d S₁ r b₁ r₁) (o₁ : Outcome r b₁ r₁) (h₂ : Delivers d S₂ r₁ b₂ r₂)
    (o₂ : Outcome r₁ b₂ r₂) : Delivers d (S₁ ∪ S₂) r (b₁ || b₂) r₂ := by
  have up₁ : within r.grid S₁ ⊆ within r.grid (S₁ ∪ S₂) := within_mono Set.subset_union_left
  have up₂ : within r₁.grid S₂ ⊆ within r.grid (S₁ ∪ S₂) := by
    rw [o₁.within_eq]
    exact within_mono Set.subset_union_right
  have raise₂ : Raised r₁.grid (within r₁.grid S₂) r₂ →
      Raised r.grid (within r.grid (S₁ ∪ S₂)) r₂ := fun h => (h.before o₁).mono up₂
  have raise₁ : Raised r.grid (within r.grid S₁) r₁ →
      Raised r.grid (within r.grid (S₁ ∪ S₂)) r₂ := by
    rintro ⟨dump, he, t, ht, hh⟩
    rcases h₂.halted with hsame | ⟨-, hr⟩
    · exact ⟨dump, hsame.trans he, t, up₁ ht, hh⟩
    · exact raise₂ hr
  -- A cell that was filled stays filled.
  have keep : ∀ p, r₁.grid.get? p ≠ some .empty → r₂.grid.get? p ≠ some .empty :=
    fun p hp he => hp (o₂.fills.get?_of_get? he rfl)
  refine
    { landed := fun p => ?_
      accepted := fun hb => ?_
      halted := ?_
      lands := fun t ht he => ?_
      accepts := fun t ht ha => ?_
      halts := fun t ht dump hh he => ?_ }
  · rcases h₂.landed p with e₂ | ⟨e₂, e, hp⟩
    · rcases h₁.landed p with e₁ | ⟨e₁, e, hp⟩
      · exact .inl (e₂.trans e₁)
      · exact .inr ⟨e₂.trans e₁, e, up₁ hp⟩
    · exact .inr ⟨e₂, e, up₂ hp⟩
  · rcases (Bool.or_eq_true _ _).mp hb with hb | hb
    · obtain ⟨t, ht, ha⟩ := h₁.accepted hb
      exact ⟨t, up₁ ht, ha⟩
    · obtain ⟨t, ht, ha⟩ := h₂.accepted hb
      exact ⟨t, up₂ ht, o₁.fills.accepts ha⟩
  · rcases h₂.halted with e₂ | ⟨he, hr⟩
    · rcases h₁.halted with e₁ | ⟨he, hr⟩
      · exact .inl (e₂.trans e₁)
      · exact .inr ⟨he, raise₁ hr⟩
    · exact .inr ⟨he, raise₂ hr⟩
  · rcases o₁.clear_union ht with ht | ht
    · exact keep t.1 (h₁.lands t ht he)
    · by_cases hn : r₁.grid.get? t.1 = some .empty
      · exact h₂.lands t ht hn
      · exact keep t.1 hn
  · rw [Bool.or_eq_true]
    rcases o₁.clear_union ht with ht | ht
    · exact .inl (h₁.accepts t ht ha)
    · rcases o₁.fills.accepts_or ha with ha | ⟨he, hn⟩
      · exact .inr (h₂.accepts t ht ha)
      · -- The first run has taken the cell, so it was not refused.
        left
        by_contra hb
        have hw := (o₁.refused (by simpa using hb)).1
        rw [(o₁.quiet hw).1] at hn
        exact hn he
  · rcases o₁.clear_union ht with ht | ht
    · exact raise₁ (h₁.halts t ht dump hh he)
    · exact raise₂ (h₂.halts t ht dump ((o₁.fills.haltsAt t dump).mpr hh) he)

end Delivers

/-! ## Every run delivers -/

/-- The states that a task starts from. -/
def Task.starts (g : Grid) : Task → Set (Pos × Dir)
  | .visit _ p dir | .offer (some _) p dir => {(p, dir)}
  | .advance _ p dir => {t | t.2 = dir ∧ g.step? p dir = some t.1}
  | .offer none _ _ => ∅

theorem leave_enter (r : Router) (ctx : Context) (s : Pos × Dir) :
    ((r.enter s).adopt ctx).leave s = r.adopt ctx := by
  unfold enter adopt leave
  rw [List.erase_cons_head]

/-- There is no way on from a state whose hop leads nowhere. -/
theorem not_leads {g : Grid} {p : Pos} {dir : Dir} (h : (g.hop p dir).targets g p = ∅)
    (t : Pos × Dir) : ¬ g.Leads (p, dir) t := by
  rw [Grid.leads_iff, h]
  exact id

theorem Delivers.nowhere {d : Datum} (r : Router) : Delivers d ∅ r false r := by
  have none : ∀ t, t ∉ r.clear ∅ := by
    rintro t ⟨s, hs, -⟩
    exact hs
  exact
    { landed := fun p => .inl rfl
      accepted := fun hb => by cases hb
      halted := .inl rfl
      lands := fun t ht => absurd ht (none t)
      accepts := fun t ht => absurd ht (none t)
      halts := fun t ht => absurd ht (none t) }

theorem Delivers.refused {d : Datum} {r : Router} {s : Pos × Dir}
    (hstop : ∀ t, ¬ r.grid.Leads s t) (ha : ¬ r.grid.Accepts s) : Delivers d {s} r false r :=
  .stop hstop (fun _ => .inl rfl) ⟨fun hb => (by cases hb), fun h => absurd h ha⟩
    (fun he => absurd (.inl he) ha) (.inl rfl) fun _ hh => absurd hh.accepts ha

theorem Delivers.written {d : Datum} {r r' : Router} {p : Pos} {dir : Dir}
    (hc : r.grid.get? p = some .empty) (hg : r'.grid = r.grid.set p (.data d))
    (hh : r'.context.halt = r.context.halt) : Delivers d {(p, dir)} r true r' := by
  have hin := Grid.contains_of_get? hc
  have hstop : (r.grid.hop p dir).targets r.grid p = ∅ := by simp only [Grid.hop, hc, Hop.targets]
  refine .stop (not_leads hstop) (fun q => ?_) ⟨fun _ => .inl hc, fun _ => rfl⟩ (fun _ => ?_)
    (.inl hh) fun dump hd => ?_
  · rw [hg, Grid.get?_set hin]
    split
    · next hq => exact .inr ⟨rfl, hq⟩
    · exact .inl rfl
  · rw [hg, Grid.get?_set_self hin]
    simp
  · obtain ⟨op, ho, -⟩ := hd
    rw [hc] at ho
    cases ho

theorem Delivers.erased {d : Datum} {r : Router} {p : Pos} {dir : Dir}
    (hc : r.grid.get? p = some (.pipe .eraser)) : Delivers d {(p, dir)} r true r := by
  have hstop : (r.grid.hop p dir).targets r.grid p = ∅ := by simp only [Grid.hop, hc, Hop.targets]
  refine .stop (not_leads hstop) (fun _ => .inl rfl) ⟨fun _ => .inr (.inl hc), fun _ => rfl⟩
    (fun he => ?_) (.inl rfl) fun dump hd => ?_
  · rw [hc] at he
    cases he
  · obtain ⟨op, ho, -⟩ := hd
    rw [hc] at ho
    cases ho

/-- A sink or a halt operator takes the value; a halt operator asks for a halt unless the value is
    empty. -/
theorem Delivers.taken {d : Datum} {r : Router} {p : Pos} {dir : Dir} {op : Operator}
    (ho : r.grid.get? p = some (.operator op)) (hs : op.code.isSpecial = true)
    (hc : op.code ∈ [.sink, .halt, .haltDump]) :
    Delivers d {(p, dir)} r true (r.adopt (Operator.receive op.code d r.context).2) := by
  have hacc : r.grid.Accepts (p, dir) := .inr (.inr ⟨op, ho, hc⟩)
  have hraise : ∀ dump : Bool, op.code = (if dump then .haltDump else .halt) →
      d.value.isEmpty = false →
      Raised r.grid {(p, dir)} (r.adopt (Operator.receive op.code d r.context).2) := by
    intro dump hd he
    refine ⟨dump, ?_, (p, dir), rfl, op, ho, hd⟩
    rw [hd]
    cases dump <;> simp [adopt, Operator.receive, Operator.haltOn, Context.requestHalt, he]
  refine .stop (fun t ht => ?_) (fun _ => .inl rfl) ⟨fun _ => hacc, fun _ => rfl⟩ (fun he => ?_) ?_
    fun dump hh he => ?_
  · have := Grid.leads_iff.mp ht
    rw [Grid.hop_operator ho hs] at this
    rw [this.1] at hc
    exact absurd hc (by decide)
  · rw [ho] at he
    cases he
  · simp only [List.mem_cons, List.not_mem_nil, or_false] at hc
    cases he : d.value.isEmpty with
    | true =>
      left
      rcases hc with hc | hc | hc <;> simp [hc, adopt, Operator.receive, Operator.haltOn, he]
    | false =>
      rcases hc with hc | hc | hc
      · left
        simp [hc, adopt, Operator.receive]
      · exact .inr ⟨rfl, hraise false hc he⟩
      · exact .inr ⟨rfl, hraise true hc he⟩
  · obtain ⟨op', ho', hc'⟩ := hh
    rw [ho] at ho'
    cases ho'
    exact hraise dump hc' he

theorem not_accepts {g : Grid} {p : Pos} {dir : Dir} (h : (g.hop p dir).ends = false) :
    ¬ g.Accepts (p, dir) := by
  rw [Grid.accepts_iff, h]
  exact Bool.false_ne_true

theorem hop_of_refused {g : Grid} {p : Pos} {dir : Dir}
    (h : ∀ c, g.get? p = some c → c.isEmpty = false ∧ c.isRoutable = false) :
    g.hop p dir = .blocked := by
  cases hg : g.get? p with
  | none => simp only [Grid.hop, hg]
  | some c =>
    obtain ⟨he, hr⟩ := h c hg
    cases c <;> simp_all [Grid.hop, Cell.isEmpty, Cell.isRoutable]

/-- Without tick stamps a special operator either passes a value on or takes it. -/
theorem pass_or_taken {g : Grid} (hu : g.Unstamped) {p : Pos} {op : Operator}
    (ho : g.get? p = some (.operator op)) (hs : op.code.isSpecial = true) :
    op.code = .pass ∨ op.code ∈ [.sink, .halt, .haltDump] := by
  have ht : op.code ≠ .tickStamp := by simpa [Cell.code?] using hu p _ ho
  cases hc : op.code <;> simp_all [Operator.Code.isSpecial]

theorem receive_taken {code : Operator.Code} (hc : code ∈ [.sink, .halt, .haltDump]) (d : Datum)
    (ctx : Context) : (Operator.receive code d ctx).1 = none := by
  simp only [List.mem_cons, List.not_mem_nil, or_false] at hc
  rcases hc with rfl | rfl | rfl <;> rfl

theorem Runs.delivers {t : Task} {r r' : Router} {b : Bool} (h : Runs true t r b r')
    (hu : r.grid.Unstamped) {d : Datum} (hd : t.datum? = some d) :
    Delivers d (t.starts r.grid) r b r' := by
  induction h with
  | loop _ hs => exact .again hs rfl rfl
  | land _ hop =>
    cases hd
    exact .written (Grid.get?_of_land hop) rfl rfl
  | @absorb r _ p dir _ hop =>
    cases Grid.reason_of_hop hop with
    | absorb hc => exact (leave_enter r r.context (p, dir)) ▸ .erased hc
  | @blocked r _ p dir _ hop =>
    refine (leave_enter r r.context (p, dir)) ▸ .refused (not_leads ?_) (not_accepts ?_)
    · rw [hop]; rfl
    · rw [hop]; rfl
  | @onward r _ p dir q e b r' _ hop _ ih =>
    refine .through (not_accepts (by rw [hop]; rfl)) ?_
    have hways : {t | r.grid.Leads (p, dir) t} = {(q, e)} := by
      ext t
      rw [Set.mem_ofPred_eq, Grid.leads_iff, hop]
      rfl
    rw [hways]
    exact ih hu hd
  | @fork r d' p dir e₁ e₂ b₁ b₂ r₁ r₂ _ hop h₁ h₂ ih₁ ih₂ =>
    refine .through (not_accepts (by rw [hop]; rfl)) ?_
    have o₁ := h₁.outcome
    have hways : {t | r.grid.Leads (p, dir) t} =
        (Task.advance d' p e₁).starts (r.enter (p, dir)).grid ∪
          (Task.advance d' p e₂).starts r₁.grid := by
      ext t
      rw [Set.mem_ofPred_eq, Grid.leads_iff, hop]
      simp only [Hop.targets, Task.starts, Set.mem_union, Set.mem_ofPred_eq, o₁.fills.step?,
        grid_enter]
      constructor
      · rintro ⟨he | he, hq⟩
        · exact .inl ⟨he, he ▸ hq⟩
        · exact .inr ⟨he, he ▸ hq⟩
      · rintro (⟨he, hq⟩ | ⟨he, hq⟩)
        · exact ⟨.inl he, he ▸ hq⟩
        · exact ⟨.inr he, he ▸ hq⟩
    rw [hways]
    exact (ih₁ hu hd).seq o₁ (ih₂ (o₁.fills.unstamped hu) hd) h₂.outcome
  | @deliver r d' p dir code q b r' _ hop hq below ih =>
    cases hd
    cases Grid.reason_of_hop hop with
    | @deliver op ho hs =>
      rcases pass_or_taken hu ho hs with hc | hc
      · refine .through (not_accepts (by rw [hop, hc]; rfl)) ?_
        have hways : {t | r.grid.Leads (p, dir) t} = {(q, .down)} := by
          ext t
          rw [Set.mem_ofPred_eq, Grid.leads_iff, hop, hc]
          simp [Hop.targets, hq, Prod.ext_iff, and_comm, eq_comm]
        rw [hways]
        rw [hc] at ih
        exact ih hu rfl
      · rw [receive_taken hc] at below
        cases below
        exact (leave_enter r _ (p, dir)) ▸ .taken ho hs hc
  | @deliverOff r d' p dir code _ hop hq =>
    cases hd
    rw [leave_enter]
    cases Grid.reason_of_hop hop with
    | @deliver op ho hs =>
      rcases pass_or_taken hu ho hs with hc | hc
      · rw [hc]
        refine .refused (not_leads ?_) (not_accepts ?_)
        · rw [hop, hc]
          simp [Hop.targets, hq]
        · rw [hop, hc]; rfl
      · rw [receive_taken hc]
        exact .taken ho hs hc
  | @off r _ p dir hq =>
    have hnone : (Task.advance d p dir).starts r.grid = ∅ := by simp [Task.starts, hq]
    cases hd
    exact hnone ▸ .nowhere r
  | @on r _ p dir q b r' hq _ ih =>
    have hone : (Task.advance d p dir).starts r.grid = {(q, dir)} := by
      ext t
      simp [Task.starts, hq, Prod.ext_iff, and_comm, eq_comm]
    cases hd
    exact hone ▸ ih hu rfl
  | nothing => cases hd
  | put hc =>
    cases hd
    exact .written hc rfl rfl
  | carry _ _ _ ih => exact ih hu hd
  | @refuse r _ p dir hc =>
    have hop : r.grid.hop p dir = .blocked := hop_of_refused hc
    cases hd
    exact .refused (not_leads (by rw [hop]; rfl)) (not_accepts (by rw [hop]; rfl))

/-! ## Placing a value -/

theorem within_singleton (g : Grid) (s : Pos × Dir) : within g {s} = g.reachable s := by
  ext t
  simp [within, Grid.reachable]

/-- With nothing on the trail the two bounds are one. -/
theorem clear_singleton {r : Router} (hr : r.trail = []) (s : Pos × Dir) :
    r.clear {s} = r.grid.reachable s := by
  have havoid : r.grid.Avoids [] = r.grid.Leads := by
    funext a b
    simp [Grid.Avoids]
  ext t
  simp [clear, Grid.reachable, hr, havoid]

/-- The empty places that a value can come to from `s` on. -/
def landings (g : Grid) (s : Pos × Dir) : Set Pos :=
  {p | g.get? p = some .empty ∧ ∃ e, (p, e) ∈ g.reachable s}

namespace Delivers

variable {d : Datum} {r r' : Router} {b : Bool} {s : Pos × Dir} (h : Delivers d {s} r b r')
  (ho : Outcome r b r') (hr : r.trail = [])

include h hr in
theorem get?_landing {p : Pos} (hp : p ∈ landings r.grid s) : r'.grid.get? p = some (.data d) := by
  obtain ⟨he, e, hs⟩ := hp
  rcases h.landed p with hsame | ⟨hdata, -⟩
  · have hclear : (p, e) ∈ r.clear {s} := by rwa [clear_singleton hr]
    exact absurd (hsame.trans he) (h.lands _ hclear he)
  · exact hdata

include h ho in
theorem get?_elsewhere {p : Pos} (hp : p ∉ landings r.grid s) :
    r'.grid.get? p = r.grid.get? p := by
  rcases h.landed p with hsame | ⟨-, e, hs⟩
  · exact hsame
  · rw [within_singleton] at hs
    rcases ho.fills.cell p with hsame | ⟨he, -⟩
    · exact hsame
    · exact absurd ⟨he, e, hs⟩ hp

include h ho hr in
theorem writes_eq : r'.writes = r.writes + (landings r.grid s).ncard := by
  have hvacant : r'.grid.vacant = r.grid.vacant \ landings r.grid s := by
    ext p
    by_cases hp : p ∈ landings r.grid s
    · simp [Grid.vacant, h.get?_landing hr hp, hp]
    · simp [Grid.vacant, h.get?_elsewhere ho hp, hp]
  have hsub : landings r.grid s ⊆ r.grid.vacant := fun _ hp => hp.1
  have hcard := Set.ncard_sdiff_add_ncard_of_subset hsub r.grid.finite_vacant
  have hcount := ho.count
  rw [← hvacant] at hcard
  omega

include h hr in
theorem answer_iff : b = true ↔ ∃ t ∈ r.grid.reachable s, r.grid.Accepts t := by
  constructor
  · intro hb
    have := h.accepted hb
    rwa [within_singleton] at this
  · rintro ⟨t, ht, ha⟩
    exact h.accepts t (by rwa [clear_singleton hr]) ha

include h hr in
theorem halt_raised (he : d.value.isEmpty = false) {t : Pos × Dir} {dump : Bool}
    (ht : t ∈ r.grid.reachable s) (hh : r.grid.HaltsAt t dump) :
    ∃ u ∈ r.grid.reachable s, ∃ dump, r.grid.HaltsAt u dump ∧ r'.context.halt = some ⟨dump⟩ := by
  obtain ⟨dump', hhalt, u, hu, hat⟩ := h.halts t (by rwa [clear_singleton hr]) dump hh he
  rw [within_singleton] at hu
  exact ⟨u, hu, dump', hat, hhalt⟩

include h in
theorem halt_kept (hn : ¬ (d.value.isEmpty = false ∧
    ∃ t ∈ r.grid.reachable s, ∃ dump, r.grid.HaltsAt t dump)) :
    r'.context.halt = r.context.halt := by
  rcases h.halted with hsame | ⟨he, dump, -, t, ht, hh⟩
  · exact hsame
  · rw [within_singleton] at ht
    exact absurd ⟨he, t, ht, dump, hh⟩ hn

end Delivers

/-- Placing a value on a grid without tick stamps. Let `R` be the states that can be reached from
    the target. Exactly the empty cells in `R` get the value, each by one write; the placement
    succeeds if and only if `R` has an empty cell, an eraser, a sink or a halt operator; and a halt
    is asked for if and only if `R` has a halt operator and the value is not empty. -/
theorem place_reaches (g : Grid) (hu : g.Unstamped) (ctx : Context) (w : Nat) (d : Datum)
    (target : Pos) (dir : Dir) :
    let R := g.reachable (target, dir)
    let L := {p | g.get? p = some .empty ∧ ∃ e, (p, e) ∈ R}
    let halts := d.value.isEmpty = false ∧ ∃ s ∈ R, ∃ dump, g.HaltsAt s dump
    let placed := place { grid := g, context := ctx, writes := w } (some d) target dir false
    (placed.2.grid.width = g.width ∧ placed.2.grid.height = g.height) ∧
      (∀ p ∈ L, placed.2.grid.get? p = some (.data d)) ∧
      (∀ p ∉ L, placed.2.grid.get? p = g.get? p) ∧
      placed.2.writes = w + L.ncard ∧
      (placed.1 = true ↔ ∃ s ∈ R, g.Accepts s) ∧
      (halts → ∃ s ∈ R, ∃ dump, g.HaltsAt s dump ∧ placed.2.context.halt = some ⟨dump⟩) ∧
      (¬ halts → placed.2.context.halt = ctx.halt) := by
  intro R L halts placed
  have hrun := place_runs (Tracked.nil (r := { grid := g, context := ctx, writes := w }) rfl)
    (some d) target dir
  have ho := hrun.outcome
  have hd : Delivers d {(target, dir)} _ _ _ := hrun.delivers hu rfl
  refine ⟨⟨ho.fills.width, ho.fills.height⟩, fun p hp => hd.get?_landing rfl hp,
    fun p hp => hd.get?_elsewhere ho hp, hd.writes_eq ho rfl, hd.answer_iff rfl, ?_, hd.halt_kept⟩
  rintro ⟨he, s, hs, dump, hh⟩
  exact hd.halt_raised rfl he hs hh

/-- A duplicator between two empty cells. -/
def forked : Grid :=
  ⟨5, 3,
    #[.border, .border, .border, .border, .border,
      .border, .empty, .pipe .duplicator, .empty, .border,
      .border, .border, .border, .border, .border], rfl⟩

/-- A value that falls into the duplicator lands on both sides of it. -/
theorem place_reaches_forked :
    forked.Unstamped ∧
      let placed := place { grid := forked, context := ⟨{}, ⟨0⟩, 0, none, #[]⟩ } (some (.number 7))
        ⟨2, 1⟩ .down false
      placed.1 = true ∧ placed.2.grid.get? ⟨1, 1⟩ = some (.data (.number 7)) ∧
        placed.2.grid.get? ⟨3, 1⟩ = some (.data (.number 7)) := by
  have hu : forked.Unstamped := by decide
  have left : forked.Leads (⟨2, 1⟩, .down) (⟨1, 1⟩, .left) := .fork rfl (by decide) rfl
  have right : forked.Leads (⟨2, 1⟩, .down) (⟨3, 1⟩, .right) := .fork rfl (by decide) rfl
  obtain ⟨-, hland, -, -, hplaced, -⟩ :=
    place_reaches forked hu ⟨{}, ⟨0⟩, 0, none, #[]⟩ 0 (.number 7) ⟨2, 1⟩ .down
  exact ⟨hu, hplaced.mpr ⟨_, .single left, .inl rfl⟩, hland _ ⟨rfl, _, .single left⟩,
    hland _ ⟨rfl, _, .single right⟩⟩

end Router

end Gridfall
