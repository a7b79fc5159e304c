/-
  Computations in two contexts. An operator can do six things with its context: read a token, read a
  number, write, draw a random number, ask for a halt, and look at the tick.

  `Context.Kept reads draws R` says that the relation `R` between two contexts survives each of
  these, and that both sides get the same answer. Reading is included if `reads`, and drawing if
  `draws`. An operator that runs in two related contexts then gives the same result in both and
  leaves them related (`runJoint_alike`, `runPair_alike`, `receive_alike`), as long as it neither
  reads nor draws where that is not included. There is one such lemma for each way of running an
  operator; what is compared is chosen by `R`.
-/
import Gridfall.Operator.Execution

namespace Gridfall

namespace Context

/-! ## The parts of a context -/

theorem tickNumber_congr {a b : Context} (h : b.tick = a.tick) : b.tickNumber = a.tickNumber := by
  unfold tickNumber
  rw [h]

/-- The log with a trouble of the console, if there is one. -/
def troubled (log : Array Event) : Option Console.Trouble → Array Event
  | some t => log.push (.console t)
  | none => log

theorem noteTrouble_eq (ctx : Context) (t : Option Console.Trouble) :
    ctx.noteTrouble t = { ctx with log := troubled ctx.log t } := by
  cases t <;> rfl

theorem write_eq (ctx : Context) (s : String) :
    ctx.write s =
      { ctx with
        console := (ctx.console.write s).1
        log := troubled ctx.log (ctx.console.write s).2 } := by
  unfold write
  exact noteTrouble_eq _ _

theorem readToken_eq (ctx : Context) :
    ctx.readToken =
      (ctx.console.readToken.1,
        { ctx with
          console := ctx.console.readToken.2.1
          log := troubled ctx.log ctx.console.readToken.2.2 }) := by
  unfold readToken
  exact congrArg (Prod.mk _) (noteTrouble_eq _ _)

theorem readNumber_eq (ctx : Context) :
    ctx.readNumber =
      (ctx.console.readNumber.1,
        { ctx with
          console := ctx.console.readNumber.2.1
          log := troubled ctx.log ctx.console.readNumber.2.2 }) := by
  unfold readNumber
  exact congrArg (Prod.mk _) (noteTrouble_eq _ _)

theorem random_eq (ctx : Context) (n : Number) :
    ctx.random n =
      ((ctx.generator.random n).1, { ctx with generator := (ctx.generator.random n).2 }) := rfl

/-! ## Relations that operators keep -/

/-- The same answer, and related contexts after it. -/
structure Alike {α : Type} (R : Context → Context → Prop) (x y : α × Context) : Prop where
  answer : y.1 = x.1
  context : R x.2 y.2

/-- Everything that an operator can do with its context keeps the relation. -/
structure Kept (reads draws : Bool) (R : Context → Context → Prop) : Prop where
  tick : ∀ {a b : Context}, R a b → b.tick = a.tick
  note : ∀ {a b : Context} (e : Event), R a b → R (a.note e) (b.note e)
  halt : ∀ {a b : Context} (dump : Bool), R a b → R (a.requestHalt dump) (b.requestHalt dump)
  write : ∀ {a b : Context} (s : String), R a b → R (a.write s) (b.write s)
  token : reads = true → ∀ {a b : Context}, R a b → Alike R a.readToken b.readToken
  number : reads = true → ∀ {a b : Context}, R a b → Alike R a.readNumber b.readNumber
  random : draws = true → ∀ {a b : Context} (n : Number), R a b → Alike R (a.random n) (b.random n)

/-- The same console, generator and tick. Requests to halt and logs may differ. -/
structure SameServices (a b : Context) : Prop where
  console : b.console = a.console
  generator : b.generator = a.generator
  tick : b.tick = a.tick

theorem SameServices.refl (ctx : Context) : SameServices ctx ctx := ⟨rfl, rfl, rfl⟩

theorem SameServices.trans {a b c : Context} (h₁ : SameServices a b) (h₂ : SameServices b c) :
    SameServices a c :=
  ⟨h₂.console.trans h₁.console, h₂.generator.trans h₁.generator, h₂.tick.trans h₁.tick⟩

theorem SameServices.symm {a b : Context} (h : SameServices a b) : SameServices b a :=
  ⟨h.console.symm, h.generator.symm, h.tick.symm⟩

/-- Everything that operators do can be done with the services alone. -/
theorem kept_sameServices : Kept true true SameServices where
  tick h := h.tick
  note _ h := ⟨h.console, h.generator, h.tick⟩
  halt _ h := ⟨h.console, h.generator, h.tick⟩
  write {a b} s h := by
    rw [write_eq, write_eq, h.console]
    exact ⟨rfl, h.generator, h.tick⟩
  token _ {a b} h := by
    rw [readToken_eq, readToken_eq, h.console]
    exact ⟨rfl, rfl, h.generator, h.tick⟩
  number _ {a b} h := by
    rw [readNumber_eq, readNumber_eq, h.console]
    exact ⟨rfl, rfl, h.generator, h.tick⟩
  random _ {a b} n h := by
    rw [random_eq, random_eq, h.generator]
    exact ⟨rfl, h.console, rfl, h.tick⟩

/-- All but the log is the same. -/
structure SameButLog (a b : Context) : Prop extends SameServices a b where
  halt : b.halt = a.halt

/-- Requests to halt are made by operators alone, and none of the services changes them. -/
theorem kept_sameButLog : Kept true true SameButLog where
  tick h := h.tick
  note e h := ⟨kept_sameServices.note e h.toSameServices, h.halt⟩
  halt dump h := ⟨kept_sameServices.halt dump h.toSameServices, rfl⟩
  write {a b} s h := by
    refine ⟨kept_sameServices.write s h.toSameServices, ?_⟩
    rw [write_eq, write_eq]
    exact h.halt
  token _ {a b} h := by
    obtain ⟨hanswer, hnext⟩ := kept_sameServices.token rfl h.toSameServices
    refine ⟨hanswer, hnext, ?_⟩
    rw [readToken_eq, readToken_eq]
    exact h.halt
  number _ {a b} h := by
    obtain ⟨hanswer, hnext⟩ := kept_sameServices.number rfl h.toSameServices
    refine ⟨hanswer, hnext, ?_⟩
    rw [readNumber_eq, readNumber_eq]
    exact h.halt
  random _ {a b} n h := by
    obtain ⟨hanswer, hnext⟩ := kept_sameServices.random rfl n h.toSameServices
    exact ⟨hanswer, hnext, h.halt⟩

end Context

namespace Operator

open Context (Alike Kept)

/-- Codes that read from the console. -/
def Code.reads : Code → Bool
  | writeText | writeNumber => true
  | _ => false

/-- Codes that draw from the generator. -/
def Code.draws : Code → Bool
  | random => true
  | _ => false

variable {reads draws : Bool} {R : Context → Context → Prop} {a b : Context}

theorem haltOn_related (hR : Kept reads draws R) (v : Value) (dump : Bool) (h : R a b) :
    R (haltOn v dump a) (haltOn v dump b) := by
  unfold haltOn
  split
  · exact h
  · exact hR.halt dump h

theorem runJoint_alike (hR : Kept reads draws R) {code : Code}
    (hreads : code.reads = true → reads = true) (index : Nat) (near : Sides (Option Datum))
    (h : R a b) : Alike R (runJoint code index near a) (runJoint code index near b) := by
  cases code with
  | writeText =>
    have hread := hR.token (hreads rfl) h
    simp only [runJoint]
    generalize a.readToken = x at hread
    generalize b.readToken = y at hread
    obtain ⟨_, a'⟩ := x
    obtain ⟨token, b'⟩ := y
    obtain ⟨rfl, hnext⟩ := hread
    rcases index with _ | _ | index
    · exact ⟨rfl, hR.write token hnext⟩
    · exact ⟨rfl, hR.write _ h⟩
    · exact ⟨rfl, hnext⟩
  | writeNumber =>
    have hread := hR.number (hreads rfl) h
    simp only [runJoint]
    generalize a.readNumber = x at hread
    generalize b.readNumber = y at hread
    obtain ⟨_, a'⟩ := x
    obtain ⟨n, b'⟩ := y
    obtain ⟨rfl, hnext⟩ := hread
    rcases index with _ | _ | index
    · exact ⟨rfl, hR.write n.text hnext⟩
    · exact ⟨rfl, hR.write _ h⟩
    · exact ⟨rfl, hnext⟩
  | tickStamp =>
    refine ⟨?_, h⟩
    simp only [runJoint, Context.tickNumber_congr (hR.tick h)]
  | halt => exact ⟨rfl, haltOn_related hR _ false h⟩
  | haltDump => exact ⟨rfl, haltOn_related hR _ true h⟩
  | _ => exact ⟨rfl, h⟩

theorem randomChar_alike (hR : Kept reads draws R) (hdraws : draws = true) (s : List Char)
    (h : R a b) : Alike R (randomChar s a) (randomChar s b) := by
  unfold randomChar
  split
  · exact ⟨rfl, h⟩
  · obtain ⟨hdrawn, hnext⟩ := hR.random hdraws (Int64.ofNat s.length) h
    refine ⟨?_, hnext⟩
    dsimp only
    rw [hdrawn]

theorem runPair_alike (hR : Kept reads draws R) {code : Code}
    (hdraws : code.draws = true → draws = true) (index : Nat) (first second : Option Datum)
    (h : R a b) :
    Alike R (runPair code index first second a) (runPair code index first second b) := by
  cases code with
  | random =>
    simp only [runPair]
    split
    · next s _ =>
      obtain ⟨hdrawn, hnext⟩ := randomChar_alike hR (hdraws rfl) s.toList h
      refine ⟨?_, hnext⟩
      dsimp only
      rw [hdrawn]
    · obtain ⟨hdrawn, hnext⟩ := hR.random (hdraws rfl) (valueOf first).asNumber h
      refine ⟨?_, hnext⟩
      dsimp only
      rw [hdrawn]
  | _ => exact ⟨rfl, h⟩

theorem receive_alike (hR : Kept reads draws R) (code : Code) (d : Datum) (h : R a b) :
    Alike R (receive code d a) (receive code d b) := by
  cases code with
  | tickStamp =>
    refine ⟨?_, h⟩
    simp only [receive, Context.tickNumber_congr (hR.tick h)]
  | halt => exact ⟨rfl, haltOn_related hR _ false h⟩
  | haltDump => exact ⟨rfl, haltOn_related hR _ true h⟩
  | _ => exact ⟨rfl, h⟩

end Operator

end Gridfall
