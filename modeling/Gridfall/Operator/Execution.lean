/-
  Running an operator whose signature has been chosen.

  * `runJoint`: an operator on all four neighbours; at most one value for each side.
  * `runPair`: an operator on a pair of cells; a value toward the first and one toward the second.
  * `receive`: a value that reaches a special operator through a pipe; what goes on below it.
-/
import Gridfall.Context
import Gridfall.Operator.Compute

namespace Gridfall

/-- What an operator on a pair of cells emits. -/
structure PairEmission where
  /-- Toward the first cell, up or left. -/
  back : Option Datum := none
  /-- Toward the second cell, down or right. -/
  ahead : Option Datum := none
  deriving DecidableEq

/-- What an operator on four neighbours emits. -/
abbrev Emission := Sides (Option Datum)

namespace Emission

/-- Nothing on any side. -/
def nothing : Emission := ⟨none, none, none, none⟩

/-- One value, below. -/
def below (d : Datum) : Emission := ⟨none, none, none, some d⟩

/-- Two texts, the first below and the second to the right. -/
def parts (ps : List Char × List Char) : Emission :=
  ⟨none, none, some (.chars ps.2), some (.chars ps.1)⟩

end Emission

namespace Operator

open Gridfall.Text

/-- The value of a neighbour, the nothing value if it has none. -/
def valueOf (d : Option Datum) : Value :=
  match d with
  | some d => d.value
  | none => .none

/-- Copies of the neighbours to which entry `index` of the redirection table sends one back: the
    upper copy drifts the other way, the side copies drift to their own side. -/
def redirected (index : Nat) (near : Sides (Option Datum)) : Emission :=
  match Signature.redirection[index]? with
  | none => .nothing
  | some s =>
    let copy (k : KindSet) (d : Option Datum) (drift : Drift → Drift) : Option Datum :=
      if k.isEmpty then none else d.map fun d => { d with drift := drift d.drift }
    ⟨copy s.yields.up near.up Drift.flip, copy s.yields.left near.left fun _ => .left,
      copy s.yields.right near.right fun _ => .right, none⟩

/-- Asks for a halt when the value is not empty. -/
def haltOn (v : Value) (dump : Bool) (ctx : Context) : Context :=
  if v.isEmpty then ctx else ctx.requestHalt dump

/-- Runs entry `index` of the signature table of a code on four neighbours. -/
def runJoint (code : Code) (index : Nat) (near : Sides (Option Datum)) (ctx : Context) :
    Except Fault Emission × Context :=
  let up := valueOf near.up
  let left := valueOf near.left
  let right := valueOf near.right
  let ops := operands index up left right
  let number (n : Number) : Emission := .below (.number n)
  let text (s : String) : Emission := .below (.text s)
  match code with
  | .writeText =>
    match index with
    | 0 => let (token, ctx) := ctx.readToken; (.ok .nothing, ctx.write token)
    | 1 => (.ok .nothing, ctx.write up.asText)
    | _ => let (token, ctx) := ctx.readToken; (.ok (text token), ctx)
  | .writeNumber =>
    match index with
    | 0 => let (n, ctx) := ctx.readNumber; (.ok .nothing, ctx.writeNumber n)
    | 1 => (.ok .nothing, ctx.write up.asText)
    | _ => let (n, ctx) := ctx.readNumber; (.ok (number n), ctx)
  | .redirect => (.ok (redirected index near), ctx)
  | .add =>
    (.ok (if index % 2 == 0 then number (sum ops) else text (concatenation ops)), ctx)
  | .subtract =>
    (.ok (if index % 2 == 0 then number (difference ops)
      else .below (.chars (textDifference ops))), ctx)
  | .multiply =>
    (if index % 2 == 0 then .ok (number (product ops)) else (repetition ops).map text, ctx)
  | .divide =>
    (match index with
      | 0 => do
        let q ← quotient up.asNumber left.asNumber
        let q ← quotient q right.asNumber
        return number q
      | 1 => (quotient up.asNumber left.asNumber).map number
      | 2 => (quotient up.asNumber right.asNumber).map number
      | 3 => (quotient left.asNumber right.asNumber).map number
      | 4 => .ok (.parts (cut left.asNumber.toInt up.asText.toList))
      | _ => .ok (.parts (split left.asText.toList up.asText.toList)), ctx)
  | .remainder =>
    (match index with
      | 0 => do
        let r ← remainder up.asNumber left.asNumber
        let r ← remainder r right.asNumber
        return number r
      | 1 =>
        .ok (.below (.chars
          (replaceAll left.asText.toList right.asText.toList up.asText.toList)))
      | 2 => (remainder up.asNumber left.asNumber).map number
      | 3 => (remainder up.asNumber right.asNumber).map number
      | _ => (remainder left.asNumber right.asNumber).map number, ctx)
  | .factor =>
    (.ok (number (match index with
      | 0 => Number.gcd up.asNumber left.asNumber
      | _ => placeOf left.asText.toList up.asText.toList)), ctx)
  | .equal =>
    (.ok (.below (.bool (match index with
      | 0 => up == left && up == right
      | 1 => up == left
      | 2 => up == right
      | _ => left == right))), ctx)
  | .greater =>
    (.ok (.below (.bool (if index % 2 == 0 then decreasing ops else textDecreasing ops))), ctx)
  | .pass => (.ok ⟨none, none, none, near.up⟩, ctx)
  | .tickStamp => (.ok (if up.isEmpty then .nothing else number ctx.tickNumber), ctx)
  | .halt => (.ok .nothing, haltOn up false ctx)
  | .haltDump => (.ok .nothing, haltOn up true ctx)
  | .swap | .lower | .upper | .prime | .reverse | .not | .random | .convert | .sink =>
    (.ok .nothing, ctx)

/-- One character of a text, drawn at random; the empty text stays empty. -/
def randomChar (s : List Char) (ctx : Context) : List Char × Context :=
  if s.isEmpty then ([], ctx)
  else
    let (r, ctx) := ctx.random (Int64.ofNat s.length)
    (s[r.toInt.toNat]?.toList, ctx)

/-- Runs entry `index` of the signature table of a code on a pair of cells. -/
def runPair (code : Code) (index : Nat) (first second : Option Datum) (ctx : Context) :
    Except Fault PairEmission × Context :=
  let value := valueOf first
  let ahead (d : Datum) : PairEmission := ⟨none, some d⟩
  let number (n : Number) : PairEmission := ahead (.number n)
  match code with
  | .swap => (.ok ⟨second, first⟩, ctx)
  | .lower =>
    (.ok (match value with
      | .text s => ahead (.chars (s.toList.map Char.toLower))
      | v => number v.asNumber.abs), ctx)
  | .upper =>
    (.ok (match value with
      | .text s => ahead (.chars (s.toList.map Char.toUpper))
      | v => number v.asNumber.sign), ctx)
  | .prime =>
    (.ok (match value with
      | .text s => number (Int64.ofNat s.toList.length)
      | v => ahead (.bool v.asNumber.isPrime)), ctx)
  | .reverse =>
    (.ok (match value with
      | .text s => ahead (.chars s.toList.reverse)
      | v => number v.asNumber.reverseDigits), ctx)
  | .not => (.ok (ahead (.bool value.isEmpty)), ctx)
  | .random =>
    match value with
    | .text s => let (cs, ctx) := randomChar s.toList ctx; (.ok (ahead (.chars cs)), ctx)
    | v => let (n, ctx) := ctx.random v.asNumber; (.ok (number n), ctx)
  | .convert =>
    (match index, value with
      | 0, v => .ok (ahead (.text v.asNumber.text))
      | 1, .text s =>
        match Number.ofText? s with
        | some n => .ok (number n)
        | none => .error (.notANumber s)
      | 2, _ => .ok (ahead (.fresh .output))
      | 3, _ => .ok (ahead (.fresh .input))
      | _, _ => .ok {}, ctx)
  | .writeText | .writeNumber | .redirect | .add | .subtract | .multiply | .divide | .remainder
  | .factor | .equal | .greater | .pass | .sink | .tickStamp | .halt | .haltDump => (.ok {}, ctx)

/-- Hands a value from a pipe to a special operator; the result goes on below the operator. -/
def receive (code : Code) (d : Datum) (ctx : Context) : Option Datum × Context :=
  match code with
  | .pass => (some d, ctx)
  | .tickStamp => (if d.value.isEmpty then none else some (.number ctx.tickNumber), ctx)
  | .halt => (none, haltOn d.value false ctx)
  | .haltDump => (none, haltOn d.value true ctx)
  | _ => (none, ctx)

end Operator

end Gridfall
