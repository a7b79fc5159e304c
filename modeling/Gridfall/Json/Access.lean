/-
  Taking JSON values apart.

  A record may stand as an object, with any number of further fields and every field of the
  record at most once, or as an array of its fields in order. A value with cases names its case
  by a text, or by an object whose only field is named for the case.
-/
import Gridfall.Json.Basic

namespace Gridfall.Json

/-- The truth value. -/
def bool? : Json → Option Bool
  | bool b => some b
  | _ => none

/-- The text. -/
def text? : Json → Option String
  | text s => s
  | _ => none

/-- The items of an array. -/
def items? : Json → Option (List Json)
  | array items => some items
  | _ => none

/-- A 64-bit unsigned integer. -/
def word? : Json → Option UInt64
  | integer z => if 0 ≤ z && z < UInt64.size then some z.toNat.toUInt64 else none
  | _ => none

/-- A 64-bit signed integer. -/
def signed? : Json → Option Int64
  | integer z =>
    if -0x8000000000000000 ≤ z && z < 0x8000000000000000 then some (Int64.ofInt z) else none
  | _ => none

/-- The value of the field `name`; no answer if it is repeated. -/
def field? (fields : List (Option String × Json)) (name : String) : Option (Option Json) :=
  match fields.filter fun f => f.1 == some name with
  | [] => some none
  | [f] => some (some f.2)
  | _ => none

/-- The named fields of a record, each of them if it is there. -/
def fields? (names : List String) : Json → Option (List (Option Json))
  | object fields => if fields.all fun f => f.1.isSome then names.mapM (field? fields) else none
  | array items =>
    if items.length ≤ names.length then
      some (items.map some ++ List.replicate (names.length - items.length) none)
    else none
  | _ => none

/-- The name of a case and what comes with it. -/
def case? : Json → Option (String × Json)
  | text s => s.map fun s => (s, null)
  | object [(some name, v)] => some (name, v)
  | _ => none

end Gridfall.Json
