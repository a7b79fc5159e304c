/-
  JSON values and how they are written: compactly, with fields in the given order.

  Objects keep every field, repeated names included. A text read from JSON may name half of a
  surrogate pair; it then stands for no text, and is kept as `none`.
-/
import Gridfall.Text.Decimal

namespace Gridfall

/-- A JSON value. -/
inductive Json where
  | null
  | bool (b : Bool)
  /-- A number without fraction and exponent. -/
  | integer (z : Int)
  /-- Any other number, as it is written. -/
  | real (written : List Char)
  | text (s : Option String)
  | array (items : List Json)
  | object (fields : List (Option String × Json))

namespace Json

/-- A text. -/
def ofString (s : String) : Json := text (some s)

/-- A natural number. -/
def ofNat (n : Nat) : Json := integer n

/-- An object from named fields. -/
def ofFields (fields : List (String × Json)) : Json := object (fields.map fun f => (some f.1, f.2))

/-- An object with one field, which names the case of a value. -/
def tagged (tag : String) (v : Json) : Json := ofFields [(tag, v)]

/-- A digit of a character code. -/
def hexDigit (n : Nat) : Char := Nat.digitChar n

/-- How a character is written inside quotes. -/
def escape (c : Char) : List Char :=
  match c with
  | '"' => ['\\', '"']
  | '\\' => ['\\', '\\']
  | '\x08' => ['\\', 'b']
  | '\x0c' => ['\\', 'f']
  | '\n' => ['\\', 'n']
  | '\r' => ['\\', 'r']
  | '\t' => ['\\', 't']
  | c =>
    if c.toNat < 0x20 then ['\\', 'u', '0', '0', hexDigit (c.toNat / 16), hexDigit (c.toNat % 16)]
    else [c]

/-- A text in quotes. -/
def quote (s : String) : String := "\"" ++ String.ofList (s.toList.flatMap escape) ++ "\""

mutual

/-- The compact text of a value. -/
def render : Json → String
  | null => "null"
  | bool b => if b then "true" else "false"
  | integer z => Text.Decimal.ofInt z
  | real written => String.ofList written
  | text s => quote (s.getD "")
  | array items => "[" ++ String.intercalate "," (renderItems items) ++ "]"
  | object fields => "\x7b" ++ String.intercalate "," (renderFields fields) ++ "\x7d"

/-- The texts of the items of an array. -/
def renderItems : List Json → List String
  | [] => []
  | v :: vs => render v :: renderItems vs

/-- The texts of the fields of an object. -/
def renderFields : List (Option String × Json) → List String
  | [] => []
  | (name, v) :: fs => (quote (name.getD "") ++ ":" ++ render v) :: renderFields fs

end

end Json

end Gridfall
