/-
  TOML values, and how the lines of a document build its tables.

  A table is defined once: by a header, inside a value, or piece by piece through dotted keys. A
  header also implies the tables on the way to it, and such a table may still get a header of its
  own. `insert` and `within` refuse every other mixture and every repeated key.
-/

namespace Gridfall

/-- How a table came about. -/
inductive Toml.Form where
  /-- By a header of its own, or as the document itself. -/
  | header
  /-- On the way to a header. -/
  | implied
  /-- By dotted keys. -/
  | dotted
  /-- As a value. -/
  | inline
  deriving DecidableEq

/-- A TOML value. -/
inductive Toml where
  | text (s : String)
  | integer (z : Int)
  | bool (b : Bool)
  /-- A number with fraction or exponent. -/
  | real
  /-- A date, a time, or both. -/
  | moment
  | array (items : List Toml)
  /-- Tables under headers in double brackets. -/
  | tables (items : List Toml)
  | table (form : Toml.Form) (entries : List (String × Toml))

namespace Toml

/-- The entries of a table, in order. -/
abbrev Entries := List (String × Toml)

/-- The value under a key. -/
def lookup (es : Entries) (key : String) : Option Toml :=
  (es.find? fun e => e.1 == key).map Prod.snd

/-- Puts a value in place of the one under a key. -/
def replace (es : Entries) (key : String) (v : Toml) : Entries :=
  es.map fun e => if e.1 == key then (key, v) else e

/-- Takes out a key. -/
def remove (es : Entries) (key : String) : Entries := es.filter fun e => e.1 != key

/-- Inserts a value under a dotted key, given as its first parts and its last one. -/
def insert (key : String) (v : Toml) : List String → Entries → Option Entries
  | [], es => if (lookup es key).isSome then none else some (es ++ [(key, v)])
  | k :: ks, es =>
    match lookup es k with
    | none => (insert key v ks []).map fun sub => es ++ [(k, .table .dotted sub)]
    | some (.table .dotted sub) =>
      (insert key v ks sub).map fun sub => replace es k (.table .dotted sub)
    | some (.table .implied sub) =>
      if ks.isEmpty then none
      else (insert key v ks sub).map fun sub => replace es k (.table .implied sub)
    | some (.tables items) =>
      if ks.isEmpty then none
      else
        match items.getLast? with
        | some (.table form sub) =>
          (insert key v ks sub).map fun sub =>
            replace es k (.tables (items.dropLast ++ [.table form sub]))
        | _ => none
    | some _ => none

/-- Changes the table at the path of a header, and implies the tables on the way. -/
def within {β : Type} (f : Entries → Option (Entries × β)) :
    List String → Entries → Option (Entries × β)
  | [], es => f es
  | k :: ks, es =>
    match lookup es k with
    | none => (within f ks []).map fun (sub, b) => (es ++ [(k, .table .implied sub)], b)
    | some (.table .inline _) => none
    | some (.table form sub) =>
      (within f ks sub).map fun (sub, b) => (replace es k (.table form sub), b)
    | some (.tables items) =>
      match items.getLast? with
      | some (.table form sub) =>
        (within f ks sub).map fun (sub, b) =>
          (replace es k (.tables (items.dropLast ++ [.table form sub])), b)
      | _ => none
    | some _ => none

/-- A document on its way: the table under the latest header stands apart. -/
structure Draft where
  root : Entries := []
  /-- The entries under the latest header. -/
  current : Entries := []
  /-- The path of the latest header, with its last key apart; none before the first header. -/
  path : Option (List String × String) := none
  /-- Whether the latest header has double brackets. -/
  repeated : Bool := false

namespace Draft

/-- Puts the table under the latest header in its place. -/
def close (d : Draft) : Option Entries :=
  match d.path with
  | none => some d.current
  | some (parents, key) =>
    let here := Toml.table .header d.current
    let place (es : Entries) : Option (Entries × Unit) :=
      match lookup es key with
      | none => some (es ++ [(key, here)], ())
      | some (.tables items) =>
        if d.repeated then some (replace es key (.tables (items ++ [here])), ()) else none
      | some _ => none
    (within place parents d.root).map Prod.fst

/-- Starts a table. Only a table that was implied so far may be started again. -/
def startTable (d : Draft) (parents : List String) (key : String) : Option Draft := do
  let root ← d.close
  let start (es : Entries) : Option (Entries × Entries) :=
    match lookup es key with
    | none => some (es, [])
    | some (.table .implied sub) => some (remove es key, sub)
    | some _ => none
  let (root, current) ← within start parents root
  return { root, current, path := some (parents, key) }

/-- Starts the next table of an array of tables. -/
def startRepeated (d : Draft) (parents : List String) (key : String) : Option Draft := do
  let root ← d.close
  let start (es : Entries) : Option (Entries × Unit) :=
    match lookup es key with
    | none => some (es ++ [(key, .tables [])], ())
    | some (.tables _) => some (es, ())
    | some _ => none
  let (root, _) ← within start parents root
  return { root, path := some (parents, key), repeated := true }

/-- Adds a value to the table under the latest header. -/
def add (d : Draft) (parents : List String) (key : String) (v : Toml) : Option Draft :=
  (insert key v parents d.current).map fun current => { d with current }

end Draft

end Toml

end Gridfall
