/-
  Reading a suite. The text starts with `@`, and each section up to the next `@` is a case:

      name tick x y kind payload
      program

  The fields are parted by white space, newlines included. The kind is one character: `e` for no
  value, `i` and `o` for the markers, `n` with a number on the same line, `s` with the rest of
  the line after one separating character. The program follows the line of the kind.
-/
import Gridfall.Suite.Basic

namespace Gridfall.Suite

/-- Takes the next field. -/
def takeField (f : Field) (cs : List Char) : Except HeaderFault (List Char × List Char) :=
  let (token, rest) := Text.word (Text.trimStart cs)
  if token.isEmpty then .error (.missing f) else .ok (token, rest)

/-- Reads a token as the value of a field. -/
def readField {α : Type} (read? : List Char → Option α) (f : Field) (token : List Char) :
    Except HeaderFault α :=
  match read? token with
  | some a => .ok a
  | none => .error (.bad f (String.ofList token))

/-- Drops the character that parts the kind from its text. -/
def dropSeparator : List Char → List Char
  | [] => []
  | c :: cs => if c = '\n' then c :: cs else cs

/-- Reads the expectation of a kind, with the text after it. Also gives the text in which the
    program is looked for, and whether the kind is known. -/
def readExpected (kind : Char) (rest : List Char) :
    Except HeaderFault (Expected × List Char × Bool) :=
  match kind with
  | 'e' => .ok (.empty, rest, true)
  | 'i' => .ok (.input, rest, true)
  | 'o' => .ok (.output, rest, true)
  | 'n' =>
    let token := (Text.word (Text.trimStart (Text.firstLine rest))).1
    (readField Number.ofChars? .number token).map fun n => (.number n, rest, true)
  | 's' =>
    let rest := dropSeparator rest
    let line := Text.dropTrailing '\r' (Text.firstLine rest)
    .ok (.text (String.ofList line), rest, true)
  | _ => .ok (.empty, rest, false)

/-- Reads a case from its section, and the event that its kind is unknown if it is. -/
def readCase (body : List Char) : Except HeaderFault (Case × Option Event) := do
  let (name, rest) ← takeField .name body
  let (token, rest) ← takeField .tick rest
  let tick ← readField Text.Decimal.word? .tick token
  let (token, rest) ← takeField .x rest
  let x ← readField Text.Decimal.word? .x token
  let (token, rest) ← takeField .y rest
  let y ← readField Text.Decimal.word? .y token
  match Text.trimStart rest with
  | [] => .error (.missing .kind)
  | kind :: rest =>
    let (expected, rest, known) ← readExpected kind rest
    let name := String.ofList name
    let program := String.ofList (Text.afterFirstLine rest ++ ['\n'])
    return (⟨name, tick, ⟨x.toNat, y.toNat⟩, expected, program⟩,
      if known then none else some (.unknownKind name kind))

/-- Reads the sections from number `index` on, after the cases `done`. -/
def readSections (index : Nat) : List (List Char) → (done : Array Case) → (log : Array Event) →
    Except Error (List Case) × Array Event
  | [], done, log => (.ok done.toList, log)
  | s :: rest, done, log =>
    if s.all Text.isBlank then readSections (index + 1) rest done (log.push (.emptySection index))
    else
      match readCase s with
      | .error fault => (.error (.header index fault), log)
      | .ok (case, event) => readSections (index + 1) rest (done.push case) (log ++ event.toArray)

/-- Reads the cases of a suite, and adds to the log. -/
def read (text : String) (log : Array Event) : Except Error (List Case) × Array Event :=
  match text.toList with
  | '@' :: body => readSections 0 (Text.pieces '@' body) #[] log
  | _ => (.error .missingMarker, log)

end Gridfall.Suite
