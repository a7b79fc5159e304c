/-
  The console: bytes to read, which arrive in buffers, and text written so far.

  * `readToken`: skips blanks, takes the bytes up to the next blank and leaves that unread.
  * `readNumber`: reads whole lines until one starts with a number.
  * `skipLine`: drops the input through the next newline.

  Reading past the last byte is the end of input, or a failure if the console has one set. Writing
  fails once the permitted writes are used up. A failure is reported as a `Trouble` next to the
  result; a program goes on after it.
-/
import Gridfall.Number
import Gridfall.Text.Utf8

namespace Gridfall

/-- A console, with its input still to come and its output so far. -/
structure Console where
  /-- The buffers in which the rest of the input arrives. -/
  pending : List (List UInt8) := []
  /-- Why reading past the last byte fails, if it does. -/
  readFault : Option String := none
  /-- Everything written. -/
  output : String := ""
  /-- How many more writes are accepted, if they are limited. -/
  writesLeft : Option Nat := none
  /-- Why a refused write fails. -/
  writeFault : String := ""

namespace Console

/-- What went wrong at the console. -/
inductive Trouble where
  | reading (reason : String)
  | writing (reason : String)
  deriving DecidableEq

/-- The reason given for a line that is not well-formed text. -/
def malformed : String := "stream did not contain valid UTF-8"

/-- Cuts bytes into buffers of `n + 1` bytes, the last one possibly shorter. -/
def buffers (n : Nat) : List UInt8 → List (List UInt8)
  | [] => []
  | b :: bs => (b :: bs.take n) :: buffers n (bs.drop n)
termination_by bs => bs.length
decreasing_by simp only [List.length_drop, List.length_cons]; omega

/-- Space, tab, newline, form feed and return. -/
def isBlank (b : UInt8) : Bool := b == 32 || b == 9 || b == 10 || b == 12 || b == 13

/-- Puts what is left of a buffer back in front. -/
def unread (buffer : List UInt8) (rest : List (List UInt8)) : List (List UInt8) :=
  if buffer.isEmpty then rest else buffer :: rest

/-- Goes on with the token read so far through one buffer: blanks ahead of a token are skipped, and
    a blank after it ends it. The token, and what is left of the buffer if it has ended. -/
def scanToken (token : Array UInt8) : List UInt8 → Array UInt8 × List UInt8
  | [] => (token, [])
  | b :: bs =>
    if isBlank b then
      if token.isEmpty then scanToken token bs else (token, b :: bs)
    else scanToken (token.push b) bs

/-- Goes on with the token read so far, buffer by buffer: the token, the rest of the input, and
    whether the input ran out first. -/
def takeToken (token : Array UInt8) : List (List UInt8) → Array UInt8 × List (List UInt8) × Bool
  | [] => (token, [], true)
  | buffer :: rest =>
    let (token, left) := scanToken token buffer
    if left.isEmpty then takeToken token rest else (token, left :: rest, false)

/-- Takes the bytes through the next newline: the line, the rest of the input, and whether the
    input ran out first. -/
def takeLine : List (List UInt8) → List UInt8 × List (List UInt8) × Bool
  | [] => ([], [], true)
  | buffer :: rest =>
    let (front, after) := buffer.span fun b => b != 10
    match after with
    | [] =>
      let (more, rest, ended) := takeLine rest
      (front ++ more, rest, ended)
    | newline :: after => (front ++ [newline], unread after rest, false)

/-- The trouble of having run out of input, if that is a failure here. -/
def endTrouble (c : Console) (ended : Bool) : Option Trouble :=
  if ended then c.readFault.map Trouble.reading else none

/-- Reads the next token, empty at the end of input. -/
def readToken (c : Console) : String × Console × Option Trouble :=
  let (token, rest, ended) := takeToken #[] c.pending
  (Text.Utf8.lossy token.toList, { c with pending := rest }, c.endTrouble ended)

/-- Reads at most `fuel` lines for one that starts with a number. -/
def readNumberWithin : (fuel : Nat) → Console → Number × Console × Option Trouble
  | 0, c => (0, c, none)
  | fuel + 1, c =>
    let (line, rest, ended) := takeLine c.pending
    let read := { c with pending := rest }
    match c.endTrouble ended with
    | some trouble => (0, read, some trouble)
    | none =>
      if line.isEmpty then (0, read, none)
      else
        match Text.Utf8.text? line with
        | none => (0, read, some (.reading malformed))
        | some s =>
          match Number.leading? s.toList with
          | some n => (n, read, none)
          | none => readNumberWithin fuel read

/-- How many bytes are left to read. -/
def bytesLeft (c : Console) : Nat := c.pending.flatten.length

/-- Reads lines until one starts with a number; zero at the end of input. Every line has a byte at
    least, so there are no more lines than bytes. -/
def readNumber (c : Console) : Number × Console × Option Trouble :=
  readNumberWithin (c.bytesLeft + 1) c

/-- Drops the input through the next newline; false if reading failed. -/
def skipLine (c : Console) : Bool × Console :=
  let (_, rest, ended) := takeLine c.pending
  ((c.endTrouble ended).isNone, { c with pending := rest })

/-- Writes a text. The empty text is never refused. -/
def write (c : Console) (s : String) : Console × Option Trouble :=
  if s.isEmpty then (c, none)
  else
    match c.writesLeft with
    | none => ({ c with output := c.output ++ s }, none)
    | some 0 => (c, some (.writing c.writeFault))
    | some (n + 1) => ({ c with output := c.output ++ s, writesLeft := some n }, none)

end Console

end Gridfall
