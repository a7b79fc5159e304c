/-
  Bytes as UTF-8.

  `scan` reads a byte list as characters. A byte sequence that is not well formed is cut into
  its maximal malformed pieces: each piece is the longest beginning of a character that the
  bytes still agree with, and at least one byte long. Such a piece gives `none`.

  * `text?` accepts well-formed bytes only.
  * `lossy` writes the replacement character for each malformed piece.
-/

namespace Gridfall.Text.Utf8

/-- A continuation byte. -/
def isTail (b : UInt8) : Bool := 0x80 ≤ b && b ≤ 0xBF

/-- The least and greatest second byte after the lead byte `b` of a character of three or four
    bytes. The bounds exclude overlong forms, surrogates and values past the last code point. -/
def secondRange (b : UInt8) : UInt8 × UInt8 :=
  if b == 0xE0 then (0xA0, 0xBF)
  else if b == 0xED then (0x80, 0x9F)
  else if b == 0xF0 then (0x90, 0xBF)
  else if b == 0xF4 then (0x80, 0x8F)
  else (0x80, 0xBF)

/-- Whether `c` may follow the lead byte `b` of a character of three or four bytes. -/
def isSecond (b c : UInt8) : Bool :=
  let r := secondRange b
  r.1 ≤ c && c ≤ r.2

/-- The low six bits of a continuation byte. -/
def tailBits (b : UInt8) : Nat := b.toNat % 64

/-- The character that starts with the byte `b`, or `none`, and how many of the bytes `r` after
    it belong to it. -/
def lead (b : UInt8) (r : List UInt8) : Option Char × Nat :=
  if b < 0x80 then (some (Char.ofNat b.toNat), 0)
  else if b < 0xC2 then (none, 0)
  else if b < 0xE0 then
    match r with
    | c :: _ =>
      if isTail c then (some (Char.ofNat (b.toNat % 32 * 64 + tailBits c)), 1) else (none, 0)
    | [] => (none, 0)
  else if b < 0xF0 then
    match r with
    | c :: d :: _ =>
      if !isSecond b c then (none, 0)
      else if !isTail d then (none, 1)
      else (some (Char.ofNat (b.toNat % 16 * 4096 + tailBits c * 64 + tailBits d)), 2)
    | [c] => if isSecond b c then (none, 1) else (none, 0)
    | [] => (none, 0)
  else if b < 0xF5 then
    match r with
    | c :: d :: e :: _ =>
      if !isSecond b c then (none, 0)
      else if !isTail d then (none, 1)
      else if !isTail e then (none, 2)
      else
        (some (Char.ofNat
          (b.toNat % 8 * 262144 + tailBits c * 4096 + tailBits d * 64 + tailBits e)), 3)
    | [c, d] => if !isSecond b c then (none, 0) else if isTail d then (none, 2) else (none, 1)
    | [c] => if isSecond b c then (none, 1) else (none, 0)
    | [] => (none, 0)
  else (none, 0)

/-- The characters of a byte list, with `none` for each malformed piece. -/
def scan : List UInt8 → List (Option Char)
  | [] => []
  | b :: r => (lead b r).1 :: scan (r.drop (lead b r).2)
termination_by bs => bs.length
decreasing_by simp only [List.length_drop, List.length_cons]; omega

/-- The text of well-formed bytes. -/
def text? (bs : List UInt8) : Option String := ((scan bs).mapM id).map String.ofList

/-- The character written for a malformed piece. -/
def replacement : Char := Char.ofNat 0xFFFD

/-- The text of any bytes. -/
def lossy (bs : List UInt8) : String :=
  String.ofList ((scan bs).map fun c => c.getD replacement)

/-- The bytes of a text. -/
def bytes (s : String) : List UInt8 := s.toByteArray.data.toList

end Gridfall.Text.Utf8
