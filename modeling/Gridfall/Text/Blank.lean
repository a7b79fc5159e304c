/-
  White space: the characters with the Unicode property `White_Space`, and trimming by it.
  The console's byte-level notion of a blank is narrower and stands apart.
-/

namespace Gridfall.Text

/-- Characters with the Unicode property `White_Space`. -/
def isBlank (c : Char) : Bool :=
  let n := c.toNat
  (9 ≤ n && n ≤ 13) || n == 0x20 || n == 0x85 || n == 0xA0 || n == 0x1680 ||
    (0x2000 ≤ n && n ≤ 0x200A) || n == 0x2028 || n == 0x2029 || n == 0x202F || n == 0x205F ||
    n == 0x3000

/-- Drops leading white space. -/
def trimStart (cs : List Char) : List Char := cs.dropWhile isBlank

/-- The leading run without white space, and what follows it. -/
def word (cs : List Char) : List Char × List Char := cs.span fun c => !isBlank c

/-- The characters before the first newline. -/
def firstLine (cs : List Char) : List Char := cs.takeWhile fun c => c != '\n'

/-- The characters after the first newline, none if there is no newline. -/
def afterFirstLine (cs : List Char) : List Char := (cs.dropWhile fun c => c != '\n').drop 1

/-- Drops every trailing occurrence of `c`. -/
def dropTrailing (c : Char) (cs : List Char) : List Char :=
  (cs.reverse.dropWhile fun d => d == c).reverse

/-- The pieces of a text between the occurrences of `c`, empty pieces included. -/
def pieces (c : Char) : List Char → List (List Char)
  | [] => [[]]
  | d :: ds =>
    if d == c then [] :: pieces c ds
    else
      match pieces c ds with
      | [] => [[d]]
      | p :: ps => (d :: p) :: ps

end Gridfall.Text
