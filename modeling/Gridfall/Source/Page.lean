/-
  Program text as a page: lines of one length in a ring of `#`. The first character of the first
  line is at column 1 and row 1.

  A final newline starts no new line, and a return at the end of a line does not belong to it.
-/
import Gridfall.Grid.Build
import Gridfall.Text.Blank

namespace Gridfall.Source

/-- Drops one return at the end of a line. -/
def dropReturn (line : List Char) : List Char :=
  if line.getLast? = some '\r' then line.dropLast else line

/-- The lines of a text. -/
def lines (source : List Char) : List (List Char) :=
  let all := Text.pieces '\n' source
  (if all.getLast? = some [] then all.dropLast else all).map dropReturn

/-- The lines of a text, extended to one length, in a ring of `#`. -/
def frame (source : String) : List (List Char) := Grid.framed '#' ' ' (lines source.toList)

/-- A framed text, stored row by row. -/
structure Page where
  width : Nat
  height : Nat
  chars : Array Char

namespace Page

/-- The page of framed rows. -/
def ofRows (rows : List (List Char)) : Page :=
  ⟨(rows.headD []).length, rows.length, rows.flatten.toArray⟩

/-- The character at a place. -/
def charAt (page : Page) (p : Pos) : Char := page.chars[p.y * page.width + p.x]?.getD ' '

/-- Turns a character into a space. -/
def erase (page : Page) (p : Pos) : Page :=
  { page with chars := page.chars.setIfInBounds (p.y * page.width + p.x) ' ' }

/-- The places to the right of `p`, up to the ring. -/
def rightOf (page : Page) (p : Pos) : List Pos :=
  (List.range' (p.x + 1) (page.width - 2 - p.x)).map fun x => ⟨x, p.y⟩

/-- The places below `p`, up to the ring. -/
def below (page : Page) (p : Pos) : List Pos :=
  (List.range' (p.y + 1) (page.height - 2 - p.y)).map fun y => ⟨p.x, y⟩

end Page

end Gridfall.Source
