/-
  Named constants of program text.

  A name of digits only, the empty name included, stands for the one-character text whose code is
  the number modulo 128.
-/
import Gridfall.Text.Decimal
import Gridfall.Value

namespace Gridfall.Source

/-- The characters with codes from `first` on, `n` of them. -/
def codes (first n : Nat) : String := String.ofList ((List.range' first n).map Char.ofNat)

/-- The lowercase letters. -/
def lowercase : String := "abcdefghijklmnopqrstuvwxyz"

/-- The uppercase letters. -/
def uppercase : String := "ABCDEFGHIJKLMNOPQRSTUVWXYZ"

/-- The code that digits spell, modulo 128. -/
def asciiCode? (ds : List Char) : Option Nat :=
  ds.foldlM (fun code c => (Text.Decimal.digit? c).map fun d => (code * 10 + d) % 128) 0

/-- The value that a name stands for. -/
def constant? (name : String) : Option Value :=
  match name with
  | "ll" => some (.text lowercase)
  | "ul" => some (.text uppercase)
  | "al" => some (.text (lowercase ++ uppercase))
  | "aa" => some (.text (codes 0 128))
  | "pa" => some (.text (codes 32 95))
  | "dd" => some (.text "0123456789")
  | "od" => some (.text "01234567")
  | "lhd" => some (.text "0123456789abcdef")
  | "uhd" => some (.text "0123456789ABCDEF")
  | "ahd" => some (.text "0123456789abcdefABCDEF")
  | "b64" => some (.text (uppercase ++ lowercase ++ "0123456789+/"))
  | "b58" => some (.text "123456789ABCDEFGHJKLMNPQRSTUVWXYZabcdefghijkmnopqrstuvwxyz")
  | "b36" => some (.text ("0123456789" ++ uppercase))
  | "rn" => some (.text "IVXLCDM")
  | "min" => some (.number Number.least)
  | "max" => some (.number Number.greatest)
  | _ => (asciiCode? name.toList).map fun code => .text (Char.ofNat code).toString

end Gridfall.Source
