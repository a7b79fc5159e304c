/-
  The digest of a machine's state: a 64-bit FNV-1a hash over a byte list.

  Each part of the state is written as bytes that tell where the part ends: words have eight
  bytes, the lowest first, and a text follows its length.
-/
import Gridfall.Number
import Gridfall.Text.Utf8

namespace Gridfall

/-- A hash on its way. -/
structure Digest where
  state : UInt64
  deriving DecidableEq

namespace Digest

/-- The hash of nothing. -/
def start : Digest := ⟨0xcbf29ce484222325⟩

/-- The factor of each step. -/
def factor : UInt64 := 0x100000001b3

/-- Takes in one byte. -/
def byte (d : Digest) (b : UInt8) : Digest := ⟨(d.state ^^^ b.toUInt64) * factor⟩

/-- Takes in bytes, one after the other. -/
def bytes (d : Digest) (bs : List UInt8) : Digest := bs.foldl byte d

/-- The bytes of a word, the lowest first. -/
def wordBytes (w : UInt64) : List UInt8 :=
  [w.toUInt8, (w >>> 8).toUInt8, (w >>> 16).toUInt8, (w >>> 24).toUInt8, (w >>> 32).toUInt8,
    (w >>> 40).toUInt8, (w >>> 48).toUInt8, (w >>> 56).toUInt8]

/-- The bytes of a number. -/
def numberBytes (n : Number) : List UInt8 := wordBytes n.toUInt64

/-- The bytes of a text, after its length in bytes. -/
def textBytes (s : String) : List UInt8 := wordBytes s.utf8ByteSize.toUInt64 ++ Text.Utf8.bytes s

end Digest

end Gridfall
