/-
# Escaping by slices

A text is escaped by one scan over its UTF-8 bytes: the bytes of the four
characters that mean markup are single, so the scan cuts the text at them and
copies the slices in between. A text that holds none of them is not copied at
all: `escape?` answers `none`, and the caller keeps the text it has.

Key definitions: `Text.Piece`, `Text.cut`, `Text.escape?`, `Text.escape`,
`Text.escapeOnto`.
-/
import Markup.Text.Entity

namespace Markup
namespace Text

/-- The entity of a byte that is by itself a character that means markup. -/
def byteEntity? (b : UInt8) : Option String := entity? (Char.ofUInt8 b)

/-- The UTF-8 bytes of a text. -/
def bytes (s : String) : List UInt8 := s.toByteArray.data.toList

/-- A part of an escaped text: the bytes from `start` up to `stop` of the text it
was made from, or an entity. -/
inductive Piece where
  | slice (start stop : Nat)
  | entity (text : String)
deriving DecidableEq

/-- The text of a piece of `s`. -/
def Piece.read (s : String) : Piece → String
  | .slice start stop => String.Pos.Raw.extract s ⟨start⟩ ⟨stop⟩
  | .entity e => e

/-- The pieces of the bytes from position `pos` on, where those from `start` are
still to be copied. -/
def cut : List UInt8 → Nat → Nat → List Piece
  | [], start, pos => [.slice start pos]
  | b :: bs, start, pos =>
    match byteEntity? b with
    | some e => .slice start pos :: .entity e :: cut bs (pos + 1) (pos + 1)
    | none => cut bs start (pos + 1)

/-- The pieces of `s` from the byte position `start` on. -/
def piecesFrom (s : String) (start : Nat) : List Piece :=
  cut ((bytes s).drop start) start start

/-- The position of the first byte with an entity. -/
def firstSpecial? (s : String) : Option Nat :=
  (bytes s).findIdx? fun b => (byteEntity? b).isSome

/-- The pieces of an escaped text, if anything in it has to be escaped. -/
def pieces? (s : String) : Option (List Piece) :=
  (firstSpecial? s).map fun first => .slice 0 first :: piecesFrom s first

/-- The text that pieces of `s` make up. -/
def assemble (s : String) (ps : List Piece) : String :=
  String.join (ps.map (Piece.read s))

/-- The escaped text, or `none` if the text needs no escaping. -/
def escape? (s : String) : Option String := (pieces? s).map (assemble s)

/-- The escaped text. -/
def escape (s : String) : String := (escape? s).getD s

/-- The escaped text of `s`, written after `out`. -/
def escapeOnto (out s : String) : String := out ++ assemble s (piecesFrom s 0)

end Text
end Markup
