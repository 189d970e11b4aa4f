/-
# Quotes

A value between single quotes must not hold one. `neutralize` turns every
single quote of a text into a double quote; a text without one is kept, and
`neutralize?` answers `none`. `quoted` is the form in which messages show a
text: between double quotes, with backslashes in front of quotes and
backslashes and code points for characters that cannot be shown.

Key definitions: `Text.neutralize?`, `Text.neutralize`, `Text.quoted`.
-/
import Markup.Text.Printable

namespace Markup
namespace Text

/-- A double quote for a single one, every other character for itself. -/
def neutralChar (c : Char) : Char := if c = '\'' then '"' else c

/-- The text with its single quotes turned, or `none` if it has none. -/
def neutralize? (s : String) : Option String :=
  if '\'' ∈ s.toList then some (String.ofList (s.toList.map neutralChar)) else none

/-- The text with its single quotes turned into double quotes. -/
def neutralize (s : String) : String := (neutralize? s).getD s

/-- A code point in lower-case hexadecimal. -/
def hexChars (n : Nat) : List Char := Nat.toDigits 16 n

/-- A character as it stands in a quoted text. -/
def quotedChar (c : Char) : List Char :=
  match c with
  | '"' => ['\\', '"']
  | '\\' => ['\\', '\\']
  | '\n' => ['\\', 'n']
  | '\r' => ['\\', 'r']
  | '\t' => ['\\', 't']
  | '\x00' => ['\\', '0']
  | c => if isPrintable c then [c] else ['\\', 'u', '\x7b'] ++ hexChars c.toNat ++ ['\x7d']

/-- A text between double quotes, with what cannot be shown escaped. -/
def quoted (s : String) : String :=
  String.ofList ('"' :: (s.toList.flatMap quotedChar ++ ['"']))

end Text
end Markup
