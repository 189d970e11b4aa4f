/-
# Compact JSON

The text of a JSON value without blanks. A text escapes quotes, backslashes and
control characters and nothing else; a double is written with the fewest digits
that read back, laid out as `Decimal.Layout.json` says.

Key definitions: `Json.compactChars`, `Json.compact`.
-/
import Markup.Json.Basic
import Markup.Text.Quote

namespace Markup
namespace Json

/-- A character as it stands in a JSON text. -/
def textChar (c : Char) : List Char :=
  match c with
  | '"' => ['\\', '"']
  | '\\' => ['\\', '\\']
  | '\x08' => ['\\', 'b']
  | '\x0c' => ['\\', 'f']
  | '\n' => ['\\', 'n']
  | '\r' => ['\\', 'r']
  | '\t' => ['\\', 't']
  | c =>
    if c.toNat < 0x10 then ['\\', 'u', '0', '0', '0'] ++ Text.hexChars c.toNat
    else if c.toNat < 0x20 then ['\\', 'u', '0', '0'] ++ Text.hexChars c.toNat
    else [c]

/-- A text between quotes. -/
def textChars (s : String) : List Char := '"' :: (s.toList.flatMap textChar ++ ['"'])

/-- A finite double; documents hold no others, and `null` stands for those. -/
def floatChars : Binary → List Char
  | .finite s m e => Decimal.Layout.json.doubleChars .even s m e
  | _ => ['n', 'u', 'l', 'l']

mutual

/-- The compact text of a value, as characters. -/
def compactChars : Json → List Char
  | .null => ['n', 'u', 'l', 'l']
  | .bool true => ['t', 'r', 'u', 'e']
  | .bool false => ['f', 'a', 'l', 's', 'e']
  | .integer v => Decimal.intChars v
  | .float x => floatChars x
  | .string s => textChars s
  | .array [] => ['[', ']']
  | .array (item :: rest) => '[' :: (compactChars item ++ itemsChars rest)
  | .object [] => ['\x7b', '\x7d']
  | .object ((key, item) :: rest) =>
    '\x7b' :: (textChars key ++ ':' :: (compactChars item ++ membersChars rest))

/-- The items of a list behind its first. -/
def itemsChars : List Json → List Char
  | [] => [']']
  | item :: rest => ',' :: (compactChars item ++ itemsChars rest)

/-- The members of an object behind its first. -/
def membersChars : List (String × Json) → List Char
  | [] => ['\x7d']
  | (key, item) :: rest =>
    ',' :: (textChars key ++ ':' :: (compactChars item ++ membersChars rest))

end

/-- The compact text of a value. -/
def compact (j : Json) : String := String.ofList (compactChars j)

end Json
end Markup
