/-
# Entities

Four characters mean markup wherever text or a quoted value may stand: the
double quote, the ampersand, the apostrophe and the less-than sign. Each has an
entity, and `substitute` writes the entities in place of the characters. The
entity of the apostrophe ends without a semicolon.

Key definitions: `Text.entity?`, `Text.substitute`.
Key theorems: `Text.substitute_append`.
-/
namespace Markup
namespace Text

/-- The entity of a character that means markup. -/
def entity? : Char → Option String
  | '"' => some "&quot;"
  | '&' => some "&amp;"
  | '\'' => some "&#39"
  | '<' => some "&lt;"
  | _ => none

/-- What stands for a character: its entity if it has one, else itself. -/
def entityChars (c : Char) : List Char :=
  match entity? c with
  | some e => e.toList
  | none => [c]

/-- A text with the entities in place of their characters. -/
def substitute (cs : List Char) : List Char := cs.flatMap entityChars

theorem substitute_append (cs ds : List Char) :
    substitute (cs ++ ds) = substitute cs ++ substitute ds := by
  simp [substitute]

end Text
end Markup
