/-
# Templates

A template is a row of literal parts with values between them. A value is
written with its markup escaped, unless the literal part in front of it ends
with an exclamation mark: then the mark is dropped and the value is written as
it is. The items of a list follow each other without separators, those of a
list inside a list are separated by commas; absent values are empty. A part
too few counts as empty, and parts left over follow as they stand. The same
texts can be written step by step, with the policy named for each value.

Key definitions: `Template.Value`, `Template.Value.write`, `Template.fill`,
`Template.Step`, `Template.append`.
-/
import Markup.Number
import Markup.Text.Escape
import Markup.Attribute

namespace Markup
namespace Template

/-- A value between two literal parts. -/
inductive Value where
  | null
  | text (s : String)
  | number (n : Number)
  | bool (b : Bool)
  | list (items : List Value)

/-- Whether the markup of a value is escaped. -/
inductive Policy where
  | escape
  | raw
deriving DecidableEq

/-- A text under a policy. -/
def Policy.apply : Policy → String → String
  | .escape, s => Text.escapeOnto "" s
  | .raw, s => s

namespace Value

mutual

/-- The text of an item of a list. -/
def itemText : Value → String
  | .null => ""
  | .text s => s
  | .number n => n.text
  | .bool b => boolText b
  | .list [] => ""
  | .list (item :: rest) => itemText item ++ restText rest

/-- The texts of the items behind the first of an inner list, each with its
comma. -/
def restText : List Value → String
  | [] => ""
  | item :: rest => "," ++ itemText item ++ restText rest

end

/-- The items of a list one behind the other. -/
def joined (items : List Value) : String := String.join (items.map itemText)

/-- A value as it is written under a policy. Numbers and truth values hold no
markup. -/
def write (policy : Policy) : Value → String
  | .null => ""
  | .text s => policy.apply s
  | .number n => n.text
  | .bool b => boolText b
  | .list items => policy.apply (joined items)

/-- A value with its markup escaped. -/
def escaped (v : Value) : String := v.write .escape

end Value

/-- The character at the end of a literal part that keeps the next value as it is. -/
def marker : Char := '!'

/-- A literal part in front of a value: what is written of it, and the policy of the
value. -/
def splitMarker (part : String) : String × Policy :=
  match part.toList.reverse with
  | c :: rest => if c = marker then (String.ofList rest.reverse, .raw) else (part, .escape)
  | [] => (part, .escape)

/-- The literal parts with the values between them. -/
def fill : List String → List Value → String
  | parts, [] => String.join parts
  | [], v :: vs => v.write .escape ++ fill [] vs
  | part :: parts, v :: vs =>
    (splitMarker part).1 ++ v.write (splitMarker part).2 ++ fill parts vs

/-- One step of writing a template. -/
inductive Step where
  | literal (s : String)
  | value (v : Value) (policy : Policy)

/-- What a step writes. -/
def Step.text : Step → String
  | .literal s => s
  | .value v policy => v.write policy

/-- The text after a step. -/
def append (out : String) (s : Step) : String := out ++ s.text

/-- The text after a sequence of steps. -/
def ofSteps (steps : List Step) : String := steps.foldl append ""

/-- The texts after each step of a sequence. -/
def trace (out : String) : List Step → List String
  | [] => []
  | s :: steps => append out s :: trace (append out s) steps

end Template
end Markup
