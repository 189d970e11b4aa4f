/-
# Attributes

An attribute is a key with a value, written as ` key='value'` with the space in
front. Values are not escaped: single quotes in a text become double quotes, so
that no text ends its own value. A true value of a key leaves the bare key, a
false one and an absent one leave nothing. The key `class` has rules of its
own: every value but an absent one is written, and a list of classes or a value
with a text of its own is written as it is. The key `children` is never written.

Key definitions: `AttributeValue`, `AttributeValue.form`, `Attribute.text`,
`Attribute.serialize`.
-/
import Markup.Json.Printer
import Markup.Timestamp

namespace Markup

/-- The value of an attribute. -/
inductive AttributeValue where
  | text (s : String)
  | number (n : Number)
  | bool (b : Bool)
  | timestamp (t : Timestamp)
  | classes (names : List String)
  /-- Any other value, by the text that it shows. -/
  | other (shown : String)
  | null
deriving DecidableEq

/-- The text of a truth value. -/
def boolText (b : Bool) : String := if b then "true" else "false"

/-- The key whose values have rules of their own. -/
def classKey : String := "class"

/-- The key under which content is given instead of an attribute. -/
def childrenKey : String := "children"

namespace AttributeValue

/-- Whether a value is absent. -/
def isNull : AttributeValue → Bool
  | .null => true
  | _ => false

/-- The text of a value that is a text. -/
def text? : AttributeValue → Option String
  | .text s => some s
  | _ => none

/-- The number of a value that is a number. -/
def number? : AttributeValue → Option Number
  | .number n => some n
  | _ => none

/-- The truth of a value that is a truth value. -/
def bool? : AttributeValue → Option Bool
  | .bool b => some b
  | _ => none

/-- Class names separated by commas. -/
def classText (names : List String) : String := ",".intercalate names

/-- The text of a value without quotes around it or changes to it; an absent value
has none. -/
def plain? : AttributeValue → Option String
  | .text s => some s
  | .number n => some n.text
  | .bool b => some (boolText b)
  | .timestamp t => some t.millisText
  | .classes names => some (classText names)
  | .other shown => some shown
  | .null => none

/-- The value that a JSON value is: lists are class names, where an absent item is
an empty name and any other item but a text its compact text; an object is its
compact text. -/
def ofJson : Json → AttributeValue
  | .null => .null
  | .bool b => .bool b
  | .integer v => .number (Number.ofJsonInteger v)
  | .float x => .number (.float x)
  | .string s => .text s
  | .array items => .classes (items.map fun
    | .string s => s
    | .null => ""
    | item => item.compact)
  | .object members => .text (Json.object members).compact

end AttributeValue

/-- How an attribute stands in a tag. -/
inductive Form where
  | omitted
  | bare
  | quoted (text : String)
deriving DecidableEq

namespace AttributeValue

/-- How a value stands under the key `class`. -/
def classForm : AttributeValue → Form
  | .null => .omitted
  | .text s => .quoted (Text.neutralize s)
  | .classes names => .quoted (classText names)
  | .number n => .quoted n.text
  | .bool b => .quoted (boolText b)
  | .timestamp t => .quoted t.millisText
  | .other shown => .quoted shown

/-- How a value stands under a key that has no rules of its own. -/
def plainForm : AttributeValue → Form
  | .null => .omitted
  | .text s => .quoted (Text.neutralize s)
  | .classes names => .quoted (Text.neutralize (classText names))
  | .number n => .quoted n.text
  | .bool true => .bare
  | .bool false => .omitted
  | .timestamp t => .quoted t.millisText
  | .other shown => .quoted (Text.neutralize shown)

/-- How a value stands under a key. -/
def form (key : String) (v : AttributeValue) : Form :=
  if key = classKey then v.classForm
  else if key = childrenKey then .omitted
  else v.plainForm

end AttributeValue

/-- A form under its key, with the space in front. -/
def Form.text (key : String) : Form → String
  | .omitted => ""
  | .bare => " " ++ key
  | .quoted s => " " ++ key ++ "='" ++ s ++ "'"

namespace Attribute

/-- An attribute as it stands in a tag. -/
def text (key : String) (v : AttributeValue) : String := (v.form key).text key

/-- Attributes one behind the other. -/
def serialize (attributes : List (String × AttributeValue)) : String :=
  String.join (attributes.map fun (key, v) => text key v)

theorem serialize_cons (key : String) (v : AttributeValue) (rest : List (String × AttributeValue)) :
    serialize ((key, v) :: rest) = (v.form key).text key ++ serialize rest := by
  rw [serialize, List.map_cons, String.join_cons]
  rfl

end Attribute
end Markup
