/-
# Values in messages

The form in which messages show values: the name of the variant with what it
holds in parentheses, texts quoted, lists in brackets. What is deferred is
shown without what it waits for, a component without what it does.

Key definitions: `Number.inspect`, `AttributeValue.inspect`, `Content.inspect`,
`Element.inspect`, `Tag.inspect`, `Template.Value.inspect`.
-/
import Markup.Build
import Markup.Template

namespace Markup
namespace Inspect

/-- A variant with what it holds. -/
def tagged (name held : String) : String := name ++ "(" ++ held ++ ")"

/-- Items in brackets. -/
def listed (items : List String) : String := "[" ++ ", ".intercalate items ++ "]"

/-- A double. -/
def float : Binary → String
  | .nan => "NaN"
  | .infinity s => if s then "-inf" else "inf"
  | .finite s m e => String.ofList (Decimal.Layout.inspect.doubleChars .up s m e)

/-- Something deferred. -/
def deferred : String := "Pending(..)"

end Inspect

open Inspect

/-- A number in messages. -/
def Number.inspect : Number → String
  | .int v => tagged "Int" (Decimal.intText v.toInt)
  | .float x => tagged "Float" (Inspect.float x)

/-- The value of an attribute in messages. -/
def AttributeValue.inspect : AttributeValue → String
  | .text s => tagged "Str" (Text.quoted s)
  | .number n => tagged "Number" n.inspect
  | .bool b => tagged "Bool" (boolText b)
  | .timestamp t => tagged "Timestamp" t.inspect
  | .classes names => tagged "ClassList" (listed (names.map Text.quoted))
  | .other shown => tagged "Other" (Text.quoted shown)
  | .null => "Null"

/-- An element in messages. -/
def Element.inspect : Element → String
  | .ready s => tagged "Ready" (Text.quoted s)
  | .pending _ => Inspect.deferred

/-- A tag in messages. -/
def Tag.inspect : Tag → String
  | .name s => tagged "Name" (Text.quoted s)
  | .component c =>
    let name := match c.name with
      | some s => tagged "Some" (Text.quoted s)
      | none => "None"
    tagged "Component" ("Component \x7b name: " ++ name ++ " \x7d")
  | .fragment => "Fragment"

mutual

/-- Content in messages. -/
def Content.inspect : Content → String
  | .null => "Null"
  | .text s => tagged "Text" (Text.quoted s)
  | .number n => tagged "Number" n.inspect
  | .bool b => tagged "Bool" (boolText b)
  | .list items => tagged "List" (listed (Content.inspectAll items))
  | .pending _ => Inspect.deferred

/-- Items of content in messages. -/
def Content.inspectAll : List Content → List String
  | [] => []
  | item :: rest => item.inspect :: Content.inspectAll rest

end

mutual

/-- A template value in messages. -/
def Template.Value.inspect : Template.Value → String
  | .null => "Null"
  | .text s => tagged "Str" (Text.quoted s)
  | .number n => tagged "Number" n.inspect
  | .bool b => tagged "Bool" (boolText b)
  | .list items => tagged "List" (listed (Template.Value.inspectAll items))

/-- Template values in messages. -/
def Template.Value.inspectAll : List Template.Value → List String
  | [] => []
  | item :: rest => item.inspect :: Template.Value.inspectAll rest

end

end Markup
