/-
# JSON values of the wrong shape

A JSON value that is read as a name, a truth value or nothing at all may have
another shape. A mismatch says which, and its message shows the value found if
it is short: truth values and numbers between backquotes as they stand in compact
text, texts quoted, lists and objects by their kind alone.

Key definitions: `Mismatch`, `Json.described`, `Mismatch.message`.
-/
import Markup.Json.Printer

namespace Markup

/-- What a JSON value has in place of the shape that was expected. -/
inductive Mismatch where
  /-- The name is none of the given ones. -/
  | unknownName (name : String) (admitted : List String)
  /-- The value is of another type. -/
  | wrongType (found : Json) (expected : String)
  /-- The object is not one of a single member. -/
  | notSingle

/-- What kind of value a JSON value is, with the value if it is short. -/
def Json.described : Json → String
  | .null => "null"
  | .bool true => "boolean `true`"
  | .bool false => "boolean `false`"
  | .integer v => "integer `" ++ Decimal.intText v ++ "`"
  | .float x => "floating point `" ++ String.ofList (floatChars x) ++ "`"
  | .string s => "string " ++ Text.quoted s
  | .array _ => "sequence"
  | .object _ => "map"

/-- The wording of a mismatch. -/
def Mismatch.message : Mismatch → String
  | .unknownName name admitted =>
    "unknown variant `" ++ name ++ "`, expected one of " ++
      ", ".intercalate (admitted.map fun a => "`" ++ a ++ "`")
  | .wrongType found expected => "invalid type: " ++ found.described ++ ", expected " ++ expected
  | .notSingle => "invalid value: map, expected map with a single key"

end Markup
