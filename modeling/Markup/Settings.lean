/-
# Settings

How tags outside the vocabulary are treated: they are not looked at, noted, or
refused; and whether names of custom elements are admitted. Settings are read
from the two keys `validation` and `allow_custom_elements` of a JSON object; a
key that is absent takes its default, other keys mean nothing, and of two
values that cannot be used the first in the text is reported.

Key definitions: `Mode`, `Settings`, `Settings.ofJson`, `Settings.toJson`.
-/
import Markup.Error
import Markup.Json.Printer

namespace Markup

/-- How tags outside the vocabulary are treated. -/
inductive Mode where
  /-- They are not looked at. -/
  | off
  /-- They are noted and built. -/
  | warn
  /-- They are refused. -/
  | strict
deriving DecidableEq

namespace Mode

/-- The name of a mode. -/
def name : Mode → String
  | .off => "off"
  | .warn => "warn"
  | .strict => "strict"

/-- The modes. -/
def all : List Mode := [.off, .warn, .strict]

/-- The mode of a name. -/
def ofName (s : String) : Except Mismatch Mode :=
  match all.find? fun m => m.name = s with
  | some m => .ok m
  | none => .error (.unknownName s (all.map name))

/-- The mode that a JSON value names: by its name, or as an object whose one key is
the name, with the value null. -/
def ofJson : Json → Except Mismatch Mode
  | .string s => ofName s
  | .object [(s, content)] => do
    let m ← ofName s
    match content with
    | .null => .ok m
    | other => .error (.wrongType other "unit")
  | .object _ => .error .notSingle
  | other => .error (.wrongType other "string or map")

end Mode

/-- The truth value that a JSON value is. -/
def Json.asBool : Json → Except Mismatch Bool
  | .bool b => .ok b
  | other => .error (.wrongType other "a boolean")

/-- What is asked of tags. -/
structure Settings where
  mode : Mode
  customElements : Bool
deriving DecidableEq

namespace Settings

/-- Tags are not looked at. -/
def default : Settings := ⟨.off, true⟩

/-- Everything outside the vocabulary is refused, custom elements too. -/
def strict : Settings := ⟨.strict, false⟩

/-- Everything is built, and what strict settings would refuse is noted. -/
def permissive : Settings := ⟨.warn, true⟩

/-- The key of the mode. -/
def modeKey : String := "validation"

/-- The key of the custom elements. -/
def customKey : String := "allow_custom_elements"

/-- The settings after one member of an object. -/
def readMember (s : Settings) (member : String × Json) : Except Mismatch Settings :=
  if member.1 = modeKey then do
    let m ← Mode.ofJson member.2
    .ok { s with mode := m }
  else if member.1 = customKey then do
    let b ← member.2.asBool
    .ok { s with customElements := b }
  else .ok s

/-- The settings after the members of an object, in their order. -/
def readMembers (s : Settings) : List (String × Json) → Except Mismatch Settings
  | [] => .ok s
  | member :: rest => do
    let s ← readMember s member
    readMembers s rest

/-- The settings that a JSON value holds. -/
def ofJson : Json → Except Error Settings
  | .object members => match readMembers default members with
    | .ok s => .ok s
    | .error mismatch => .error (.shape mismatch)
  | _ => .error .settingsNotObject

/-- The settings that a JSON text holds. -/
def ofText (source : String) : Except Error Settings := do
  let value ← Json.ofText source
  ofJson value

/-- Settings as a JSON object. -/
def toJson (s : Settings) : Json :=
  .object [(modeKey, .string s.mode.name), (customKey, .bool s.customElements)]

end Settings
end Markup
