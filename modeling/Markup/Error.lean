/-
# Errors

Rendering itself never fails. What can fail is reading props or settings from a
JSON text, and building with a tag that the settings do not admit. An error
holds its cause; `Error.message` is its wording.

Key definitions: `Error`, `Error.message`, `Json.ofText`.
-/
import Markup.Json.Mismatch
import Markup.Json.Reader

namespace Markup

/-- Why something was refused. -/
inductive Error where
  /-- The tag is outside the vocabulary and strict settings do not admit it. -/
  | unknownTag (name : String)
  /-- Something cannot be rendered. -/
  | render (reason : String)
  /-- Settings cannot be used. -/
  | config (reason : String)
  /-- A text is not a JSON document. -/
  | json (fault : Json.Fault)
  /-- A JSON value has not the shape of what it is read as. -/
  | shape (mismatch : Mismatch)

namespace Error

/-- Props are read from an object only. -/
def propsNotObject : Error := .render "props must be a JSON object"

/-- Settings are read from an object only. -/
def settingsNotObject : Error := .config "render config must be a JSON object"

/-- The wording of an error. -/
def message : Error → String
  | .unknownTag name => "Unknown tag: <" ++ name ++ ">"
  | .render reason => "Render error: " ++ reason
  | .config reason => "Config error: " ++ reason
  | .json .truncated => "JSON error: the text ended too early"
  | .json .malformed => "JSON error: the text is malformed"
  | .shape mismatch => "JSON error: " ++ mismatch.message

end Error

/-- Two steps give a result together if the second one gives it from what the first one
gives. -/
theorem bind_eq_ok_iff {ε α β : Type} {x : Except ε α} {f : α → Except ε β} {b : β} :
    (x >>= f) = .ok b ↔ ∃ a, x = .ok a ∧ f a = .ok b := by
  cases x with
  | error e => exact ⟨nofun, fun ⟨_, h, _⟩ => nomatch h⟩
  | ok a => exact ⟨fun h => ⟨a, rfl, h⟩, fun ⟨_, ha, h⟩ => by cases ha; exact h⟩

/-- The document that a text holds, or the error that it holds none. -/
def Json.ofText (source : String) : Except Error Json :=
  match Json.read source with
  | .ok value => .ok value
  | .error fault => .error (.json fault)

end Markup
