/-
# The checking renderer

A renderer builds as `build` does, after it has looked at the tag: under strict
settings a literal tag that is neither in the vocabulary nor an admitted custom
element is refused. Components and fragments are never refused.

Key definitions: `Renderer`, `Renderer.check`, `Renderer.build`.
-/
import Markup.Build
import Markup.Settings

namespace Markup

/-- A renderer with its settings. -/
structure Renderer where
  settings : Settings

namespace Renderer

/-- Whether names of a kind need no further question. -/
def admits (r : Renderer) : Vocabulary.Kind → Bool
  | .void | .html | .svg => true
  | .custom => r.settings.customElements
  | .unknown => false

/-- The kind of a name that may be built. -/
def check (r : Renderer) (name : String) : Except Error Vocabulary.Kind :=
  let kind := Vocabulary.classify name
  if r.admits kind then .ok kind
  else match r.settings.mode with
    | .off | .warn => .ok kind
    | .strict => .error (.unknownTag name)

/-- The tag, if it may be built. -/
def checkTag (r : Renderer) : Tag → Except Error Tag
  | .name s =>
    if r.settings.mode = .off then .ok (.name s)
    else do
      let _ ← r.check s
      .ok (.name s)
  | t => .ok t

/-- The element of a tag with its props, if the tag may be built. -/
def build (r : Renderer) (form : ChildrenForm) (t : Tag) (p : Props) : Except Error Element := do
  let t ← r.checkTag t
  .ok (Markup.build form t p)

end Renderer
end Markup
