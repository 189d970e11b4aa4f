/-
# Elements and content

An element is a text of markup that is ready, or one that is deferred because
something in it is. Content is what may stand between tags: nothing, texts,
numbers and truth values, lists of content of any depth, and deferred texts;
resolving content joins its leaves in their order, without separators and
without escaping. Content that holds nothing deferred is joined at once. If it
holds something deferred, the leaves are collected, texts that stand next to
each other as one, and joined when all are known.

Key definitions: `Element`, `Content`, `Content.isPending`, `Content.segments`,
`Content.resolve`, `Content.resolveAll`.
Key theorems: `Content.resolve_of_ready`.
-/
import Markup.Attribute
import Markup.Deferred
import Markup.Text.Escape

namespace Markup

/-- A text of markup, ready or deferred. -/
inductive Element where
  | ready (text : String)
  | pending (d : Deferred)

namespace Element

/-- The element without any text. -/
def empty : Element := .ready ""

/-- Whether an element is deferred. -/
def isPending : Element → Bool
  | .ready _ => false
  | .pending _ => true

/-- The text of an element that is ready. -/
def text? : Element → Option String
  | .ready s => some s
  | .pending _ => none

/-- A function applied to the text, at once if it is ready. -/
def map (f : String → String) : Element → Element
  | .ready s => .ready (f s)
  | .pending d => .pending (.map f d)

/-- An element as something to wait for. -/
def deferred : Element → Deferred
  | .ready s => .known s
  | .pending d => d

/-- The text that results when each channel has its outcome. -/
def value (outcome : Nat → String) : Element → String
  | .ready s => s
  | .pending d => d.value outcome

/-- Whether an element is ready with the given text. -/
def hasText (e : Element) (s : String) : Bool := e.text? = some s

end Element

/-- What may stand between tags. -/
inductive Content where
  | null
  | text (s : String)
  | number (n : Number)
  | bool (b : Bool)
  | list (items : List Content)
  | pending (d : Deferred)

namespace Content

/-! ### Conversions -/

/-- Text with its markup escaped. -/
def escaped (s : String) : Content := .text (Text.escape s)

/-- An element as content. -/
def ofElement : Element → Content
  | .ready s => .text s
  | .pending d => .pending d

/-- The value of an attribute as content: class names one behind the other, other
values by their texts. -/
def ofAttribute : AttributeValue → Content
  | .null => .null
  | .text s => .text s
  | .number n => .number n
  | .bool b => .bool b
  | .classes names => .list (names.map .text)
  | .timestamp t => .text t.millisText
  | .other shown => .text shown

mutual

/-- A JSON value as content; an object is its compact text. -/
def ofJson : Json → Content
  | .null => .null
  | .bool b => .bool b
  | .integer v => .number (Number.ofJsonInteger v)
  | .float x => .number (.float x)
  | .string s => .text s
  | .array items => .list (ofJsonItems items)
  | .object members => .text (Json.object members).compact

/-- The items of a JSON list as content. -/
def ofJsonItems : List Json → List Content
  | [] => []
  | item :: rest => ofJson item :: ofJsonItems rest

end

/-! ### Leaves -/

/-- Whether content is absent. -/
def isNull : Content → Bool
  | .null => true
  | _ => false

mutual

/-- Whether content holds something deferred. -/
def isPending : Content → Bool
  | .pending _ => true
  | .list items => anyPending items
  | _ => false

/-- Whether some of the items hold something deferred. -/
def anyPending : List Content → Bool
  | [] => false
  | item :: rest => isPending item || anyPending rest

end

mutual

/-- The text of content that holds nothing deferred; what is deferred leaves
nothing. -/
def readyText : Content → String
  | .null => ""
  | .text s => s
  | .number n => n.text
  | .bool b => boolText b
  | .list items => readyTexts items
  | .pending _ => ""

/-- The texts of items one behind the other. -/
def readyTexts : List Content → String
  | [] => ""
  | item :: rest => readyText item ++ readyTexts rest

end

end Content

/-- A part of content: a text, or something to wait for. -/
inductive Segment where
  | text (s : String)
  | awaited (d : Deferred)

namespace Segment

/-- A part as something to wait for. -/
def deferred : Segment → Deferred
  | .text s => .known s
  | .awaited d => d

/-- The parts with a text in front of them, which joins a text that stands there;
an empty one leaves nothing. -/
def consText (s : String) : List Segment → List Segment
  | .text t :: rest => .text (s ++ t) :: rest
  | parts => if s = "" then parts else .text s :: parts

end Segment

namespace Content

mutual

/-- The parts of content in front of `rest`. -/
def segments (rest : List Segment) : Content → List Segment
  | .null => Segment.consText "" rest
  | .text s => Segment.consText s rest
  | .number n => Segment.consText n.text rest
  | .bool b => Segment.consText (boolText b) rest
  | .list items => segmentsAll rest items
  | .pending d => .awaited d :: rest

/-- The parts of items in front of `rest`. -/
def segmentsAll (rest : List Segment) : List Content → List Segment
  | [] => rest
  | item :: others => segments (segmentsAll rest others) item

end

/-! ### Resolving -/

/-- The items one behind the other. -/
def resolveAll (items : List Content) : Element :=
  if anyPending items then .pending (.join ((segmentsAll [] items).map Segment.deferred))
  else .ready (readyTexts items)

/-- Content as an element. -/
def resolve : Content → Element
  | .list items => resolveAll items
  | .pending d => .pending d
  | leaf => .ready (readyText leaf)

/-- Content without anything deferred is its text at once. -/
theorem resolve_of_ready {c : Content} (h : c.isPending = false) :
    c.resolve = .ready c.readyText := by
  cases c with
  | null | text s | number n | bool b => rfl
  | list items =>
    rw [isPending] at h
    rw [resolve, resolveAll, h, readyText]
    rfl
  | pending d =>
    rw [isPending] at h
    cases h

end Content
end Markup
