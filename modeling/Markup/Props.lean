/-
# Props

The props of an element are its attributes, in the order in which their keys
were first inserted, and its content. The key `children` is reserved: whatever
is inserted under it becomes the content. Content is replaced as a whole or
grown by one child at a time.

Key definitions: `Props`, `Props.insert`, `Props.pushChild`, `Props.ofPairs`,
`Props.ofJson`, `Props.Step`, `Props.run`.
-/
import Markup.Element
import Markup.Error

namespace Markup

/-- The attributes and the content of an element. -/
structure Props where
  attributes : List (String × AttributeValue)
  children : Option Content

namespace Props

/-- Neither attributes nor content. -/
def empty : Props := ⟨[], none⟩

/-- A value under a key; under `children` it becomes the content. -/
def insert (p : Props) (key : String) (v : AttributeValue) : Props :=
  if key = childrenKey then { p with children := some (.ofAttribute v) }
  else { p with attributes := Keyed.insert p.attributes key v }

/-- Content in place of any there is. -/
def setChildren (p : Props) (c : Content) : Props := { p with children := some c }

/-- Content with one more child: a list grows at its end, other content becomes the
first item of a list. -/
def grow : Option Content → Content → Content
  | none, c => .list [c]
  | some (.list items), c => .list (items ++ [c])
  | some existing, c => .list [existing, c]

/-- One more child behind the content. -/
def pushChild (p : Props) (c : Content) : Props := { p with children := some (grow p.children c) }

/-- The value of a key. -/
def get? (p : Props) (key : String) : Option AttributeValue := Keyed.find? p.attributes key

/-- The text under a key, if its value is a text. -/
def getText? (p : Props) (key : String) : Option String :=
  (p.get? key).bind AttributeValue.text?

/-- Whether a key has a value. -/
def contains (p : Props) (key : String) : Bool := (p.get? key).isSome

/-- The props without a key. -/
def erase (p : Props) (key : String) : Props :=
  { p with attributes := Keyed.erase p.attributes key }

/-- The props without their content. -/
def withoutChildren (p : Props) : Props := { p with children := none }

/-- The number of attributes. -/
def size (p : Props) : Nat := p.attributes.length

/-- Whether there are no attributes. -/
def isEmpty (p : Props) : Bool := p.attributes.isEmpty

/-- The attributes as they stand in a tag. -/
def serialize (p : Props) : String := Attribute.serialize p.attributes

/-! ### Building -/

/-- The props that arise from inserting the pairs one after the other. -/
def ofPairs (pairs : List (String × AttributeValue)) : Props :=
  pairs.foldl (fun p (key, v) => p.insert key v) empty

/-- A member of a JSON object among the props: `children` as content, any other key
as an attribute. -/
def insertJson (p : Props) (key : String) (j : Json) : Props :=
  if key = childrenKey then { p with children := some (.ofJson j) }
  else { p with attributes := Keyed.insert p.attributes key (.ofJson j) }

/-- The props that a JSON object holds. -/
def ofJson : Json → Except Error Props
  | .object members => .ok (members.foldl (fun p (key, j) => p.insertJson key j) empty)
  | _ => .error .propsNotObject

/-- The props that a JSON text holds. -/
def ofText (source : String) : Except Error Props := do
  let value ← Json.ofText source
  ofJson value

/-! ### Steps -/

/-- One use of props. -/
inductive Step where
  | insert (key : String) (v : AttributeValue)
  | setChildren (c : Content)
  | pushChild (c : Content)
  | erase (key : String)
  | get (key : String)
  | getText (key : String)
  | contains (key : String)
  | takeChildren

/-- What a step answers. -/
inductive Reply where
  | nothing
  | attribute (v : Option AttributeValue)
  | text (s : Option String)
  | truth (b : Bool)
  | content (c : Option Content)

/-- The props after a step. -/
def apply (p : Props) : Step → Props
  | .insert key v => p.insert key v
  | .setChildren c => p.setChildren c
  | .pushChild c => p.pushChild c
  | .erase key => p.erase key
  | .takeChildren => p.withoutChildren
  | .get _ | .getText _ | .contains _ => p

/-- What a step answers on props: erasing and taking answer what was there. -/
def reply (p : Props) : Step → Reply
  | .insert _ _ | .setChildren _ | .pushChild _ => .nothing
  | .erase key => .attribute (p.get? key)
  | .get key => .attribute (p.get? key)
  | .getText key => .text (p.getText? key)
  | .contains key => .truth (p.contains key)
  | .takeChildren => .content p.children

/-- The props after a sequence of steps. -/
def run (p : Props) (steps : List Step) : Props := steps.foldl apply p

end Props
end Markup
