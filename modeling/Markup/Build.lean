/-
# Building elements

A tag says what to build: a literal element, which is written with its name as
given; a component, which is a function of the props; or a fragment, which is
its content without anything around it. A void element is its opening tag
alone, whatever its content. An element whose content is deferred is deferred,
and its tags are put around the content when that is known.

Content may be announced as a list (`ChildrenForm.sequence`) or come in any
form; what is built is the same.

Key definitions: `Component`, `Tag`, `buildLiteral`, `build`.
Key theorems: `ChildrenForm.resolve_eq`, `buildLiteral_eq`, `buildFragment_eq`.
-/
import Markup.Props
import Markup.Vocabulary

namespace Markup

/-- A function from props to an element, with a name for messages. -/
structure Component where
  name : Option String
  call : Props → Element

/-- What to build. -/
inductive Tag where
  | name (s : String)
  | component (c : Component)
  | fragment

/-- The name of a literal tag. -/
def Tag.name? : Tag → Option String
  | .name s => some s
  | _ => none

/-- How content is announced. -/
inductive ChildrenForm where
  | any
  | sequence
deriving DecidableEq

/-- Content that is announced in a form, as an element. -/
def ChildrenForm.resolve : ChildrenForm → Content → Element
  | .sequence, .list items => Content.resolveAll items
  | _, c => c.resolve

/-- Content resolves alike however it is announced. -/
theorem ChildrenForm.resolve_eq (form : ChildrenForm) (c : Content) :
    form.resolve c = c.resolve := by
  cases form <;> cases c <;> rfl

/-- An opening tag without its closing angle. -/
def openingTag (name : String) (p : Props) : String := "<" ++ name ++ p.serialize

/-- A closing tag. -/
def closingTag (name : String) : String := "</" ++ name ++ ">"

/-- A literal element. -/
def buildLiteral (form : ChildrenForm) (name : String) (p : Props) : Element :=
  let opening := openingTag name p
  if Vocabulary.isVoid name then .ready (opening ++ ">")
  else match p.children with
    | none | some .null => .ready (opening ++ ">" ++ closingTag name)
    | some c => (form.resolve c).map fun body => opening ++ ">" ++ body ++ closingTag name

/-- A literal element is its opening tag alone or its resolved content between its
tags; absent content resolves to nothing. -/
theorem buildLiteral_eq (form : ChildrenForm) (name : String) (p : Props) :
    buildLiteral form name p =
      if Vocabulary.isVoid name then .ready (openingTag name p ++ ">")
      else (p.children.getD .null).resolve.map fun body =>
        openingTag name p ++ ">" ++ body ++ closingTag name := by
  have absent : openingTag name p ++ ">" ++ closingTag name
      = openingTag name p ++ ">" ++ "" ++ closingTag name := by rw [String.append_empty]
  simp only [buildLiteral]
  split
  · rfl
  · cases p.children with
    | none => exact congrArg Element.ready absent
    | some c =>
      cases c with
      | null => exact congrArg Element.ready absent
      | text s | number n | bool b | list items | pending d =>
        simp only [form.resolve_eq, Option.getD_some]

/-- The content of the props without a tag around it. -/
def buildFragment (p : Props) : Element :=
  match p.children with
  | some c => c.resolve
  | none => .empty

/-- A fragment is its resolved content. -/
theorem buildFragment_eq (p : Props) : buildFragment p = (p.children.getD .null).resolve := by
  unfold buildFragment
  cases p.children with
  | none => rfl
  | some c => rfl

/-- The element of a tag with its props. -/
def build (form : ChildrenForm) (t : Tag) (p : Props) : Element :=
  match t with
  | .name s => buildLiteral form s p
  | .component c => c.call p
  | .fragment => buildFragment p

end Markup
