/-
# Expressions of elements

What a page is written as: elements of tags and props, components whose bodies
are such expressions over the props they are called with, and content of every
kind. An expression is evaluated in a scope, the props of the component whose
body it stands in; it can read an attribute of the scope, take its content, and
pass all of it on, and what was taken is gone for the rest of the body. So
evaluation answers the value of the expression and the scope that is left. A
body sees only its own props, while the props of a call are evaluated in the
body that makes the call. Props are evaluated before the tag that gets them.

One family of types holds the expressions of every role, so that a proof about
expressions is one induction.

Key definitions: `Role`, `Expr`, `Role.Value`, `Expr.eval`, `Expr.value`.
-/
import Markup.Build
import Markup.Record

namespace Markup

/-- What an expression stands for. -/
inductive Role where
  | element
  | tag
  | props
  | fields
  | content
  | contents

/-- The value of an attribute: a fixed one, or that of an attribute of the scope. -/
inductive AttributeExpr where
  | value (v : AttributeValue)
  | prop (key : String)

/-- The value of an attribute expression; an attribute that the scope lacks is
absent. -/
def AttributeExpr.eval (scope : Props) : AttributeExpr → AttributeValue
  | .value v => v
  | .prop key => (scope.get? key).getD .null

/-- An expression of a role. -/
inductive Expr : Role → Type where
  /-- A tag with its props. -/
  | build (form : ChildrenForm) (tag : Expr .tag) (props : Expr .props) : Expr .element
  /-- An element that is given. -/
  | givenElement (e : Element) : Expr .element
  /-- Content as an element. -/
  | resolve (c : Expr .content) : Expr .element
  /-- Content in a list as an element. -/
  | sequence (cs : Expr .contents) : Expr .element
  /-- A function of the text of an element. -/
  | map (f : String → String) (e : Expr .element) : Expr .element
  /-- A literal tag. -/
  | literal (name : String) : Expr .tag
  /-- A component with its body. -/
  | component (label : Option String) (body : Expr .element) : Expr .tag
  /-- The tag of a fragment. -/
  | fragment : Expr .tag
  /-- Props that are given. -/
  | givenProps (p : Props) : Expr .props
  /-- All props of the scope, which is left empty. -/
  | forward : Expr .props
  /-- Props from pairs. -/
  | pairs (ps : List (String × AttributeExpr)) : Expr .props
  /-- Props from the fields of a record. -/
  | ofFields (fs : Expr .fields) : Expr .props
  /-- An attribute more. -/
  | insert (p : Expr .props) (key : String) (a : AttributeExpr) : Expr .props
  /-- Content in place of any there is. -/
  | setChildren (p : Expr .props) (c : Expr .content) : Expr .props
  /-- A child more. -/
  | pushChild (p : Expr .props) (c : Expr .content) : Expr .props
  /-- An attribute less. -/
  | erase (p : Expr .props) (key : String) : Expr .props
  /-- The content less. -/
  | dropChildren (p : Expr .props) : Expr .props
  /-- No field. -/
  | noField : Expr .fields
  /-- A field whose value is an attribute, in front of others. -/
  | attributeField (d : Record.Declaration) (a : AttributeExpr) (others : Expr .fields) :
      Expr .fields
  /-- A field whose value is content, in front of others. -/
  | contentField (d : Record.Declaration) (c : Expr .content) (others : Expr .fields) :
      Expr .fields
  /-- Content that is given. -/
  | givenContent (c : Content) : Expr .content
  /-- Content in a list. -/
  | list (cs : Expr .contents) : Expr .content
  /-- An element as content. -/
  | ofElement (e : Expr .element) : Expr .content
  /-- The value of an attribute as content. -/
  | ofAttribute (a : AttributeExpr) : Expr .content
  /-- The text under a key of the scope, with its markup escaped. -/
  | escapedProp (key : String) : Expr .content
  /-- The content of the scope, which is taken from it. -/
  | slot : Expr .content
  /-- No content. -/
  | nil : Expr .contents
  /-- Content in front of others. -/
  | cons (c : Expr .content) (others : Expr .contents) : Expr .contents

/-- The values of the expressions of a role. -/
@[reducible] def Role.Value : Role → Type
  | .element => Element
  | .tag => Tag
  | .props => Props
  | .fields => List Record.Field
  | .content => Content
  | .contents => List Content

namespace Expr

/-- The value of an expression in a scope, and the scope that is left. -/
def eval : {r : Role} → Expr r → Props → r.Value × Props
  | _, .build form tag props, scope =>
    let (p, scope) := props.eval scope
    let (t, scope) := tag.eval scope
    (Markup.build form t p, scope)
  | _, .givenElement e, scope => (e, scope)
  | _, .resolve c, scope =>
    let (c, scope) := c.eval scope
    (c.resolve, scope)
  | _, .sequence cs, scope =>
    let (cs, scope) := cs.eval scope
    (Content.resolveAll cs, scope)
  | _, .map f e, scope =>
    let (e, scope) := e.eval scope
    (e.map f, scope)
  | _, .literal s, scope => (.name s, scope)
  | _, .component label body, scope => (.component ⟨label, fun p => (body.eval p).1⟩, scope)
  | _, .fragment, scope => (.fragment, scope)
  | _, .givenProps p, scope => (p, scope)
  | _, .forward, scope => (scope, .empty)
  | _, .pairs ps, scope => (.ofPairs (ps.map fun (key, a) => (key, a.eval scope)), scope)
  | _, .ofFields fs, scope =>
    let (fs, scope) := fs.eval scope
    (Record.toProps fs, scope)
  | _, .insert p key a, scope =>
    let (p, scope) := p.eval scope
    (Props.insert p key (a.eval scope), scope)
  | _, .setChildren p c, scope =>
    let (p, scope) := p.eval scope
    let (c, scope) := c.eval scope
    (Props.setChildren p c, scope)
  | _, .pushChild p c, scope =>
    let (p, scope) := p.eval scope
    let (c, scope) := c.eval scope
    (Props.pushChild p c, scope)
  | _, .erase p key, scope =>
    let (p, scope) := p.eval scope
    (Props.erase p key, scope)
  | _, .dropChildren p, scope =>
    let (p, scope) := p.eval scope
    (Props.withoutChildren p, scope)
  | _, .noField, scope => ([], scope)
  | _, .attributeField d a others, scope =>
    let f := d.attribute (a.eval scope)
    let (fs, scope) := others.eval scope
    (f :: fs, scope)
  | _, .contentField d c others, scope =>
    let (c, scope) := c.eval scope
    let (fs, scope) := others.eval scope
    (d.content c :: fs, scope)
  | _, .givenContent c, scope => (c, scope)
  | _, .list cs, scope =>
    let (cs, scope) := cs.eval scope
    (.list cs, scope)
  | _, .ofElement e, scope =>
    let (e, scope) := e.eval scope
    (.ofElement e, scope)
  | _, .ofAttribute a, scope => (.ofAttribute (a.eval scope), scope)
  | _, .escapedProp key, scope => (.escaped ((scope.getText? key).getD ""), scope)
  | _, .slot, scope => (scope.children.getD .null, scope.withoutChildren)
  | _, .nil, scope => ([], scope)
  | _, .cons c others, scope =>
    let (c, scope) := c.eval scope
    let (cs, scope) := others.eval scope
    (c :: cs, scope)

/-- The value of an expression outside of any component. -/
def value {r : Role} (e : Expr r) : r.Value := (e.eval .empty).1

/-- Content expressions in a list. -/
def ofList : List (Expr .content) → Expr .contents
  | [] => .nil
  | c :: cs => .cons c (ofList cs)

end Expr
end Markup
