/-
# Records as they are declared

The fields of a record are declared with marks on them: that a field is left out, that it
gives the content, the key in place of its name. From the declaration alone two passes over
the fields make the statements that turn a value of the record into props: the first the
insertions of attributes, in the order of the fields, the second the one assignment of
content behind them. Each pass reads the marks anew and refuses what it cannot do: a mark that
it does not know, an attribute under the reserved key, a second field that gives the content.

Key definitions: `Record.Mark`, `Record.Heading`, `Record.insertions`,
`Record.contentField`, `Record.statements`, `Record.build`.
-/
import Markup.Record

namespace Markup
namespace Record

/-- A mark on a field. -/
inductive Mark where
  /-- The field is left out. -/
  | skip
  /-- The field gives the content. -/
  | children
  /-- The key of the field in place of its name. -/
  | rename (key : String)
  /-- A mark that says nothing. -/
  | unknown (word : String)
deriving DecidableEq

/-- A field as it is declared: its name and the marks on it. -/
structure Heading where
  name : String
  marks : List Mark

/-- Why a record as it is declared has no props. The field is the one that is refused. -/
inductive Refusal where
  | unknownMark (field : String)
  | reservedKey (field : String)
  | secondContent (field : String)
deriving DecidableEq

/-- What is said of a refused field. -/
def Refusal.message : Refusal → String
  | .unknownMark _ =>
    "Invalid props attribute; expected `skip`, `children` or `rename = \"...\"`"
  | .reservedKey _ => "use #[props(children)] instead of naming an attribute `children`"
  | .secondContent _ => "only one field can be #[props(children)]"

/-- What the marks on a field say. -/
structure Marking where
  skip : Bool := false
  children : Bool := false
  rename : Option String := none
deriving DecidableEq

/-- What marks say with one more of them, on the field with the given name. -/
def Marking.add (field : String) (m : Marking) : Mark → Except Refusal Marking
  | .skip => .ok { m with skip := true }
  | .children => .ok { m with children := true }
  | .rename key => .ok { m with rename := some key }
  | .unknown _ => .error (.unknownMark field)

/-- What the marks on a field say. -/
def Heading.marking (h : Heading) : Except Refusal Marking :=
  h.marks.foldlM (Marking.add h.name) {}

/-- The key of a field with its marks. -/
def Heading.key (h : Heading) (m : Marking) : String :=
  m.rename.getD (String.ofList (dropRawMarks h.name.toList))

/-- A statement that turns a value of a record into props. -/
inductive Statement where
  | insert (key field : String)
  | setChildren (field : String)
deriving DecidableEq

/-- The first pass: the insertions of the fields that are attributes. -/
def insertions : List Heading → Except Refusal (List Statement)
  | [] => .ok []
  | h :: rest => do
    let m ← h.marking
    if m.skip || m.children then insertions rest
    else if h.key m = childrenKey then .error (.reservedKey h.name)
    else do
      let others ← insertions rest
      .ok (.insert (h.key m) h.name :: others)

/-- The second pass: the field that gives the content, if one was found in front of these
or there is one among them. -/
def contentField (found : Option String) : List Heading → Except Refusal (Option String)
  | [] => .ok found
  | h :: rest => do
    let m ← h.marking
    if !m.children || m.skip then contentField found rest
    else if found.isSome then .error (.secondContent h.name)
    else contentField (some h.name) rest

/-- The statements that a declaration makes. -/
def statements (headings : List Heading) : Except Refusal (List Statement) := do
  let inserted ← insertions headings
  let content ← contentField none headings
  .ok (inserted ++ content.toList.map .setChildren)

/-- The value of a field, as an attribute and as content. -/
structure FieldValue where
  asAttribute : AttributeValue
  asContent : Content

/-- Props after a statement, for the values of the fields. -/
def Statement.apply (values : String → FieldValue) (p : Props) : Statement → Props
  | .insert key field => p.insert key (values field).asAttribute
  | .setChildren field => p.setChildren (values field).asContent

/-- The props that statements make of the values of the fields. -/
def build (values : String → FieldValue) (ss : List Statement) : Props :=
  ss.foldl (Statement.apply values) Props.empty

end Record
end Markup
