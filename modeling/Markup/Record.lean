/-
# Records as props

A record with named fields gives props: each field becomes an attribute under
its name, or under the key that it declares instead, in the order of the
fields; a field may be left out, and one field may give the content. The raw
mark `r#` in front of a name that is otherwise reserved is not part of the key.

Key definitions: `Record.Declaration`, `Record.Field`, `Record.Field.key`,
`Record.toProps`.
Key theorems: `Record.toProps_eq`.
-/
import Markup.Props

namespace Markup
namespace Record

/-- What a field declares: its name, the key in place of it, and whether it is left
out. -/
structure Declaration where
  name : String
  rename : Option String := none
  skip : Bool := false

/-- A field with what it declares and what its value is as an attribute and as
content. -/
structure Field where
  name : String
  /-- The key that the field declares in place of its name. -/
  rename : Option String
  /-- Whether the field is left out. -/
  skip : Bool
  /-- Whether the field gives the content. -/
  children : Bool
  asAttribute : AttributeValue
  asContent : Content

/-- A name without raw marks in front of it. -/
def dropRawMarks : List Char → List Char
  | 'r' :: '#' :: rest => dropRawMarks rest
  | cs => cs

namespace Field

/-- The key of a field. -/
def key (f : Field) : String :=
  f.rename.getD (String.ofList (dropRawMarks f.name.toList))

/-- Whether a field becomes an attribute. -/
def isAttribute (f : Field) : Bool := !f.skip && !f.children

/-- Whether a field gives the content. -/
def isContent (f : Field) : Bool := f.children && !f.skip

end Field

/-- A declared field whose value is an attribute. -/
def Declaration.attribute (d : Declaration) (v : AttributeValue) : Field :=
  ⟨d.name, d.rename, d.skip, false, v, .ofAttribute v⟩

/-- A declared field whose value is the content. -/
def Declaration.content (d : Declaration) (c : Content) : Field :=
  ⟨d.name, d.rename, d.skip, true, .null, c⟩

/-- The pairs of the fields that become attributes, in their order. -/
def pairs (fields : List Field) : List (String × AttributeValue) :=
  (fields.filter Field.isAttribute).map fun f => (f.key, f.asAttribute)

/-- The props of a record. -/
def toProps (fields : List Field) : Props :=
  let p := (fields.filter Field.isAttribute).foldl (fun p f => p.insert f.key f.asAttribute)
    Props.empty
  match fields.find? Field.isContent with
  | some f => p.setChildren f.asContent
  | none => p

/-- The props of a record are those of its pairs, with the content that a field gives. -/
theorem toProps_eq (fields : List Field) : toProps fields =
    match fields.find? Field.isContent with
    | some f => (Props.ofPairs (pairs fields)).setChildren f.asContent
    | none => Props.ofPairs (pairs fields) := by
  have inserts : (fields.filter Field.isAttribute).foldl
      (fun p f => p.insert f.key f.asAttribute) Props.empty = Props.ofPairs (pairs fields) := by
    rw [pairs, Props.ofPairs, List.foldl_map]
  simp only [toProps, inserts]

end Record
end Markup
