/-
# Content by its leaves

Content is a tree, and what can be seen of it is the row of its leaves from left to
right: its text in the end is their texts one behind the other (`value_resolve`), and it
waits for what they wait for (`awaited_eq`). Lists only group leaves, and absent content
is a row without any. Growing content appends to the row (`leaves_grow`); and the tags
of a literal element stand around it (`value_buildLiteral`).

Key definitions: `Leaf`, `Content.leaves`, `Content.value`, `Props.leaves`.
Key theorems: `Content.value_resolve`, `Content.awaited_eq`, `Props.leaves_grow`,
`value_buildLiteral`, `value_buildFragment`.
-/
import Markup.Proofs.Survivors

namespace Markup

/-- Content that is not made of other content. -/
inductive Leaf where
  | text (s : String)
  | number (n : Number)
  | bool (b : Bool)
  | pending (d : Deferred)

namespace Leaf

/-- A leaf as content. -/
def content : Leaf → Content
  | .text s => .text s
  | .number n => .number n
  | .bool b => .bool b
  | .pending d => .pending d

/-- The text of a leaf when each channel has its outcome. -/
def value (outcome : Nat → String) : Leaf → String
  | .text s => s
  | .number n => n.text
  | .bool b => boolText b
  | .pending d => d.value outcome

/-- What a leaf waits for. -/
def awaited : Leaf → List Deferred
  | .text _ | .number _ | .bool _ => []
  | .pending d => [d]

/-- The texts of leaves one behind the other. -/
def joined (outcome : Nat → String) (ls : List Leaf) : String :=
  String.join (ls.map (value outcome))

theorem joined_nil (outcome : Nat → String) : joined outcome [] = "" := String.join_nil

theorem joined_singleton (outcome : Nat → String) (l : Leaf) :
    joined outcome [l] = l.value outcome := by
  rw [joined, List.map_singleton, String.join_cons, String.join_nil, String.append_empty]

theorem joined_append (outcome : Nat → String) (ls ms : List Leaf) :
    joined outcome (ls ++ ms) = joined outcome ls ++ joined outcome ms := by
  rw [joined, List.map_append, String.join_append]
  rfl

end Leaf

/-! ### The row of leaves -/

namespace Content

mutual

/-- The leaves of content from left to right; absent content has none. -/
def leaves : Content → List Leaf
  | .null => []
  | .text s => [.text s]
  | .number n => [.number n]
  | .bool b => [.bool b]
  | .list items => leavesAll items
  | .pending d => [.pending d]

/-- The leaves of items from left to right. -/
def leavesAll : List Content → List Leaf
  | [] => []
  | item :: rest => leaves item ++ leavesAll rest

end

theorem leavesAll_append : ∀ items others : List Content,
    leavesAll (items ++ others) = leavesAll items ++ leavesAll others
  | [], _ => rfl
  | item :: rest, others => by
    rw [List.cons_append, leavesAll, leavesAll, leavesAll_append rest others, List.append_assoc]

theorem leaves_content (l : Leaf) : l.content.leaves = [l] := by
  cases l <;> rfl

/-- The text of content when each channel has its outcome. -/
def value (outcome : Nat → String) (c : Content) : String := Leaf.joined outcome c.leaves

theorem value_content (outcome : Nat → String) (l : Leaf) :
    l.content.value outcome = l.value outcome := by
  rw [value, leaves_content, Leaf.joined_singleton]

/-- A list has the texts of its items one behind the other. -/
theorem value_list (outcome : Nat → String) (items : List Content) :
    (Content.list items).value outcome = String.join (items.map (value outcome)) := by
  induction items with
  | nil => rfl
  | cons item rest ih =>
    rw [value, leaves] at ih ⊢
    rw [leavesAll, Leaf.joined_append, ih, List.map_cons, String.join_cons]
    rfl

section Resolving

variable (outcome : Nat → String)

mutual

/-- Settled content has the texts of the leaves. -/
theorem readyText_settle_eq : ∀ c : Content, (c.settle outcome).readyText = c.value outcome
  | .null => by rw [settle, readyText, value, leaves, Leaf.joined_nil]
  | .text s => by rw [settle, readyText, value, leaves, Leaf.joined_singleton, Leaf.value]
  | .number n => by rw [settle, readyText, value, leaves, Leaf.joined_singleton, Leaf.value]
  | .bool b => by rw [settle, readyText, value, leaves, Leaf.joined_singleton, Leaf.value]
  | .list items => by
    rw [settle, readyText, value, leaves]
    exact readyTexts_settleAll_eq items
  | .pending d => by rw [settle, readyText, value, leaves, Leaf.joined_singleton, Leaf.value]

theorem readyTexts_settleAll_eq : ∀ items : List Content,
    readyTexts (settleAll outcome items) = Leaf.joined outcome (leavesAll items)
  | [] => by rw [settleAll, readyTexts, leavesAll, Leaf.joined_nil]
  | item :: rest => by
    rw [settleAll, readyTexts, readyText_settle_eq item, readyTexts_settleAll_eq rest, leavesAll,
      Leaf.joined_append]
    rfl

end

/-- **Resolving.** The element that content resolves to has the texts of its leaves. -/
theorem value_resolve (c : Content) : c.resolve.value outcome = c.value outcome := by
  have settled : (c.settle outcome).resolve = .ready (c.resolve.value outcome) :=
    resolve_settle outcome c
  rw [← readyText_settle_eq outcome c]
  cases c with
  | list items => rw [resolve, value_resolveAll, settle, readyText]
  | null | text s | number n | bool b | pending d => exact (Element.ready.inj settled).symm

theorem value_ofElement (e : Element) : (ofElement e).value outcome = e.value outcome := by
  cases e with
  | ready s => exact Leaf.joined_singleton outcome (.text s)
  | pending d => exact Leaf.joined_singleton outcome (.pending d)

end Resolving

mutual

/-- Content waits for what its leaves wait for. -/
theorem awaited_eq : ∀ c : Content, c.awaited = c.leaves.flatMap Leaf.awaited
  | .null | .text _ | .number _ | .bool _ | .pending _ => rfl
  | .list items => by
    rw [awaited, leaves]
    exact awaitedAll_eq items

theorem awaitedAll_eq : ∀ items : List Content,
    awaitedAll items = (leavesAll items).flatMap Leaf.awaited
  | [] => rfl
  | item :: rest => by
    rw [awaitedAll, leavesAll, List.flatMap_append, awaited_eq item, awaitedAll_eq rest]

end

/-- Resolved content is pending exactly if the content is. -/
theorem isPending_resolve (c : Content) : c.resolve.isPending = c.isPending := by
  cases c with
  | list items =>
    rw [resolve, resolveAll, isPending]
    cases anyPending items <;> rfl
  | null | text s | number n | bool b | pending d => rfl

end Content

/-! ### Props -/

namespace Props

/-- The leaves of the content of props. -/
def leaves (p : Props) : List Leaf := (p.children.getD .null).leaves

/-- The text of the content of props when each channel has its outcome. -/
def value (outcome : Nat → String) (p : Props) : String := Leaf.joined outcome p.leaves

theorem awaited_eq (p : Props) : p.awaited = p.leaves.flatMap Leaf.awaited :=
  Content.awaited_eq _

/-- What is in a slot, item by item. -/
def items : Option Content → List Content
  | none => []
  | some (.list items) => items
  | some c => [c]

/-- Growing appends the child as one item. -/
theorem grow_eq (existing : Option Content) (c : Content) :
    grow existing c = .list (items existing ++ [c]) := by
  rcases existing with _ | existing
  · rfl
  · cases existing <;> rfl

theorem leavesAll_items (existing : Option Content) :
    Content.leavesAll (items existing) = (existing.getD .null).leaves := by
  rcases existing with _ | existing
  · rfl
  · cases existing <;> rfl

/-- **Growing appends leaves.** -/
theorem leaves_grow (existing : Option Content) (c : Content) :
    (grow existing c).leaves = (existing.getD .null).leaves ++ c.leaves := by
  have last : Content.leavesAll [c] = c.leaves := List.append_nil _
  rw [grow_eq, Content.leaves, Content.leavesAll_append, leavesAll_items, last]

theorem leaves_pushChild (p : Props) (c : Content) :
    (p.pushChild c).leaves = p.leaves ++ c.leaves := leaves_grow p.children c

theorem value_pushChild (outcome : Nat → String) (p : Props) (c : Content) :
    (p.pushChild c).value outcome = p.value outcome ++ c.value outcome := by
  rw [value, leaves_pushChild, Leaf.joined_append]
  rfl

end Props

/-! ### Built elements -/

section Build

variable (outcome : Nat → String)

theorem Element.value_map (f : String → String) (e : Element) :
    (e.map f).value outcome = f (e.value outcome) := by
  cases e with
  | ready s => rfl
  | pending d => rw [map, value, value, Deferred.value]

/-- A void element has its opening tag alone, any other literal element the texts of the
leaves between its tags. -/
theorem value_buildLiteral (form : ChildrenForm) (name : String) (p : Props) :
    (buildLiteral form name p).value outcome =
      if Vocabulary.isVoid name then openingTag name p ++ ">"
      else openingTag name p ++ ">" ++ p.value outcome ++ closingTag name := by
  rw [buildLiteral_eq]
  split
  · rfl
  · rw [Element.value_map, Content.value_resolve]
    rfl

theorem value_buildFragment (p : Props) : (buildFragment p).value outcome = p.value outcome := by
  rw [buildFragment_eq, Content.value_resolve]
  rfl

end Build

end Markup
