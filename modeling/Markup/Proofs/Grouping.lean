/-
# Grouping makes no difference

One row of leaves can be grouped in many ways: in lists of any depth, empty ones among
them, with absent content between the leaves, and with a run of them wrapped in a
fragment, whatever its attributes are (`Content.Groups`). Regrouping moves texts from one
segment to another, turns a leaf into a list and wraps deferred texts in joins of their
own; but however content groups its leaves, it has their texts one behind the other
(`Groups.value_eq`) and waits for what they wait for (`Groups.awaited`). So nothing that
is built from it tells two groupings apart (`alike_of_groups`): no list, no fragment, no
literal element, and no component that is written as an expression.

Key definitions: `Content.Groups`.
Key theorems: `Content.groups_leaves`, `Content.Groups.value_eq`,
`Content.Groups.awaited`, `alike_of_groups`.
-/
import Markup.Proofs.Observation

namespace Markup

namespace Content

/-- When content groups a row of leaves. -/
inductive Groups : List Leaf → Content → Prop
  /-- Absent content groups none, -/
  | null : Groups [] .null
  /-- a leaf itself, -/
  | leaf (l : Leaf) : Groups [l] l.content
  /-- an empty list none, -/
  | nil : Groups [] (.list [])
  /-- a list the leaves of its first item and those of the others, -/
  | cons {ls ms : List Leaf} {item : Content} {items : List Content} (first : Groups ls item)
      (rest : Groups ms (.list items)) : Groups (ls ++ ms) (.list (item :: items))
  /-- and a fragment those of its content. -/
  | fragment {ls : List Leaf} {slot : Option Content} (form : ChildrenForm)
      (attributes : List (String × AttributeValue)) (inner : Groups ls (slot.getD .null)) :
      Groups ls (.ofElement (build form .fragment ⟨attributes, slot⟩))

mutual

/-- Content groups its own leaves. -/
theorem groups_leaves : ∀ c : Content, Groups c.leaves c
  | .null => .null
  | .text s => .leaf (.text s)
  | .number n => .leaf (.number n)
  | .bool b => .leaf (.bool b)
  | .pending d => .leaf (.pending d)
  | .list items => by
    rw [leaves]
    exact groups_leavesAll items

theorem groups_leavesAll : ∀ items : List Content, Groups (leavesAll items) (.list items)
  | [] => .nil
  | item :: rest => by
    rw [leavesAll]
    exact .cons (groups_leaves item) (groups_leavesAll rest)

end

namespace Groups

variable {ls : List Leaf} {c : Content}

/-- **The text of a grouping** is that of its leaves. -/
theorem value_eq (h : Groups ls c) (outcome : Nat → String) :
    c.value outcome = Leaf.joined outcome ls := by
  induction h with
  | null => rfl
  | leaf l => rw [value_content, Leaf.joined_singleton]
  | nil => rfl
  | @cons ls ms item items _ _ first_ih rest_ih =>
    rw [value_list] at rest_ih ⊢
    rw [List.map_cons, String.join_cons, first_ih, rest_ih, Leaf.joined_append]
  | @fragment ls slot form attributes _ ih =>
    have built : (build form .fragment ⟨attributes, slot⟩).value outcome
        = (slot.getD .null).value outcome := value_buildFragment outcome ⟨attributes, slot⟩
    rw [value_ofElement, built, ih]

/-- **Waiting for a grouping** is waiting for its leaves. -/
theorem awaited (h : Groups ls c) : AwaitedAlike c.awaited (ls.flatMap Leaf.awaited) := by
  induction h with
  | null => exact AwaitedAlike.refl []
  | leaf l =>
    rw [Content.awaited_eq, leaves_content]
    exact AwaitedAlike.refl _
  | nil => exact AwaitedAlike.refl []
  | @cons ls ms item items _ _ first_ih rest_ih =>
    rw [Content.awaited] at rest_ih ⊢
    rw [awaitedAll, List.flatMap_append]
    exact first_ih.append rest_ih
  | @fragment ls slot form attributes _ ih =>
    rw [awaited_ofElement]
    exact (buildFragment_awaited ⟨attributes, slot⟩).trans ih

end Groups

/-- Two groupings of one row resolve to alike elements. -/
theorem Groups.resolve_alike {ls : List Leaf} {c c' : Content} (h : Groups ls c)
    (h' : Groups ls c') : c.resolve.Alike c'.resolve := by
  refine Element.Alike.of_awaited (fun outcome => ?_) ?_
  · rw [value_resolve, value_resolve, h.value_eq, h'.value_eq]
  · have waits : AwaitedAlike c.awaited c'.awaited := h.awaited.trans h'.awaited.symm
    exact (resolve_awaited c).trans (waits.trans (resolve_awaited c').symm)

/-- Content that groups no leaf resolves to the empty text. -/
theorem Groups.resolve_empty {c : Content} (h : Groups [] c) : c.resolve = .ready "" := by
  have alike : c.resolve.Alike (.ready "") := h.resolve_alike .null
  cases hc : c.resolve with
  | ready s =>
    rw [hc] at alike
    exact congrArg Element.ready (Option.some.inj alike.text?_eq)
  | pending d =>
    rw [hc] at alike
    cases alike.isPending_eq

end Content

open Content

/-- Slots without any leaf: no content, absent content, an empty list, and a list of
absent content. -/
def blankSlots : List (Option Content) := [none, some .null, some (.list []), some (.list [.null])]

theorem groups_of_blank {slot : Option Content} (h : slot ∈ blankSlots) :
    Groups [] (slot.getD .null) := by
  have leafless : (slot.getD .null).leaves = [] := by
    simp only [blankSlots, List.mem_cons, List.not_mem_nil, or_false] at h
    rcases h with rfl | rfl | rfl | rfl <;> rfl
  rw [← leafless]
  exact groups_leaves _

/-- A literal element around no leaf. -/
theorem build_of_leafless {slot : Option Content} (h : Groups [] (slot.getD .null))
    (form : ChildrenForm) (name : String) (attributes : List (String × AttributeValue)) :
    build form (.name name) ⟨attributes, slot⟩ =
      .ready (openingTag name ⟨attributes, slot⟩ ++ ">" ++
        if Vocabulary.isVoid name then "" else closingTag name) := by
  rw [build, buildLiteral_eq, h.resolve_empty]
  by_cases hvoid : Vocabulary.isVoid name = true
  · rw [if_pos hvoid, if_pos hvoid, String.append_empty]
  · rw [if_neg hvoid, if_neg hvoid, Element.map, String.append_empty]

/-- **Grouping makes no difference.** Every content groups its own leaves. Of two slots
whose contents group one row of leaves

* both resolve to alike elements;
* any tag builds alike elements from both, with any attributes and however the content is
  announced: a literal tag, a fragment, or a component whose body is an expression;
* if the row is empty, as in every blank slot, the tags of a literal element stand with
  nothing between them, and a void element has its opening tag alone. -/
theorem alike_of_groups {ls : List Leaf} {slot slot' : Option Content}
    (h : Groups ls (slot.getD .null)) (h' : Groups ls (slot'.getD .null)) :
    (∀ c : Content, Groups c.leaves c) ∧
    (slot.getD .null).resolve.Alike (slot'.getD .null).resolve ∧
    (∀ (tag : Expr .tag) (scope : Props) (form form' : ChildrenForm)
      (attributes : List (String × AttributeValue)),
      (build form (tag.eval scope).1 ⟨attributes, slot⟩).Alike
        (build form' (tag.eval scope).1 ⟨attributes, slot'⟩)) ∧
    (∀ blank ∈ blankSlots, Groups [] (blank.getD .null)) ∧
    (ls = [] → ∀ (form : ChildrenForm) (name : String)
      (attributes : List (String × AttributeValue)),
      build form (.name name) ⟨attributes, slot⟩ =
        .ready (openingTag name ⟨attributes, slot⟩ ++ ">" ++
          if Vocabulary.isVoid name then "" else closingTag name)) := by
  have waits : AwaitedAlike (slot.getD .null).awaited (slot'.getD .null).awaited :=
    h.awaited.trans h'.awaited.symm
  have read : ∀ (attributes : List (String × AttributeValue)) outcome,
      Props.ReadAlike outcome ⟨attributes, slot⟩ ⟨attributes, slot'⟩ := by
    intro attributes outcome
    exact ⟨rfl, (h.value_eq outcome).trans (h'.value_eq outcome).symm⟩
  refine ⟨groups_leaves, h.resolve_alike h', fun tag scope form form' attributes => ?_,
    fun blank hblank => groups_of_blank hblank, fun leafless form name attributes => ?_⟩
  · exact build_alike tag scope form form' (read attributes) waits
  · rw [leafless] at h
    exact build_of_leafless h form name attributes

/-- A text, a deferred text and a number, as a list of a list and as a list with a
fragment of the first two, an empty list and absent content. -/
theorem alike_of_groups_list :
    Groups [.text "a", .pending (.channel 0), .number (.int 1)]
      (.list [.text "a", .list [.pending (.channel 0), .number (.int 1)]]) ∧
    Groups [.text "a", .pending (.channel 0), .number (.int 1)]
      (.list [.ofElement (build .any .fragment ⟨[("id", .text "x")],
        some (.list [.text "a", .null, .pending (.channel 0)])⟩), .list [], .number (.int 1)]) ∧
    (build .any (.name "p") ⟨[], some (.list [.text "a",
      .list [.pending (.channel 0), .number (.int 1)]])⟩).Alike
    (build .sequence (.name "p") ⟨[], some (.list [.ofElement (build .any .fragment
      ⟨[("id", .text "x")], some (.list [.text "a", .null, .pending (.channel 0)])⟩),
        .list [], .number (.int 1)])⟩) := by
  have h : Groups [.text "a", .pending (.channel 0), .number (.int 1)]
      (.list [.text "a", .list [.pending (.channel 0), .number (.int 1)]]) :=
    groups_leaves (.list [.text "a", .list [.pending (.channel 0), .number (.int 1)]])
  have wrapped : Groups [.text "a", .pending (.channel 0)] (.ofElement (build .any .fragment
      ⟨[("id", .text "x")], some (.list [.text "a", .null, .pending (.channel 0)])⟩)) :=
    .fragment .any _ (groups_leaves (.list [.text "a", .null, .pending (.channel 0)]))
  have h' : Groups [.text "a", .pending (.channel 0), .number (.int 1)]
      (.list [.ofElement (build .any .fragment ⟨[("id", .text "x")],
        some (.list [.text "a", .null, .pending (.channel 0)])⟩), .list [], .number (.int 1)]) :=
    .cons wrapped (groups_leaves (.list [.list [], .number (.int 1)]))
  have alike := @alike_of_groups _ (some _) (some _) h h'
  exact ⟨h, h', alike.2.2.1 (.literal "p") .empty .any .sequence []⟩

/-- A component that shows whether its content is a list. -/
def showForm : Component :=
  ⟨none, fun p => match p.children with
    | some (.list _) => .ready "list"
    | _ => .ready "other"⟩

/-- Groupings are told apart by a component that is no expression and looks at the form of
its content, and blank slots do not bring a void element its closing tag. -/
theorem groups_told_apart :
    (∀ blank ∈ blankSlots, build .any (.name "br") ⟨[], blank⟩ = .ready "<br>" ∧
      build .any (.name "br") ⟨[], blank⟩ ≠ .ready "<br></br>") ∧
    Groups [] .null ∧ Groups [] (.list []) ∧
      ¬(build .any (.component showForm) ⟨[], some .null⟩).Alike
        (build .any (.component showForm) ⟨[], some (.list [])⟩) := by
  have void : Vocabulary.isVoid "br" = true := by decide +kernel
  have opening : "<" ++ "br" ++ Attribute.serialize [] ++ ">" = "<br>" := by decide +kernel
  have built : ∀ slot, build .any (.name "br") ⟨[], slot⟩ = .ready "<br>" := by
    intro slot
    rw [build, buildLiteral_eq, if_pos void]
    exact congrArg Element.ready opening
  refine ⟨fun blank _ => ⟨built blank, fun closed => ?_⟩, .null, .nil, fun alike => ?_⟩
  · rw [built] at closed
    exact absurd (Element.ready.inj closed) (by decide)
  · have texts := alike.text?_eq
    exact absurd (Option.some.inj texts) (by decide)

end Markup
