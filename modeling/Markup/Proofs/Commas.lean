/-
# Commas are all that lists of a template add

A value can be written into a template, or given to an element as content of the same
shape (`Template.Value.content`). The first joins the items of a list and escapes what
results, the second escapes every text and joins what results. Since escaping goes over
a joined text part by part (`readyText_content_escape`), they write the same but for one
thing: a template puts commas between the items of a list that stands in another list.

The commas are counted. What a template writes is longer than the content by their
number, and the content is what is left without them (`Padded`,
`Template.Value.padded_itemText`), so both are the same text exactly if there is no
comma, which is to say that no inner list has a second item
(`Template.Value.write_eq_iff_narrow`).

Key definitions: `Template.Value.content`, `Template.Value.Narrow`, `Padded`.
Key theorems: `Template.Value.padded_itemText`, `Template.Value.write_eq_iff_narrow`,
`Template.content_shows_iff`.
-/
import Markup.Build
import Markup.Proofs.Slots

namespace Markup

/-! ### More characters in between -/

/-- The second text is the first with `n` more characters in between. -/
structure Padded (n : Nat) (s t : String) : Prop where
  sublist : s.toList.Sublist t.toList
  length_eq : t.toList.length = s.toList.length + n

namespace Padded

theorem refl (s : String) : Padded 0 s s := ⟨List.Sublist.refl _, rfl⟩

theorem append {m n : Nat} {s t u v : String} (h : Padded m s t) (h' : Padded n u v) :
    Padded (m + n) (s ++ u) (t ++ v) := by
  refine ⟨?_, ?_⟩
  · rw [String.toList_append, String.toList_append]
    exact h.sublist.append h'.sublist
  · have hm := h.length_eq
    have hn := h'.length_eq
    simp only [String.toList_append, List.length_append]
    omega

/-- A comma in front is one more. -/
theorem comma {n : Nat} {s t : String} (h : Padded n s t) : Padded (1 + n) s ("," ++ t) := by
  have one : Padded 1 "" "," := ⟨List.nil_sublist _, rfl⟩
  have both := one.append h
  rw [String.empty_append] at both
  exact both

/-- Nothing is in between exactly if the texts are the same. -/
theorem eq_iff {n : Nat} {s t : String} (h : Padded n s t) : t = s ↔ n = 0 := by
  have lengths : s.toList.length = t.toList.length ↔ n = 0 := by
    have hn := h.length_eq
    omega
  rw [← lengths, h.sublist.length_eq, String.toList_inj, eq_comm]

end Padded

namespace Template

/-! ### Values as content -/

/-- A text as content under a policy. -/
def Policy.content : Policy → String → Content
  | .escape, s => .escaped s
  | .raw, s => .text s

namespace Value

mutual

/-- A value as content of the same shape, with its texts under a policy. -/
def content (policy : Policy) : Value → Content
  | .null => .null
  | .text s => policy.content s
  | .number n => .number n
  | .bool b => .bool b
  | .list items => .list (contents policy items)

/-- The items of a list as content. -/
def contents (policy : Policy) : List Value → List Content
  | [] => []
  | item :: rest => content policy item :: contents policy rest

end

mutual

/-- Nothing in a value is deferred. -/
theorem isPending_content (policy : Policy) : ∀ v : Value, (v.content policy).isPending = false
  | .null | .number _ | .bool _ => rfl
  | .text _ => by cases policy <;> rfl
  | .list items => by
    rw [content, Content.isPending]
    exact anyPending_contents policy items

theorem anyPending_contents (policy : Policy) :
    ∀ items : List Value, Content.anyPending (contents policy items) = false
  | [] => rfl
  | item :: rest => by
    rw [contents, Content.anyPending, isPending_content policy item,
      anyPending_contents policy rest]
    rfl

end

/-- The text of a value that is given as content. -/
def shown (policy : Policy) (v : Value) : String := (v.content policy).readyText

theorem resolve_content (policy : Policy) (v : Value) :
    (v.content policy).resolve = .ready (v.shown policy) :=
  Content.resolve_of_ready (isPending_content policy v)

/-! ### Escaping before and after -/

mutual

/-- **Escaping the texts escapes what results.** -/
theorem readyText_content_escape : ∀ v : Value,
    (v.content .escape).readyText = Text.escape (v.content .raw).readyText
  | .null => Text.escape_empty.symm
  | .text s => rfl
  | .number n => (Text.escape_plain n.plain_text).symm
  | .bool b => (Text.escape_plain (plain_boolText b)).symm
  | .list items => by
    rw [content, content, Content.readyText, Content.readyText]
    exact readyTexts_contents_escape items

theorem readyTexts_contents_escape : ∀ items : List Value,
    Content.readyTexts (contents .escape items)
      = Text.escape (Content.readyTexts (contents .raw items))
  | [] => Text.escape_empty.symm
  | item :: rest => by
    rw [contents, contents, Content.readyTexts, Content.readyTexts, Text.escape_append,
      readyText_content_escape item, readyTexts_contents_escape rest]

end

/-- What is written escaped is what is written raw, escaped. -/
theorem write_escape (v : Value) : v.write .escape = Text.escape (v.write .raw) := by
  cases v with
  | null => exact Text.escape_empty.symm
  | text s => exact apply_escape s
  | number n => exact (Text.escape_plain n.plain_text).symm
  | bool b => exact (Text.escape_plain (plain_boolText b)).symm
  | list items => exact apply_escape (joined items)

/-- The policy makes no difference to whether both texts are the same. -/
theorem write_eq_shown_iff (policy : Policy) (v : Value) :
    v.write policy = v.shown policy ↔ v.write .raw = v.shown .raw := by
  cases policy with
  | raw => rfl
  | escape => rw [write_escape, shown, readyText_content_escape, Text.escape_inj, shown]

/-! ### Counting commas -/

mutual

/-- The number of commas that an item of a list is written with: one less than the items
of a list, and those that are in them. -/
def commas : Value → Nat
  | .null | .text _ | .number _ | .bool _ => 0
  | .list items => items.length - 1 + allCommas items

/-- The number of commas that are in the items of a list. -/
def allCommas : List Value → Nat
  | [] => 0
  | item :: rest => commas item + allCommas rest

end

mutual

/-- **An item is written with its commas and nothing else.** -/
theorem padded_itemText : ∀ v : Value, Padded v.commas (v.shown .raw) v.itemText
  | .null | .text _ | .number _ | .bool _ => .refl _
  | .list [] => .refl _
  | .list (item :: rest) => by
    have both := (padded_itemText item).append (padded_restText rest)
    have count : (Value.list (item :: rest)).commas
        = item.commas + (rest.length + allCommas rest) := by
      rw [commas, allCommas, List.length_cons]
      omega
    rw [count, itemText]
    exact both

/-- Behind the first item every one brings a comma in front of it. -/
theorem padded_restText : ∀ rest : List Value,
    Padded (rest.length + allCommas rest) (Content.readyTexts (contents .raw rest)) (restText rest)
  | [] => .refl _
  | item :: rest => by
    have both := ((padded_itemText item).append (padded_restText rest)).comma
    have count : (item :: rest).length + allCommas (item :: rest)
        = 1 + (item.commas + (rest.length + allCommas rest)) := by
      rw [allCommas, List.length_cons]
      omega
    rw [count, restText, String.append_assoc]
    exact both

end

/-- The items of an outer list stand next to each other without commas. -/
theorem padded_joined : ∀ items : List Value,
    Padded (allCommas items) (Content.readyTexts (contents .raw items)) (joined items)
  | [] => .refl _
  | item :: rest => by
    have ih := padded_joined rest
    rw [joined] at ih ⊢
    rw [allCommas, List.map_cons, String.join_cons]
    exact (padded_itemText item).append ih

/-! ### Inner lists -/

/-- A value stands in a list of another one, at any depth. -/
inductive Within (w : Value) : Value → Prop
  | item {items : List Value} (h : w ∈ items) : Within w (.list items)
  | deeper {items : List Value} {v : Value} (h : v ∈ items) (inner : Within w v) :
    Within w (.list items)

/-- No list that stands in another list has a second item. -/
def Narrow (v : Value) : Prop := ∀ items, Within (.list items) v → items.length ≤ 1

/-- A value that is a list without a second item, or no list. -/
def Short (v : Value) : Prop := ∀ items, v = .list items → items.length ≤ 1

theorem narrow_leaf {v : Value} (h : ∀ items, v ≠ .list items) : v.Narrow := by
  intro items inner
  cases inner with
  | item _ | deeper _ _ => exact absurd rfl (h _)

theorem narrow_list_iff {items : List Value} :
    (Value.list items).Narrow ↔ ∀ v ∈ items, v.Short ∧ v.Narrow := by
  refine ⟨fun h v hv => ⟨fun inner hinner => ?_, fun inner hinner => ?_⟩, fun h inner hinner => ?_⟩
  · rw [hinner] at hv
    exact h inner (.item hv)
  · exact h inner (.deeper hv hinner)
  · cases hinner with
    | item hv => exact (h _ hv).1 inner rfl
    | deeper hv below => exact (h _ hv).2 inner below

mutual

/-- An item has no comma exactly if neither it nor a list in it has a second item. -/
theorem commas_eq_zero_iff : ∀ v : Value, v.commas = 0 ↔ v.Short ∧ v.Narrow
  | .null | .text _ | .number _ | .bool _ => by
    refine ⟨fun _ => ⟨fun items h => ?_, narrow_leaf fun items h => ?_⟩, fun _ => rfl⟩
    all_goals cases h
  | .list items => by
    have short_iff : (Value.list items).Short ↔ items.length - 1 = 0 := by
      refine ⟨fun h => ?_, fun h others heq => ?_⟩
      · have one := h items rfl
        omega
      · cases heq
        omega
    rw [commas, Nat.add_eq_zero_iff, short_iff, allCommas_eq_zero_iff items]

/-- The items of a list have no comma exactly if no list in it has a second item. -/
theorem allCommas_eq_zero_iff : ∀ items : List Value,
    allCommas items = 0 ↔ (Value.list items).Narrow
  | [] => ⟨fun _ => narrow_list_iff.mpr fun _ h => absurd h List.not_mem_nil, fun _ => rfl⟩
  | item :: rest => by
    rw [allCommas, Nat.add_eq_zero_iff, commas_eq_zero_iff item, allCommas_eq_zero_iff rest,
      narrow_list_iff, narrow_list_iff, List.forall_mem_cons]

end

/-- **Where both agree.** A template writes a value as it shows as content exactly if no
inner list has a second item. -/
theorem write_eq_iff_narrow (policy : Policy) (v : Value) :
    v.write policy = v.shown policy ↔ v.Narrow := by
  rw [write_eq_shown_iff]
  cases v with
  | list items => exact (padded_joined items).eq_iff.trans (allCommas_eq_zero_iff items)
  | null | text s | number n | bool b =>
    refine ⟨fun _ => narrow_leaf fun items h => ?_, fun _ => rfl⟩
    cases h

end Value

/-! ### Between tags -/

/-- A value between two parts, the first of which has no mark at its end. -/
theorem fill_around {front : String} (h : ∀ s, front ≠ s ++ "!") (back : String) (v : Value) :
    fill [front, back] [v] = front ++ v.escaped ++ back := by
  have steps : slots [front, back] [v] = [.literal front, .value v .escape, .literal back] := by
    rw [slots_cons, List.getElem?_cons_zero, Option.getD_some, slot_unmarked h]
    rfl
  rw [fill_eq_join_slots, steps]
  simp only [List.map_cons, List.map_nil, String.join_cons, String.join_nil, String.append_empty,
    String.append_assoc]
  rfl

/-- **Templates and elements show a value alike but for commas.** Content of the shape of a
value, with its texts escaped or as they are, resolves at once, and

* its text is what a template writes of the value in an escaped or in a raw slot exactly
  if no list that stands in another list, at any depth, has a second item;
* a literal element that is not void shows it as a template does that has the value in an
  escaped slot between the tags, under the same condition. -/
theorem content_shows_iff (v : Value) :
    (∃ s, (v.content .escape).resolve = .ready s ∧ (v.escaped = s ↔ v.Narrow)) ∧
    (∃ s, (v.content .raw).resolve = .ready s ∧ (v.write .raw = s ↔ v.Narrow)) ∧
    ∀ (form : ChildrenForm) (name : String), Vocabulary.isVoid name = false →
      (build form (.name name) (Props.empty.setChildren (v.content .escape))
        = .ready (fill ["<" ++ name ++ ">", "</" ++ name ++ ">"] [v]) ↔ v.Narrow) := by
  refine ⟨⟨_, Value.resolve_content .escape v, Value.write_eq_iff_narrow .escape v⟩,
    ⟨_, Value.resolve_content .raw v, Value.write_eq_iff_narrow .raw v⟩,
    fun form name hvoid => ?_⟩
  have opening : openingTag name (Props.empty.setChildren (v.content .escape)) = "<" ++ name :=
    String.append_empty
  have body : ((Props.empty.setChildren (v.content .escape)).children.getD .null).resolve
      = .ready (v.shown .escape) := Value.resolve_content .escape v
  have unmarked : ∀ s, "<" ++ name ++ ">" ≠ s ++ "!" := by
    intro s h
    -- whatever the name is, the part ends with the angle of the tag
    have angle : ("<" ++ name ++ ">").toList.getLast? = some '>' := by
      rw [String.toList_append]
      exact List.getLast?_concat
    have mark : (s ++ "!").toList.getLast? = some '!' := by
      rw [String.toList_append]
      exact List.getLast?_concat
    rw [h, mark] at angle
    cases angle
  rw [build, buildLiteral_eq, hvoid, if_neg Bool.false_ne_true, body, opening, Element.map,
    Element.ready.injEq, fill_around unmarked, closingTag, String.append_left_inj,
    String.append_right_inj, eq_comm]
  exact Value.write_eq_iff_narrow .escape v

/-- A list in a list keeps both texts the same if it has one item. -/
theorem content_shows_narrow :
    build .any (.name "n") (Props.empty.setChildren
        (.list [.escaped "a<b", .list [.number (.int 5)], .null]))
      = .ready (fill ["<n>", "</n>"] [.list [.text "a<b", .list [.number (.int 5)], .null]]) := by
  have narrow : (Value.list [.text "a<b", .list [.number (.int 5)], .null]).Narrow := by
    rw [← Value.allCommas_eq_zero_iff]
    rfl
  exact ((content_shows_iff (.list [.text "a<b", .list [.number (.int 5)], .null])).2.2
    .any "n" (by decide)).mpr narrow

end Template
end Markup
