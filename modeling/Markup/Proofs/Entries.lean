/-
# Inner lists are written flat

The items of the outermost list of a template follow each other without separators; a list
that stands in another one is written with commas, whatever stands in it in turn. Its
commas are put between the items at every level, each by the place of an item in its own
list, and still the text is that of one flat list: the row of entries at the ends of the
tree, from left to right, with a comma between two that follow each other
(`Template.Value.itemText_eq_commaJoin`). An absent value is an entry without a text, and
so is an empty list; no other list is seen.

Key definitions: `Template.Entry`, `Template.commaJoin`, `Template.Value.entries`.
Key theorems: `Template.count_commaJoin`, `Template.Value.itemText_eq_commaJoin`,
`Template.Value.entries_ungroup`, `Template.lists_flatten`.
-/
import Mathlib.Algebra.GroupWithZero.Nat
import Markup.Proofs.Slots

namespace Markup
namespace Template

/-! ### Entries -/

/-- What stands between the commas of an inner list. -/
inductive Entry where
  | empty
  | text (s : String)
  | number (n : Number)
  | bool (b : Bool)

/-- An entry as it is written. -/
def Entry.shown : Entry → String
  | .empty => ""
  | .text s => s
  | .number n => n.text
  | .bool b => boolText b

/-- Entries with a comma between two that follow each other. -/
def commaJoin (es : List Entry) : String := ",".intercalate (es.map Entry.shown)

theorem commaJoin_append {es fs : List Entry} (hes : es ≠ []) (hfs : fs ≠ []) :
    commaJoin (es ++ fs) = commaJoin es ++ "," ++ commaJoin fs := by
  have hes' : es.map Entry.shown ≠ [] := fun h => hes (List.map_eq_nil_iff.mp h)
  have hfs' : fs.map Entry.shown ≠ [] := fun h => hfs (List.map_eq_nil_iff.mp h)
  rw [commaJoin, List.map_append, String.intercalate_append_of_ne_nil hes' hfs']
  rfl

theorem commaJoin_singleton (e : Entry) : commaJoin [e] = e.shown :=
  String.intercalate_singleton

/-- There is one comma between two entries that follow each other, and any others are in the
texts of entries. -/
theorem count_commaJoin : ∀ es : List Entry, (commaJoin es).toList.count ','
    = (es.map fun e => e.shown.toList.count ',').sum + (es.length - 1)
  | [] => rfl
  | [e] => by simp [commaJoin_singleton]
  | e :: f :: es => by
    have hcons : e :: f :: es = [e] ++ (f :: es) := rfl
    have ih := count_commaJoin (f :: es)
    have hcomma : (",".toList).count ',' = 1 := rfl
    rw [hcons, commaJoin_append (List.cons_ne_nil e []) (List.cons_ne_nil f es),
      commaJoin_singleton, String.toList_append, String.toList_append, List.count_append,
      List.count_append, ih, hcomma]
    simp only [List.map_append, List.map_cons, List.map_nil, List.sum_append, List.sum_cons,
      List.sum_nil, List.length_append, List.length_cons, List.length_nil]
    omega

namespace Value

mutual

/-- The entries of an item, from left to right through all lists in it. -/
def entries : Value → List Entry
  | .null => [.empty]
  | .text s => [.text s]
  | .number n => [.number n]
  | .bool b => [.bool b]
  | .list [] => [.empty]
  | .list (item :: rest) => entries item ++ entriesAll rest

/-- The entries of items, from left to right. -/
def entriesAll : List Value → List Entry
  | [] => []
  | item :: rest => entries item ++ entriesAll rest

end

theorem entriesAll_eq_flatMap (items : List Value) : entriesAll items = items.flatMap entries := by
  induction items with
  | nil => rfl
  | cons item rest ih => rw [entriesAll, ih, List.flatMap_cons]

/-- A list that is not empty has the entries of its items and nothing of its own. -/
theorem entries_list {items : List Value} (h : items ≠ []) :
    (Value.list items).entries = items.flatMap entries := by
  cases items with
  | nil => exact absurd rfl h
  | cons item rest => rw [entries, entriesAll_eq_flatMap, List.flatMap_cons]

theorem entries_ne_nil : ∀ v : Value, v.entries ≠ []
  | .null | .text _ | .number _ | .bool _ | .list [] => List.cons_ne_nil _ _
  | .list (item :: rest) => by
    rw [entries]
    exact List.append_ne_nil_of_left_ne_nil (entries_ne_nil item) _

/-! ### Items as rows of entries -/

mutual

/-- **An item is written as the row of its entries.** -/
theorem itemText_eq_commaJoin : ∀ v : Value, v.itemText = commaJoin v.entries
  | .null | .text _ | .number _ | .bool _ | .list [] => by
    rw [itemText, entries, commaJoin_singleton, Entry.shown]
  | .list (item :: rest) => by
    rw [itemText, entries, itemText_eq_commaJoin item]
    exact commaJoin_append_restText rest (entries_ne_nil item)

/-- What is written behind the first item of a list goes on with its row. -/
theorem commaJoin_append_restText : ∀ (rest : List Value) {front : List Entry}, front ≠ [] →
    commaJoin front ++ restText rest = commaJoin (front ++ entriesAll rest)
  | [], front, _ => by
    rw [restText, entriesAll, List.append_nil, String.append_empty]
  | item :: rest, front, hfront => by
    have hboth : front ++ item.entries ≠ [] := List.append_ne_nil_of_left_ne_nil hfront _
    calc commaJoin front ++ restText (item :: rest)
        = commaJoin front ++ "," ++ commaJoin item.entries ++ restText rest := by
          rw [restText, itemText_eq_commaJoin item]
          simp only [String.append_assoc]
      _ = commaJoin (front ++ item.entries) ++ restText rest := by
          rw [commaJoin_append hfront (entries_ne_nil item)]
      _ = commaJoin (front ++ entriesAll (item :: rest)) := by
          rw [commaJoin_append_restText rest hboth, List.append_assoc, entriesAll]

end

/-- Empty entries keep their commas at any depth. -/
example : joined [.text "x", .list [.text "a", .list [.null, .text "b"], .list []]]
    = "xa,,b," := by decide

/-- A list in a list is not seen, unless it is empty. -/
theorem entries_ungroup (front back : List Value) {inner : List Value} (h : inner ≠ []) :
    (Value.list (front ++ .list inner :: back)).entries
      = (Value.list (front ++ inner ++ back)).entries := by
  have hwrapped : front ++ .list inner :: back ≠ [] :=
    List.append_ne_nil_of_right_ne_nil front (List.cons_ne_nil _ back)
  have hopen : front ++ inner ++ back ≠ [] :=
    List.append_ne_nil_of_left_ne_nil (List.append_ne_nil_of_right_ne_nil front h) back
  rw [entries_list hwrapped, entries_list hopen, List.flatMap_append, List.flatMap_cons,
    entries_list h, List.flatMap_append, List.flatMap_append, List.append_assoc]

theorem apply_empty (policy : Policy) : policy.apply "" = "" := by
  cases policy with
  | escape => rw [apply_escape, Text.escape_empty]
  | raw => rfl

/-- The items of the outermost list have no commas between them. -/
theorem write_list (policy : Policy) (items : List Value) : (Value.list items).write policy
    = policy.apply (String.join (items.map fun item => commaJoin item.entries)) := by
  have texts : items.map itemText = items.map fun item => commaJoin item.entries :=
    List.map_congr_left fun item _ => itemText_eq_commaJoin item
  rw [write, joined, texts]

end Value

/-- **Lists in lists are written flat.**

* An item of a list, whatever lists are in it, is written as its entries from left to right
  with a comma between two that follow each other, and no other comma is written but those
  in the texts of entries.
* An absent value and an empty list are one entry without a text each; any other list has
  the entries of its items.
* So a list that is not empty can be opened wherever it stands in another one.
* The items of the outermost list follow each other without separators, and the whole is
  written under the policy; an absent value and an empty list at the top are empty. -/
theorem lists_flatten :
    (∀ v : Value, v.itemText = commaJoin v.entries ∧
      v.itemText.toList.count ','
        = (v.entries.map fun e => e.shown.toList.count ',').sum + (v.entries.length - 1)) ∧
    (Value.null.entries = [.empty] ∧ ∀ items : List Value, (Value.list items).entries
      = if items = [] then [.empty] else items.flatMap Value.entries) ∧
    (∀ (front : List Value) (first : Value) (rest back : List Value),
      (Value.list (front ++ .list (first :: rest) :: back)).itemText
        = (Value.list (front ++ first :: rest ++ back)).itemText) ∧
    ∀ policy : Policy, Value.null.write policy = "" ∧ (Value.list []).write policy = "" ∧
      ∀ items : List Value, (Value.list items).write policy
        = policy.apply (String.join (items.map fun item => commaJoin item.entries)) := by
  refine ⟨fun v => ⟨v.itemText_eq_commaJoin, ?_⟩, ⟨rfl, fun items => ?_⟩,
    fun front first rest back => ?_,
    fun policy => ⟨rfl, Value.apply_empty policy, Value.write_list policy⟩⟩
  · rw [v.itemText_eq_commaJoin, count_commaJoin]
  · split_ifs with h
    · rw [h]
      rfl
    · exact Value.entries_list h
  · rw [Value.itemText_eq_commaJoin, Value.itemText_eq_commaJoin,
      Value.entries_ungroup front back (List.cons_ne_nil first rest)]

end Template
end Markup
