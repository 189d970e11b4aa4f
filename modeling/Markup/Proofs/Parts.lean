/-
# Escaping the whole is escaping the parts

What is written of a value in an escaped slot is what is written in a raw slot, escaped
(`Template.escape_parts`), although numbers and truth values are never given to
the escaping: their texts hold nothing that would be escaped, nor a single quote
(`Text.Untouched`).

Escaping goes over texts that are joined, with commas between them or not, one by one. So it
makes no difference either whether a list is joined and then escaped, or every text in it, at
any depth, escaped and then joined (`Value.itemText_escapeTexts`).

Key definitions: `Text.Untouched`, `Template.Value.escapeTexts`.
Key theorems: `Text.escape_join`, `Template.Value.itemText_escapeTexts`,
`Template.escape_parts`.
-/
import Markup.Proofs.Commas
import Markup.Proofs.ReadBack

namespace Markup

namespace Text

/-- A text that neither escaping nor the turning of single quotes changes. -/
def Untouched (s : String) : Prop := escape s = s ∧ neutralize s = s

theorem untouched_plain {s : String} (h : Plain s.toList) : Untouched s :=
  ⟨escape_plain h, neutralize_of_not_mem (quote_not_mem h)⟩

/-- Escaping goes over texts that stand one behind the other. -/
theorem escape_join (ss : List String) : escape (String.join ss) = String.join (ss.map escape) := by
  induction ss with
  | nil => exact escape_empty
  | cons s ss ih => rw [String.join_cons, escape_append, ih, List.map_cons, String.join_cons]

theorem escape_comma : escape "," = "," := escape_plain (plain_of_all rfl)

end Text

namespace Template
namespace Value

mutual

/-- A value with every text in it escaped. -/
def escapeTexts : Value → Value
  | .null => .null
  | .text s => .text (Text.escape s)
  | .number n => .number n
  | .bool b => .bool b
  | .list items => .list (escapeAllTexts items)

/-- Values with every text in them escaped. -/
def escapeAllTexts : List Value → List Value
  | [] => []
  | item :: rest => escapeTexts item :: escapeAllTexts rest

end

mutual

/-- **An item is escaped by escaping the texts in it.** -/
theorem itemText_escapeTexts : ∀ v : Value, v.escapeTexts.itemText = Text.escape v.itemText
  | .null => Text.escape_empty.symm
  | .text _ => rfl
  | .number n => (Text.escape_plain n.plain_text).symm
  | .bool b => (Text.escape_plain (plain_boolText b)).symm
  | .list [] => Text.escape_empty.symm
  | .list (item :: rest) => by
    rw [escapeTexts, escapeAllTexts, itemText, itemText, Text.escape_append,
      itemText_escapeTexts item, restText_escapeAllTexts rest]

/-- The commas between the items of an inner list are not changed. -/
theorem restText_escapeAllTexts : ∀ items : List Value,
    restText (escapeAllTexts items) = Text.escape (restText items)
  | [] => Text.escape_empty.symm
  | item :: rest => by
    rw [escapeAllTexts, restText, restText, Text.escape_append, Text.escape_append,
      Text.escape_comma, itemText_escapeTexts item, restText_escapeAllTexts rest]

end

theorem joined_cons (item : Value) (rest : List Value) :
    joined (item :: rest) = item.itemText ++ joined rest := by
  rw [joined, List.map_cons, String.join_cons]
  rfl

/-- Items one behind the other are escaped one by one. -/
theorem joined_escapeAllTexts (items : List Value) :
    joined (escapeAllTexts items) = Text.escape (joined items) := by
  induction items with
  | nil => exact Text.escape_empty.symm
  | cons item rest ih =>
    rw [escapeAllTexts, joined_cons, joined_cons, Text.escape_append, ih, itemText_escapeTexts]

/-- What is written raw of escaped texts is what is written raw, escaped. -/
theorem write_escapeTexts (v : Value) : v.escapeTexts.write .raw = Text.escape (v.write .raw) := by
  cases v with
  | null => exact Text.escape_empty.symm
  | text s => rfl
  | number n => exact (Text.escape_plain n.plain_text).symm
  | bool b => exact (Text.escape_plain (plain_boolText b)).symm
  | list items =>
    rw [escapeTexts]
    exact joined_escapeAllTexts items

end Value

/-- **Escaping the whole is escaping the parts.**

* What is written of a value escaped is what is written of it raw, escaped; and it is what is
  written raw if every text in the value is escaped first.
* The texts of numbers and truth values are changed neither by escaping nor by turning quotes.
* A list that is written escaped is the texts of its items, each escaped, in their order. -/
theorem escape_parts :
    (∀ v : Value, v.write .escape = Text.escape (v.write .raw) ∧
      v.write .escape = v.escapeTexts.write .raw) ∧
    (∀ n : Number, Text.Untouched n.text) ∧
    (∀ b : Bool, Text.Untouched (boolText b)) ∧
    ∀ items : List Value, (Value.list items).escaped
      = String.join (items.map fun item => Text.escape item.itemText) := by
  refine ⟨fun v => ⟨v.write_escape, ?_⟩, fun n => Text.untouched_plain n.plain_text,
    fun b => Text.untouched_plain (plain_boolText b), fun items => ?_⟩
  · rw [Value.write_escapeTexts, Value.write_escape]
  · calc (Value.list items).escaped
        = Text.escape (Value.joined items) := apply_escape (Value.joined items)
      _ = String.join ((items.map Value.itemText).map Text.escape) := Text.escape_join _
      _ = String.join (items.map fun item => Text.escape item.itemText) := by
          rw [List.map_map]
          rfl

end Template
end Markup
