/-
# Escaped slots bring no markup

Of the characters of a filled template that open a tag or end a quoted value, all come
from the literal parts and from the values in raw slots, in that order. A value in an
escaped slot brings none, whatever it is, and an ampersand in what is written of it is
the beginning of an entity: its text is inert (`Text.Inert`, `Template.inert_escaped`).
So values in escaped slots can be exchanged without any change to the markup.

Which slots there are is said by position (`Template.slots`): the part at the place of a
value stands in front of it, without one mark at its end, and the parts behind the last
value stand as they are. The slots are steps, and the same text is written step by step:
every step adds what it writes to the text that is there (`Template.fill_eq_ofSteps`).

Key definitions: `Text.delimiters`, `Template.slots`.
Key theorems: `Template.inert_escaped`, `Template.fill_eq_join_slots`,
`Template.delimiters_fill`, `Template.fill_eq_ofSteps`.
-/
import Markup.Proofs.Numerals
import Markup.Template

namespace Markup

/-! ### Delimiters of a text -/

namespace Text

/-- The characters of a text that open a tag or may end a quoted value, in their
order. -/
def delimiters (s : String) : List Char := s.toList.filter isDelimiter

theorem delimiters_join (ss : List String) :
    delimiters (String.join ss) = ss.flatMap delimiters := by
  rw [delimiters, String.toList_join, List.filter_flatMap]
  rfl

end Text

/-! ### Values -/

namespace Template

theorem apply_escape (s : String) : Policy.escape.apply s = Text.escape s := by
  rw [Policy.apply, Text.escapeOnto_eq, String.empty_append, ← Text.escape_eq]

theorem inert_apply_escape (s : String) : Text.Inert (Policy.escape.apply s).toList := by
  rw [apply_escape, Text.escape_eq, String.toList_ofList]
  exact Text.inert_substitute s.toList

/-- **A value in an escaped slot is inert.** -/
theorem inert_escaped : ∀ v : Value, Text.Inert (v.write .escape).toList
  | .null => Text.inert_nil
  | .text s => inert_apply_escape s
  | .number n => Text.inert_plain n.plain_text
  | .bool b => Text.inert_plain (plain_boolText b)
  | .list items => inert_apply_escape (Value.joined items)

/-! ### Slots -/

/-- The policy of the value behind a literal part. -/
def policyBehind (part : String) : Policy :=
  if part.toList.getLast? = some marker then .raw else .escape

/-- What is written of a literal part in front of a value: all of it but one mark at its
end. -/
def written (part : String) : String :=
  if part.toList.getLast? = some marker then String.ofList part.toList.dropLast else part

theorem splitMarker_eq (part : String) : splitMarker part = (written part, policyBehind part) := by
  unfold splitMarker written policyBehind
  rcases List.eq_nil_or_concat part.toList with hnil | ⟨front, c, hpart⟩
  · simp [hnil]
  · rw [List.concat_eq_append] at hpart
    simp only [hpart, List.reverse_append, List.reverse_singleton, List.singleton_append,
      List.reverse_reverse, List.getLast?_concat, List.dropLast_concat, Option.some.injEq]
    split <;> rfl

/-- A value with the literal part in front of it. -/
def slot (part : String) (v : Value) : List Step :=
  [.literal (written part), .value v (policyBehind part)]

/-- What is written of parts with values between them: every value with the part at its
place, an empty one if there are too few, then the parts behind the last value. -/
def slots (parts : List String) (values : List Value) : List Step :=
  (values.zipIdx.flatMap fun (v, i) => slot (parts[i]?.getD "") v) ++
    (parts.drop values.length).map .literal

theorem slots_nil (parts : List String) : slots parts [] = parts.map .literal := rfl

theorem slots_cons (parts : List String) (v : Value) (vs : List Value) :
    slots parts (v :: vs) = slot (parts[0]?.getD "") v ++ slots parts.tail vs := by
  simp only [slots, List.zipIdx_cons', List.flatMap_cons, List.flatMap_map, List.append_assoc,
    List.length_cons, List.drop_tail, List.getElem?_tail, Prod.map, id]

theorem fill_cons (parts : List String) (v : Value) (vs : List Value) :
    fill parts (v :: vs) = written (parts[0]?.getD "")
      ++ v.write (policyBehind (parts[0]?.getD "")) ++ fill parts.tail vs := by
  cases parts with
  | nil =>
    have nothing : written ((([] : List String)[0]?).getD "") = "" := rfl
    rw [fill, nothing, String.empty_append]
    rfl
  | cons part parts =>
    rw [fill, splitMarker_eq]
    rfl

/-- **A filled template is its slots one behind the other.** -/
theorem fill_eq_join_slots (parts : List String) (values : List Value) :
    fill parts values = String.join ((slots parts values).map Step.text) := by
  induction values generalizing parts with
  | nil =>
    have texts : (parts.map Step.literal).map Step.text = parts := by
      rw [List.map_map]
      exact List.map_id parts
    rw [slots_nil, texts, fill]
  | cons v vs ih =>
    rw [fill_cons, ih, slots_cons, List.map_append, String.join_append, slot]
    simp only [List.map_cons, List.map_nil, String.join_cons, String.join_nil, String.append_empty]
    rfl

/-- The delimiters that a step is to bring: those of a literal part and of a value in a
raw slot. -/
def Step.delimiters : Step → List Char
  | .literal s => Text.delimiters s
  | .value v .raw => Text.delimiters (v.write .raw)
  | .value _ .escape => []

theorem delimiters_text (s : Step) : Text.delimiters s.text = s.delimiters := by
  cases s with
  | literal s => rfl
  | value v policy =>
    cases policy with
    | raw => rfl
    | escape => exact (inert_escaped v).filter_eq

theorem delimiters_fill_eq (parts : List String) (values : List Value) :
    Text.delimiters (fill parts values) = (slots parts values).flatMap Step.delimiters := by
  rw [fill_eq_join_slots, Text.delimiters_join, List.flatMap_map]
  exact List.flatMap_congr fun s _ => delimiters_text s

/-- Values that agree in the raw slots bring the same delimiters. -/
theorem delimiters_fill_congr {parts : List String} {vs ws : List Value}
    (length_eq : vs.length = ws.length)
    (agree : ∀ i : Nat, policyBehind (parts[i]?.getD "") = .raw → vs[i]? = ws[i]?) :
    (slots parts vs).flatMap Step.delimiters = (slots parts ws).flatMap Step.delimiters := by
  induction vs generalizing parts ws with
  | nil =>
    have hws : ws = [] := List.length_eq_zero_iff.mp length_eq.symm
    rw [hws]
  | cons v vs ih =>
    cases ws with
    | nil => cases length_eq
    | cons w ws =>
      have rest : (slots parts.tail vs).flatMap Step.delimiters
          = (slots parts.tail ws).flatMap Step.delimiters := by
        refine ih (Nat.succ.inj length_eq) fun i hi => ?_
        rw [List.getElem?_tail] at hi
        have h := agree (i + 1) hi
        rw [List.getElem?_cons_succ, List.getElem?_cons_succ] at h
        exact h
      have first : (slot (parts[0]?.getD "") v).flatMap Step.delimiters
          = (slot (parts[0]?.getD "") w).flatMap Step.delimiters := by
        cases hpolicy : policyBehind (parts[0]?.getD "") with
        | escape => simp [slot, hpolicy, Step.delimiters]
        | raw =>
          have h := agree 0 hpolicy
          rw [List.getElem?_cons_zero, List.getElem?_cons_zero, Option.some.injEq] at h
          rw [h]
      rw [slots_cons, slots_cons, List.flatMap_append, List.flatMap_append, first, rest]

/-- **Markup of a filled template.** It is written slot by slot, where

* its delimiters are those of the literal parts and of the values in raw slots, in their
  order;
* what is written of a value in an escaped slot holds no delimiter, and every ampersand
  in it begins an entity;
* values that agree in the raw slots leave the same delimiters, whatever stands in the
  others. -/
theorem delimiters_fill (parts : List String) :
    (∀ values : List Value,
      fill parts values = String.join ((slots parts values).map Step.text) ∧
      Text.delimiters (fill parts values) = (slots parts values).flatMap Step.delimiters ∧
      ∀ v, .value v .escape ∈ slots parts values →
        Text.Inert (Step.value v .escape).text.toList) ∧
    ∀ vs ws : List Value, vs.length = ws.length →
      (∀ i : Nat, policyBehind (parts[i]?.getD "") = .raw → vs[i]? = ws[i]?) →
      Text.delimiters (fill parts vs) = Text.delimiters (fill parts ws) := by
  refine ⟨fun values => ⟨fill_eq_join_slots parts values, delimiters_fill_eq parts values,
    fun v _ => inert_escaped v⟩, fun vs ws length_eq agree => ?_⟩
  rw [delimiters_fill_eq, delimiters_fill_eq, delimiters_fill_congr length_eq agree]

/-- A title that would end its quotes leaves the same delimiters as a number. -/
theorem delimiters_fill_title :
    Text.delimiters (fill ["<a title='", "'>!", "</a>"] [.text "' x=\"<", .text "<b>"])
      = ['<', '\'', '\'', '<', '<'] ∧
    Text.delimiters (fill ["<a title='", "'>!", "</a>"] [.text "' x=\"<", .text "<b>"])
      = Text.delimiters (fill ["<a title='", "'>!", "</a>"] [.null, .text "<b>"]) := by
  have agree : ∀ i : Nat, policyBehind ((["<a title='", "'>!", "</a>"] : List String)[i]?.getD "") = .raw →
      [Value.text "' x=\"<", .text "<b>"][i]? = [Value.null, .text "<b>"][i]? := by
    intro i hraw
    match i with
    | 0 => exact absurd hraw (by decide)
    | 1 => rfl
    | i + 2 => rfl
  exact ⟨by decide +kernel, (delimiters_fill ["<a title='", "'>!", "</a>"]).2 _ _ rfl agree⟩

/-! ### Step by step -/

/-- The mark at the end of a part, and only one, is dropped and leaves the value raw. -/
theorem slot_marked (front : String) (v : Value) :
    slot (front ++ "!") v = [.literal front, .value v .raw] := by
  have chars : (front ++ "!").toList = front.toList ++ [marker] := String.toList_append
  have written_eq : written (front ++ "!") = front := by
    rw [written, chars, if_pos List.getLast?_concat, List.dropLast_concat, String.ofList_toList]
  have policy_eq : policyBehind (front ++ "!") = .raw := by
    rw [policyBehind, chars, if_pos List.getLast?_concat]
  rw [slot, written_eq, policy_eq]

/-- A part without the mark at its end is written as it is, and the value is escaped. -/
theorem slot_unmarked {part : String} (h : ∀ front, part ≠ front ++ "!") (v : Value) :
    slot part v = [.literal part, .value v .escape] := by
  have hlast : part.toList.getLast? ≠ some marker := by
    intro hlast
    obtain ⟨front, hfront⟩ := List.getLast?_eq_some_iff.mp hlast
    refine h (String.ofList front) (String.toList_inj.mp ?_)
    rw [hfront, String.toList_append, String.toList_ofList]
    rfl
  rw [slot, written, policyBehind, if_neg hlast, if_neg hlast]

/-- Steps add to a text what they write, one behind the other. -/
theorem foldl_append_eq (out : String) (steps : List Step) :
    steps.foldl append out = out ++ String.join (steps.map Step.text) := by
  induction steps generalizing out with
  | nil => exact String.append_empty.symm
  | cons s steps ih =>
    rw [List.foldl_cons, ih, append, List.map_cons, String.join_cons, String.append_assoc]

theorem ofSteps_eq (steps : List Step) : ofSteps steps = String.join (steps.map Step.text) := by
  rw [ofSteps, foldl_append_eq, String.empty_append]

/-- The text after the step at a position is that of the steps up to there. -/
theorem getElem?_trace (out : String) (steps : List Step) (i : Nat) :
    (trace out steps)[i]? =
      steps[i]?.map fun s => (steps.take i).foldl append out ++ s.text := by
  induction steps generalizing out i with
  | nil => rfl
  | cons s steps ih =>
    cases i with
    | zero => rfl
    | succ i =>
      rw [trace, List.getElem?_cons_succ, List.getElem?_cons_succ, ih, List.take_succ_cons,
        List.foldl_cons]

/-- **Filling is writing step by step.** For parts and values of any number

* the filled template is what its slots write as steps: for each value the part at its
  place, or an empty one, and the value, then the parts behind the last value as they
  stand;
* a mark at the end of the part in front of a value is dropped once, and the value is
  written as it is; behind any other part the value is escaped;
* after any steps, one more adds to the text what this step writes, and so does each step
  of a row in its turn. -/
theorem fill_eq_ofSteps :
    (∀ (parts : List String) (values : List Value),
      fill parts values = ofSteps (slots parts values)) ∧
    (∀ (part : String) (v : Value),
      (∃ front, part = front ++ "!" ∧ slot part v = [.literal front, .value v .raw]) ∨
      (∀ front, part ≠ front ++ "!") ∧ slot part v = [.literal part, .value v .escape]) ∧
    ∀ steps : List Step,
      (∀ s, ofSteps (steps ++ [s]) = ofSteps steps ++ s.text) ∧
      ∀ i : Nat, (trace "" steps)[i]? = steps[i]?.map fun s => ofSteps (steps.take i) ++ s.text := by
  refine ⟨fun parts values => ?_, fun part v => ?_, fun steps => ⟨fun s => ?_, ?_⟩⟩
  · rw [fill_eq_join_slots, ofSteps_eq]
  · by_cases h : ∃ front, part = front ++ "!"
    · obtain ⟨front, rfl⟩ := h
      exact .inl ⟨front, rfl, slot_marked front v⟩
    · have unmarked : ∀ front, part ≠ front ++ "!" := not_exists.mp h
      exact .inr ⟨unmarked, slot_unmarked unmarked v⟩
  · rw [ofSteps, List.foldl_append]
    rfl
  · exact getElem?_trace "" steps

end Template
end Markup
