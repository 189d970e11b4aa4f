/-
# Numerals hold no markup

Numbers, truth values and moments are written into a page as they are, without
escaping. That is safe because of what their texts are made of: digits, signs,
points, colons and letters, none of which means markup. So such a text opens no
tag, and no value that holds one ends before its quote.

Key theorems: `Decimal.plain_layout_chars`, `Number.plain_chars`,
`plain_boolText`, `Timestamp.plain_millisText`.
-/
import Markup.Element
import Markup.Proofs.Escaping

namespace Markup

namespace Text

theorem plain_nil : Plain [] := fun _ h => absurd h List.not_mem_nil

theorem plain_cons {c : Char} {cs : List Char} :
    Plain (c :: cs) ↔ entity? c = none ∧ Plain cs := List.forall_mem_cons

theorem plain_append {cs ds : List Char} : Plain (cs ++ ds) ↔ Plain cs ∧ Plain ds :=
  List.forall_mem_append

theorem plain_replicate (n : Nat) {c : Char} (h : entity? c = none) :
    Plain (List.replicate n c) := fun d hd => by
  rw [List.eq_of_mem_replicate hd]
  exact h

/-- Plain text holds no single quote, so it is not changed for a quoted value. -/
theorem quote_not_mem {cs : List Char} (h : Plain cs) : '\'' ∉ cs := fun hmem =>
  absurd (h _ hmem) (by decide)

end Text

open Text

/-! ### Digits -/

namespace Decimal

theorem plain_digit : ∀ d : Digit, entity? d.char = none := by decide

theorem plain_digitChars (ds : List Digit) : Plain (digitChars ds) := fun c hc => by
  obtain ⟨d, -, rfl⟩ := List.mem_map.mp hc
  exact plain_digit d

theorem plain_natChars (n : Nat) : Plain (natChars n) := plain_digitChars _

theorem plain_intChars (v : Int) : Plain (intChars v) := by
  unfold intChars
  split
  · exact plain_cons.mpr ⟨rfl, plain_natChars _⟩
  · exact plain_natChars _

/-! ### Layouts -/

theorem plain_zeros (n : Nat) : Plain (List.replicate n '0') := plain_replicate n rfl

theorem plain_plainChars {l : Layout} (h : Plain l.wholeMark) (s : Scientific) :
    Plain (l.plainChars s) := by
  unfold Layout.plainChars
  split
  · exact plain_append.mpr ⟨plain_append.mpr ⟨plain_digitChars _, plain_zeros _⟩, h⟩
  · split
    · exact plain_append.mpr ⟨plain_digitChars _, plain_cons.mpr ⟨rfl, plain_digitChars _⟩⟩
    · refine plain_cons.mpr ⟨rfl, plain_cons.mpr ⟨rfl, ?_⟩⟩
      exact plain_append.mpr ⟨plain_zeros _, plain_digitChars _⟩

theorem plain_exponentChars {l : Layout} (h : Plain l.plus) (s : Scientific) :
    Plain (l.exponentChars s) := by
  have hsign : Plain (if s.point - 1 < 0 then ['-'] else l.plus) := by
    split
    · exact plain_cons.mpr ⟨rfl, plain_nil⟩
    · exact h
  unfold Layout.exponentChars
  refine plain_append.mpr ⟨plain_append.mpr ⟨plain_digitChars _, ?_⟩, ?_⟩
  · split
    · exact plain_nil
    · exact plain_cons.mpr ⟨rfl, plain_digitChars _⟩
  · exact plain_cons.mpr ⟨rfl, plain_append.mpr ⟨hsign, plain_natChars _⟩⟩

/-- A layout with plain marks writes plain numerals. -/
theorem plain_layout_chars {l : Layout} (hmark : Plain l.wholeMark) (hplus : Plain l.plus)
    (s : Scientific) : Plain (l.chars s) := by
  unfold Layout.chars
  split
  · exact plain_plainChars hmark s
  · exact plain_exponentChars hplus s

theorem plain_doubleChars {l : Layout} (hmark : Plain l.wholeMark) (hplus : Plain l.plus)
    (tie : Tie) (negative : Bool) (mantissa : Nat) (exponent : Int) :
    Plain (l.doubleChars tie negative mantissa exponent) := by
  have hnumeral : Plain (if mantissa = 0 then '0' :: l.wholeMark
      else l.chars (shortest Format.double tie mantissa exponent)) := by
    split
    · exact plain_cons.mpr ⟨rfl, hmark⟩
    · exact plain_layout_chars hmark hplus _
  unfold Layout.doubleChars
  cases negative with
  | false => exact hnumeral
  | true => exact plain_cons.mpr ⟨rfl, hnumeral⟩

end Decimal

/-! ### Numbers, truth values and moments -/

/-- **The text of a number is plain.** -/
theorem Number.plain_chars : ∀ n : Number, Plain n.chars
  | .int _ => Decimal.plain_intChars _
  | .float .nan => plain_of_all rfl
  | .float (.infinity false) => plain_of_all rfl
  | .float (.infinity true) => plain_of_all rfl
  | .float (.finite _ m e) => Decimal.plain_doubleChars plain_nil (plain_of_all rfl) _ _ m e

theorem Number.plain_text (n : Number) : Plain n.text.toList := by
  rw [Number.text, String.toList_ofList]
  exact n.plain_chars

theorem plain_boolText (b : Bool) : Plain (boolText b).toList := by
  cases b with
  | false => exact plain_of_all rfl
  | true => exact plain_of_all rfl

namespace Timestamp

theorem plain_padded (width n : Nat) : Plain (padded width n) :=
  plain_append.mpr ⟨Decimal.plain_zeros _, Decimal.plain_natChars n⟩

theorem plain_yearChars (y : Int) : Plain (yearChars y) := by
  unfold yearChars
  split
  · exact plain_cons.mpr ⟨rfl, plain_padded _ _⟩
  · split
    · exact plain_padded _ _
    · exact plain_cons.mpr ⟨rfl, plain_padded _ _⟩

theorem plain_clockChars (t : Timestamp) : Plain t.clockChars := by
  simp only [clockChars, plain_append, plain_cons, plain_yearChars, plain_padded, true_and,
    and_true]
  decide

/-- **The text of a moment is plain.** -/
theorem plain_millisText (t : Timestamp) : Plain t.millisText.toList := by
  rw [millisText, String.toList_ofList]
  simp only [plain_append, plain_cons, plain_clockChars, plain_padded, plain_nil, true_and, and_true]
  decide

end Timestamp
end Markup
