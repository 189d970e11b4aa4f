/-
# Printed texts are read back

What is printed between quotes is read back, whatever follows it: a character is printed as
itself, as one of the short escapes or, if it is a control character, by its number in four
hexadecimal digits, and the reader of texts undoes each of the three (`textTail_textChar`).
From there a list of one item and an object of one member are read from what is read of
their item (`value_singleton`, `value_member`), so that the compact text of a list in a list
under a key is a document of just that (`readRaw_nested`).

Key theorems: `Json.textTail_textChar`, `Json.text_textChars`, `Json.value_textChars`,
`Json.readRaw_nested`, `Json.compact_singleton_ne`.
-/
import Mathlib.Data.String.Basic
import Markup.Json.Printer
import Markup.Json.Reader

namespace Markup
namespace Json

/-! ### Characters -/

/-- A number below sixteen is its last digit. -/
theorem unit?_digitChar : ∀ n < 0x10, Text.hexChars n = [n.digitChar] ∧
    unit? '0' '0' '0' n.digitChar = some n := by decide

/-- The other numbers of control characters are a one and a digit. -/
theorem unit?_one_digitChar : ∀ n < 0x20, 0x10 ≤ n →
    Text.hexChars n = ['1', (n - 0x10).digitChar] ∧
    unit? '0' '0' '1' (n - 0x10).digitChar = some n := by decide

section Tails

variable {cs ds rest : List Char} (h : textTail cs = .ok (ds, rest))
include h

theorem textTail_escaped {e c : Char} (he : escaped? e = some c) :
    textTail ('\\' :: e :: cs) = .ok (c :: ds, rest) := by
  have hne : e ≠ 'u' := by
    rintro rfl
    cases he
  rw [textTail, he, h]
  · rfl
  all_goals simp [hne]

theorem textTail_unit {a b d e c : Char} (hu : unit? a b d e = some c.toNat)
    (hlt : c.toNat < 0x20) :
    textTail ('\\' :: 'u' :: a :: b :: d :: e :: cs) = .ok (c :: ds, rest) := by
  have htrailing : isTrailing c.toNat = false := by simp [isTrailing]; omega
  have hleading : isLeading c.toNat = false := by simp [isLeading]; omega
  rw [textTail, hu, h]
  simp only [htrailing, hleading, Bool.false_eq_true, if_false]
  show Except.ok (Char.ofNat c.toNat :: ds, rest) = _
  rw [Char.ofNat_toNat]

theorem textTail_plain {c : Char} (hquote : c ≠ '"') (hbackslash : c ≠ '\\')
    (hle : 0x20 ≤ c.toNat) : textTail (c :: cs) = .ok (c :: ds, rest) := by
  rw [textTail, h, if_neg (Nat.not_lt.mpr hle)]
  · rfl
  all_goals simp [hquote, hbackslash]

/-- A printed character is read back. -/
theorem textTail_textChar (c : Char) : textTail (textChar c ++ cs) = .ok (c :: ds, rest) := by
  unfold textChar
  split
  · exact textTail_escaped h rfl
  · exact textTail_escaped h rfl
  · exact textTail_escaped h rfl
  · exact textTail_escaped h rfl
  · exact textTail_escaped h rfl
  · exact textTail_escaped h rfl
  · exact textTail_escaped h rfl
  · rename_i hquote hbackslash _ _ _ _ _
    by_cases hlow : c.toNat < 0x10
    · obtain ⟨hchars, hunit⟩ := unit?_digitChar c.toNat hlow
      rw [if_pos hlow, hchars]
      exact textTail_unit h hunit (Nat.lt_trans hlow (by decide))
    · rw [if_neg hlow]
      by_cases hcontrol : c.toNat < 0x20
      · obtain ⟨hchars, hunit⟩ := unit?_one_digitChar c.toNat hcontrol (Nat.le_of_not_lt hlow)
        rw [if_pos hcontrol, hchars]
        exact textTail_unit h hunit hcontrol
      · rw [if_neg hcontrol]
        exact textTail_plain h hquote hbackslash (Nat.le_of_not_lt hcontrol)

end Tails

/-! ### Texts -/

/-- A text is read back from between its quotes. -/
theorem text_textChars (s : String) (rest : List Char) :
    text (s.toList.flatMap textChar ++ '"' :: rest) = .ok (s, rest) := by
  have tail : ∀ cs : List Char,
      textTail (cs.flatMap textChar ++ '"' :: rest) = .ok (cs, rest) := by
    intro cs
    induction cs with
    | nil => rw [List.flatMap_nil, List.nil_append, textTail]
    | cons c cs ih =>
      rw [List.flatMap_cons, List.append_assoc]
      exact textTail_textChar ih c
  rw [text, tail]
  show Except.ok (String.ofList s.toList, rest) = _
  rw [String.ofList_toList]

theorem textChars_append (s : String) (rest : List Char) :
    textChars s ++ rest = '"' :: (s.toList.flatMap textChar ++ '"' :: rest) := by
  simp [textChars]

theorem value_textChars (fuel depth : Nat) (s : String) (rest : List Char) :
    value (fuel + 1) depth (textChars s ++ rest) = .ok (.string s, rest) := by
  have hskip : skipBlanks ('"' :: (s.toList.flatMap textChar ++ '"' :: rest))
      = '"' :: (s.toList.flatMap textChar ++ '"' :: rest) := rfl
  rw [textChars_append, value, hskip]
  simp only [text_textChars]
  rfl

/-! ### Documents -/

/-- A list of one item is read from its item. -/
theorem value_singleton {fuel depth : Nat} {c : Char} {cs rest : List Char} {item : Json}
    (hblank : isBlank c = false) (hclose : c ≠ ']')
    (h : value fuel depth (c :: cs) = .ok (item, ']' :: rest)) :
    value (fuel + 2) (depth + 1) ('[' :: c :: cs) = .ok (.array [item], rest) := by
  have hskip : skipBlanks (c :: cs) = c :: cs := List.dropWhile_cons_of_neg (by simp [hblank])
  have hopen : skipBlanks ('[' :: c :: cs) = '[' :: c :: cs := rfl
  have hitems : items (fuel + 1) depth (c :: cs) = .ok ([item], rest) := by
    rw [items, h]
    rfl
  rw [value, hopen]
  simp only [Nat.add_one_ne_zero, if_false, hskip, Nat.add_sub_cancel]
  split
  · rename_i heq
    cases heq
  · rename_i heq
    cases heq
    exact absurd rfl hclose
  · rw [hitems]
    rfl

/-- An object is read from its members. -/
theorem value_members {fuel depth : Nat} {key : String} {cs rest : List Char}
    {found : List (String × Json)}
    (h : members fuel depth (textChars key ++ cs) = .ok (found, rest)) :
    value (fuel + 1) (depth + 1) ('\x7b' :: (textChars key ++ cs)) = .ok (.object found, rest) := by
  have hskip : skipBlanks (textChars key ++ cs) = textChars key ++ cs := rfl
  have hopen : skipBlanks ('\x7b' :: (textChars key ++ cs)) = '\x7b' :: (textChars key ++ cs) := rfl
  rw [value, hopen]
  simp only [Nat.add_one_ne_zero, if_false, hskip, Nat.add_sub_cancel]
  rw [textChars_append] at h ⊢
  split
  · rename_i heq
    cases heq
  · rename_i heq
    cases heq
  · rw [h]
    rfl

/-- An object of one member is read from the value of its member. -/
theorem value_member {fuel depth : Nat} (key : String) {cs rest : List Char} {item : Json}
    (h : value fuel depth cs = .ok (item, '\x7d' :: rest)) :
    value (fuel + 2) (depth + 1) ('\x7b' :: (textChars key ++ ':' :: cs))
      = .ok (.object [(key, item)], rest) := by
  have hskip : skipBlanks (textChars key ++ ':' :: cs) = textChars key ++ ':' :: cs := rfl
  have hcolon : afterColon (':' :: cs) = .ok cs := rfl
  refine value_members ?_
  rw [members, hskip, textChars_append]
  simp only [text_textChars, hcolon, h, bind, Except.bind]
  rfl

/-- **A list in a list under a key** is read from its compact text. -/
theorem readRaw_nested (key s : String) :
    readRaw (Json.object [(key, .array [.array [.string s]])]).compact
      = .ok (.object [(key, .array [.array [.string s]])]) := by
  have hchars : compactChars (.object [(key, .array [.array [.string s]])])
      = '\x7b' :: (textChars key ++ ':' :: '[' :: '['
        :: (textChars s ++ ']' :: ']' :: ['\x7d'])) := by
    simp [compactChars, itemsChars, membersChars]
  rw [readRaw, readNested, compact, String.toList_ofList, hchars]
  generalize hcs : '\x7b' :: (textChars key ++ ':' :: '[' :: '['
    :: (textChars s ++ ']' :: ']' :: ['\x7d'])) = cs
  have hvalue : ∀ fuel, value (fuel + 7) maxDepth cs
      = .ok (.object [(key, .array [.array [.string s]])], []) := by
    intro fuel
    have hstring := value_textChars fuel 124 s (']' :: ']' :: ['\x7d'])
    have hinner := value_singleton rfl (by decide) hstring
    have houter := value_singleton rfl (by decide) hinner
    rw [← hcs]
    exact value_member key houter
  have hfuel : 2 * cs.length + 2 = 2 * cs.length - 5 + 7 := by
    have hlength : 5 ≤ cs.length := by
      rw [← hcs]
      simp only [List.length_cons, List.length_append]
      omega
    omega
  rw [hfuel, hvalue]
  rfl

/-! ### Lengths -/

theorem length_textChar_pos (c : Char) : 0 < (textChar c).length := by
  fun_cases textChar c <;> exact Nat.zero_lt_succ _

theorem length_le_flatMap_textChar (cs : List Char) :
    cs.length ≤ (cs.flatMap textChar).length := by
  induction cs with
  | nil => exact Nat.le_refl _
  | cons c cs ih =>
    have hchar := length_textChar_pos c
    rw [List.flatMap_cons, List.length_append, List.length_cons]
    omega

/-- The compact text of a list is longer than its item. -/
theorem compact_singleton_ne (s : String) : (Json.array [.string s]).compact ≠ s := by
  intro h
  have hlength := congrArg (fun t : String => t.toList.length) h
  have hitem := length_le_flatMap_textChar s.toList
  simp only [compact, String.toList_ofList, compactChars, itemsChars, textChars, List.length_cons,
    List.length_append] at hlength
  omega

end Json
end Markup
