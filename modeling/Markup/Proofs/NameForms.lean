/-
# Every name has its kind

The form of custom names is a row of pieces, each of which stands for one character of a
class or for any number of them: a lower-case letter, word characters, a hyphen, word
characters and hyphens. A form matches a text if its pieces can be laid over all of it, one
behind the other (`Vocabulary.Matches`); which hyphen of a name is taken for the one
between the two runs is left open. The scan for a custom name takes the first, and no name
is lost by that, since no hyphen is a word character (`reachesHyphen_iff_matches`).
So the names of the form are those with a lower-case letter in front, word characters and
hyphens behind it, and a hyphen among them (`matches_customForm_iff`).

The kinds of names do not hide each other: no name in the vocabulary has the form of custom
names, and no name of SVG is one of HTML or void (`Vocabulary.classify_sorted`).

Key definitions: `Vocabulary.Piece`, `Vocabulary.Matches`, `Vocabulary.customForm`,
`Vocabulary.IsCustomChar`, `Vocabulary.Sorted`.
Key theorems: `matches_many_iff`, `isCustomName_iff_matches`, `matches_customForm_iff`,
`Vocabulary.classify_sorted`.
-/
import Markup.Proofs.Refusal

namespace Markup
namespace Vocabulary

/-! ### Forms of names -/

/-- A piece of a form: one character of a class, or any number of characters of it. -/
inductive Piece where
  | one (p : Char → Bool)
  | many (p : Char → Bool)

/-- A form matches the whole of a text. -/
inductive Matches : List Piece → List Char → Prop where
  | nil : Matches [] []
  | one {p : Char → Bool} {ps : List Piece} {c : Char} {cs : List Char} (hc : p c = true)
      (rest : Matches ps cs) : Matches (.one p :: ps) (c :: cs)
  | skip {p : Char → Bool} {ps : List Piece} {cs : List Char} (rest : Matches ps cs) :
      Matches (.many p :: ps) cs
  | more {p : Char → Bool} {ps : List Piece} {c : Char} {cs : List Char} (hc : p c = true)
      (rest : Matches (.many p :: ps) cs) : Matches (.many p :: ps) (c :: cs)

theorem matches_nil_iff {cs : List Char} : Matches [] cs ↔ cs = [] := by
  refine ⟨fun h => ?_, fun h => ?_⟩
  · cases h
    rfl
  · rw [h]
    exact .nil

theorem matches_one_iff {p : Char → Bool} {ps : List Piece} {cs : List Char} :
    Matches (.one p :: ps) cs ↔ ∃ c rest, cs = c :: rest ∧ p c = true ∧ Matches ps rest := by
  refine ⟨fun h => ?_, ?_⟩
  · cases h with
    | one hc rest => exact ⟨_, _, rfl, hc, rest⟩
  · rintro ⟨c, rest, rfl, hc, h⟩
    exact .one hc h

theorem matches_many_append {p : Char → Bool} {ps : List Piece} {front back : List Char}
    (hfront : ∀ c ∈ front, p c = true) (h : Matches ps back) :
    Matches (.many p :: ps) (front ++ back) := by
  induction front with
  | nil => exact .skip h
  | cons c front ih =>
    rw [List.forall_mem_cons] at hfront
    exact .more hfront.1 (ih hfront.2)

/-- A piece for many characters matches a front of the text, of any length. -/
theorem matches_many_iff {p : Char → Bool} {ps : List Piece} {cs : List Char} :
    Matches (.many p :: ps) cs ↔
      ∃ front back, cs = front ++ back ∧ (∀ c ∈ front, p c = true) ∧ Matches ps back := by
  refine ⟨fun h => ?_, ?_⟩
  · generalize hform : Piece.many p :: ps = form at h
    induction h with
    | nil | one hc rest ih => cases hform
    | skip rest ih =>
      cases hform
      exact ⟨[], _, rfl, fun c hc => absurd hc List.not_mem_nil, rest⟩
    | @more _ _ c _ hc rest ih =>
      cases hform
      obtain ⟨front, back, rfl, hfront, h⟩ := ih rfl
      exact ⟨c :: front, back, rfl, List.forall_mem_cons.mpr ⟨hc, hfront⟩, h⟩
  · rintro ⟨front, back, rfl, hfront, h⟩
    exact matches_many_append hfront h

/-- A piece for many characters at the end matches what has no other characters. -/
theorem matches_many_nil_iff {p : Char → Bool} {cs : List Char} :
    Matches [.many p] cs ↔ ∀ c ∈ cs, p c = true := by
  simp only [matches_many_iff, matches_nil_iff]
  refine ⟨?_, fun h => ⟨cs, [], (List.append_nil cs).symm, h, rfl⟩⟩
  rintro ⟨front, back, rfl, hfront, rfl⟩
  rw [List.append_nil]
  exact hfront

/-! ### The form of custom names -/

/-- Whether a character may stand in a custom name behind its first hyphen. -/
def isTailChar (c : Char) : Bool := isWordChar c || c = '-'

/-- A custom name behind its first letter. -/
def tailForm : List Piece := [.many isWordChar, .one (· = '-'), .many isTailChar]

/-- A custom name: a lower-case letter, word characters, a hyphen, word characters and
hyphens. -/
def customForm : List Piece := .one isLetter :: tailForm

/-- A lower-case letter, a digit, a point, a low line or a hyphen. -/
def IsCustomChar (c : Char) : Prop :=
  ('a' ≤ c ∧ c ≤ 'z') ∨ ('0' ≤ c ∧ c ≤ '9') ∨ c = '.' ∨ c = '_' ∨ c = '-'

theorem isTailChar_iff (c : Char) : isTailChar c = true ↔ IsCustomChar c := by
  simp only [isTailChar, isWordChar, isLetter, IsCustomChar, Bool.or_eq_true, Bool.and_eq_true,
    decide_eq_true_eq, or_assoc]

theorem isTailChar_of_isWordChar {c : Char} (h : isWordChar c = true) : isTailChar c = true := by
  rw [isTailChar, h, Bool.true_or]

/-- The form of a tail, with the hyphen that it takes. -/
theorem matches_tailForm_iff {cs : List Char} : Matches tailForm cs ↔
    ∃ front back, cs = front ++ '-' :: back ∧ (∀ c ∈ front, isWordChar c = true) ∧
      ∀ c ∈ back, isTailChar c = true := by
  rw [tailForm, matches_many_iff]
  simp only [matches_one_iff, matches_many_nil_iff, decide_eq_true_eq]
  refine ⟨?_, ?_⟩
  · rintro ⟨front, _, rfl, hfront, _, back, rfl, rfl, hback⟩
    exact ⟨front, back, rfl, hfront, hback⟩
  · rintro ⟨front, back, rfl, hfront, hback⟩
    exact ⟨front, _, rfl, hfront, _, back, rfl, rfl, hback⟩

/-- **The scan finds what the form matches.** It stops at the first hyphen, which is where the
form takes one. -/
theorem reachesHyphen_iff_matches (cs : List Char) :
    reachesHyphen cs = true ↔ Matches tailForm cs := by
  rw [matches_tailForm_iff]
  refine ⟨fun h => ?_, ?_⟩
  · unfold reachesHyphen at h
    split at h
    · rename_i back hback
      refine ⟨cs.takeWhile isWordChar, back, ?_, fun c hc => List.mem_takeWhile_imp hc, ?_⟩
      · rw [← hback, List.takeWhile_append_dropWhile]
      · exact List.all_eq_true.mp h
    · cases h
  · rintro ⟨front, back, rfl, hfront, hback⟩
    have hscan : (front ++ '-' :: back).dropWhile isWordChar = '-' :: back := by
      rw [List.dropWhile_append_of_pos hfront]
      rfl
    rw [reachesHyphen, hscan]
    exact List.all_eq_true.mpr hback

/-- Any hyphen will do: the tails of custom names are the texts with a hyphen in them and no
other characters than theirs. -/
theorem matches_tailForm_iff_mem {cs : List Char} : Matches tailForm cs ↔
    '-' ∈ cs ∧ ∀ c ∈ cs, isTailChar c = true := by
  rw [matches_tailForm_iff]
  refine ⟨?_, fun ⟨hmem, hall⟩ => ?_⟩
  · rintro ⟨front, back, rfl, hfront, hback⟩
    refine ⟨List.mem_append_right front List.mem_cons_self, ?_⟩
    rw [List.forall_mem_append, List.forall_mem_cons]
    exact ⟨fun c hc => isTailChar_of_isWordChar (hfront c hc), rfl, hback⟩
  · -- the hyphen to take is the first, in front of which there are only word characters
    obtain ⟨front, back, rfl, hfirst⟩ := List.eq_append_cons_of_mem hmem
    rw [List.forall_mem_append, List.forall_mem_cons] at hall
    refine ⟨front, back, rfl, fun c hc => ?_, hall.2.2⟩
    have hchar := hall.1 c hc
    rw [isTailChar, Bool.or_eq_true, decide_eq_true_eq] at hchar
    rcases hchar with hword | rfl
    · exact hword
    · exact absurd hc hfirst

/-- The scan for a custom name finds the names of the form. -/
theorem isCustomName_iff_matches (name : String) :
    isCustomName name = true ↔ Matches customForm name.toList := by
  rw [isCustomName, customForm, matches_one_iff]
  cases name.toList with
  | nil => simp
  | cons c cs =>
    rw [Bool.and_eq_true, reachesHyphen_iff_matches]
    refine ⟨fun h => ⟨c, cs, rfl, h⟩, ?_⟩
    rintro ⟨_, _, heq, h⟩
    cases heq
    exact h

/-- **The names of the form** begin with a lower-case letter, hold nothing but the characters
of custom names, and hold a hyphen. -/
theorem matches_customForm_iff (cs : List Char) : Matches customForm cs ↔
    (∃ c ∈ cs.head?, 'a' ≤ c ∧ c ≤ 'z') ∧ (∀ c ∈ cs, IsCustomChar c) ∧ '-' ∈ cs := by
  have letter_iff : ∀ c, isLetter c = true ↔ 'a' ≤ c ∧ c ≤ 'z' := fun c => by simp [isLetter]
  rw [customForm, matches_one_iff]
  simp only [matches_tailForm_iff_mem, letter_iff, isTailChar_iff]
  refine ⟨?_, ?_⟩
  · rintro ⟨c, rest, rfl, hletter, hhyphen, hall⟩
    exact ⟨⟨c, rfl, hletter⟩, List.forall_mem_cons.mpr ⟨.inl hletter, hall⟩,
      List.mem_cons_of_mem c hhyphen⟩
  · rintro ⟨⟨c, hhead, hletter⟩, hall, hhyphen⟩
    obtain ⟨rest, rfl⟩ := List.head?_eq_some_iff.mp hhead
    rw [List.mem_cons] at hhyphen
    refine ⟨c, rest, rfl, hletter, hhyphen.resolve_left ?_, (List.forall_mem_cons.mp hall).2⟩
    -- the hyphen is not the letter in front
    rintro rfl
    exact absurd hletter (by decide)

/-- Neither a line break at the end nor a letter with an accent is let in. -/
example : isCustomName "a-b-2" = true ∧ isCustomName "a-b\n" = false ∧
    isCustomName "é-b" = false := by decide +kernel

/-! ### Kinds -/

theorem not_isCustomName_of_mem_known {name : String} (h : name ∈ known) :
    isCustomName name = false := by
  have hall : known.all (fun name => !isCustomName name) = true := by decide +kernel
  have hname := List.all_eq_true.mp hall name h
  rwa [Bool.not_eq_true'] at hname

/-- No name of SVG is one of HTML or that of a void element. -/
theorem not_mem_html_of_mem_svg {name : String} (h : name ∈ svg) :
    isVoid name = false ∧ name ∉ html := by
  have hall : ∀ name ∈ svg, isVoid name = false ∧ name ∉ html := by decide +kernel
  exact hall name h

theorem not_isVoid_of_not_mem_known {name : String} (h : name ∉ known) : isVoid name = false := by
  rw [← Bool.not_eq_true]
  exact fun hvoid => h (mem_known_of_isVoid hvoid)

/-- The kind of a name in the vocabulary is that of the first list that holds it. -/
theorem classify_of_mem_known {name : String} (h : name ∈ known) : classify name =
    if isVoid name then .void else if html.contains name then .html else .svg := by
  rw [known, List.mem_append, ← List.contains_iff_mem, ← List.contains_iff_mem] at h
  unfold classify
  split_ifs with hvoid hhtml hsvg hcustom
  · rfl
  · rfl
  · rfl
  · exact absurd h (not_or.mpr ⟨hhtml, hsvg⟩)
  · exact absurd h (not_or.mpr ⟨hhtml, hsvg⟩)

theorem classify_eq_void_iff (name : String) : classify name = .void ↔ isVoid name = true := by
  by_cases hknown : name ∈ known
  · rw [classify_of_mem_known hknown]
    split_ifs with hvoid hhtml <;> simp [hvoid]
  · rw [classify_of_not_mem_known hknown, not_isVoid_of_not_mem_known hknown]
    split_ifs <;> simp

theorem classify_eq_html_iff (name : String) :
    classify name = .html ↔ name ∈ html ∧ isVoid name = false := by
  rw [← List.contains_iff_mem]
  by_cases hknown : name ∈ known
  · rw [classify_of_mem_known hknown]
    split_ifs with hvoid hhtml
    · exact iff_of_false nofun fun h => absurd (hvoid.symm.trans h.2) nofun
    · exact iff_of_true rfl ⟨hhtml, Bool.not_eq_true _ ▸ hvoid⟩
    · exact iff_of_false nofun fun h => hhtml h.1
  · have hhtml : ¬html.contains name = true := fun h =>
      hknown (List.mem_append_left svg (List.contains_iff_mem.mp h))
    rw [classify_of_not_mem_known hknown]
    refine iff_of_false ?_ fun h => hhtml h.1
    split_ifs <;> exact nofun

theorem classify_eq_svg_iff (name : String) : classify name = .svg ↔ name ∈ svg := by
  by_cases hsvg : name ∈ svg
  · obtain ⟨hvoid, hhtml⟩ := not_mem_html_of_mem_svg hsvg
    rw [← List.contains_iff_mem] at hhtml
    rw [classify_of_mem_known (List.mem_append_right html hsvg), hvoid, if_neg hhtml]
    exact iff_of_true rfl hsvg
  · refine iff_of_false (fun h => ?_) hsvg
    unfold classify at h
    split_ifs at h with hvoid hhtml hcontains
    exact hsvg (List.contains_iff_mem.mp hcontains)

/-- No name in the vocabulary hides that of a custom element. -/
theorem classify_eq_custom_iff (name : String) :
    classify name = .custom ↔ isCustomName name = true := by
  by_cases hknown : name ∈ known
  · rw [classify_of_mem_known hknown, not_isCustomName_of_mem_known hknown]
    split_ifs <;> simp
  · rw [classify_of_not_mem_known hknown]
    split_ifs with hcustom <;> simp [hcustom]

theorem classify_eq_unknown_iff (name : String) : classify name = .unknown ↔
    isCustomName name = false ∧ isVoid name = false ∧ name ∉ known := by
  by_cases hknown : name ∈ known
  · rw [classify_of_mem_known hknown]
    split_ifs <;> simp [hknown]
  · rw [classify_of_not_mem_known hknown, not_isVoid_of_not_mem_known hknown]
    split_ifs with hcustom <;> simp [hcustom, hknown]

/-- A name that has a kind is a letter, then letters, digits, points, low lines and hyphens. -/
theorem letters_of_classify {name : String} (h : classify name ≠ .unknown) :
    ∃ c cs, name.toList = c :: cs ∧ c.isAlpha = true ∧
      ∀ d ∈ cs, d.isAlphanum = true ∨ d = '.' ∨ d = '_' ∨ d = '-' := by
  have hname : isTagName name = true := by
    by_cases hknown : name ∈ known
    · exact isTagName_of_mem_known hknown
    · rw [ne_eq, classify_eq_unknown_iff] at h
      by_cases hcustom : isCustomName name = true
      · exact isTagName_of_isCustomName hcustom
      · exact absurd ⟨Bool.not_eq_true _ ▸ hcustom, not_isVoid_of_not_mem_known hknown, hknown⟩ h
  obtain ⟨c, cs, hchars, hletter, hall⟩ := (isTagName_iff name).mp hname
  refine ⟨c, cs, hchars, hletter, fun d hd => ?_⟩
  have hchar := hall d hd
  simpa only [isTagNameChar, Bool.or_eq_true, decide_eq_true_eq, or_assoc] using hchar

/-- How the kinds of names are told apart. -/
structure Sorted (name : String) : Prop where
  /-- The scan takes a name for that of a custom element exactly if the form matches it, -/
  matches_iff : isCustomName name = true ↔ Matches customForm name.toList
  /-- which is a matter of the characters of the name. -/
  characters_iff : isCustomName name = true ↔
    (∃ c ∈ name.toList.head?, 'a' ≤ c ∧ c ≤ 'z') ∧ (∀ c ∈ name.toList, IsCustomChar c) ∧
      '-' ∈ name.toList
  custom_iff : classify name = .custom ↔ isCustomName name = true
  void_iff : classify name = .void ↔ isVoid name = true
  html_iff : classify name = .html ↔ name ∈ html ∧ isVoid name = false
  svg_iff : classify name = .svg ↔ name ∈ svg
  isKnown_iff : isKnown name = true ↔ name ∈ known
  unknown_iff : classify name = .unknown ↔
    isCustomName name = false ∧ isVoid name = false ∧ name ∉ known
  /-- A name that has a kind cannot end itself or mean markup. -/
  letters : classify name ≠ .unknown → ∃ c cs, name.toList = c :: cs ∧ c.isAlpha = true ∧
    ∀ d ∈ cs, d.isAlphanum = true ∨ d = '.' ∨ d = '_' ∨ d = '-'

/-- **Every name has its kind,** and no other kind hides it. -/
theorem classify_sorted (name : String) : Sorted name where
  matches_iff := isCustomName_iff_matches name
  characters_iff := (isCustomName_iff_matches name).trans (matches_customForm_iff name.toList)
  custom_iff := classify_eq_custom_iff name
  void_iff := classify_eq_void_iff name
  html_iff := classify_eq_html_iff name
  svg_iff := classify_eq_svg_iff name
  isKnown_iff := isKnown_classify name
  unknown_iff := classify_eq_unknown_iff name
  letters := letters_of_classify

end Vocabulary
end Markup
