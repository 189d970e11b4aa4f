/-
# Escaping cuts between characters

The scan over bytes never sees a character: it looks for four bytes, and copies the slices
between them. That it does no harm to a text rests on one fact about UTF-8, that no byte of a
longer character is one of the four. So every slice that is copied starts and ends between
characters (`whole_of_mem_cutChars`), also the first one, which the search for the first byte with
an entity has found (`firstSpecial?_of_entity`), and what results is the text with every
character replaced for itself (`replaced_eq`).

A text is kept as it is exactly if nothing in it is replaced, which shows in three ways: it
holds none of the four characters, it is its own escaped text, and escaping again changes
nothing (`escape_eq_replaced`). The second holds since an entity is longer than what it stands
for (`substitute_eq_self_iff`).

Key definitions: `Text.replaced`, `Text.Piece.Whole`.
Key theorems: `Text.whole_of_mem_cutChars`, `Text.firstSpecial?_of_entity`,
`Text.substitute_eq_self_iff`, `Text.escape_eq_replaced`.
-/
import Mathlib.Data.List.TFAE
import Mathlib.Tactic.TFAE
import Markup.Proofs.Escaping

namespace Markup
namespace Text

/-! ### Characters one by one -/

/-- What is written for a character. -/
def written (c : Char) : String :=
  if c = '"' then "&quot;"
  else if c = '&' then "&amp;"
  else if c = '\'' then "&#39"
  else if c = '<' then "&lt;"
  else String.singleton c

/-- A text with every character replaced by what is written for it. -/
def replaced (s : String) : String := String.join (s.toList.map written)

theorem toList_written (c : Char) : (written c).toList = entityChars c := by
  unfold written entityChars
  by_cases hquote : c = '"'
  · rw [if_pos hquote, hquote]
    rfl
  by_cases hampersand : c = '&'
  · rw [if_neg hquote, if_pos hampersand, hampersand]
    rfl
  by_cases happostrophe : c = '\''
  · rw [if_neg hquote, if_neg hampersand, if_pos happostrophe, happostrophe]
    rfl
  by_cases hless : c = '<'
  · rw [if_neg hquote, if_neg hampersand, if_neg happostrophe, if_pos hless, hless]
    rfl
  have hplain : entity? c = none :=
    (entity?_eq_none_iff c).mpr ⟨hquote, hampersand, happostrophe, hless⟩
  rw [if_neg hquote, if_neg hampersand, if_neg happostrophe, if_neg hless, hplain,
    String.toList_singleton]

/-- Replacing character by character is substitution. -/
theorem replaced_eq (s : String) : replaced s = String.ofList (substitute s.toList) := by
  have hrow : ∀ cs : List Char, String.join (cs.map written) = String.ofList (substitute cs) := by
    intro cs
    induction cs with
    | nil => rfl
    | cons c cs ih =>
      rw [List.map_cons, String.join_cons, ih, substitute_cons, String.ofList_append,
        ← toList_written, String.ofList_toList]
  exact hrow s.toList

/-! ### Boundaries of characters -/

/-- A slice that starts and ends between characters. -/
def Piece.Whole (s : String) : Piece → Prop
  | .slice start stop =>
    start ≤ stop ∧ String.Pos.Raw.IsValid s ⟨start⟩ ∧ String.Pos.Raw.IsValid s ⟨stop⟩
  | .entity _ => True

/-- Behind the characters at the front of a text is a boundary. -/
theorem isValid_utf8Len (before rest : List Char) :
    String.Pos.Raw.IsValid (String.ofList (before ++ rest)) ⟨String.utf8Len before⟩ := by
  rw [String.Pos.Raw.isValid_iff_exists_append]
  refine ⟨String.ofList before, String.ofList rest, String.ofList_append, ?_⟩
  simp

/-- The slice that holds given characters of a text is whole. -/
theorem whole_sliceChars (before copied rest : List Char) :
    (sliceChars before copied).Whole (String.ofList (before ++ copied ++ rest)) := by
  have hstart := isValid_utf8Len before (copied ++ rest)
  have hstop := isValid_utf8Len (before ++ copied) rest
  rw [← List.append_assoc] at hstart
  rw [String.utf8Len_append] at hstop
  exact ⟨Nat.le_add_right _ _, hstart, hstop⟩

/-- **The scan copies whole slices.** -/
theorem whole_of_mem_cutChars : ∀ (rest before copied : List Char),
    ∀ p ∈ cutChars before copied rest, p.Whole (String.ofList (before ++ copied ++ rest))
  | [], before, copied, p, hp => by
    rw [cutChars_nil, List.mem_singleton] at hp
    rw [hp]
    exact whole_sliceChars before copied []
  | c :: rest, before, copied, p, hp => by
    cases hc : entity? c with
    | some e =>
      have ih := whole_of_mem_cutChars rest (before ++ copied ++ [c]) [] p
      have htext : before ++ copied ++ [c] ++ [] ++ rest = before ++ copied ++ c :: rest := by simp
      rw [htext] at ih
      rw [cutChars_of_entity hc, List.mem_cons, List.mem_cons] at hp
      rcases hp with rfl | rfl | hp
      · exact whole_sliceChars before copied (c :: rest)
      · trivial
      · exact ih hp
    | none =>
      have ih := whole_of_mem_cutChars rest before (copied ++ [c]) p
      have htext : before ++ (copied ++ [c]) ++ rest = before ++ copied ++ c :: rest := by simp
      rw [htext] at ih
      rw [cutChars_of_none hc] at hp
      exact ih hp

/-! ### The search for the first character with an entity -/

theorem length_flatMap_utf8EncodeChar (cs : List Char) :
    (cs.flatMap String.utf8EncodeChar).length = String.utf8Len cs := by
  induction cs with
  | nil => rfl
  | cons c cs ih =>
    rw [List.flatMap_cons, List.length_append, ih, String.length_utf8EncodeChar,
      String.utf8Len_cons, Nat.add_comm]

/-- A text that is not plain has a first character with an entity. -/
theorem exists_first_of_not_plain {cs : List Char} (h : ¬Plain cs) :
    ∃ before c rest e, cs = before ++ c :: rest ∧ Plain before ∧ entity? c = some e := by
  induction cs with
  | nil => exact absurd (fun _ hc => absurd hc List.not_mem_nil) h
  | cons c cs ih =>
    cases hc : entity? c with
    | some e => exact ⟨[], c, cs, e, rfl, fun _ hd => absurd hd List.not_mem_nil, hc⟩
    | none =>
      have hcs : ¬Plain cs := fun hplain => h (List.forall_mem_cons.mpr ⟨hc, hplain⟩)
      obtain ⟨before, d, rest, e, rfl, hbefore, hd⟩ := ih hcs
      exact ⟨c :: before, d, rest, e, rfl, List.forall_mem_cons.mpr ⟨hc, hbefore⟩, hd⟩

theorem byteEntity?_of_mem_flatMap {cs : List Char} (h : Plain cs) {b : UInt8}
    (hb : b ∈ cs.flatMap String.utf8EncodeChar) : byteEntity? b = none := by
  obtain ⟨c, hc, hbc⟩ := List.mem_flatMap.mp hb
  exact byteEntity?_of_mem (h c hc) hbc

/-- The search finds nothing in plain text. -/
theorem firstSpecial?_of_plain {s : String} (h : Plain s.toList) : firstSpecial? s = none := by
  rw [firstSpecial?, bytes_eq, List.findIdx?_eq_none_iff]
  intro b hb
  rw [byteEntity?_of_mem_flatMap h hb]
  rfl

/-- **The search finds the first character with an entity**, at the boundary in front of it. -/
theorem firstSpecial?_of_entity {before : List Char} (h : Plain before) {c : Char} {e : String}
    (hc : entity? c = some e) (rest : List Char) :
    firstSpecial? (String.ofList (before ++ c :: rest)) = some (String.utf8Len before) := by
  obtain ⟨b, hbytes, hb, -⟩ := utf8EncodeChar_of_entity hc
  have hnone : (before.flatMap String.utf8EncodeChar).findIdx?
      (fun b => (byteEntity? b).isSome) = none := by
    rw [List.findIdx?_eq_none_iff]
    intro d hd
    rw [byteEntity?_of_mem_flatMap h hd]
    rfl
  rw [firstSpecial?, bytes_eq, String.toList_ofList, List.flatMap_append, List.flatMap_cons, hbytes,
    List.findIdx?_append, hnone, List.singleton_append, List.findIdx?_cons, hb,
    length_flatMap_utf8EncodeChar]
  simp

/-- All slices of an escaped text are whole. -/
theorem whole_of_mem_pieces? {s : String} {ps : List Piece} (h : pieces? s = some ps) :
    ∀ p ∈ ps, p.Whole s := by
  by_cases hplain : Plain s.toList
  · rw [pieces?, firstSpecial?_of_plain hplain] at h
    cases h
  · obtain ⟨before, c, rest, e, hs, hbefore, hc⟩ := exists_first_of_not_plain hplain
    obtain rfl : String.ofList (before ++ c :: rest) = s := by rw [← hs, String.ofList_toList]
    have hfront := whole_sliceChars [] before (c :: rest)
    have hscan := whole_of_mem_cutChars (c :: rest) before []
    have hfrom : piecesFrom (String.ofList (before ++ c :: rest)) (String.utf8Len before)
        = cutChars before [] (c :: rest) := by
      rw [piecesFrom, bytes_eq, hs, List.flatMap_append, ← length_flatMap_utf8EncodeChar,
        List.drop_left, length_flatMap_utf8EncodeChar]
      rfl
    rw [List.append_nil] at hscan
    rw [pieces?, firstSpecial?_of_entity hbefore hc, Option.map_some, hfrom] at h
    obtain rfl := Option.some.inj h
    intro p hp
    rcases List.mem_cons.mp hp with rfl | hp
    · simpa [sliceChars] using hfront
    · exact hscan p hp

theorem whole_of_mem_piecesFrom {s : String} : ∀ p ∈ piecesFrom s 0, p.Whole s := by
  have hscan := whole_of_mem_cutChars s.toList [] []
  rw [List.append_nil, List.nil_append, String.ofList_toList] at hscan
  rw [piecesFrom, List.drop_zero, bytes_eq]
  exact hscan

/-! ### When nothing is escaped -/

theorem length_entityChars {c : Char} (h : entity? c ≠ none) : 1 < (entityChars c).length := by
  unfold entityChars
  cases he : entity? c with
  | none => exact absurd he h
  | some e =>
    unfold entity? at he
    split at he <;> cases he
    all_goals decide

theorem length_le_substitute (cs : List Char) : cs.length ≤ (substitute cs).length := by
  induction cs with
  | nil => exact Nat.le_refl _
  | cons c cs ih =>
    by_cases h : entity? c = none
    · rw [substitute_cons_of_none h, List.length_cons, List.length_cons]
      omega
    · have hlong := length_entityChars h
      rw [substitute_cons, List.length_append, List.length_cons]
      omega

/-- Only plain text is its own substitution, since entities are longer than what they stand
for. -/
theorem substitute_eq_self_iff (cs : List Char) : substitute cs = cs ↔ Plain cs := by
  refine ⟨fun h => ?_, substitute_plain⟩
  induction cs with
  | nil => exact fun _ hc => absurd hc List.not_mem_nil
  | cons c cs ih =>
    by_cases hc : entity? c = none
    · rw [substitute_cons_of_none hc, List.cons_inj_right] at h
      exact List.forall_mem_cons.mpr ⟨hc, ih h⟩
    · have hlong := length_entityChars hc
      have hrest := length_le_substitute cs
      have hlength := congrArg List.length h
      rw [substitute_cons, List.length_append, List.length_cons] at hlength
      omega

theorem escape_eq_self_iff (s : String) : escape s = s ↔ Plain s.toList := by
  rw [escape_eq, ← substitute_eq_self_iff, ← String.toList_inj, String.toList_ofList]

theorem escape?_eq_none_iff (s : String) : escape? s = none ↔ Plain s.toList := by
  rw [escape?, Option.map_eq_none_iff, pieces?, Option.map_eq_none_iff]
  refine ⟨fun h => ?_, firstSpecial?_of_plain⟩
  rw [firstSpecial?, List.findIdx?_eq_none_iff] at h
  exact plain_of_bytes fun b hb => by simpa using h b hb

theorem plain_iff_not_mem (cs : List Char) :
    Plain cs ↔ '"' ∉ cs ∧ '&' ∉ cs ∧ '\'' ∉ cs ∧ '<' ∉ cs := by
  have hmem : ∀ d : Char, d ∉ cs ↔ ∀ c ∈ cs, c ≠ d := by
    intro d
    refine ⟨fun hd c hc heq => hd (heq ▸ hc), fun h hd => h d hd rfl⟩
  simp only [Plain, entity?_eq_none_iff, imp_and, forall_and, hmem]

/-- **Escaping by slices replaces characters.** Of a text, and of what it is appended to,

* the escaped text is the text with every character replaced, whether it is escaped from its
  first byte with an entity on or, behind another text, from its start;
* every slice that is copied starts and ends between characters;
* the text is kept as it is exactly if it holds none of the four characters, exactly if it is
  its own escaped text, and exactly if escaping again changes nothing;
* escaping goes over texts that stand one behind the other. -/
theorem escape_eq_replaced (s : String) :
    escape s = replaced s ∧
    (∀ out, escapeOnto out s = out ++ replaced s) ∧
    ((∀ ps, pieces? s = some ps → ∀ p ∈ ps, p.Whole s) ∧ ∀ p ∈ piecesFrom s 0, p.Whole s) ∧
    [escape? s = none,
      '"' ∉ s.toList ∧ '&' ∉ s.toList ∧ '\'' ∉ s.toList ∧ '<' ∉ s.toList,
      escape s = s,
      escape (escape s) = escape s].TFAE ∧
    ∀ t, escape (s ++ t) = escape s ++ escape t := by
  have hreplaced : escape s = replaced s := (escape_eq s).trans (replaced_eq s).symm
  refine ⟨hreplaced, fun out => ?_, ⟨fun ps hps => whole_of_mem_pieces? hps,
    whole_of_mem_piecesFrom⟩, ?_, escape_append s⟩
  · rw [escapeOnto_eq, replaced_eq]
  · tfae_have 1 ↔ 2 := (escape?_eq_none_iff s).trans (plain_iff_not_mem s.toList)
    tfae_have 2 ↔ 3 := (plain_iff_not_mem s.toList).symm.trans (escape_eq_self_iff s).symm
    tfae_have 3 ↔ 4 := escape_inj.symm
    tfae_finish

end Text
end Markup
