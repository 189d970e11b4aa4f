/-
# Reading escaped text

Two readers of escaped text. One knows the entities and puts the characters back for
exactly those (`unescape`): it reads every text from its escaped form, and the texts that
are an escaped form are exactly the inert ones, each of which it reads into the text that
escapes to it (`escape_bijOn_inert`). That the entity of the apostrophe ends without a
semicolon does no harm there, since no entity begins as another one does.

The other reads as a page is read (`shown`): a reference by number goes on as long as
digits follow, and may end with a semicolon. So an apostrophe takes digits and a semicolon
behind it into its reference. What is shown is then shorter than the text, wherever in the
text it happens, and nothing makes up for it (`shown_substitute_iff`).

Key definitions: `Text.unescape`, `Text.reference?`, `Text.shown`.
Key theorems: `Text.substitute_decode`, `Text.escape_bijOn_inert`,
`Text.shown_substitute_apostrophe`, `Text.length_shown_substitute_le`,
`Text.display_escape_iff`.
-/
import Mathlib.Data.Set.Operations
import Markup.Json.Reader
import Markup.Proofs.Escaping

namespace Markup
namespace Text

/-! ### The entities alone -/

/-- A text with the characters in place of their entities. -/
def unescape (s : String) : String := String.ofList (decode s.toList)

theorem unescape_escape (s : String) : unescape (escape s) = s := by
  rw [unescape, escape_eq, String.toList_ofList, decode_substitute, String.ofList_toList]

/-- What stands at the end of inert text is inert. -/
theorem Inert.of_suffix {cs ds : List Char} (h : Inert cs) (hs : ds <:+ cs) : Inert ds := by
  refine ⟨?_, fun rest hrest => h.entity rest (hrest.trans hs)⟩
  rw [List.filter_eq_nil_iff]
  intro c hc
  exact List.filter_eq_nil_iff.mp h.filter_eq c (hs.subset hc)

/-- A character of inert text means no markup unless it begins an entity. -/
theorem Inert.entity?_head {c : Char} {cs : List Char} (h : Inert (c :: cs))
    (hne : ∀ e ∈ entities, ¬e.toList <+: c :: cs) : entity? c = none := by
  rw [entity?_eq_none_iff]
  refine ⟨?_, ?_, ?_, ?_⟩
  · rintro rfl
    exact h.not_mem rfl List.mem_cons_self
  · rintro rfl
    obtain ⟨e, he, hprefix⟩ := h.entity cs List.suffix_rfl
    exact hne e he hprefix
  · rintro rfl
    exact h.not_mem rfl List.mem_cons_self
  · rintro rfl
    exact h.not_mem rfl List.mem_cons_self

/-- **Inert text is escaped text:** the text that is read from it escapes to it. -/
theorem substitute_decode {cs : List Char} (h : Inert cs) : substitute (decode cs) = cs := by
  fun_induction decode cs with
  | case1 rest ih | case2 rest ih | case3 rest ih | case4 rest ih =>
    have hrest : Inert rest := h.of_suffix (by simp [List.suffix_cons_iff])
    rw [substitute_cons, ih hrest]
    rfl
  | case5 c rest hquot hamp hapos hlt ih =>
    have hrest : Inert rest := h.of_suffix (List.suffix_cons c rest)
    have hplain : entity? c = none := by
      refine h.entity?_head fun e he hprefix => ?_
      simp only [entities, List.mem_cons, List.not_mem_nil, or_false] at he
      rcases he with rfl | rfl | rfl | rfl
      all_goals
        obtain ⟨behind, hbehind⟩ := hprefix
        cases hbehind
      · exact hquot behind rfl rfl
      · exact hamp behind rfl rfl
      · exact hapos behind rfl rfl
      · exact hlt behind rfl rfl
    rw [substitute_cons, ih hrest, entityChars, hplain]
    rfl
  | case6 => rfl

/-- **Escaping is a bijection onto the inert texts.** What was escaped is read back, so
different texts escape differently; the escaped texts are exactly the inert ones; and each
of those is what its reading escapes to. -/
theorem escape_bijOn_inert :
    (∀ s, unescape (escape s) = s) ∧
    Function.Injective escape ∧
    (∀ t, t ∈ Set.range escape ↔ Inert t.toList) ∧
    ∀ t, Inert t.toList → escape (unescape t) = t := by
  have rewritten : ∀ t : String, Inert t.toList → escape (unescape t) = t := by
    intro t ht
    rw [escape_eq, unescape, String.toList_ofList, substitute_decode ht, String.ofList_toList]
  refine ⟨unescape_escape, fun s t h => escape_inj.mp h, fun t => ⟨?_, ?_⟩, rewritten⟩
  · rintro ⟨s, rfl⟩
    rw [escape_eq, String.toList_ofList]
    exact inert_substitute s.toList
  · intro ht
    exact ⟨unescape t, rewritten t ht⟩

/-! ### Reading as a page is read -/

/-- The character with a number, or the replacement character if no character has it. -/
def numbered (n : Nat) : Char := if n.isValidChar then Char.ofNat n else '\uFFFD'

/-- The text behind a semicolon that it begins with. -/
def afterSemicolon : List Char → List Char
  | ';' :: rest => rest
  | cs => cs

/-- The character that a reference at the front of a text stands for, with the text behind
the reference. A reference by number has as many digits as follow each other. -/
def reference? : List Char → Option (Char × List Char)
  | '&' :: 'q' :: 'u' :: 'o' :: 't' :: ';' :: rest => some ('"', rest)
  | '&' :: 'a' :: 'm' :: 'p' :: ';' :: rest => some ('&', rest)
  | '&' :: 'l' :: 't' :: ';' :: rest => some ('<', rest)
  | '&' :: '#' :: rest =>
    match Json.digitRun rest with
    | ([], _) => none
    | (d :: ds, behind) => some (numbered (Decimal.ofDigits (d :: ds)), afterSemicolon behind)
  | _ => none

theorem length_afterSemicolon_le (cs : List Char) : (afterSemicolon cs).length ≤ cs.length := by
  unfold afterSemicolon
  split
  · exact Nat.le_succ _
  · exact Nat.le_refl _

/-- The digits at the front and the text behind them are the whole text. -/
theorem length_digitRun (cs : List Char) :
    (Json.digitRun cs).1.length + (Json.digitRun cs).2.length = cs.length := by
  induction cs with
  | nil => rfl
  | cons c cs ih =>
    rw [Json.digitRun]
    split
    · simp only [List.length_cons]
      omega
    · simp

/-- A reference takes characters. -/
theorem length_lt_of_reference? {cs behind : List Char} {c : Char}
    (h : reference? cs = some (c, behind)) : behind.length < cs.length := by
  unfold reference? at h
  split at h
  · cases h; simp; omega
  · cases h; simp; omega
  · cases h; simp; omega
  · rename_i rest
    have hrun := length_digitRun rest
    split at h
    · cases h
    · rename_i d ds after heq
      cases h
      have hsemicolon := length_afterSemicolon_le after
      rw [heq] at hrun
      simp only [List.length_cons] at hrun ⊢
      omega
  · cases h

/-- What a reader of a page shows for a text: a character for each reference, every other
character as it is. -/
def shown : List Char → List Char
  | [] => []
  | c :: cs =>
    match _hread : reference? (c :: cs) with
    | some (d, behind) => d :: shown behind
    | none => c :: shown cs
termination_by cs => cs.length
decreasing_by
  · exact length_lt_of_reference? _hread
  · exact Nat.lt_succ_self _

theorem shown_of_reference {cs behind : List Char} {d : Char}
    (h : reference? cs = some (d, behind)) : shown cs = d :: shown behind := by
  cases cs with
  | nil => cases h
  | cons c cs =>
    rw [shown]
    split
    · rename_i heq
      rw [h] at heq
      cases heq
      rfl
    · rename_i heq
      rw [h] at heq
      cases heq

theorem shown_of_none {c : Char} {cs : List Char} (h : reference? (c :: cs) = none) :
    shown (c :: cs) = c :: shown cs := by
  rw [shown]
  split
  · rename_i heq
    rw [h] at heq
    cases heq
  · rfl

/-! ### What is shown of escaped text -/

/-- Whether a character behind a number belongs to a reference by that number. -/
def joins (c : Char) : Bool := c.isDigit || c = ';'

theorem ofChar?_eq_none_iff (c : Char) : Decimal.Digit.ofChar? c = none ↔ c.isDigit = false := by
  have hdigit : ('0' ≤ c ∧ c ≤ '9') ↔ c.isDigit = true := by
    rw [Char.isDigit, Bool.and_eq_true, decide_eq_true_eq, decide_eq_true_eq]
    exact Iff.rfl
  rw [Decimal.Digit.ofChar?]
  split
  · rename_i h
    simp [hdigit.mp h]
  · rename_i h
    simp [Bool.eq_false_iff.mpr fun h' => h (hdigit.mpr h')]

/-- What stands for a character with an entity begins with an ampersand, and neither of the
two continues a reference by number. -/
theorem exists_entityChars_eq_cons {c : Char} (h : entity? c ≠ none) :
    joins c = false ∧ ∃ rest, entityChars c = '&' :: rest := by
  unfold entityChars
  cases he : entity? c with
  | none => exact absurd he h
  | some e =>
    unfold entity? at he
    split at he <;> cases he
    all_goals exact ⟨by decide, _, rfl⟩

/-- A row of digits ends where it did before escaping. -/
theorem digitRun_substitute (cs : List Char) : Json.digitRun (substitute cs)
    = ((Json.digitRun cs).1, substitute (Json.digitRun cs).2) := by
  induction cs with
  | nil => rfl
  | cons c cs ih =>
    by_cases h : entity? c = none
    · rw [substitute_cons_of_none h, Json.digitRun, Json.digitRun, ih]
      split
      · rfl
      · rw [substitute_cons_of_none h]
    · obtain ⟨hjoins, rest, hrest⟩ := exists_entityChars_eq_cons h
      have hnone : Decimal.Digit.ofChar? c = none := by
        rw [ofChar?_eq_none_iff]
        exact (Bool.or_eq_false_iff.mp hjoins).1
      rw [Json.digitRun, hnone, substitute_cons, hrest, List.cons_append]
      rfl

theorem afterSemicolon_substitute (cs : List Char) :
    afterSemicolon (substitute cs) = substitute (afterSemicolon cs) := by
  cases cs with
  | nil => rfl
  | cons c cs =>
    by_cases h : entity? c = none
    · rw [substitute_cons_of_none h]
      by_cases hc : c = ';'
      · rw [hc, afterSemicolon, afterSemicolon]
      · rw [afterSemicolon, afterSemicolon, substitute_cons_of_none h]
        all_goals simp [hc]
    · obtain ⟨hjoins, rest, hrest⟩ := exists_entityChars_eq_cons h
      have hc : c ≠ ';' := by simpa using (Bool.or_eq_false_iff.mp hjoins).2
      have hkeep : afterSemicolon (c :: cs) = c :: cs := by
        rw [afterSemicolon]
        simp [hc]
      rw [hkeep, substitute_cons, hrest]
      rfl

/-- A character that is no apostrophe is shown as itself. -/
theorem shown_substitute_cons {c : Char} (hc : c ≠ '\'') (cs : List Char) :
    shown (substitute (c :: cs)) = c :: shown (substitute cs) := by
  cases he : entity? c with
  | none =>
    have hc' : c ≠ '&' := ((entity?_eq_none_iff c).mp he).2.1
    rw [substitute_cons_of_none he]
    refine shown_of_none ?_
    unfold reference?
    split <;> simp_all
  | some e =>
    unfold entity? at he
    split at he <;> cases he
    · exact shown_of_reference rfl
    · exact shown_of_reference rfl
    · exact absurd rfl hc
    · exact shown_of_reference rfl

/-- **An apostrophe** is shown with the digits and the semicolon behind it as the one
character that the number means. -/
theorem shown_substitute_apostrophe (cs : List Char) : shown (substitute ('\'' :: cs))
    = numbered (Decimal.ofDigits (3 :: 9 :: (Json.digitRun cs).1))
      :: shown (substitute (afterSemicolon (Json.digitRun cs).2)) := by
  refine shown_of_reference ?_
  have hrun : Json.digitRun ('3' :: '9' :: substitute cs)
      = (3 :: 9 :: (Json.digitRun cs).1, substitute (Json.digitRun cs).2) := by
    calc Json.digitRun ('3' :: '9' :: substitute cs)
        = (3 :: 9 :: (Json.digitRun (substitute cs)).1, (Json.digitRun (substitute cs)).2) := rfl
      _ = _ := by rw [digitRun_substitute]
  show reference? ('&' :: '#' :: '3' :: '9' :: substitute cs) = _
  rw [reference?, hrun, ← afterSemicolon_substitute]

/-- No more is shown than there was. -/
theorem length_shown_substitute_le (cs : List Char) :
    (shown (substitute cs)).length ≤ cs.length := by
  induction h : cs.length using Nat.strong_induction_on generalizing cs with
  | _ n ih =>
    cases cs with
    | nil => simp [substitute, shown]
    | cons c cs =>
      subst h
      by_cases hc : c = '\''
      · have hrun := length_digitRun cs
        have hsemicolon := length_afterSemicolon_le (Json.digitRun cs).2
        have hrest := ih _ (by rw [List.length_cons]; omega)
          (afterSemicolon (Json.digitRun cs).2) rfl
        rw [hc, shown_substitute_apostrophe, List.length_cons, List.length_cons]
        omega
      · have hrest := ih cs.length (Nat.lt_succ_self _) cs rfl
        rw [shown_substitute_cons hc, List.length_cons, List.length_cons]
        omega

/-- A character that joins the reference of an apostrophe is not shown. -/
theorem length_shown_lt_of_joins {d : Char} (hd : joins d = true) (cs : List Char) :
    (shown (substitute ('\'' :: d :: cs))).length < ('\'' :: d :: cs).length := by
  have hbehind : (afterSemicolon (Json.digitRun (d :: cs)).2).length < (d :: cs).length := by
    cases hdigit : Decimal.Digit.ofChar? d with
    | some n =>
      have hrun := length_digitRun cs
      have hsemicolon := length_afterSemicolon_le (Json.digitRun cs).2
      rw [Json.digitRun, hdigit, List.length_cons]
      show (afterSemicolon (Json.digitRun cs).2).length < cs.length + 1
      omega
    | none =>
      have hchar : d = ';' := by
        simpa [joins, (ofChar?_eq_none_iff d).mp hdigit] using hd
      rw [hchar]
      exact Nat.lt_succ_self cs.length
  have hshown := length_shown_substitute_le (afterSemicolon (Json.digitRun (d :: cs)).2)
  rw [shown_substitute_apostrophe, List.length_cons, List.length_cons]
  omega

/-- An apostrophe with nothing behind it that joins its reference is shown as itself. -/
theorem shown_apostrophe_of_not_joins {cs : List Char}
    (h : ∀ d ∈ cs.head?, joins d = false) :
    shown (substitute ('\'' :: cs)) = '\'' :: shown (substitute cs) := by
  have hrun : Json.digitRun cs = ([], cs) ∧ afterSemicolon cs = cs := by
    cases cs with
    | nil => exact ⟨rfl, rfl⟩
    | cons d cs =>
      have hd := Bool.or_eq_false_iff.mp (h d rfl)
      have hdigit : Decimal.Digit.ofChar? d = none := (ofChar?_eq_none_iff d).mpr hd.1
      have hne : d ≠ ';' := by simpa using hd.2
      refine ⟨by rw [Json.digitRun, hdigit], ?_⟩
      rw [afterSemicolon]
      simp [hne]
  rw [shown_substitute_apostrophe, hrun.1, hrun.2]
  rfl

/-- When no apostrophe has a character behind it that joins its reference. -/
def Unjoined (cs : List Char) : Prop := ∀ d rest, '\'' :: d :: rest <:+ cs → joins d = false

theorem unjoined_cons (c : Char) (cs : List Char) : Unjoined (c :: cs) ↔
    (c = '\'' → ∀ d ∈ cs.head?, joins d = false) ∧ Unjoined cs := by
  refine ⟨fun h => ⟨?_, fun d rest hsuffix => ?_⟩,
    fun ⟨hhead, htail⟩ d rest hsuffix => ?_⟩
  · rintro rfl d hd
    obtain ⟨rest, rfl⟩ := List.head?_eq_some_iff.mp hd
    exact h d rest List.suffix_rfl
  · exact h d rest (hsuffix.trans (List.suffix_cons c cs))
  · rcases List.suffix_cons_iff.mp hsuffix with heq | hsuffix
    · cases heq
      exact hhead rfl d rfl
    · exact htail d rest hsuffix

/-- **What is shown of escaped text** is the text exactly if no apostrophe in it has a
character behind it that joins its reference. -/
theorem shown_substitute_iff (cs : List Char) : shown (substitute cs) = cs ↔ Unjoined cs := by
  induction cs with
  | nil => simp [substitute, shown, Unjoined]
  | cons c cs ih =>
    rw [unjoined_cons]
    by_cases hc : c = '\''
    · subst hc
      by_cases hhead : ∀ d ∈ cs.head?, joins d = false
      · rw [shown_apostrophe_of_not_joins hhead, List.cons_inj_right, ih]
        exact ⟨fun h => ⟨fun _ => hhead, h⟩, fun h => h.2⟩
      · -- a character is lost here, and none comes back behind it
        have hlost : shown (substitute ('\'' :: cs)) ≠ '\'' :: cs := by
          cases cs with
          | nil => simp at hhead
          | cons d cs =>
            have hd : joins d = true := by simpa using hhead
            intro h
            have hlt := length_shown_lt_of_joins hd cs
            rw [h] at hlt
            exact Nat.lt_irrefl _ hlt
        exact ⟨fun h => absurd h hlost, fun h => absurd (h.1 rfl) hhead⟩
    · rw [shown_substitute_cons hc, List.cons_inj_right, ih]
      exact ⟨fun h => ⟨fun h' => absurd h' hc, h⟩, fun h => h.2⟩

/-- What a reader of a page shows for a text, as a text. -/
def display (s : String) : String := String.ofList (shown s.toList)

/-- **What survives a page.** An escaped text is shown as it was exactly if no apostrophe in
it stands directly in front of a digit or a semicolon. -/
theorem display_escape_iff (s : String) : display (escape s) = s ↔
    ∀ c rest, '\'' :: c :: rest <:+ s.toList → c.isDigit = false ∧ c ≠ ';' := by
  have hshown : display (escape s) = s ↔ shown (substitute s.toList) = s.toList := by
    rw [display, escape_eq, String.toList_ofList, ← String.toList_inj, String.toList_ofList]
  rw [hshown, shown_substitute_iff]
  simp [Unjoined, joins]

/-- An apostrophe in front of a digit is shown as another character. -/
example : display (escape "'5") = "Ƌ" := by cbv

end Text
end Markup
