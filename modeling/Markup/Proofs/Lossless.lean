/-
# What attributes lose, and how to lose nothing

Texts given as attributes are written with their single quotes turned, so two texts that
differ only in that are written alike. Nothing else is lost: a reader of attributes finds
every text as it was turned (`Attribute.read_ofTexts`), whatever else stands in it, and so the
written text determines the turned texts and is determined by them
(`Attribute.serialize_ofTexts_eq_iff`).

An escaped text has no single quote, and turning does not change it
(`Text.neutralize_escape`). So texts that are escaped before they are given as attributes
stand in them as they are, and are found again by reading the entities of what is read
(`Attribute.readTexts_escaped`).

Key definitions: `Attribute.ofTexts`, `Attribute.escapedFirst`, `Attribute.readTexts`.
Key theorems: `Text.neutralize_escape`, `Attribute.read_ofTexts`,
`Attribute.readTexts_escaped`, `Attribute.escape_first`.
-/
import Markup.Proofs.Quoting
import Markup.Proofs.Unescaping

namespace Markup

/-- **Turning quotes does not change an escaped text.** -/
theorem Text.neutralize_escape (s : String) : neutralize (escape s) = escape s := by
  refine neutralize_of_not_mem ?_
  rw [escape_eq, String.toList_ofList]
  exact (inert_substitute s.toList).not_mem rfl

namespace Attribute

/-! ### Texts as attributes -/

/-- A key for the reader under which a value is written. -/
def Writable (key : String) : Prop := IsKey key ∧ key ≠ childrenKey

/-- Texts as attributes under their keys. -/
def ofTexts (pairs : List (String × String)) : List (String × AttributeValue) :=
  pairs.map fun (key, s) => (key, .text s)

/-- Texts that are escaped before they are given as attributes. -/
def escapedFirst (pairs : List (String × String)) : List (String × String) :=
  pairs.map fun (key, s) => (key, Text.escape s)

/-- An attribute with a text as it is between the quotes. -/
def verbatim (key s : String) : String := " " ++ key ++ "='" ++ s ++ "'"

/-- A text under a key that is written stands there with its quotes turned. -/
theorem form_text {key : String} (h : key ≠ childrenKey) (s : String) :
    (AttributeValue.text s).form key = .quoted (AttributeValue.turned s) := by
  unfold AttributeValue.form
  by_cases hclass : key = classKey
  · rw [if_pos hclass, AttributeValue.classForm, Text.neutralize_eq]
    rfl
  · rw [if_neg hclass, if_neg h, AttributeValue.plainForm, Text.neutralize_eq]
    rfl

/-- Texts are written one behind the other, with their quotes turned. -/
theorem serialize_ofTexts {pairs : List (String × String)}
    (h : ∀ p ∈ pairs, Writable p.1) : serialize (ofTexts pairs)
      = String.join (pairs.map fun p => verbatim p.1 (AttributeValue.turned p.2)) := by
  induction pairs with
  | nil => rfl
  | cons p pairs ih =>
    obtain ⟨key, s⟩ := p
    have hkey : key ≠ childrenKey := (h (key, s) List.mem_cons_self).2
    have hcons : ofTexts ((key, s) :: pairs) = (key, .text s) :: ofTexts pairs := rfl
    rw [hcons, serialize_cons, form_text hkey, ih fun q hq => h q (List.mem_cons_of_mem _ hq),
      List.map_cons, String.join_cons]
    rfl

/-- **Texts are found as they were turned.** -/
theorem read_ofTexts {pairs : List (String × String)}
    (h : ∀ p ∈ pairs, Writable p.1) : read (serialize (ofTexts pairs)).toList
      = some (pairs.map fun p => (p.1, some (AttributeValue.turned p.2))) := by
  have hkeys : ∀ a ∈ ofTexts pairs, IsKey a.1 := by
    intro a ha
    obtain ⟨p, hp, rfl⟩ := List.mem_map.mp ha
    exact (h p hp).1
  have hforms : ∀ a ∈ ofTexts pairs, (a.2.form a.1).Contained := by
    intro a ha
    obtain ⟨p, hp, rfl⟩ := List.mem_map.mp ha
    rw [form_text (h p hp).2, AttributeValue.turned, ← Text.neutralize_eq]
    exact Text.quote_not_mem_neutralize p.2
  rw [read_serialize hkeys hforms, ofTexts, List.flatMap_map, List.map_eq_flatMap]
  refine congrArg some (List.flatMap_congr fun p hp => ?_)
  rw [form_text (h p hp).2]
  rfl

/-- Under the same keys, texts are written alike exactly if they are turned alike. -/
theorem serialize_ofTexts_eq_iff {pairs others : List (String × String)}
    (h : ∀ p ∈ pairs, Writable p.1)
    (hkeys : others.map Prod.fst = pairs.map Prod.fst) :
    serialize (ofTexts pairs) = serialize (ofTexts others) ↔
      pairs.map (fun p => AttributeValue.turned p.2)
        = others.map (fun p => AttributeValue.turned p.2) := by
  have hothers : ∀ p ∈ others, Writable p.1 := by
    intro p hp
    have hkey : p.1 ∈ pairs.map Prod.fst := hkeys ▸ List.mem_map_of_mem hp
    obtain ⟨q, hq, heq⟩ := List.mem_map.mp hkey
    rw [← heq]
    exact h q hq
  constructor
  · intro htext
    have hread := read_ofTexts h
    rw [htext, read_ofTexts hothers, Option.some.injEq] at hread
    -- the values of both rows are the turned texts
    have hvalues := congrArg (List.map Prod.snd) hread
    rw [List.map_map, List.map_map] at hvalues
    have hrows : (others.map fun p => AttributeValue.turned p.2).map some
        = (pairs.map fun p => AttributeValue.turned p.2).map some := by
      rw [List.map_map, List.map_map]
      exact hvalues
    exact (List.map_injective_iff.mpr (fun _ _ => Option.some.inj) hrows).symm
  · intro hturned
    have hrow : ∀ row : List (String × String),
        row.map (fun p => verbatim p.1 (AttributeValue.turned p.2))
          = List.zipWith verbatim (row.map Prod.fst)
            (row.map fun p => AttributeValue.turned p.2) := by
      intro row
      rw [List.zipWith_map, List.zipWith_self]
    rw [serialize_ofTexts h, serialize_ofTexts hothers, hrow, hrow, hkeys, hturned]

/-! ### Escaped first -/

/-- The attributes of a text with the entities in their values read. -/
def readTexts (cs : List Char) : Option (List (String × Option String)) :=
  (read cs).map fun found => found.map fun (key, value) => (key, value.map Text.unescape)

theorem turned_escape (s : String) : AttributeValue.turned (Text.escape s) = Text.escape s := by
  rw [AttributeValue.turned, ← Text.neutralize_eq, Text.neutralize_escape]

/-- Escaping leaves the keys as they are. -/
theorem writable_escapedFirst {pairs : List (String × String)}
    (h : ∀ p ∈ pairs, Writable p.1) : ∀ p ∈ escapedFirst pairs, Writable p.1 := by
  intro p hp
  obtain ⟨q, hq, rfl⟩ := List.mem_map.mp hp
  exact h q hq

/-- **Texts that are escaped first are found again.** -/
theorem readTexts_escaped {pairs : List (String × String)}
    (h : ∀ p ∈ pairs, Writable p.1) :
    readTexts (serialize (ofTexts (escapedFirst pairs))).toList
      = some (pairs.map fun p => (p.1, some p.2)) := by
  rw [readTexts, read_ofTexts (writable_escapedFirst h), Option.map_some, escapedFirst,
    List.map_map, List.map_map]
  refine congrArg some (List.map_congr_left fun p _ => ?_)
  show (p.1, some (Text.unescape (AttributeValue.turned (Text.escape p.2)))) = (p.1, some p.2)
  rw [turned_escape, Text.unescape_escape]

/-- **Escaped first, attributes lose nothing.** Of texts under keys that are keys for the
reader and not the reserved one,

* each is written as it was escaped, between its quotes, since turning quotes changes no
  escaped text;
* a reader that reads the entities in what it finds gets them back;
* written alike, two rows of them are the same row.

Without escaping, two rows with the same keys are written alike exactly if they are the same
after turning the quotes of every text. -/
theorem escape_first (pairs : List (String × String))
    (h : ∀ p ∈ pairs, Writable p.1) :
    (serialize (ofTexts (escapedFirst pairs))
        = String.join (pairs.map fun p => verbatim p.1 (Text.escape p.2)) ∧
      ∀ s, Text.neutralize (Text.escape s) = Text.escape s) ∧
    readTexts (serialize (ofTexts (escapedFirst pairs))).toList
      = some (pairs.map fun p => (p.1, some p.2)) ∧
    (∀ others : List (String × String), (∀ p ∈ others, Writable p.1) →
      serialize (ofTexts (escapedFirst pairs)) = serialize (ofTexts (escapedFirst others)) →
      pairs = others) ∧
    ∀ others : List (String × String), others.map Prod.fst = pairs.map Prod.fst →
      (serialize (ofTexts pairs) = serialize (ofTexts others) ↔
        pairs.map (fun p => AttributeValue.turned p.2)
          = others.map (fun p => AttributeValue.turned p.2)) := by
  refine ⟨⟨?_, Text.neutralize_escape⟩, readTexts_escaped h, ?_,
    fun others => serialize_ofTexts_eq_iff h⟩
  · rw [serialize_ofTexts (writable_escapedFirst h), escapedFirst,
      List.map_map]
    refine congrArg String.join (List.map_congr_left fun p _ => ?_)
    exact congrArg (verbatim p.1) (turned_escape p.2)
  · intro others hothers htext
    have hread := readTexts_escaped h
    rw [htext, readTexts_escaped hothers, Option.some.injEq] at hread
    have hinjective : Function.Injective fun p : String × String => (p.1, some p.2) := by
      rintro ⟨k, s⟩ ⟨l, t⟩ heq
      cases heq
      rfl
    exact (List.map_injective_iff.mpr hinjective hread).symm

/-- Under two keys, one of which is `class`, a text that looks like attributes is found again,
and a quote in it is lost without escaping. -/
theorem escape_first_quote :
    readTexts (serialize (ofTexts (escapedFirst [("class", "' id='"), ("a", "<&\"")]))).toList
      = some [("class", some "' id='"), ("a", some "<&\"")] ∧
    serialize (ofTexts [("class", "'")]) = serialize (ofTexts [("class", "\"")]) := by
  have hclass : Writable "class" := by simp [Writable, IsKey, childrenKey]
  have ha : Writable "a" := by simp [Writable, IsKey, childrenKey]
  refine ⟨(escape_first [("class", "' id='"), ("a", "<&\"")] (by simp [hclass, ha])).2.1, ?_⟩
  have hiff := (escape_first [("class", "'")] (by simp [hclass])).2.2.2 [("class", "\"")] rfl
  exact hiff.mpr rfl

end Attribute
end Markup
