/-
# Attributes that can be read back

A reader of attributes takes a space, a key, and behind it, if they stand there, an
equals sign and a value up to the next single quote; then it goes on (`Attribute.read`).
It knows nothing of values. What it is to find of an attribute is said by the value alone
(`AttributeValue.found`): nothing, the bare key, or the key with a text. Inside a tree the
same is said with every single quote turned (`AttributeValue.seen`), which differs under
`class` alone (`AttributeValue.seen_eq_found`).

It finds that exactly if no value ends its own quotes. Under most keys no value can,
since the single quotes of a text are turned, and the other texts hold none. Under
`class` a list of names or a value with a text of its own is written as it is; if that
text holds a single quote, no reader of this kind can find it, because none of the
values that it finds does (`Attribute.quote_not_mem_read`).

Key definitions: `Attribute.read`, `AttributeValue.found`.
Key theorems: `Attribute.read_form`, `Attribute.quote_not_mem_read`,
`AttributeValue.seen_eq_found`, `Attribute.read_serialize_iff`.
-/
import Mathlib.Data.List.TakeWhile
import Markup.Proofs.ReadBack

namespace Markup

/-! ### The reader -/

namespace Attribute

/-- Whether a character may stand in a key. -/
def isKeyChar (c : Char) : Bool := c ≠ ' ' && c ≠ '=' && c ≠ '\''

/-- A text that is a key: it is not empty, and holds no space, no equals sign and no
single quote. -/
def IsKey (key : String) : Prop := key ≠ "" ∧ ∀ c ∈ key.toList, c ≠ ' ' ∧ c ≠ '=' ∧ c ≠ '\''

/-- What stands behind a key: a value, which ends at the next single quote, or no value;
and what stands behind that. -/
def value? : List Char → Option (Option String × List Char)
  | '=' :: '\'' :: cs =>
    match cs.dropWhile (· ≠ '\'') with
    | [] => none
    | _ :: behind => some (some (String.ofList (cs.takeWhile (· ≠ '\''))), behind)
  | cs => some (none, cs)

/-- The first attribute of a text, and what stands behind it. -/
def first? : List Char → Option ((String × Option String) × List Char)
  | ' ' :: cs =>
    if cs.takeWhile isKeyChar = [] then none
    else (value? (cs.dropWhile isKeyChar)).map fun (v, behind) =>
      ((String.ofList (cs.takeWhile isKeyChar), v), behind)
  | _ => none

theorem length_of_value? {cs behind : List Char} {v : Option String}
    (h : value? cs = some (v, behind)) : behind.length ≤ cs.length := by
  unfold value? at h
  split at h
  · rename_i cs
    split at h
    · cases h
    · rename_i c rest hdrop
      cases h
      have hle := (List.dropWhile_suffix (l := cs) (· ≠ '\'')).length_le
      rw [hdrop, List.length_cons] at hle
      simp only [List.length_cons]
      omega
  · cases h
    exact Nat.le_refl _

/-- An attribute takes up some of the text. -/
theorem length_of_first? {cs behind : List Char} {a : String × Option String}
    (h : first? cs = some (a, behind)) : behind.length < cs.length := by
  unfold first? at h
  split at h
  · rename_i cs
    split at h
    · cases h
    · obtain ⟨⟨v, rest⟩, hvalue, heq⟩ := Option.map_eq_some_iff.mp h
      cases heq
      have hle := length_of_value? hvalue
      have hdrop := (List.dropWhile_suffix (l := cs) isKeyChar).length_le
      rw [List.length_cons]
      omega
  · cases h

/-- The attributes of a text one after the other. -/
def read (cs : List Char) : Option (List (String × Option String)) :=
  if cs = [] then some []
  else match _h : first? cs with
    | none => none
    | some (a, behind) => (read behind).map (a :: ·)
termination_by cs.length
decreasing_by exact length_of_first? _h

theorem read_nil : read [] = some [] := by
  rw [read, if_pos rfl]

theorem read_of_first? {cs behind : List Char} {a : String × Option String}
    (h : first? cs = some (a, behind)) : read cs = (read behind).map (a :: ·) := by
  have hne : cs ≠ [] := by
    rintro rfl
    cases h
  rw [read, if_neg hne]
  split
  · rename_i hnone
    rw [h] at hnone
    cases hnone
  · rename_i a' behind' hsome
    rw [h] at hsome
    cases hsome
    rfl

/-! ### Reading what is written -/

theorem isKeyChar_of_isKey {key : String} (h : IsKey key) :
    ∀ c ∈ key.toList, isKeyChar c = true := by
  intro c hc
  obtain ⟨hspace, hequals, hquote⟩ := h.2 c hc
  simp [isKeyChar, hspace, hequals, hquote]

/-- A key is read up to its end. -/
theorem first?_key {key : String} (hkey : IsKey key) {rest : List Char}
    (hrest : ∀ c ∈ rest.head?, isKeyChar c = false) :
    first? (' ' :: (key.toList ++ rest))
      = (value? rest).map fun (v, behind) => ((key, v), behind) := by
  have hchars := isKeyChar_of_isKey hkey
  have hends : rest.takeWhile isKeyChar = [] ∧ rest.dropWhile isKeyChar = rest := by
    cases rest with
    | nil => exact ⟨rfl, rfl⟩
    | cons c rest =>
      have hc : ¬ isKeyChar c = true := by simp [hrest c rfl]
      exact ⟨List.takeWhile_cons_of_neg hc, List.dropWhile_cons_of_neg hc⟩
  have hne : key.toList ≠ [] := fun e => hkey.1 (String.toList_eq_nil_iff.mp e)
  rw [first?, List.takeWhile_append_of_pos hchars, List.dropWhile_append_of_pos hchars, hends.1,
    hends.2, List.append_nil, if_neg hne, String.ofList_toList]

/-- A value is read up to its quote. -/
theorem value?_quoted {value : String} (h : '\'' ∉ value.toList) (rest : List Char) :
    value? ('=' :: '\'' :: (value.toList ++ '\'' :: rest)) = some (some value, rest) := by
  have hchars : ∀ c ∈ value.toList, decide (c ≠ '\'') = true := by
    intro c hc
    exact decide_eq_true fun e => h (e ▸ hc)
  rw [value?, List.takeWhile_append_of_pos hchars, List.dropWhile_append_of_pos hchars]
  simp

theorem value?_none {rest : List Char} (hrest : ∀ c ∈ rest.head?, c = ' ') :
    value? rest = some (none, rest) := by
  cases rest with
  | nil => rfl
  | cons c rest =>
    have hc : c = ' ' := hrest c rfl
    rw [hc]
    rfl

/-- **An attribute.** It is read as its key with its value, or not at all if it is
omitted. -/
theorem read_form {key : String} (hkey : IsKey key) {rest : List Char}
    (hrest : ∀ c ∈ rest.head?, c = ' ') : ∀ {form : Form}, form.Contained →
    read ((form.text key).toList ++ rest) = (read rest).map (form.seen key ++ ·)
  | .omitted, _ => by
    rw [Form.text, Form.seen]
    exact Option.map_id.symm ▸ rfl
  | .bare, _ => by
    have hfirst : first? (' ' :: (key.toList ++ rest)) = some ((key, none), rest) := by
      rw [first?_key hkey fun c hc => by rw [hrest c hc]; rfl, value?_none hrest]
      rfl
    rw [Form.text, String.toList_append, List.append_assoc]
    exact read_of_first? hfirst
  | .quoted value, hvalue => by
    have hchars : (Form.text key (.quoted value)).toList ++ rest
        = ' ' :: (key.toList ++ '=' :: '\'' :: (value.toList ++ '\'' :: rest)) := by
      simp [Form.text]
    have hfirst : first? (' ' :: (key.toList ++ '=' :: '\'' :: (value.toList ++ '\'' :: rest)))
        = some ((key, some value), rest) := by
      rw [first?_key hkey fun c hc => by cases hc; rfl, value?_quoted hvalue]
      rfl
    rw [hchars]
    exact read_of_first? hfirst

/-- Attributes begin with a space. -/
theorem head?_serialize : ∀ attributes : List (String × AttributeValue),
    ∀ c ∈ (serialize attributes).toList.head?, c = ' '
  | [], _, hc => by cases hc
  | (key, v) :: rest, c, hc => by
    rw [serialize_cons, String.toList_append] at hc
    cases hform : v.form key with
    | omitted =>
      rw [hform] at hc
      exact head?_serialize rest c hc
    | bare =>
      rw [hform, Form.text, String.toList_append] at hc
      cases hc
      rfl
    | quoted value =>
      rw [hform, Form.text, String.toList_append, String.toList_append, String.toList_append,
        String.toList_append] at hc
      cases hc
      rfl

/-- **Attributes.** If no value ends its own quotes, they are read in their order. -/
theorem read_serialize : ∀ {attributes : List (String × AttributeValue)},
    (∀ a ∈ attributes, IsKey a.1) → (∀ a ∈ attributes, (a.2.form a.1).Contained) →
    read (serialize attributes).toList
      = some (attributes.flatMap fun a => (a.2.form a.1).seen a.1)
  | [], _, _ => read_nil
  | (key, v) :: rest, hkeys, hforms => by
    have ih := read_serialize (fun a ha => hkeys a (List.mem_cons_of_mem _ ha))
      fun a ha => hforms a (List.mem_cons_of_mem _ ha)
    have hread := read_form (hkeys (key, v) List.mem_cons_self) (head?_serialize rest)
      (hforms (key, v) List.mem_cons_self)
    rw [serialize_cons, String.toList_append, hread, ih]
    rfl

/-! ### Values that end their own quotes -/

theorem quote_not_mem_value? {cs behind : List Char} {value : String}
    (h : value? cs = some (some value, behind)) : '\'' ∉ value.toList := by
  unfold value? at h
  split at h
  · split at h
    · cases h
    · cases h
      rw [String.toList_ofList]
      intro hmem
      have hquote := List.mem_takeWhile_imp hmem
      exact absurd rfl (of_decide_eq_true hquote)
  · cases h

theorem quote_not_mem_first? {cs behind : List Char} {key value : String}
    (h : first? cs = some ((key, some value), behind)) : '\'' ∉ value.toList := by
  unfold first? at h
  split at h
  · split at h
    · cases h
    · obtain ⟨⟨v, rest⟩, hvalue, heq⟩ := Option.map_eq_some_iff.mp h
      cases heq
      exact quote_not_mem_value? hvalue
  · cases h

/-- **No value that is read holds a single quote.** -/
theorem quote_not_mem_read (cs : List Char) : ∀ {found : List (String × Option String)},
    read cs = some found → ∀ key value, (key, some value) ∈ found → '\'' ∉ value.toList := by
  induction cs using read.induct with
  | case1 =>
    intro found h key value hmem
    rw [read_nil] at h
    cases h
    cases hmem
  | case2 cs hne hnone =>
    intro found h
    rw [read, if_neg hne] at h
    split at h
    · cases h
    · rename_i hsome
      rw [hnone] at hsome
      cases hsome
  | case3 cs hne a behind hfirst ih =>
    intro found h key value hmem
    rw [read_of_first? hfirst] at h
    obtain ⟨rest, hrest, rfl⟩ := Option.map_eq_some_iff.mp h
    rcases List.mem_cons.mp hmem with rfl | hmem
    · exact quote_not_mem_first? hfirst
    · exact ih hrest key value hmem

end Attribute

/-! ### What is to be found -/

namespace AttributeValue

/-- A text with double quotes for its single ones. -/
def turned (s : String) : String := String.ofList (s.toList.map Text.neutralChar)

/-- What is to be found of a value under a key: nothing if it is absent or the key is
reserved; the bare key or nothing for a truth value, and its text under `class`; the text
of any other value, where the single quotes are turned in a text, and but under `class`
in a list of names and in a value with a text of its own. -/
def found (key : String) (v : AttributeValue) : List (String × Option String) :=
  if key = childrenKey then []
  else match v with
    | .null => []
    | .bool b =>
      if key = classKey then [(key, some (if b then "true" else "false"))]
      else if b then [(key, none)] else []
    | .text s => [(key, some (turned s))]
    | .number n => [(key, some n.text)]
    | .timestamp t => [(key, some t.millisText)]
    | .classes names =>
      [(key, some (if key = classKey then ",".intercalate names
        else turned (",".intercalate names)))]
    | .other shown => [(key, some (if key = classKey then shown else turned shown))]

/-- **What is seen of a value in a tree is what is to be found of it**, if what is written
under `class` as it is holds no single quote: such a text is the same with its quotes
turned. -/
theorem seen_eq_found {key : String} {v : AttributeValue}
    (h : key = classKey → ∀ s, v.raw? = some s → '\'' ∉ s.toList) : v.seen key = v.found key := by
  have hraw : ∀ s, v.raw? = some s →
      Text.neutralize s = if key = classKey then s else turned s := by
    intro s hs
    by_cases hclass : key = classKey
    · rw [if_pos hclass, Text.neutralize_of_not_mem (h hclass s hs)]
    · rw [if_neg hclass, turned, Text.neutralize_eq]
  unfold seen found
  by_cases hchildren : key = childrenKey
  · rw [if_pos hchildren, if_pos hchildren]
  · rw [if_neg hchildren, if_neg hchildren]
    cases v with
    | null | bool b => rfl
    | text s =>
      show [(key, some (Text.neutralize s))] = _
      rw [Text.neutralize_eq]
      rfl
    | number n =>
      show [(key, some (Text.neutralize n.text))] = _
      rw [Text.neutralize_of_not_mem (Text.quote_not_mem n.plain_text)]
    | timestamp t =>
      show [(key, some (Text.neutralize t.millisText))] = _
      rw [Text.neutralize_of_not_mem (Text.quote_not_mem t.plain_millisText)]
    | classes names =>
      show [(key, some (Text.neutralize (classText names)))] = _
      rw [hraw _ rfl, classText]
    | other shown =>
      show [(key, some (Text.neutralize shown))] = _
      rw [hraw _ rfl]

/-- What is written under `class` as it is is to be found as it is. -/
theorem mem_found_of_raw {v : AttributeValue} {s : String} (h : v.raw? = some s) :
    (classKey, some s) ∈ v.found classKey := by
  cases v with
  | classes names | other shown =>
    cases h
    exact List.mem_singleton_self _
  | null | text s | number n | bool b | timestamp t => cases h

end AttributeValue

/-- **Attributes read back, unless a class ends its quotes.** Of attributes whose keys
are keys for the reader, it finds those that are written, each as its value says and in
their order, exactly if no list of names and no value with a text of its own holds a
single quote under `class`. -/
theorem Attribute.read_serialize_iff (attributes : List (String × AttributeValue))
    (hkeys : ∀ a ∈ attributes, IsKey a.1) :
    read (serialize attributes).toList = some (attributes.flatMap fun a => a.2.found a.1) ↔
      ∀ a ∈ attributes, a.1 = classKey → ∀ s, a.2.raw? = some s → '\'' ∉ s.toList := by
  constructor
  · intro hread a ha hclass s hs
    refine quote_not_mem_read _ hread classKey s (List.mem_flatMap.mpr ⟨a, ha, ?_⟩)
    rw [hclass]
    exact AttributeValue.mem_found_of_raw hs
  · intro hraw
    have hcontained : ∀ a ∈ attributes, (a.2.form a.1).Contained :=
      fun a ha => (AttributeValue.shows_form (hraw a ha)).1
    rw [read_serialize hkeys hcontained]
    refine congrArg some (List.flatMap_congr fun a ha => ?_)
    exact (AttributeValue.shows_form (hraw a ha)).2.trans (AttributeValue.seen_eq_found (hraw a ha))

/-- Repeated keys are found with each of their values; a quote in a list of classes is
not. -/
theorem Attribute.read_serialize_quotes :
    read (serialize [("class", .text "it's"), ("a", .other "'"), ("children", .text "x"),
        ("a", .bool true), ("class", .bool false)]).toList
      = some [("class", some "it\"s"), ("a", some "\""), ("a", none), ("class", some "false")] ∧
    read (serialize [("class", .classes ["it's"])]).toList ≠ some [("class", some "it's")] := by
  have hclass : IsKey "class" := by simp [IsKey]
  have ha : IsKey "a" := by simp [IsKey]
  have hchildren : IsKey "children" := by simp [IsKey]
  refine ⟨?_, fun hread => ?_⟩
  · have hraw := (read_serialize_iff [("class", .text "it's"), ("a", .other "'"),
      ("children", .text "x"), ("a", .bool true), ("class", .bool false)]
      (by simp [hclass, ha, hchildren])).mpr
    exact hraw (by simp [AttributeValue.raw?, classKey])
  · have hquote := (read_serialize_iff [("class", .classes ["it's"])] (by simp [hclass])).mp hread
    exact hquote _ List.mem_cons_self rfl "it's" rfl (by simp)

end Markup
