/-
# Two routes from a text to props

The members of a JSON object become props on two routes. The reader of documents leaves
each key once, at its first place with its last value, and the props take the members of
that record (`Props.ofText`). Or every member is inserted as it stands in the text, one
after the other, its value as that of an attribute (`Props.ofPairs`). Both build props from
the same record (`Props.ofRecord`): the first since a record that is written again is
itself (`Keyed.ofPairs_of_nodup`), the second since inserting keeps up with writing
(`Props.ofRecord_insert`). So the attributes are the same, for any keys in any order.

Content is a matter of its own, for on the second route it goes through the value of an
attribute, where a list is class names. The two agree on what is no list and on lists of
items with one text on both (`Json.isSimple`); on a list in a list they do not
(`Props.ofText_routes`), and every such value stands in some text (`Json.readRaw_nested`).

Key definitions: `Keyed.last?`, `Props.give`, `Props.ofRecord`, `Props.pairsOf`,
`Props.contentByAttribute`, `Json.isSimple`.
Key theorems: `Keyed.ofPairs_of_nodup`, `Props.ofRecord_insert`, `Props.ofPairs_pairsOf`,
`Json.resolve_of_isSimple`, `Json.resolve_nested`, `Props.ofText_routes`.
-/
import Mathlib.Data.List.Induction
import Markup.Build
import Markup.Proofs.PrintedText

namespace Markup

/-! ### Records -/

namespace Keyed

variable {α β : Type}

/-- The value of the last pair with a key. -/
def last? (pairs : List (String × α)) (key : String) : Option α :=
  (pairs.filter fun e => e.1 = key).getLast?.map Prod.snd

theorem last?_append (pairs : List (String × α)) (k : String) (v : α) (key : String) :
    last? (pairs ++ [(k, v)]) key = if k = key then some v else last? pairs key := by
  rw [last?, List.filter_append]
  by_cases hk : k = key <;> simp [hk, last?]

theorem last?_map (f : α → β) (pairs : List (String × α)) (key : String) :
    last? (pairs.map fun e => (e.1, f e.2)) key = (last? pairs key).map f := by
  rw [last?, last?, List.filter_map, List.getLast?_map, Option.map_map, Option.map_map]
  rfl

theorem ofPairs_append (pairs : List (String × α)) (k : String) (v : α) :
    ofPairs (pairs ++ [(k, v)]) = insert (ofPairs pairs) k v := by
  rw [ofPairs, List.foldl_append]
  rfl

/-- The value under a key is the one written last. -/
theorem find?_ofPairs (pairs : List (String × α)) (key : String) :
    find? (ofPairs pairs) key = last? pairs key := by
  induction pairs using List.reverseRecOn with
  | nil => rfl
  | append_singleton pairs e ih =>
    obtain ⟨k, v⟩ := e
    rw [ofPairs_append, last?_append]
    by_cases hk : k = key
    · rw [if_pos hk, hk, find?_insert_self]
    · rw [if_neg hk, find?_insert_of_ne _ _ (Ne.symm hk), ih]

theorem nodup_keys_ofPairs (pairs : List (String × α)) : (keys (ofPairs pairs)).Nodup := by
  induction pairs using List.reverseRecOn with
  | nil => exact List.nodup_nil
  | append_singleton pairs e ih =>
    rw [ofPairs_append]
    exact nodup_keys_insert ih e.1 e.2

/-- A record that is written again is itself. -/
theorem ofPairs_of_nodup {entries : List (String × α)} (h : (keys entries).Nodup) :
    ofPairs entries = entries := by
  induction entries using List.reverseRecOn with
  | nil => rfl
  | append_singleton entries e ih =>
    obtain ⟨k, v⟩ := e
    have hkeys : keys (entries ++ [(k, v)]) = keys entries ++ [k] := List.map_append
    rw [hkeys, List.nodup_append] at h
    obtain ⟨hentries, -, hdisjoint⟩ := h
    have hnew : k ∉ keys entries := fun hmem => hdisjoint k hmem k (List.mem_singleton_self k) rfl
    rw [ofPairs_append, ih hentries, insert_of_not_mem hnew]

end Keyed

/-! ### Documents without repetitions -/

namespace Json

theorem mergedItems_eq_map : ∀ items : List Json, mergedItems items = items.map merged
  | [] => rfl
  | item :: rest => by rw [mergedItems, mergedItems_eq_map rest, List.map_cons]

theorem mergedMembers_eq_map : ∀ members : List (String × Json),
    mergedMembers members = members.map fun e => (e.1, e.2.merged)
  | [] => rfl
  | (key, j) :: rest => by rw [mergedMembers, mergedMembers_eq_map rest, List.map_cons]

end Json

/-! ### Props from a record -/

namespace Props

variable (content : Json → Content)

/-- Props with one more member of an object, where `content` says what a value becomes
under the reserved key. -/
def give (p : Props) (key : String) (j : Json) : Props :=
  if key = childrenKey then { p with children := some (content j) }
  else { p with attributes := Keyed.insert p.attributes key (.ofJson j) }

/-- The props that hold what a record of members holds. -/
def ofRecord (members : List (String × Json)) : Props where
  attributes := (Keyed.erase members childrenKey).map fun e => (e.1, .ofJson e.2)
  children := (Keyed.find? members childrenKey).map content

/-- **Giving keeps up with writing.** Props that hold a record hold the record with one more
member when they are given that member. -/
theorem ofRecord_insert (members : List (String × Json)) (key : String) (j : Json) :
    ofRecord content (Keyed.insert members key j)
      = give content (ofRecord content members) key j := by
  by_cases hkey : key = childrenKey
  · subst hkey
    simp only [ofRecord, give, Keyed.erase_insert, Keyed.find?_insert_self, if_true,
      Option.map_some]
  · have hne : childrenKey ≠ key := Ne.symm hkey
    simp only [ofRecord, give, Keyed.erase_insert, Keyed.map_insert, hkey, if_false,
      Keyed.find?_insert_of_ne _ _ hne]

/-- Members given one after the other leave the props of their record. -/
theorem foldl_give (members : List (String × Json)) :
    members.foldl (fun p (key, j) => give content p key j) empty
      = ofRecord content (Keyed.ofPairs members) := by
  induction members using List.reverseRecOn with
  | nil => rfl
  | append_singleton members e ih =>
    rw [List.foldl_append, ih, Keyed.ofPairs_append, ofRecord_insert]
    rfl

theorem childrenKey_not_mem_ofRecord {members : List (String × Json)}
    (h : (Keyed.keys members).Nodup) :
    childrenKey ∉ Keyed.keys (ofRecord content members).attributes := by
  have hkeys : Keyed.keys (ofRecord content members).attributes
      = Keyed.keys (Keyed.erase members childrenKey) := by
    simp [Keyed.keys, ofRecord, Function.comp_def]
  rw [hkeys, Keyed.keys_erase]
  exact h.not_mem_erase

/-- The first route: the members of a text that was read are merged, and the props hold
their record. -/
theorem ofText_of_readRaw {source : String} {members : List (String × Json)}
    (h : Json.readRaw source = .ok (.object members)) : ofText source
      = .ok (ofRecord Content.ofJson (Keyed.ofPairs (Json.mergedMembers members))) := by
  have hread : Json.ofText source
      = .ok (.object (Keyed.ofPairs (Json.mergedMembers members))) := by
    rw [Json.ofText, Json.read, h]
    rfl
  have hgiven := foldl_give Content.ofJson (Keyed.ofPairs (Json.mergedMembers members))
  rw [Keyed.ofPairs_of_nodup (Keyed.nodup_keys_ofPairs _)] at hgiven
  rw [ofText, hread, ← hgiven]
  rfl

/-- A value under the reserved key on the second route: the content that its value as an
attribute becomes. -/
def contentByAttribute (j : Json) : Content := .ofAttribute (.ofJson j)

/-- The members of an object of a text as pairs, one for each as it stands. -/
def pairsOf (members : List (String × Json)) : List (String × AttributeValue) :=
  members.map fun e => (e.1, .ofJson e.2.merged)

/-- The second route: the props of members inserted as they stand. -/
theorem ofPairs_pairsOf (members : List (String × Json)) : ofPairs (pairsOf members)
    = ofRecord contentByAttribute (Keyed.ofPairs (Json.mergedMembers members)) := by
  rw [Json.mergedMembers_eq_map, ← foldl_give, ofPairs, pairsOf, List.foldl_map, List.foldl_map]
  rfl

/-- Under a key of the record of a text stands the last value that the text has for it. -/
theorem find?_mergedMembers (members : List (String × Json)) (key : String) :
    Keyed.find? (Keyed.ofPairs (Json.mergedMembers members)) key
      = (Keyed.last? members key).map Json.merged := by
  rw [Keyed.find?_ofPairs, Json.mergedMembers_eq_map, Keyed.last?_map]

/-- What is under the reserved key of a record stands in a fragment. -/
theorem buildFragment_ofRecord {members : List (String × Json)} {j : Json}
    (h : Keyed.find? members childrenKey = some j) :
    buildFragment (ofRecord content members) = (content j).resolve := by
  rw [buildFragment_eq, ofRecord, h]
  rfl

theorem buildFragment_ofRecord_of_none {members : List (String × Json)}
    (h : Keyed.find? members childrenKey = none) :
    buildFragment (ofRecord content members) = .ready "" := by
  rw [buildFragment_eq, ofRecord, h]
  rfl

end Props

/-! ### Content on the two routes -/

namespace Json

/-- Whether an item of a list has one text on both routes. -/
def isSimpleItem : Json → Bool
  | .null | .bool _ | .string _ | .object _ => true
  | .integer v => -0x8000000000000000 ≤ v && v < 0x8000000000000000
  | .float _ | .array _ => false

/-- Whether a value is no list or a list of items with one text on both routes. -/
def isSimple : Json → Bool
  | .array items => items.all isSimpleItem
  | _ => true

theorem isSimple_merged (j : Json) : j.merged.isSimple = j.isSimple := by
  have item : ∀ j : Json, j.merged.isSimpleItem = j.isSimpleItem := by
    intro j
    cases j <;> simp [merged, isSimpleItem]
  cases j with
  | array items =>
    rw [merged, mergedItems_eq_map, isSimple, isSimple, List.all_map]
    exact congrArg items.all (funext item)
  | null | bool b | integer v | float x | string s | object members => simp [merged, isSimple]

/-- The class name that an item of a list becomes. -/
def className : Json → String
  | .string s => s
  | .null => ""
  | item => item.compact

theorem contentByAttribute_array (items : List Json) : Props.contentByAttribute (.array items)
    = .list (items.map fun item => .text item.className) := by
  have hclasses : AttributeValue.ofJson (.array items) = .classes (items.map className) := rfl
  rw [Props.contentByAttribute, hclasses, Content.ofAttribute, List.map_map]
  rfl

theorem readyText_ofJson {item : Json} (h : item.isSimpleItem = true) :
    (Content.ofJson item).readyText = item.className := by
  cases item with
  | null | string s | object members => rfl
  | bool b => cases b <;> rfl
  | integer v =>
    rw [isSimpleItem, Bool.and_eq_true, decide_eq_true_eq, decide_eq_true_eq] at h
    exact Number.text_ofJsonInteger h
  | float x | array items => cases h

theorem readyTexts_ofJsonItems : ∀ {items : List Json}, items.all isSimpleItem = true →
    Content.readyTexts (Content.ofJsonItems items)
      = Content.readyTexts (items.map fun item => .text item.className)
  | [], _ => rfl
  | item :: rest, h => by
    rw [List.all_cons, Bool.and_eq_true] at h
    have ih := readyTexts_ofJsonItems h.2
    rw [Content.ofJsonItems, Content.readyTexts, readyText_ofJson h.1, ih]
    rfl

mutual

theorem isPending_ofJson : ∀ j : Json, (Content.ofJson j).isPending = false
  | .null | .bool _ | .integer _ | .float _ | .string _ | .object _ => rfl
  | .array items => anyPending_ofJsonItems items

theorem anyPending_ofJsonItems : ∀ items : List Json,
    Content.anyPending (Content.ofJsonItems items) = false
  | [] => rfl
  | item :: rest => by
    rw [Content.ofJsonItems, Content.anyPending, isPending_ofJson item, anyPending_ofJsonItems rest]
    rfl

end

theorem anyPending_map_text (f : Json → String) (items : List Json) :
    Content.anyPending (items.map fun item => .text (f item)) = false := by
  induction items with
  | nil => rfl
  | cons item rest ih => rw [List.map_cons, Content.anyPending, ih]; rfl

/-- The text of a list on the first route. -/
theorem resolve_ofJson_array (items : List Json) : (Content.ofJson (.array items)).resolve
    = .ready (Content.readyTexts (Content.ofJsonItems items)) :=
  Content.resolve_of_ready (isPending_ofJson (.array items))

/-- The text of a list on the second route. -/
theorem resolve_contentByAttribute_array (items : List Json) :
    (Props.contentByAttribute (.array items)).resolve
      = .ready (Content.readyTexts (items.map fun item => .text item.className)) := by
  rw [contentByAttribute_array]
  exact Content.resolve_of_ready (anyPending_map_text className items)

/-- **Where the routes agree.** A simple value has one text on both routes. -/
theorem resolve_of_isSimple {j : Json} (h : j.isSimple = true) :
    ∃ text, (Content.ofJson j).resolve = .ready text ∧
      (Props.contentByAttribute j).resolve = .ready text := by
  cases j with
  | array items =>
    refine ⟨_, resolve_ofJson_array items, ?_⟩
    rw [resolve_contentByAttribute_array, readyTexts_ofJsonItems h]
  | null | bool b | integer v | float x | string s | object members => exact ⟨_, rfl, rfl⟩

/-- **Where they do not.** A list in a list is its item on the first route and its compact
text on the second. -/
theorem resolve_nested (s : String) :
    (Content.ofJson (.array [.array [.string s]])).resolve = .ready s ∧
    (Props.contentByAttribute (.array [.array [.string s]])).resolve
      = .ready (Json.array [.string s]).compact := by
  rw [resolve_ofJson_array, resolve_contentByAttribute_array]
  simp [Content.ofJsonItems, Content.ofJson, Content.readyTexts, Content.readyText, className]

end Json

/-! ### Both routes -/

namespace Props

/-- **Two routes.** The members that the text of an object holds become props with the
same attributes in the same order, whether the document is read first or every member is
inserted as it stands; the reserved key is none of them. Content has the same text if the
last value under the reserved key is simple; a list in a list has not, and each text
stands in one somewhere. -/
theorem ofText_routes {source : String} {members : List (String × Json)}
    (h : Json.readRaw source = .ok (.object members)) :
    (∃ p, ofText source = .ok p ∧
      p.attributes = (ofPairs (pairsOf members)).attributes ∧
      childrenKey ∉ Keyed.keys p.attributes ∧
      ((∀ j, Keyed.last? members childrenKey = some j → j.isSimple = true) →
        ∃ text, buildFragment p = .ready text ∧
          buildFragment (ofPairs (pairsOf members)) = .ready text) ∧
      ∀ s, Keyed.last? members childrenKey = some (.array [.array [.string s]]) →
        buildFragment p = .ready s ∧
        buildFragment (ofPairs (pairsOf members)) = .ready (Json.array [.string s]).compact ∧
        (Json.array [.string s]).compact ≠ s) ∧
    ∀ s, ∃ source, Json.readRaw source
      = .ok (.object [(childrenKey, .array [.array [.string s]])]) := by
  have hlast := find?_mergedMembers members childrenKey
  refine ⟨⟨_, ofText_of_readRaw h, ?_, ?_, ?_, ?_⟩, ?_⟩
  · rw [ofPairs_pairsOf]
    rfl
  · exact childrenKey_not_mem_ofRecord Content.ofJson (Keyed.nodup_keys_ofPairs _)
  · intro hsimple
    rw [ofPairs_pairsOf]
    cases hj : Keyed.last? members childrenKey with
    | none =>
      rw [hj] at hlast
      exact ⟨"", buildFragment_ofRecord_of_none _ hlast, buildFragment_ofRecord_of_none _ hlast⟩
    | some j =>
      rw [hj] at hlast
      rw [buildFragment_ofRecord _ hlast, buildFragment_ofRecord _ hlast]
      refine Json.resolve_of_isSimple ?_
      rw [Json.isSimple_merged]
      exact hsimple j hj
  · intro s hs
    rw [hs] at hlast
    obtain ⟨hfirst, hsecond⟩ := Json.resolve_nested s
    rw [ofPairs_pairsOf, buildFragment_ofRecord _ hlast, buildFragment_ofRecord _ hlast]
    exact ⟨hfirst, hsecond, Json.compact_singleton_ne s⟩
  · exact fun s => ⟨_, Json.readRaw_nested childrenKey s⟩

/-- Of a key that a text names twice the last value counts, at the first place. -/
theorem ofText_routes_repeated :
    Json.readRaw "\x7b\"z\":null,\"children\":[[]],\"a\":\"b\",\"z\":true,\"children\":[\"p\",null]\x7d"
      = .ok (.object [("z", .null), ("children", .array [.array []]), ("a", .string "b"),
        ("z", .bool true), ("children", .array [.string "p", .null])]) ∧
    ∃ p, ofText "\x7b\"z\":null,\"children\":[[]],\"a\":\"b\",\"z\":true,\"children\":[\"p\",null]\x7d"
        = .ok p ∧
      p.attributes = [("z", .bool true), ("a", .text "b")] ∧
      buildFragment p = .ready "p" ∧
      buildFragment (ofPairs [("z", .null), ("children", .classes ["[]"]), ("a", .text "b"),
        ("z", .bool true), ("children", .classes ["p", ""])]) = .ready "p" := by
  have hread : Json.readRaw
      "\x7b\"z\":null,\"children\":[[]],\"a\":\"b\",\"z\":true,\"children\":[\"p\",null]\x7d"
      = .ok (.object [("z", .null), ("children", .array [.array []]), ("a", .string "b"),
        ("z", .bool true), ("children", .array [.string "p", .null])]) := by cbv
  obtain ⟨⟨p, hp, hattributes, -, hcontent, -⟩, -⟩ := ofText_routes hread
  obtain ⟨text, hfirst, hsecond⟩ := hcontent fun j hj => by cases hj; rfl
  have htext : text = "p" := Element.ready.inj (hsecond.symm.trans rfl)
  rw [htext] at hfirst
  exact ⟨hread, p, hp, hattributes, hfirst, rfl⟩

end Props
end Markup
