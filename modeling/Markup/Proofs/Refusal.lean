/-
# The checking renderer only refuses

A checking renderer looks at the names of literal tags and at nothing else. It refuses a
name exactly under strict settings that do not admit it (`Renderer.refuses_iff`), and what
it does not refuse it builds as `build` does (`Renderer.build_eq`). So it is a filter in
front of `build`, and the filters of several nodes are one: `Renderer.pass` answers the
error for the first name that is refused, and passing one list of names and then another is
passing both (`Renderer.pass_bind`). By induction, a tree that is built node by node through
a renderer passes the names of all its nodes (`ElementTree.check_eq`).

The names that strict settings admit are harmless: a letter, then letters, digits, points,
low lines and hyphens. For the vocabulary this is seen by going through it, for custom names
from their form (`Vocabulary.isTagName_of_isCustomName`).

Key definitions: `Settings.Admits`, `Settings.Relaxes`, `Renderer.pass`, `ElementTree`,
`Vocabulary.isTagName`, `Renderer.Filters`.
Key theorems: `Vocabulary.isKnown_classify`, `Renderer.build_eq`, `Renderer.pass_bind`,
`ElementTree.check_eq`, `Renderer.filters`.
-/
import Mathlib.Data.List.TakeWhile
import Mathlib.Tactic.SplitIfs
import Markup.Renderer

namespace Markup

/-! ### Names -/

namespace Vocabulary

/-- Whether a character may stand in a tag name behind its first letter. -/
def isTagNameChar (c : Char) : Bool := c.isAlphanum || c = '.' || c = '_' || c = '-'

/-- A letter, then letters, digits, points, low lines and hyphens. -/
def isTagName (name : String) : Bool :=
  match name.toList with
  | [] => false
  | c :: cs => c.isAlpha && cs.all isTagNameChar

/-- Characters that may end a name or mean markup. -/
def markupChars : List Char :=
  ['<', '>', '/', '=', '"', '\'', '&', ' ', '\t', '\n', '\r', '\x0c']

theorem isTagName_iff (name : String) : isTagName name = true ↔
    ∃ c cs, name.toList = c :: cs ∧ c.isAlpha = true ∧ ∀ d ∈ cs, isTagNameChar d = true := by
  rw [isTagName]
  cases name.toList with
  | nil => simp
  | cons c cs =>
    simp only [Bool.and_eq_true, List.all_eq_true, List.cons.injEq]
    exact ⟨fun h => ⟨c, cs, ⟨rfl, rfl⟩, h⟩, fun ⟨_, _, ⟨rfl, rfl⟩, h⟩ => h⟩

theorem isTagNameChar_of_isAlpha {c : Char} (h : c.isAlpha = true) : isTagNameChar c = true := by
  simp [isTagNameChar, Char.isAlphanum, h]

/-- No character of a tag name ends it or means markup. -/
theorem not_mem_markupChars {name : String} (h : isTagName name = true) {c : Char}
    (hc : c ∈ name.toList) : c ∉ markupChars := by
  have hchar : isTagNameChar c = true := by
    obtain ⟨d, ds, hchars, hletter, hbehind⟩ := (isTagName_iff name).mp h
    rw [hchars, List.mem_cons] at hc
    rcases hc with rfl | hc
    · exact isTagNameChar_of_isAlpha hletter
    · exact hbehind c hc
  intro hmem
  have hnone : markupChars.all (fun d => !isTagNameChar d) = true := by decide
  have hrefused := List.all_eq_true.mp hnone c hmem
  rw [hchar] at hrefused
  cases hrefused

theorem isAlpha_of_isLetter {c : Char} (h : isLetter c = true) : c.isAlpha = true := by
  have hlower : c.isLower = true := h
  show (c.isUpper || c.isLower) = true
  rw [hlower, Bool.or_true]

theorem isTagNameChar_of_isWordChar {c : Char} (h : isWordChar c = true) :
    isTagNameChar c = true := by
  simp only [isWordChar, Bool.or_eq_true, Bool.and_eq_true, decide_eq_true_eq] at h
  rcases h with ((hletter | hdigit) | hpoint) | hline
  · exact isTagNameChar_of_isAlpha (isAlpha_of_isLetter hletter)
  · have hdigit : c.isDigit = true := by
      rw [Char.isDigit, Bool.and_eq_true, decide_eq_true_eq, decide_eq_true_eq]
      exact hdigit
    simp [isTagNameChar, Char.isAlphanum, hdigit]
  · simp [isTagNameChar, hpoint]
  · simp [isTagNameChar, hline]

/-- All that a custom name has behind its first letter may stand in a tag name. -/
theorem isTagNameChar_of_reachesHyphen {cs : List Char} (h : reachesHyphen cs = true) :
    ∀ d ∈ cs, isTagNameChar d = true := by
  intro d hd
  unfold reachesHyphen at h
  split at h
  · -- the name is word characters, a hyphen and what may follow one
    rename_i rest hrest
    rw [← List.takeWhile_append_dropWhile (p := isWordChar) (l := cs), hrest, List.mem_append,
      List.mem_cons] at hd
    rcases hd with hword | rfl | hbehind
    · exact isTagNameChar_of_isWordChar (List.mem_takeWhile_imp hword)
    · rfl
    · have hchar := List.all_eq_true.mp h d hbehind
      rw [Bool.or_eq_true, decide_eq_true_eq] at hchar
      rcases hchar with hword | rfl
      · exact isTagNameChar_of_isWordChar hword
      · rfl
  · cases h

/-- The form of custom names is one of tag names. -/
theorem isTagName_of_isCustomName {name : String} (h : isCustomName name = true) :
    isTagName name = true := by
  cases hchars : name.toList with
  | nil =>
    rw [isCustomName, hchars] at h
    cases h
  | cons c cs =>
    have hform : isLetter c = true ∧ reachesHyphen cs = true := by
      rw [isCustomName, hchars] at h
      exact Bool.and_eq_true_iff.mp h
    exact (isTagName_iff name).mpr ⟨c, cs, hchars, isAlpha_of_isLetter hform.1,
      isTagNameChar_of_reachesHyphen hform.2⟩

theorem isTagName_of_mem_known {name : String} (h : name ∈ known) : isTagName name = true := by
  have hall : known.all isTagName = true := by decide +kernel
  exact List.all_eq_true.mp hall name h

theorem mem_known_of_isVoid {name : String} (h : isVoid name = true) : name ∈ known := by
  have hall : ∀ v ∈ voids, v ∈ known := by decide +kernel
  exact hall name (List.contains_iff_mem.mp h)

theorem isKnown_classify (name : String) : (classify name).isKnown = true ↔ name ∈ known := by
  rw [known, List.mem_append]
  unfold classify
  split_ifs with hvoid hhtml hsvg hcustom
  · exact iff_of_true rfl (List.mem_append.mp (mem_known_of_isVoid hvoid))
  · exact iff_of_true rfl (.inl (List.contains_iff_mem.mp hhtml))
  · exact iff_of_true rfl (.inr (List.contains_iff_mem.mp hsvg))
  all_goals
    rw [List.contains_iff_mem] at hhtml hsvg
    exact iff_of_false Bool.false_ne_true (not_or.mpr ⟨hhtml, hsvg⟩)

/-- Outside the vocabulary the form of a name decides. -/
theorem classify_of_not_mem_known {name : String} (h : name ∉ known) :
    classify name = if isCustomName name then .custom else .unknown := by
  rw [← isKnown_classify, Bool.not_eq_true] at h
  unfold classify at h ⊢
  split_ifs at h ⊢ <;> first | rfl | cases h

end Vocabulary

/-! ### What strict settings admit -/

namespace Settings

/-- When strict settings admit a name: it is in the vocabulary, or that of a custom element
where those are admitted. -/
def Admits (s : Settings) (name : String) : Prop :=
  name ∈ Vocabulary.known ∨ (s.customElements = true ∧ Vocabulary.isCustomName name = true)

/-- When settings are no stricter than others: they are not made strict, and custom elements
stay admitted. -/
structure Relaxes (s s' : Settings) : Prop where
  mode : s'.mode = .strict → s.mode = .strict
  customElements : s.customElements = true → s'.customElements = true

theorem Admits.isTagName {s : Settings} {name : String} (h : s.Admits name) :
    Vocabulary.isTagName name = true := by
  rcases h with hknown | ⟨-, hcustom⟩
  · exact Vocabulary.isTagName_of_mem_known hknown
  · exact Vocabulary.isTagName_of_isCustomName hcustom

theorem Admits.relax {s s' : Settings} (hs : s.Relaxes s') {name : String} (h : s.Admits name) :
    s'.Admits name :=
  h.imp_right fun hcustom => ⟨hs.customElements hcustom.1, hcustom.2⟩

end Settings

namespace Renderer

theorem admits_of_isKnown (r : Renderer) {kind : Vocabulary.Kind} (h : kind.isKnown = true) :
    r.admits kind = true := by
  cases kind with
  | void | html | svg => rfl
  | custom | unknown => cases h

/-- The kinds that need no further question are those of the names that strict settings
admit. -/
theorem admits_classify (r : Renderer) (name : String) :
    r.admits (Vocabulary.classify name) = true ↔ r.settings.Admits name := by
  rw [Settings.Admits]
  by_cases hknown : name ∈ Vocabulary.known
  · have hkind := (Vocabulary.isKnown_classify name).mpr hknown
    exact iff_of_true (r.admits_of_isKnown hkind) (.inl hknown)
  · rw [Vocabulary.classify_of_not_mem_known hknown]
    by_cases hcustom : Vocabulary.isCustomName name = true
    · simp [admits, hknown, hcustom]
    · simp [admits, hknown, hcustom]

/-- Whether a renderer refuses a name. -/
def refuses (r : Renderer) (name : String) : Bool :=
  r.settings.mode = .strict && !r.admits (Vocabulary.classify name)

theorem refuses_iff (r : Renderer) (name : String) :
    r.refuses name = true ↔ r.settings.mode = .strict ∧ ¬r.settings.Admits name := by
  rw [refuses, Bool.and_eq_true, decide_eq_true_eq, Bool.not_eq_true', ← admits_classify,
    Bool.not_eq_true]

theorem refuses_relax {r r' : Renderer} (h : r.settings.Relaxes r'.settings) {name : String}
    (hrefused : r'.refuses name = true) : r.refuses name = true := by
  rw [refuses_iff] at hrefused ⊢
  exact ⟨h.mode hrefused.1, fun hadmits => hrefused.2 (hadmits.relax h)⟩

/-- A name is looked at and answered by its kind. -/
theorem check_eq (r : Renderer) (name : String) : r.check name =
    if r.refuses name then .error (.unknownTag name) else .ok (Vocabulary.classify name) := by
  rw [check, refuses]
  cases hadmits : r.admits (Vocabulary.classify name) with
  | true => simp
  | false => cases hmode : r.settings.mode <;> simp

/-! ### Passing names -/

/-- A value, unless one of the names is refused: then the error for the first of them. -/
def pass {α : Type} (r : Renderer) (names : List String) (x : α) : Except Error α :=
  match names.find? r.refuses with
  | some name => .error (.unknownTag name)
  | none => .ok x

section Pass

variable {α β : Type} (r : Renderer)

theorem pass_nil (x : α) : r.pass [] x = .ok x := rfl

theorem pass_singleton (name : String) (x : α) : r.pass [name] x =
    if r.refuses name then .error (.unknownTag name) else .ok x := by
  rw [pass, List.find?_singleton]
  cases r.refuses name <;> rfl

/-- Passing names and then others is passing all of them. -/
theorem pass_bind {names others : List String} {x : α} {y : β} {f : α → Except Error β}
    (hf : f x = r.pass others y) : (r.pass names x >>= f) = r.pass (names ++ others) y := by
  rw [pass, pass, List.find?_append]
  cases names.find? r.refuses with
  | some name => rfl
  | none => exact hf

theorem pass_map (names : List String) (x : α) (g : α → β) :
    (r.pass names x >>= fun a => .ok (g a)) = r.pass names (g x) := by
  rw [pass, pass]
  cases names.find? r.refuses <;> rfl

/-- Names are passed exactly if none of them is refused, and the value is kept. -/
theorem pass_eq_ok_iff (names : List String) (x y : α) :
    r.pass names x = .ok y ↔ (∀ name ∈ names, r.refuses name = false) ∧ x = y := by
  rw [pass]
  cases hfind : names.find? r.refuses with
  | some name =>
    have hrefused := List.find?_some hfind
    have hmem := List.mem_of_find?_eq_some hfind
    refine ⟨fun h => (nomatch h), fun h => ?_⟩
    rw [h.1 name hmem] at hrefused
    cases hrefused
  | none =>
    rw [List.find?_eq_none] at hfind
    simp only [Except.ok.injEq]
    exact ⟨fun h => ⟨fun name hmem => by simpa using hfind name hmem, h⟩, fun h => h.2⟩

end Pass

/-- **Building through a renderer** is building, if the name of the tag passes. -/
theorem build_eq (r : Renderer) (form : ChildrenForm) (t : Tag) (p : Props) :
    r.build form t p = r.pass t.name?.toList (Markup.build form t p) := by
  cases t with
  | name s =>
    show (do let t ← r.checkTag (.name s); _) = r.pass [s] (Markup.build form (.name s) p)
    rw [checkTag, check_eq, pass_singleton]
    cases hrefused : r.refuses s with
    | true =>
      have hmode : r.settings.mode ≠ .off := by
        rw [((r.refuses_iff s).mp hrefused).1]
        decide
      rw [if_neg hmode]
      rfl
    | false =>
      split <;> rfl
  | component c => rfl
  | fragment => rfl

theorem check_eq_ok_iff (r : Renderer) (name : String) (kind : Vocabulary.Kind) :
    r.check name = .ok kind ↔ r.refuses name = false ∧ Vocabulary.classify name = kind := by
  rw [check_eq]
  cases r.refuses name <;> simp

theorem exists_check_iff (r : Renderer) (name : String) :
    (∃ kind, r.check name = .ok kind) ↔ r.refuses name = false := by
  simp [check_eq_ok_iff]

/-- The one way to be refused. -/
theorem build_eq_unknownTag_iff (r : Renderer) (form : ChildrenForm) (t : Tag) (p : Props)
    (name : String) : r.build form t p = .error (.unknownTag name) ↔
      t = .name name ∧ r.refuses name = true := by
  rw [build_eq]
  cases t with
  | name s =>
    show r.pass [s] _ = _ ↔ _
    rw [pass_singleton]
    by_cases hs : s = name
    · subst hs
      cases r.refuses s <;> simp
    · cases r.refuses s <;> simp [hs]
  | component c | fragment => simp [pass, Tag.name?]

theorem build_eq_ok_iff (r : Renderer) (form : ChildrenForm) (t : Tag) (p : Props) (e : Element) :
    r.build form t p = .ok e ↔
      (∀ name ∈ t.name?, r.refuses name = false) ∧ Markup.build form t p = e := by
  rw [build_eq, pass_eq_ok_iff]
  simp

end Renderer

/-! ### Trees -/

/-- A tree to build: a tag, trees below it, and the props that are made of the elements of
those, in whatever way. -/
inductive ElementTree where
  | node (form : ChildrenForm) (tag : Tag) (below : List ElementTree)
      (props : List Element → Props)

namespace ElementTree

mutual

/-- The element of a tree. -/
def build : ElementTree → Element
  | .node form tag below props => Markup.build form tag (props (buildAll below))

/-- The elements of trees. -/
def buildAll : List ElementTree → List Element
  | [] => []
  | t :: rest => build t :: buildAll rest

end

mutual

/-- The element of a tree whose nodes are all built through a renderer. -/
def check (r : Renderer) : ElementTree → Except Error Element
  | .node form tag below props => do
    let elements ← checkAll r below
    r.build form tag (props elements)

/-- The elements of trees whose nodes are all built through a renderer. -/
def checkAll (r : Renderer) : List ElementTree → Except Error (List Element)
  | [] => .ok []
  | t :: rest => do
    let e ← check r t
    let elements ← checkAll r rest
    .ok (e :: elements)

end

mutual

/-- The names of the literal tags of a tree, in the order in which they are looked at. -/
def names : ElementTree → List String
  | .node _ tag below _ => namesAll below ++ tag.name?.toList

/-- The names of the literal tags of trees. -/
def namesAll : List ElementTree → List String
  | [] => []
  | t :: rest => names t ++ namesAll rest

end

mutual

/-- **Building a tree through a renderer** is building it, if all its names pass. -/
theorem check_eq (r : Renderer) : ∀ t : ElementTree, t.check r = r.pass t.names t.build
  | .node form tag below props => by
    rw [check, checkAll_eq r below, names, build]
    exact r.pass_bind (r.build_eq form tag _)

theorem checkAll_eq (r : Renderer) : ∀ ts : List ElementTree,
    checkAll r ts = r.pass (namesAll ts) (buildAll ts)
  | [] => by
    rw [checkAll, namesAll, buildAll, r.pass_nil]
  | t :: rest => by
    rw [checkAll, check_eq r t, checkAll_eq r rest, namesAll, buildAll]
    exact r.pass_bind (r.pass_map (namesAll rest) (buildAll rest) (t.build :: ·))

end

end ElementTree

/-! ### Filtering -/

namespace Renderer

/-- When a renderer only filters what is built without it. -/
structure Filters (r : Renderer) : Prop where
  /-- It refuses a literal tag whose name strict settings do not admit, and nothing else, -/
  build_eq_error_iff : ∀ form t p name, r.build form t p = .error (.unknownTag name) ↔
    r.settings.mode = .strict ∧ t = .name name ∧ name ∉ Vocabulary.known ∧
      ¬(r.settings.customElements = true ∧ Vocabulary.isCustomName name = true)
  /-- and whatever it does not refuse it builds as it is built otherwise. -/
  build_eq_ok : ∀ form t p, (∀ name, r.build form t p ≠ .error (.unknownTag name)) →
    r.build form t p = .ok (Markup.build form t p)
  /-- Looking at a name succeeds when building with it does. -/
  check_iff : ∀ form name p, (∃ kind, r.check name = .ok kind) ↔
    ∃ e, r.build form (.name name) p = .ok e
  /-- No success is lost or changed when the settings are relaxed. -/
  relax : ∀ r' : Renderer, r.settings.Relaxes r'.settings →
    (∀ form t p e, r.build form t p = .ok e → r'.build form t p = .ok e) ∧
    ∀ name kind, r.check name = .ok kind → r'.check name = .ok kind
  /-- Under strict settings no name that is built can end itself or mean markup. -/
  isTagName : r.settings.mode = .strict → ∀ form name p e,
    r.build form (.name name) p = .ok e →
    Vocabulary.isTagName name = true ∧ ∀ c ∈ name.toList, c ∉ Vocabulary.markupChars
  /-- A tree is built through it exactly if each of the names is, -/
  tree_iff : ∀ t : ElementTree, (∃ e, t.check r = .ok e) ↔
    ∀ name ∈ t.names, ∃ kind, r.check name = .ok kind
  /-- and then as it is built otherwise. -/
  tree_eq : ∀ (t : ElementTree) e, t.check r = .ok e → e = t.build

/-- **A renderer only filters,** whatever its settings are. -/
theorem filters (r : Renderer) : r.Filters where
  build_eq_error_iff := fun form t p name => by
    rw [build_eq_unknownTag_iff, refuses_iff, Settings.Admits, not_or]
    exact and_left_comm
  build_eq_ok := fun form t p hne => by
    rw [build_eq] at hne ⊢
    rw [pass] at hne ⊢
    cases hfind : t.name?.toList.find? r.refuses with
    | some name =>
      rw [hfind] at hne
      exact absurd rfl (hne name)
    | none => rfl
  check_iff := fun form name p => by
    rw [exists_check_iff]
    simp [build_eq_ok_iff, Tag.name?]
  relax := fun r' hrelax => by
    have hkept : ∀ name, r.refuses name = false → r'.refuses name = false := fun name h => by
      rw [← Bool.not_eq_true] at h ⊢
      exact fun h' => h (refuses_relax hrelax h')
    refine ⟨fun form t p e h => ?_, fun name kind h => ?_⟩
    · rw [build_eq_ok_iff] at h ⊢
      exact ⟨fun name hname => hkept name (h.1 name hname), h.2⟩
    · rw [check_eq_ok_iff] at h ⊢
      exact ⟨hkept name h.1, h.2⟩
  isTagName := fun hstrict form name p e h => by
    have hrefused : ¬r.refuses name = true := by
      rw [Bool.not_eq_true]
      exact ((r.build_eq_ok_iff form (.name name) p e).mp h).1 name rfl
    have hadmits : r.settings.Admits name :=
      not_not.mp fun hnot => hrefused ((r.refuses_iff name).mpr ⟨hstrict, hnot⟩)
    exact ⟨hadmits.isTagName, fun c hc =>
      Vocabulary.not_mem_markupChars hadmits.isTagName hc⟩
  tree_iff := fun t => by
    simp only [ElementTree.check_eq, pass_eq_ok_iff, exists_check_iff]
    exact ⟨fun ⟨_, h, _⟩ => h, fun h => ⟨_, h, rfl⟩⟩
  tree_eq := fun t e h => by
    rw [ElementTree.check_eq, pass_eq_ok_iff] at h
    exact h.2.symm

end Renderer
end Markup
