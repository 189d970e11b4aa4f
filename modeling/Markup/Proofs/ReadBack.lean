/-
# Written trees read back

A tree of literal elements, fragments, lists and leaves, whose texts are escaped, is
written as one text of markup. The reader gets the tree back from it: the names, the
order and the nesting of the elements, their attributes with the quotes of the values
turned, and the text between the tags (`read_content`). So no text and no value can
change what is markup.

What the reader is to find is said by the tree alone (`Tree.onto`, `Tree.items`), with
the texts as they were before escaping. Content shows itself if the reader goes over
what is written for it as the tree says (`Content.Shows`); there is one lemma for every
kind of tree, and the tags around content keep it.

Key definitions: `Tree`, `Tree.content`, `Tree.items`, `Content.Shows`.
Key theorems: `Tree.shows_content`, `read_content`.
-/
import Markup.Proofs.Numerals
import Markup.Proofs.Reader

namespace Markup

/-! ### Trees -/

namespace AttributeValue

/-- The text that is written under `class` as it is, quotes included. -/
def raw? : AttributeValue → Option String
  | .classes names => some (classText names)
  | .other shown => some shown
  | .text _ | .number _ | .bool _ | .timestamp _ | .null => none

/-- What a reader is to find of a value under a key: nothing if it is absent, the bare
key or nothing for a truth value, else its text with the quotes turned. -/
def seen (key : String) (v : AttributeValue) : List (String × Option String) :=
  if key = childrenKey then []
  else match v with
    | .null => []
    | .bool b =>
      if key = classKey then [(key, some (boolText b))] else if b then [(key, none)] else []
    | v => [(key, v.plain?.map Text.neutralize)]

end AttributeValue

namespace Tree

/-- The name of a literal element. -/
structure Name where
  text : String
  isName : Reader.isName text = true

/-- A key with its value. -/
structure Entry where
  key : String
  value : AttributeValue
  isKey : Reader.isKey key = true
  /-- What is written under `class` as it is holds no single quote. -/
  contained : key = classKey → ∀ s, value.raw? = some s → '\'' ∉ s.toList

end Tree

/-- A tree of elements over leaves that are safe to write. -/
inductive Tree where
  | null
  /-- A text that is escaped. -/
  | escaped (s : String)
  | number (n : Number)
  | bool (b : Bool)
  | list (trees : List Tree)
  | fragment (form : ChildrenForm) (attributes : List (String × AttributeValue))
      (children : Option Tree)
  | element (form : ChildrenForm) (name : Tree.Name) (entries : List Tree.Entry)
      (children : Option Tree)

namespace Tree

/-- The attributes of an element. -/
def attributes (entries : List Entry) : List (String × AttributeValue) :=
  entries.map fun e => (e.key, e.value)

mutual

/-- The content that a tree is. -/
def content : Tree → Content
  | .null => .null
  | .escaped s => .escaped s
  | .number n => .number n
  | .bool b => .bool b
  | .list trees => .list (contents trees)
  | .fragment form attributes children =>
    .ofElement (build form .fragment ⟨attributes, content? children⟩)
  | .element form name entries children =>
    .ofElement (build form (.name name.text) ⟨attributes entries, content? children⟩)

/-- The contents that trees are. -/
def contents : List Tree → List Content
  | [] => []
  | t :: trees => content t :: contents trees

/-- The content that a tree is, if there is one. -/
def content? : Option Tree → Option Content
  | none => none
  | some t => some (content t)

end

mutual

/-- The items next to each other with those of a tree behind them. -/
def onto (l : Level) : Tree → Level
  | .null => l
  | .escaped s => l.write s.toList
  | .number n => l.write n.text.toList
  | .bool b => l.write (boolText b).toList
  | .list trees => ontoAll l trees
  | .fragment _ _ children => onto? l children
  | .element _ name entries children =>
    l.add (.element name.text (entries.flatMap fun e => e.value.seen e.key)
      (if Vocabulary.isVoid name.text then [] else (onto? .empty children).all))

/-- The items next to each other with those of trees behind them. -/
def ontoAll (l : Level) : List Tree → Level
  | [] => l
  | t :: trees => ontoAll (onto l t) trees

/-- The items next to each other with those of a tree behind them, if there is one. -/
def onto? (l : Level) : Option Tree → Level
  | none => l
  | some t => onto l t

end

/-- What a reader is to find of a tree, with the texts before they were escaped. -/
def items (t : Tree) : List Item := (onto .empty t).all

end Tree

/-! ### Escaped texts -/

namespace Item

mutual

/-- An item with its texts escaped. -/
def escape : Item → Item
  | .text s => .text (Text.escape s)
  | .element name attributes items => .element name attributes (escapeAll items)

/-- Items with their texts escaped. -/
def escapeAll : List Item → List Item
  | [] => []
  | item :: items => escape item :: escapeAll items

end

mutual

/-- An item with the entities in its texts read. -/
def decode : Item → Item
  | .text s => .text (String.ofList (Text.decode s.toList))
  | .element name attributes items => .element name attributes (decodeAll items)

/-- Items with the entities in their texts read. -/
def decodeAll : List Item → List Item
  | [] => []
  | item :: items => decode item :: decodeAll items

end

mutual

theorem decode_escape : ∀ item : Item, item.escape.decode = item
  | .text s => by
    rw [escape, decode, Text.escape_eq, String.toList_ofList, Text.decode_substitute,
      String.ofList_toList]
  | .element name attributes items => by rw [escape, decode, decodeAll_escapeAll items]

/-- Reading the entities undoes escaping. -/
theorem decodeAll_escapeAll : ∀ items : List Item, decodeAll (escapeAll items) = items
  | [] => rfl
  | item :: items => by rw [escapeAll, decodeAll, decode_escape item, decodeAll_escapeAll items]

end

theorem escapeAll_append : ∀ items more : List Item,
    escapeAll (items ++ more) = escapeAll items ++ escapeAll more
  | [], _ => rfl
  | item :: items, more => by
    rw [List.cons_append, escapeAll, escapeAll, escapeAll_append items more, List.cons_append]

end Item

namespace Level

/-- The items next to each other with their texts escaped. -/
def escape (l : Level) : Level := ⟨Item.escapeAll l.items, Text.substitute l.run⟩

theorem escape_write (l : Level) (cs : List Char) :
    (l.write cs).escape = l.escape.write (Text.substitute cs) := by
  rw [escape, write, Text.substitute_append]
  rfl

/-- Plain text stays as it is. -/
theorem escape_write_plain (l : Level) {cs : List Char} (h : Text.Plain cs) :
    (l.write cs).escape = l.escape.write cs := by
  rw [escape_write, Text.substitute_plain h]

theorem all_escape (l : Level) : l.escape.all = Item.escapeAll l.all := by
  unfold all
  by_cases h : l.run = []
  · have h' : l.escape.run = [] := (Text.substitute_eq_nil_iff l.run).mpr h
    rw [if_pos h, if_pos h']
    rfl
  · have h' : l.escape.run ≠ [] := fun e => h ((Text.substitute_eq_nil_iff l.run).mp e)
    rw [if_neg h, if_neg h', Item.escapeAll_append, Item.escapeAll, Item.escape, Text.escape_eq,
      String.toList_ofList]
    rfl

theorem escape_add (l : Level) (item : Item) : (l.add item).escape = l.escape.add item.escape := by
  rw [escape, add, add, all_escape, Item.escapeAll_append]
  rfl

end Level

/-! ### Attributes -/

namespace Text

theorem neutralize_of_not_mem {s : String} (h : '\'' ∉ s.toList) : neutralize s = s := by
  rw [neutralize, neutralize?, if_neg h]
  rfl

/-- The single quotes of a text are turned one by one. -/
theorem neutralize_eq (s : String) : neutralize s = String.ofList (s.toList.map neutralChar) := by
  by_cases h : '\'' ∈ s.toList
  · rw [neutralize, neutralize?, if_pos h, Option.getD_some]
  · have same : s.toList.map neutralChar = s.toList.map id :=
      List.map_congr_left fun c hc => if_neg fun e : c = '\'' => h (e ▸ hc)
    rw [neutralize_of_not_mem h, same, List.map_id, String.ofList_toList]

/-- A neutralized text ends no quoted value. -/
theorem quote_not_mem_neutralize (s : String) : '\'' ∉ (neutralize s).toList := by
  rw [neutralize_eq, String.toList_ofList]
  intro hmem
  obtain ⟨c, -, hc⟩ := List.mem_map.mp hmem
  unfold neutralChar at hc
  split at hc
  · exact absurd hc (by decide)
  · contradiction

end Text

/-- A form that a reader finds to be the value under the key. -/
def Form.Shows (form : Form) (key : String) (v : AttributeValue) : Prop :=
  form.Contained ∧ form.seen key = v.seen key

namespace AttributeValue

/-- A text without single quotes is found as it is. -/
theorem shows_quoted {key s : String} {v : AttributeValue} (hs : '\'' ∉ s.toList)
    (hv : v.seen key = [(key, some (Text.neutralize s))]) : (Form.quoted s).Shows key v := by
  refine ⟨hs, ?_⟩
  rw [hv, Text.neutralize_of_not_mem hs]
  rfl

/-- A neutralized text is found as such. -/
theorem shows_neutralized {key s : String} {v : AttributeValue}
    (hv : v.seen key = [(key, some (Text.neutralize s))]) :
    (Form.quoted (Text.neutralize s)).Shows key v :=
  ⟨Text.quote_not_mem_neutralize s, hv.symm⟩

theorem shows_classForm : ∀ {v : AttributeValue},
    (∀ s, v.raw? = some s → '\'' ∉ s.toList) → v.classForm.Shows classKey v
  | .null, _ => ⟨trivial, rfl⟩
  | .text _, _ => shows_neutralized rfl
  | .classes _, h => shows_quoted (h _ rfl) rfl
  | .other _, h => shows_quoted (h _ rfl) rfl
  | .number n, _ => shows_quoted (Text.quote_not_mem n.plain_text) rfl
  | .timestamp t, _ => shows_quoted (Text.quote_not_mem t.plain_millisText) rfl
  | .bool b, _ => ⟨Text.quote_not_mem (plain_boolText b), rfl⟩

theorem shows_plainForm {key : String} (hclass : key ≠ classKey) (hchildren : key ≠ childrenKey) :
    ∀ v : AttributeValue, v.plainForm.Shows key v := by
  have hseen : ∀ {v : AttributeValue} {s : String}, v.bool? = none → v.plain? = some s →
      v.seen key = [(key, some (Text.neutralize s))] := by
    intro v s hbool hplain
    unfold seen
    rw [if_neg hchildren]
    cases v <;> simp_all [plain?, bool?]
  intro v
  cases v with
  | null => exact ⟨trivial, by rw [seen, if_neg hchildren]; rfl⟩
  | text s => exact shows_neutralized (hseen rfl rfl)
  | classes names => exact shows_neutralized (hseen rfl rfl)
  | other shown => exact shows_neutralized (hseen rfl rfl)
  | number n => exact shows_quoted (Text.quote_not_mem n.plain_text) (hseen rfl rfl)
  | timestamp t => exact shows_quoted (Text.quote_not_mem t.plain_millisText) (hseen rfl rfl)
  | bool b =>
    have hb : (AttributeValue.bool b).seen key = if b then [(key, none)] else [] := by
      rw [seen, if_neg hchildren]
      exact if_neg hclass
    cases b with
    | true => exact ⟨trivial, hb.symm⟩
    | false => exact ⟨trivial, hb.symm⟩

/-- **A value is found under its key**, if what is written under `class` as it is holds no
single quote. -/
theorem shows_form {key : String} {v : AttributeValue}
    (h : key = classKey → ∀ s, v.raw? = some s → '\'' ∉ s.toList) : (v.form key).Shows key v := by
  unfold form
  by_cases hclass : key = classKey
  · rw [if_pos hclass, hclass]
    exact shows_classForm (h hclass)
  · rw [if_neg hclass]
    by_cases hchildren : key = childrenKey
    · rw [if_pos hchildren]
      refine ⟨trivial, ?_⟩
      unfold seen
      rw [if_pos hchildren]
      rfl
    · rw [if_neg hchildren]
      exact shows_plainForm hclass hchildren v

end AttributeValue

namespace Tree

/-- The attributes of an element can be read. -/
theorem readable_attributes (entries : List Entry) : ∀ a ∈ attributes entries,
    Reader.isKey a.1 = true ∧ (a.2.form a.1).Contained := by
  intro a ha
  obtain ⟨e, -, rfl⟩ := List.mem_map.mp ha
  exact ⟨e.isKey, (AttributeValue.shows_form e.contained).1⟩

theorem seen_attributes (entries : List Entry) :
    Reader.seen (attributes entries) = entries.flatMap fun e => e.value.seen e.key := by
  rw [Reader.seen, attributes, List.flatMap_map]
  exact List.flatMap_congr fun e _ => (AttributeValue.shows_form e.contained).2

end Tree

/-! ### Content -/

namespace Content

open Reader

/-- Over this text the reader adds to the items what `f` adds, with the texts escaped. -/
def Reads (text : String) (f : Level → Level) : Prop := ∀ l o,
  run ⟨l.escape, o, .text⟩ text.toList = some ⟨(f l).escape, o, .text⟩

theorem Reads.append {text more : String} {f g : Level → Level} (h : Reads text f)
    (h' : Reads more g) : Reads (text ++ more) (g ∘ f) := by
  intro l o
  rw [String.toList_append]
  exact run_append_of (h l o) (h' (f l) o)

/-- Content that a reader finds: nothing in it is deferred, and over its text the reader
adds what `f` adds. -/
def Shows (c : Content) (f : Level → Level) : Prop :=
  c.isPending = false ∧ Reads c.readyText f

/-- Contents that a reader finds one behind the other. -/
def ShowAll (cs : List Content) (f : Level → Level) : Prop :=
  anyPending cs = false ∧ Reads (readyTexts cs) f

theorem shows_null : Content.null.Shows id := ⟨rfl, fun _ _ => rfl⟩

/-- Escaped text is read as the text that it was. -/
theorem shows_escaped (s : String) : (Content.escaped s).Shows (·.write s.toList) := by
  refine ⟨rfl, fun l o => ?_⟩
  have hopen : '<' ∉ Text.substitute s.toList := (Text.inert_substitute s.toList).not_mem rfl
  show run _ (Text.escape s).toList = _
  rw [Text.escape_eq, String.toList_ofList, run_text _ _ hopen, Level.escape_write]

/-- Plain text is read as it is. -/
theorem shows_plain {c : Content} {s : String} (hc : c.isPending = false) (hs : c.readyText = s)
    (hplain : Text.Plain s.toList) : c.Shows (·.write s.toList) := by
  refine ⟨hc, fun l o => ?_⟩
  have hopen : '<' ∉ s.toList := fun h => absurd (hplain _ h) (by decide)
  rw [hs, run_text _ _ hopen, Level.escape_write_plain l hplain]

theorem showAll_nil : ShowAll [] id := ⟨rfl, fun _ _ => rfl⟩

theorem showAll_cons {c : Content} {cs : List Content} {f g : Level → Level} (h : c.Shows f)
    (hs : ShowAll cs g) : ShowAll (c :: cs) (g ∘ f) := by
  refine ⟨?_, h.2.append hs.2⟩
  rw [anyPending, h.1, hs.1]
  rfl

theorem shows_list {cs : List Content} {f : Level → Level} (h : ShowAll cs f) :
    (Content.list cs).Shows f := h

/-- A fragment is read as what is in it. -/
theorem shows_fragment {form : ChildrenForm} {p : Props} {f : Level → Level}
    (h : (p.children.getD .null).Shows f) : (ofElement (build form .fragment p)).Shows f := by
  rw [build, buildFragment_eq, resolve_of_ready h.1]
  exact ⟨rfl, h.2⟩

/-- **An element.** It is read as one item with what is in it, and without that if it is
void. -/
theorem shows_element {form : ChildrenForm} {name : Tree.Name} {entries : List Tree.Entry}
    {children : Option Content} {f : Level → Level} (h : (children.getD .null).Shows f) :
    (ofElement (build form (.name name.text) ⟨Tree.attributes entries, children⟩)).Shows fun l =>
      l.add (.element name.text (entries.flatMap fun e => e.value.seen e.key)
        (if Vocabulary.isVoid name.text then [] else (f .empty).all)) := by
  have hopening := fun (l : Level) o => run_opening (l := l) (o := o)
    (p := ⟨Tree.attributes entries, children⟩) name.isName (Tree.readable_attributes entries)
  simp only [Tree.seen_attributes, enter] at hopening
  rw [build, buildLiteral_eq, resolve_of_ready h.1]
  by_cases hvoid : Vocabulary.isVoid name.text = true
  · simp only [hvoid, if_true] at hopening ⊢
    refine ⟨rfl, fun l o => ?_⟩
    rw [Level.escape_add, Item.escape, Item.escapeAll]
    exact hopening l.escape o
  · simp only [hvoid] at hopening ⊢
    refine ⟨rfl, fun l o => ?_⟩
    have hinside := h.2 .empty
      (⟨name.text, entries.flatMap fun e => e.value.seen e.key, l.escape⟩ :: o)
    have hclosing := run_closing (o := o) (f .empty).escape l.escape
      (entries.flatMap fun e => e.value.seen e.key) name.isName
    rw [Level.all_escape] at hclosing
    rw [Level.escape_add, Item.escape]
    show run _ (openingTag name.text ⟨Tree.attributes entries, children⟩ ++ ">"
      ++ (children.getD .null).readyText ++ closingTag name.text).toList = _
    rw [String.toList_append, String.toList_append]
    exact run_append_of (run_append_of (hopening l.escape o) hinside) hclosing

end Content

/-! ### Reading back -/

namespace Tree

open Content

mutual

/-- **A tree shows itself.** What is written for a tree is read as the tree says. -/
theorem shows_content : ∀ t : Tree, t.content.Shows t.onto
  | .null => shows_null
  | .escaped s => shows_escaped s
  | .number n => shows_plain rfl rfl n.plain_text
  | .bool b => shows_plain rfl rfl (plain_boolText b)
  | .list trees => shows_list (showAll_contents trees)
  | .fragment _ _ children => shows_fragment (shows_content? children)
  | .element _ _ _ children => shows_element (shows_content? children)

theorem showAll_contents : ∀ trees : List Tree, ShowAll (contents trees) (ontoAll · trees)
  | [] => showAll_nil
  | t :: trees => showAll_cons (shows_content t) (showAll_contents trees)

theorem shows_content? : ∀ children : Option Tree,
    ((content? children).getD .null).Shows (onto? · children)
  | none => shows_null
  | some t => shows_content t

end

end Tree

/-- **Written trees read back.** A tree is written at once, and the reader finds in the
text the items of the tree with their texts escaped; when their entities are read, they
are the items of the tree. -/
theorem read_content (t : Tree) :
    ∃ s, t.content.resolve = .ready s ∧
      Reader.read s = some (Item.escapeAll t.items) ∧
      (Reader.read s).map Item.decodeAll = some t.items := by
  obtain ⟨hready, hrun⟩ := t.shows_content
  have hread : Reader.read t.content.readyText = some (Item.escapeAll t.items) := by
    have hstart : Reader.run ⟨.empty, [], .text⟩ t.content.readyText.toList
        = some ⟨(t.onto .empty).escape, [], .text⟩ := hrun .empty []
    rw [Reader.read, hstart, Option.bind_some, Reader.finish, Level.all_escape]
    rfl
  refine ⟨_, Content.resolve_of_ready hready, hread, ?_⟩
  rw [hread, Option.map_some, Item.decodeAll_escapeAll]

-- neither the value nor the text gets out of its place
example : (Tree.element .any ⟨"p", rfl⟩
      [⟨"title", .text "' x='", rfl, fun h => absurd h (by decide)⟩]
      (some (.escaped "</p>"))).content.resolve
    = .ready "<p title='\" x=\"'>&lt;/p></p>" := by
  rfl

end Markup
