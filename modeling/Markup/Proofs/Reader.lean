/-
# Reading markup

A reader of markup that knows nothing of how it was written. In text it reads up
to the next `<`. In an opening tag it reads the name, then keys with a space in
front of each, with or without a value between single quotes, up to `>`. A closing
tag has to have the name of the element that is open; the void elements have none.
Texts that stand next to each other are one text for the reader.

The reader goes over the characters one by one (`Reader.step`), so what it does on
a text is what it does on the parts of it, one after the other. The lemmas say for
every part of markup what the reader has found behind it: rows of characters first
(`run_row`), then attributes, opening tags and closing tags.

Key definitions: `Item`, `Level`, `Reader.State`, `Reader.step`, `Reader.read`.
Key theorems: `Reader.run_text`, `Reader.run_form`, `Reader.run_opening`,
`Reader.run_closing`.
-/
import Markup.Build

namespace Markup

/-! ### What is read -/

/-- What stands between tags: a text, or an element with its attributes, each with or
without a value, and with the items inside. -/
inductive Item where
  | text (s : String)
  | element (name : String) (attributes : List (String × Option String)) (items : List Item)

/-- The items next to each other, as far as they are read. -/
structure Level where
  items : List Item
  /-- The text behind them, which may go on. -/
  run : List Char

namespace Level

/-- Nothing. -/
def empty : Level := ⟨[], []⟩

/-- The items and the text behind them. -/
def all (l : Level) : List Item :=
  if l.run = [] then l.items else l.items ++ [.text (String.ofList l.run)]

/-- More text. -/
def write (l : Level) (cs : List Char) : Level := { l with run := l.run ++ cs }

/-- One more item. -/
def add (l : Level) (item : Item) : Level := ⟨l.all ++ [item], []⟩

theorem write_append (l : Level) (cs ds : List Char) :
    l.write (cs ++ ds) = (l.write cs).write ds := by
  simp [write]

theorem write_nil (l : Level) : l.write [] = l := by
  simp [write]

end Level

/-! ### The reader -/

namespace Reader

/-- Whether a character may stand in a name. -/
def isNameChar (c : Char) : Bool := c.isAlphanum || c = '-'

/-- Whether a text is a name: a letter, then letters, digits and hyphens. -/
def isName (s : String) : Bool :=
  match s.toList with
  | [] => false
  | c :: cs => c.isAlpha && cs.all isNameChar

/-- Whether a character may stand in a key. -/
def isKeyChar (c : Char) : Bool :=
  !(c.isWhitespace || ['=', '\'', '"', '<', '>', '/'].contains c)

/-- Whether a text is a key. -/
def isKey (s : String) : Bool := s ≠ "" && s.toList.all isKeyChar

/-- An element that is open, and the items around it. -/
structure Opened where
  name : String
  attributes : List (String × Option String)
  outer : Level

/-- Where the reader stands. -/
inductive Mode where
  | text
  /-- Behind a `<`. -/
  | angle
  /-- In the name of an opening tag. -/
  | name (cs : List Char)
  /-- In a key. -/
  | key (name : String) (attributes : List (String × Option String)) (cs : List Char)
  /-- Behind a key and its `=`. -/
  | equals (name : String) (attributes : List (String × Option String)) (key : String)
  /-- In a value. -/
  | value (name : String) (attributes : List (String × Option String)) (key : String)
      (cs : List Char)
  /-- Behind a value. -/
  | valued (name : String) (attributes : List (String × Option String))
  /-- In the name of a closing tag. -/
  | closing (cs : List Char)

/-- What the reader has found, and where it stands. -/
structure State where
  level : Level
  /-- The elements that are open, the innermost first. -/
  opened : List Opened
  mode : Mode

/-- Behind an opening tag. -/
def enter (l : Level) (o : List Opened) (name : String)
    (attributes : List (String × Option String)) : State :=
  if Vocabulary.isVoid name then ⟨l.add (.element name attributes []), o, .text⟩
  else ⟨.empty, ⟨name, attributes, l⟩ :: o, .text⟩

/-- Behind a closing tag, if an element of its name is open. -/
def leave (l : Level) (name : String) : List Opened → Option State
  | [] => none
  | e :: o =>
    if e.name = name then some ⟨e.outer.add (.element e.name e.attributes l.all), o, .text⟩ else none

/-- In an opening tag behind its name and some attributes: the end of the tag, or one
more key. -/
def goOn (l : Level) (o : List Opened) (name : String)
    (attributes : List (String × Option String)) (c : Char) : Option State :=
  if c = '>' then some (enter l o name attributes)
  else if c = ' ' then some ⟨l, o, .key name attributes []⟩
  else none

/-- One character; `none` if it may not stand there. -/
def step : State → Char → Option State
  | ⟨l, o, .text⟩, c => if c = '<' then some ⟨l, o, .angle⟩ else some ⟨l.write [c], o, .text⟩
  | ⟨l, o, .angle⟩, c =>
    if c = '/' then some ⟨l, o, .closing []⟩
    else if c.isAlpha then some ⟨l, o, .name [c]⟩
    else none
  | ⟨l, o, .name cs⟩, c =>
    if isNameChar c then some ⟨l, o, .name (cs ++ [c])⟩ else goOn l o (String.ofList cs) [] c
  | ⟨l, o, .key name attributes cs⟩, c =>
    if isKeyChar c then some ⟨l, o, .key name attributes (cs ++ [c])⟩
    else if cs = [] then none
    else if c = '=' then some ⟨l, o, .equals name attributes (String.ofList cs)⟩
    else goOn l o name (attributes ++ [(String.ofList cs, none)]) c
  | ⟨l, o, .equals name attributes key⟩, c =>
    if c = '\'' then some ⟨l, o, .value name attributes key []⟩ else none
  | ⟨l, o, .value name attributes key cs⟩, c =>
    if c = '\'' then some ⟨l, o, .valued name (attributes ++ [(key, some (String.ofList cs))])⟩
    else some ⟨l, o, .value name attributes key (cs ++ [c])⟩
  | ⟨l, o, .valued name attributes⟩, c => goOn l o name attributes c
  | ⟨l, o, .closing cs⟩, c =>
    if c = '>' then leave l (String.ofList cs) o
    else if isNameChar c then some ⟨l, o, .closing (cs ++ [c])⟩
    else none

/-- A row of characters. -/
def run (s : State) : List Char → Option State
  | [] => some s
  | c :: cs => (step s c).bind fun s' => run s' cs

/-- What was found, if no tag is begun and no element is open. -/
def finish : State → Option (List Item)
  | ⟨l, [], .text⟩ => some l.all
  | _ => none

/-- The items of a text of markup. -/
def read (s : String) : Option (List Item) := (run ⟨.empty, [], .text⟩ s.toList).bind finish

/-! ### Rows of characters -/

theorem run_append (s : State) (cs ds : List Char) :
    run s (cs ++ ds) = (run s cs).bind fun s' => run s' ds := by
  induction cs generalizing s with
  | nil => rfl
  | cons c cs ih =>
    rw [List.cons_append, run, run]
    cases step s c with
    | none => rfl
    | some s' => exact ih s'

/-- Where one part ends, the next one begins. -/
theorem run_append_of {s s' s'' : State} {cs ds : List Char} (h : run s cs = some s')
    (h' : run s' ds = some s'') : run s (cs ++ ds) = some s'' := by
  rw [run_append, h, Option.bind_some, h']

theorem run_singleton (s : State) (c : Char) : run s [c] = step s c := by
  rw [run]
  cases step s c <;> rfl

/-- Characters that only make a row longer. -/
theorem run_row (f : List Char → State) : ∀ {cs : List Char},
    (∀ c ∈ cs, ∀ ds, step (f ds) c = some (f (ds ++ [c]))) →
    ∀ ds, run (f ds) cs = some (f (ds ++ cs))
  | [], _, ds => by rw [List.append_nil]; rfl
  | c :: cs, h, ds => by
    have hc := h c List.mem_cons_self ds
    have ih := run_row f (fun d hd => h d (List.mem_cons_of_mem c hd)) (ds ++ [c])
    rw [run, hc, Option.bind_some, ih, List.append_assoc]
    rfl

variable (l : Level) (o : List Opened)

/-- **Text.** Without a `<` it is read as text. -/
theorem run_text {cs : List Char} (h : '<' ∉ cs) :
    run ⟨l, o, .text⟩ cs = some ⟨l.write cs, o, .text⟩ := by
  have hstep : ∀ c ∈ cs, ∀ ds,
      step ⟨l.write ds, o, .text⟩ c = some ⟨l.write (ds ++ [c]), o, .text⟩ := by
    intro c hc ds
    have hne : c ≠ '<' := fun e => h (e ▸ hc)
    rw [step, if_neg hne, Level.write_append]
  have hrow := run_row (fun ds => ⟨l.write ds, o, .text⟩) hstep []
  rw [Level.write_nil, List.nil_append] at hrow
  exact hrow

/-! ### Attributes -/

/-- Behind the name and some attributes of an opening tag. -/
def InTag (s : State) (name : String) (attributes : List (String × Option String)) : Prop :=
  ∀ c, c = ' ' ∨ c = '>' → step s c = goOn l o name attributes c

theorem isKey_iff (s : String) :
    isKey s = true ↔ s.toList ≠ [] ∧ ∀ c ∈ s.toList, isKeyChar c = true := by
  simp [isKey]

variable {l o} {s : State} {name : String} {attributes : List (String × Option String)}

/-- A key is read up to its end. -/
theorem run_key (h : InTag l o s name attributes) {key : String} (hkey : isKey key = true) :
    run s (' ' :: key.toList) = some ⟨l, o, .key name attributes key.toList⟩ := by
  obtain ⟨-, hchars⟩ := (isKey_iff key).mp hkey
  have hstep : ∀ c ∈ key.toList, ∀ ds, step ⟨l, o, .key name attributes ds⟩ c
      = some ⟨l, o, .key name attributes (ds ++ [c])⟩ := by
    intro c hc ds
    rw [step, if_pos (hchars c hc)]
  have hspace : step s ' ' = some ⟨l, o, .key name attributes []⟩ := h ' ' (Or.inl rfl)
  rw [run, hspace]
  exact run_row _ hstep []

/-- A key without a value is an attribute of its own. -/
theorem inTag_key {key : String} (hkey : isKey key = true) :
    InTag l o ⟨l, o, .key name attributes key.toList⟩ name (attributes ++ [(key, none)]) := by
  obtain ⟨hne, -⟩ := (isKey_iff key).mp hkey
  rintro c (rfl | rfl)
  · rw [step, if_neg (by decide), if_neg hne, if_neg (by decide), String.ofList_toList]
  · rw [step, if_neg (by decide), if_neg hne, if_neg (by decide), String.ofList_toList]

/-- A value is read up to its quote. -/
theorem run_value {key : String} (hkey : isKey key = true) {value : String} (h : '\'' ∉ value.toList) :
    run ⟨l, o, .key name attributes key.toList⟩ ('=' :: '\'' :: (value.toList ++ ['\'']))
      = some ⟨l, o, .valued name (attributes ++ [(key, some value)])⟩ := by
  obtain ⟨hne, -⟩ := (isKey_iff key).mp hkey
  have hstep : ∀ c ∈ value.toList, ∀ ds, step ⟨l, o, .value name attributes key ds⟩ c
      = some ⟨l, o, .value name attributes key (ds ++ [c])⟩ := by
    intro c hc ds
    have hquote : c ≠ '\'' := fun e => h (e ▸ hc)
    rw [step, if_neg hquote]
  have hequals : step ⟨l, o, .key name attributes key.toList⟩ '='
      = some ⟨l, o, .equals name attributes key⟩ := by
    rw [step, if_neg (by decide), if_neg hne, if_pos rfl, String.ofList_toList]
  have hopen : step ⟨l, o, .equals name attributes key⟩ '\''
      = some ⟨l, o, .value name attributes key []⟩ := by
    rw [step, if_pos rfl]
  have hclose : run ⟨l, o, .value name attributes key value.toList⟩ ['\'']
      = some ⟨l, o, .valued name (attributes ++ [(key, some value)])⟩ := by
    rw [run_singleton, step, if_pos rfl, String.ofList_toList]
  rw [run, hequals, Option.bind_some, run, hopen, Option.bind_some]
  exact run_append_of (run_row _ hstep []) hclose

end Reader

/-- What a reader is to find of a form. -/
def Form.seen (key : String) : Form → List (String × Option String)
  | .omitted => []
  | .bare => [(key, none)]
  | .quoted value => [(key, some value)]

/-- A form that does not end its own value. -/
def Form.Contained : Form → Prop
  | .quoted value => '\'' ∉ value.toList
  | .omitted | .bare => True

namespace Reader

variable {l : Level} {o : List Opened} {name : String}

/-- **An attribute.** It is read as its key with its value, or not at all if it is
omitted. -/
theorem run_form {s : State} {attributes : List (String × Option String)}
    (h : InTag l o s name attributes) {key : String} (hkey : isKey key = true) :
    ∀ {form : Form}, form.Contained → ∃ s', run s (form.text key).toList = some s' ∧
      InTag l o s' name (attributes ++ form.seen key)
  | .omitted, _ => ⟨s, rfl, by rw [Form.seen, List.append_nil]; exact h⟩
  | .bare, _ => by
    refine ⟨_, ?_, inTag_key hkey⟩
    rw [Form.text, String.toList_append]
    exact run_key h hkey
  | .quoted value, hvalue => by
    refine ⟨⟨l, o, .valued name (attributes ++ [(key, some value)])⟩, ?_, fun c _ => rfl⟩
    have hchars : (Form.text key (.quoted value)).toList
        = (' ' :: key.toList) ++ '=' :: '\'' :: (value.toList ++ ['\'']) := by
      simp [Form.text]
    rw [hchars]
    exact run_append_of (run_key h hkey) (run_value hkey hvalue)

/-- What a reader is to find of attributes. -/
def seen (attributes : List (String × AttributeValue)) : List (String × Option String) :=
  attributes.flatMap fun (key, v) => (v.form key).seen key

/-- Attributes one behind the other are read in their order. -/
theorem run_serialize : ∀ (attributes : List (String × AttributeValue)) {s : State}
    {before : List (String × Option String)}, InTag l o s name before →
    (∀ a ∈ attributes, isKey a.1 = true ∧ (a.2.form a.1).Contained) →
    ∃ s', run s (Attribute.serialize attributes).toList = some s' ∧
      InTag l o s' name (before ++ seen attributes)
  | [], s, before, h, _ => ⟨s, rfl, by rw [seen, List.flatMap_nil, List.append_nil]; exact h⟩
  | (key, v) :: rest, s, before, h, hall => by
    obtain ⟨hkey, hform⟩ := hall (key, v) List.mem_cons_self
    obtain ⟨s', hs', hin⟩ := run_form h hkey hform
    obtain ⟨s'', hs'', hin'⟩ := run_serialize rest hin fun a ha => hall a (List.mem_cons_of_mem _ ha)
    refine ⟨s'', ?_, ?_⟩
    · rw [Attribute.serialize_cons, String.toList_append]
      exact run_append_of hs' hs''
    · rw [seen, List.flatMap_cons, ← List.append_assoc]
      exact hin'

/-! ### Tags -/

theorem isName_chars {s : String} (h : isName s = true) :
    ∃ c cs, s.toList = c :: cs ∧ c.isAlpha = true ∧ ∀ d ∈ cs, isNameChar d = true := by
  unfold isName at h
  cases hs : s.toList with
  | nil =>
    rw [hs] at h
    cases h
  | cons c cs =>
    rw [hs] at h
    simp only [Bool.and_eq_true, List.all_eq_true] at h
    exact ⟨c, cs, rfl, h.1, h.2⟩

theorem isNameChar_of_isAlpha {c : Char} (h : c.isAlpha = true) : isNameChar c = true := by
  simp [isNameChar, Char.isAlphanum, h]

/-- A name is read up to its end. -/
theorem run_name {s : String} (h : isName s = true) :
    run ⟨l, o, .text⟩ ('<' :: s.toList) = some ⟨l, o, .name s.toList⟩ := by
  obtain ⟨c, cs, hs, hc, hcs⟩ := isName_chars h
  have hslash : c ≠ '/' := by
    rintro rfl
    exact absurd hc (by decide)
  have hstep : ∀ d ∈ cs, ∀ ds, step ⟨l, o, .name ds⟩ d = some ⟨l, o, .name (ds ++ [d])⟩ := by
    intro d hd ds
    rw [step, if_pos (hcs d hd)]
  have hopen : step ⟨l, o, .text⟩ '<' = some ⟨l, o, .angle⟩ := by rw [step, if_pos rfl]
  have hfirst : step ⟨l, o, .angle⟩ c = some ⟨l, o, .name [c]⟩ := by
    rw [step, if_neg hslash, if_pos hc]
  rw [hs, run, hopen, Option.bind_some, run, hfirst, Option.bind_some]
  exact run_row _ hstep [c]

/-- Behind the name of an opening tag. -/
theorem inTag_name (s : String) : InTag l o ⟨l, o, .name s.toList⟩ s [] := by
  rintro c (rfl | rfl)
  · rw [step, if_neg (by decide), String.ofList_toList]
  · rw [step, if_neg (by decide), String.ofList_toList]

/-- **An opening tag.** It is read with its name and its attributes. -/
theorem run_opening {p : Props} (hname : isName name = true)
    (h : ∀ a ∈ p.attributes, isKey a.1 = true ∧ (a.2.form a.1).Contained) :
    run ⟨l, o, .text⟩ (openingTag name p ++ ">").toList
      = some (enter l o name (seen p.attributes)) := by
  have hopen : run ⟨l, o, .text⟩ ('<' :: name.toList) = some ⟨l, o, .name name.toList⟩ :=
    run_name hname
  obtain ⟨s, hs, hin⟩ := run_serialize p.attributes (inTag_name (l := l) (o := o) name) h
  have hend : run s ['>'] = some (enter l o name (seen p.attributes)) := by
    rw [run_singleton, hin '>' (Or.inr rfl), List.nil_append, goOn, if_pos rfl]
  have hchars : (openingTag name p ++ ">").toList
      = ('<' :: name.toList) ++ ((Attribute.serialize p.attributes).toList ++ ['>']) := by
    simp [openingTag, Props.serialize]
  rw [hchars]
  exact run_append_of hopen (run_append_of hs hend)

/-- **A closing tag.** It ends the element of its name that is open. -/
theorem run_closing (inner outer : Level) (attributes : List (String × Option String))
    (hname : isName name = true) :
    run ⟨inner, ⟨name, attributes, outer⟩ :: o, .text⟩ (closingTag name).toList
      = some ⟨outer.add (.element name attributes inner.all), o, .text⟩ := by
  have hstep : ∀ c ∈ name.toList, ∀ ds,
      step ⟨inner, ⟨name, attributes, outer⟩ :: o, .closing ds⟩ c
        = some ⟨inner, ⟨name, attributes, outer⟩ :: o, .closing (ds ++ [c])⟩ := by
    obtain ⟨first, rest, hchars, hfirst, hrest⟩ := isName_chars hname
    intro c hc ds
    have hnamed : isNameChar c = true := by
      rw [hchars, List.mem_cons] at hc
      rcases hc with rfl | hc
      · exact isNameChar_of_isAlpha hfirst
      · exact hrest c hc
    have hangle : c ≠ '>' := by
      rintro rfl
      exact absurd hnamed (by decide)
    rw [step, if_neg hangle, if_pos hnamed]
  have hend : run ⟨inner, ⟨name, attributes, outer⟩ :: o, .closing name.toList⟩ ['>']
      = some ⟨outer.add (.element name attributes inner.all), o, .text⟩ := by
    rw [run_singleton, step, if_pos rfl, String.ofList_toList, leave, if_pos rfl]
  have hchars : (closingTag name).toList = '<' :: '/' :: (name.toList ++ ['>']) := by
    simp [closingTag]
  rw [hchars, run, step, if_pos rfl, Option.bind_some, run, step, if_pos rfl, Option.bind_some]
  exact run_append_of (run_row _ hstep []) hend

end Reader
end Markup
