/-
# What a declared record becomes

Two passes over the fields of a record as it is declared make the statements that turn its
values into props (`Record.statements`). Each reads the marks on a field for itself, and both
read the same: that a field is left out or gives the content if a mark says so, and the key
of the last mark that gives one (`Heading.marking_eq_ok_iff`). So the first pass inserts the
fields that are neither left out nor give the content (`insertions_eq_ok_iff`), the second
assigns the one that gives the content and is not left out (`contentField_eq_ok_iff`), and no
field is taken by both. Since a key that is the reserved one is refused, what is inserted
stays among the attributes, and the statements make the props of a record with the flags that
the marks say (`build_made`).

Key definitions: `Heading.said`, `Record.Accepted`, `Record.fields`, `Record.Represents`.
Key theorems: `Heading.marking_eq_ok_iff`, `Record.statements_eq_ok_iff`,
`Record.build_made`, `Keyed.keys_ofPairs`, `Record.represents_build`.
-/
import Markup.Record.Declared
import Markup.Proofs.Routes

namespace Markup

/-! ### Keys that are written again -/

namespace Keyed

/-- The keys of written pairs stand in the order in which each is first written. -/
theorem keys_ofPairs {α : Type} (pairs : List (String × α)) :
    keys (ofPairs pairs) = (pairs.map Prod.fst).eraseDups := by
  induction pairs using List.reverseRecOn with
  | nil => rfl
  | append_singleton pairs e ih =>
    obtain ⟨k, v⟩ := e
    rw [ofPairs_append, keys_insert, ih, List.map_append, List.eraseDups_append]
    generalize pairs.map Prod.fst = ks
    by_cases hk : k ∈ ks
    · simp [List.mem_eraseDups, List.removeAll, hk]
    · have hone : [k].eraseDups = [k] := by simp [List.eraseDups_cons]
      simp [List.mem_eraseDups, List.removeAll, hk, hone]

end Keyed

namespace Props

/-- Pairs under other keys than the reserved one become attributes, and content is not
touched. -/
theorem ofPairs_of_unreserved {pairs : List (String × AttributeValue)}
    (h : ∀ e ∈ pairs, e.1 ≠ childrenKey) : ofPairs pairs = ⟨Keyed.ofPairs pairs, none⟩ := by
  induction pairs using List.reverseRecOn with
  | nil => rfl
  | append_singleton pairs e ih =>
    rw [List.forall_mem_append, List.forall_mem_singleton] at h
    have hlast : ofPairs (pairs ++ [e]) = (ofPairs pairs).insert e.1 e.2 := by
      rw [ofPairs, List.foldl_append]
      rfl
    rw [hlast, ih h.1, insert, if_neg h.2, Keyed.ofPairs_append]

end Props

namespace Record

/-! ### What marks say -/

/-- The key that a mark gives. -/
def Mark.key? : Mark → Option String
  | .rename key => some key
  | _ => none

/-- What marks say behind what was said before: a field is left out or gives the content if
one of them says so, and the last key counts. -/
def Marking.behind (m : Marking) (marks : List Mark) : Marking where
  skip := m.skip || marks.contains .skip
  children := m.children || marks.contains .children
  rename := (marks.filterMap Mark.key?).getLast?.or m.rename

theorem behind_cons (m : Marking) (mark : Mark) (marks : List Mark) :
    m.behind (mark :: marks) = (m.behind [mark]).behind marks := by
  cases mark with
  | skip | children | unknown word => simp [Marking.behind, Mark.key?]
  | rename key =>
    cases h : (marks.filterMap Mark.key?).getLast? <;>
      simp [Marking.behind, Mark.key?, List.getLast?_cons, h]

theorem add_eq_ok_iff (field : String) {m m' : Marking} (mark : Mark) :
    m.add field mark = .ok m' ↔ (∀ word, mark ≠ .unknown word) ∧ m' = m.behind [mark] := by
  cases mark with
  | skip | children | rename key =>
    simp [Marking.add, Marking.behind, Mark.key?, eq_comm (a := m')]
  | unknown word => simp [Marking.add]

/-- Reading marks one by one gives what they say together, if all of them are known. -/
theorem foldlM_add_eq_ok_iff (field : String) (marks : List Mark) {m m' : Marking} :
    marks.foldlM (Marking.add field) m = .ok m' ↔
      (∀ word, .unknown word ∉ marks) ∧ m' = m.behind marks := by
  induction marks generalizing m with
  | nil =>
    have hbehind : m.behind [] = m := by simp [Marking.behind]
    rw [hbehind, List.foldlM_nil]
    exact ⟨fun h => ⟨fun _ => List.not_mem_nil, (Except.ok.inj h).symm⟩, fun h => by rw [h.2]; rfl⟩
  | cons mark marks ih =>
    rw [List.foldlM_cons, bind_eq_ok_iff, behind_cons]
    simp only [add_eq_ok_iff, ih, List.mem_cons, not_or, forall_and]
    refine ⟨?_, fun ⟨⟨hmark, hmarks⟩, h⟩ =>
      ⟨_, ⟨fun word he => hmark word he.symm, rfl⟩, hmarks, h⟩⟩
    rintro ⟨_, ⟨hmark, rfl⟩, hmarks, h⟩
    exact ⟨⟨fun word he => hmark word he.symm, hmarks⟩, h⟩

namespace Heading

/-- Whether every mark on a field is known. -/
def Known (h : Heading) : Prop := ∀ word, .unknown word ∉ h.marks

/-- What the marks on a field say together. -/
def said (h : Heading) : Marking := Marking.behind {} h.marks

/-- **Both passes read the same marks,** however often they are read. -/
theorem marking_eq_ok_iff (h : Heading) {m : Marking} :
    h.marking = .ok m ↔ h.Known ∧ m = h.said :=
  foldlM_add_eq_ok_iff h.name h.marks

/-- Whether a field becomes an attribute. -/
def isAttribute (h : Heading) : Bool := !h.said.skip && !h.said.children

/-- Whether a field gives the content. -/
def isContent (h : Heading) : Bool := h.said.children && !h.said.skip

end Heading

/-! ### The two passes -/

/-- The first pass inserts the attributes in their order, if none has the reserved key. -/
theorem insertions_eq_ok_iff : ∀ (headings : List Heading) {ss : List Statement},
    insertions headings = .ok ss ↔ (∀ h ∈ headings, h.Known) ∧
      (∀ h ∈ headings, h.isAttribute = true → h.key h.said ≠ childrenKey) ∧
      ss = (headings.filter Heading.isAttribute).map fun h => .insert (h.key h.said) h.name
  | [], ss => by
    refine ⟨fun h => ⟨nofun, nofun, (Except.ok.inj h).symm⟩, fun h => ?_⟩
    rw [h.2.2]
    rfl
  | h :: rest, ss => by
    have hboth : h.isAttribute = !(h.said.skip || h.said.children) := (Bool.not_or _ _).symm
    rw [insertions, bind_eq_ok_iff]
    simp only [Heading.marking_eq_ok_iff, and_assoc, exists_and_left, exists_eq_left,
      List.forall_mem_cons, List.filter_cons]
    refine and_congr_right fun _ => ?_
    cases hattr : h.said.skip || h.said.children with
    | true =>
      rw [hattr] at hboth
      simp [hboth, insertions_eq_ok_iff rest]
    | false =>
      rw [hattr] at hboth
      by_cases hkey : h.key h.said = childrenKey
      · simp [hboth, hkey]
      · simp only [hboth, hkey, bind_eq_ok_iff, insertions_eq_ok_iff rest, Bool.false_eq_true,
          if_false, if_true, Bool.not_false, Except.ok.injEq, ne_eq, not_false_eq_true,
          forall_const, true_and, List.map_cons]
        refine ⟨?_, fun ⟨known, keys, h⟩ => ⟨_, ⟨known, keys, rfl⟩, h.symm⟩⟩
        rintro ⟨_, ⟨known, keys, rfl⟩, h⟩
        exact ⟨known, keys, h.symm⟩

/-- The second pass finds the field that gives the content, if there is no second one. -/
theorem contentField_eq_ok_iff : ∀ (headings : List Heading) {found field : Option String},
    contentField found headings = .ok field ↔ (∀ h ∈ headings, h.Known) ∧
      (found.toList ++ (headings.filter Heading.isContent).map Heading.name).length ≤ 1 ∧
      field = (found.toList ++ (headings.filter Heading.isContent).map Heading.name).head?
  | [], found, field => by
    rw [contentField, Except.ok.injEq, eq_comm]
    cases found <;> simp
  | h :: rest, found, field => by
    rw [contentField, bind_eq_ok_iff]
    simp only [Heading.marking_eq_ok_iff, and_assoc, exists_and_left, exists_eq_left,
      List.forall_mem_cons, List.filter_cons]
    refine and_congr_right fun _ => ?_
    have hboth : h.isContent = !(!h.said.children || h.said.skip) := by
      rw [Heading.isContent, Bool.not_or, Bool.not_not]
    cases hcontent : !h.said.children || h.said.skip with
    | true =>
      rw [hcontent] at hboth
      simp [hboth, contentField_eq_ok_iff rest]
    | false =>
      rw [hcontent] at hboth
      cases found with
      | some name => simp [hboth]
      | none => simp [hboth, contentField_eq_ok_iff rest]

/-- When a record as it is declared is not refused. -/
structure Accepted (headings : List Heading) : Prop where
  known : ∀ h ∈ headings, h.Known
  unreserved : ∀ h ∈ headings, h.isAttribute = true → h.key h.said ≠ childrenKey
  single : (headings.filter Heading.isContent).length ≤ 1

/-- What the two passes make: each field has its part in one of them or in none. -/
def made (headings : List Heading) : List Statement :=
  ((headings.filter Heading.isAttribute).map fun h => .insert (h.key h.said) h.name) ++
    ((headings.find? Heading.isContent).toList.map fun h => .setChildren h.name)

/-- **A declaration is accepted or refused as a whole,** and what it makes does not depend on
the order in which the passes read the marks. -/
theorem statements_eq_ok_iff (headings : List Heading) {ss : List Statement} :
    statements headings = .ok ss ↔ Accepted headings ∧ ss = made headings := by
  have hcontent : ((headings.filter Heading.isContent).map Heading.name).head?
      = (headings.find? Heading.isContent).map Heading.name := by
    rw [List.head?_map, List.head?_filter]
  have hmade : made headings
      = ((headings.filter Heading.isAttribute).map fun h => .insert (h.key h.said) h.name) ++
        (((headings.find? Heading.isContent).map Heading.name).toList.map .setChildren) := by
    rw [made, Option.toList_map, List.map_map]
    rfl
  simp only [statements, bind_eq_ok_iff, insertions_eq_ok_iff, contentField_eq_ok_iff,
    Option.toList_none, List.nil_append, List.length_map, hcontent, Except.ok.injEq]
  refine ⟨?_, ?_⟩
  · rintro ⟨_, ⟨known, unreserved, rfl⟩, _, ⟨-, single, rfl⟩, rfl⟩
    exact ⟨⟨known, unreserved, single⟩, hmade.symm⟩
  · rintro ⟨⟨known, unreserved, single⟩, rfl⟩
    exact ⟨_, ⟨known, unreserved, rfl⟩, _, ⟨known, single, rfl⟩, hmade.symm⟩

/-! ### Values of a record -/

variable (values : String → FieldValue)

/-- A field with its value and with the flags that its marks say. -/
def Heading.field (h : Heading) : Field :=
  ⟨h.name, h.said.rename, h.said.skip, h.said.children, (values h.name).asAttribute,
    (values h.name).asContent⟩

/-- The fields of a record with their values. -/
def fields (headings : List Heading) : List Field := headings.map (Heading.field values)

theorem pairs_fields (headings : List Heading) : pairs (fields values headings)
    = (headings.filter Heading.isAttribute).map fun h =>
        (h.key h.said, (values h.name).asAttribute) := by
  rw [pairs, fields, List.filter_map, List.map_map]
  rfl

theorem find?_isContent_fields (headings : List Heading) :
    (fields values headings).find? Field.isContent
      = (headings.find? Heading.isContent).map (Heading.field values) := by
  rw [fields, List.find?_map]
  rfl

/-- **The statements make the props of the record** with the flags that its marks say. -/
theorem build_made (headings : List Heading) :
    build values (made headings) = toProps (fields values headings) := by
  have inserts : ((headings.filter Heading.isAttribute).map fun h =>
        Statement.insert (h.key h.said) h.name).foldl (Statement.apply values) Props.empty
      = Props.ofPairs (pairs (fields values headings)) := by
    rw [pairs_fields, Props.ofPairs, List.foldl_map, List.foldl_map]
    rfl
  rw [toProps_eq, find?_isContent_fields, build, made, List.foldl_append, inserts]
  cases headings.find? Heading.isContent with
  | none => rfl
  | some h => rfl

/-- A field that is left out has no part in the props. -/
theorem toProps_filter_skip (fs : List Field) :
    toProps (fs.filter fun f => !f.skip) = toProps fs := by
  have attributes : (fs.filter fun f => !f.skip).filter Field.isAttribute
      = fs.filter Field.isAttribute := by
    rw [List.filter_filter]
    refine List.filter_congr fun f _ => ?_
    cases hskip : f.skip <;> simp [Field.isAttribute, hskip]
  have content : (fs.filter fun f => !f.skip).find? Field.isContent
      = fs.find? Field.isContent := by
    rw [List.find?_filter]
    congr 1
    funext f
    simp [Field.isContent]
  simp only [toProps, attributes, content]

theorem forall_pairs_ne {headings : List Heading} (h : Accepted headings) :
    ∀ e ∈ pairs (fields values headings), e.1 ≠ childrenKey := by
  intro e he
  rw [pairs_fields] at he
  obtain ⟨head, hhead, rfl⟩ := List.mem_map.mp he
  obtain ⟨hmem, hattr⟩ := List.mem_filter.mp hhead
  exact h.unreserved head hmem hattr

/-- Where one field at most gives the content, it is the one that is found. -/
theorem find?_isContent_eq {headings : List Heading} (h : Accepted headings) {head : Heading}
    (hmem : head ∈ headings) (hcontent : head.isContent = true) :
    headings.find? Heading.isContent = some head := by
  have hfilter : head ∈ headings.filter Heading.isContent := List.mem_filter.mpr ⟨hmem, hcontent⟩
  obtain ⟨other, hone⟩ := List.length_eq_one_iff.mp
    (Nat.le_antisymm h.single (List.length_pos_of_mem hfilter))
  rw [hone, List.mem_singleton] at hfilter
  rw [← List.head?_filter, hone, hfilter]
  rfl

/-- When props hold what a value of a declared record says. -/
structure Represents (headings : List Heading) (p : Props) : Prop where
  /-- They are the props of its fields with the flags that the marks say. -/
  props_eq : p = toProps (fields values headings)
  /-- The attributes are those of the pairs that the fields are which are neither left out nor
  give the content, inserted in their order: -/
  attributes_eq : p.attributes = (Props.ofPairs
    ((headings.filter fun h => !h.said.skip && !h.said.children).map fun h =>
      (h.said.rename.getD (String.ofList (dropRawMarks h.name.toList)),
        (values h.name).asAttribute))).attributes
  /-- a repeated key has its first place -/
  keys_eq : Keyed.keys p.attributes
    = ((headings.filter Heading.isAttribute).map fun h => h.key h.said).eraseDups
  /-- and its last value. -/
  get?_eq : ∀ key, p.get? key = Keyed.last? (pairs (fields values headings)) key
  /-- The content is the one field that gives it and is not left out, -/
  children_eq : ∀ h ∈ headings, h.said.children = true → h.said.skip = false →
    p.children = some (values h.name).asContent
  /-- and absent if there is none. -/
  children_eq_none : (∀ h ∈ headings, h.said.children = true → h.said.skip = true) →
    p.children = none
  /-- No attribute becomes content. -/
  unreserved : childrenKey ∉ Keyed.keys p.attributes ∧
    (Props.ofPairs (pairs (fields values headings))).children = none

theorem represents_made {headings : List Heading} (h : Accepted headings) :
    Represents values headings (build values (made headings)) := by
  have hpairs := Props.ofPairs_of_unreserved (forall_pairs_ne values h)
  have hprops := toProps_eq (fields values headings)
  rw [find?_isContent_fields, hpairs] at hprops
  rw [build_made]
  have hattributes : (toProps (fields values headings)).attributes
      = Keyed.ofPairs (pairs (fields values headings)) := by
    rw [hprops]
    cases headings.find? Heading.isContent <;> rfl
  have hchildren : (toProps (fields values headings)).children
      = (headings.find? Heading.isContent).map fun head => (values head.name).asContent := by
    rw [hprops]
    cases headings.find? Heading.isContent <;> rfl
  have hkeys : Keyed.keys (toProps (fields values headings)).attributes
      = ((headings.filter Heading.isAttribute).map fun h => h.key h.said).eraseDups := by
    rw [hattributes, Keyed.keys_ofPairs, pairs_fields, List.map_map]
    rfl
  exact
    { props_eq := rfl
      attributes_eq := by
        have hcollected : (Props.ofPairs (pairs (fields values headings))).attributes
            = Keyed.ofPairs (pairs (fields values headings)) := congrArg Props.attributes hpairs
        rw [hattributes, ← hcollected, pairs_fields]
        rfl
      keys_eq := hkeys
      get?_eq := fun key => by rw [Props.get?, hattributes, Keyed.find?_ofPairs]
      children_eq := fun head hmem hgives hkept => by
        have hcontent : head.isContent = true := by rw [Heading.isContent, hgives, hkept]; rfl
        rw [hchildren, find?_isContent_eq h hmem hcontent]
        rfl
      children_eq_none := fun hnone => by
        have hfind : headings.find? Heading.isContent = none := by
          rw [List.find?_eq_none]
          intro head hmem hcontent
          rw [Heading.isContent, Bool.and_eq_true] at hcontent
          rw [hnone head hmem hcontent.1] at hcontent
          exact Bool.false_ne_true hcontent.2
        rw [hchildren, hfind]
        rfl
      unreserved := by
        refine ⟨?_, congrArg Props.children hpairs⟩
        rw [hkeys, List.mem_eraseDups, List.mem_map]
        rintro ⟨head, hhead, hkey⟩
        obtain ⟨hmem, hattr⟩ := List.mem_filter.mp hhead
        exact h.unreserved head hmem hattr hkey }

/-- **A declared record becomes what its fields say.** If a declaration is not refused, the
statements that it makes turn any values of the fields into props that represent them. Two
records that differ in fields that are left out have the same props. -/
theorem represents_build {headings : List Heading} {ss : List Statement}
    (h : statements headings = .ok ss) :
    Represents values headings (build values ss) ∧
    ∀ (headings' : List Heading) (ss' : List Statement) (values' : String → FieldValue),
      statements headings' = .ok ss' →
      (fields values' headings').filter (fun f => !f.skip)
        = (fields values headings).filter (fun f => !f.skip) →
      build values' ss' = build values ss := by
  obtain ⟨accepted, rfl⟩ := (statements_eq_ok_iff headings).mp h
  refine ⟨represents_made values accepted, fun headings' ss' values' h' hkept => ?_⟩
  obtain ⟨-, rfl⟩ := (statements_eq_ok_iff headings').mp h'
  rw [build_made, build_made, ← toProps_filter_skip, hkept, toProps_filter_skip]

/-- Two fields under one key, a reserved name with its raw mark, a field that gives the content
and one that would but is left out. -/
theorem represents_build_repeated :
    ∃ ss, statements [⟨"body", [.children]⟩, ⟨"z", []⟩, ⟨"r#type", []⟩,
        ⟨"again", [.rename "y", .rename "z"]⟩, ⟨"other", [.children, .skip]⟩] = .ok ss ∧
      build (fun name => ⟨.text name, .text name⟩) ss
        = ⟨[("z", .text "again"), ("type", .text "r#type")], some (.text "body")⟩ ∧
      Represents (fun name => ⟨.text name, .text name⟩)
        [⟨"body", [.children]⟩, ⟨"z", []⟩, ⟨"r#type", []⟩,
          ⟨"again", [.rename "y", .rename "z"]⟩, ⟨"other", [.children, .skip]⟩]
        (build (fun name => ⟨.text name, .text name⟩) ss) :=
  ⟨_, rfl, rfl, (represents_build _ rfl).1⟩

end Record
end Markup
