/-
# Awaiting gives what is written at once

Settling puts the final text of every deferred leaf in its place and leaves
everything else as it is. Content that is settled holds nothing deferred, so it
takes the path that joins leaves at once, while the content it comes from may
take the path that collects segments and joins them when all are known; and a
literal element may put its tags around a text or around one to come. Both ways
write the same: `Content.resolve_settle` for content, `buildLiteral_settle` for
elements, and `eval_settle_eq_ready` for every expression, by induction on it. What a tag
becomes is a function, so for tags the induction carries that the two functions
agree on settled props (`Settles`).

Key definitions: `Content.settle`, `Props.settle`, `Expr.settle`, `Settles`.
Key theorems: `Content.resolve_settle`, `buildLiteral_settle`, `settles_eval`,
`eval_settle_eq_ready`.
-/
import Mathlib.Logic.Basic
import Markup.Expr

namespace Markup

/-! ### The final texts of segments -/

theorem Deferred.values_eq_map (outcome : Nat → String) : ∀ parts : List Deferred,
    Deferred.values outcome parts = parts.map (Deferred.value outcome)
  | [] => rfl
  | d :: rest => by
    rw [Deferred.values, Deferred.values_eq_map outcome rest, List.map_cons]

theorem Deferred.value_known (outcome : Nat → String) (s : String) :
    (Deferred.known s).value outcome = s := by
  simp only [Deferred.known, Deferred.value]

namespace Segment

/-- The final texts of parts one behind the other. -/
def joined (outcome : Nat → String) (parts : List Segment) : String :=
  String.join (parts.map fun part => part.deferred.value outcome)

theorem joined_cons (outcome : Nat → String) (part : Segment) (parts : List Segment) :
    joined outcome (part :: parts) = part.deferred.value outcome ++ joined outcome parts := by
  simp [joined, String.join_cons]

theorem joined_consText (outcome : Nat → String) (s : String) (parts : List Segment) :
    joined outcome (consText s parts) = s ++ joined outcome parts := by
  unfold consText
  split
  · rw [joined_cons, joined_cons, deferred, deferred, Deferred.value_known, Deferred.value_known,
      String.append_assoc]
  · split
    · rename_i h
      rw [h, String.empty_append]
    · rw [joined_cons, deferred, Deferred.value_known]

end Segment

/-! ### Settled content -/

/-- An element whose text has arrived. -/
def Element.settle (outcome : Nat → String) (e : Element) : Element := .ready (e.value outcome)

namespace Content

mutual

/-- Content with the final text of every deferred leaf in its place. -/
def settle (outcome : Nat → String) : Content → Content
  | .null => .null
  | .text s => .text s
  | .number n => .number n
  | .bool b => .bool b
  | .list items => .list (settleAll outcome items)
  | .pending d => .text (d.value outcome)

/-- Items with the final text of every deferred leaf in its place. -/
def settleAll (outcome : Nat → String) : List Content → List Content
  | [] => []
  | item :: rest => settle outcome item :: settleAll outcome rest

end

variable (outcome : Nat → String)

mutual

/-- Settled content holds nothing deferred. -/
theorem isPending_settle : ∀ c : Content, (c.settle outcome).isPending = false
  | .null | .text _ | .number _ | .bool _ | .pending _ => rfl
  | .list items => by
    rw [settle, isPending]
    exact anyPending_settleAll items

theorem anyPending_settleAll : ∀ items : List Content,
    anyPending (settleAll outcome items) = false
  | [] => rfl
  | item :: rest => by
    rw [settleAll, anyPending, isPending_settle item, anyPending_settleAll rest, Bool.or_false]

end

mutual

/-- Content that holds nothing deferred has its text from the start. -/
theorem readyText_settle : ∀ c : Content, c.isPending = false →
    (c.settle outcome).readyText = c.readyText
  | .null, _ | .text _, _ | .number _, _ | .bool _, _ => rfl
  | .pending _, h => by simp [isPending] at h
  | .list items, h => by
    rw [isPending] at h
    rw [settle, readyText, readyText]
    exact readyTexts_settleAll items h

theorem readyTexts_settleAll : ∀ items : List Content, anyPending items = false →
    readyTexts (settleAll outcome items) = readyTexts items
  | [], _ => rfl
  | item :: rest, h => by
    rw [anyPending, Bool.or_eq_false_iff] at h
    rw [settleAll, readyTexts, readyTexts, readyText_settle item h.1,
      readyTexts_settleAll rest h.2]

end

mutual

/-- The segments of content have the text of the settled content. -/
theorem joined_segments (rest : List Segment) : ∀ c : Content,
    Segment.joined outcome (segments rest c)
      = (c.settle outcome).readyText ++ Segment.joined outcome rest
  | .null => by rw [segments, Segment.joined_consText, settle, readyText]
  | .text s => by rw [segments, Segment.joined_consText, settle, readyText]
  | .number n => by rw [segments, Segment.joined_consText, settle, readyText]
  | .bool b => by rw [segments, Segment.joined_consText, settle, readyText]
  | .list items => by
    rw [segments, settle, readyText]
    exact joined_segmentsAll rest items
  | .pending d => by rw [segments, Segment.joined_cons, Segment.deferred, settle, readyText]

theorem joined_segmentsAll (rest : List Segment) : ∀ items : List Content,
    Segment.joined outcome (segmentsAll rest items)
      = readyTexts (settleAll outcome items) ++ Segment.joined outcome rest
  | [] => by rw [segmentsAll, settleAll, readyTexts, String.empty_append]
  | item :: others => by
    rw [segmentsAll, joined_segments _ item, joined_segmentsAll rest others, settleAll, readyTexts,
      String.append_assoc]

end

/-- Items resolve to the text of the settled items, at once or when all is known. -/
theorem value_resolveAll (items : List Content) :
    (resolveAll items).value outcome = readyTexts (settleAll outcome items) := by
  unfold resolveAll
  split
  · rw [Element.value, Deferred.value, Deferred.values_eq_map, List.map_map]
    have h := joined_segmentsAll outcome [] items
    rw [Segment.joined, Segment.joined, List.map_nil, String.join_nil, String.append_empty] at h
    exact h
  · rename_i h
    rw [Element.value, readyTexts_settleAll outcome items (by simpa using h)]

theorem resolveAll_settle (items : List Content) :
    resolveAll (settleAll outcome items) = (resolveAll items).settle outcome := by
  rw [Element.settle, value_resolveAll, resolveAll, anyPending_settleAll, if_neg Bool.false_ne_true]

/-- **Content.** What settled content resolves to is the settled element that the
content resolves to. -/
theorem resolve_settle (c : Content) :
    (c.settle outcome).resolve = c.resolve.settle outcome := by
  cases c with
  | list items => exact resolveAll_settle outcome items
  | null | text s | number n | bool b | pending d => rfl

theorem ofElement_settle (e : Element) :
    ofElement (e.settle outcome) = (ofElement e).settle outcome := by
  cases e <;> rfl

theorem settle_ofAttribute (v : AttributeValue) : (ofAttribute v).settle outcome = ofAttribute v := by
  have texts : ∀ names : List String, settleAll outcome (names.map .text) = names.map .text := by
    intro names
    induction names with
    | nil => rfl
    | cons name rest ih => rw [List.map_cons, settleAll, ih, settle]
  cases v with
  | classes names => rw [ofAttribute, settle, texts]
  | null | text s | number n | bool b | timestamp t | other shown => rfl

theorem settleAll_append (items others : List Content) :
    settleAll outcome (items ++ others) = settleAll outcome items ++ settleAll outcome others := by
  induction items with
  | nil => rfl
  | cons item rest ih => rw [List.cons_append, settleAll, settleAll, ih, List.cons_append]

end Content

/-! ### Settled props -/

/-- Props with settled content. -/
def Props.settle (outcome : Nat → String) (p : Props) : Props :=
  { p with children := p.children.map (Content.settle outcome) }

/-- A field whose value as content is settled. -/
def Record.Field.settle (outcome : Nat → String) (f : Record.Field) : Record.Field :=
  { f with asContent := f.asContent.settle outcome }

section Props

variable (outcome : Nat → String)

theorem AttributeExpr.eval_settle (a : AttributeExpr) (scope : Props) :
    a.eval (scope.settle outcome) = a.eval scope := by
  cases a <;> rfl

theorem Props.settle_insert (p : Props) (key : String) (v : AttributeValue) :
    (p.insert key v).settle outcome = (p.settle outcome).insert key v := by
  unfold Props.insert
  split
  · rw [Props.settle, Props.settle, Option.map_some, Content.settle_ofAttribute]
  · rfl

theorem Content.grow_settle (existing : Option Content) (c : Content) :
    Props.grow (existing.map (Content.settle outcome)) (c.settle outcome)
      = (Props.grow existing c).settle outcome := by
  cases existing with
  | none => rfl
  | some existing =>
    cases existing with
    | list items =>
      rw [Option.map_some, Content.settle, Props.grow, Props.grow, Content.settle,
        Content.settleAll_append]
      rfl
    | null | text s | number n | bool b | pending d => rfl

theorem Props.settle_pushChild (p : Props) (c : Content) :
    (p.pushChild c).settle outcome = (p.settle outcome).pushChild (c.settle outcome) := by
  rw [Props.pushChild, Props.pushChild, Props.settle, Props.settle, Content.grow_settle]
  rfl

/-- Inserting pairs says nothing about content that is to come. -/
theorem Props.settle_foldl_insert : ∀ (pairs : List (String × AttributeValue)) (p : Props),
    (pairs.foldl (fun p (key, v) => p.insert key v) p).settle outcome
      = pairs.foldl (fun p (key, v) => p.insert key v) (p.settle outcome)
  | [], _ => rfl
  | a :: rest, p => by
    rw [List.foldl_cons, List.foldl_cons, Props.settle_foldl_insert rest, Props.settle_insert]

theorem Props.settle_ofPairs (pairs : List (String × AttributeValue)) :
    (Props.ofPairs pairs).settle outcome = Props.ofPairs pairs :=
  Props.settle_foldl_insert outcome pairs .empty

/-- The attributes of a record are the same when it is settled. -/
theorem Record.pairs_settle (fields : List Record.Field) :
    Record.pairs (fields.map (Field.settle outcome)) = Record.pairs fields := by
  rw [pairs, pairs, List.filter_map, List.map_map]
  rfl

theorem Record.find?_isContent_settle (fields : List Record.Field) :
    (fields.map (Field.settle outcome)).find? Field.isContent
      = (fields.find? Field.isContent).map (Field.settle outcome) := by
  rw [List.find?_map]
  rfl

theorem Record.toProps_settle (fields : List Record.Field) :
    Record.toProps (fields.map (Field.settle outcome)) = (Record.toProps fields).settle outcome := by
  have attributes := Props.settle_ofPairs outcome (pairs fields)
  rw [toProps_eq, toProps_eq, pairs_settle, find?_isContent_settle]
  cases fields.find? Field.isContent with
  | none => exact attributes.symm
  | some f =>
    exact congrArg (fun p : Props => { p with children := some (f.asContent.settle outcome) })
      attributes.symm

/-! ### Settled elements -/

theorem Element.map_settle (f : String → String) (e : Element) :
    (e.settle outcome).map f = (e.map f).settle outcome := by
  cases e with
  | ready s => rfl
  | pending d => rw [settle, map, map, settle, value, value, Deferred.value]

theorem Props.children_settle (p : Props) :
    (p.settle outcome).children.getD .null = (p.children.getD .null).settle outcome := by
  cases h : p.children with
  | none => rw [Props.settle, h]; rfl
  | some c => rw [Props.settle, h]; rfl

/-- **Literal elements.** The tags around a text to come are those around the text
that is there. -/
theorem buildLiteral_settle (form : ChildrenForm) (name : String) (p : Props) :
    buildLiteral form name (p.settle outcome) = (buildLiteral form name p).settle outcome := by
  have opening : openingTag name (p.settle outcome) = openingTag name p := rfl
  rw [buildLiteral_eq, buildLiteral_eq, opening, Props.children_settle, Content.resolve_settle,
    Element.map_settle]
  split <;> rfl

theorem buildFragment_settle (p : Props) :
    buildFragment (p.settle outcome) = (buildFragment p).settle outcome := by
  rw [buildFragment_eq, buildFragment_eq, Props.children_settle, Content.resolve_settle]

end Props

/-! ### Settled expressions -/

/-- An expression with the final text of every deferred leaf in its place, in the
bodies of its components too. -/
def Expr.settle (outcome : Nat → String) : {r : Role} → Expr r → Expr r
  | _, .build form tag props => .build form (tag.settle outcome) (props.settle outcome)
  | _, .givenElement e => .givenElement (e.settle outcome)
  | _, .resolve c => .resolve (c.settle outcome)
  | _, .sequence cs => .sequence (cs.settle outcome)
  | _, .map f e => .map f (e.settle outcome)
  | _, .literal name => .literal name
  | _, .component label body => .component label (body.settle outcome)
  | _, .fragment => .fragment
  | _, .givenProps p => .givenProps (p.settle outcome)
  | _, .forward => .forward
  | _, .pairs ps => .pairs ps
  | _, .ofFields fs => .ofFields (fs.settle outcome)
  | _, .insert p key a => .insert (p.settle outcome) key a
  | _, .setChildren p c => .setChildren (p.settle outcome) (c.settle outcome)
  | _, .pushChild p c => .pushChild (p.settle outcome) (c.settle outcome)
  | _, .erase p key => .erase (p.settle outcome) key
  | _, .dropChildren p => .dropChildren (p.settle outcome)
  | _, .noField => .noField
  | _, .attributeField d a others => .attributeField d a (others.settle outcome)
  | _, .contentField d c others => .contentField d (c.settle outcome) (others.settle outcome)
  | _, .givenContent c => .givenContent (c.settle outcome)
  | _, .list cs => .list (cs.settle outcome)
  | _, .ofElement e => .ofElement (e.settle outcome)
  | _, .ofAttribute a => .ofAttribute a
  | _, .escapedProp key => .escapedProp key
  | _, .slot => .slot
  | _, .nil => .nil
  | _, .cons c others => .cons (c.settle outcome) (others.settle outcome)

/-- When `w` is what the value `v` becomes once every deferred leaf has its final
text: for tags, when both build alike from settled props. -/
def Settles (outcome : Nat → String) : (r : Role) → (v w : r.Value) → Prop
  | .element, e, e' => e' = e.settle outcome
  | .tag, t, t' => ∀ form p p', p' = p.settle outcome →
      build form t' p' = (build form t p).settle outcome
  | .props, p, p' => p' = p.settle outcome
  | .fields, fs, fs' => fs' = fs.map (Record.Field.settle outcome)
  | .content, c, c' => c' = c.settle outcome
  | .contents, cs, cs' => cs' = Content.settleAll outcome cs

/-- **Evaluation.** A settled expression in a settled scope has the settled value and
leaves the settled scope. -/
theorem settles_eval (outcome : Nat → String) {r : Role} (e : Expr r) (scope settled : Props)
    (h : settled = scope.settle outcome) :
    Settles outcome r (e.eval scope).1 ((e.settle outcome).eval settled).1 ∧
      ((e.settle outcome).eval settled).2 = (e.eval scope).2.settle outcome := by
  induction e generalizing scope settled with
  | build form tag props tag_ih props_ih =>
    obtain ⟨props_eq, scope_eq⟩ := props_ih scope settled h
    obtain ⟨tag_eq, left_eq⟩ := tag_ih _ _ scope_eq
    exact ⟨tag_eq form _ _ props_eq, left_eq⟩
  | givenElement e => exact ⟨rfl, h⟩
  | resolve c ih =>
    obtain ⟨c_eq, left_eq⟩ := ih scope settled h
    exact ⟨(congrArg Content.resolve c_eq).trans (Content.resolve_settle outcome _), left_eq⟩
  | sequence cs ih =>
    obtain ⟨cs_eq, left_eq⟩ := ih scope settled h
    exact ⟨(congrArg Content.resolveAll cs_eq).trans (Content.resolveAll_settle outcome _), left_eq⟩
  | map f e ih =>
    obtain ⟨e_eq, left_eq⟩ := ih scope settled h
    exact ⟨(congrArg (Element.map f) e_eq).trans (Element.map_settle outcome f _), left_eq⟩
  | literal name =>
    refine ⟨fun form p p' hp => ?_, h⟩
    rw [hp]
    exact buildLiteral_settle outcome form name p
  | component label body ih => exact ⟨fun _ p p' hp => (ih p p' hp).1, h⟩
  | fragment =>
    refine ⟨fun _ p p' hp => ?_, h⟩
    rw [hp]
    exact buildFragment_settle outcome p
  | givenProps p => exact ⟨rfl, h⟩
  | forward => exact ⟨h, rfl⟩
  | pairs ps =>
    refine ⟨?_, h⟩
    simp only [Expr.settle, Expr.eval, Settles, h, AttributeExpr.eval_settle]
    exact (Props.settle_ofPairs outcome _).symm
  | ofFields fs ih =>
    obtain ⟨fs_eq, left_eq⟩ := ih scope settled h
    exact ⟨(congrArg Record.toProps fs_eq).trans (Record.toProps_settle outcome _), left_eq⟩
  | insert p key a ih =>
    obtain ⟨p_eq, left_eq⟩ := ih scope settled h
    refine ⟨?_, left_eq⟩
    simp only [Settles] at p_eq
    simp only [Expr.settle, Expr.eval, Settles]
    rw [p_eq, left_eq, AttributeExpr.eval_settle, Props.settle_insert]
  | setChildren p c p_ih c_ih =>
    obtain ⟨p_eq, scope_eq⟩ := p_ih scope settled h
    obtain ⟨c_eq, left_eq⟩ := c_ih _ _ scope_eq
    refine ⟨?_, left_eq⟩
    simp only [Settles] at p_eq c_eq
    simp only [Expr.settle, Expr.eval, Settles]
    rw [p_eq, c_eq]
    rfl
  | pushChild p c p_ih c_ih =>
    obtain ⟨p_eq, scope_eq⟩ := p_ih scope settled h
    obtain ⟨c_eq, left_eq⟩ := c_ih _ _ scope_eq
    exact ⟨(congrArg₂ Props.pushChild p_eq c_eq).trans (Props.settle_pushChild outcome _ _).symm,
      left_eq⟩
  | erase p key ih =>
    obtain ⟨p_eq, left_eq⟩ := ih scope settled h
    exact ⟨congrArg (Props.erase · key) p_eq, left_eq⟩
  | dropChildren p ih =>
    obtain ⟨p_eq, left_eq⟩ := ih scope settled h
    refine ⟨?_, left_eq⟩
    simp only [Settles] at p_eq
    simp only [Expr.settle, Expr.eval, Settles]
    rw [p_eq]
    rfl
  | noField => exact ⟨rfl, h⟩
  | attributeField d a others ih =>
    obtain ⟨others_eq, left_eq⟩ := ih scope settled h
    have field_eq : d.attribute (a.eval settled)
        = (d.attribute (a.eval scope)).settle outcome := by
      rw [h, AttributeExpr.eval_settle, Record.Declaration.attribute, Record.Field.settle,
        Content.settle_ofAttribute]
    exact ⟨congrArg₂ List.cons field_eq others_eq, left_eq⟩
  | contentField d c others c_ih others_ih =>
    obtain ⟨c_eq, scope_eq⟩ := c_ih scope settled h
    obtain ⟨others_eq, left_eq⟩ := others_ih _ _ scope_eq
    exact ⟨congrArg₂ (fun c fs => d.content c :: fs) c_eq others_eq, left_eq⟩
  | givenContent c => exact ⟨rfl, h⟩
  | list cs ih =>
    obtain ⟨cs_eq, left_eq⟩ := ih scope settled h
    exact ⟨congrArg Content.list cs_eq, left_eq⟩
  | ofElement e ih =>
    obtain ⟨e_eq, left_eq⟩ := ih scope settled h
    exact ⟨(congrArg Content.ofElement e_eq).trans (Content.ofElement_settle outcome _), left_eq⟩
  | ofAttribute a =>
    refine ⟨?_, h⟩
    simp only [Expr.settle, Expr.eval, Settles, h, AttributeExpr.eval_settle,
      Content.settle_ofAttribute]
  | escapedProp key =>
    subst h
    exact ⟨rfl, rfl⟩
  | slot =>
    subst h
    exact ⟨Props.children_settle outcome scope, rfl⟩
  | nil => exact ⟨rfl, h⟩
  | cons c others c_ih others_ih =>
    obtain ⟨c_eq, scope_eq⟩ := c_ih scope settled h
    obtain ⟨others_eq, left_eq⟩ := others_ih _ _ scope_eq
    exact ⟨congrArg₂ List.cons c_eq others_eq, left_eq⟩

/-- **Awaiting is writing at once.** In every scope, what an expression builds yields,
once its deferred leaves have their final texts, the text that the expression has at
once with these texts in their places. -/
theorem eval_settle_eq_ready (outcome : Nat → String) (e : Expr .element) (scope : Props) :
    ((e.settle outcome).eval (scope.settle outcome)).1
      = .ready ((e.eval scope).1.value outcome) :=
  (settles_eval outcome e scope _ rfl).1

end Markup
