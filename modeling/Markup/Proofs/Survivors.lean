/-
# What an element waits for

A deferred leaf of an expression survives if it reaches the element that the
expression builds: it does not stand under a void element, no component leaves
it out of its body, and no later content takes its place. `Expr.survivors` finds
the survivors in their order by following the content of the expression alone;
it looks at no text and never asks whether something is pending. What is built is
pending exactly if a leaf survives (`isPending_eval_iff`), and then it arrives
when all survivors have (`waits_eval`). So content is never joined while
something in it is deferred, and an element that is ready has its whole text.

Joining and putting tags around a text to come wrap deferred texts in others. Two
lists of deferred texts are told apart only by whether there is something to wait
for and by when all of it has arrived (`AwaitedAlike`); every wrapping keeps that.

Key definitions: `Content.awaited`, `AwaitedAlike`, `Expr.survivors`, `Waits`.
Key theorems: `Content.resolve_awaited`, `buildLiteral_awaited`, `waits_eval`,
`isPending_eval_iff`.
-/
import Markup.Proofs.Arrival

namespace Markup

/-! ### Waiting alike -/

/-- Two lists of deferred texts between which waiting makes no difference. -/
structure AwaitedAlike (ds es : List Deferred) : Prop where
  eq_nil_iff : ds = [] ↔ es = []
  arrived_iff : ∀ polls inbox,
    (∀ d ∈ ds, d.Arrived polls inbox) ↔ ∀ d ∈ es, d.Arrived polls inbox

namespace AwaitedAlike

theorem refl (ds : List Deferred) : AwaitedAlike ds ds := ⟨Iff.rfl, fun _ _ => Iff.rfl⟩

theorem of_eq {ds es : List Deferred} (h : ds = es) : AwaitedAlike ds es := h ▸ refl ds

theorem trans {ds es fs : List Deferred} (h : AwaitedAlike ds es) (h' : AwaitedAlike es fs) :
    AwaitedAlike ds fs :=
  ⟨h.eq_nil_iff.trans h'.eq_nil_iff, fun polls inbox =>
    (h.arrived_iff polls inbox).trans (h'.arrived_iff polls inbox)⟩

theorem append {ds es ds' es' : List Deferred} (h : AwaitedAlike ds es) (h' : AwaitedAlike ds' es') :
    AwaitedAlike (ds ++ ds') (es ++ es') := by
  refine ⟨?_, fun polls inbox => ?_⟩
  · rw [List.append_eq_nil_iff, List.append_eq_nil_iff, h.eq_nil_iff, h'.eq_nil_iff]
  · rw [List.forall_mem_append, List.forall_mem_append, h.arrived_iff, h'.arrived_iff]

/-- A single deferred text stands for a list if it arrives when the whole list has. -/
theorem singleton {d : Deferred} {ds : List Deferred} (hne : ds ≠ [])
    (h : ∀ polls inbox, d.Arrived polls inbox ↔ ∀ e ∈ ds, e.Arrived polls inbox) :
    AwaitedAlike [d] ds := by
  refine ⟨⟨fun h => absurd h (List.cons_ne_nil d []), fun h => absurd h hne⟩, fun polls inbox => ?_⟩
  rw [List.forall_mem_singleton, h]

end AwaitedAlike

/-! ### The deferred leaves of content -/

/-- What an element waits for. -/
def Element.awaited : Element → List Deferred
  | .ready _ => []
  | .pending d => [d]

theorem Element.isPending_iff (e : Element) : e.isPending = true ↔ e.awaited ≠ [] := by
  cases e <;> simp [isPending, awaited]

namespace Content

mutual

/-- The deferred leaves of content, in their order. -/
def awaited : Content → List Deferred
  | .null => []
  | .text _ => []
  | .number _ => []
  | .bool _ => []
  | .list items => awaitedAll items
  | .pending d => [d]

/-- The deferred leaves of items, in their order. -/
def awaitedAll : List Content → List Deferred
  | [] => []
  | item :: rest => awaited item ++ awaitedAll rest

end

mutual

theorem isPending_iff : ∀ c : Content, c.isPending = true ↔ c.awaited ≠ []
  | .null | .text _ | .number _ | .bool _ | .pending _ => by simp [isPending, awaited]
  | .list items => by
    rw [isPending, awaited]
    exact anyPending_iff items

theorem anyPending_iff : ∀ items : List Content, anyPending items = true ↔ awaitedAll items ≠ []
  | [] => by simp [anyPending, awaitedAll]
  | item :: rest => by
    rw [anyPending, awaitedAll, Bool.or_eq_true, isPending_iff item, anyPending_iff rest, ne_eq,
      ne_eq, ne_eq, List.append_eq_nil_iff, Decidable.not_and_iff_not_or_not]

end

theorem arrived_consText (polls : Nat) (inbox : Inbox) (text : String) (parts : List Segment) :
    (∀ s ∈ Segment.consText text parts, s.deferred.Arrived polls inbox) ↔
      ∀ s ∈ parts, s.deferred.Arrived polls inbox := by
  unfold Segment.consText
  split
  · simp only [List.forall_mem_cons, Segment.deferred, Deferred.arrived_known]
  · split
    · rfl
    · simp only [List.forall_mem_cons, Segment.deferred, Deferred.arrived_known, true_and]

mutual

/-- Texts among the segments wait for nothing. -/
theorem arrived_segments (polls : Nat) (inbox : Inbox) (rest : List Segment) : ∀ c : Content,
    (∀ s ∈ segments rest c, s.deferred.Arrived polls inbox) ↔
      (∀ d ∈ c.awaited, d.Arrived polls inbox) ∧ ∀ s ∈ rest, s.deferred.Arrived polls inbox
  | .null => by simp [segments, awaited, arrived_consText]
  | .text s => by simp [segments, awaited, arrived_consText]
  | .number n => by simp [segments, awaited, arrived_consText]
  | .bool b => by simp [segments, awaited, arrived_consText]
  | .list items => by
    rw [segments, awaited]
    exact arrived_segmentsAll polls inbox rest items
  | .pending d => by simp [segments, awaited, Segment.deferred]

theorem arrived_segmentsAll (polls : Nat) (inbox : Inbox) (rest : List Segment) :
    ∀ items : List Content, (∀ s ∈ segmentsAll rest items, s.deferred.Arrived polls inbox) ↔
      (∀ d ∈ awaitedAll items, d.Arrived polls inbox) ∧ ∀ s ∈ rest, s.deferred.Arrived polls inbox
  | [] => by simp [segmentsAll, awaitedAll]
  | item :: others => by
    rw [segmentsAll, arrived_segments polls inbox _ item, arrived_segmentsAll polls inbox rest others,
      awaitedAll, List.forall_mem_append, and_assoc]

end

/-- Joined items wait for their deferred leaves. -/
theorem resolveAll_awaited (items : List Content) :
    AwaitedAlike (resolveAll items).awaited (awaitedAll items) := by
  unfold resolveAll
  split
  · rename_i h
    refine AwaitedAlike.singleton ((anyPending_iff items).mp h) fun polls inbox => ?_
    have arrived := arrived_segmentsAll polls inbox [] items
    rw [Deferred.Arrived, Deferred.allArrived_iff, List.forall_mem_map, arrived]
    simp
  · rename_i h
    have none : awaitedAll items = [] :=
      Decidable.not_not.mp fun hne => h ((anyPending_iff items).mpr hne)
    rw [none]
    exact AwaitedAlike.refl []

/-- Resolved content waits for its deferred leaves. -/
theorem resolve_awaited (c : Content) : AwaitedAlike c.resolve.awaited c.awaited := by
  cases c with
  | list items => exact resolveAll_awaited items
  | null | text s | number n | bool b | pending d => exact AwaitedAlike.refl _

theorem awaited_ofElement (e : Element) : (ofElement e).awaited = e.awaited := by
  cases e <;> rfl

theorem awaited_ofAttribute (v : AttributeValue) : (ofAttribute v).awaited = [] := by
  have texts : ∀ names : List String, awaitedAll (names.map .text) = [] := by
    intro names
    induction names with
    | nil => rfl
    | cons name rest ih => rw [List.map_cons, awaitedAll, ih, awaited, List.nil_append]
  cases v with
  | classes names => rw [ofAttribute, awaited, texts]
  | null | text s | number n | bool b | timestamp t | other shown => rfl

theorem awaitedAll_append (items others : List Content) :
    awaitedAll (items ++ others) = awaitedAll items ++ awaitedAll others := by
  induction items with
  | nil => rfl
  | cons item rest ih => rw [List.cons_append, awaitedAll, awaitedAll, ih, List.append_assoc]

end Content

/-! ### The deferred leaves of props -/

namespace Props

/-- The deferred leaves of the content of props. -/
def awaited (p : Props) : List Deferred := (p.children.getD .null).awaited

theorem awaited_insert (p : Props) (key : String) (v : AttributeValue) :
    (p.insert key v).awaited = if key = childrenKey then [] else p.awaited := by
  unfold Props.insert awaited
  split
  · rw [Option.getD_some, Content.awaited_ofAttribute]
  · rfl

theorem awaited_pushChild (p : Props) (c : Content) :
    (p.pushChild c).awaited = p.awaited ++ c.awaited := by
  simp only [pushChild, awaited, Option.getD_some]
  cases p.children with
  | none => simp [grow, Content.awaited, Content.awaitedAll]
  | some existing =>
    cases existing <;> simp [grow, Content.awaited, Content.awaitedAll, Content.awaitedAll_append]

theorem awaited_foldl_insert : ∀ (pairs : List (String × AttributeValue)) (p : Props),
    p.awaited = [] → (pairs.foldl (fun p (key, v) => p.insert key v) p).awaited = []
  | [], _, h => h
  | a :: rest, p, h => by
    rw [List.foldl_cons]
    refine awaited_foldl_insert rest _ ?_
    rw [awaited_insert, h, ite_self]

theorem awaited_ofPairs (pairs : List (String × AttributeValue)) : (ofPairs pairs).awaited = [] :=
  awaited_foldl_insert pairs .empty rfl

end Props

namespace Record

/-- Of a record only the field that gives the content may be waited for. -/
theorem awaited_toProps (fields : List Field) : (toProps fields).awaited =
    ((fields.find? Field.isContent).elim [] fun f => f.asContent.awaited) := by
  rw [toProps_eq]
  cases fields.find? Field.isContent with
  | none => exact Props.awaited_ofPairs (pairs fields)
  | some f => rfl

theorem awaited_toProps_attribute (d : Declaration) (v : AttributeValue) (fields : List Field) :
    (toProps (d.attribute v :: fields)).awaited = (toProps fields).awaited := by
  rw [awaited_toProps, awaited_toProps, List.find?_cons_of_neg]
  simp [Declaration.attribute, Field.isContent]

theorem awaited_toProps_content (d : Declaration) (c : Content) (fields : List Field) :
    (toProps (d.content c :: fields)).awaited =
      if d.skip then (toProps fields).awaited else c.awaited := by
  rw [awaited_toProps, awaited_toProps]
  cases h : d.skip with
  | true =>
    rw [List.find?_cons_of_neg (by simp [Declaration.content, Field.isContent, h])]
    rfl
  | false =>
    rw [List.find?_cons_of_pos (by simp [Declaration.content, Field.isContent, h])]
    rfl

end Record

/-! ### Built elements -/

theorem Element.map_awaited (f : String → String) (e : Element) :
    AwaitedAlike (e.map f).awaited e.awaited := by
  cases e with
  | ready s => exact AwaitedAlike.refl []
  | pending d =>
    refine AwaitedAlike.singleton (List.cons_ne_nil d []) fun polls inbox => ?_
    rw [Deferred.Arrived, awaited, List.forall_mem_singleton]

/-- A void element waits for nothing, any other literal element for the leaves of its
content. -/
theorem buildLiteral_awaited (form : ChildrenForm) (name : String) (p : Props) :
    AwaitedAlike (buildLiteral form name p).awaited
      (if Vocabulary.isVoid name then [] else p.awaited) := by
  rw [buildLiteral_eq]
  split
  · exact AwaitedAlike.refl []
  · exact (Element.map_awaited _ _).trans (Content.resolve_awaited _)

theorem buildFragment_awaited (p : Props) : AwaitedAlike (buildFragment p).awaited p.awaited := by
  rw [buildFragment_eq]
  exact Content.resolve_awaited _

/-! ### Survivors -/

/-- The survivors of the expressions of a role: the leaves of what they stand for, and
for a tag which leaves of the props that it gets come through. -/
@[reducible] def Role.Survivors : Role → Type
  | .tag => List Deferred → List Deferred
  | .element | .props | .fields | .content | .contents => List Deferred

/-- The deferred leaves that survive in an expression, where `held` are those in the
content of the scope; and those that are left there. -/
def Expr.survivors : {r : Role} → Expr r → List Deferred → r.Survivors × List Deferred
  | _, .build _ tag props, held =>
    let (ds, held) := props.survivors held
    let (through, held) := tag.survivors held
    (through ds, held)
  | _, .givenElement e, held => (e.awaited, held)
  | _, .resolve c, held => c.survivors held
  | _, .sequence cs, held => cs.survivors held
  | _, .map _ e, held => e.survivors held
  | _, .literal name, held => (fun ds => if Vocabulary.isVoid name then [] else ds, held)
  | _, .component _ body, held => (fun ds => (body.survivors ds).1, held)
  | _, .fragment, held => (fun ds => ds, held)
  | _, .givenProps p, held => (p.awaited, held)
  | _, .forward, held => (held, [])
  | _, .pairs _, held => ([], held)
  | _, .ofFields fs, held => fs.survivors held
  | _, .insert p key _, held =>
    let (ds, held) := p.survivors held
    (if key = childrenKey then [] else ds, held)
  | _, .setChildren p c, held => c.survivors (p.survivors held).2
  | _, .pushChild p c, held =>
    let (ds, held) := p.survivors held
    let (es, held) := c.survivors held
    (ds ++ es, held)
  | _, .erase p _, held => p.survivors held
  | _, .dropChildren p, held => ([], (p.survivors held).2)
  | _, .noField, held => ([], held)
  | _, .attributeField _ _ others, held => others.survivors held
  | _, .contentField d c others, held =>
    let (ds, held) := c.survivors held
    let (es, held) := others.survivors held
    (if d.skip then es else ds, held)
  | _, .givenContent c, held => (c.awaited, held)
  | _, .list cs, held => cs.survivors held
  | _, .ofElement e, held => e.survivors held
  | _, .ofAttribute _, held => ([], held)
  | _, .escapedProp _, held => ([], held)
  | _, .slot, held => (held, [])
  | _, .nil, held => ([], held)
  | _, .cons c others, held =>
    let (ds, held) := c.survivors held
    let (es, held) := others.survivors held
    (ds ++ es, held)

/-- When a value waits for survivors: a tag, when what it builds waits for those that
come through. -/
def Waits : (r : Role) → r.Value → r.Survivors → Prop
  | .element, e, ds => AwaitedAlike e.awaited ds
  | .tag, t, through => ∀ form p ds, AwaitedAlike p.awaited ds →
      AwaitedAlike (build form t p).awaited (through ds)
  | .props, p, ds => AwaitedAlike p.awaited ds
  | .fields, fs, ds => AwaitedAlike (Record.toProps fs).awaited ds
  | .content, c, ds => AwaitedAlike c.awaited ds
  | .contents, cs, ds => AwaitedAlike (Content.awaitedAll cs) ds

/-- **Evaluation.** What an expression stands for waits for its survivors, and the
scope that is left for those left there. -/
theorem waits_eval {r : Role} (e : Expr r) (scope : Props) (held : List Deferred)
    (h : AwaitedAlike scope.awaited held) :
    Waits r (e.eval scope).1 (e.survivors held).1 ∧
      AwaitedAlike (e.eval scope).2.awaited (e.survivors held).2 := by
  induction e generalizing scope held with
  | build form tag props tag_ih props_ih =>
    obtain ⟨props_waits, scope_waits⟩ := props_ih scope held h
    obtain ⟨tag_waits, left_waits⟩ := tag_ih _ _ scope_waits
    exact ⟨tag_waits form _ _ props_waits, left_waits⟩
  | givenElement e => exact ⟨AwaitedAlike.refl _, h⟩
  | resolve c ih =>
    obtain ⟨waits, left_waits⟩ := ih scope held h
    exact ⟨(Content.resolve_awaited _).trans waits, left_waits⟩
  | sequence cs ih =>
    obtain ⟨waits, left_waits⟩ := ih scope held h
    exact ⟨(Content.resolveAll_awaited _).trans waits, left_waits⟩
  | map f e ih =>
    obtain ⟨waits, left_waits⟩ := ih scope held h
    exact ⟨(Element.map_awaited f _).trans waits, left_waits⟩
  | literal name =>
    refine ⟨fun form p ds hp => (buildLiteral_awaited form name p).trans ?_, h⟩
    simp only [Expr.survivors]
    split
    · exact AwaitedAlike.refl []
    · exact hp
  | component label body ih => exact ⟨fun _ p ds hp => (ih p ds hp).1, h⟩
  | fragment => exact ⟨fun _ p ds hp => (buildFragment_awaited p).trans hp, h⟩
  | givenProps p => exact ⟨AwaitedAlike.refl _, h⟩
  | forward => exact ⟨h, AwaitedAlike.refl []⟩
  | pairs ps => exact ⟨AwaitedAlike.of_eq (Props.awaited_ofPairs _), h⟩
  | ofFields fs ih => exact ih scope held h
  | insert p key a ih =>
    obtain ⟨waits, left_waits⟩ := ih scope held h
    refine ⟨?_, left_waits⟩
    simp only [Expr.eval, Expr.survivors, Waits]
    rw [Props.awaited_insert]
    split
    · exact AwaitedAlike.refl []
    · exact waits
  | setChildren p c p_ih c_ih => exact c_ih _ _ (p_ih scope held h).2
  | pushChild p c p_ih c_ih =>
    obtain ⟨p_waits, scope_waits⟩ := p_ih scope held h
    obtain ⟨c_waits, left_waits⟩ := c_ih _ _ scope_waits
    refine ⟨?_, left_waits⟩
    simp only [Expr.eval, Expr.survivors, Waits]
    rw [Props.awaited_pushChild]
    exact AwaitedAlike.append p_waits c_waits
  | erase p key ih => exact ih scope held h
  | dropChildren p ih => exact ⟨AwaitedAlike.refl [], (ih scope held h).2⟩
  | noField => exact ⟨AwaitedAlike.refl [], h⟩
  | attributeField d a others ih =>
    obtain ⟨waits, left_waits⟩ := ih scope held h
    exact ⟨(AwaitedAlike.of_eq (Record.awaited_toProps_attribute d _ _)).trans waits, left_waits⟩
  | contentField d c others c_ih others_ih =>
    obtain ⟨c_waits, scope_waits⟩ := c_ih scope held h
    obtain ⟨others_waits, left_waits⟩ := others_ih _ _ scope_waits
    refine ⟨?_, left_waits⟩
    simp only [Expr.eval, Expr.survivors, Waits]
    rw [Record.awaited_toProps_content]
    split
    · exact others_waits
    · exact c_waits
  | givenContent c => exact ⟨AwaitedAlike.refl _, h⟩
  | list cs ih => exact ih scope held h
  | ofElement e ih =>
    obtain ⟨waits, left_waits⟩ := ih scope held h
    exact ⟨(AwaitedAlike.of_eq (Content.awaited_ofElement _)).trans waits, left_waits⟩
  | ofAttribute a => exact ⟨AwaitedAlike.of_eq (Content.awaited_ofAttribute _), h⟩
  | escapedProp key => exact ⟨AwaitedAlike.refl [], h⟩
  | slot => exact ⟨h, AwaitedAlike.refl []⟩
  | nil => exact ⟨AwaitedAlike.refl [], h⟩
  | cons c others c_ih others_ih =>
    obtain ⟨c_waits, scope_waits⟩ := c_ih scope held h
    obtain ⟨others_waits, left_waits⟩ := others_ih _ _ scope_waits
    exact ⟨AwaitedAlike.append c_waits others_waits, left_waits⟩

/-- What an expression builds in a scope waits for its survivors. -/
theorem element_waits (e : Expr .element) (scope : Props) :
    AwaitedAlike (e.eval scope).1.awaited (e.survivors scope.awaited).1 :=
  (waits_eval e scope scope.awaited (AwaitedAlike.refl _)).1

/-- **Exact pendingness.** What an expression builds is pending exactly if a deferred
leaf survives. If none does, it is ready with its whole text: the one that it has with
any texts in the places of its leaves. A void element is ready with a text in which its
content has no part. -/
theorem isPending_eval_iff (e : Expr .element) (scope : Props) :
    ((e.eval scope).1.isPending = true ↔ (e.survivors scope.awaited).1 ≠ []) ∧
    ((e.survivors scope.awaited).1 = [] → ∃ s, (e.eval scope).1 = .ready s ∧
      ∀ outcome, ((e.settle outcome).eval (scope.settle outcome)).1 = .ready s) ∧
    (∀ (form : ChildrenForm) (name : String) (p : Props), Vocabulary.isVoid name = true →
      ∃ s, ∀ children, build form (.name name) { p with children } = .ready s) := by
  have waits := element_waits e scope
  have settles := fun outcome => (settles_eval outcome e scope _ rfl).1
  refine ⟨?_, fun none => ?_, fun form name p hvoid => ?_⟩
  · rw [Element.isPending_iff, Ne, waits.eq_nil_iff]
  · have none_awaited := waits.eq_nil_iff.mpr none
    generalize (e.eval scope).1 = built at none_awaited settles
    cases built with
    | ready s => exact ⟨s, rfl, fun outcome => settles outcome⟩
    | pending d => exact absurd none_awaited (List.cons_ne_nil d [])
  · refine ⟨openingTag name p ++ ">", fun children => ?_⟩
    rw [build, buildLiteral_eq, if_pos hvoid]
    rfl

end Markup
