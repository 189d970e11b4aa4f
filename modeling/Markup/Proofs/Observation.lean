/-
# What can be told apart

Of an element one can see whether it is ready, its text, and the reports of its runs. Two
elements are alike in all of this if they have the same text in the end, whatever the
outcomes of the channels are, and waiting makes no difference between them
(`Element.Alike.of_awaited`): then every poll finds the text of both or of neither.

A component sees no more of its content. Two props read alike if they have the same
attributes and their contents have the same text in the end (`Props.ReadAlike`). In
scopes that read alike an expression has values that read alike, by induction on it
(`readAlike_eval`); when it is ready is the matter of `waits_eval`. So what a tag stands
for builds alike elements from props that read and wait alike (`build_alike`).

Key definitions: `Element.Alike`, `Props.ReadAlike`, `ReadAlike`.
Key theorems: `Run.trace_congr`, `Element.Alike.of_awaited`, `readAlike_eval`,
`build_alike`.
-/
import Markup.Proofs.Leaves
import Markup.Proofs.Completion

namespace Markup

/-! ### Runs -/

namespace Run

/-- A poll leaves the channels as they are. -/
theorem channels_step_poll (r : Run) : (r.step .poll).1.channels = r.channels := by
  simp only [step]
  cases r.task with
  | none => rfl
  | some d => cases hp : d.poll r.channels.inbox <;> simp only [hp]

theorem channels_step_send (r : Run) (name text : String) :
    (r.step (.send name text)).1.channels = (r.channels.deliver? name text).getD r.channels := by
  simp only [step]
  cases r.channels.deliver? name text <;> rfl

theorem channels_step_drop (r : Run) (name : String) :
    (r.step (.drop name)).1.channels = (r.channels.deliver? name "").getD r.channels := by
  simp only [step]
  cases r.channels.deliver? name "" <;> rfl

theorem report_send (r : Run) (name text : String) :
    (r.step (.send name text)).2 = .sent (r.channels.deliver? name text).isSome := by
  simp only [step]
  cases r.channels.deliver? name text <;> rfl

theorem report_drop (r : Run) (name : String) :
    (r.step (.drop name)).2 = .dropped (r.channels.deliver? name "").isSome := by
  simp only [step]
  cases r.channels.deliver? name "" <;> rfl

/-- A poll that finds no text reports whether the run is over. -/
theorem report_poll_of_not_ready {r : Run} (h : ∀ s, (r.step .poll).2 ≠ .ready s) :
    (r.step .poll).2 = if r.task.isNone then .over else .pending := by
  simp only [step] at h ⊢
  cases ht : r.task with
  | none => rfl
  | some d =>
    rw [ht] at h
    cases hp : d.poll r.channels.inbox with
    | ready s => exact absurd (by simp only [hp]) (h s)
    | pending rest => simp only [hp]; rfl

/-- What happens to the channels does not depend on what is waited for. -/
theorem channels_after_congr (r r' : Run) (h : r.channels = r'.channels) (es : List Event) :
    (r.after es).channels = (r'.after es).channels := by
  induction es using List.reverseRecOn with
  | nil => exact h
  | append_singleton es e ih =>
    rw [after_append, after_append]
    cases e with
    | poll => rw [channels_step_poll, channels_step_poll, ih]
    | send name text => rw [channels_step_send, channels_step_send, ih]
    | drop name => rw [channels_step_drop, channels_step_drop, ih]

/-- **Runs.** Elements with the same text in the end, between which waiting makes no
difference, have the same reports. -/
theorem trace_congr {e e' : Element} (value_eq : ∀ outcome, e.value outcome = e'.value outcome)
    (awaited : AwaitedAlike e.awaited e'.awaited) (names : List String) (es : List Event) :
    (start names e).trace es = (start names e').trace es := by
  induction es using List.reverseRecOn with
  | nil => rfl
  | append_singleton es event ih =>
    have channels_eq := channels_after_congr (start names e) (start names e') rfl es
    have follows := follows_after names e es
    have follows' := follows_after names e' es
    rw [← ih] at follows'
    rw [trace_append, trace_append, ih]
    generalize (start names e).after es = r at channels_eq follows ⊢
    generalize (start names e').after es = r' at channels_eq follows' ⊢
    have report_eq : (r.step event).2 = (r'.step event).2 := by
      cases event with
      | send name text => rw [report_send, report_send, channels_eq]
      | drop name => rw [report_drop, report_drop, channels_eq]
      | poll =>
        have arrived : e.deferred.Arrived (pollCount es) (inboxAfter names es) ↔
            e'.deferred.Arrived (pollCount es) (inboxAfter names es) := by
          rw [Element.arrived_deferred, Element.arrived_deferred, awaited.arrived_iff]
        have finds : (∃ s, (r.step .poll).2 = .ready s) ↔ ∃ s, (r'.step .poll).2 = .ready s := by
          rw [follows.poll_finds_iff, follows'.poll_finds_iff, arrived]
        by_cases found : ∃ s, (r.step .poll).2 = .ready s
        · obtain ⟨s, hs⟩ := found
          obtain ⟨s', hs'⟩ := finds.mp ⟨s, hs⟩
          let outcome : Nat → String := fun id => (inboxAfter names (es ++ [.poll]) id).getD ""
          have agrees : (inboxAfter names (es ++ [.poll])).Agrees outcome := Inbox.agrees_getD _
          have text := (follows.step .poll).found s (by rw [hs]; simp) outcome agrees
          have text' := (follows'.step .poll).found s' (by rw [hs']; simp) outcome agrees
          rw [Element.value_deferred] at text text'
          rw [hs, hs', text, text', value_eq]
        · have over_iff : r.task = none ↔ r'.task = none := by
            rw [follows.over_iff, follows'.over_iff]
          have over_eq : r.task.isNone = r'.task.isNone := by
            rw [Bool.eq_iff_iff, Option.isNone_iff_eq_none, Option.isNone_iff_eq_none, over_iff]
          rw [report_poll_of_not_ready fun s hs => found ⟨s, hs⟩,
            report_poll_of_not_ready fun s hs => found (finds.mpr ⟨s, hs⟩), over_eq]
    rw [report_eq]

end Run

/-! ### Alike elements -/

/-- Two elements that no observation tells apart. -/
structure Element.Alike (e e' : Element) : Prop where
  /-- Both are pending or both ready, -/
  isPending_eq : e.isPending = e'.isPending
  /-- with the same text, -/
  text?_eq : e.text? = e'.text?
  /-- the texts are the same in the end, whatever the outcomes of the channels are, -/
  value_eq : ∀ outcome, e.value outcome = e'.value outcome
  /-- and any run has the same reports, so it finds the text at the same poll. -/
  trace_eq : ∀ names events,
    (Run.start names e).trace events = (Run.start names e').trace events

theorem AwaitedAlike.symm {ds es : List Deferred} (h : AwaitedAlike ds es) : AwaitedAlike es ds :=
  ⟨h.eq_nil_iff.symm, fun polls inbox => (h.arrived_iff polls inbox).symm⟩

/-- Elements with the same text in the end are alike if they wait alike. -/
theorem Element.Alike.of_awaited {e e' : Element}
    (value_eq : ∀ outcome, e.value outcome = e'.value outcome)
    (awaited : AwaitedAlike e.awaited e'.awaited) : e.Alike e' := by
  have isPending_eq : e.isPending = e'.isPending := by
    rw [Bool.eq_iff_iff, isPending_iff, isPending_iff, ne_eq, ne_eq, awaited.eq_nil_iff]
  refine ⟨isPending_eq, ?_, value_eq, Run.trace_congr value_eq awaited⟩
  cases e with
  | ready s =>
    cases e' with
    | ready s' => exact congrArg some (value_eq fun _ => "")
    | pending d' => cases isPending_eq
  | pending d =>
    cases e' with
    | ready s' => cases isPending_eq
    | pending d' => rfl

/-! ### Props that read alike -/

/-- Two props with the same attributes whose contents have the same text in the end. -/
structure Props.ReadAlike (outcome : Nat → String) (p p' : Props) : Prop where
  attributes_eq : p.attributes = p'.attributes
  value_eq : p.value outcome = p'.value outcome

section Props

variable {outcome : Nat → String} {p p' : Props}

theorem Props.ReadAlike.refl (outcome : Nat → String) (p : Props) : p.ReadAlike outcome p :=
  ⟨rfl, rfl⟩

theorem AttributeExpr.eval_congr (h : p.attributes = p'.attributes) (a : AttributeExpr) :
    a.eval p = a.eval p' := by
  cases a with
  | value v => rfl
  | prop key => rw [eval, eval, Props.get?, Props.get?, h]

theorem Props.ReadAlike.insert (h : p.ReadAlike outcome p') (key : String) (v : AttributeValue) :
    (p.insert key v).ReadAlike outcome (p'.insert key v) := by
  unfold Props.insert
  split
  · exact ⟨h.attributes_eq, rfl⟩
  · refine ⟨?_, h.value_eq⟩
    simp only [h.attributes_eq]

theorem Props.ReadAlike.pushChild (h : p.ReadAlike outcome p') {c c' : Content}
    (hc : c.value outcome = c'.value outcome) :
    (p.pushChild c).ReadAlike outcome (p'.pushChild c') := by
  refine ⟨h.attributes_eq, ?_⟩
  rw [value_pushChild, value_pushChild, h.value_eq, hc]

theorem Props.ReadAlike.buildLiteral (h : p.ReadAlike outcome p') (form form' : ChildrenForm)
    (name : String) :
    (buildLiteral form name p).value outcome = (buildLiteral form' name p').value outcome := by
  have opening : openingTag name p = openingTag name p' := by
    rw [openingTag, openingTag, Props.serialize, Props.serialize, h.attributes_eq]
  rw [value_buildLiteral, value_buildLiteral, opening, h.value_eq]

end Props

/-! ### Records that read alike -/

namespace Record

/-- The text of the field that gives the content, if there is one. -/
def contentValue? (outcome : Nat → String) (fields : List Field) : Option String :=
  (fields.find? Field.isContent).map fun f => f.asContent.value outcome

/-- A record gives props that read as the pairs of its attributes and its content say. -/
theorem readAlike_toProps {outcome : Nat → String} {fields fields' : List Field}
    (pairs_eq : pairs fields = pairs fields')
    (content_eq : contentValue? outcome fields = contentValue? outcome fields') :
    (toProps fields).ReadAlike outcome (toProps fields') := by
  unfold contentValue? at content_eq
  rw [toProps_eq, toProps_eq, pairs_eq]
  cases h : fields.find? Field.isContent with
  | none =>
    rw [h, Option.map_none, eq_comm, Option.map_eq_none_iff] at content_eq
    rw [content_eq]
    exact Props.ReadAlike.refl outcome _
  | some f =>
    rw [h, Option.map_some, eq_comm, Option.map_eq_some_iff] at content_eq
    obtain ⟨f', hf', value_eq⟩ := content_eq
    rw [hf']
    exact ⟨rfl, value_eq.symm⟩

theorem pairs_cons (f : Field) (fields : List Field) :
    pairs (f :: fields) = pairs [f] ++ pairs fields := by
  rw [pairs, pairs, pairs, ← List.map_append, ← List.filter_append]
  rfl

theorem contentValue?_attribute (outcome : Nat → String) (d : Declaration) (v : AttributeValue)
    (fields : List Field) :
    contentValue? outcome (d.attribute v :: fields) = contentValue? outcome fields := by
  rw [contentValue?, contentValue?, List.find?_cons_of_neg]
  simp [Declaration.attribute, Field.isContent]

theorem contentValue?_content (outcome : Nat → String) (d : Declaration) (c : Content)
    (fields : List Field) : contentValue? outcome (d.content c :: fields) =
      if d.skip then contentValue? outcome fields else some (c.value outcome) := by
  unfold contentValue?
  cases h : d.skip with
  | true =>
    rw [List.find?_cons_of_neg (by simp [Declaration.content, Field.isContent, h])]
    rfl
  | false =>
    rw [List.find?_cons_of_pos (by simp [Declaration.content, Field.isContent, h])]
    rfl

/-- A field that gives the content is no attribute. -/
theorem pairs_content (d : Declaration) (c : Content) (fields : List Field) :
    pairs (d.content c :: fields) = pairs fields := by
  rw [pairs, pairs, List.filter_cons_of_neg]
  simp [Declaration.content, Field.isAttribute]

end Record

/-! ### Expressions -/

/-- When two values of a role read alike: for tags, when they build elements with the same
text from props that read alike. -/
def ReadAlike (outcome : Nat → String) : (r : Role) → (v w : r.Value) → Prop
  | .element, e, e' => e.value outcome = e'.value outcome
  | .tag, t, t' => ∀ form form' p p', Props.ReadAlike outcome p p' →
      (build form t p).value outcome = (build form' t' p').value outcome
  | .props, p, p' => p.ReadAlike outcome p'
  | .fields, fs, fs' => Record.pairs fs = Record.pairs fs' ∧
      Record.contentValue? outcome fs = Record.contentValue? outcome fs'
  | .content, c, c' => c.value outcome = c'.value outcome
  | .contents, cs, cs' => (Content.list cs).value outcome = (Content.list cs').value outcome

/-- **Evaluation.** In scopes that read alike an expression has values that read alike,
and leaves scopes that do. -/
theorem readAlike_eval (outcome : Nat → String) {r : Role} (e : Expr r) (scope scope' : Props)
    (h : scope.ReadAlike outcome scope') :
    ReadAlike outcome r (e.eval scope).1 (e.eval scope').1 ∧
      (e.eval scope).2.ReadAlike outcome (e.eval scope').2 := by
  induction e generalizing scope scope' with
  | build form tag props tag_ih props_ih =>
    obtain ⟨props_alike, scope_alike⟩ := props_ih scope scope' h
    obtain ⟨tag_alike, left_alike⟩ := tag_ih _ _ scope_alike
    exact ⟨tag_alike form form _ _ props_alike, left_alike⟩
  | givenElement e => exact ⟨rfl, h⟩
  | resolve c ih =>
    obtain ⟨c_alike, left_alike⟩ := ih scope scope' h
    refine ⟨?_, left_alike⟩
    simp only [Expr.eval, ReadAlike]
    rw [Content.value_resolve, Content.value_resolve]
    exact c_alike
  | sequence cs ih =>
    obtain ⟨cs_alike, left_alike⟩ := ih scope scope' h
    refine ⟨?_, left_alike⟩
    have resolved := fun cs : List Content => Content.value_resolve outcome (.list cs)
    exact (resolved _).trans (cs_alike.trans (resolved _).symm)
  | map f e ih =>
    obtain ⟨e_alike, left_alike⟩ := ih scope scope' h
    refine ⟨?_, left_alike⟩
    simp only [Expr.eval, ReadAlike]
    rw [Element.value_map, Element.value_map]
    exact congrArg f e_alike
  | literal name => exact ⟨fun form form' _ _ hp => hp.buildLiteral form form' name, h⟩
  | component label body ih => exact ⟨fun _ _ p p' hp => (ih p p' hp).1, h⟩
  | fragment =>
    refine ⟨fun form form' p p' hp => ?_, h⟩
    simp only [Expr.eval, build]
    rw [value_buildFragment, value_buildFragment, hp.value_eq]
  | givenProps p => exact ⟨Props.ReadAlike.refl outcome p, h⟩
  | forward => exact ⟨h, Props.ReadAlike.refl outcome _⟩
  | pairs ps =>
    refine ⟨?_, h⟩
    simp only [Expr.eval, ReadAlike, AttributeExpr.eval_congr h.attributes_eq]
    exact Props.ReadAlike.refl outcome _
  | ofFields fs ih =>
    obtain ⟨fs_alike, left_alike⟩ := ih scope scope' h
    exact ⟨Record.readAlike_toProps fs_alike.1 fs_alike.2, left_alike⟩
  | insert p key a ih =>
    obtain ⟨p_alike, left_alike⟩ := ih scope scope' h
    refine ⟨?_, left_alike⟩
    simp only [Expr.eval, ReadAlike, AttributeExpr.eval_congr left_alike.attributes_eq]
    exact p_alike.insert key _
  | setChildren p c p_ih c_ih =>
    obtain ⟨p_alike, scope_alike⟩ := p_ih scope scope' h
    obtain ⟨c_alike, left_alike⟩ := c_ih _ _ scope_alike
    exact ⟨⟨p_alike.attributes_eq, c_alike⟩, left_alike⟩
  | pushChild p c p_ih c_ih =>
    obtain ⟨p_alike, scope_alike⟩ := p_ih scope scope' h
    obtain ⟨c_alike, left_alike⟩ := c_ih _ _ scope_alike
    exact ⟨p_alike.pushChild c_alike, left_alike⟩
  | erase p key ih =>
    obtain ⟨p_alike, left_alike⟩ := ih scope scope' h
    exact ⟨⟨congrArg (Keyed.erase · key) p_alike.attributes_eq, p_alike.value_eq⟩, left_alike⟩
  | dropChildren p ih =>
    obtain ⟨p_alike, left_alike⟩ := ih scope scope' h
    exact ⟨⟨p_alike.attributes_eq, rfl⟩, left_alike⟩
  | noField => exact ⟨⟨rfl, rfl⟩, h⟩
  | attributeField d a others ih =>
    obtain ⟨others_alike, left_alike⟩ := ih scope scope' h
    refine ⟨?_, left_alike⟩
    simp only [Expr.eval, ReadAlike, AttributeExpr.eval_congr h.attributes_eq]
    refine ⟨?_, ?_⟩
    · rw [Record.pairs_cons, Record.pairs_cons _ (others.eval scope').1, others_alike.1]
    · rw [Record.contentValue?_attribute, Record.contentValue?_attribute]
      exact others_alike.2
  | contentField d c others c_ih others_ih =>
    obtain ⟨c_alike, scope_alike⟩ := c_ih scope scope' h
    obtain ⟨others_alike, left_alike⟩ := others_ih _ _ scope_alike
    refine ⟨?_, left_alike⟩
    simp only [Expr.eval, ReadAlike] at c_alike ⊢
    refine ⟨?_, ?_⟩
    · rw [Record.pairs_content, Record.pairs_content]
      exact others_alike.1
    · rw [Record.contentValue?_content, Record.contentValue?_content, c_alike, others_alike.2]
  | givenContent c => exact ⟨rfl, h⟩
  | list cs ih => exact ih scope scope' h
  | ofElement e ih =>
    obtain ⟨e_alike, left_alike⟩ := ih scope scope' h
    refine ⟨?_, left_alike⟩
    simp only [Expr.eval, ReadAlike]
    rw [Content.value_ofElement, Content.value_ofElement]
    exact e_alike
  | ofAttribute a =>
    refine ⟨?_, h⟩
    simp only [Expr.eval, ReadAlike, AttributeExpr.eval_congr h.attributes_eq]
  | escapedProp key =>
    refine ⟨?_, h⟩
    simp only [Expr.eval, ReadAlike, Props.getText?, Props.get?, h.attributes_eq]
  | slot => exact ⟨h.value_eq, ⟨h.attributes_eq, rfl⟩⟩
  | nil => exact ⟨rfl, h⟩
  | cons c others c_ih others_ih =>
    obtain ⟨c_alike, scope_alike⟩ := c_ih scope scope' h
    obtain ⟨others_alike, left_alike⟩ := others_ih _ _ scope_alike
    refine ⟨?_, left_alike⟩
    simp only [Expr.eval, ReadAlike] at c_alike others_alike ⊢
    simp only [Content.value_list, List.map_cons, String.join_cons] at others_alike ⊢
    rw [c_alike, others_alike]

/-- **Building.** What a tag stands for, in any scope, builds alike elements from props
with the same attributes whose contents have the same text in the end and wait alike. -/
theorem build_alike (tag : Expr .tag) (scope : Props) (form form' : ChildrenForm) {p p' : Props}
    (read : ∀ outcome, p.ReadAlike outcome p') (awaited : AwaitedAlike p.awaited p'.awaited) :
    (build form (tag.eval scope).1 p).Alike (build form' (tag.eval scope).1 p') := by
  have waits := (waits_eval tag scope scope.awaited (AwaitedAlike.refl _)).1
  have waits_p := waits form p p'.awaited awaited
  have waits_p' := waits form' p' p'.awaited (AwaitedAlike.refl _)
  refine Element.Alike.of_awaited (fun outcome => ?_) (waits_p.trans waits_p'.symm)
  exact (readAlike_eval outcome tag scope scope (Props.ReadAlike.refl outcome scope)).1 form form'
    p p' (read outcome)

end Markup
