/-
# Announcing content makes no difference

An element may be told that its content is a list, and then takes a path of its own for
it. Both paths build the same (`build_any`), whatever the content is. So in an expression
of any depth every announcement may be changed, in the bodies of components too: what is
left when all announcements are forgotten (`Expr.unannounced`) evaluates as the expression
does, by induction on it, and expressions that differ in nothing else are told apart by no
observation: not by whether they are ready, nor by their texts, nor by the reports of any
run.

Key definitions: `Expr.unannounced`.
Key theorems: `build_any`, `Expr.eval_unannounced`, `observations_eq_of_unannounced`.
-/
import Markup.Proofs.Completion

namespace Markup

/-- What is built does not depend on how the content is announced. -/
theorem build_any (form : ChildrenForm) (t : Tag) (p : Props) : build form t p = build .any t p := by
  cases t with
  | name s => rw [build, build, buildLiteral_eq, buildLiteral_eq]
  | component c => rfl
  | fragment => rfl

/-- An expression without what it says of the form of content, in the bodies of its
components too. -/
def Expr.unannounced : {r : Role} → Expr r → Expr r
  | _, .build _ tag props => .build .any tag.unannounced props.unannounced
  | _, .givenElement e => .givenElement e
  | _, .resolve c => .resolve c.unannounced
  | _, .sequence cs => .sequence cs.unannounced
  | _, .map f e => .map f e.unannounced
  | _, .literal name => .literal name
  | _, .component label body => .component label body.unannounced
  | _, .fragment => .fragment
  | _, .givenProps p => .givenProps p
  | _, .forward => .forward
  | _, .pairs ps => .pairs ps
  | _, .ofFields fs => .ofFields fs.unannounced
  | _, .insert p key a => .insert p.unannounced key a
  | _, .setChildren p c => .setChildren p.unannounced c.unannounced
  | _, .pushChild p c => .pushChild p.unannounced c.unannounced
  | _, .erase p key => .erase p.unannounced key
  | _, .dropChildren p => .dropChildren p.unannounced
  | _, .noField => .noField
  | _, .attributeField d a others => .attributeField d a others.unannounced
  | _, .contentField d c others => .contentField d c.unannounced others.unannounced
  | _, .givenContent c => .givenContent c
  | _, .list cs => .list cs.unannounced
  | _, .ofElement e => .ofElement e.unannounced
  | _, .ofAttribute a => .ofAttribute a
  | _, .escapedProp key => .escapedProp key
  | _, .slot => .slot
  | _, .nil => .nil
  | _, .cons c others => .cons c.unannounced others.unannounced

/-- **Evaluation.** An expression has the same value, and leaves the same scope, when its
announcements are forgotten. -/
theorem Expr.eval_unannounced {r : Role} (e : Expr r) (scope : Props) :
    e.unannounced.eval scope = e.eval scope := by
  induction e generalizing scope with
  | build form tag props tag_ih props_ih =>
    simp only [unannounced, eval, props_ih, tag_ih]
    rw [build_any form]
  | component label body ih =>
    -- the same function of the props
    have body_eq : body.unannounced.eval = body.eval := funext ih
    simp only [unannounced, eval, body_eq]
  | resolve _ ih | sequence _ ih | map _ _ ih | ofFields _ ih | insert _ _ _ ih | erase _ _ ih
  | dropChildren _ ih | attributeField _ _ _ ih | list _ ih | ofElement _ ih =>
    simp only [unannounced, eval, ih]
  | setChildren _ _ first_ih second_ih | pushChild _ _ first_ih second_ih
  | contentField _ _ _ first_ih second_ih | cons _ _ first_ih second_ih =>
    simp only [unannounced, eval, first_ih, second_ih]
  | givenElement _ | literal _ | fragment | givenProps _ | forward | pairs _ | noField
  | givenContent _ | ofAttribute _ | escapedProp _ | slot | nil => rfl

/-- **No observation.** Two expressions that differ only in their announcements build, in
every scope, elements of which

* both are pending or both ready, with the same text;
* the texts are the same in the end, whatever the outcomes of the channels are;
* any run, over any channels and events, has the same reports, so it finds the text at
  the same poll. -/
theorem observations_eq_of_unannounced {e e' : Expr .element} (h : e.unannounced = e'.unannounced)
    (scope : Props) :
    (e.eval scope).1.isPending = (e'.eval scope).1.isPending ∧
    (e.eval scope).1.text? = (e'.eval scope).1.text? ∧
    (∀ outcome, (e.eval scope).1.value outcome = (e'.eval scope).1.value outcome) ∧
    ∀ names events, (Run.start names (e.eval scope).1).trace events
      = (Run.start names (e'.eval scope).1).trace events := by
  have eval_eq : e.eval scope = e'.eval scope := by
    rw [← e.eval_unannounced, h, e'.eval_unannounced]
  rw [eval_eq]
  exact ⟨rfl, rfl, fun _ => rfl, fun _ _ => rfl⟩

/-- Announcing the content of a component in its body instead of at its call leaves the
run as it is. -/
theorem observations_eq_component :
    (Run.start ["a"] (Expr.build .sequence (.component none (.build .any (.literal "p") .forward))
        (.givenProps ⟨[], some (.list [.pending (.channel 0)])⟩)).value).trace
      [.poll, .send "a" "x", .poll] = [.pending, .sent true, .ready "<p>x</p>"] ∧
    (Run.start ["a"] (Expr.build .sequence (.component none (.build .any (.literal "p") .forward))
        (.givenProps ⟨[], some (.list [.pending (.channel 0)])⟩)).value).trace
      [.poll, .send "a" "x", .poll] =
    (Run.start ["a"] (Expr.build .any (.component none (.build .sequence (.literal "p") .forward))
        (.givenProps ⟨[], some (.list [.pending (.channel 0)])⟩)).value).trace
      [.poll, .send "a" "x", .poll] :=
  ⟨by decide +kernel, (observations_eq_of_unannounced rfl .empty).2.2.2 ["a"] _⟩

end Markup
