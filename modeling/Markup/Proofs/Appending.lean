/-
# The content of props is an append log

Over any steps the content of props is what the last replacing step left, or what was
there from the start, followed by the children that were pushed since
(`Props.childLog`). The history says this by itself, while `Props.grow` rebuilds the
content in a form that depends on what it finds: nothing, a list, or any other content.
Whatever it finds, the leaves of the pushed child come behind those that are there
(`Props.leaves_grow`), so the leaves of the content keep up with the log step by step
(`Props.leaves_apply`), and over any steps (`Props.leaves_run`). A fragment of the props
and the body of a literal element then have the texts of the log, entry by entry, and are
pending if an entry is (`Props.build_childLog`).

Key definitions: `Props.Step.replacement?`, `Props.Step.pushed?`, `Props.childLog`.
Key theorems: `Props.leaves_apply`, `Props.leaves_run`, `Props.build_childLog`.
-/
import Mathlib.Data.List.DropRight
import Mathlib.Data.List.Induction
import Markup.Proofs.Leaves

namespace Markup
namespace Props

/-! ### The log -/

/-- What a step puts in place of the content, if it does so; taking the content puts
nothing there. -/
def Step.replacement? : Step → Option (Option Content)
  | .insert key v => if key = childrenKey then some (some (.ofAttribute v)) else none
  | .setChildren c => some (some c)
  | .takeChildren => some none
  | .pushChild _ => none
  | .erase _ | .get _ | .getText _ | .contains _ => none

/-- The child that a step pushes, if it does so. -/
def Step.pushed? : Step → Option Content
  | .pushChild c => some c
  | .insert _ _ | .setChildren _ | .takeChildren => none
  | .erase _ | .get _ | .getText _ | .contains _ => none

/-- What the last replacing step left, or what was there from the start. -/
def lastReplaced (start : Option Content) (steps : List Step) : Option Content :=
  (steps.filterMap Step.replacement?).getLast?.getD start

/-- The children that were pushed behind the last replacing step, in their order. -/
def pushedSince (steps : List Step) : List Content :=
  (steps.rtakeWhile fun s => s.replacement?.isNone).filterMap Step.pushed?

/-- What the content is after steps, child by child. -/
def childLog (start : Option Content) (steps : List Step) : List Content :=
  (lastReplaced start steps).toList ++ pushedSince steps

theorem lastReplaced_append (start : Option Content) (steps : List Step) (s : Step) :
    lastReplaced start (steps ++ [s]) = s.replacement?.getD (lastReplaced start steps) := by
  unfold lastReplaced
  rw [List.filterMap_append]
  cases h : s.replacement? with
  | none => simp [h]
  | some slot => simp [h]

theorem pushedSince_append (steps : List Step) (s : Step) :
    pushedSince (steps ++ [s]) =
      if s.replacement?.isNone then pushedSince steps ++ s.pushed?.toList else [] := by
  unfold pushedSince
  rw [List.rtakeWhile_concat]
  split
  · rw [List.filterMap_append]
    cases h : s.pushed? <;> simp [h]
  · rfl

/-- A replacing step starts the log again, any other appends what it pushes. -/
theorem childLog_append (start : Option Content) (steps : List Step) (s : Step) :
    childLog start (steps ++ [s]) = match s.replacement? with
      | some slot => slot.toList
      | none => childLog start steps ++ s.pushed?.toList := by
  unfold childLog
  rw [lastReplaced_append, pushedSince_append]
  cases s.replacement? with
  | none => simp
  | some slot => simp

/-! ### The leaves keep up with the log -/

/-- **A step.** It replaces the leaves or appends those of what it pushes. -/
theorem leaves_apply (p : Props) (s : Step) :
    (p.apply s).leaves = match s.replacement? with
      | some slot => (slot.getD .null).leaves
      | none => p.leaves ++ s.pushed?.toList.flatMap Content.leaves := by
  cases s with
  | insert key v =>
    by_cases h : key = childrenKey
    · simp only [apply, insert, Step.replacement?, if_pos h]
      rfl
    · simp only [apply, insert, Step.replacement?, Step.pushed?, if_neg h]
      exact (List.append_nil _).symm
  | setChildren c => rfl
  | takeChildren => rfl
  | pushChild c =>
    have pushed : [c].flatMap Content.leaves = c.leaves := List.flatMap_singleton _ _
    simp only [apply, Step.replacement?, Step.pushed?, Option.toList_some, pushed]
    exact leaves_pushChild p c
  | erase key | get key | getText key | contains key => exact (List.append_nil _).symm

theorem run_append (p : Props) (steps : List Step) (s : Step) :
    p.run (steps ++ [s]) = (p.run steps).apply s := by
  rw [run, List.foldl_append]
  rfl

/-- **Any steps.** The leaves of the content are those of the log. -/
theorem leaves_run (p : Props) (steps : List Step) :
    (p.run steps).leaves = (childLog p.children steps).flatMap Content.leaves := by
  have slot_leaves : ∀ slot : Option Content,
      (slot.getD .null).leaves = slot.toList.flatMap Content.leaves := by
    intro slot
    cases slot with
    | none => rfl
    | some c => exact (List.flatMap_singleton _ _).symm
  -- the log and the content change at their ends, so the last step is taken off
  induction steps using List.reverseRecOn with
  | nil =>
    have start : childLog p.children [] = p.children.toList := List.append_nil _
    rw [start]
    exact slot_leaves p.children
  | append_singleton steps s ih =>
    rw [run_append, leaves_apply, childLog_append]
    cases s.replacement? with
    | none => simp only [ih, List.flatMap_append]
    | some slot => exact slot_leaves slot

/-! ### What is built from it -/

/-- The content has the texts of the log, entry by entry. -/
theorem value_run (outcome : Nat → String) (p : Props) (steps : List Step) :
    (p.run steps).value outcome
      = String.join ((childLog p.children steps).map fun c => c.resolve.value outcome) := by
  rw [value, leaves_run, Leaf.joined, List.map_flatMap]
  induction childLog p.children steps with
  | nil => rfl
  | cons c log ih =>
    rw [List.flatMap_cons, String.join_append, ih, List.map_cons, String.join_cons,
      Content.value_resolve]
    rfl

/-- The content waits for something exactly if an entry of the log is pending. -/
theorem awaited_run_iff (p : Props) (steps : List Step) :
    (p.run steps).awaited ≠ [] ↔ ∃ c ∈ childLog p.children steps, c.resolve.isPending = true := by
  have entry : ∀ c : Content, c.resolve.isPending = true ↔ c.leaves.flatMap Leaf.awaited ≠ [] := by
    intro c
    rw [Content.isPending_resolve, Content.isPending_iff, Content.awaited_eq]
  rw [awaited_eq, leaves_run, List.flatMap_assoc, ne_eq, List.flatMap_eq_nil_iff]
  simp only [not_forall, exists_prop, entry, ne_eq]

/-- An element that waits like the content is pending exactly if an entry of the log is. -/
theorem isPending_iff_of_alike {e : Element} {p : Props} {steps : List Step}
    (waits : AwaitedAlike e.awaited (p.run steps).awaited) :
    e.isPending = true ↔ ∃ c ∈ childLog p.children steps, c.resolve.isPending = true := by
  rw [Element.isPending_iff, ne_eq, waits.eq_nil_iff]
  exact awaited_run_iff p steps

/-- **The content is an append log.** After any steps

* a fragment has the texts of the log one behind the other, in the order of the steps, and
  is pending exactly if an entry of the log is;
* so has the body of a literal element that is not void, between its tags;
* steps that neither replace the content nor push a child leave it as it is, as those on
  attributes do;
* pushing a child keeps every item of the content in its place and appends the child as
  the last one, and its leaves behind those that are there. -/
theorem build_childLog (p : Props) (steps : List Step) :
    (∀ form : ChildrenForm,
      (∀ outcome, (build form .fragment (p.run steps)).value outcome
        = String.join ((childLog p.children steps).map fun c => c.resolve.value outcome)) ∧
      ((build form .fragment (p.run steps)).isPending = true ↔
        ∃ c ∈ childLog p.children steps, c.resolve.isPending = true)) ∧
    (∀ (form : ChildrenForm) (name : String), Vocabulary.isVoid name = false →
      (∀ outcome, (build form (.name name) (p.run steps)).value outcome
        = openingTag name (p.run steps) ++ ">"
          ++ String.join ((childLog p.children steps).map fun c => c.resolve.value outcome)
          ++ closingTag name) ∧
      ((build form (.name name) (p.run steps)).isPending = true ↔
        ∃ c ∈ childLog p.children steps, c.resolve.isPending = true)) ∧
    (∀ s : Step, s.replacement? = none → s.pushed? = none →
      ((p.run steps).apply s).children = (p.run steps).children) ∧
    ∀ c, items ((p.run steps).pushChild c).children = items (p.run steps).children ++ [c] ∧
      ((p.run steps).pushChild c).leaves = (p.run steps).leaves ++ c.leaves := by
  refine ⟨fun form => ⟨fun outcome => ?_, ?_⟩, fun form name hvoid => ⟨fun outcome => ?_, ?_⟩,
    fun s replaces pushes => ?_, fun c => ⟨?_, leaves_pushChild _ c⟩⟩
  · rw [build, value_buildFragment, value_run]
  · exact isPending_iff_of_alike (buildFragment_awaited _)
  · rw [build, value_buildLiteral, hvoid, if_neg Bool.false_ne_true, value_run]
  · have waits := buildLiteral_awaited form name (p.run steps)
    rw [hvoid, if_neg Bool.false_ne_true] at waits
    exact isPending_iff_of_alike waits
  · cases s with
    | insert key v =>
      have hkey : key ≠ childrenKey := by
        rintro rfl
        cases replaces
      rw [apply, insert, if_neg hkey]
    | setChildren c | takeChildren => cases replaces
    | pushChild c => cases pushes
    | erase key | get key | getText key | contains key => rfl
  · rw [pushChild, grow_eq]
    rfl

/-- What is pushed onto absent content stands between the tags, around a step on an
attribute. -/
theorem build_childLog_push :
    (build .any (.name "p") (empty.run [.setChildren .null, .pushChild (.text "a"),
      .insert "id" (.text "x"), .pushChild (.list [.number (.int 1)])])).value (fun _ => "")
      = "<p id='x'>a1</p>" :=
  ((build_childLog empty _).2.1 .any "p" (by decide)).1 _ |>.trans (by decide +kernel)

end Props
end Markup
