/-
# Arrival

A deferred text has arrived when every leaf of it has: one that counts polls
when it was polled often enough before, one on a channel when the channel has
an outcome. A poll finds the text exactly if it has arrived
(`isSome_text?_poll`). Whatever a poll finds, what it leaves to be polled next
time arrives one poll earlier (`arrived_rest_poll`) and has the same text in the
end (`value_rest_poll`); so parts of a join that are ready and parts that are not
may stand side by side, at every depth, and the whole still arrives when its last
leaf does.

Key definitions: `Deferred.Arrived`, `Inbox.Extends`, `Inbox.Agrees`.
Key theorems: `Deferred.isSome_text?_poll`, `Deferred.arrived_rest_poll`,
`Deferred.value_rest_poll`.
-/
import Markup.Proofs.Settled

namespace Markup

/-- The outcomes of the channels that have one. -/
abbrev Inbox := Nat → Option String

namespace Inbox

/-- Every outcome of the one is an outcome of the other. -/
def Extends (later earlier : Inbox) : Prop := ∀ id s, earlier id = some s → later id = some s

/-- Every channel that has an outcome has the given one. -/
def Agrees (inbox : Inbox) (outcome : Nat → String) : Prop := ∀ id s, inbox id = some s → outcome id = s

theorem Extends.refl (inbox : Inbox) : Extends inbox inbox := fun _ _ h => h

theorem Extends.trans {a b c : Inbox} (h : Extends c b) (h' : Extends b a) : Extends c a :=
  fun id s hs => h id s (h' id s hs)

theorem Agrees.of_extends {later earlier : Inbox} {outcome : Nat → String} (h : Agrees later outcome)
    (he : Extends later earlier) : Agrees earlier outcome :=
  fun id s hs => h id s (he id s hs)

theorem agrees_getD (inbox : Inbox) : Agrees inbox fun id => (inbox id).getD "" := by
  intro id s h
  simp only [h, Option.getD_some]

end Inbox

namespace Deferred

mutual

/-- Whether all leaves have arrived, after so many polls and with the outcomes that
the channels have. -/
def Arrived (polls : Nat) (inbox : Inbox) : Deferred → Prop
  | .after n _ => n ≤ polls
  | .channel id => (inbox id).isSome
  | .map _ d => Arrived polls inbox d
  | .join parts => AllArrived polls inbox parts

/-- Whether all leaves of all parts have arrived. -/
def AllArrived (polls : Nat) (inbox : Inbox) : List Deferred → Prop
  | [] => True
  | d :: rest => Arrived polls inbox d ∧ AllArrived polls inbox rest

end

theorem allArrived_iff (polls : Nat) (inbox : Inbox) : ∀ parts : List Deferred,
    AllArrived polls inbox parts ↔ ∀ d ∈ parts, d.Arrived polls inbox
  | [] => by simp [AllArrived]
  | d :: rest => by rw [AllArrived, allArrived_iff polls inbox rest, List.forall_mem_cons]

theorem arrived_known (polls : Nat) (inbox : Inbox) (s : String) :
    (known s).Arrived polls inbox := by
  rw [known, Arrived]
  exact Nat.zero_le polls

end Deferred

/-! ### What a poll finds -/

namespace Poll

theorem texts?_eq_some_iff : ∀ (polls : List Poll) (ss : List String),
    texts? polls = some ss ↔ polls = ss.map Poll.ready
  | [], ss => by cases ss <;> simp [texts?]
  | .pending d :: rest, ss => by cases ss <;> simp [texts?]
  | .ready s :: rest, ss => by
    cases ss with
    | nil => simp [texts?]
    | cons t ss =>
      simp only [texts?, Option.map_eq_some_iff, List.map_cons, List.cons.injEq, Poll.ready.injEq]
      constructor
      · rintro ⟨us, hus, rfl, rfl⟩
        exact ⟨rfl, (texts?_eq_some_iff rest us).mp hus⟩
      · rintro ⟨rfl, h⟩
        exact ⟨ss, (texts?_eq_some_iff rest ss).mpr h, rfl, rfl⟩

theorem isSome_text?_map (f : String → String) (p : Poll) :
    (p.map f).text?.isSome = p.text?.isSome := by
  cases p <;> rfl

theorem isSome_texts?_iff : ∀ polls : List Poll,
    (texts? polls).isSome ↔ ∀ p ∈ polls, p.text?.isSome
  | [] => by simp [texts?]
  | .pending d :: rest => by simp [texts?, text?]
  | .ready s :: rest => by
    rw [texts?, Option.isSome_map, isSome_texts?_iff rest, List.forall_mem_cons]
    simp [text?]

theorem isSome_text?_join (polls : List Poll) :
    (join polls).text?.isSome = (texts? polls).isSome := by
  unfold join
  split <;> rename_i h <;> rw [h] <;> rfl

theorem arrived_rest_map (polls : Nat) (inbox : Inbox) (f : String → String) (p : Poll) :
    (p.map f).rest.Arrived polls inbox ↔ p.rest.Arrived polls inbox := by
  cases p with
  | ready s => simp only [map, rest, Deferred.Arrived]
  | pending d => rw [map, rest, rest, Deferred.Arrived]

theorem value_rest_map (outcome : Nat → String) (f : String → String) (p : Poll) :
    (p.map f).rest.value outcome = f (p.rest.value outcome) := by
  cases p with
  | ready s => simp only [map, rest, Deferred.value]
  | pending d => rw [map, rest, rest, Deferred.value]

/-- Parts that are ready are waited for no more, so a join is left with those that
are not. -/
theorem arrived_rest_join (polls : Nat) (inbox : Inbox) (ps : List Poll) :
    (join ps).rest.Arrived polls inbox ↔ ∀ p ∈ ps, p.rest.Arrived polls inbox := by
  unfold join
  split
  · rename_i ss h
    rw [(texts?_eq_some_iff ps ss).mp h]
    simp [rest, Deferred.Arrived]
  · rw [rest, Deferred.Arrived, Deferred.allArrived_iff]
    simp

theorem value_rest_join (outcome : Nat → String) (ps : List Poll) :
    (join ps).rest.value outcome = String.join (ps.map fun p => p.rest.value outcome) := by
  unfold join
  split
  · rename_i ss h
    rw [(texts?_eq_some_iff ps ss).mp h, rest, Deferred.value, List.map_map]
    congr 1
    simp [Function.comp_def, rest, Deferred.value]
  · rw [rest, Deferred.value, Deferred.values_eq_map, List.map_map]
    rfl

end Poll

namespace Deferred

mutual

/-- **A poll finds the text exactly if it has arrived.** -/
theorem isSome_text?_poll (inbox : Inbox) : ∀ d : Deferred,
    (d.poll inbox).text?.isSome ↔ d.Arrived 0 inbox
  | .after 0 s => by simp [poll, Poll.text?, Arrived]
  | .after (n + 1) s => by simp [poll, Poll.text?, Arrived]
  | .channel id => by
    rw [poll, Arrived]
    cases inbox id <;> simp [Poll.text?]
  | .map f d => by
    rw [poll, Poll.isSome_text?_map, Arrived]
    exact isSome_text?_poll inbox d
  | .join parts => by
    rw [poll, Poll.isSome_text?_join, Poll.isSome_texts?_iff, Arrived]
    exact isSome_text?_pollAll inbox parts

theorem isSome_text?_pollAll (inbox : Inbox) : ∀ parts : List Deferred,
    (∀ p ∈ pollAll inbox parts, p.text?.isSome) ↔ AllArrived 0 inbox parts
  | [] => by simp [pollAll, AllArrived]
  | d :: rest => by
    rw [pollAll, List.forall_mem_cons, isSome_text?_poll inbox d, isSome_text?_pollAll inbox rest,
      AllArrived]

end

mutual

/-- What a poll leaves arrives one poll earlier. -/
theorem arrived_rest_poll {inbox later : Inbox} (h : later.Extends inbox) (polls : Nat) :
    ∀ d : Deferred, (d.poll inbox).rest.Arrived polls later ↔ d.Arrived (polls + 1) later
  | .after 0 s => by simp [poll, Poll.rest, Arrived]
  | .after (n + 1) s => by simp [poll, Poll.rest, Arrived]
  | .channel id => by
    rw [poll]
    cases hs : inbox id with
    | none => simp only [Poll.rest, Arrived]
    | some s => simp [Poll.rest, Arrived, h id s hs]
  | .map f d => by
    rw [poll, Poll.arrived_rest_map, Arrived]
    exact arrived_rest_poll h polls d
  | .join parts => by
    rw [poll, Poll.arrived_rest_join, Arrived]
    exact arrived_rest_pollAll h polls parts

theorem arrived_rest_pollAll {inbox later : Inbox} (h : later.Extends inbox) (polls : Nat) :
    ∀ parts : List Deferred, (∀ p ∈ pollAll inbox parts, p.rest.Arrived polls later)
      ↔ AllArrived (polls + 1) later parts
  | [] => by simp [pollAll, AllArrived]
  | d :: rest => by
    rw [pollAll, List.forall_mem_cons, arrived_rest_poll h polls d,
      arrived_rest_pollAll h polls rest, AllArrived]

end

mutual

/-- What a poll leaves has the same text in the end. -/
theorem value_rest_poll {inbox : Inbox} {outcome : Nat → String} (h : inbox.Agrees outcome) :
    ∀ d : Deferred, (d.poll inbox).rest.value outcome = d.value outcome
  | .after 0 s => by simp only [poll, Poll.rest, value]
  | .after (n + 1) s => by simp only [poll, Poll.rest, value]
  | .channel id => by
    rw [poll]
    cases hs : inbox id with
    | none => rfl
    | some s => simp only [Poll.rest, value, h id s hs]
  | .map f d => by rw [poll, Poll.value_rest_map, value, value_rest_poll h d]
  | .join parts => by
    rw [poll, Poll.value_rest_join, value, values_rest_pollAll h parts]

theorem values_rest_pollAll {inbox : Inbox} {outcome : Nat → String} (h : inbox.Agrees outcome) :
    ∀ parts : List Deferred,
      (pollAll inbox parts).map (fun p => p.rest.value outcome) = values outcome parts
  | [] => rfl
  | d :: rest => by
    rw [pollAll, List.map_cons, value_rest_poll h d, values_rest_pollAll h rest, values]

end

end Deferred
end Markup
