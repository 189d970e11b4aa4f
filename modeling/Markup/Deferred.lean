/-
# Deferred texts

A deferred text is one that is not known yet: it becomes ready after a number of
polls, or when a channel delivers it, or it is made of other deferred texts, by
a function or by joining them in their order. Polling asks every part that is
not ready once; parts that are ready stay so. `value` is the text that results
in the end, whatever the order in which the parts become ready.

Key definitions: `Deferred`, `Deferred.poll`, `Deferred.value`.
-/
namespace Markup

/-- A text that may not be known yet. -/
inductive Deferred where
  /-- Known after this many polls. -/
  | after (polls : Nat) (text : String)
  /-- Known when the channel has an outcome. -/
  | channel (id : Nat)
  /-- A function of a deferred text. -/
  | map (f : String → String) (d : Deferred)
  /-- Deferred texts one behind the other. -/
  | join (parts : List Deferred)

/-- What a poll finds: the text, or what is still to be waited for. -/
inductive Poll where
  | ready (text : String)
  | pending (rest : Deferred)

namespace Poll

/-- The text, if it is ready. -/
def text? : Poll → Option String
  | .ready s => some s
  | .pending _ => none

/-- What to poll next time: a text that is ready stays ready. -/
def rest : Poll → Deferred
  | .ready s => .after 0 s
  | .pending d => d

/-- A function applied to what a poll finds. -/
def map (f : String → String) : Poll → Poll
  | .ready s => .ready (f s)
  | .pending d => .pending (.map f d)

/-- The texts of all polls, if all are ready. -/
def texts? : List Poll → Option (List String)
  | [] => some []
  | .ready s :: rest => (texts? rest).map (s :: ·)
  | .pending _ :: _ => none

/-- The join of what the polls of its parts find. -/
def join (polls : List Poll) : Poll :=
  match texts? polls with
  | some ss => .ready (String.join ss)
  | none => .pending (.join (polls.map rest))

end Poll

namespace Deferred

/-- A text that is known. -/
def known (s : String) : Deferred := .after 0 s

mutual

/-- One poll, where `inbox` holds the outcomes of the channels that have one. -/
def poll (inbox : Nat → Option String) : Deferred → Poll
  | .after 0 s => .ready s
  | .after (n + 1) s => .pending (.after n s)
  | .channel id => match inbox id with
    | some s => .ready s
    | none => .pending (.channel id)
  | .map f d => (poll inbox d).map f
  | .join parts => Poll.join (pollAll inbox parts)

/-- One poll of each part. -/
def pollAll (inbox : Nat → Option String) : List Deferred → List Poll
  | [] => []
  | d :: rest => poll inbox d :: pollAll inbox rest

end

mutual

/-- The text that results when each channel has its outcome. -/
def value (outcome : Nat → String) : Deferred → String
  | .after _ s => s
  | .channel id => outcome id
  | .map f d => f (value outcome d)
  | .join parts => String.join (values outcome parts)

/-- The texts that result from each part. -/
def values (outcome : Nat → String) : List Deferred → List String
  | [] => []
  | d :: rest => value outcome d :: values outcome rest

end

end Deferred
end Markup
