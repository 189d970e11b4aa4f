/-
# Schedules

Channels are known by a name. Opening a channel under a name that has a sender
drops that sender; a sender is used up by sending or by being dropped, and a
dropped one delivers the empty text. A run of a deferred text is a sequence of
polls, sends and drops in any order, each with its report; after a poll has
found the text, polling again reports that the run is over.

Key definitions: `Channels`, `Channels.create`, `Event`, `Run.step`, `Run.trace`.
-/
import Markup.Deferred
import Markup.Keyed

namespace Markup

/-- The channels opened so far. -/
structure Channels where
  /-- How many channels were opened; they are numbered in that order. -/
  opened : Nat
  /-- The channels that have a sender, by name. -/
  senders : List (String × Nat)
  /-- The outcomes of the channels whose sender was used up. -/
  outcomes : List (Nat × String)

namespace Channels

/-- No channel. -/
def empty : Channels := ⟨0, [], []⟩

/-- The outcome of a channel, if it has one. -/
def inbox (c : Channels) (id : Nat) : Option String := c.outcomes.lookup id

/-- The channels after the sender of a name was used up with the given outcome,
if the name has one. -/
def deliver? (c : Channels) (name text : String) : Option Channels :=
  (Keyed.find? c.senders name).map fun id =>
    { c with senders := Keyed.erase c.senders name, outcomes := (id, text) :: c.outcomes }

/-- A new channel under a name; a sender that the name had is dropped. -/
def create (c : Channels) (name : String) : Nat × Channels :=
  let c := (c.deliver? name "").getD c
  (c.opened, { c with opened := c.opened + 1, senders := Keyed.insert c.senders name c.opened })

end Channels

/-- What can happen to a run. -/
inductive Event where
  | poll
  | send (name text : String)
  | drop (name : String)

/-- What is reported of an event. -/
inductive Report where
  /-- The poll found the text. -/
  | ready (text : String)
  /-- The poll found nothing yet. -/
  | pending
  /-- An earlier poll had found the text. -/
  | over
  /-- Whether the name had a sender to send with. -/
  | sent (done : Bool)
  /-- Whether the name had a sender to drop. -/
  | dropped (done : Bool)
deriving DecidableEq

/-- A deferred text that is being waited for, with its channels. -/
structure Run where
  channels : Channels
  /-- What is still to be waited for, until a poll has found the text. -/
  task : Option Deferred

namespace Run

/-- One event. -/
def step (r : Run) : Event → Run × Report
  | .poll => match r.task with
    | none => (r, .over)
    | some d => match d.poll r.channels.inbox with
      | .ready s => ({ r with task := none }, .ready s)
      | .pending d' => ({ r with task := some d' }, .pending)
  | .send name text => match r.channels.deliver? name text with
    | some c => ({ r with channels := c }, .sent true)
    | none => (r, .sent false)
  | .drop name => match r.channels.deliver? name "" with
    | some c => ({ r with channels := c }, .dropped true)
    | none => (r, .dropped false)

/-- The reports of a sequence of events. -/
def trace (r : Run) : List Event → List Report
  | [] => []
  | e :: es => (r.step e).2 :: trace (r.step e).1 es

end Run
end Markup
