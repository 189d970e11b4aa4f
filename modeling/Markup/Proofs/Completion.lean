/-
# The order of completion

A run polls an element again and again, while outcomes come over channels between
the polls. Every channel has at most one outcome: the text that is sent first, or
the empty text if its sender is dropped first or its name is taken by a channel
opened later (`inboxAfter`). That is what the channels of a run hold after any
events (`Channels.Tracks`). What is still to be waited for then relates to the element
as it was built (`Follows`): it arrives as many polls earlier as there have been, and
has the same text in the end. So a poll finds the text exactly when every survivor
has arrived, the text is that of the expression with each outcome in its place,
and the order of the events is lost in it.

Key definitions: `inboxAfter`, `Channels.Tracks`, `Run.after`, `Follows`.
Key theorems: `Channels.tracks_ofNames`, `follows_after`, `poll_ready_iff`.
-/
import Mathlib.Data.List.Induction
import Markup.Schedule
import Markup.Proofs.Survivors

namespace Markup

/-! ### Outcomes -/

/-- The outcome that an event gives to the channel that has a sender under the name. -/
def Event.outcome? (name : String) : Event → Option String
  | .poll => none
  | .send n text => if n = name then some text else none
  | .drop n => if n = name then some "" else none

/-- The outcomes of the channels opened under the names, in that order, after the
events: that of the first event on its name, unless a later channel took the name. -/
def inboxAfter (names : List String) (es : List Event) : Inbox := fun id =>
  names[id]?.bind fun name =>
    if name ∈ names.drop (id + 1) then some "" else es.findSome? (Event.outcome? name)

/-- The channels opened under the names, in that order. -/
def Channels.ofNames (names : List String) : Channels :=
  names.foldl (fun c name => (c.create name).2) .empty

/-- The number of polls among events. -/
def pollCount (es : List Event) : Nat :=
  es.countP fun
    | .poll => true
    | .send _ _ | .drop _ => false

theorem pollCount_poll (es : List Event) : pollCount (es ++ [.poll]) = pollCount es + 1 := by
  simp [pollCount]

theorem inboxAfter_append (names : List String) (es more : List Event) (id : Nat) :
    inboxAfter names (es ++ more) id = (inboxAfter names es id).or
      (names[id]?.bind fun name => more.findSome? (Event.outcome? name)) := by
  unfold inboxAfter
  cases names[id]? with
  | none => rfl
  | some name =>
    simp only [Option.bind_some, List.findSome?_append]
    split <;> rfl

/-- What has an outcome keeps it. -/
theorem inboxAfter_extends (names : List String) (es more : List Event) :
    Inbox.Extends (inboxAfter names (es ++ more)) (inboxAfter names es) := by
  intro id s h
  rw [inboxAfter_append, h, Option.some_or]

/-- A poll gives no outcome. -/
theorem inboxAfter_poll (names : List String) (es : List Event) :
    inboxAfter names (es ++ [.poll]) = inboxAfter names es := by
  funext id
  rw [inboxAfter_append]
  cases names[id]? <;> simp [Event.outcome?]

/-- A text that is sent, or the empty text of a drop, is the outcome of the channels of
its name that have none. -/
theorem inboxAfter_delivery (names : List String) (es : List Event) {e : Event} {name text : String}
    (he : ∀ n, e.outcome? n = if name = n then some text else none) (id : Nat) :
    inboxAfter names (es ++ [e]) id = (inboxAfter names es id).or
      (if names[id]? = some name then some text else none) := by
  rw [inboxAfter_append]
  cases names[id]? with
  | none => rfl
  | some n =>
    simp only [Option.bind_some, List.findSome?_cons, List.findSome?_nil, he n, Option.some.injEq]
    by_cases hn : name = n
    · rw [if_pos hn, if_pos hn.symm]
    · rw [if_neg hn, if_neg fun h => hn h.symm]

/-- A channel opened under a name ends the one that had it. -/
theorem inboxAfter_open (names : List String) (name : String) (id : Nat) :
    inboxAfter (names ++ [name]) [] id = (inboxAfter names [] id).or
      (if names[id]? = some name then some "" else none) := by
  unfold inboxAfter
  rcases Nat.lt_trichotomy id names.length with hlt | rfl | hgt
  · rw [List.getElem?_append_left hlt, List.getElem?_eq_getElem hlt, List.drop_append_of_le_length hlt]
    simp only [Option.bind_some, List.mem_append, List.mem_singleton, List.findSome?_nil,
      Option.some.injEq]
    by_cases later : names[id] ∈ names.drop (id + 1)
    · simp [later]
    · simp [later]
  · simp
  · rw [List.getElem?_eq_none (by simp; omega), List.getElem?_eq_none (by omega)]
    rfl

namespace Channels

/-- When channels are those opened under the names and have the outcomes: a name has
the sender of a channel exactly if the channel was opened under it and has no outcome. -/
structure Tracks (names : List String) (outcome : Inbox) (c : Channels) : Prop where
  opened_eq : c.opened = names.length
  nodup : (Keyed.keys c.senders).Nodup
  find?_iff : ∀ name id, Keyed.find? c.senders name = some id ↔
    names[id]? = some name ∧ outcome id = none
  inbox_eq : ∀ id, c.inbox id = outcome id

/-- The outcomes after a text was delivered under a name. -/
def delivered (names : List String) (outcome : Inbox) (name text : String) : Inbox := fun id =>
  (outcome id).or (if names[id]? = some name then some text else none)

/-- A channel to which a name does not send keeps its outcome. -/
theorem Tracks.delivered_eq {names : List String} {outcome : Inbox} {c : Channels}
    (h : c.Tracks names outcome) {name : String} {id : Nat}
    (hs : Keyed.find? c.senders name ≠ some id) (text : String) :
    delivered names outcome name text id = outcome id := by
  cases ho : outcome id with
  | some s => rw [delivered, ho, Option.some_or]
  | none =>
    have other : names[id]? ≠ some name := fun hn => hs ((h.find?_iff name id).mpr ⟨hn, ho⟩)
    rw [delivered, ho, if_neg other, Option.or_none]

/-- **Delivery.** Using up the sender of a name settles the one channel that it sends to. -/
theorem Tracks.deliver {names : List String} {outcome : Inbox} {c : Channels}
    (h : c.Tracks names outcome) (name text : String) :
    ((c.deliver? name text).getD c).Tracks names (delivered names outcome name text) := by
  unfold deliver?
  cases hs : Keyed.find? c.senders name with
  | none =>
    have same : delivered names outcome name text = outcome :=
      funext fun id => h.delivered_eq (by rw [hs]; nofun) text
    rw [same]
    exact h
  | some sender =>
    obtain ⟨sender_name, sender_open⟩ := (h.find?_iff name sender).mp hs
    refine ⟨h.opened_eq, Keyed.nodup_keys_erase h.nodup name, fun n id => ?_, fun id => ?_⟩
    · simp only [Option.map_some, Option.getD_some]
      by_cases hn : n = name
      · subst hn
        rw [Keyed.find?_erase_self h.nodup]
        constructor
        · intro none_eq
          cases none_eq
        · rintro ⟨id_name, none_eq⟩
          rw [delivered, if_pos id_name, Option.or_eq_none_iff] at none_eq
          cases none_eq.2
      · rw [Keyed.find?_erase_of_ne _ hn, h.find?_iff]
        refine and_congr_right fun id_name => ?_
        rw [delivered, id_name, if_neg fun e => hn (Option.some.inj e), Option.or_none]
    · show ((sender, text) :: c.outcomes).lookup id = _
      by_cases hid : id = sender
      · subst hid
        rw [List.lookup_cons_self, delivered, sender_open, sender_name, if_pos rfl, Option.none_or]
      · rw [h.delivered_eq (by rw [hs]; exact fun e => hid (Option.some.inj e).symm),
          List.lookup_cons, beq_false_of_ne hid]
        exact h.inbox_eq id

/-- **Opening.** A new channel ends the one that had its name. -/
theorem Tracks.create {names : List String} {outcome : Inbox} {c : Channels}
    (h : c.Tracks names outcome) (fresh : outcome names.length = none) (name : String) :
    (c.create name).2.Tracks (names ++ [name]) (delivered names outcome name "") := by
  have ended := h.deliver name ""
  have unopened : delivered names outcome name "" names.length = none := by
    rw [delivered, fresh, List.getElem?_eq_none (Nat.le_refl _), if_neg (by nofun),
      Option.or_none]
  unfold Channels.create
  generalize (c.deliver? name "").getD c = c' at ended
  refine ⟨?_, Keyed.nodup_keys_insert ended.nodup name _, fun n id => ?_, ended.inbox_eq⟩
  · simp only
    rw [ended.opened_eq, List.length_append, List.length_singleton]
  · simp only
    by_cases hn : n = name
    · subst hn
      rw [Keyed.find?_insert_self, ended.opened_eq]
      constructor
      · intro e
        cases e
        exact ⟨List.getElem?_concat_length, unopened⟩
      · rintro ⟨id_name, none_eq⟩
        by_contra hne
        rcases Nat.lt_or_gt_of_ne fun e => hne (congrArg some e) with hgt | hlt
        · rw [List.getElem?_eq_none (by simp; omega)] at id_name
          cases id_name
        · rw [List.getElem?_append_left hlt] at id_name
          rw [delivered, if_pos id_name, Option.or_eq_none_iff] at none_eq
          cases none_eq.2
    · rw [Keyed.find?_insert_of_ne _ _ hn, ended.find?_iff]
      refine and_congr_left fun _ => ?_
      rcases Nat.lt_trichotomy id names.length with hlt | rfl | hgt
      · rw [List.getElem?_append_left hlt]
      · rw [List.getElem?_eq_none (Nat.le_refl _), List.getElem?_concat_length, Option.some.injEq]
        exact ⟨fun e => (nomatch e), fun e => absurd e.symm hn⟩
      · rw [List.getElem?_eq_none (by omega), List.getElem?_eq_none (by simp; omega)]

/-- Channels that were opened have the outcomes that opening gives. -/
theorem tracks_ofNames (names : List String) : (ofNames names).Tracks names (inboxAfter names []) := by
  induction names using List.reverseRecOn with
  | nil =>
    refine ⟨rfl, List.nodup_nil, fun name id => ?_, fun id => rfl⟩
    simp [ofNames, empty, Keyed.find?]
  | append_singleton names name ih =>
    have fresh : inboxAfter names [] names.length = none := by
      rw [inboxAfter, List.getElem?_eq_none (Nat.le_refl _), Option.bind_none]
    have opened : inboxAfter (names ++ [name]) [] = delivered names (inboxAfter names []) name "" :=
      funext (inboxAfter_open names name)
    rw [opened, ofNames, List.foldl_append]
    exact ih.create fresh name

end Channels

/-! ### Runs -/

namespace Run

/-- An element that is waited for, with the channels opened under the names. -/
def start (names : List String) (e : Element) : Run := ⟨Channels.ofNames names, some e.deferred⟩

/-- A run after events. -/
def after (r : Run) (es : List Event) : Run := es.foldl (fun r e => (r.step e).1) r

theorem after_append (r : Run) (es : List Event) (e : Event) :
    r.after (es ++ [e]) = ((r.after es).step e).1 := by
  rw [after, List.foldl_append]
  rfl

theorem trace_append (r : Run) (es : List Event) (e : Event) :
    r.trace (es ++ [e]) = r.trace es ++ [((r.after es).step e).2] := by
  induction es generalizing r with
  | nil => rfl
  | cons first rest ih => rw [List.cons_append, trace, trace, ih, List.cons_append]; rfl

end Run

/-- How a run, after events and with their reports, relates to the deferred text that it
started with. -/
structure Follows (names : List String) (d : Deferred) (es : List Event) (reports : List Report)
    (r : Run) : Prop where
  tracks : r.channels.Tracks names (inboxAfter names es)
  /-- The run is over when a poll has found the text. -/
  over_iff : r.task = none ↔ ∃ s, .ready s ∈ reports
  /-- What is left arrives as many polls earlier as there were. -/
  arrived_iff : ∀ rest, r.task = some rest → ∀ polls later, later.Extends (inboxAfter names es) →
    (rest.Arrived polls later ↔ d.Arrived (polls + pollCount es) later)
  /-- What is left has the same text in the end. -/
  value_eq : ∀ rest, r.task = some rest → ∀ outcome, (inboxAfter names es).Agrees outcome →
    rest.value outcome = d.value outcome
  /-- What was found is the text. -/
  found : ∀ s, .ready s ∈ reports → ∀ outcome, (inboxAfter names es).Agrees outcome →
    s = d.value outcome

namespace Follows

variable {names : List String} {d : Deferred} {es : List Event} {reports : List Report} {r : Run}

/-- A send or a drop delivers a text, if it does anything, and leaves what is waited for
as it is. -/
theorem deliver (h : Follows names d es reports r) (e : Event) (name text : String)
    (report : Bool → Report)
    (hstep : r.step e = match r.channels.deliver? name text with
      | some c => ({ r with channels := c }, report true)
      | none => (r, report false))
    (he : ∀ n, e.outcome? n = if name = n then some text else none)
    (hpolls : pollCount (es ++ [e]) = pollCount es) (hreport : ∀ done s, report done ≠ .ready s) :
    Follows names d (es ++ [e]) (reports ++ [(r.step e).2]) (r.step e).1 := by
  have extends_es := inboxAfter_extends names es [e]
  have channels_eq : (r.step e).1.channels = (r.channels.deliver? name text).getD r.channels := by
    rw [hstep]
    cases r.channels.deliver? name text <;> rfl
  have task_eq : (r.step e).1.task = r.task := by
    rw [hstep]
    cases r.channels.deliver? name text <;> rfl
  have unready : ∀ s, (r.step e).2 ≠ .ready s := by
    rw [hstep]
    cases r.channels.deliver? name text with
    | none => exact hreport false
    | some c => exact hreport true
  have same_found : ∀ s, Report.ready s ∈ reports ++ [(r.step e).2] ↔ .ready s ∈ reports := by
    intro s
    rw [List.mem_append, List.mem_singleton, or_iff_left fun e => unready s e.symm]
  have delivered_eq : inboxAfter names (es ++ [e])
      = Channels.delivered names (inboxAfter names es) name text :=
    funext (inboxAfter_delivery names es he)
  refine ⟨?_, ?_, fun rest hr polls later hl => ?_, fun rest hr outcome ho => ?_,
    fun s hs outcome ho => ?_⟩
  · rw [delivered_eq, channels_eq]
    exact h.tracks.deliver name text
  · simp only [same_found, task_eq]
    exact h.over_iff
  · rw [task_eq] at hr
    rw [hpolls]
    exact h.arrived_iff rest hr polls later (hl.trans extends_es)
  · rw [task_eq] at hr
    exact h.value_eq rest hr outcome (ho.of_extends extends_es)
  · exact h.found s ((same_found s).mp hs) outcome (ho.of_extends extends_es)

/-- A poll leaves the channels as they are. -/
theorem tracks_poll (h : Follows names d es reports r) :
    r.channels.Tracks names (inboxAfter names (es ++ [.poll])) := by
  rw [inboxAfter_poll]
  exact h.tracks

/-- While something is waited for, no poll has found the text. -/
theorem unfound (h : Follows names d es reports r) {rest : Deferred} (hr : r.task = some rest)
    (s : String) : .ready s ∉ reports := by
  intro hs
  rw [h.over_iff.mpr ⟨s, hs⟩] at hr
  cases hr

/-- What a poll finds, before the run is over. -/
theorem poll (h : Follows names d es reports r) {rest : Deferred} (hr : r.task = some rest) :
    Follows names d (es ++ [.poll]) (reports ++ [(r.step .poll).2]) (r.step .poll).1 := by
  have inbox_eq : r.channels.inbox = inboxAfter names es := funext h.tracks.inbox_eq
  have unfound := h.unfound hr
  have left_arrived := fun polls (later : Inbox) (hl : later.Extends (inboxAfter names es)) =>
    Deferred.arrived_rest_poll hl polls rest
  have left_value := fun outcome (ho : (inboxAfter names es).Agrees outcome) =>
    Deferred.value_rest_poll ho rest
  simp only [Run.step, hr, inbox_eq]
  cases hp : rest.poll (inboxAfter names es) with
  | ready s =>
    refine ⟨h.tracks_poll, ?_, fun _ hn => ?_, fun _ hn => ?_, fun t ht outcome ho => ?_⟩
    · exact ⟨fun _ => ⟨s, by simp⟩, fun _ => rfl⟩
    · cases hn
    · cases hn
    · rw [inboxAfter_poll] at ho
      rw [List.mem_append, List.mem_singleton, or_iff_right (unfound t)] at ht
      cases ht
      rw [← h.value_eq rest hr outcome ho, ← left_value outcome ho, hp, Poll.rest, Deferred.value]
  | pending left =>
    refine ⟨h.tracks_poll, ?_, fun rest' hn polls later hl => ?_, fun rest' hn outcome ho => ?_,
      fun t ht => ?_⟩
    · constructor
      · intro hn
        cases hn
      · rintro ⟨t, ht⟩
        rw [List.mem_append, List.mem_singleton, or_iff_right (unfound t)] at ht
        cases ht
    · cases hn
      rw [inboxAfter_poll] at hl
      have arrived := left_arrived polls later hl
      rw [hp, Poll.rest] at arrived
      rw [arrived, h.arrived_iff rest hr (polls + 1) later hl, pollCount_poll, Nat.add_assoc,
        Nat.add_comm 1]
    · cases hn
      rw [inboxAfter_poll] at ho
      have value := left_value outcome ho
      rw [hp, Poll.rest] at value
      rw [value, h.value_eq rest hr outcome ho]
    · rw [List.mem_append, List.mem_singleton, or_iff_right (unfound t)] at ht
      cases ht

/-- When a run is over, polls find nothing more. -/
theorem poll_over (h : Follows names d es reports r) (hr : r.task = none) :
    Follows names d (es ++ [.poll]) (reports ++ [(r.step .poll).2]) (r.step .poll).1 := by
  obtain ⟨s, hs⟩ := h.over_iff.mp hr
  simp only [Run.step, hr]
  refine ⟨h.tracks_poll, ?_, fun rest hn => ?_, fun rest hn => ?_, fun t ht outcome ho => ?_⟩
  · exact ⟨fun _ => ⟨s, List.mem_append_left _ hs⟩, fun _ => hr⟩
  · rw [hr] at hn
    cases hn
  · rw [hr] at hn
    cases hn
  · rw [inboxAfter_poll] at ho
    rw [List.mem_append, List.mem_singleton, or_iff_left (by nofun)] at ht
    exact h.found t ht outcome ho

/-- **A step.** Whatever happens to a run, it goes on following what it started with. -/
theorem step (h : Follows names d es reports r) (e : Event) :
    Follows names d (es ++ [e]) (reports ++ [(r.step e).2]) (r.step e).1 := by
  cases e with
  | poll =>
    cases hr : r.task with
    | some rest => exact h.poll hr
    | none => exact h.poll_over hr
  | send name text =>
    exact h.deliver (.send name text) name text .sent rfl (fun n => rfl) (by simp [pollCount]) nofun
  | drop name =>
    exact h.deliver (.drop name) name "" .dropped rfl (fun n => rfl) (by simp [pollCount]) nofun

/-- Before the run is over, a poll finds the text exactly if it has arrived. -/
theorem poll_finds_iff (h : Follows names d es reports r) :
    (∃ s, (r.step .poll).2 = .ready s) ↔
      (∀ s, Report.ready s ∉ reports) ∧ d.Arrived (pollCount es) (inboxAfter names es) := by
  cases hr : r.task with
  | none =>
    obtain ⟨s, hs⟩ := h.over_iff.mp hr
    simp only [Run.step, hr]
    constructor
    · rintro ⟨t, over_eq⟩
      cases over_eq
    · intro unfound
      exact absurd hs (unfound.1 s)
  | some rest =>
    have arrived := h.arrived_iff rest hr 0 _ (Inbox.Extends.refl _)
    rw [Nat.zero_add, ← Deferred.isSome_text?_poll] at arrived
    rw [← arrived, and_iff_right (h.unfound hr), ← funext h.tracks.inbox_eq]
    simp only [Run.step, hr]
    cases rest.poll r.channels.inbox with
    | ready s => exact ⟨fun _ => rfl, fun _ => ⟨s, rfl⟩⟩
    | pending left =>
      constructor
      · rintro ⟨s, pending_eq⟩
        cases pending_eq
      · intro none_eq
        cases none_eq

end Follows

theorem Element.value_deferred (outcome : Nat → String) (e : Element) :
    e.deferred.value outcome = e.value outcome := by
  cases e with
  | ready s => exact Deferred.value_known outcome s
  | pending d => rfl

theorem Element.arrived_deferred (polls : Nat) (inbox : Inbox) (e : Element) :
    e.deferred.Arrived polls inbox ↔ ∀ d ∈ e.awaited, d.Arrived polls inbox := by
  cases e with
  | ready s => simp [deferred, awaited, Deferred.arrived_known]
  | pending d => simp [deferred, awaited]

/-- **A run.** After any events a run follows the element that it started with. -/
theorem follows_after (names : List String) (e : Element) (es : List Event) :
    Follows names e.deferred es ((Run.start names e).trace es) ((Run.start names e).after es) := by
  induction es using List.reverseRecOn with
  | nil =>
    refine ⟨Channels.tracks_ofNames names, ?_, fun rest hr polls later _ => ?_,
      fun rest hr outcome _ => ?_, fun s hs => ?_⟩
    · simp [Run.start, Run.after, Run.trace]
    · cases hr
      simp [pollCount]
    · cases hr
      rfl
    · cases hs
  | append_singleton es event ih =>
    rw [Run.trace_append, Run.after_append]
    exact ih.step event

/-- **The order of completion.** Of an expression that is built over channels opened
under any names and then polled, with sends and drops between the polls:

* a poll finds the text exactly if no earlier poll did and every surviving leaf has
  arrived by then: a channel has its outcome, or the earlier polls were as many as the
  leaf waits for;
* the text is what the expression writes at once with every outcome in its place;
* two runs that give no channel different outcomes find the same text. -/
theorem poll_ready_iff (names : List String) (e : Expr .element) :
    (∀ before,
      ((∃ s, (((Run.start names e.value).after before).step .poll).2 = .ready s) ↔
        (∀ s, .ready s ∉ (Run.start names e.value).trace before) ∧
          ∀ d ∈ (e.survivors []).1, d.Arrived (pollCount before) (inboxAfter names before)) ∧
      ∀ s, (((Run.start names e.value).after before).step .poll).2 = .ready s →
        (e.settle fun id => (inboxAfter names before id).getD "").value = .ready s) ∧
    ∀ es es' s s',
      (∀ id t t', inboxAfter names es id = some t → inboxAfter names es' id = some t' → t = t') →
      .ready s ∈ (Run.start names e.value).trace es →
      .ready s' ∈ (Run.start names e.value).trace es' → s = s' := by
  have waits : AwaitedAlike e.value.awaited (e.survivors []).1 := element_waits e .empty
  have found : ∀ es s, .ready s ∈ (Run.start names e.value).trace es → ∀ outcome,
      (inboxAfter names es).Agrees outcome → s = e.value.value outcome := by
    intro es s hs outcome ho
    rw [← Element.value_deferred]
    exact (follows_after names e.value es).found s hs outcome ho
  refine ⟨fun before => ⟨?_, fun s hs => ?_⟩, fun es es' s s' agree hs hs' => ?_⟩
  · rw [(follows_after names e.value before).poll_finds_iff, Element.arrived_deferred,
      waits.arrived_iff]
  · have settled := (settles_eval (fun id => (inboxAfter names before id).getD "") e .empty _ rfl).1
    have hmem : .ready s ∈ (Run.start names e.value).trace (before ++ [.poll]) := by
      rw [Run.trace_append, hs]
      exact List.mem_append_right _ List.mem_cons_self
    rw [found _ s hmem _ (by rw [inboxAfter_poll]; exact Inbox.agrees_getD _)]
    exact settled
  · -- an outcome of either run, whichever has one
    let outcome : Nat → String := fun id =>
      ((inboxAfter names es id).or (inboxAfter names es' id)).getD ""
    have agrees : (inboxAfter names es).Agrees outcome := fun id t ht => by
      simp only [outcome, ht, Option.some_or, Option.getD_some]
    have agrees' : (inboxAfter names es').Agrees outcome := fun id t' ht' => by
      simp only [outcome, ht']
      cases ht : inboxAfter names es id with
      | none => rfl
      | some t => exact agree id t t' ht ht'
    rw [found es s hs outcome agrees, found es' s' hs' outcome agrees']

end Markup
