/-
# Attributes in order of insertion

What a record holds depends on the whole history of writes and erasures: a key stands
where it was first written since it was last erased, and has the value that was last
written to it since then (`Keyed.History.entered?`, `Keyed.History.current?`). The
history says this by itself, by the changes behind the last erasure of the key. A
record that replays the history keeps up with it change by change (`Keyed.Records.step`),
so it does over any history (`Keyed.records_replay`).

The attributes of props are such a record. Every way in which props come about writes
pairs to them, and so does every later step, except that whatever is given under
`children` and every step on the content changes no attribute (`Props.Step.change?`).
So props that come about in any way and go through any steps hold what their history
says (`Props.keeps_run`).

Key definitions: `Keyed.History.writes`, `Keyed.Records`, `Props.Origin`, `Props.Keeps`.
Key theorems: `Keyed.Records.step`, `Keyed.records_replay`, `Props.attributes_run`,
`Props.keeps_run`.
-/
import Mathlib.Data.List.Induction
import Markup.Record

namespace Markup

/-! ### Histories -/

namespace Keyed

/-- A change to a record. -/
inductive Change (α : Type) where
  | write (key : String) (value : α)
  | erase (key : String)

variable {α : Type}

/-- Whether a change erases a key. -/
def Change.erases (key : String) : Change α → Bool
  | .write _ _ => false
  | .erase k => k = key

/-- The changes to a record, the earliest first. -/
abbrev History (α : Type) := List (Change α)

namespace History

/-- The changes behind the last erasure of a key, each with its place in the history. -/
def since (h : History α) (key : String) : List (Change α × Nat) :=
  (h.zipIdx.reverse.takeWhile fun c => !c.1.erases key).reverse

/-- What was written to a key since it was last erased: the places and the values. -/
def writes (h : History α) (key : String) : List (Nat × α) :=
  (h.since key).filterMap fun
    | (.write k value, place) => if k = key then some (place, value) else none
    | (.erase _, _) => none

/-- Where a key was first written since it was last erased. -/
def entered? (h : History α) (key : String) : Option Nat := (h.writes key).head?.map Prod.fst

/-- What was last written to a key since it was last erased. -/
def current? (h : History α) (key : String) : Option α := (h.writes key).getLast?.map Prod.snd

/-- When both keys are present and the first one was there first. -/
def Precedes (h : History α) (k l : String) : Prop :=
  ∃ i j, h.entered? k = some i ∧ h.entered? l = some j ∧ i < j

theorem since_append (h : History α) (c : Change α) (key : String) :
    since (h ++ [c]) key = if c.erases key then [] else since h key ++ [(c, h.length)] := by
  have last : (h ++ [c]).zipIdx.reverse = (c, h.length) :: h.zipIdx.reverse := by
    simp [List.zipIdx_append]
  rw [since, last, List.takeWhile_cons]
  cases hc : c.erases key with
  | true => rfl
  | false => exact List.reverse_cons

theorem writes_write (h : History α) (k : String) (value : α) (key : String) :
    writes (h ++ [.write k value]) key
      = writes h key ++ if k = key then [(h.length, value)] else [] := by
  rw [writes, since_append, Change.erases, if_neg Bool.false_ne_true, List.filterMap_append]
  by_cases hk : k = key <;> simp [hk, writes]

theorem writes_erase (h : History α) (k key : String) :
    writes (h ++ [.erase k]) key = if k = key then [] else writes h key := by
  rw [writes, since_append, Change.erases]
  by_cases hk : k = key <;> simp [hk, writes]

/-- A write is where a key enters unless the key is present. -/
theorem entered?_write (h : History α) (k : String) (value : α) (key : String) :
    entered? (h ++ [.write k value]) key
      = (entered? h key).or (if k = key then some h.length else none) := by
  rw [entered?, writes_write, List.head?_append, entered?]
  by_cases hk : k = key <;> cases (writes h key).head? <;> simp [hk]

theorem entered?_erase (h : History α) (k key : String) :
    entered? (h ++ [.erase k]) key = if k = key then none else entered? h key := by
  rw [entered?, writes_erase]
  split <;> rfl

theorem current?_write (h : History α) (k : String) (value : α) (key : String) :
    current? (h ++ [.write k value]) key = if k = key then some value else current? h key := by
  rw [current?, writes_write]
  by_cases hk : k = key <;> simp [hk, current?]

theorem current?_erase (h : History α) (k key : String) :
    current? (h ++ [.erase k]) key = if k = key then none else current? h key := by
  rw [current?, writes_erase]
  split <;> rfl

/-- A key that has a value has a place. -/
theorem entered?_eq_none_iff (h : History α) (key : String) :
    h.entered? key = none ↔ h.current? key = none := by
  simp [entered?, current?]

/-- A key entered at a place of the history. -/
theorem entered?_lt {h : History α} {key : String} {i : Nat} (hi : h.entered? key = some i) :
    i < h.length := by
  induction h using List.reverseRecOn with
  | nil => cases hi
  | append_singleton h c ih =>
    rw [List.length_append, List.length_singleton]
    cases c with
    | write k value =>
      rw [entered?_write, Option.or_eq_some_iff] at hi
      rcases hi with hi | ⟨-, hi⟩
      · exact Nat.lt_succ_of_lt (ih hi)
      · split at hi <;> cases hi
        exact Nat.lt_succ_self _
    | erase k =>
      rw [entered?_erase] at hi
      split at hi
      · cases hi
      · exact Nat.lt_succ_of_lt (ih hi)

/-- What was never written is not there. -/
theorem current?_eq_none {h : History α} {key : String} (hkey : ∀ value, .write key value ∉ h) :
    h.current? key = none := by
  induction h using List.reverseRecOn with
  | nil => rfl
  | append_singleton h c ih =>
    have hbefore := ih fun value hmem => hkey value (List.mem_append_left _ hmem)
    cases c with
    | write k value =>
      have hne : k ≠ key := by
        rintro rfl
        exact hkey value (List.mem_append_right _ List.mem_cons_self)
      rw [current?_write, if_neg hne]
      exact hbefore
    | erase k =>
      rw [current?_erase, hbefore, ite_self]

/-- A write leaves the keys that are present in their places. -/
theorem Precedes.write {h : History α} {a b : String} (hab : h.Precedes a b) (k : String)
    (value : α) : Precedes (h ++ [.write k value]) a b := by
  obtain ⟨i, j, hi, hj, hlt⟩ := hab
  refine ⟨i, j, ?_, ?_, hlt⟩
  · rw [entered?_write, hi, Option.some_or]
  · rw [entered?_write, hj, Option.some_or]

/-- An erasure leaves the other keys in their places. -/
theorem Precedes.erase {h : History α} {a b : String} (hab : h.Precedes a b) {k : String}
    (ha : k ≠ a) (hb : k ≠ b) : Precedes (h ++ [.erase k]) a b := by
  obtain ⟨i, j, hi, hj, hlt⟩ := hab
  refine ⟨i, j, ?_, ?_, hlt⟩
  · rw [entered?_erase, if_neg ha, hi]
  · rw [entered?_erase, if_neg hb, hj]

end History

/-! ### Records that keep up with a history -/

/-- The record after a change. -/
def Change.apply (entries : List (String × α)) : Change α → List (String × α)
  | .write key value => insert entries key value
  | .erase key => Keyed.erase entries key

/-- The record that arises from the changes of a history. -/
def replay (h : History α) : List (String × α) := h.foldl Change.apply []

/-- When a record holds what a history says. -/
structure Records (h : History α) (entries : List (String × α)) : Prop where
  nodup : (keys entries).Nodup
  find?_eq : ∀ key, find? entries key = h.current? key
  ordered : (keys entries).Pairwise h.Precedes

namespace Records

variable {h : History α} {entries : List (String × α)}

theorem mem_keys_iff (hr : Records h entries) (key : String) :
    key ∈ keys entries ↔ (h.current? key).isSome = true := by
  rw [← hr.find?_eq, Option.isSome_iff_ne_none, Ne, find?_eq_none_iff, not_not]

theorem write (hr : Records h entries) (k : String) (value : α) :
    Records (h ++ [.write k value]) (insert entries k value) := by
  refine ⟨nodup_keys_insert hr.nodup k value, fun key => ?_, ?_⟩
  · rw [History.current?_write]
    split
    · rename_i hk
      rw [hk, find?_insert_self]
    · rename_i hk
      rw [find?_insert_of_ne entries value fun e => hk e.symm, hr.find?_eq]
  · have kept : (keys entries).Pairwise (History.Precedes (h ++ [.write k value])) :=
      hr.ordered.imp fun hab => hab.write k value
    rw [keys_insert]
    split
    · exact kept
    · rename_i hnew
      -- the new key enters behind all others
      have absent : h.entered? k = none := by
        rw [History.entered?_eq_none_iff, ← hr.find?_eq, find?_eq_none_iff]
        exact hnew
      rw [List.pairwise_append]
      refine ⟨kept, List.pairwise_singleton _ _, fun a ha b hb => ?_⟩
      rw [List.mem_singleton] at hb
      subst hb
      have present : h.entered? a ≠ none := by
        rw [Ne, History.entered?_eq_none_iff, ← hr.find?_eq, find?_eq_none_iff, not_not]
        exact ha
      obtain ⟨i, hi⟩ := Option.ne_none_iff_exists'.mp present
      refine ⟨i, h.length, ?_, ?_, History.entered?_lt hi⟩
      · rw [History.entered?_write, hi, Option.some_or]
      · rw [History.entered?_write, absent, if_pos rfl, Option.none_or]

theorem erase (hr : Records h entries) (k : String) :
    Records (h ++ [.erase k]) (Keyed.erase entries k) := by
  refine ⟨nodup_keys_erase hr.nodup k, fun key => ?_, ?_⟩
  · rw [History.current?_erase]
    split
    · rename_i hk
      rw [← hk, find?_erase_self hr.nodup]
    · rename_i hk
      rw [find?_erase_of_ne entries fun e => hk e.symm, hr.find?_eq]
  · rw [keys_erase]
    have rest : ((keys entries).erase k).Pairwise h.Precedes :=
      hr.ordered.sublist List.erase_sublist
    have other : ∀ {a}, a ∈ (keys entries).erase k → k ≠ a := by
      rintro a ha rfl
      exact hr.nodup.not_mem_erase ha
    exact rest.imp_of_mem fun ha hb hab => hab.erase (other ha) (other hb)

/-- **A change.** A record that keeps up with a history keeps up with one more change. -/
theorem step (hr : Records h entries) (c : Change α) : Records (h ++ [c]) (c.apply entries) := by
  cases c with
  | write k value => exact hr.write k value
  | erase k => exact hr.erase k

end Records

theorem replay_append (h : History α) (c : Change α) : replay (h ++ [c]) = c.apply (replay h) := by
  rw [replay, List.foldl_append]
  rfl

/-- **Any history.** A record holds what the history says that it arose from. -/
theorem records_replay (h : History α) : Records h (replay h) := by
  induction h using List.reverseRecOn with
  | nil => exact ⟨List.nodup_nil, fun _ => rfl, List.Pairwise.nil⟩
  | append_singleton h c ih =>
    rw [replay_append]
    exact ih.step c

end Keyed

/-! ### Props and their history -/

namespace Props

/-- The change that a step makes to the attributes, if it makes any. -/
def Step.change? : Step → Option (Keyed.Change AttributeValue)
  | .insert key v => if key = childrenKey then none else some (.write key v)
  | .erase key => some (.erase key)
  | .setChildren _ | .pushChild _ | .takeChildren => none
  | .get _ | .getText _ | .contains _ => none

/-- A pair as a step. -/
def Step.ofPair : String × AttributeValue → Step
  | (key, v) => .insert key v

/-- How props come about. -/
inductive Origin where
  | empty
  | pairs (ps : List (String × AttributeValue))
  | json (j : Json)
  | record (fields : List Record.Field)

namespace Origin

/-- The props that come about, unless they come from JSON that is no object. -/
def props : Origin → Except Error Props
  | .empty => .ok .empty
  | .pairs ps => .ok (.ofPairs ps)
  | .json j => Props.ofJson j
  | .record fields => .ok (Record.toProps fields)

/-- What is given under keys. -/
def given : Origin → List (String × AttributeValue)
  | .empty => []
  | .pairs ps => ps
  | .json (.object members) => members.map fun (key, j) => (key, .ofJson j)
  | .json _ => []
  | .record fields => Record.pairs fields

/-- The changes to the attributes from the first on, when steps follow. -/
def history (o : Origin) (steps : List Step) : Keyed.History AttributeValue :=
  (o.given.map Step.ofPair ++ steps).filterMap Step.change?

end Origin

/-- A step changes the attributes as its change says. -/
theorem attributes_apply (p : Props) (s : Step) :
    (p.apply s).attributes = (s.change?.toList).foldl Keyed.Change.apply p.attributes := by
  cases s with
  | insert key v =>
    rw [apply, Props.insert, Step.change?]
    split <;> rfl
  | erase key => rfl
  | setChildren c | pushChild c | takeChildren | get key | getText key | contains key => rfl

/-- What changes attributes as steps do leaves them as the changes of the steps say. -/
theorem attributes_foldl {α : Type} {f : Props → α → Props} (step : α → Step)
    (hf : ∀ p a, (f p a).attributes = (p.apply (step a)).attributes) :
    ∀ (as : List α) (p : Props), (as.foldl f p).attributes
      = ((as.map step).filterMap Step.change?).foldl Keyed.Change.apply p.attributes
  | [], _ => rfl
  | a :: as, p => by
    have ih := attributes_foldl step hf as (f p a)
    rw [List.foldl_cons, ih, hf, attributes_apply, List.map_cons]
    cases hs : (step a).change? with
    | none => rw [List.filterMap_cons_none hs]; rfl
    | some c => rw [List.filterMap_cons_some hs]; rfl

theorem attributes_run (p : Props) (steps : List Step) : (p.run steps).attributes
    = (steps.filterMap Step.change?).foldl Keyed.Change.apply p.attributes := by
  have h := attributes_foldl id (fun p s => rfl) steps p
  rw [List.map_id] at h
  exact h

theorem attributes_insertJson (p : Props) (key : String) (j : Json) :
    (p.insertJson key j).attributes = (p.insert key (.ofJson j)).attributes := by
  unfold insertJson Props.insert
  split <;> rfl

/-- However props come about, their attributes are what was given under keys. -/
theorem attributes_origin {o : Origin} {p : Props} (h : o.props = .ok p) :
    p.attributes = Keyed.replay (o.history []) := by
  have inserts : ∀ ps : List (String × AttributeValue),
      (Props.ofPairs ps).attributes = Keyed.replay ((ps.map Step.ofPair).filterMap Step.change?) :=
    fun ps => attributes_foldl Step.ofPair (fun p a => rfl) ps .empty
  rw [Origin.history, List.append_nil]
  cases o with
  | empty => cases h; rfl
  | pairs ps => cases h; exact inserts ps
  | json j =>
    cases j with
    | object members =>
      cases h
      rw [Origin.given, List.map_map]
      exact attributes_foldl _ (fun p a => attributes_insertJson p a.1 a.2) members .empty
    | null | bool b | integer v | float x | string s | array items => cases h
  | record fields =>
    cases h
    have pairs : (Record.toProps fields).attributes = (Props.ofPairs (Record.pairs fields)).attributes := by
      rw [Record.toProps_eq]
      cases fields.find? Record.Field.isContent <;> rfl
    rw [pairs]
    exact inserts _

theorem history_append (o : Origin) (steps : List Step) :
    o.history steps = o.history [] ++ steps.filterMap Step.change? := by
  rw [Origin.history, Origin.history, List.append_nil, List.filterMap_append]

/-- The attributes after any steps are the record that arises from the changes. -/
theorem attributes_run_origin {o : Origin} {p : Props} (h : o.props = .ok p) (steps : List Step) :
    (p.run steps).attributes = Keyed.replay (o.history steps) := by
  rw [attributes_run, attributes_origin h, history_append o steps, Keyed.replay, Keyed.replay,
    List.foldl_append]

/-- No change writes to the reserved key. -/
theorem write_childrenKey_not_mem (o : Origin) (steps : List Step) (v : AttributeValue) :
    .write childrenKey v ∉ o.history steps := by
  intro hmem
  obtain ⟨s, -, hs⟩ := List.mem_filterMap.mp hmem
  cases s with
  | insert key v' =>
    rw [Step.change?] at hs
    split at hs
    · cases hs
    · rename_i hne
      cases hs
      exact hne rfl
  | erase key | setChildren c | pushChild c | takeChildren | get key | getText key
  | contains key => cases hs

/-- When props hold, as attributes, what a history of changes says. -/
structure Keeps (h : Keyed.History AttributeValue) (p : Props) : Prop where
  /-- No key stands twice, -/
  nodup : (Keyed.keys p.attributes).Nodup
  /-- and none is the reserved one. -/
  unreserved : childrenKey ∉ Keyed.keys p.attributes
  /-- The keys stand as they were first written since they were last erased. -/
  ordered : (Keyed.keys p.attributes).Pairwise h.Precedes
  /-- A key that is present keeps its place when it is written again, any other goes to
  the end, -/
  keys_insert : ∀ key v, key ≠ childrenKey → Keyed.keys (p.insert key v).attributes
    = if p.contains key then Keyed.keys p.attributes else Keyed.keys p.attributes ++ [key]
  /-- and erasing a key leaves the others as they stand. -/
  keys_erase : ∀ key,
    Keyed.keys (p.erase key).attributes = (Keyed.keys p.attributes).filter (· != key)
  /-- The value of a key is the one last written since it was last erased. -/
  get?_eq : ∀ key, p.get? key = h.current? key
  contains_eq : ∀ key, p.contains key = (h.current? key).isSome
  mem_keys_iff : ∀ key, key ∈ Keyed.keys p.attributes ↔ (h.current? key).isSome = true
  /-- There are as many attributes as keys with a value. -/
  size_eq : ∀ ks : List String, ks.Nodup → (∀ key, key ∈ ks ↔ (h.current? key).isSome = true) →
    p.size = ks.length
  isEmpty_iff : p.isEmpty = true ↔ ∀ key, h.current? key = none
  /-- Erasing answers the value that was there. -/
  reply_erase : ∀ key, p.reply (.erase key) = .attribute (h.current? key)
  /-- Content is none of the attributes, whichever way it is given. -/
  content : ∀ c v, (p.setChildren c).attributes = p.attributes ∧
    (p.pushChild c).attributes = p.attributes ∧ p.withoutChildren.attributes = p.attributes ∧
    (p.insert childrenKey v).attributes = p.attributes
  /-- The attributes are written one by one in that order. -/
  serialize_eq : p.serialize = String.join ((Keyed.keys p.attributes).map fun key =>
    (h.current? key).elim "" fun v => Attribute.serialize [(key, v)])

/-- **Attributes over whole runs.** Props that come about in any way and go through any
steps hold what the history of the changes says. -/
theorem keeps_run (o : Origin) {p : Props} (h : o.props = .ok p) (steps : List Step) :
    (p.run steps).Keeps (o.history steps) := by
  have records : Keyed.Records (o.history steps) (p.run steps).attributes := by
    rw [attributes_run_origin h]
    exact Keyed.records_replay _
  generalize p.run steps = q at records
  have contains_eq : ∀ key, q.contains key = ((o.history steps).current? key).isSome :=
    fun key => congrArg Option.isSome (records.find?_eq key)
  have contains_iff : ∀ key, q.contains key = true ↔ key ∈ Keyed.keys q.attributes :=
    fun key => by rw [contains_eq, records.mem_keys_iff]
  have unreserved : childrenKey ∉ Keyed.keys q.attributes := by
    rw [records.mem_keys_iff, Keyed.History.current?_eq_none fun v =>
      write_childrenKey_not_mem o steps v]
    exact Bool.false_ne_true
  refine
    { nodup := records.nodup
      unreserved := unreserved
      ordered := records.ordered
      keys_insert := fun key v hne => ?_
      keys_erase := fun key => ?_
      get?_eq := records.find?_eq
      contains_eq := contains_eq
      mem_keys_iff := records.mem_keys_iff
      size_eq := fun ks nodup present => ?_
      isEmpty_iff := ?_
      reply_erase := fun key => congrArg Reply.attribute (records.find?_eq key)
      content := fun c v => ⟨rfl, rfl, rfl, rfl⟩
      serialize_eq := ?_ }
  · simp only [Props.insert, if_neg hne, Keyed.keys_insert, contains_iff]
  · rw [erase, Keyed.keys_erase, records.nodup.erase_eq_filter]
  · have perm : (Keyed.keys q.attributes).Perm ks :=
      (List.perm_ext_iff_of_nodup records.nodup nodup).mpr fun key =>
        (records.mem_keys_iff key).trans (present key).symm
    rw [← perm.length_eq, Keyed.keys, List.length_map, size]
  · simp only [isEmpty, ← records.find?_eq, Keyed.find?_eq_none_iff, List.isEmpty_iff]
    rw [← List.eq_nil_iff_forall_not_mem, Keyed.keys, List.map_eq_nil_iff]
  · rw [serialize, Attribute.serialize, Keyed.map_eq_map_keys _ "" records.nodup]
    simp only [records.find?_eq]
    refine congrArg String.join (List.map_congr_left fun key _ => ?_)
    cases (o.history steps).current? key with
    | none => rfl
    | some v => simp [Attribute.serialize]

/-- A member of a JSON object that is erased and written again stands behind one that
is only written again. -/
theorem keeps_run_json :
    ∃ p, (Origin.json (.object [("z", .null), ("children", .string "x"), ("a", .null)])).props
        = .ok p ∧
      (p.run [.erase "z", .insert "a" (.text "b"), .insert "z" (.bool true)]).attributes
        = [("a", .text "b"), ("z", .bool true)] ∧
      (p.run [.erase "z", .insert "a" (.text "b"), .insert "z" (.bool true)]).Keeps
        ((Origin.json (.object [("z", .null), ("children", .string "x"), ("a", .null)])).history
          [.erase "z", .insert "a" (.text "b"), .insert "z" (.bool true)]) :=
  ⟨_, rfl, rfl, keeps_run _ rfl _⟩

end Props
end Markup
