/-
# Settings from any document

Settings are read from two keys of a document, whatever else it holds. A document may name a
key many times: it counts once, at its first place, with its last value (`Json.under?`). So the
record that the members are merged into has distinct keys, and the settings that are read from
it are those that the two keys say; where a value is refused, the first one in the record is
the first one in the order of the text, since merging leaves every key at its first place
(`Keyed.findSome?_keys_ofPairs`).

Unknown keys are passed over, so a document may be stripped of them before it is merged
(`Settings.ofJson_merged_known`), and documents with the same members under the two keys give
the same result, an error included. Settings that were written are read back from their text
and from every text that has more members of any kind in it, as long as these are documents
(`Settings.ofText_objectText`).

Key definitions: `Json.under?`, `Settings.FirstWrong`, `Settings.Answers`, `Settings.known`.
Key theorems: `Keyed.ofPairs_filter`, `Keyed.findSome?_keys_ofPairs`,
`Settings.answers_ofJson_merged`, `Settings.ofJson_merged_known`, `Settings.answers_ofText`.
-/
import Markup.Proofs.Continuation
import Markup.Proofs.Fields
import Markup.Proofs.Routes

namespace Markup

/-! ### Records and first places -/

namespace Keyed

variable {α β : Type}

theorem filter_insert (p : String → Bool) (entries : List (String × α)) (key : String)
    (value : α) : (insert entries key value).filter (fun e => p e.1)
      = if p key then insert (entries.filter fun e => p e.1) key value
        else entries.filter fun e => p e.1 := by
  induction entries with
  | nil => by_cases hp : p key <;> simp [insert, hp]
  | cons e rest ih =>
    obtain ⟨k, v⟩ := e
    by_cases hk : k = key
    · subst hk
      by_cases hp : p k <;> simp [insert, hp]
    · by_cases hp : p k <;> by_cases hkey : p key <;> simp_all [insert]

/-- A record of some of the keys is written by the pairs with these keys. -/
theorem ofPairs_filter (p : String → Bool) (pairs : List (String × α)) :
    ofPairs (pairs.filter fun e => p e.1) = (ofPairs pairs).filter fun e => p e.1 := by
  induction pairs using List.reverseRecOn with
  | nil => rfl
  | append_singleton pairs e ih =>
    obtain ⟨k, v⟩ := e
    rw [ofPairs_append, filter_insert, List.filter_append, ← ih]
    by_cases hp : p k
    · rw [if_pos hp, ← ofPairs_append]
      simp [hp]
    · rw [if_neg hp]
      simp [hp]

/-- **First places.** What is found at the first key of a record that has it is found at the
first of the written pairs. -/
theorem findSome?_keys_ofPairs (f : String → Option β) (pairs : List (String × α)) :
    (keys (ofPairs pairs)).findSome? f = (keys pairs).findSome? f := by
  induction pairs using List.reverseRecOn with
  | nil => rfl
  | append_singleton pairs e ih =>
    obtain ⟨k, v⟩ := e
    have hkeys : keys (pairs ++ [(k, v)]) = keys pairs ++ [k] := List.map_append
    rw [ofPairs_append, keys_insert, hkeys, List.findSome?_append, ← ih]
    by_cases hk : k ∈ keys (ofPairs pairs)
    · rw [if_pos hk]
      cases hfound : (keys (ofPairs pairs)).findSome? f with
      | some x => rfl
      | none =>
        have hnone : f k = none := List.findSome?_eq_none_iff.mp hfound k hk
        simp [hnone]
    · rw [if_neg hk, List.findSome?_append]

/-- Going through the entries of a record is going through its keys. -/
theorem findSome?_entries {entries : List (String × α)} (h : (keys entries).Nodup)
    (f : String → α → Option β) : entries.findSome? (fun e => f e.1 e.2)
      = (keys entries).findSome? fun key => (find? entries key).bind (f key) := by
  have hmap := map_eq_map_keys (fun e => f e.1 e.2) none h
  have hentries : entries.findSome? (fun e => f e.1 e.2)
      = (entries.map fun e => f e.1 e.2).findSome? id := by
    rw [List.findSome?_map]
    rfl
  rw [hentries, hmap, List.findSome?_map]
  refine congrArg (fun g => (keys entries).findSome? g) (funext fun key => ?_)
  show (find? entries key).elim none (f key) = _
  cases find? entries key <;> rfl

end Keyed

/-! ### The members of a document -/

/-- What stands under a key of a document: the last value, with the keys in it merged too. -/
def Json.under? (members : List (String × Json)) (key : String) : Option Json :=
  (Keyed.last? members key).map Json.merged

namespace Settings

/-- When a mismatch is that of the first key, in the order of a text, with a value that is
refused under it. -/
def FirstWrong (members : List (String × Json)) (mismatch : Mismatch) : Prop :=
  ∃ front key rest, Keyed.keys members = front ++ key :: rest ∧
    (∃ j, Json.under? members key = some j ∧ Wrong key j mismatch) ∧
    ∀ k ∈ front, ∀ j, Json.under? members k = some j → ∀ other, ¬ Wrong k j other

theorem firstWrong_iff (members : List (String × Json)) (mismatch : Mismatch) :
    FirstWrong members mismatch ↔ (Keyed.keys members).findSome?
      (fun key => (Json.under? members key).bind (fault? key)) = some mismatch := by
  simp only [FirstWrong, List.findSome?_eq_some_iff, Option.bind_eq_some_iff,
    Option.bind_eq_none_iff, fault?_eq_some_iff, fault?_eq_none_iff]

/-- When a result is the one that the members of a document give. -/
structure Answers (members : List (String × Json)) (result : Except Error Settings) : Prop where
  /-- There are settings if and only if each of the two keys, where it is present, has a value
  of its kind. -/
  exists_ok_iff : (∃ s, result = .ok s) ↔
    (∀ j, Json.under? members modeKey = some j → ∃ m : Mode, j.Names m) ∧
    (∀ j, Json.under? members customKey = some j → ∃ b, j = .bool b)
  /-- A field is then what its key says, and its default where the key is absent. -/
  ok_iff : ∀ s, result = .ok s ↔
    Takes Json.Names .off (Json.under? members modeKey) s.mode ∧
    Takes (fun j b => j = .bool b) true (Json.under? members customKey) s.customElements
  /-- Otherwise the error is that of the first key, in the order of the text, with a value
  that is refused. -/
  error_iff : ∀ e, result = .error e ↔
    ∃ mismatch, FirstWrong members mismatch ∧ e = .shape mismatch

theorem exists_takes_iff {α : Type} {means : Json → α → Prop} (before : α) (j? : Option Json) :
    (∃ a, Takes means before j? a) ↔ ∀ j, j? = some j → ∃ a, means j a := by
  cases j? with
  | none => exact ⟨fun _ _ h => (nomatch h), fun _ => ⟨before, rfl⟩⟩
  | some j => exact ⟨fun h _ hj => Option.some.inj hj ▸ h, fun h => h j rfl⟩

/-- What a document holds is read from the record of its members. -/
theorem ofJson_merged (members : List (String × Json)) :
    ofJson (Json.merged (.object members))
      = match readMembers default (Keyed.ofPairs (Json.mergedMembers members)) with
        | .ok s => .ok s
        | .error mismatch => .error (.shape mismatch) := rfl

theorem readMembers_merged_eq_ok_iff (members : List (String × Json)) (s : Settings) :
    readMembers default (Keyed.ofPairs (Json.mergedMembers members)) = .ok s ↔
      Becomes default (Json.under? members modeKey) (Json.under? members customKey) s := by
  rw [readMembers_eq_ok_iff default s (Keyed.nodup_keys_ofPairs _), Props.find?_mergedMembers,
    Props.find?_mergedMembers]
  rfl

/-- The first fault in a record is the first one in the order of the text. -/
theorem readMembers_merged_eq_error_iff (members : List (String × Json)) (mismatch : Mismatch) :
    readMembers default (Keyed.ofPairs (Json.mergedMembers members)) = .error mismatch ↔
      FirstWrong members mismatch := by
  have hkeys : Keyed.keys (Json.mergedMembers members) = Keyed.keys members := by
    rw [Json.mergedMembers_eq_map, Keyed.keys, Keyed.keys, List.map_map]
    rfl
  rw [readMembers_eq_error_iff, firstWrong_iff,
    Keyed.findSome?_entries (Keyed.nodup_keys_ofPairs _), Keyed.findSome?_keys_ofPairs, hkeys]
  simp only [Props.find?_mergedMembers, Json.under?]

/-- **The members of a document** give the settings or the error. -/
theorem answers_ofJson_merged (members : List (String × Json)) :
    Answers members (ofJson (Json.merged (.object members))) := by
  have hok := readMembers_merged_eq_ok_iff members
  have herror := readMembers_merged_eq_error_iff members
  have settings : ∀ s, ofJson (Json.merged (.object members)) = .ok s ↔
      Becomes default (Json.under? members modeKey) (Json.under? members customKey) s := by
    intro s
    rw [← hok, ofJson_merged]
    cases readMembers default (Keyed.ofPairs (Json.mergedMembers members)) with
    | ok s' => simp only [Except.ok.injEq]
    | error mismatch => exact ⟨nofun, nofun⟩
  refine ⟨?_, settings, ?_⟩
  · simp only [settings, ← exists_takes_iff Mode.off, ← exists_takes_iff true]
    constructor
    · rintro ⟨s, hmode, hcustom⟩
      exact ⟨⟨s.mode, hmode⟩, ⟨s.customElements, hcustom⟩⟩
    · rintro ⟨⟨m, hmode⟩, ⟨b, hcustom⟩⟩
      exact ⟨⟨m, b⟩, hmode, hcustom⟩
  · intro e
    rw [ofJson_merged]
    simp only [← herror]
    cases readMembers default (Keyed.ofPairs (Json.mergedMembers members)) with
    | ok s' =>
      refine ⟨nofun, ?_⟩
      rintro ⟨_, h, -⟩
      cases h
    | error mismatch => simp only [Except.error.injEq, exists_eq_left', eq_comm]

theorem ofText_of_readRaw {source : String} {document : Json}
    (h : Json.readRaw source = .ok document) : ofText source = ofJson document.merged := by
  rw [ofText, Json.ofText, Json.read, h]
  rfl

/-! ### Unknown keys -/

/-- Whether a key means something. -/
def isKnown (key : String) : Bool := key = modeKey || key = customKey

/-- The members under keys that mean something, as they stand. -/
def known {α : Type} (members : List (String × α)) : List (String × α) :=
  members.filter fun e => isKnown e.1

theorem known_cons {α : Type} (key : String) (a : α) (rest : List (String × α)) :
    known ((key, a) :: rest) = if isKnown key then (key, a) :: known rest else known rest :=
  List.filter_cons

theorem known_map {α β : Type} (f : α → β) (members : List (String × α)) :
    known (members.map fun e => (e.1, f e.2)) = (known members).map fun e => (e.1, f e.2) :=
  List.filter_map

/-- Members that mean nothing are passed over. -/
theorem readMembers_known (s : Settings) (members : List (String × Json)) :
    readMembers s (known members) = readMembers s members := by
  induction members generalizing s with
  | nil => rfl
  | cons e rest ih =>
    obtain ⟨key, j⟩ := e
    rw [known_cons]
    by_cases hknown : isKnown key = true
    · rw [if_pos hknown, readMembers, readMembers]
      simp only [ih]
    · have hunread : readMember s (key, j) = .ok s := by
        have hkeys : key ≠ modeKey ∧ key ≠ customKey := by simpa [isKnown] using hknown
        rw [readMember, if_neg hkeys.1, if_neg hkeys.2]
      rw [if_neg hknown, ih, readMembers, hunread]
      rfl

/-- **Unknown keys.** A document may be stripped of them as it stands, repeated or not. -/
theorem ofJson_merged_known (members : List (String × Json)) :
    ofJson (Json.merged (.object (known members))) = ofJson (Json.merged (.object members)) := by
  have hmerged : Json.mergedMembers (known members) = known (Json.mergedMembers members) := by
    rw [Json.mergedMembers_eq_map, Json.mergedMembers_eq_map, known_map]
  have hrecord : Keyed.ofPairs (Json.mergedMembers (known members))
      = known (Keyed.ofPairs (Json.mergedMembers members)) := by
    rw [hmerged]
    exact Keyed.ofPairs_filter isKnown _
  rw [ofJson_merged, ofJson_merged, hrecord, readMembers_known]

/-! ### Settings that are written -/

/-- Settings are read back from the document that they are. -/
theorem ofJson_merged_toJson (s : Settings) : ofJson s.toJson.merged = .ok s := by
  obtain ⟨mode, custom⟩ := s
  cases mode <;> rfl

/-- The keys of settings as they are written, with the texts of their values. -/
def rows (s : Settings) : List (String × String) :=
  [(modeKey, (Json.string s.mode.name).compact), (customKey, (Json.bool s.customElements).compact)]

theorem compact_toJson (s : Settings) : s.toJson.compact = Json.objectText s.rows := by
  rw [toJson, Json.compact_object]
  rfl

/-- The texts of the values of settings are read back. -/
theorem isInner_rows (s : Settings) : (∀ row ∈ s.rows, Json.IsInner row.2) ∧
    Json.object (s.rows.map fun row => (row.1, Json.inner row.2)) = s.toJson := by
  obtain ⟨hmode, hmode'⟩ := Json.isInner_of_ok
    (Json.readNested_compact_string (Json.maxDepth - 1) s.mode.name)
  obtain ⟨hcustom, hcustom'⟩ := Json.isInner_of_ok
    (Json.readNested_compact_bool (Json.maxDepth - 1) s.customElements)
  refine ⟨?_, ?_⟩
  · simp [rows, hmode', hcustom']
  · simp [rows, toJson, hmode, hcustom]

/-- **Written settings are read back,** whatever documents stand under unknown keys between
them. -/
theorem ofText_objectText (s : Settings) {rows : List (String × String)}
    (hknown : known rows = s.rows)
    (h : ∀ row ∈ rows, isKnown row.1 = false →
      ∃ j, Json.readNested (Json.maxDepth - 1) row.2 = .ok j) :
    ofText (Json.objectText rows) = .ok s := by
  obtain ⟨hinner, hvalues⟩ := isInner_rows s
  have hrows : ∀ row ∈ rows, Json.IsInner row.2 := by
    intro row hrow
    cases hkey : isKnown row.1 with
    | false =>
      obtain ⟨j, hj⟩ := h row hrow hkey
      exact (Json.isInner_of_ok hj).2
    | true =>
      apply hinner row
      rw [← hknown]
      exact List.mem_filter.mpr ⟨hrow, hkey⟩
  rw [ofText_of_readRaw (Json.readRaw_objectText hrows), ← ofJson_merged_known, known_map, hknown,
    hvalues, ofJson_merged_toJson]

/-! ### Any document -/

/-- **Settings from any document.** One that is no object has its own error. One that is an
object gives what its two keys say, settings or an error (`Answers`), so that documents which
differ in unknown keys only give the same, and one that holds written settings gives them. The
text of written settings, with unknown keys and any documents under them put anywhere between,
is such a document. -/
theorem answers_ofText {source : String} {document : Json}
    (h : Json.readRaw source = .ok document) :
    (ofText source = .error .settingsNotObject ↔ ∀ members, document ≠ .object members) ∧
    (∀ members, document = .object members →
      Answers members (ofText source) ∧
      (∀ source' members', Json.readRaw source' = .ok (.object members') →
        known members' = known members → ofText source' = ofText source) ∧
      ∀ s : Settings, Json.object (known members) = s.toJson → ofText source = .ok s) ∧
    ∀ s : Settings, s.toJson.compact = Json.objectText s.rows ∧
      ∀ rows, known rows = s.rows →
        (∀ row ∈ rows, isKnown row.1 = false →
          ∃ j, Json.readNested (Json.maxDepth - 1) row.2 = .ok j) →
        ofText (Json.objectText rows) = .ok s := by
  refine ⟨?_, ?_, fun s => ⟨compact_toJson s, fun rows => ofText_objectText s⟩⟩
  · rw [ofText_of_readRaw h]
    cases document with
    | object members =>
      refine ⟨fun hconfig => ?_, fun hno => absurd rfl (hno members)⟩
      obtain ⟨mismatch, -, hshape⟩ := ((answers_ofJson_merged members).error_iff _).mp hconfig
      cases hshape
    | null | bool b | integer v | float x | string s | array items => exact ⟨nofun, fun _ => rfl⟩
  · rintro members rfl
    rw [ofText_of_readRaw h]
    refine ⟨answers_ofJson_merged members, ?_, ?_⟩
    · intro source' members' h' hknown
      rw [ofText_of_readRaw h', ← ofJson_merged_known members', hknown, ofJson_merged_known]
    · intro s hwritten
      rw [← ofJson_merged_known, hwritten, ofJson_merged_toJson]

/-- The last value of a key counts, at its first place, and so it does inside of a value. -/
theorem answers_ofText_repeated :
    Json.readRaw "\x7b\"x\":[true],\"allow_custom_elements\":\"no\",\"validation\":\"loud\",\"validation\":\x7b\"warn\":[],\"warn\":null\x7d\x7d"
      = .ok (.object [("x", .array [.bool true]), ("allow_custom_elements", .string "no"),
        ("validation", .string "loud"),
        ("validation", .object [("warn", .array []), ("warn", .null)])]) ∧
    ofText "\x7b\"x\":[true],\"allow_custom_elements\":\"no\",\"validation\":\"loud\",\"validation\":\x7b\"warn\":[],\"warn\":null\x7d\x7d"
      = .error (.shape (.wrongType (.string "no") "a boolean")) ∧
    ofText (Json.objectText [("x", " [null]"), ("validation", "\"strict\""), ("y", "\x7b\x7d"),
      ("allow_custom_elements", "false")]) = .ok strict := by
  have hread : Json.readRaw
      "\x7b\"x\":[true],\"allow_custom_elements\":\"no\",\"validation\":\"loud\",\"validation\":\x7b\"warn\":[],\"warn\":null\x7d\x7d"
      = .ok (.object [("x", .array [.bool true]), ("allow_custom_elements", .string "no"),
        ("validation", .string "loud"),
        ("validation", .object [("warn", .array []), ("warn", .null)])]) := by cbv
  have hlist : Json.readNested (Json.maxDepth - 1) " [null]" = .ok (.array [.null]) := by cbv
  have hempty : Json.readNested (Json.maxDepth - 1) "\x7b\x7d" = .ok (.object []) := by cbv
  obtain ⟨-, hobject, hwritten⟩ := answers_ofText hread
  obtain ⟨hanswers, -⟩ := hobject _ rfl
  have hunknown : ∀ j other, ¬ Wrong "x" j other := fun j =>
    (fault?_eq_none_iff "x" j).mp (by simp [fault?, readMember, modeKey, customKey])
  have hwrong : Wrong customKey (.string "no") (.wrongType (.string "no") "a boolean") :=
    .truth fun b hb => by cases hb
  refine ⟨hread, (hanswers.error_iff _).mpr ⟨_, ?_, rfl⟩, (hwritten strict).2 _ rfl ?_⟩
  · refine ⟨["x"], customKey, [modeKey, modeKey], rfl, ⟨.string "no", rfl, hwrong⟩, ?_⟩
    rintro k hk j -
    rw [List.mem_singleton.mp hk]
    exact hunknown j
  · intro row hrow hknown
    simp only [List.mem_cons, List.not_mem_nil, or_false] at hrow
    rcases hrow with rfl | rfl | rfl | rfl
    · exact ⟨_, hlist⟩
    · cases hknown
    · exact ⟨_, hempty⟩
    · cases hknown

end Settings
end Markup
