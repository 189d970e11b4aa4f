/-
# Settings from a record

Settings have two fields, each with its key, and the value under a key is of the kind of its
field or it is refused. What values mean is stated by their shapes: which of them name a mode
(`Json.Names`), and why any other is refused under its key (`Settings.Wrong`); reading a value
does what these say (`Mode.ofJson_eq_ok_iff`, `Settings.readMember_eq_error_iff`).

A member of a record gives one field its value or leaves the settings alone
(`Settings.readMember_eq_ok_iff`). Through a record whose keys are distinct a field is given a
value once at most, so in the end it is what its key says or what it was before
(`Settings.readMembers_eq_ok_iff`), and a record is refused for the first member that is
(`Settings.readMembers_eq_error_iff`).

Key definitions: `Json.Names`, `Settings.Wrong`, `Settings.Takes`, `Settings.Becomes`.
Key theorems: `Mode.ofJson_eq_ok_iff`, `Settings.readMember_eq_error_iff`,
`Settings.readMembers_eq_ok_iff`, `Settings.readMembers_eq_error_iff`.
-/
import Markup.Settings

namespace Markup

/-! ### Values of the two kinds -/

namespace Json

/-- When a value names a mode: by its name, or as an object whose one key is the name, with
null. -/
def Names (j : Json) (m : Mode) : Prop := j = .string m.name ∨ j = .object [(m.name, .null)]

theorem asBool_eq_ok_iff (j : Json) (b : Bool) : j.asBool = .ok b ↔ j = .bool b := by
  cases j <;> simp [asBool]

end Json

namespace Mode

theorem name_inj {m n : Mode} : m.name = n.name ↔ m = n := by
  cases m <;> cases n <;> decide

theorem mem_all (m : Mode) : m ∈ all := by
  cases m <;> decide

theorem ofName_eq_ok_iff (s : String) (m : Mode) : ofName s = .ok m ↔ s = m.name := by
  unfold ofName
  cases hfind : all.find? fun m => m.name = s with
  | none =>
    have hnone := List.find?_eq_none.mp hfind m (mem_all m)
    simpa [eq_comm] using hnone
  | some n =>
    have hn : n.name = s := by simpa using List.find?_some hfind
    rw [Except.ok.injEq, ← hn, name_inj]

theorem ofName_eq_error_iff (s : String) (mismatch : Mismatch) : ofName s = .error mismatch ↔
    (∀ m : Mode, s ≠ m.name) ∧ mismatch = .unknownName s ["off", "warn", "strict"] := by
  have hok := ofName_eq_ok_iff s
  unfold ofName at hok ⊢
  cases hfind : all.find? fun m => m.name = s with
  | some m =>
    rw [hfind] at hok
    exact ⟨nofun, fun h => absurd ((hok m).mp rfl) (h.1 m)⟩
  | none =>
    rw [hfind] at hok
    have hnone : ∀ m : Mode, s ≠ m.name := fun m hm => nomatch (hok m).mpr hm
    exact ⟨fun h => ⟨hnone, (Except.error.inj h).symm⟩, fun h => h.2 ▸ rfl⟩

/-- The modes that are read are those that are named. -/
theorem ofJson_eq_ok_iff (j : Json) (m : Mode) : ofJson j = .ok m ↔ j.Names m := by
  unfold Json.Names
  cases j with
  | string s => simp [ofJson, ofName_eq_ok_iff]
  | object members =>
    rcases members with _ | ⟨⟨key, content⟩, _ | ⟨e, rest⟩⟩
    · simp [ofJson]
    · rw [ofJson, bind_eq_ok_iff]
      simp only [ofName_eq_ok_iff]
      cases content <;> simp
    · simp [ofJson]
  | null | bool b | integer v | float x | array items => simp [ofJson]

end Mode

namespace Settings

/-! ### Values that are refused -/

/-- Why a value is refused under a key. -/
inductive Wrong : String → Json → Mismatch → Prop
  /-- A text is no name of a mode, -/
  | name {s : String} : (∀ m : Mode, s ≠ m.name) →
      Wrong modeKey (.string s) (.unknownName s ["off", "warn", "strict"])
  /-- nor is the one key of an object. -/
  | key {s : String} {content : Json} : (∀ m : Mode, s ≠ m.name) →
      Wrong modeKey (.object [(s, content)]) (.unknownName s ["off", "warn", "strict"])
  /-- Behind the name of a mode stands something. -/
  | content {m : Mode} {content : Json} : content ≠ .null →
      Wrong modeKey (.object [(m.name, content)]) (.wrongType content "unit")
  /-- An object has no key or several. -/
  | several {members : List (String × Json)} : members.length ≠ 1 →
      Wrong modeKey (.object members) .notSingle
  /-- A value is neither a text nor an object. -/
  | kind {j : Json} : (∀ s, j ≠ .string s) → (∀ members, j ≠ .object members) →
      Wrong modeKey j (.wrongType j "string or map")
  /-- A value is no truth value. -/
  | truth {j : Json} : (∀ b, j ≠ .bool b) → Wrong customKey j (.wrongType j "a boolean")

theorem modeKey_ne_customKey : modeKey ≠ customKey := by decide

/-- What is wrong with a mode is reported, -/
theorem ofJson_of_wrong {j : Json} {mismatch : Mismatch} (h : Wrong modeKey j mismatch) :
    Mode.ofJson j = .error mismatch := by
  generalize hkey : modeKey = key at h
  cases h with
  | name hs => exact (Mode.ofName_eq_error_iff _ _).mpr ⟨hs, rfl⟩
  | @key s content hs =>
    have hname := (Mode.ofName_eq_error_iff s _).mpr ⟨hs, rfl⟩
    rw [Mode.ofJson, hname]
    rfl
  | @content m content hcontent =>
    rw [Mode.ofJson, (Mode.ofName_eq_ok_iff _ _).mpr rfl]
    cases content <;> first | rfl | exact absurd rfl hcontent
  | @several members hlength =>
    rcases members with _ | ⟨e, _ | ⟨e', rest⟩⟩
    · rfl
    · exact absurd rfl hlength
    · rfl
  | kind htext hobject =>
    cases j with
    | string s => exact absurd rfl (htext s)
    | object members => exact absurd rfl (hobject members)
    | null | bool b | integer v | float x | array items => rfl
  | truth h => exact absurd hkey modeKey_ne_customKey

/-- and what is reported is wrong. -/
theorem wrong_of_ofJson {j : Json} {mismatch : Mismatch} (h : Mode.ofJson j = .error mismatch) :
    Wrong modeKey j mismatch := by
  cases j with
  | string s =>
    obtain ⟨hs, rfl⟩ := (Mode.ofName_eq_error_iff s mismatch).mp h
    exact .name hs
  | object members =>
    rcases members with _ | ⟨⟨key, content⟩, _ | ⟨e, rest⟩⟩
    · cases h
      exact .several (by simp)
    · rw [Mode.ofJson] at h
      cases hname : Mode.ofName key with
      | error e =>
        obtain ⟨hs, rfl⟩ := (Mode.ofName_eq_error_iff key e).mp hname
        rw [hname] at h
        cases h
        exact .key hs
      | ok m =>
        have hkey := (Mode.ofName_eq_ok_iff key m).mp hname
        subst hkey
        rw [hname] at h
        cases content with
        | null => cases h
        | bool b | integer v | float x | string s | array items | object members =>
          cases h
          exact .content nofun
    · cases h
      exact .several (by simp)
  | null | bool b | integer v | float x | array items =>
    cases h
    exact .kind nofun nofun

theorem wrong_customKey_iff (j : Json) (mismatch : Mismatch) :
    Wrong customKey j mismatch ↔ j.asBool = .error mismatch := by
  constructor
  · intro h
    generalize hkey : customKey = key at h
    cases h with
    | truth hb =>
      cases j with
      | bool b => exact absurd rfl (hb b)
      | null | integer v | float x | string s | array items | object members => rfl
    | name | key | content | several | kind => exact absurd hkey.symm modeKey_ne_customKey
  · intro h
    cases j with
    | bool b => cases h
    | null | integer v | float x | string s | array items | object members =>
      cases h
      exact .truth nofun

/-! ### A member -/

/-- **What is refused.** A member is refused for what is wrong with its value, whatever the
settings are. -/
theorem readMember_eq_error_iff (s : Settings) (key : String) (j : Json) (mismatch : Mismatch) :
    readMember s (key, j) = .error mismatch ↔ Wrong key j mismatch := by
  unfold readMember
  by_cases hmode : key = modeKey
  · subst hmode
    rw [if_pos rfl]
    refine Iff.trans ?_ ⟨wrong_of_ofJson, ofJson_of_wrong⟩
    cases Mode.ofJson j with
    | ok m => exact ⟨nofun, nofun⟩
    | error e => simp only [bind, Except.bind, Except.error.injEq]
  · rw [if_neg hmode]
    by_cases hcustom : key = customKey
    · subst hcustom
      rw [if_pos rfl, wrong_customKey_iff]
      cases j.asBool with
      | ok b => exact ⟨nofun, nofun⟩
      | error e => simp only [bind, Except.bind, Except.error.injEq]
    · rw [if_neg hcustom]
      refine ⟨nofun, fun h => ?_⟩
      cases h with
      | name | key | content | several | kind => exact absurd rfl hmode
      | truth => exact absurd rfl hcustom

/-- When a field is what the value under its key means, or as before if there is none. -/
def Takes {α : Type} (means : Json → α → Prop) (before : α) : Option Json → α → Prop
  | none, a => a = before
  | some j, a => means j a

/-- When settings become others by the values under the two keys. -/
def Becomes (s : Settings) (mode? custom? : Option Json) (s' : Settings) : Prop :=
  Takes Json.Names s.mode mode? s'.mode ∧
  Takes (fun j b => j = .bool b) s.customElements custom? s'.customElements

/-- **What is read.** A member gives a field its value or changes nothing. -/
theorem readMember_eq_ok_iff (s s' : Settings) (key : String) (j : Json) :
    readMember s (key, j) = .ok s' ↔ Becomes s (if key = modeKey then some j else none)
      (if key = customKey then some j else none) s' := by
  obtain ⟨mode, custom⟩ := s
  obtain ⟨mode', custom'⟩ := s'
  unfold readMember Becomes
  by_cases hmode : key = modeKey
  · have hcustom : key ≠ customKey := hmode ▸ modeKey_ne_customKey
    rw [if_pos hmode, if_pos hmode, if_neg hcustom, bind_eq_ok_iff]
    simp only [Mode.ofJson_eq_ok_iff, Except.ok.injEq, Settings.mk.injEq, Takes]
    constructor
    · rintro ⟨m, hm, rfl, rfl⟩
      exact ⟨hm, rfl⟩
    · rintro ⟨hm, rfl⟩
      exact ⟨mode', hm, rfl, rfl⟩
  · rw [if_neg hmode, if_neg hmode]
    by_cases hcustom : key = customKey
    · rw [if_pos hcustom, if_pos hcustom, bind_eq_ok_iff]
      simp only [Json.asBool_eq_ok_iff, Except.ok.injEq, Settings.mk.injEq, Takes]
      constructor
      · rintro ⟨b, hb, rfl, rfl⟩
        exact ⟨rfl, hb⟩
      · rintro ⟨rfl, hb⟩
        exact ⟨custom', hb, rfl, rfl⟩
    · rw [if_neg hcustom, if_neg hcustom, Except.ok.injEq, Settings.mk.injEq]
      exact and_congr eq_comm eq_comm

/-! ### A record -/

/-- A field that is read twice, where one of the two values at most is present. -/
theorem takes_or_iff {α : Type} {means : Json → α → Prop} {before a : α} {x y : Option Json}
    (h : x = none ∨ y = none) :
    (∃ b, Takes means before x b ∧ Takes means b y a) ↔ Takes means before (x.or y) a := by
  rcases h with rfl | rfl
  · constructor
    · rintro ⟨b, rfl, hy⟩
      exact hy
    · exact fun hy => ⟨before, rfl, hy⟩
  · rw [Option.or_none]
    constructor
    · rintro ⟨b, hx, rfl⟩
      exact hx
    · exact fun hx => ⟨a, hx, rfl⟩

/-- **A record that is read.** The fields become what its two keys say. -/
theorem readMembers_eq_ok_iff : ∀ {members : List (String × Json)} (s s' : Settings),
    (Keyed.keys members).Nodup → (readMembers s members = .ok s' ↔
      Becomes s (Keyed.find? members modeKey) (Keyed.find? members customKey) s')
  | [], ⟨mode, custom⟩, ⟨mode', custom'⟩, _ => by
    rw [readMembers, Except.ok.injEq, Settings.mk.injEq]
    exact and_congr eq_comm eq_comm
  | (key, j) :: rest, s, s', hnodup => by
    rw [Keyed.keys_cons, List.nodup_cons] at hnodup
    -- a key is read in front or behind, not both
    have once : ∀ known, (if key = known then some j else none) = none ∨
        Keyed.find? rest known = none := by
      intro known
      by_cases hkey : key = known
      · exact Or.inr ((Keyed.find?_eq_none_iff rest known).mpr (hkey ▸ hnodup.1))
      · exact Or.inl (if_neg hkey)
    have ih := fun middle => readMembers_eq_ok_iff middle s' hnodup.2
    rw [readMembers, bind_eq_ok_iff]
    simp only [readMember_eq_ok_iff, ih]
    rw [Keyed.find?_cons, Keyed.find?_cons, Becomes, ← takes_or_iff (once modeKey),
      ← takes_or_iff (once customKey)]
    constructor
    · rintro ⟨middle, ⟨hmode, hcustom⟩, hmode', hcustom'⟩
      exact ⟨⟨_, hmode, hmode'⟩, ⟨_, hcustom, hcustom'⟩⟩
    · rintro ⟨⟨m, hmode, hmode'⟩, ⟨b, hcustom, hcustom'⟩⟩
      exact ⟨⟨m, b⟩, ⟨hmode, hcustom⟩, hmode', hcustom'⟩

/-- Why a member cannot be read, if it cannot. -/
def fault? (key : String) (j : Json) : Option Mismatch :=
  match readMember default (key, j) with
  | .ok _ => none
  | .error mismatch => some mismatch

theorem fault?_eq_some_iff (key : String) (j : Json) (mismatch : Mismatch) :
    fault? key j = some mismatch ↔ Wrong key j mismatch := by
  rw [← readMember_eq_error_iff default, fault?]
  cases readMember default (key, j) with
  | ok s => exact ⟨nofun, nofun⟩
  | error e => rw [Option.some.injEq, Except.error.injEq]

theorem fault?_eq_none_iff (key : String) (j : Json) :
    fault? key j = none ↔ ∀ mismatch, ¬ Wrong key j mismatch := by
  simp only [Option.eq_none_iff_forall_ne_some, ne_eq, fault?_eq_some_iff]

/-- **A record that is refused.** It is so for the first member in it that cannot be read. -/
theorem readMembers_eq_error_iff (mismatch : Mismatch) : ∀ (s : Settings)
    (members : List (String × Json)), readMembers s members = .error mismatch ↔
      members.findSome? (fun e => fault? e.1 e.2) = some mismatch
  | s, [] => ⟨nofun, nofun⟩
  | s, (key, j) :: rest => by
    rw [readMembers, List.findSome?_cons]
    cases hread : readMember s (key, j) with
    | ok middle =>
      have hnone : fault? key j = none := by
        rw [fault?_eq_none_iff]
        intro other hwrong
        rw [← readMember_eq_error_iff s, hread] at hwrong
        cases hwrong
      rw [hnone]
      exact readMembers_eq_error_iff mismatch middle rest
    | error e =>
      have hsome : fault? key j = some e := by
        rw [fault?_eq_some_iff, ← readMember_eq_error_iff s, hread]
      rw [hsome, Option.some.injEq]
      show Except.error e = .error mismatch ↔ _
      rw [Except.error.injEq]

end Settings
end Markup
