/-
# Records in order of insertion

A record is a list of keys with values. Writing to a key that is present keeps
its place and takes the new value; a new key goes to the end; erasing a key
leaves the others in their order. The attributes of an element and the members
of a JSON object are such records.

Key definitions: `Keyed.find?`, `Keyed.insert`, `Keyed.erase`, `Keyed.ofPairs`.
Key theorems: `Keyed.find?_insert_self`, `Keyed.find?_insert_of_ne`,
`Keyed.keys_insert`, `Keyed.find?_erase_self`, `Keyed.find?_erase_of_ne`,
`Keyed.keys_erase`, `Keyed.erase_insert`, `Keyed.map_insert`,
`Keyed.map_eq_map_keys`.
-/
namespace Markup
namespace Keyed

variable {α : Type}

/-- The value of a key. -/
def find? : List (String × α) → String → Option α
  | [], _ => none
  | (k, v) :: rest, key => if k = key then some v else find? rest key

theorem find?_cons (k : String) (v : α) (rest : List (String × α)) (key : String) :
    find? ((k, v) :: rest) key = (if k = key then some v else none).or (find? rest key) := by
  rw [find?]
  by_cases hk : k = key <;> simp [hk]

/-- The record with `value` under `key`: in the place of the key if it is
present, else at the end. -/
def insert : List (String × α) → String → α → List (String × α)
  | [], key, value => [(key, value)]
  | (k, v) :: rest, key, value =>
    if k = key then (k, value) :: rest else (k, v) :: insert rest key value

/-- The record without a key. -/
def erase : List (String × α) → String → List (String × α)
  | [], _ => []
  | (k, v) :: rest, key => if k = key then rest else (k, v) :: erase rest key

/-- The keys in their order. -/
def keys (entries : List (String × α)) : List String := entries.map Prod.fst

theorem keys_cons (k : String) (v : α) (rest : List (String × α)) :
    keys ((k, v) :: rest) = k :: keys rest := rfl

/-- The record that arises from writing the pairs one after the other. -/
def ofPairs (pairs : List (String × α)) : List (String × α) :=
  pairs.foldl (fun entries (k, v) => insert entries k v) []

theorem find?_insert_self (entries : List (String × α)) (key : String) (value : α) :
    find? (insert entries key value) key = some value := by
  induction entries with
  | nil => simp [insert, find?]
  | cons e rest ih =>
    obtain ⟨k, v⟩ := e
    by_cases h : k = key <;> simp [insert, find?, h, ih]

theorem find?_insert_of_ne (entries : List (String × α)) {key other : String} (value : α)
    (hne : other ≠ key) : find? (insert entries key value) other = find? entries other := by
  induction entries with
  | nil => simp [insert, find?, hne.symm]
  | cons e rest ih =>
    obtain ⟨k, v⟩ := e
    by_cases h : k = key
    · subst h
      simp [insert, find?, hne.symm]
    · by_cases h' : k = other
      · subst h'
        simp [insert, find?, hne]
      · simp [insert, find?, h, h', ih]

/-- A present key keeps its place, a new one goes to the end. -/
theorem keys_insert (entries : List (String × α)) (key : String) (value : α) :
    keys (insert entries key value)
      = if key ∈ keys entries then keys entries else keys entries ++ [key] := by
  induction entries with
  | nil => simp [insert, keys]
  | cons e rest ih =>
    obtain ⟨k, v⟩ := e
    simp only [keys] at ih ⊢
    by_cases h : k = key
    · simp [insert, h]
    · have h' : key ≠ k := fun e => h e.symm
      simp only [insert, h, if_false, List.map_cons, ih, List.mem_cons, h', false_or]
      by_cases hm : key ∈ rest.map Prod.fst <;> simp [hm]

theorem find?_eq_none_iff (entries : List (String × α)) (key : String) :
    find? entries key = none ↔ key ∉ keys entries := by
  induction entries with
  | nil => simp [find?, keys]
  | cons e rest ih =>
    obtain ⟨k, v⟩ := e
    simp only [keys] at ih ⊢
    by_cases h : k = key
    · simp [find?, h]
    · have h' : key ≠ k := fun e => h e.symm
      simp [find?, h, h', ih]

theorem find?_erase_of_ne (entries : List (String × α)) {key other : String} (hne : other ≠ key) :
    find? (erase entries key) other = find? entries other := by
  induction entries with
  | nil => rfl
  | cons e rest ih =>
    obtain ⟨k, v⟩ := e
    by_cases h : k = key
    · subst h
      simp [erase, find?, hne.symm]
    · by_cases h' : k = other
      · subst h'
        simp [erase, find?, hne]
      · simp [erase, find?, h, h', ih]

/-- A new key goes to the end. -/
theorem insert_of_not_mem {entries : List (String × α)} {key : String} (h : key ∉ keys entries)
    (value : α) : insert entries key value = entries ++ [(key, value)] := by
  induction entries with
  | nil => rfl
  | cons e rest ih =>
    obtain ⟨k, v⟩ := e
    rw [keys_cons, List.mem_cons, not_or] at h
    rw [insert, if_neg (Ne.symm h.1), ih h.2]
    rfl

/-- Writing to a key is not seen when that key is erased, and is kept when another one is. -/
theorem erase_insert (entries : List (String × α)) (key erased : String) (value : α) :
    erase (insert entries key value) erased
      = if key = erased then erase entries erased else insert (erase entries erased) key value := by
  induction entries with
  | nil => by_cases hkey : key = erased <;> simp [insert, erase, hkey]
  | cons e rest ih =>
    obtain ⟨k, v⟩ := e
    by_cases hk : k = key
    · by_cases hkey : key = erased <;> simp [insert, erase, hk, hkey]
    · by_cases herased : k = erased
      · have hkey : key ≠ erased := fun h => hk (herased.trans h.symm)
        rw [insert, if_neg hk, erase, if_pos herased, erase, if_pos herased, if_neg hkey]
      · rw [insert, if_neg hk, erase, if_neg herased, erase, if_neg herased, ih]
        by_cases hkey : key = erased
        · rw [if_pos hkey, if_pos hkey]
        · rw [if_neg hkey, if_neg hkey]
          simp only [insert, if_neg hk]

/-- Erasing a key leaves the others in their order. -/
theorem keys_erase (entries : List (String × α)) (key : String) :
    keys (erase entries key) = (keys entries).erase key := by
  induction entries with
  | nil => rfl
  | cons e rest ih =>
    obtain ⟨k, v⟩ := e
    simp only [keys] at ih ⊢
    by_cases h : k = key <;> simp [erase, h, ih]

theorem nodup_keys_erase {entries : List (String × α)} (h : (keys entries).Nodup) (key : String) :
    (keys (erase entries key)).Nodup := by
  rw [keys_erase]
  exact h.erase key

theorem nodup_keys_insert {entries : List (String × α)} (h : (keys entries).Nodup) (key : String)
    (value : α) : (keys (insert entries key value)).Nodup := by
  rw [keys_insert]
  split
  · exact h
  · rename_i hmem
    rw [List.nodup_append]
    refine ⟨h, by simp, fun a ha b hb hab => hmem ?_⟩
    rw [List.mem_singleton] at hb
    rw [← hb, ← hab]
    exact ha

theorem find?_erase_self {entries : List (String × α)} (h : (keys entries).Nodup) (key : String) :
    find? (erase entries key) key = none := by
  rw [find?_eq_none_iff, keys_erase]
  exact h.not_mem_erase

theorem map_insert {β : Type} (f : α → β) (entries : List (String × α)) (key : String) (value : α) :
    (insert entries key value).map (fun e => (e.1, f e.2))
      = insert (entries.map fun e => (e.1, f e.2)) key (f value) := by
  induction entries with
  | nil => rfl
  | cons e rest ih =>
    obtain ⟨k, v⟩ := e
    by_cases hk : k = key
    · simp [insert, hk]
    · simp [insert, hk, ih]

/-- A record is its keys in their order, each with its value. -/
theorem map_eq_map_keys {β : Type} (f : String × α → β) (absent : β) :
    ∀ {entries : List (String × α)}, (keys entries).Nodup → entries.map f
      = (keys entries).map fun key => (find? entries key).elim absent fun value => f (key, value)
  | [], _ => rfl
  | (k, value) :: rest, hnodup => by
    have hcons : k ∉ keys rest ∧ (keys rest).Nodup := List.nodup_cons.mp hnodup
    have hself : find? ((k, value) :: rest) k = some value := by rw [find?, if_pos rfl]
    have hrest : ∀ key ∈ keys rest, find? ((k, value) :: rest) key = find? rest key := by
      intro key hkey
      have hne : k ≠ key := by
        rintro rfl
        exact hcons.1 hkey
      rw [find?, if_neg hne]
    have ih := map_eq_map_keys f absent hcons.2
    rw [List.map_cons, keys_cons, List.map_cons, hself, ih]
    refine congrArg (f (k, value) :: ·) (List.map_congr_left fun key hkey => ?_)
    rw [hrest key hkey]

end Keyed
end Markup
