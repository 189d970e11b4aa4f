/-
# Parts of a document

The reader of a part of a document answers the part and the text behind it. What stands
behind is looked at only to see where the part ends, so a part is read alike wherever it
stands, unless a number runs on into what follows it (`Ends`): with more text behind it, a
reader answers the same part and leaves the same rest with more behind it (`Prolongs`). This
passes through readers one after the other (`Prolongs.bind`), so it holds of numbers and
texts from their parts, and of whole values by one induction on the steps, which also gives
that more steps do no harm (`prolongs_value`).

Hence a document can be put together from documents: an object whose values are texts that
are documents of their own, with blanks around them and nested less deep by one, is read as
the object of what those are read as (`readRaw_objectText`). Compact texts are put together
in this way (`compact_object`).

Key definitions: `Json.Prolongs`, `Json.Ends`, `Json.objectText`, `Json.inner`.
Key theorems: `Json.Prolongs.bind`, `Json.prolongs_value`, `Json.readRaw_objectText`,
`Json.compact_object`.
-/
import Markup.Proofs.PrintedText

namespace Markup
namespace Json

/-! ### Readers that are not disturbed by what follows -/

section Parts

variable {α β : Type} {more : List Char}

/-- When `g` reads with more text behind what `f` reads without. -/
def Prolongs (more : List Char) (f g : List Char → Except Fault (α × List Char)) : Prop :=
  ∀ ⦃cs x rest⦄, f cs = .ok (x, rest) → g (cs ++ more) = .ok (x, rest ++ more)

/-- **One after the other.** Where a part is not disturbed and what is read behind it is not
either, both together are not. -/
theorem Prolongs.bind {f g : List Char → Except Fault (α × List Char)}
    {f' g' : α × List Char → Except Fault (β × List Char)} (h : Prolongs more f g)
    (h' : ∀ x, Prolongs more (fun rest => f' (x, rest)) (fun rest => g' (x, rest))) :
    Prolongs more (fun cs => f cs >>= f') (fun cs => g cs >>= g') := by
  intro cs y last hread
  cases hf : f cs with
  | error fault =>
    simp only [hf] at hread
    cases hread
  | ok found =>
    obtain ⟨x, rest⟩ := found
    simp only [hf] at hread
    simp only [h hf]
    exact h' x hread

/-- What is computed from a part already read leaves the rest alone. -/
theorem prolongs_const (r : Except Fault α) :
    Prolongs more (fun cs => r >>= fun x => .ok (x, cs)) (fun cs => r >>= fun x => .ok (x, cs)) := by
  intro cs x rest hread
  cases r with
  | error fault => cases hread
  | ok y =>
    cases hread
    rfl

/-- Blanks are skipped alike unless nothing else is there. -/
theorem skipBlanks_append (cs : List Char) :
    skipBlanks cs = [] ∨ skipBlanks (cs ++ more) = skipBlanks cs ++ more := by
  unfold skipBlanks
  rw [List.dropWhile_append]
  cases cs.dropWhile isBlank with
  | nil => exact Or.inl rfl
  | cons c ds => exact Or.inr rfl

theorem expect_append : ∀ {word cs rest : List Char}, expect word cs = .ok rest →
    expect word (cs ++ more) = .ok (rest ++ more)
  | [], cs, rest, h => by
    cases h
    rfl
  | e :: es, [], rest, h => by cases h
  | e :: es, c :: cs, rest, h => by
    rw [expect] at h
    rw [List.cons_append, expect]
    split at h
    · rename_i hc
      rw [if_pos hc]
      exact expect_append h
    · cases h

/-- A word that stands for a value. -/
theorem prolongs_word {word : List Char} {j : Json} :
    Prolongs more (fun cs => expect word cs >>= fun rest => .ok (j, rest))
      (fun cs => expect word cs >>= fun rest => .ok (j, rest)) := by
  intro cs x rest hread
  cases hword : expect word cs with
  | error fault =>
    simp only [hword] at hread
    cases hread
  | ok tail =>
    simp only [hword] at hread
    cases hread
    simp only [expect_append hword]
    rfl

/-! ### Numbers -/

/-- When a number ends in front of a text: no digit, point or exponent follows. -/
def Ends (cs : List Char) : Prop :=
  ∀ c ∈ cs.head?, Decimal.Digit.ofChar? c = none ∧ c ≠ '.' ∧ c ≠ 'e' ∧ c ≠ 'E'

theorem ends_of_head {c : Char} (hc : c = ',' ∨ c = '\x7d') (cs : List Char) :
    Ends (c :: cs) := by
  intro d hd
  cases hd
  rcases hc with rfl | rfl <;> decide

theorem digitRun_append (h : Ends more) : ∀ cs : List Char,
    digitRun (cs ++ more) = ((digitRun cs).1, (digitRun cs).2 ++ more)
  | [] => by
    cases more with
    | nil => rfl
    | cons c rest =>
      have hc := (h c rfl).1
      simp only [List.nil_append, digitRun, hc]
  | c :: cs => by
    have ih := digitRun_append h cs
    rw [List.cons_append, digitRun, digitRun, ih]
    cases Decimal.Digit.ofChar? c <;> rfl

theorem prolongs_someDigits (h : Ends more) : Prolongs more someDigits someDigits := by
  intro cs ds rest hread
  unfold someDigits at hread ⊢
  rw [digitRun_append h]
  rcases hrun : digitRun cs with ⟨_ | ⟨d, ds'⟩, rest'⟩
  · rw [hrun] at hread
    cases cs <;> cases hread
  · rw [hrun] at hread
    cases hread
    rfl

theorem prolongs_wholePart (h : Ends more) : Prolongs more wholePart wholePart := by
  intro cs ds rest hread
  unfold wholePart at hread ⊢
  refine (prolongs_someDigits h).bind (fun ds tail x rest hds => ?_) hread
  dsimp only at hds ⊢
  split at hds
  · cases hds
  · cases hds
    rfl

theorem prolongs_fractionPart (h : Ends more) : Prolongs more fractionPart fractionPart := by
  intro cs fraction rest hread
  unfold fractionPart at hread
  split at hread
  · exact (prolongs_someDigits h).bind (fun ds => prolongs_const (.ok (some ds))) hread
  · rename_i hpoint
    cases hread
    rw [fractionPart]
    intro tail htail
    cases cs with
    | nil =>
      rw [List.nil_append] at htail
      exact (h '.' (by rw [htail]; rfl)).2.1 rfl
    | cons c cs =>
      cases htail
      exact hpoint cs rfl

/-- The digits of an exponent behind its sign, if there is one. -/
theorem prolongs_digits (h : Ends more) (negative : Bool) : Prolongs more
    (fun cs => someDigits cs >>= fun (ds, rest) =>
      .ok (if negative then -(Decimal.ofDigits ds : Int) else Decimal.ofDigits ds, rest))
    (fun cs => someDigits cs >>= fun (ds, rest) =>
      .ok (if negative then -(Decimal.ofDigits ds : Int) else Decimal.ofDigits ds, rest)) :=
  (prolongs_someDigits h).bind fun _ => prolongs_const (.ok (if negative then _ else _))

theorem signedDigits_of_digit {c : Char} (hplus : c ≠ '+') (hminus : c ≠ '-') (cs : List Char) :
    signedDigits (c :: cs) = someDigits (c :: cs) >>= fun (ds, rest) =>
      .ok (if false then -(Decimal.ofDigits ds : Int) else Decimal.ofDigits ds, rest) := by
  simp [signedDigits, hplus, hminus]

theorem prolongs_signedDigits (h : Ends more) : Prolongs more signedDigits signedDigits := by
  intro cs n rest hread
  cases cs with
  | nil => cases hread
  | cons c cs =>
    by_cases hplus : c = '+'
    · subst hplus
      exact prolongs_digits h false hread
    · by_cases hminus : c = '-'
      · subst hminus
        exact prolongs_digits h true hread
      · rw [signedDigits_of_digit hplus hminus] at hread
        rw [List.cons_append, signedDigits_of_digit hplus hminus]
        exact prolongs_digits h false hread

theorem prolongs_exponentPart (h : Ends more) : Prolongs more exponentPart exponentPart := by
  intro cs exponent rest hread
  unfold exponentPart at hread
  split at hread
  · exact (prolongs_signedDigits h).bind (fun n => prolongs_const (.ok (some n))) hread
  · exact (prolongs_signedDigits h).bind (fun n => prolongs_const (.ok (some n))) hread
  · rename_i hlower hupper
    cases hread
    rw [exponentPart]
    all_goals
      intro tail htail
      cases cs with
      | nil =>
        rw [List.nil_append] at htail
        obtain ⟨-, -, he, hE⟩ := h _ (by rw [htail]; rfl)
        first | exact he rfl | exact hE rfl
      | cons c cs =>
        cases htail
        first | exact hlower cs rfl | exact hupper cs rfl

theorem prolongs_numeral (h : Ends more) (negative : Bool) :
    Prolongs more (numeral negative) (numeral negative) := by
  intro cs j rest hread
  unfold numeral at hread ⊢
  refine (prolongs_wholePart h).bind (fun whole => ?_) hread
  refine (prolongs_fractionPart h).bind fun fraction => ?_
  refine (prolongs_exponentPart h).bind fun exponent => ?_
  cases fraction <;> cases exponent <;> exact prolongs_const _

/-! ### Texts -/

/-- A character in front of what is read. -/
theorem exists_of_cons_eq_ok {r : Except Fault (List Char × List Char)} {c : Char}
    {ds rest : List Char} (h : (r >>= fun (cs, tail) => .ok (c :: cs, tail)) = .ok (ds, rest)) :
    ∃ cs, r = .ok (cs, rest) ∧ ds = c :: cs := by
  cases r with
  | error fault => cases h
  | ok found =>
    cases h
    exact ⟨_, rfl, rfl⟩

/-- A text ends with its closing quote, and an escape in it has a length of its own. -/
theorem prolongs_textTail : Prolongs more textTail textTail := by
  intro cs ds rest hread
  fun_induction textTail cs generalizing ds rest
  case case2 =>
    cases hread
    rw [List.cons_append, textTail]
  case case9 hu htrailing hleading a' b' c' d' rest' v hv hpair ih =>
    obtain ⟨cs, hrest, rfl⟩ := exists_of_cons_eq_ok hread
    simp [textTail, hu, htrailing, hleading, hv, hpair, ih hrest]
    rfl
  case case13 hu htrailing hleading ih =>
    obtain ⟨cs, hrest, rfl⟩ := exists_of_cons_eq_ok hread
    simp only [List.cons_append, textTail, hu, htrailing, hleading, ih hrest]
    rfl
  case case16 he ih =>
    obtain ⟨cs, hrest, rfl⟩ := exists_of_cons_eq_ok hread
    exact textTail_escaped (ih hrest) he
  case case18 c rest' hquote hlone _ _ hescape hle ih =>
    obtain ⟨cs, hrest, rfl⟩ := exists_of_cons_eq_ok hread
    have hbackslash : c ≠ '\\' := by
      intro hc
      cases rest' with
      | nil => exact hlone hc rfl
      | cons e tail => exact hescape e tail hc rfl
    exact textTail_plain (ih hrest) hquote hbackslash (Nat.le_of_not_lt hle)
  all_goals cases hread

theorem prolongs_text : Prolongs more text text := by
  intro cs s rest hread
  unfold text at hread ⊢
  exact prolongs_textTail.bind (fun cs => prolongs_const (.ok (String.ofList cs))) hread

theorem afterColon_append {cs rest : List Char} (h : afterColon cs = .ok rest) :
    afterColon (cs ++ more) = .ok (rest ++ more) := by
  unfold afterColon at h ⊢
  rcases skipBlanks_append cs with hnil | hskip
  · rw [hnil] at h
    cases h
  · rw [hskip]
    generalize skipBlanks cs = ds at h ⊢
    split at h
    · cases h
    · cases h
      rfl
    · cases h

end Parts

/-! ### Values -/

mutual

/-- **Values.** With more steps and more text behind it, a value is read as it is alone. -/
theorem prolongs_value {more : List Char} (h : Ends more) {fuel fuel' : Nat}
    (hfuel : fuel ≤ fuel') (depth : Nat) :
    Prolongs more (value fuel depth) (value fuel' depth) := by
  intro cs j rest hread
  match fuel, fuel', hfuel with
  | 0, _, _ => cases hread
  | fuel + 1, fuel' + 1, hfuel =>
    have hle : fuel ≤ fuel' := Nat.le_of_succ_le_succ hfuel
    rcases skipBlanks_append cs with hnil | hskip
    · rw [value, hnil] at hread
      cases hread
    rw [value] at hread
    rw [value, hskip]
    generalize skipBlanks cs = ds at hread ⊢
    -- the first character says what the value is
    split at hread
    · cases hread
    · exact prolongs_word hread
    · exact prolongs_word hread
    · exact prolongs_word hread
    · exact prolongs_text.bind (fun s => prolongs_const (.ok (Json.string s))) hread
    · exact prolongs_numeral h true hread
    · rename_i tail
      simp only [List.cons_append]
      split at hread
      · cases hread
      · rename_i hdepth
        rw [if_neg hdepth]
        rcases skipBlanks_append tail with hnil | hskip
        · rw [hnil] at hread
          cases hread
        rw [hskip]
        generalize skipBlanks tail = ds at hread ⊢
        split at hread
        · cases hread
        · cases hread
          rfl
        · rename_i hnil hclose
          cases ds with
          | nil => exact absurd rfl hnil
          | cons c ds =>
            -- no bracket closes here, with more text or without
            rw [List.cons_append]
            split
            · rename_i heq
              cases heq
            · rename_i heq
              cases heq
              exact absurd rfl (hclose ds)
            · exact (prolongs_items h hle (depth - 1)).bind
                (fun found => prolongs_const (.ok (Json.array found))) hread
    · rename_i tail
      simp only [List.cons_append]
      split at hread
      · cases hread
      · rename_i hdepth
        rw [if_neg hdepth]
        rcases skipBlanks_append tail with hnil | hskip
        · rw [hnil] at hread
          cases hread
        rw [hskip]
        generalize skipBlanks tail = ds at hread ⊢
        split at hread
        · cases hread
        · cases hread
          rfl
        · rename_i hnil hclose
          cases ds with
          | nil => exact absurd rfl hnil
          | cons c ds =>
            rw [List.cons_append]
            split
            · rename_i heq
              cases heq
            · rename_i heq
              cases heq
              exact absurd rfl (hclose ds)
            · exact (prolongs_members h hle (depth - 1)).bind
                (fun found => prolongs_const (.ok (Json.object found))) hread
    · simp only [List.cons_append]
      split at hread
      · rename_i hdigit
        rw [if_pos hdigit]
        exact prolongs_numeral h false hread
      · cases hread

theorem prolongs_items {more : List Char} (h : Ends more) {fuel fuel' : Nat}
    (hfuel : fuel ≤ fuel') (depth : Nat) :
    Prolongs more (items fuel depth) (items fuel' depth) := by
  intro cs j rest hread
  match fuel, fuel', hfuel with
  | 0, _, _ => cases hread
  | fuel + 1, fuel' + 1, hfuel =>
    have hle : fuel ≤ fuel' := Nat.le_of_succ_le_succ hfuel
    rw [items] at hread ⊢
    refine (prolongs_value h hle depth).bind (fun item cs j rest hread => ?_) hread
    dsimp only at hread ⊢
    rcases skipBlanks_append cs with hnil | hskip
    · rw [hnil] at hread
      cases hread
    rw [hskip]
    generalize skipBlanks cs = ds at hread ⊢
    split at hread
    · cases hread
    · cases hread
      rfl
    · exact (prolongs_items h hle depth).bind
        (fun others => prolongs_const (.ok (item :: others))) hread
    · cases hread

theorem prolongs_members {more : List Char} (h : Ends more) {fuel fuel' : Nat}
    (hfuel : fuel ≤ fuel') (depth : Nat) :
    Prolongs more (members fuel depth) (members fuel' depth) := by
  intro cs j rest hread
  match fuel, fuel', hfuel with
  | 0, _, _ => cases hread
  | fuel + 1, fuel' + 1, hfuel =>
    have hle : fuel ≤ fuel' := Nat.le_of_succ_le_succ hfuel
    rcases skipBlanks_append cs with hnil | hskip
    · rw [members, hnil] at hread
      cases hread
    rw [members] at hread
    rw [members, hskip]
    generalize skipBlanks cs = ds at hread ⊢
    split at hread
    · cases hread
    · refine prolongs_text.bind (fun key cs j rest hread => ?_) hread
      simp only at hread ⊢
      cases hcolon : afterColon cs with
      | error fault =>
        rw [hcolon] at hread
        cases hread
      | ok tail =>
        rw [hcolon] at hread
        rw [afterColon_append hcolon]
        refine (prolongs_value h hle depth).bind (fun item cs j rest hread => ?_) hread
        dsimp only at hread ⊢
        rcases skipBlanks_append cs with hnil | hskip
        · rw [hnil] at hread
          cases hread
        rw [hskip]
        generalize skipBlanks cs = ds at hread ⊢
        split at hread
        · cases hread
        · cases hread
          rfl
        · exact (prolongs_members h hle depth).bind
            (fun others => prolongs_const (.ok ((key, item) :: others))) hread
        · cases hread
    · cases hread

end

/-! ### Objects of documents -/

/-- The members of an object behind its first, from keys and the texts of their values. -/
def rowsChars : List (String × String) → List Char
  | [] => ['\x7d']
  | (key, source) :: rows => ',' :: (textChars key ++ ':' :: (source.toList ++ rowsChars rows))

/-- The characters of an object from its keys and the texts of their values. -/
def objectChars : List (String × String) → List Char
  | [] => ['\x7b', '\x7d']
  | (key, source) :: rows =>
    '\x7b' :: (textChars key ++ ':' :: (source.toList ++ rowsChars rows))

/-- The text of an object from its keys and the texts of their values. -/
def objectText (rows : List (String × String)) : String := String.ofList (objectChars rows)

theorem membersChars_eq : ∀ members : List (String × Json),
    membersChars members = rowsChars (members.map fun e => (e.1, e.2.compact))
  | [] => rfl
  | (key, j) :: members => by
    rw [membersChars, membersChars_eq members, List.map_cons, rowsChars, compact,
      String.toList_ofList]

/-- Compact texts of objects are put together from those of their values. -/
theorem compact_object (members : List (String × Json)) :
    (Json.object members).compact = objectText (members.map fun e => (e.1, e.2.compact)) := by
  rw [compact, objectText]
  cases members with
  | nil => rfl
  | cons e members =>
    rw [compactChars, membersChars_eq, List.map_cons, objectChars, compact, String.toList_ofList]

theorem exists_rowsChars (rows : List (String × String)) :
    ∃ c cs, rowsChars rows = c :: cs ∧ isBlank c = false ∧ Ends (c :: cs) := by
  cases rows with
  | nil => exact ⟨_, _, rfl, rfl, ends_of_head (Or.inr rfl) _⟩
  | cons row rows => exact ⟨_, _, rfl, rfl, ends_of_head (Or.inl rfl) _⟩

/-- What a document is read as stands in front of blanks. -/
theorem exists_of_readNested {depth : Nat} {source : String} {j : Json}
    (h : readNested depth source = .ok j) : ∃ rest, skipBlanks rest = [] ∧
      value (2 * source.toList.length + 2) depth source.toList = .ok (j, rest) := by
  unfold readNested at h
  cases hvalue : value (2 * source.toList.length + 2) depth source.toList with
  | error fault =>
    simp only [hvalue] at h
    cases h
  | ok found =>
    obtain ⟨result, rest⟩ := found
    simp only [hvalue, bind, Except.bind] at h
    split at h
    · rename_i hblank
      cases h
      exact ⟨rest, hblank, rfl⟩
    · cases h

/-- A document in front of the other members of an object. -/
theorem exists_value_rowsChars {depth : Nat} {source : String} {j : Json}
    (h : readNested depth source = .ok j) (rows : List (String × String)) {fuel : Nat}
    (hfuel : 2 * source.toList.length + 2 ≤ fuel) :
    ∃ rest, value fuel depth (source.toList ++ rowsChars rows) = .ok (j, rest) ∧
      skipBlanks rest = rowsChars rows := by
  obtain ⟨c, cs, hrows, hblank, hends⟩ := exists_rowsChars rows
  obtain ⟨rest, hrest, hvalue⟩ := exists_of_readNested h
  refine ⟨rest ++ rowsChars rows, ?_, ?_⟩
  · rw [hrows]
    exact prolongs_value hends hfuel depth hvalue
  · unfold skipBlanks at hrest ⊢
    rw [List.dropWhile_append, hrest, hrows]
    exact List.dropWhile_cons_of_neg (by simp [hblank])

/-- What the text of a value in an object is read as, or null if it is no document. -/
def inner (source : String) : Json :=
  match readNested (maxDepth - 1) source with
  | .ok j => j
  | .error _ => .null

/-- When the text of a value may stand in an object. -/
def IsInner (source : String) : Prop := readNested (maxDepth - 1) source = .ok (inner source)

theorem isInner_of_ok {source : String} {j : Json}
    (h : readNested (maxDepth - 1) source = .ok j) : inner source = j ∧ IsInner source := by
  have hinner : inner source = j := by
    unfold inner
    rw [h]
  refine ⟨hinner, ?_⟩
  rw [IsInner, hinner]
  exact h

/-- The members of an object are read one after the other, each from the text of its value. -/
theorem members_rowsChars : ∀ (fuel : Nat) (key source : String) (rows : List (String × String)),
    (∀ row ∈ (key, source) :: rows, IsInner row.2) →
    2 * (textChars key ++ ':' :: (source.toList ++ rowsChars rows)).length ≤ fuel →
    members fuel (maxDepth - 1) (textChars key ++ ':' :: (source.toList ++ rowsChars rows))
      = .ok (((key, source) :: rows).map fun row => (row.1, inner row.2), [])
  | 0, key, source, rows, _, hfuel => by simp [textChars] at hfuel
  | fuel + 1, key, source, rows, hrows, hfuel => by
    have hlength : 2 * source.toList.length + 2 * (rowsChars rows).length + 3 ≤ fuel := by
      simp only [textChars, List.length_append, List.length_cons] at hfuel
      omega
    have henough : 2 * source.toList.length + 2 ≤ fuel := by omega
    have hsource : IsInner source := hrows (key, source) List.mem_cons_self
    obtain ⟨rest, hvalue, hrest⟩ := exists_value_rowsChars hsource rows henough
    have hskip : skipBlanks (textChars key ++ ':' :: (source.toList ++ rowsChars rows))
        = textChars key ++ ':' :: (source.toList ++ rowsChars rows) := rfl
    have hcolon : afterColon (':' :: (source.toList ++ rowsChars rows))
        = .ok (source.toList ++ rowsChars rows) := rfl
    rw [members, hskip, textChars_append]
    simp only [text_textChars, hcolon, hvalue, hrest, bind, Except.bind]
    cases rows with
    | nil => rfl
    | cons row rows =>
      obtain ⟨next, text⟩ := row
      have hnext : 2 * (textChars next ++ ':' :: (text.toList ++ rowsChars rows)).length ≤ fuel := by
        simp only [rowsChars, List.length_cons] at hlength
        omega
      have ih := members_rowsChars fuel next text rows
        (fun other hother => hrows other (List.mem_cons_of_mem _ hother)) hnext
      simp only [rowsChars, ih]
      rfl

/-- **An object of documents** is read as the object of what they are read as. -/
theorem readRaw_objectText {rows : List (String × String)} (h : ∀ row ∈ rows, IsInner row.2) :
    readRaw (objectText rows) = .ok (.object (rows.map fun row => (row.1, inner row.2))) := by
  rw [readRaw, readNested, objectText, String.toList_ofList]
  cases rows with
  | nil => rfl
  | cons row rows =>
    obtain ⟨key, source⟩ := row
    have hlength : 2 * (textChars key ++ ':' :: (source.toList ++ rowsChars rows)).length
        ≤ 2 * (objectChars ((key, source) :: rows)).length + 1 := by
      simp only [objectChars, List.length_cons]
      omega
    have hmembers := members_rowsChars _ key source rows h hlength
    have hvalue : value (2 * (objectChars ((key, source) :: rows)).length + 2) maxDepth
        (objectChars ((key, source) :: rows))
        = .ok (.object (((key, source) :: rows).map fun row => (row.1, inner row.2)), []) :=
      value_members hmembers
    rw [hvalue]
    rfl

/-! ### Values that are written -/

/-- A text is read back from its compact text. -/
theorem readNested_compact_string (depth : Nat) (s : String) :
    readNested depth (Json.string s).compact = .ok (.string s) := by
  have hvalue := value_textChars (2 * (textChars s).length + 1) depth s []
  rw [List.append_nil] at hvalue
  rw [readNested, compact, String.toList_ofList, compactChars, hvalue]
  rfl

/-- A truth value is read back from its compact text. -/
theorem readNested_compact_bool (depth : Nat) (b : Bool) :
    readNested depth (Json.bool b).compact = .ok (.bool b) := by
  cases b <;> rfl

end Json
end Markup
