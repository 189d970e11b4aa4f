/-
# Escaping is substitution

The scan over bytes and the slices it copies do what one would do to the
characters one by one: `escape_eq` says that the escaped text is the text with
the entities in place of their characters. The entities stand for single bytes,
and no byte of a longer character is one of those (`byteEntity?_of_mem`), so the
scan cuts between characters, where a slice is a row of characters.

Escaped text is inert: it holds no character that opens a tag or may end a quoted
value, and every ampersand in it begins an entity. A decoder that puts the four
characters back for their entities reads the text it was made from.

Key definitions: `Text.Plain`, `Text.cutChars`, `Text.Inert`, `Text.decode`.
Key theorems: `Text.assemble_cutChars`, `Text.escape_eq`, `Text.inert_substitute`,
`Text.decode_substitute`.
-/
import Mathlib.Data.String.Basic
import Markup.Text.Escape

namespace Markup
namespace Text

/-! ### Characters that mean markup -/

/-- Characters none of which means markup. -/
def Plain (cs : List Char) : Prop := ∀ c ∈ cs, entity? c = none

/-- A given row of characters is plain if each is found to be. -/
theorem plain_of_all {cs : List Char} (h : (cs.all fun c => (entity? c).isNone) = true) :
    Plain cs := fun c hc => by
  have hc := List.all_eq_true.mp h c hc
  exact Option.isNone_iff_eq_none.mp hc

theorem entity?_eq_none_iff (c : Char) :
    entity? c = none ↔ c ≠ '"' ∧ c ≠ '&' ∧ c ≠ '\'' ∧ c ≠ '<' := by
  unfold entity?
  split
  · simp
  · simp
  · simp
  · simp
  · rename_i h1 h2 h3 h4
    exact ⟨fun _ => ⟨h1, h2, h3, h4⟩, fun _ => rfl⟩

theorem entity?_of_le {c : Char} (h : 128 ≤ c.toNat) : entity? c = none := by
  rw [entity?_eq_none_iff]
  refine ⟨?_, ?_, ?_, ?_⟩
  all_goals
    rintro rfl
    exact absurd h (by decide)

theorem substitute_cons (c : Char) (cs : List Char) :
    substitute (c :: cs) = entityChars c ++ substitute cs := rfl

theorem substitute_cons_of_none {c : Char} (h : entity? c = none) (cs : List Char) :
    substitute (c :: cs) = c :: substitute cs := by
  rw [substitute_cons, entityChars, h]
  rfl

/-- Plain text is not changed. -/
theorem substitute_plain : ∀ {cs : List Char}, Plain cs → substitute cs = cs
  | [], _ => rfl
  | c :: cs, h => by
    have hc : entity? c = none := h c List.mem_cons_self
    have ih := substitute_plain fun d hd => h d (List.mem_cons_of_mem c hd)
    rw [substitute_cons, ih, entityChars, hc]
    rfl

/-! ### Bytes -/

theorem bytes_eq (s : String) : bytes s = s.toList.flatMap String.utf8EncodeChar := by
  have h : bytes (String.ofList s.toList) = s.toList.flatMap String.utf8EncodeChar := by
    rw [bytes, String.toByteArray_ofList, List.utf8Encode, List.toList_data_toByteArray]
  rw [← h, String.ofList_toList]

/-- A character below 128 is its own byte. -/
theorem utf8EncodeChar_of_lt {c : Char} (h : c.toNat < 128) :
    String.utf8EncodeChar c = [UInt8.ofNat c.toNat] := by
  have : c.val.toNat ≤ 127 := Nat.le_of_lt_succ h
  simp only [String.utf8EncodeChar, this, if_true]
  rfl

/-- Every byte of a longer character is at least 128. -/
theorem le_of_mem_utf8EncodeChar {c : Char} (h : 128 ≤ c.toNat) {b : UInt8}
    (hb : b ∈ String.utf8EncodeChar c) : 128 ≤ b.toNat := by
  have hc : ¬c.val.toNat ≤ 127 := by
    have : c.toNat = c.val.toNat := rfl
    omega
  simp only [String.utf8EncodeChar, hc, if_false] at hb
  split at hb
  · simp only [List.mem_cons, List.not_mem_nil, or_false] at hb
    rcases hb with rfl | rfl <;> simp only [UInt8.toNat_ofNat'] <;> omega
  · split at hb
    · simp only [List.mem_cons, List.not_mem_nil, or_false] at hb
      rcases hb with rfl | rfl | rfl <;> simp only [UInt8.toNat_ofNat'] <;> omega
    · simp only [List.mem_cons, List.not_mem_nil, or_false] at hb
      rcases hb with rfl | rfl | rfl | rfl <;> simp only [UInt8.toNat_ofNat'] <;> omega

theorem toNat_ofUInt8 (b : UInt8) : (Char.ofUInt8 b).toNat = b.toNat := rfl

/-- A character below 128 is read back from its byte. -/
theorem byteEntity?_of_lt {c : Char} (h : c.toNat < 128) :
    byteEntity? (UInt8.ofNat c.toNat) = entity? c := by
  have hchar : Char.ofUInt8 (UInt8.ofNat c.toNat) = c := by
    apply Char.toNat_inj.mp
    rw [toNat_ofUInt8, UInt8.toNat_ofNat']
    omega
  rw [byteEntity?, hchar]

/-- A character without an entity has no byte with one. -/
theorem byteEntity?_of_mem {c : Char} (h : entity? c = none) {b : UInt8}
    (hb : b ∈ String.utf8EncodeChar c) : byteEntity? b = none := by
  by_cases hlt : c.toNat < 128
  · rw [utf8EncodeChar_of_lt hlt, List.mem_singleton] at hb
    rw [hb, byteEntity?_of_lt hlt]
    exact h
  · have hle := le_of_mem_utf8EncodeChar (Nat.le_of_not_lt hlt) hb
    exact entity?_of_le hle

/-- A character with an entity is a single byte with that entity. -/
theorem utf8EncodeChar_of_entity {c : Char} {e : String} (h : entity? c = some e) :
    ∃ b, String.utf8EncodeChar c = [b] ∧ byteEntity? b = some e ∧ c.utf8Size = 1 := by
  have hlt : c.toNat < 128 := by
    by_contra hle
    rw [entity?_of_le (Nat.le_of_not_lt hle)] at h
    exact absurd h (by simp)
  have hbytes := utf8EncodeChar_of_lt hlt
  refine ⟨_, hbytes, (byteEntity?_of_lt hlt).trans h, ?_⟩
  rw [← String.length_utf8EncodeChar, hbytes]
  rfl

/-! ### The scan -/

/-- The scan goes on over bytes without an entity. -/
theorem cut_append : ∀ {bs : List UInt8} (_ : ∀ b ∈ bs, byteEntity? b = none) (rest : List UInt8)
    (start pos : Nat), cut (bs ++ rest) start pos = cut rest start (pos + bs.length)
  | [], _, _, _, _ => rfl
  | b :: bs, h, rest, start, pos => by
    have hb : byteEntity? b = none := h b List.mem_cons_self
    have ih := cut_append (fun d hd => h d (List.mem_cons_of_mem b hd)) rest start (pos + 1)
    rw [List.cons_append, cut, hb]
    show cut (bs ++ rest) start (pos + 1) = _
    rw [ih, List.length_cons, Nat.add_right_comm, Nat.add_assoc]

/-- The pieces of a text `before ++ copied ++ rest` from the end of `before` on, where the scan
stands in front of `rest` and still has to copy `copied`. -/
def cutChars (before copied rest : List Char) : List Piece :=
  cut (rest.flatMap String.utf8EncodeChar) (String.utf8Len before)
    (String.utf8Len before + String.utf8Len copied)

/-- The slice of `copied` in a text `before ++ copied ++ rest`. -/
def sliceChars (before copied : List Char) : Piece :=
  .slice (String.utf8Len before) (String.utf8Len before + String.utf8Len copied)

theorem cutChars_nil (before copied : List Char) :
    cutChars before copied [] = [sliceChars before copied] := rfl

/-- At a character with an entity the scan copies what it has to and starts again behind. -/
theorem cutChars_of_entity {c : Char} {e : String} (h : entity? c = some e)
    (before copied rest : List Char) : cutChars before copied (c :: rest)
      = sliceChars before copied :: .entity e :: cutChars (before ++ copied ++ [c]) [] rest := by
  obtain ⟨b, hbytes, hb, hsize⟩ := utf8EncodeChar_of_entity h
  have hlen : String.utf8Len (before ++ copied ++ [c])
      = String.utf8Len before + String.utf8Len copied + 1 := by
    simp [hsize, Nat.add_assoc]
  rw [cutChars, List.flatMap_cons, hbytes, List.singleton_append, cut, hb, cutChars, hlen]
  rfl

/-- Any other character is to be copied with those in front of it. -/
theorem cutChars_of_none {c : Char} (h : entity? c = none) (before copied rest : List Char) :
    cutChars before copied (c :: rest) = cutChars before (copied ++ [c]) rest := by
  have hlen : String.utf8Len before + String.utf8Len (copied ++ [c])
      = String.utf8Len before + String.utf8Len copied + (String.utf8EncodeChar c).length := by
    simp [Nat.add_assoc]
  rw [cutChars, List.flatMap_cons, cut_append fun b hb => byteEntity?_of_mem h hb, cutChars, hlen]

/-- The text of a slice of characters. -/
theorem read_sliceChars (before copied rest : List Char) :
    (sliceChars before copied).read (String.ofList (before ++ copied ++ rest))
      = String.ofList copied := by
  rw [sliceChars, Piece.read, String.extract_of_valid]

theorem assemble_cons (s : String) (p : Piece) (ps : List Piece) :
    assemble s (p :: ps) = p.read s ++ assemble s ps := by
  rw [assemble, List.map_cons, String.join_cons]
  rfl

theorem assemble_nil (s : String) : assemble s [] = "" := by
  rw [assemble, List.map_nil, String.join_nil]

/-- **The scan writes what it still has to copy, then the rest with entities.** -/
theorem assemble_cutChars : ∀ (rest before copied : List Char),
    assemble (String.ofList (before ++ copied ++ rest)) (cutChars before copied rest)
      = String.ofList (copied ++ substitute rest)
  | [], before, copied => by
    rw [cutChars_nil, assemble_cons, assemble_nil, String.append_empty, read_sliceChars]
    simp [substitute]
  | c :: rest, before, copied => by
    rw [substitute_cons]
    cases hc : entity? c with
    | some e =>
      have ih := assemble_cutChars rest (before ++ copied ++ [c]) []
      have htext : before ++ copied ++ [c] ++ [] ++ rest = before ++ copied ++ c :: rest := by simp
      rw [htext] at ih
      rw [cutChars_of_entity hc, assemble_cons, assemble_cons, read_sliceChars, ih]
      simp [Piece.read, entityChars, hc, String.ofList_append]
    | none =>
      have ih := assemble_cutChars rest before (copied ++ [c])
      have htext : before ++ (copied ++ [c]) ++ rest = before ++ copied ++ c :: rest := by simp
      rw [htext] at ih
      rw [cutChars_of_none hc, ih, entityChars, hc]
      simp

/-- Escaping a text from its first byte on substitutes every character of it. -/
theorem assemble_piecesFrom_zero (s : String) :
    assemble s (piecesFrom s 0) = String.ofList (substitute s.toList) := by
  have h := assemble_cutChars s.toList [] []
  rw [List.append_nil, List.nil_append, List.nil_append, String.ofList_toList] at h
  rw [piecesFrom, List.drop_zero, bytes_eq]
  exact h

theorem escapeOnto_eq (out s : String) :
    escapeOnto out s = out ++ String.ofList (substitute s.toList) := by
  rw [escapeOnto, assemble_piecesFrom_zero]

/-- An empty slice is the empty text. -/
theorem read_slice_self (s : String) (pos : Nat) : Piece.read s (.slice pos pos) = "" := by
  simp [Piece.read, String.Pos.Raw.extract]

/-- What lies in front of the first byte with an entity may be copied ahead. -/
theorem assemble_first (s : String) {pos : Nat} {bs : List UInt8} {b : UInt8} {e : String}
    (hb : byteEntity? b = some e) :
    assemble s (.slice 0 pos :: cut (b :: bs) pos pos) = assemble s (cut (b :: bs) 0 pos) := by
  simp only [cut, hb, assemble_cons, read_slice_self, String.empty_append]

/-- A text whose bytes have no entity is plain. -/
theorem plain_of_bytes {s : String} (h : ∀ b ∈ bytes s, byteEntity? b = none) : Plain s.toList := by
  intro c hc
  cases he : entity? c with
  | none => rfl
  | some e =>
    obtain ⟨b, hbytes, hb, -⟩ := utf8EncodeChar_of_entity he
    have hmem : b ∈ bytes s := by
      rw [bytes_eq]
      exact List.mem_flatMap.mpr ⟨c, hc, by rw [hbytes]; exact List.mem_singleton_self b⟩
    rw [h b hmem] at hb
    exact absurd hb (by simp)

/-- **Escaping is substitution.** -/
theorem escape_eq (s : String) : escape s = String.ofList (substitute s.toList) := by
  rw [escape, escape?, pieces?]
  cases hfirst : firstSpecial? s with
  | none =>
    rw [firstSpecial?, List.findIdx?_eq_none_iff] at hfirst
    have hplain : Plain s.toList := plain_of_bytes fun b hb => by simpa using hfirst b hb
    rw [substitute_plain hplain, String.ofList_toList]
    rfl
  | some first =>
    rw [firstSpecial?, List.findIdx?_eq_some_iff_getElem] at hfirst
    obtain ⟨hlt, hsome, hbefore⟩ := hfirst
    obtain ⟨e, he⟩ := Option.isSome_iff_exists.mp hsome
    have htake : ∀ b ∈ (bytes s).take first, byteEntity? b = none := by
      intro b hb
      obtain ⟨j, hj, rfl⟩ := List.mem_take_iff_getElem.mp hb
      simpa using hbefore j (by omega)
    have hscan : cut (bytes s) 0 0 = cut ((bytes s).drop first) 0 first := by
      have := cut_append htake ((bytes s).drop first) 0 0
      rw [List.take_append_drop, List.length_take_of_le (Nat.le_of_lt hlt), Nat.zero_add] at this
      exact this
    rw [← assemble_piecesFrom_zero, piecesFrom, List.drop_zero, hscan]
    show assemble s (.slice 0 first :: piecesFrom s first) = _
    rw [piecesFrom, List.drop_eq_getElem_cons hlt]
    exact assemble_first s he

theorem escape_append (s t : String) : escape (s ++ t) = escape s ++ escape t := by
  rw [escape_eq, String.toList_append, substitute_append, String.ofList_append, ← escape_eq,
    ← escape_eq]

/-- Plain text needs no escaping. -/
theorem escape_plain {s : String} (h : Plain s.toList) : escape s = s := by
  rw [escape_eq, substitute_plain h, String.ofList_toList]

theorem escape_empty : escape "" = "" := escape_plain (plain_of_all rfl)

/-! ### What is left of markup -/

/-- Whether a character opens a tag or may end a quoted value. -/
def isDelimiter (c : Char) : Bool := c = '<' || c = '"' || c = '\''

/-- The entities. -/
def entities : List String := ["&quot;", "&amp;", "&#39", "&lt;"]

/-- Characters none of which is a delimiter, where every ampersand begins an entity. -/
structure Inert (cs : List Char) : Prop where
  filter_eq : cs.filter isDelimiter = []
  entity : ∀ rest, '&' :: rest <:+ cs → ∃ e ∈ entities, e.toList <+: '&' :: rest

/-- No delimiter stands in inert text. -/
theorem Inert.not_mem {cs : List Char} (h : Inert cs) {c : Char} (hc : isDelimiter c = true) :
    c ∉ cs := fun hmem => List.filter_eq_nil_iff.mp h.filter_eq c hmem hc

theorem inert_append {cs ds : List Char} (hc : Inert cs) (hd : Inert ds) : Inert (cs ++ ds) := by
  refine ⟨by rw [List.filter_append, hc.filter_eq, hd.filter_eq, List.append_nil], ?_⟩
  intro rest hrest
  rcases List.suffix_or_suffix_of_suffix hrest (List.suffix_append cs ds) with inside | ⟨front, hfront⟩
  · exact hd.entity rest inside
  · cases front with
    | nil => exact hd.entity rest ⟨[], hfront.symm⟩
    | cons c front =>
      -- the ampersand stands in the first part, and its entity with it
      rw [List.cons_append, List.cons.injEq] at hfront
      obtain ⟨rfl, rfl⟩ := hfront
      have hsuffix : '&' :: front <:+ cs := by
        rw [← List.cons_append] at hrest
        exact (List.suffix_append_inj_of_length_eq rfl).mp hrest |>.1
      obtain ⟨e, he, hprefix⟩ := hc.entity front hsuffix
      exact ⟨e, he, hprefix.trans (List.prefix_append _ ds)⟩

theorem inert_nil : Inert [] := by
  refine ⟨rfl, fun rest hrest => ?_⟩
  rw [List.suffix_nil] at hrest
  cases hrest

/-- A character that means no markup is inert. -/
theorem inert_singleton {c : Char} (h : entity? c = none) : Inert [c] := by
  obtain ⟨hquote, hampersand, happostrophe, hless⟩ := (entity?_eq_none_iff c).mp h
  refine ⟨by simp [isDelimiter, hquote, happostrophe, hless], fun rest hrest => ?_⟩
  have hmem : '&' ∈ [c] := hrest.subset List.mem_cons_self
  exact absurd (List.mem_singleton.mp hmem).symm hampersand

theorem inert_entityChars (c : Char) : Inert (entityChars c) := by
  unfold entityChars
  split
  · rename_i e he
    -- the ampersand of an entity stands only in front of it
    unfold entity? at he
    split at he <;> cases he
    all_goals
      refine ⟨by decide, fun rest hrest => ?_⟩
      simp [List.suffix_cons_iff] at hrest
      simp [hrest, entities]
  · rename_i h
    exact inert_singleton h

/-- **Escaped text is inert.** -/
theorem inert_substitute : ∀ cs : List Char, Inert (substitute cs)
  | [] => inert_nil
  | c :: cs => inert_append (inert_entityChars c) (inert_substitute cs)

theorem inert_plain {cs : List Char} (h : Plain cs) : Inert cs := by
  rw [← substitute_plain h]
  exact inert_substitute cs

/-! ### Reading entities back -/

/-- A text with the characters in place of their entities. -/
def decode : List Char → List Char
  | '&' :: 'q' :: 'u' :: 'o' :: 't' :: ';' :: rest => '"' :: decode rest
  | '&' :: 'a' :: 'm' :: 'p' :: ';' :: rest => '&' :: decode rest
  | '&' :: '#' :: '3' :: '9' :: rest => '\'' :: decode rest
  | '&' :: 'l' :: 't' :: ';' :: rest => '<' :: decode rest
  | c :: rest => c :: decode rest
  | [] => []

/-- What stands for a character is read as that character. -/
theorem decode_entityChars (c : Char) (rest : List Char) :
    decode (entityChars c ++ rest) = c :: decode rest := by
  unfold entityChars entity?
  split
  · rename_i h
    split at h
    · cases h; rfl
    · cases h; rfl
    · cases h; rfl
    · cases h; rfl
    · cases h
  · rename_i h
    split at h
    · cases h
    · cases h
    · cases h
    · cases h
    · rename_i hamp _ _
      rw [List.singleton_append, decode]
      all_goals simp_all

/-- **A decoder reads the text that was escaped.** -/
theorem decode_substitute : ∀ cs : List Char, decode (substitute cs) = cs
  | [] => rfl
  | c :: cs => by rw [substitute_cons, decode_entityChars, decode_substitute cs]

/-- Different texts are different when escaped. -/
theorem escape_inj {s t : String} : escape s = escape t ↔ s = t := by
  refine ⟨fun h => ?_, fun h => by rw [h]⟩
  rw [escape_eq, escape_eq, String.ofList_inj] at h
  have decoded := congrArg decode h
  rw [decode_substitute, decode_substitute] at decoded
  exact String.toList_inj.mp decoded

theorem substitute_eq_nil_iff (cs : List Char) : substitute cs = [] ↔ cs = [] := by
  refine ⟨fun h => ?_, fun h => by rw [h]; rfl⟩
  cases cs with
  | nil => rfl
  | cons c cs =>
    rw [substitute_cons, List.append_eq_nil_iff] at h
    have hdecode := decode_entityChars c []
    rw [h.1] at hdecode
    cases hdecode

end Text
end Markup
