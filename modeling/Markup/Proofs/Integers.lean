/-
# The text of an integer

An integer reaches a page as a value of one of many types, or as a number of a JSON document.
All of them make the same number of it (`Number.IsOf.spec`): a value in the signed 64-bit range
is kept, one up to 64 bits becomes the nearest double, and wider integers, which only documents
hold, become the doubles that their reader takes them for.

So the text is the decimal of the integer in the signed 64-bit range. Up to 2⁵³ a double with
the same value has the same text; a document with a point and a zero behind the integer has it
where the integer is kept as tenths. Above the signed range the text is that of the double: up
to 10²¹ an integer of which that is the nearest double, and a numeral with an exponent from
there on (`Number.text_of_integer`).

Key definitions: `Number.IsOf`, `Number.TextOfInteger`.
Key theorems: `Number.IsOf.spec`, `Number.exists_nearest_large`, `Number.text_of_integer`.
-/
import Markup.Attribute
import Markup.Proofs.Tenths
import Markup.Proofs.WholeDocuments

namespace Markup
namespace Number

/-! ### Conversions -/

/-- The numbers that an integer becomes: from every type that holds it, and from the number of a
JSON document that is its decimal. -/
inductive IsOf (v : Int) : Number → Prop
  | int8 (x : Int8) : x.toInt = v → IsOf v (toNumber x)
  | int16 (x : Int16) : x.toInt = v → IsOf v (toNumber x)
  | int32 (x : Int32) : x.toInt = v → IsOf v (toNumber x)
  | int64 (x : Int64) : x.toInt = v → IsOf v (toNumber x)
  | isize (x : ISize) : x.toInt = v → IsOf v (toNumber x)
  | uint8 (x : UInt8) : x.toNat = v → IsOf v (toNumber x)
  | uint16 (x : UInt16) : x.toNat = v → IsOf v (toNumber x)
  | uint32 (x : UInt32) : x.toNat = v → IsOf v (toNumber x)
  | uint64 (x : UInt64) : x.toNat = v → IsOf v (toNumber x)
  | usize (x : USize) : x.toNat = v → IsOf v (toNumber x)
  | json {j : Json} {n : Number} : Json.ofText (toString v) = .ok j →
      AttributeValue.ofJson j = .number n → IsOf v n

/-- Whether a document may hold an integer: if it is wider than 64 bits, the double it is read
as must not be too large. -/
def Fits (v : Int) : Prop :=
  v.natAbs < 0x10000000000000000 ∨ Json.wide v.natAbs + 2 ^ 970 < 2 ^ 1024

/-- The number that an integer becomes. -/
def ofInteger (v : Int) : Number :=
  if v.natAbs < 0x10000000000000000 then ofJsonInteger v
  else float (Format.double.nearest (decide (v < 0)) (Json.wide v.natAbs) 1)

theorem ofInteger_of_lt {v : Int} (h : v.natAbs < 0x10000000000000000) :
    ofInteger v = ofJsonInteger v := if_pos h

theorem ofInteger_of_le {v : Int} (h : 0x10000000000000000 ≤ v.natAbs) :
    ofInteger v = float (Format.double.nearest (decide (v < 0)) (Json.wide v.natAbs) 1) :=
  if_neg (Nat.not_lt.mpr h)

theorem int_spec {x : Int64} {v : Int} (h : x.toInt = v) : int x = ofInteger v ∧ Fits v := by
  subst h
  have hlow := x.le_toInt
  have hhigh := x.toInt_lt
  have hlt : x.toInt.natAbs < 0x10000000000000000 := by omega
  refine ⟨?_, Or.inl hlt⟩
  rw [ofInteger_of_lt hlt, ofJsonInteger, if_pos ⟨hlow, hhigh⟩, Int64.ofInt_toInt]

theorem ofUInt64_spec {x : UInt64} {v : Int} (h : x.toNat = v) :
    ofUInt64 x = ofInteger v ∧ Fits v := by
  subst h
  have hlt : (x.toNat : Int).natAbs < 0x10000000000000000 := x.toNat_lt
  refine ⟨?_, Or.inl hlt⟩
  rw [ofInteger_of_lt hlt, ofUInt64, ofJsonInteger]
  by_cases h : x.toNat < 0x8000000000000000
  · have hint : Int64.ofInt x.toNat = x.toInt64 := by
      rw [Int64.ofInt_eq_ofNat, ← UInt64.toInt64_ofNat', UInt64.ofNat_toNat]
    rw [if_pos h, if_pos (by omega), hint]
  · have hsign : decide ((x.toNat : Int) < 0) = false := decide_eq_false (by omega)
    rw [if_neg h, if_neg (by omega), hsign]
    rfl

/-- A small unsigned value is one of 64 bits in the signed range. -/
theorem int_toInt64_spec {x : UInt64} (hx : x.toNat < 2 ^ 32) {v : Int} (h : x.toNat = v) :
    int x.toInt64 = ofInteger v ∧ Fits v := by
  rw [← (ofUInt64_spec h).1, ofUInt64, if_pos (by omega)]
  exact ⟨rfl, (ofUInt64_spec h).2⟩

/-- An integer of a document with its sign. -/
theorem ofJson_ofCount (v : Int) :
    AttributeValue.ofJson (Json.ofCount (decide (v < 0)) v.natAbs) = .number (ofJsonInteger v) := by
  unfold Json.ofCount
  by_cases hneg : v < 0
  · have hvalue : -(v.natAbs : Int) = v := by omega
    rw [decide_eq_true hneg, if_pos rfl, hvalue]
    split
    · rw [ofJsonInteger, if_neg (by omega), decide_eq_true hneg]
      rfl
    · rfl
  · have hvalue : (v.natAbs : Int) = v := by omega
    rw [decide_eq_false hneg, if_neg Bool.false_ne_true, hvalue]
    rfl

/-- **A document that is an integer is read exactly if it fits**, as the number that the
integer becomes. -/
theorem ofWhole_spec (v : Int) : (Fits v → ∃ j,
      Json.ofWhole (decide (v < 0)) (Decimal.digits v.natAbs) = .ok j) ∧
    ∀ j, Json.ofWhole (decide (v < 0)) (Decimal.digits v.natAbs) = .ok j →
      AttributeValue.ofJson j = .number (ofInteger v) ∧ Fits v := by
  rw [Json.ofWhole_digits]
  split
  · rename_i hlt
    refine ⟨fun _ => ⟨_, rfl⟩, fun j hj => ?_⟩
    cases hj
    rw [ofInteger_of_lt hlt]
    exact ⟨ofJson_ofCount v, Or.inl hlt⟩
  · rename_i hge
    rw [ofInteger_of_le (Nat.le_of_not_lt hge)]
    have hinfinite := Format.double_nearest_eq_infinity_iff (decide (v < 0)) (Json.wide v.natAbs)
    obtain hnone | ⟨m, e, hsome⟩ :=
      Format.nearest_cases Format.double (decide (v < 0)) (Json.wide v.natAbs) 1
    · have hlarge := hinfinite.mp hnone
      rw [hnone]
      exact ⟨fun h => absurd (h.resolve_left hge) hlarge.not_gt, nofun⟩
    · have hfits : Json.wide v.natAbs + 2 ^ 970 < 2 ^ 1024 := by
        refine Nat.lt_of_not_le fun hlarge => ?_
        rw [hinfinite.mpr hlarge] at hsome
        cases hsome
      rw [hsome]
      refine ⟨fun _ => ⟨_, rfl⟩, fun j hj => ?_⟩
      cases hj
      exact ⟨rfl, Or.inr hfits⟩

theorem isOf_of_fits {v : Int} (h : Fits v) : IsOf v (ofInteger v) := by
  obtain ⟨j, hj⟩ := (ofWhole_spec v).1 h
  exact .json ((Json.ofText_toString v j).mpr hj) ((ofWhole_spec v).2 j hj).1

/-- **Every conversion of an integer makes the same number.** -/
theorem IsOf.spec {v : Int} {n : Number} (h : IsOf v n) : n = ofInteger v ∧ Fits v := by
  cases h with
  | int8 x h => exact int_spec ((Int8.toInt_toInt64 x).trans h)
  | int16 x h => exact int_spec ((Int16.toInt_toInt64 x).trans h)
  | int32 x h => exact int_spec ((Int32.toInt_toInt64 x).trans h)
  | int64 x h => exact int_spec h
  | isize x h => exact int_spec ((ISize.toInt_toInt64 x).trans h)
  | uint8 x h =>
    have hsmall := x.toNat_lt
    rw [← UInt8.toNat_toUInt64] at h hsmall
    exact int_toInt64_spec (by omega) h
  | uint16 x h =>
    have hsmall := x.toNat_lt
    rw [← UInt16.toNat_toUInt64] at h hsmall
    exact int_toInt64_spec (by omega) h
  | uint32 x h =>
    have hsmall := x.toNat_lt
    rw [← UInt32.toNat_toUInt64] at h hsmall
    exact int_toInt64_spec (by omega) h
  | uint64 x h => exact ofUInt64_spec h
  | usize x h =>
    rw [← USize.toNat_toUInt64] at h
    exact ofUInt64_spec h
  | json htext hnumber =>
    obtain ⟨heq, hfits⟩ := (ofWhole_spec v).2 _ ((Json.ofText_toString v _).mp htext)
    rw [heq] at hnumber
    exact ⟨(AttributeValue.number.inj hnumber).symm, hfits⟩

/-! ### Texts -/

/-- The double nearest to a large integer has an integer unit. -/
theorem exists_nearest_large {n : Nat} (hn : 2 ^ 54 ≤ n) (h : n + 2 ^ 970 < 2 ^ 1024) :
    ∃ m j : Nat, m ≠ 0 ∧ Format.double.Holds m j ∧ m * 2 ^ j = Format.rounded n ∧
      Format.double.ofNat n = .finite false m j := by
  obtain ⟨m, e, hnearest, hvalue⟩ := Format.exists_nearest_nat false h
  have hholds := Format.holds_of_nearest_nat hnearest hvalue
  have hlarge : (2 : ℚ) ^ 53 ≤ Format.rounded n := by
    have hkept := Format.le_two_mul_rounded n
    exact_mod_cast (by omega : 2 ^ 53 ≤ Format.rounded n)
  have hmax : (m : ℚ) < 2 ^ 53 := by exact_mod_cast hholds.lt
  have he : 0 ≤ e := by
    by_contra hneg
    have hone : (2 : ℚ) ^ e ≤ 1 := zpow_le_one_of_nonpos₀ (by norm_num) (by omega)
    have hsmall := mul_le_mul_of_nonneg_left hone (m.cast_nonneg : (0 : ℚ) ≤ m)
    linarith
  obtain ⟨j, rfl⟩ := Int.eq_ofNat_of_zero_le he
  rw [zpow_natCast] at hvalue
  refine ⟨m, j, ?_, hholds, by exact_mod_cast hvalue, hnearest⟩
  rintro rfl
  rw [Nat.cast_zero, zero_mul] at hvalue
  linarith

theorem le_wide {n : Nat} (h : 0x10000000000000000 ≤ n) : 2 ^ 54 ≤ Json.wide n := by
  obtain ⟨hlow, -⟩ := Json.kept_bounds h
  have hkept := Format.le_two_mul_rounded (n / 10 ^ Json.excess n)
  have hten := Format.le_two_mul_rounded (10 ^ Json.excess n)
  have hpos := Nat.pow_pos (n := Json.excess n) (show 0 < 10 by decide)
  have hproduct := Nat.le_mul_of_pos_right (Format.rounded (n / 10 ^ Json.excess n))
    (show 0 < Format.rounded (10 ^ Json.excess n) by omega)
  rw [Json.wide]
  omega

/-- Whether a text is digits and nothing else. -/
def PlainDigits (s : String) : Prop := s ≠ "" ∧ ∀ c ∈ s.toList, c.isDigit = true

theorem plainDigits_toString (n : Nat) : PlainDigits (toString n) := by
  have hchars : (toString n).toList = Nat.toDigits 10 n := by
    rw [Nat.toString_eq_repr, Nat.toList_repr]
  refine ⟨fun hnil => Nat.toDigits_ne_nil (n := n) (b := 10) ?_, fun c hc => ?_⟩
  · rw [← hchars, hnil]
    rfl
  · rw [hchars] at hc
    exact Nat.isDigit_of_mem_toDigits (by decide) (by decide) hc

/-- What the text of an integer is, whichever way the integer comes:

* all conversions make the same number of it;
* a document that is its decimal is read if it fits 64 bits, or else if the product that it is
  read as has a nearest double;
* in the signed range the text is its decimal;
* up to 2⁵³ a double with its value has the same text, and the double that a document with a
  point and a zero behind its decimal is read as has it if the integer is kept as tenths;
* above the signed range it is a double: the nearest one up to 64 bits, beyond them the one that
  its reader multiplies, which is off by no more than the 2⁵¹st part. Below 10²¹, as all doubles
  up to 64 bits are, the text is the decimal of an integer with the same nearest double; from
  there on it has an exponent. -/
structure TextOfInteger (v : Int) : Prop where
  same : ∀ n n', IsOf v n → IsOf v n' → n = n'
  document : (v.natAbs < 2 ^ 64 ∨ Json.wide v.natAbs + 2 ^ 970 < 2 ^ 1024) ↔
    ∃ j n, Json.ofText (toString v) = .ok j ∧ AttributeValue.ofJson j = .number n
  signed : -2 ^ 63 ≤ v → v < 2 ^ 63 → ∀ n, IsOf v n → n.text = toString v
  double : v.natAbs ≤ 2 ^ 53 → ∀ bits : UInt64,
    (Format.double.decode bits.toNat).value? = some (v : ℚ) → (ofDoubleBits bits).text = toString v
  tenths : v.natAbs ≤ 2 ^ 53 → ∃ j n, Json.ofText (toString v ++ ".0") = .ok j ∧
    AttributeValue.ofJson j = .number n ∧
      (n.text = toString v ↔ Format.KeptAsTenths v.natAbs)
  large : 2 ^ 63 ≤ v → ∀ n, IsOf v n → ∃ m j : Nat, n = float (.finite false m j) ∧
    (v < 2 ^ 64 → Format.double.ofNat v.natAbs = .finite false m j ∧ m * 2 ^ j < 10 ^ 21) ∧
    (2 ^ 64 ≤ v → Format.double.ofNat (Json.wide v.natAbs) = .finite false m j ∧
      |(m * 2 ^ j : ℚ) - v| ≤ v / 2 ^ 51) ∧
    (m * 2 ^ j < 10 ^ 21 → PlainDigits n.text ∧
      ∃ k : Nat, n.text = toString k ∧ Format.double.ofNat k = .finite false m j) ∧
    (10 ^ 21 ≤ m * 2 ^ j → 'e' ∈ n.text.toList)

/-- Above the signed range an integer becomes a double with an integer unit. -/
theorem ofInteger_large {v : Int} (hv : 2 ^ 63 ≤ v) (h : Fits v) : ∃ m j : Nat, m ≠ 0 ∧
    Format.double.Holds m j ∧ ofInteger v = float (.finite false m j) ∧
    (v < 2 ^ 64 → Format.double.ofNat v.natAbs = .finite false m j ∧ m * 2 ^ j < 10 ^ 21) ∧
    (2 ^ 64 ≤ v → Format.double.ofNat (Json.wide v.natAbs) = .finite false m j ∧
      |(m * 2 ^ j : ℚ) - v| ≤ v / 2 ^ 51) := by
  have hsign : decide (v < 0) = false := decide_eq_false (by omega)
  have hcast : (v.natAbs : ℚ) = v := by
    rw [Nat.cast_natAbs, Int.cast_abs, abs_of_nonneg]
    exact_mod_cast (by omega : 0 ≤ v)
  rcases Nat.lt_or_ge v.natAbs 0x10000000000000000 with hlt | hge
  · obtain ⟨m, j, hm, hholds, hvalue, hnearest⟩ :=
      exists_nearest_large (n := v.natAbs) (by omega) (Format.add_lt_of_le (by omega))
    refine ⟨m, j, hm, hholds, ?_, fun _ => ⟨hnearest, ?_⟩, fun hle => by omega⟩
    · rw [ofInteger_of_lt hlt, ofJsonInteger, if_neg (by omega), hsign]
      exact congrArg float hnearest
    · have hless := Format.rounded_le_two_mul v.natAbs
      omega
  · obtain ⟨m, j, hm, hholds, hvalue, hnearest⟩ :=
      exists_nearest_large (le_wide hge) (h.resolve_left (Nat.not_lt.mpr hge))
    refine ⟨m, j, hm, hholds, ?_, fun hless => by omega, fun _ => ⟨hnearest, ?_⟩⟩
    · rw [ofInteger_of_le hge, hsign]
      exact congrArg float hnearest
    · have hnear := Json.rounded_wide_near hge
      rw [← hvalue, hcast] at hnear
      exact_mod_cast hnear

/-- **The way an integer comes does not change its text.** -/
theorem text_of_integer (v : Int) : TextOfInteger v where
  same n n' h h' := h.spec.1.trans h'.spec.1.symm
  document := by
    refine ⟨fun h => ?_, fun ⟨j, n, htext, hn⟩ => (IsOf.json htext hn).spec.2⟩
    obtain ⟨j, hj⟩ := (ofWhole_spec v).1 h
    exact ⟨j, _, (Json.ofText_toString v j).mpr hj, ((ofWhole_spec v).2 j hj).1⟩
  signed hlow hhigh n h := by
    rw [h.spec.1, ofInteger_of_lt (by omega), text_ofJsonInteger ⟨hlow, hhigh⟩,
      Decimal.intText_eq_toString]
  double hle bits hvalue := by
    cases hx : Format.double.decode bits.toNat with
    | nan | infinity s =>
      rw [hx] at hvalue
      cases hvalue
    | finite s m e =>
      rw [hx] at hvalue
      rw [ofDoubleBits, hx]
      exact text_of_value (Format.holds_of_decode (by decide) hx) hvalue hle
  tenths hle := ⟨_, _, Json.ofText_point_zero hle, rfl, text_tenths_iff hle⟩
  large hv n h := by
    obtain ⟨rfl, hfits⟩ := h.spec
    obtain ⟨m, j, hm, hholds, hnumber, hword, hwide⟩ := ofInteger_large hv hfits
    rw [hnumber]
    obtain ⟨hsmall, hhuge⟩ := text_large hholds hm
    refine ⟨m, j, rfl, hword, hwide, fun hlt => ?_, hhuge⟩
    obtain ⟨k, htext, hk⟩ := hsmall hlt
    exact ⟨htext ▸ plainDigits_toString k, k, htext, hk⟩

example : (toNumber (18446744073709551615 : UInt64)).text = "18446744073709552000" := by
  decide +kernel

/-- Above the signed range a text need not be digits, nor that of the nearest double; and an
integer with a point and a zero behind it may become the next one. -/
theorem text_of_integer_lost :
    (∃ n, IsOf (10 ^ 21) n ∧ n.text = "1e+21" ∧ ¬PlainDigits n.text) ∧
    (∃ n, IsOf 123456789012345678901 n ∧ n.text = "123456789012345670000" ∧
      Format.double.ofNat 123456789012345670000
        ≠ Format.double.ofNat 123456789012345678901) ∧
    ∃ j n, Json.ofText "7205759403792796.0" = .ok j ∧ AttributeValue.ofJson j = .number n ∧
      n.text = "7205759403792797" := by
  refine ⟨⟨_, isOf_of_fits (Or.inr (by decide +kernel)), by decide +kernel, fun hplain => ?_⟩,
    ⟨_, isOf_of_fits (Or.inr (by decide +kernel)), by decide +kernel, by decide +kernel⟩, ?_⟩
  · have htext : (ofInteger (10 ^ 21)).text = "1e+21" := by decide +kernel
    rw [htext] at hplain
    exact absurd (hplain.2 'e' (by decide)) (by decide)
  · have hdocument := Json.ofText_point_zero (v := 7205759403792796) (by decide)
    exact ⟨_, _, hdocument, rfl, by decide +kernel⟩

end Number
end Markup
