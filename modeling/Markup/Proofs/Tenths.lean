/-
# Integers that are read as tenths

An integer with a point and a zero behind it is read as the tenth part of a double, the one
nearest to ten times the integer. That double is the product itself as long as it is less
than 2⁵⁴. From there on up to four bits of the product are rounded away, and dividing by ten
leads back to the integer exactly if what was rounded away is less than half a unit of the
integer (`Format.nearest_tenths_iff`). So there are three ranges below 2⁵³ where some remainders
of the integer are lost, and others where none is (`Format.KeptAsTenths`).

The text of the double is that of the integer exactly if the integer is kept
(`Number.text_tenths_iff`): a double whose text is an integer is the nearest one to it
(`Number.nearest_of_text`).

Key definitions: `Format.KeptAsTenths`.
Key theorems: `Format.nearest_tenths_iff`, `Number.nearest_of_text`, `Number.text_tenths_iff`.
-/
import Mathlib.Tactic.IntervalCases
import Markup.Proofs.RoundedNaturals
import Markup.Proofs.Wholes

namespace Markup

/-! ### The tenth part of ten times an integer -/

namespace Format

/-- Whether an integer up to 2⁵³ is the tenth part of the double nearest to ten times the
integer, rounded to a double. -/
structure KeptAsTenths (n : Nat) : Prop where
  even : 2 ^ 54 ≤ 10 * n → n < 2 ^ 51 → n % 2 = 0
  fourths : 2 ^ 55 ≤ 10 * n → n < 2 ^ 52 → n % 4 ≠ 2
  eighths : 2 ^ 56 ≤ 10 * n → n % 8 ≠ 1 ∧ n % 8 ≠ 4 ∧ n % 8 ≠ 7

/-- The mantissa of a quotient in a unit that it has enough of. -/
theorem nearest_eq_iff_roundEven (s : Bool) {num den m a : Nat} (hden : 0 < den) (ha : a ≤ 1074)
    (hlow : 2 ^ 52 ≤ m) (hhigh : m < 2 ^ 53) (hnum : 2 ^ 52 * den ≤ num * 2 ^ a) :
    double.nearest s num den = .finite s m (-a) ↔ roundEven (num * 2 ^ a) den = m := by
  have hm : m ≠ 0 := by omega
  have hpos : (0 : ℚ) < den := by exact_mod_cast hden
  have hholds : double.Holds m (-a) :=
    ⟨hhigh, by simp only [double]; omega, by simp only [double]; omega, Or.inl hlow⟩
  have hcount : (num : ℚ) / den / 2 ^ (-a : Int) = (num * 2 ^ a : Nat) / den := by
    rw [zpow_neg, div_inv_eq_mul, zpow_natCast]
    push_cast
    ring
  have hfirst : (double.hidden : ℚ) ≤ num / den / 2 ^ (-a : Int) := by
    rw [hcount, le_div_iff₀ hpos, double_hidden]
    exact_mod_cast hnum
  rw [nearest_eq_iff (by decide) s hden hm, mem_around_iff_roundsTo hm (Or.inr hfirst), hcount,
    roundEven_eq_iff _ hden, and_iff_right hholds]

/-- A number of 53 - `a` bits has its last place `a` bits behind the point. -/
theorem nearest_of_bits (s : Bool) {n a : Nat} (ha : a ≤ 52) (hlow : 2 ^ 52 ≤ n * 2 ^ a)
    (hhigh : n * 2 ^ a < 2 ^ 53) : double.nearest s n 1 = .finite s (n * 2 ^ a) (-a) := by
  rw [nearest_eq_iff_roundEven s Nat.one_pos (by omega) hlow hhigh (by omega)]
  simp [roundEven, Nat.mod_one]

theorem rounded_of_bits {n k : Nat} (hlow : 2 ^ (52 + k) ≤ n) (hhigh : n < 2 ^ (53 + k)) :
    rounded n = roundEven n (2 ^ k) * 2 ^ k := by
  have hn : n ≠ 0 := (Nat.pow_pos (by decide)).trans_le hlow |>.ne'
  have hlog : n.log2 = 52 + k := (Nat.log2_eq_iff hn).mpr ⟨hlow, by rwa [Nat.add_right_comm]⟩
  rw [rounded, hlog, Nat.add_sub_cancel_left]

/-- Tenths that are a double lead back to the integer. -/
theorem nearest_of_exact (s : Bool) {n : Nat} (h : rounded (10 * n) = 10 * n) :
    double.nearest s (rounded (10 * n)) 10 = double.nearest s n 1 := by
  refine nearest_congr (by decide) s (by decide) Nat.one_pos ?_
  rw [h]
  push_cast
  ring

/-- Tenths of which `k` bits are rounded away lead back to an integer whose last place is `a`
bits behind the point, if their tenth part is rounded to that integer in units of this place. -/
theorem nearest_of_bits_iff (s : Bool) {n a k : Nat} (hbits : a + k ≤ 52)
    (hlow : 2 ^ 52 ≤ n * 2 ^ a) (hhigh : n * 2 ^ a < 2 ^ 53) (hklow : 2 ^ (52 + k) ≤ 10 * n)
    (hkhigh : 10 * n < 2 ^ (53 + k)) :
    double.nearest s (rounded (10 * n)) 10 = double.nearest s n 1 ↔
      roundEven (roundEven (10 * n) (2 ^ k) * 2 ^ k * 2 ^ a) 10 = n * 2 ^ a := by
  have hfirst : 2 ^ 52 * 10 ≤ roundEven (10 * n) (2 ^ k) * 2 ^ k * 2 ^ a := by
    -- ten times the first mantissa is not rounded
    have hsplit : 2 ^ 52 = 2 ^ (52 - (a + k)) * 2 ^ k * 2 ^ a := by
      rw [← pow_add, ← pow_add]
      congr 1
      omega
    have hcount : 10 * 2 ^ (52 - (a + k)) ≤ roundEven (10 * n) (2 ^ k) := by
      refine (roundsTo_natCast _).le (roundsTo_roundEven (10 * n) (Nat.two_pow_pos k)) ?_
      rw [le_div_iff₀ (by positivity)]
      have hten := Nat.mul_le_mul_left 10 hlow
      rw [hsplit] at hten
      have hle : 10 * 2 ^ (52 - (a + k)) * 2 ^ k ≤ 10 * n :=
        Nat.le_of_mul_le_mul_right (by linarith) (Nat.two_pow_pos a)
      exact_mod_cast hle
    calc 2 ^ 52 * 10 = 10 * 2 ^ (52 - (a + k)) * 2 ^ k * 2 ^ a := by rw [hsplit]; ring
      _ ≤ roundEven (10 * n) (2 ^ k) * 2 ^ k * 2 ^ a := by gcongr
  rw [nearest_of_bits s (by omega) hlow hhigh, rounded_of_bits hklow hkhigh,
    nearest_eq_iff_roundEven s (by decide) (by omega) hlow hhigh hfirst]

theorem keptAsTenths_iff (n : Nat) : KeptAsTenths n ↔
    (2 ^ 54 ≤ 10 * n → n < 2 ^ 51 → n % 2 = 0) ∧ (2 ^ 55 ≤ 10 * n → n < 2 ^ 52 → n % 4 ≠ 2) ∧
      (2 ^ 56 ≤ 10 * n → n % 8 ≠ 1 ∧ n % 8 ≠ 4 ∧ n % 8 ≠ 7) :=
  ⟨fun h => ⟨h.even, h.fourths, h.eighths⟩, fun h => ⟨h.1, h.2.1, h.2.2⟩⟩

/-- **Tenths lead back to the integers that are kept**, and to no others. -/
theorem nearest_tenths_iff (s : Bool) {n : Nat} (h : n ≤ 2 ^ 53) :
    double.nearest s (rounded (10 * n)) 10 = double.nearest s n 1 ↔ KeptAsTenths n := by
  rw [keptAsTenths_iff]
  rcases Nat.lt_or_ge (10 * n) (2 ^ 54) with hsmall | hlarge
  · have hexact : rounded (10 * n) = 10 * n := by
      rcases Nat.lt_or_ge (10 * n) (2 ^ 53) with hless | hmore
      · exact rounded_of_lt hless
      · rw [rounded_of_bits (k := 1) hmore hsmall]
        simp only [roundEven, Nat.reducePow]
        split_ifs <;> omega
    exact iff_of_true (nearest_of_exact s hexact) (by omega)
  rcases Nat.lt_or_ge n (2 ^ 53) with hlt | hge
  · have hcount (k : Nat) := (roundEven_eq_iff_nat (10 * n) (Nat.two_pow_pos k) _).mp rfl
    -- the units of the product and of the integer change at powers of two
    rcases Nat.lt_or_ge (10 * n) (2 ^ 55) with hk | hk
    · have hproduct := hcount 2
      rcases Nat.lt_or_ge n (2 ^ 51) with ha | ha
      · rw [nearest_of_bits_iff (a := 2) (k := 2) s (by decide) (by omega) (by omega) hlarge hk,
          roundEven_eq_iff_nat _ (by decide)]
        omega
      · rw [nearest_of_bits_iff (a := 1) (k := 2) s (by decide) (by omega) (by omega) hlarge hk,
          roundEven_eq_iff_nat _ (by decide)]
        omega
    · rcases Nat.lt_or_ge (10 * n) (2 ^ 56) with hk' | hk'
      · have hproduct := hcount 3
        rcases Nat.lt_or_ge n (2 ^ 52) with ha | ha
        · rw [nearest_of_bits_iff (a := 1) (k := 3) s (by decide) (by omega) (by omega) hk hk',
            roundEven_eq_iff_nat _ (by decide)]
          omega
        · rw [nearest_of_bits_iff (a := 0) (k := 3) s (by decide) (by omega) (by omega) hk hk',
            roundEven_eq_iff_nat _ (by decide)]
          omega
      · have hproduct := hcount 4
        rw [nearest_of_bits_iff (a := 0) (k := 4) s (by decide) (by omega) (by omega) hk' (by omega),
          roundEven_eq_iff_nat _ (by decide)]
        have hlt8 := Nat.mod_lt n (show 0 < 8 by decide)
        interval_cases hrest : n % 8 <;> omega
  · obtain rfl : n = 2 ^ 53 := by omega
    have hexact : rounded (10 * 2 ^ 53) = 10 * 2 ^ 53 := by decide +kernel
    exact iff_of_true (nearest_of_exact s hexact) (by omega)

end Format

/-! ### Texts -/

namespace Number

open Decimal

/-- The numeral that an integer is. -/
def ofInt (v : Int) : Numeral := ⟨Sign.front (decide (v < 0)), digits v.natAbs, none, none⟩

theorem read?_toString (v : Int) : Numeral.read? (toString v).toList = some (ofInt v) := by
  have hchars : (toString v).toList = (ofInt v).chars := by
    rw [← intText_eq_toString, intText, String.toList_ofList, ofInt, Numeral.chars, intChars]
    by_cases h : v < 0
    · rw [if_pos h, decide_eq_true h]
      exact (congrArg ('-' :: ·) (List.append_nil (natChars v.natAbs))).symm
    · rw [if_neg h, decide_eq_false h]
      exact (List.append_nil (natChars v.natAbs)).symm
  rw [hchars]
  exact Numeral.read?_chars (digits_ne_nil _) fun e he => absurd he (Option.not_mem_none e)

/-- An integer is its sign times its natural number. -/
theorem signed_natAbs (v : Int) :
    (if decide (v < 0) then -1 else 1) * (v.natAbs : ℚ) = v := by
  rw [Nat.cast_natAbs, Int.cast_abs]
  by_cases h : v < 0
  · have hneg : (v : ℚ) < 0 := by exact_mod_cast h
    simp [h, abs_of_neg hneg]
  · have hpos : (0 : ℚ) ≤ v := by exact_mod_cast not_lt.mp h
    simp [h, abs_of_nonneg hpos]

theorem value_ofInt (v : Int) : (ofInt v).value = v := by
  have hplaces : places [] = 0 := by norm_num [places, ofDigits]
  have hsign : (Sign.factor (Sign.front (decide (v < 0))) : ℚ)
      = if decide (v < 0) then -1 else 1 := by
    cases decide (v < 0) <;> simp [Sign.front, Sign.factor]
  rw [ofInt, Numeral.value, ofDigits_digits, hsign, Option.getD_none, hplaces, add_zero,
    signed_natAbs]
  simp [Numeral.power]

/-- The shortest decimal lies in the interval of a number. -/
theorem mem_value_shortest (f : Format) (tie : Tie) {m : Nat} (hm : m ≠ 0) (e : Int) :
    (Interval.around f m e).Mem (shortest f tie m e).value := by
  obtain ⟨t, d, heq, hholds, -⟩ := Interval.shortest_eq (Interval.proper_around f hm e) tie
  have hmem := (Interval.holds_iff_mem _ t d).mp hholds
  rwa [shortest, heq, Scientific.value_eq, Scientific.ofGrid, ofDigits_digits, add_sub_cancel_left]

/-- **A double whose text is an integer** is the nearest one to it. -/
theorem nearest_of_text {s : Bool} {m : Nat} {e : Int} (h : Format.double.Holds m e) (hm : m ≠ 0)
    {v : Int} (htext : (float (.finite s m e)).text = toString v) (s' : Bool) :
    Format.double.nearest s' v.natAbs 1 = .finite s' m e := by
  obtain ⟨n, hread, hshows⟩ := exists_read?_text s hm e
  rw [htext, read?_toString] at hread
  obtain rfl : ofInt v = n := Option.some.inj hread
  have hvalue := hshows.value_eq
  have hpos := (normal_shortest Format.double .up hm e).value_pos
  have habs : (v.natAbs : ℚ) = (shortest Format.double .up m e).value := by
    rw [value_ofInt] at hvalue
    rw [Nat.cast_natAbs, Int.cast_abs, hvalue]
    cases s <;> simp [abs_of_pos hpos]
  rw [Format.nearest_eq_iff (by decide) s' Nat.one_pos hm, Nat.cast_one, div_one, habs]
  exact ⟨h, mem_value_shortest Format.double .up hm e⟩

/-- Only finite numbers have numerals. -/
theorem exists_finite_of_text {x : Binary} {v : Int} (h : (float x).text = toString v) :
    ∃ s m e, x = .finite s m e ∧ (m = 0 → v = 0) := by
  have hread := read?_toString v
  rw [← h] at hread
  cases x with
  | nan => cases hread
  | infinity s => cases s <;> cases hread
  | finite s m e =>
    refine ⟨s, m, e, rfl, ?_⟩
    rintro rfl
    have hzero : (float (.finite s 0 e)).text = "0" := by cases s <;> rfl
    rw [hzero] at hread
    have hdigits : [0] = digits v.natAbs := congrArg Numeral.whole (Option.some.inj hread)
    have hcount := ofDigits_digits v.natAbs
    rw [← hdigits] at hcount
    exact Int.natAbs_eq_zero.mp hcount.symm

/-- Up to 2⁵³ the nearest double has the text of the integer. -/
theorem text_nearest {v : Int} (h : v.natAbs ≤ 2 ^ 53) :
    (float (Format.double.nearest (decide (v < 0)) v.natAbs 1)).text = toString v := by
  obtain ⟨m, e, hnearest, hvalue⟩ :=
    Format.exists_nearest_nat (decide (v < 0)) (Format.add_lt_of_le (n := v.natAbs) (by omega))
  have hholds := Format.holds_of_nearest_nat hnearest hvalue
  rw [Format.rounded_of_le h] at hvalue
  rw [hnearest]
  refine text_of_value hholds ?_ h
  rw [Binary.value?, hvalue, signed_natAbs]

/-- **Read as tenths, an integer has its own text exactly if it is kept.** -/
theorem text_tenths_iff {v : Int} (h : v.natAbs ≤ 2 ^ 53) :
    (float (Format.double.nearest (decide (v < 0)) (Format.rounded (10 * v.natAbs)) 10)).text
      = toString v ↔ Format.KeptAsTenths v.natAbs := by
  have hkept := Format.nearest_tenths_iff (decide (v < 0)) h
  refine ⟨fun htext => ?_, fun hv => by rw [hkept.mpr hv, text_nearest h]⟩
  obtain ⟨s, m, e, hx, hzero⟩ := exists_finite_of_text htext
  by_cases hm : m = 0
  · rw [hzero hm]
    exact ⟨by omega, by omega, by omega⟩
  · obtain hinfinite | ⟨m', e', hfinite⟩ := Format.nearest_cases Format.double (decide (v < 0))
      (Format.rounded (10 * v.natAbs)) 10
    · rw [hinfinite] at hx
      cases hx
    · rw [hfinite] at hx htext
      cases hx
      have hnum : 0 < Format.rounded (10 * v.natAbs) := by
        refine Nat.pos_of_ne_zero fun hnum => hm ?_
        rw [hnum] at hfinite
        cases hfinite
        rfl
      have hholds := (Format.mem_of_nearest (by decide) hnum (by decide) hm hfinite).1
      rw [← hkept, hfinite, nearest_of_text hholds hm htext]

end Number
end Markup
