/-
# Doubles that are integers

The shortest decimal of a double that is an integer is an integer as well: the double itself
is a point of every grid of fractions, and the search stops on the grid below the first one
that has no point (`Decimal.exists_whole_point`). Up to 2⁵³ no other integer lies in the
interval, so the text of the double is the integer in decimal (`Number.text_of_value`).

A greater double is laid out with zeros behind its shortest digits, up to 10²¹. Its text is
an integer in decimal that is rounded to it, but need not be it. From 10²¹ on it has an
exponent. That power of ten is itself a double and all smaller doubles end half a unit below
it, so the double decides where the text changes and not its digits
(`Number.text_large`).

Key definitions: `Binary.value?`.
Key theorems: `Decimal.natChars_eq_toDigits`, `Decimal.exists_whole_point`,
`Number.text_of_value`, `Number.text_large`.
-/
import Markup.Proofs.Rounding
import Markup.Proofs.Denotation

namespace Markup

/-- The number that a double is, if it is one. -/
def Binary.value? : Binary → Option ℚ
  | .finite s m e => some ((if s then -1 else 1) * (m * 2 ^ e))
  | _ => none

namespace Decimal

/-! ### Decimals of integers -/

theorem char_ofNat : ∀ n < 10, Digit.char (Fin.ofNat 10 n) = n.digitChar := by decide

/-- Digits are written as the standard library writes them. -/
theorem natChars_eq_toDigits (n : Nat) : natChars n = Nat.toDigits 10 n := by
  rw [natChars]
  fun_induction digits n with
  | case1 n h =>
    rw [Nat.toDigits_of_lt_base h, ← char_ofNat n h]
    rfl
  | case2 n h ih =>
    rw [digitChars_append, ih, Nat.toDigits_of_base_le (n := n) (by decide) (by omega),
      ← char_ofNat (n % 10) (by omega)]
    have hdigit : Fin.ofNat 10 (n % 10) = Fin.ofNat 10 n := Fin.ext (Nat.mod_mod n 10)
    rw [hdigit]
    rfl

theorem natText_eq_toString (n : Nat) : String.ofList (natChars n) = toString n := by
  rw [natChars_eq_toDigits, Nat.toString_eq_repr, Nat.repr_eq_ofList_toDigits]

theorem intText_eq_toString (v : Int) : intText v = toString v := by
  cases v with
  | ofNat n => exact natText_eq_toString n
  | negSucc n =>
    have hchars : intChars (Int.negSucc n) = '-' :: natChars (n + 1) :=
      if_pos (Int.negSucc_lt_zero n)
    rw [intText, hchars, String.ofList_cons, natText_eq_toString]
    rfl

theorem length_digits_le_iff (n : Nat) {k : Nat} (hk : 0 < k) :
    (digits n).length ≤ k ↔ n < 10 ^ k := by
  have hlength : (digits n).length = (Nat.toDigits 10 n).length := by
    rw [← natChars_eq_toDigits, natChars, digitChars, List.length_map]
  rw [hlength, Nat.length_toDigits_le_iff (by decide) hk]

/-- A power of ten writes zeros behind the digits. -/
theorem digits_mul_pow {d : Nat} (h : d ≠ 0) (t : Nat) :
    digits (d * 10 ^ t) = digits d ++ zeros t := by
  have hhead : (digits d ++ zeros t).head? ≠ some 0 := by
    rw [List.head?_append_of_ne_nil _ (digits_ne_nil d)]
    exact head?_digits h
  have hrow := digits_ofDigits (List.append_ne_nil_of_left_ne_nil (digits_ne_nil d) _) hhead
  rwa [ofDigits_append, ofDigits_digits, ofDigits_zeros, length_zeros, Nat.add_zero] at hrow

/-! ### Layouts of integers -/

/-- An integer has its point behind its digits and zeros. -/
theorem point_ofGrid {d : Nat} (h : d ≠ 0) (t : Nat) :
    (Scientific.ofGrid d t).point = (digits (d * 10 ^ t)).length := by
  rw [digits_mul_pow h, List.length_append, length_zeros, Scientific.ofGrid]
  exact (Nat.cast_add _ _).symm

/-- Below 10²¹ an integer is written out. -/
theorem chars_ofGrid_of_lt {d t : Nat} (hd : d ≠ 0) (h : d * 10 ^ t < 10 ^ 21) :
    Layout.script.chars (Scientific.ofGrid d t) = natChars (d * 10 ^ t) := by
  have hlength := (length_digits_le_iff (d * 10 ^ t) (show 0 < 21 by decide)).mpr h
  have hpoint := point_ofGrid hd t
  have hplain : Layout.script.plain (Scientific.ofGrid d t).point = true := by
    rw [hpoint]
    simp only [Layout.script, Bool.and_eq_true, decide_eq_true_eq]
    omega
  have hzeros :
      ((Scientific.ofGrid d t).point - (Scientific.ofGrid d t).digits.length).toNat = t := by
    simp only [Scientific.ofGrid]
    omega
  have hlong : ((Scientific.ofGrid d t).digits.length : Int) ≤ (Scientific.ofGrid d t).point := by
    simp only [Scientific.ofGrid]
    omega
  rw [Layout.chars, if_pos hplain, Layout.plainChars, if_pos hlong, hzeros, natChars,
    digits_mul_pow hd, digitChars_append, digitChars_zeros]
  exact List.append_nil _

/-- From 10²¹ on it is written with an exponent. -/
theorem exponent_mem_chars_ofGrid {d t : Nat} (hd : d ≠ 0) (h : 10 ^ 21 ≤ d * 10 ^ t) :
    'e' ∈ Layout.script.chars (Scientific.ofGrid d t) := by
  have hlength := mt (length_digits_le_iff (d * 10 ^ t) (show 0 < 21 by decide)).mp h.not_gt
  have hplain : ¬Layout.script.plain (Scientific.ofGrid d t).point = true := by
    rw [point_ofGrid hd t]
    simp only [Layout.script, Bool.and_eq_true, decide_eq_true_eq]
    omega
  rw [Layout.chars, if_neg hplain, Layout.exponentChars]
  exact List.mem_append_right _ List.mem_cons_self

/-! ### Integers in an interval -/

namespace Interval

theorem Mem.between {i : Interval} {a b q : ℚ} (ha : i.Mem a) (hb : i.Mem b) (haq : a ≤ q)
    (hqb : q ≤ b) : i.Mem q where
  low_le := ha.low_le.trans haq
  le_high := hqb.trans hb.le_high
  ends hopen := ⟨((lt_of_le_of_ne ha.low_le (ha.ends hopen).1).trans_le haq).ne,
    (hqb.trans_lt (lt_of_le_of_ne hb.le_high (hb.ends hopen).2)).ne⟩

/-- If a grid has no point inside, a coarser one has none. -/
theorem Misses.not_mem {i : Interval} {t u : Int} (h : i.Misses t) (hu : t ≤ u) (n : Nat) :
    ¬i.Mem (n * 10 ^ u) := by
  intro hmem
  obtain ⟨j, rfl⟩ := Int.le.dest hu
  have hvalue : (n : ℚ) * 10 ^ (t + j) = (n * 10 ^ j : Nat) * 10 ^ t := by
    rw [zpow_add₀ (by norm_num), zpow_natCast]
    push_cast
    ring
  rw [hvalue, ← i.holds_iff_mem, h] at hmem
  cases hmem

end Interval

theorem mem_around_middle (f : Format) {m : Nat} (hm : m ≠ 0) (e : Int) :
    (Interval.around f m e).Mem (m * 2 ^ e) := by
  have hunit : (2 : ℚ) ^ e ≠ 0 := zpow_ne_zero e (by norm_num)
  have hbelow := (f.below_bounds m e).1
  rw [Format.mem_around_iff hm, mul_div_cancel_right₀ _ hunit]
  exact ⟨by linarith, by linarith, fun _ => ⟨by linarith, by linarith⟩⟩

/-- **The shortest decimal of a number that is an integer is an integer.** -/
theorem exists_whole_point (f : Format) (tie : Tie) {m : Nat} (hm : m ≠ 0) {e : Int} {n : Nat}
    (h : (m : ℚ) * 2 ^ e = n) : ∃ d t : Nat, shortest f tie m e = Scientific.ofGrid d t ∧ d ≠ 0 ∧
      (Interval.around f m e).Mem (d * 10 ^ t : Nat) ∧ (Interval.around f m e).Misses (t + 1) := by
  have hproper := Interval.proper_around f hm e
  obtain ⟨t, d, heq, hholds, hmiss⟩ := Interval.shortest_eq hproper tie
  have hmiddle := mem_around_middle f hm e
  rw [h] at hmiddle
  have hwhole : 0 ≤ t := by
    by_contra hneg
    refine hmiss.not_mem (u := 0) (by omega) n ?_
    rwa [zpow_zero, mul_one]
  obtain ⟨t, rfl⟩ := Int.eq_ofNat_of_zero_le hwhole
  have hmem := (Interval.holds_iff_mem _ _ _).mp hholds
  have hd : d ≠ 0 := by
    rintro rfl
    have hpos := hmem.pos hproper
    rw [Nat.cast_zero, zero_mul] at hpos
    exact lt_irrefl _ hpos
  refine ⟨d, t, heq, hd, ?_, hmiss⟩
  push_cast
  exact_mod_cast hmem

/-! ### Doubles up to 2⁵³ -/

/-- Without a unit above one, a number that is an integer is the only one of its interval. -/
theorem eq_of_mem_around {f : Format} {m : Nat} (hm : m ≠ 0) {e : Int} (he : e ≤ 0) {n k : Nat}
    (hn : (m : ℚ) * 2 ^ e = n) (hk : (Interval.around f m e).Mem k) : k = n := by
  have hunit : (0 : ℚ) < 2 ^ e := by positivity
  have hone : (2 : ℚ) ^ e ≤ 1 := zpow_le_one_of_nonpos₀ (by norm_num) he
  have hbelow := (f.below_bounds m e).2
  have hreach : f.below m e * 2 ^ e ≤ 1 / 2 * 1 :=
    mul_le_mul hbelow hone hunit.le (by norm_num)
  obtain ⟨hlow, hhigh, -⟩ := (Format.mem_around_iff hm e k).mp hk
  rw [le_div_iff₀ hunit, sub_mul, hn] at hlow
  rw [div_le_iff₀ hunit, add_mul, hn] at hhigh
  have hless : (k : ℚ) < n + 1 := by linarith
  have hmore : (n : ℚ) < k + 1 := by linarith
  have hless' : k < n + 1 := by exact_mod_cast hless
  have hmore' : n < k + 1 := by exact_mod_cast hmore
  omega

/-- The double 2⁵³ has the unit two and its successor in its interval, but is nearer. -/
theorem shortest_two_pow :
    shortest Format.double .up (2 ^ 52) 1 = Scientific.ofGrid (2 ^ 53) 0 := by
  decide +kernel

/-- Up to 2⁵³ an integer is written in decimal. -/
theorem chars_shortest_of_le {m : Nat} {e : Int} (h : Format.double.Holds m e) (hm : m ≠ 0)
    {n : Nat} (hn : (m : ℚ) * 2 ^ e = n) (hle : n ≤ 2 ^ 53) :
    Layout.script.chars (shortest Format.double .up m e) = natChars n := by
  rcases le_or_gt e 0 with he | he
  · obtain ⟨d, t, heq, hd, hmem, -⟩ := exists_whole_point Format.double .up hm hn
    have hk := eq_of_mem_around hm he hn hmem
    rw [heq, chars_ofGrid_of_lt hd (by omega), hk]
  · have hnormal : 2 ^ 52 ≤ m := h.normal.resolve_right (by simp only [Format.double]; omega)
    obtain ⟨j, rfl⟩ := Int.eq_ofNat_of_zero_le he.le
    have hcount : m * 2 ^ j = n := by exact_mod_cast hn
    have hj : j = 1 := by
      by_contra hne
      have hfour : 2 ^ 2 ≤ 2 ^ j := Nat.pow_le_pow_right (by decide) (by omega)
      have hlarge := Nat.mul_le_mul hnormal hfour
      omega
    subst hj
    obtain rfl : m = 2 ^ 52 := by omega
    obtain rfl : n = 2 ^ 53 := by omega
    rw [Nat.cast_one, shortest_two_pow]
    exact chars_ofGrid_of_lt (t := 0) (by decide) (by decide)

/-! ### Greater doubles -/

/-- A double with an integer unit that is smaller than 10²¹ lies, with its whole interval, below
it, since 10²¹ is a multiple of the unit. -/
theorem lt_of_mem_around {m : Nat} {j : Nat} (h : Format.double.Holds m j) (hm : m ≠ 0) {k : Nat}
    (hlt : m * 2 ^ j < 10 ^ 21) (hk : (Interval.around Format.double m j).Mem k) :
    k < 10 ^ 21 := by
  have hnormal : 2 ^ 52 ≤ m := h.normal.resolve_right (by simp only [Format.double]; omega)
  have hj : j < 21 := by
    by_contra hge
    have hpow : 2 ^ 21 ≤ 2 ^ j := Nat.pow_le_pow_right (by decide) (by omega)
    have hlarge := Nat.mul_le_mul hnormal hpow
    omega
  have hsplit : 10 ^ 21 = 5 ^ 21 * 2 ^ (21 - j) * 2 ^ j := by
    rw [Nat.mul_assoc, ← pow_add, Nat.sub_add_cancel hj.le]
    rfl
  have hnext : m + 1 ≤ 5 ^ 21 * 2 ^ (21 - j) := by
    rw [hsplit] at hlt
    exact Nat.lt_of_mul_lt_mul_right hlt
  have hbound : ((m : ℚ) + 1) * 2 ^ j ≤ 10 ^ 21 := by
    have hmul := Nat.mul_le_mul_right (2 ^ j) hnext
    rw [← hsplit] at hmul
    exact_mod_cast hmul
  have hunit : (0 : ℚ) < 2 ^ (j : ℤ) := by positivity
  obtain ⟨-, hhigh, -⟩ := (Format.mem_around_iff hm j k).mp hk
  rw [div_le_iff₀ hunit, zpow_natCast] at hhigh
  rw [zpow_natCast] at hunit
  have hcast : (k : ℚ) < 10 ^ 21 := by linarith
  exact_mod_cast hcast

/-- If a number is not smaller than 10²¹, no integer of its interval is shorter and smaller. -/
theorem le_of_misses {f : Format} {m : Nat} (hm : m ≠ 0) {e : Int} (hle : 10 ^ 21 ≤ (m : ℚ) * 2 ^ e)
    {d t : Nat} (hd : d ≠ 0) (hmem : (Interval.around f m e).Mem (d * 10 ^ t : Nat))
    (hmiss : (Interval.around f m e).Misses (t + 1)) : 10 ^ 21 ≤ d * 10 ^ t := by
  by_contra hlt
  have ht : t < 21 := by
    by_contra hge
    have hpow : 10 ^ 21 ≤ 10 ^ t := Nat.pow_le_pow_right (by decide) (by omega)
    have hone := Nat.le_mul_of_pos_left (10 ^ t) (Nat.pos_of_ne_zero hd)
    omega
  have hbound : ((d * 10 ^ t : Nat) : ℚ) ≤ 10 ^ 21 := by exact_mod_cast (by omega)
  -- the power lies between two numbers of the interval, but the grid below it has no point
  have hpower := hmem.between (mem_around_middle f hm e) hbound hle
  refine hmiss.not_mem (u := 21) (by omega) 1 ?_
  rw [Nat.cast_one, one_mul]
  exact_mod_cast hpower

end Decimal

namespace Number

open Decimal

theorem chars_of_ne_zero (s : Bool) {m : Nat} (hm : m ≠ 0) (e : Int) :
    (float (.finite s m e)).chars
      = (if s then ['-'] else []) ++ Layout.script.chars (shortest Format.double .up m e) := by
  cases s <;> simp [chars, finiteChars, Layout.doubleChars, hm]

/-- **Up to 2⁵³ the text of a double that is an integer is the integer in decimal.** -/
theorem text_of_value {s : Bool} {m : Nat} {e : Int} (h : Format.double.Holds m e) {v : Int}
    (hv : (Binary.finite s m e).value? = some (v : ℚ)) (hle : v.natAbs ≤ 2 ^ 53) :
    (float (.finite s m e)).text = toString v := by
  have hvalue := Option.some.inj hv
  rw [← intText_eq_toString, text, intText]
  congr 1
  by_cases hm : m = 0
  · subst hm
    have hzero : v = 0 := by
      rw [Nat.cast_zero, zero_mul, mul_zero] at hvalue
      exact_mod_cast hvalue.symm
    subst hzero
    have hdigits : natChars 0 = ['0'] := by decide +kernel
    cases s <;> simp [chars, finiteChars, Layout.doubleChars, Layout.script, intChars, hdigits]
  · have hmpos : (0 : ℚ) < m := by exact_mod_cast Nat.pos_of_ne_zero hm
    have hpos : (0 : ℚ) < m * 2 ^ e := by positivity
    have habs : (m : ℚ) * 2 ^ e = v.natAbs := by
      rw [Nat.cast_natAbs, Int.cast_abs, ← hvalue]
      cases s <;> simp [abs_of_pos hpos]
    have hsign : v < 0 ↔ s = true := by
      rw [← @Int.cast_lt_zero ℚ, ← hvalue]
      cases s with
      | false => simpa using hpos.le
      | true => simpa using hpos
    rw [chars_of_ne_zero s hm, chars_shortest_of_le h hm habs hle, intChars]
    simp only [hsign]
    cases s <;> rfl

/-- **The text of a double with an integer unit** is, if the double is smaller than 10²¹, an
integer in decimal of which it is the nearest double, and has an exponent otherwise. -/
theorem text_large {m j : Nat} (h : Format.double.Holds m j) (hm : m ≠ 0) :
    (m * 2 ^ j < 10 ^ 21 → ∃ k : Nat, (float (.finite false m j)).text = toString k ∧
      Format.double.ofNat k = .finite false m j) ∧
    (10 ^ 21 ≤ m * 2 ^ j → 'e' ∈ (float (.finite false m j)).text.toList) := by
  have hvalue : (m : ℚ) * 2 ^ (j : ℤ) = (m * 2 ^ j : Nat) := by
    rw [zpow_natCast]
    push_cast
    rfl
  obtain ⟨d, t, heq, hd, hmem, hmiss⟩ := exists_whole_point Format.double .up hm hvalue
  have htext : (float (.finite false m j)).chars
      = Layout.script.chars (Scientific.ofGrid d t) := by
    rw [chars_of_ne_zero false hm, heq]
    rfl
  rw [text, htext]
  refine ⟨fun hlt => ⟨d * 10 ^ t, ?_, ?_⟩, fun hle => ?_⟩
  · rw [chars_ofGrid_of_lt hd (lt_of_mem_around h hm hlt hmem), natText_eq_toString]
  · rw [Format.ofNat, Format.nearest_eq_iff (by decide) false Nat.one_pos hm]
    rw [Nat.cast_one, div_one]
    exact ⟨h, hmem⟩
  · have hge : 10 ^ 21 ≤ (m : ℚ) * 2 ^ (j : ℤ) := by
      rw [hvalue]
      exact_mod_cast hle
    rw [String.toList_ofList]
    exact exponent_mem_chars_ofGrid hd (le_of_misses hm hge hd hmem hmiss)

end Number
end Markup
