/-
# What the text of a double denotes

The layout of numbers writes a numeral of its own in each of its four cases
(`Scientific.numeral`, `chars_numeral`): digits with zeros behind them, digits with the point
between them, digits behind a point and zeros, and one digit in front of the point with an
exponent. Each denotes the number that is laid out (`value_numeral`), and has nothing
superfluous in it (`canonical_numeral`).

A reader of numerals finds it in the text, since it reads what was written. And since the
number determines the digits and the place of the point, two doubles with one text have the
same sign, digits and point (`Number.text_denotes`).

Key definitions: `Scientific.numeral`, `Numeral.Canonical`, `Numeral.Shows`.
Key theorems: `chars_numeral`, `value_numeral`, `canonical_numeral`, `shows_numeral`,
`Number.text_denotes`.
-/
import Markup.Number
import Markup.Proofs.PlaceValue

namespace Markup
namespace Decimal

/-! ### Layouts as numerals -/

namespace Scientific

/-- The numeral of a number that is written out plainly. -/
def plainNumeral (sign : Option Sign) (s : Scientific) : Numeral :=
  if (s.digits.length : ℤ) ≤ s.point then
    ⟨sign, s.digits ++ zeros (s.point - s.digits.length).toNat, none, none⟩
  else if 0 < s.point then
    ⟨sign, s.digits.take s.point.toNat, some (s.digits.drop s.point.toNat), none⟩
  else
    ⟨sign, zeros 1, some (zeros (-s.point).toNat ++ s.digits), none⟩

/-- The exponent of a number with one digit in front of the point. -/
def exponent (s : Scientific) : Exponent :=
  ⟨some (if s.point - 1 < 0 then .minus else .plus), Decimal.digits (s.point - 1).natAbs⟩

/-- The numeral of a number with one digit in front of the point. -/
def exponentNumeral (sign : Option Sign) (s : Scientific) : Numeral :=
  ⟨sign, s.digits.take 1, if s.digits.drop 1 = [] then none else some (s.digits.drop 1),
    some s.exponent⟩

/-- The numeral of a number of a page. -/
def numeral (sign : Option Sign) (s : Scientific) : Numeral :=
  if -6 < s.point ∧ s.point ≤ 21 then s.plainNumeral sign else s.exponentNumeral sign

end Scientific

theorem digitChars_append (ds es : List Digit) :
    digitChars (ds ++ es) = digitChars ds ++ digitChars es := List.map_append

theorem digitChars_zeros (n : Nat) : digitChars (zeros n) = List.replicate n '0' := by
  rw [digitChars, zeros, List.map_replicate]
  rfl

theorem chars_plainNumeral (sign : Option Sign) (s : Scientific) :
    (s.plainNumeral sign).chars = Sign.chars sign ++ Layout.script.plainChars s := by
  unfold Scientific.plainNumeral Layout.plainChars
  split
  · simp [Numeral.chars, Numeral.fractionChars, Numeral.exponentChars, digitChars_append,
      digitChars_zeros, Layout.script]
  · split
    · simp [Numeral.chars, Numeral.fractionChars, Numeral.exponentChars]
    · have hzero : digitChars (zeros 1) = ['0'] := rfl
      simp [Numeral.chars, Numeral.fractionChars, Numeral.exponentChars, digitChars_append,
        digitChars_zeros, hzero]

theorem exponentChars_exponent (s : Scientific) :
    Numeral.exponentChars (some s.exponent)
      = 'e' :: ((if s.point - 1 < 0 then ['-'] else Layout.script.plus)
          ++ natChars (s.point - 1).natAbs) := by
  rw [Scientific.exponent, Numeral.exponentChars]
  by_cases h : s.point - 1 < 0
  · rw [if_pos h, if_pos h]
    rfl
  · rw [if_neg h, if_neg h]
    rfl

theorem chars_exponentNumeral (sign : Option Sign) (s : Scientific) :
    (s.exponentNumeral sign).chars = Sign.chars sign ++ Layout.script.exponentChars s := by
  unfold Scientific.exponentNumeral Numeral.chars Layout.exponentChars
  rw [exponentChars_exponent]
  cases s.digits.drop 1 with
  | nil => simp [Numeral.fractionChars]
  | cons d ds => simp [Numeral.fractionChars]

/-- **The layout writes the numeral.** -/
theorem chars_numeral (sign : Option Sign) (s : Scientific) :
    (s.numeral sign).chars = Sign.chars sign ++ Layout.script.chars s := by
  have hplain : Layout.script.plain s.point = true ↔ -6 < s.point ∧ s.point ≤ 21 := by
    simp [Layout.script]
  unfold Scientific.numeral Layout.chars
  by_cases h : -6 < s.point ∧ s.point ≤ 21
  · rw [if_pos h, if_pos (hplain.mpr h), chars_plainNumeral]
  · rw [if_neg h, if_neg fun hp => h (hplain.mp hp), chars_exponentNumeral]

/-! ### What the numerals denote -/

theorem value_plainNumeral (sign : Option Sign) (s : Scientific) :
    (s.plainNumeral sign).value = Sign.factor sign * s.value := by
  unfold Scientific.plainNumeral Scientific.value Numeral.value
  split
  · rename_i hlong
    obtain ⟨n, hn⟩ := Int.le.dest hlong
    have hzeros : (s.point - s.digits.length).toNat = n := by omega
    have hlength : s.point = ((s.digits ++ zeros n).length : ℤ) := by
      rw [List.length_append, length_zeros]
      omega
    have hsplit := add_places (s.digits ++ zeros n) []
    rw [List.append_nil, places_append_zeros, ← zpow_natCast, ← hlength] at hsplit
    simp only [hzeros, Option.getD_none, hsplit, Numeral.power, zpow_zero, mul_one]
  · rename_i hlong
    split
    · rename_i hpos
      have hlength : s.point = ((s.digits.take s.point.toNat).length : ℤ) := by
        rw [List.length_take]
        omega
      have hsplit := add_places (s.digits.take s.point.toNat) (s.digits.drop s.point.toNat)
      rw [List.take_append_drop, ← zpow_natCast, ← hlength] at hsplit
      simp only [Option.getD_some, hsplit, Numeral.power, zpow_zero, mul_one]
    · rename_i hpos
      have hpoint : s.point = -((-s.point).toNat : ℤ) := by omega
      have hpow : (10 : ℚ) ^ s.point = (10 ^ (-s.point).toNat)⁻¹ := by
        conv_lhs => rw [hpoint, zpow_neg, zpow_natCast]
      simp only [Option.getD_some, places_zeros_append, ofDigits_zeros, Numeral.power, zpow_zero, mul_one,
        Nat.cast_zero, zero_add, hpow, div_eq_mul_inv]

theorem power_exponent (s : Scientific) : Numeral.power (some s.exponent) = s.point - 1 := by
  rw [Numeral.power, Scientific.exponent, ofDigits_digits]
  by_cases h : s.point - 1 < 0
  · rw [if_pos h, Sign.factor]
    omega
  · rw [if_neg h, Sign.factor]
    omega

theorem value_exponentNumeral (sign : Option Sign) {s : Scientific} (h : s.digits ≠ []) :
    (s.exponentNumeral sign).value = Sign.factor sign * s.value := by
  have hfraction : (if s.digits.drop 1 = [] then none else some (s.digits.drop 1)).getD []
      = s.digits.drop 1 := by
    split
    · rename_i hnil
      rw [hnil]
      rfl
    · rfl
  have hlength : (s.digits.take 1).length = 1 := by
    have hpos := List.length_pos_iff.mpr h
    rw [List.length_take]
    omega
  have hsplit := add_places (s.digits.take 1) (s.digits.drop 1)
  rw [List.take_append_drop, hlength, pow_one] at hsplit
  have hpow : (10 : ℚ) * 10 ^ (s.point - 1) = 10 ^ s.point := by
    rw [← zpow_one_add₀ (by norm_num), add_sub_cancel]
  unfold Scientific.exponentNumeral Scientific.value Numeral.value
  rw [hfraction, hsplit, power_exponent, mul_assoc, mul_assoc, hpow]

/-- **The numeral denotes the number.** -/
theorem value_numeral (sign : Option Sign) {s : Scientific} (h : s.digits ≠ []) :
    (s.numeral sign).value = Sign.factor sign * s.value := by
  unfold Scientific.numeral
  split
  · exact value_plainNumeral sign s
  · exact value_exponentNumeral sign h

/-! ### Numerals without anything superfluous -/

namespace Numeral

/-- A numeral without a plus sign in front, without a superfluous zero in front of or behind
the point, without a point at its end; if it has an exponent, that has a sign and no zero in
front, and one digit that is not zero stands in front of the point. -/
structure Canonical (n : Numeral) : Prop where
  sign : n.sign ≠ some .plus
  whole_ne : n.whole ≠ []
  whole : n.whole.head? = some 0 → n.whole = [0]
  fraction_ne : n.fraction ≠ some []
  fraction : ∀ ds, n.fraction = some ds → ds.getLast? ≠ some 0
  lead : n.exponent ≠ none → ∃ d : Digit, d ≠ 0 ∧ n.whole = [d]
  exponent_sign : ∀ e, n.exponent = some e → e.sign ≠ none
  exponent_digits : ∀ e, n.exponent = some e → e.digits ≠ [] ∧ e.digits.head? ≠ some 0

end Numeral

theorem canonical_plainNumeral {sign : Option Sign} (hsign : sign ≠ some .plus) {s : Scientific}
    (h : s.Normal) : (s.plainNumeral sign).Canonical := by
  unfold Scientific.plainNumeral
  split
  · have hne : s.digits ++ zeros (s.point - s.digits.length).toNat ≠ [] :=
      List.append_ne_nil_of_left_ne_nil h.digits_ne _
    refine ⟨hsign, hne, fun hhead => ?_, nofun, nofun, nofun, nofun, nofun⟩
    rw [List.head?_append_of_ne_nil _ h.digits_ne] at hhead
    exact absurd hhead h.head_ne
  · rename_i hlong
    split
    · rename_i hpos
      have hdrop : s.digits.drop s.point.toNat ≠ [] := by
        rw [ne_eq, List.drop_eq_nil_iff]
        omega
      have hhead : (s.digits.take s.point.toNat).head? ≠ some 0 := by
        rw [List.head?_take, if_neg (by omega)]
        exact h.head_ne
      refine ⟨hsign, ?_, fun hzero => absurd hzero hhead, ?_, ?_, nofun, nofun, nofun⟩
      · rw [ne_eq, List.take_eq_nil_iff]
        rintro (hnone | hnil)
        · omega
        · exact h.digits_ne hnil
      · exact fun hnil => hdrop (Option.some.inj hnil)
      · rintro ds ⟨⟩
        rw [List.getLast?_drop, if_neg (by omega)]
        exact h.last_ne
    · have hlast : (zeros (-s.point).toNat ++ s.digits).getLast? ≠ some 0 := by
        rw [List.getLast?_append_of_ne_nil _ h.digits_ne]
        exact h.last_ne
      refine ⟨hsign, List.cons_ne_nil _ _, fun _ => rfl, ?_, ?_, nofun, nofun, nofun⟩
      · intro hnil
        exact List.append_ne_nil_of_right_ne_nil _ h.digits_ne (Option.some.inj hnil)
      · rintro ds ⟨⟩
        exact hlast

theorem canonical_exponentNumeral {sign : Option Sign} (hsign : sign ≠ some .plus)
    {s : Scientific} (h : s.Normal) (hpoint : s.point ≠ 1) :
    (s.exponentNumeral sign).Canonical := by
  unfold Scientific.exponentNumeral
  obtain ⟨ds, p⟩ := s
  cases ds with
  | nil => exact absurd rfl h.digits_ne
  | cons d ds =>
    have hd : d ≠ 0 := fun hzero => h.head_ne (congrArg some hzero)
    have hexp : (p - 1).natAbs ≠ 0 := by
      simp only at hpoint
      omega
    refine ⟨hsign, List.cons_ne_nil _ _, ?_, ?_, ?_, fun _ => ⟨d, hd, rfl⟩, ?_, ?_⟩
    · intro hzero
      exact absurd (Option.some.inj hzero) hd
    · simp only [List.drop_succ_cons, List.drop_zero]
      split
      · exact nofun
      · rename_i hne
        exact fun hnil => hne (Option.some.inj hnil)
    · intro es hes
      simp only [List.drop_succ_cons, List.drop_zero] at hes
      split at hes
      · cases hes
      · rename_i hne
        cases hes
        intro hzero
        refine h.last_ne ?_
        rw [List.getLast?_cons_of_ne_nil hne]
        exact hzero
    · rintro e ⟨⟩
      exact Option.some_ne_none _
    · rintro e ⟨⟩
      exact ⟨digits_ne_nil _, head?_digits hexp⟩

theorem canonical_numeral {sign : Option Sign} (hsign : sign ≠ some .plus) {s : Scientific}
    (h : s.Normal) : (s.numeral sign).Canonical := by
  unfold Scientific.numeral
  split
  · exact canonical_plainNumeral hsign h
  · rename_i hplain
    exact canonical_exponentNumeral hsign h (by omega)

/-! ### The text of a double -/

/-- What a numeral shows of a number in scientific form with a sign: its value; no exponent
exactly if the first digit counts for a power of ten from -6 to 20; and its digits. An
exponent leaves one of them in front of the point. Without an exponent they are split where
the point falls between them. -/
structure Numeral.Shows (n : Numeral) (negative : Bool) (s : Scientific) : Prop where
  value_eq : n.value = (if negative then -1 else 1) * s.value
  exponent_iff : n.exponent = none ↔ -6 ≤ s.point - 1 ∧ s.point - 1 ≤ 20
  canonical : n.Canonical
  lead : n.exponent ≠ none → Numeral.power n.exponent = s.point - 1 ∧
    ∃ d ds, s.digits = d :: ds ∧ n.whole = [d] ∧ n.fraction = if ds = [] then none else some ds
  split : n.exponent = none → 0 < s.point → s.point < s.digits.length →
    ∃ front back, s.digits = front ++ back ∧ front.length = s.point ∧ n.whole = front ∧
      n.fraction = some back

/-- The sign in front of a number. -/
def Sign.front (negative : Bool) : Option Sign := if negative then some .minus else none

theorem exponent_plainNumeral (sign : Option Sign) (s : Scientific) :
    (s.plainNumeral sign).exponent = none := by
  unfold Scientific.plainNumeral
  split
  · rfl
  · split <;> rfl

theorem shows_numeral (negative : Bool) {s : Scientific} (h : s.Normal) :
    (s.numeral (Sign.front negative)).Shows negative s where
  value_eq := by
    rw [value_numeral _ h.digits_ne]
    cases negative <;> simp [Sign.front, Sign.factor]
  exponent_iff := by
    unfold Scientific.numeral
    split
    · rename_i hplain
      exact iff_of_true (exponent_plainNumeral _ s) (by omega)
    · rename_i hplain
      exact iff_of_false (Option.some_ne_none _) (by omega)
  canonical := canonical_numeral (by cases negative <;> decide) h
  lead := by
    unfold Scientific.numeral
    split
    · intro hexp
      exact absurd (exponent_plainNumeral _ s) hexp
    · intro _
      refine ⟨power_exponent s, ?_⟩
      obtain ⟨ds, p⟩ := s
      cases ds with
      | nil => exact absurd rfl h.digits_ne
      | cons d ds => exact ⟨d, ds, rfl, rfl, rfl⟩
  split := by
    unfold Scientific.numeral
    split
    · intro _ hpos hlt
      refine ⟨_, _, (List.take_append_drop s.point.toNat s.digits).symm, ?_, ?_⟩
      · rw [List.length_take]
        omega
      · rw [Scientific.plainNumeral, if_neg (by omega), if_pos hpos]
        exact ⟨rfl, rfl⟩
    · intro hexp
      cases hexp

theorem read?_numeral {sign : Option Sign} (hsign : sign ≠ some .plus) {s : Scientific}
    (h : s.Normal) : Numeral.read? (s.numeral sign).chars = some (s.numeral sign) := by
  have hcanonical := canonical_numeral hsign h
  exact Numeral.read?_chars hcanonical.whole_ne fun e he => (hcanonical.exponent_digits e he).1

end Decimal

namespace Number

open Decimal

/-- The text of a double that is not zero is the numeral of its shortest digits. -/
theorem chars_float (negative : Bool) {mantissa : Nat} (h : mantissa ≠ 0) (exponent : Int) :
    (Number.float (.finite negative mantissa exponent)).chars
      = ((shortest Format.double .up mantissa exponent).numeral (Sign.front negative)).chars := by
  have hsign : (negative && mantissa != 0) = negative := by simp [h]
  rw [chars_numeral, Number.chars, finiteChars, hsign, Layout.doubleChars, if_neg h]
  cases negative <;> rfl

/-- The numeral that is read from the text of a double that is not zero. -/
theorem exists_read?_text (negative : Bool) {mantissa : Nat} (h : mantissa ≠ 0) (exponent : Int) :
    ∃ n, Numeral.read? (Number.float (.finite negative mantissa exponent)).text.toList = some n ∧
      n.Shows negative (shortest Format.double .up mantissa exponent) := by
  have hnormal := normal_shortest Format.double .up h exponent
  refine ⟨_, ?_, shows_numeral negative hnormal⟩
  rw [text, String.toList_ofList, chars_float negative h]
  exact read?_numeral (by cases negative <;> decide) hnormal

/-- **The text of a double denotes it.** Of a finite double that is not zero, with its
shortest digits and the place of their point,

* the digits begin and end with another digit than zero;
* the text is a numeral, which shows the double with nothing superfluous;
* no double with another sign, other digits or another place of the point has that text. -/
theorem text_denotes (negative : Bool) {mantissa : Nat} (h : mantissa ≠ 0) (exponent : Int) :
    (shortest Format.double .up mantissa exponent).Normal ∧
    (∃ n, Numeral.read? (Number.float (.finite negative mantissa exponent)).text.toList = some n ∧
      n.Shows negative (shortest Format.double .up mantissa exponent)) ∧
    ∀ (negative' : Bool) (mantissa' : Nat) (exponent' : Int), mantissa' ≠ 0 →
      (Number.float (.finite negative' mantissa' exponent')).text
        = (Number.float (.finite negative mantissa exponent)).text →
      negative' = negative ∧ shortest Format.double .up mantissa' exponent'
        = shortest Format.double .up mantissa exponent := by
  have hnormal := normal_shortest Format.double .up h exponent
  refine ⟨hnormal, exists_read?_text negative h exponent, ?_⟩
  intro negative' mantissa' exponent' h' htext
  have hnormal' := normal_shortest Format.double .up h' exponent'
  obtain ⟨n, hread, hshows⟩ := exists_read?_text negative h exponent
  obtain ⟨n', hread', hshows'⟩ := exists_read?_text negative' h' exponent'
  rw [htext, hread] at hread'
  obtain rfl : n = n' := Option.some.inj hread'
  exact hnormal'.eq_of_signed_value hnormal (hshows'.value_eq.symm.trans hshows.value_eq)

/-- A double with an exponent: its text is read, and shows its two digits. -/
theorem text_denotes_small :
    (∃ n, Numeral.read? "-1.5e-7".toList = some n ∧ n.Shows true ⟨[1, 5], -6⟩) ∧
    (Number.float (.finite false 1 0)).text ≠ "-1.5e-7" := by
  have hdigits : shortest Format.double .up 5666839779443574 (-75) = ⟨[1, 5], -6⟩ := by
    decide +kernel
  have htext : (Number.float (.finite true 5666839779443574 (-75))).text = "-1.5e-7" := by
    decide +kernel
  obtain ⟨-, hread, hdiffer⟩ := @text_denotes true 5666839779443574 (by decide) (-75)
  rw [htext, hdigits] at hread
  refine ⟨hread, fun hone => ?_⟩
  have hsign := (hdiffer false 1 0 (by decide) (hone.trans htext.symm)).1
  cases hsign

end Number
end Markup
