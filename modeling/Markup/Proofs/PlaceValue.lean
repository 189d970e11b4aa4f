/-
# Decimal numerals and what they denote

A reader of decimal numerals takes a sign, digits, a point with digits and an exponent, and
knows nothing of how numbers are laid out: it accepts zeros wherever they may stand, a point
with nothing behind it, and an exponent with or without a sign (`Numeral.read?`). It reads
every numeral as it was written (`Numeral.read?_chars`).

A point may be put anywhere between the digits if a power of ten makes up for it
(`add_places`), and zeros at the end do not count. So a number with digits that have no zero
at their ends determines them and the place of its point
(`Scientific.Normal.eq_of_value`).

Key definitions: `Numeral`, `Numeral.read?`, `Numeral.value`, `Scientific.value`.
Key theorems: `Numeral.read?_chars`, `add_places`, `Scientific.Normal.eq_of_value`.
-/
import Mathlib.Algebra.Order.Field.Power
import Mathlib.Data.Rat.Cast.Order
import Mathlib.Tactic.FieldSimp
import Mathlib.Tactic.Linarith
import Mathlib.Tactic.Positivity
import Mathlib.Tactic.WLOG
import Markup.Json.Reader
import Markup.Proofs.Shortest

namespace Markup
namespace Decimal

/-! ### Numerals -/

/-- The number that digits behind a point stand for, `0.d₁d₂…`. -/
def places (ds : List Digit) : ℚ := ofDigits ds / 10 ^ ds.length

/-- A sign in front of digits. -/
inductive Sign where
  | plus
  | minus
deriving DecidableEq

/-- The exponent of a numeral. -/
structure Exponent where
  sign : Option Sign
  digits : List Digit
deriving DecidableEq

/-- A decimal numeral: digits, perhaps with a sign in front, perhaps with a point and digits
behind it, perhaps with an exponent. -/
structure Numeral where
  sign : Option Sign
  whole : List Digit
  fraction : Option (List Digit)
  exponent : Option Exponent
deriving DecidableEq

namespace Sign

/-- The factor that a sign stands for, or one if there is none. -/
def factor : Option Sign → ℤ
  | some .minus => -1
  | some .plus => 1
  | none => 1

/-- A sign as it is written. -/
def chars : Option Sign → List Char
  | some .minus => ['-']
  | some .plus => ['+']
  | none => []

/-- The sign at the front of a text, if there is one, and the text behind it. -/
def read : List Char → Option Sign × List Char
  | '-' :: cs => (some .minus, cs)
  | '+' :: cs => (some .plus, cs)
  | cs => (none, cs)

end Sign

namespace Numeral

/-- The power of ten that an exponent stands for. -/
def power : Option Exponent → ℤ
  | some e => Sign.factor e.sign * ofDigits e.digits
  | none => 0

/-- The number that a numeral denotes. -/
def value (n : Numeral) : ℚ :=
  Sign.factor n.sign * (ofDigits n.whole + places (n.fraction.getD [])) * 10 ^ power n.exponent

/-! ### Reading numerals -/

/-- A point with the digits behind it at the front of a text, if there is one, and the text
behind them. -/
def readFraction : List Char → Option (List Digit) × List Char
  | '.' :: cs => (some (Json.digitRun cs).1, (Json.digitRun cs).2)
  | cs => (none, cs)

/-- The exponent that a text is, or no exponent if it is empty. An exponent has a digit. -/
def readExponent? : List Char → Option (Option Exponent)
  | [] => some none
  | 'e' :: cs =>
    match Json.digitRun (Sign.read cs).2 with
    | (d :: ds, []) => some (some ⟨(Sign.read cs).1, d :: ds⟩)
    | _ => none
  | _ => none

/-- The numeral that a text is. It has a digit in front of the point. -/
def read? (cs : List Char) : Option Numeral :=
  let (sign, cs) := Sign.read cs
  let (whole, cs) := Json.digitRun cs
  let (fraction, cs) := readFraction cs
  if whole = [] then none
  else (readExponent? cs).map fun exponent => ⟨sign, whole, fraction, exponent⟩

/-- A point with digits as it is written. -/
def fractionChars : Option (List Digit) → List Char
  | some ds => '.' :: digitChars ds
  | none => []

/-- An exponent as it is written. -/
def exponentChars : Option Exponent → List Char
  | some e => 'e' :: (Sign.chars e.sign ++ digitChars e.digits)
  | none => []

/-- A numeral as it is written. -/
def chars (n : Numeral) : List Char :=
  Sign.chars n.sign ++ (digitChars n.whole ++ (fractionChars n.fraction ++ exponentChars n.exponent))

theorem ofChar?_char : ∀ d : Digit, Digit.ofChar? d.char = some d := by decide

/-- Whether a text does not go on with a digit. -/
def Stops (cs : List Char) : Prop := ∀ c ∈ cs.head?, Digit.ofChar? c = none

/-- Digits are read up to their end. -/
theorem digitRun_digitChars (ds : List Digit) {rest : List Char} (h : Stops rest) :
    Json.digitRun (digitChars ds ++ rest) = (ds, rest) := by
  induction ds with
  | nil =>
    cases rest with
    | nil => rfl
    | cons c cs =>
      have hc : Digit.ofChar? c = none := h c rfl
      simp [digitChars, Json.digitRun, hc]
  | cons d ds ih =>
    have hcons : digitChars (d :: ds) ++ rest = d.char :: (digitChars ds ++ rest) := rfl
    rw [hcons, Json.digitRun, ofChar?_char, ih]

theorem char_ne_sign : ∀ d : Digit, d.char ≠ '-' ∧ d.char ≠ '+' := by decide

/-- A sign is read if one is written, and none in front of a digit. -/
theorem read_signChars (sign : Option Sign) {ds : List Digit} (h : ds ≠ []) (rest : List Char) :
    Sign.read (Sign.chars sign ++ (digitChars ds ++ rest)) = (sign, digitChars ds ++ rest) := by
  cases sign with
  | some s => cases s <;> rfl
  | none =>
    cases ds with
    | nil => exact absurd rfl h
    | cons d ds =>
      obtain ⟨hminus, hplus⟩ := char_ne_sign d
      simp [Sign.chars, digitChars, Sign.read, hminus, hplus]

theorem stops_exponentChars (e : Option Exponent) : Stops (exponentChars e) := by
  intro c hc
  cases e with
  | none => cases hc
  | some e =>
    cases hc
    rfl

theorem readFraction_chars (fraction : Option (List Digit)) (e : Option Exponent) :
    readFraction (fractionChars fraction ++ exponentChars e) = (fraction, exponentChars e) := by
  cases fraction with
  | none => cases e <;> rfl
  | some ds =>
    have hrun := digitRun_digitChars ds (stops_exponentChars e)
    rw [fractionChars, List.cons_append, readFraction, hrun]

theorem stops_fractionChars (fraction : Option (List Digit)) (e : Option Exponent) :
    Stops (fractionChars fraction ++ exponentChars e) := by
  cases fraction with
  | none => exact stops_exponentChars e
  | some ds =>
    intro c hc
    cases hc
    rfl

theorem readExponent?_chars {e : Option Exponent} (h : ∀ x ∈ e, x.digits ≠ []) :
    readExponent? (exponentChars e) = some e := by
  cases e with
  | none => rfl
  | some e =>
    obtain ⟨sign, ds⟩ := e
    have hds : ds ≠ [] := h _ rfl
    have hsign := read_signChars sign hds []
    have hend : Stops [] := fun c hc => by cases hc
    have hrun := digitRun_digitChars ds hend
    rw [List.append_nil] at hsign hrun
    rw [exponentChars, readExponent?, hsign, hrun]
    cases ds with
    | nil => exact absurd rfl hds
    | cons d ds => rfl

/-- **A numeral is read as it was written.** -/
theorem read?_chars {n : Numeral} (hwhole : n.whole ≠ []) (he : ∀ e ∈ n.exponent, e.digits ≠ []) :
    read? n.chars = some n := by
  have hsign := read_signChars n.sign hwhole (fractionChars n.fraction ++ exponentChars n.exponent)
  have hrun := digitRun_digitChars n.whole (stops_fractionChars n.fraction n.exponent)
  rw [read?, chars, hsign]
  simp only [hrun, readFraction_chars, readExponent?_chars he, if_neg hwhole, Option.map_some]

end Numeral

/-! ### Where the point stands -/

/-- Zeros at the end do not count. -/
theorem places_append_zeros (ds : List Digit) (n : Nat) :
    places (ds ++ zeros n) = places ds := by
  have hten : (10 : ℚ) ^ n ≠ 0 := pow_ne_zero n (by norm_num)
  rw [places, places, ofDigits_append, ofDigits_zeros, List.length_append,
    length_zeros, pow_add]
  push_cast
  rw [add_zero, mul_div_mul_right _ _ hten]

/-- A zero in front is a tenth. -/
theorem places_zeros_append (n : Nat) (ds : List Digit) :
    places (zeros n ++ ds) = places ds / 10 ^ n := by
  rw [places, places, ofDigits_append, ofDigits_zeros, List.length_append,
    length_zeros, pow_add, Nat.zero_mul, Nat.zero_add, div_div, mul_comm]

/-- A point may be put anywhere between the digits. -/
theorem add_places (front back : List Digit) :
    (ofDigits front : ℚ) + places back = places (front ++ back) * 10 ^ front.length := by
  have hfront : (10 : ℚ) ^ front.length ≠ 0 := pow_ne_zero _ (by norm_num)
  have hback : (10 : ℚ) ^ back.length ≠ 0 := pow_ne_zero _ (by norm_num)
  rw [places, places, ofDigits_append, List.length_append, pow_add]
  push_cast
  field_simp

/-! ### Numbers in scientific form -/

/-- The number that digits with the place of their point are, `0.d₁d₂… × 10 ^ point`. -/
def Scientific.value (s : Scientific) : ℚ := places s.digits * 10 ^ s.point

/-- Digits without a zero at the end are no multiple of ten. -/
theorem ofDigits_mod_ten {ds : List Digit} (hne : ds ≠ []) (h : ds.getLast? ≠ some 0) :
    ofDigits ds % 10 ≠ 0 := by
  induction ds using List.reverseRecOn with
  | nil => exact absurd rfl hne
  | append_singleton ds d _ =>
    rw [List.getLast?_concat] at h
    rw [ofDigits_append_singleton]
    have hd := d.isLt
    intro hzero
    refine h (congrArg some (Fin.ext ?_))
    simp only [Fin.val_zero]
    omega

theorem Scientific.Normal.value_pos {s : Scientific} (h : s.Normal) : 0 < s.value := by
  have hmod := ofDigits_mod_ten h.digits_ne h.last_ne
  have hpos : 0 < ofDigits s.digits := by omega
  unfold value places
  positivity

/-- A multiple of a power of ten that is not one of a greater power is so in one way. -/
theorem mul_zpow_inj {m n : Nat} {a b : ℤ} (hm : m % 10 ≠ 0) (hn : n % 10 ≠ 0)
    (h : (m : ℚ) * 10 ^ a = n * 10 ^ b) : m = n ∧ a = b := by
  wlog hab : a ≤ b generalizing m n a b
  · have hflip := this hn hm h.symm (by omega)
    exact ⟨hflip.1.symm, hflip.2.symm⟩
  obtain ⟨j, rfl⟩ := Int.le.dest hab
  have hten : (10 : ℚ) ^ a ≠ 0 := zpow_ne_zero a (by norm_num)
  have hmul : m = n * 10 ^ j := by
    rw [add_comm, zpow_add₀ (by norm_num), ← mul_assoc, zpow_natCast] at h
    have hcancel := mul_right_cancel₀ hten h
    exact_mod_cast hcancel
  cases j with
  | zero => simpa using hmul
  | succ j =>
    rw [pow_succ, ← Nat.mul_assoc] at hmul
    omega

theorem Scientific.value_eq (s : Scientific) :
    s.value = ofDigits s.digits * 10 ^ (s.point - s.digits.length) := by
  rw [value, places, zpow_sub₀ (by norm_num), zpow_natCast, div_mul_eq_mul_div, mul_div_assoc]

/-- **Numbers in scientific form that are different denote different numbers.** -/
theorem Scientific.Normal.eq_of_value {s t : Scientific} (hs : s.Normal) (ht : t.Normal)
    (h : s.value = t.value) : s = t := by
  rw [s.value_eq, t.value_eq] at h
  obtain ⟨hdigits, hpoint⟩ := mul_zpow_inj (ofDigits_mod_ten hs.digits_ne hs.last_ne)
    (ofDigits_mod_ten ht.digits_ne ht.last_ne) h
  have hrow : s.digits = t.digits := by
    rw [← digits_ofDigits hs.digits_ne hs.head_ne, hdigits,
      digits_ofDigits ht.digits_ne ht.head_ne]
  obtain ⟨ds, p⟩ := s
  obtain ⟨es, q⟩ := t
  obtain rfl : ds = es := hrow
  obtain rfl : p = q := sub_left_inj.mp hpoint
  rfl

/-- A sign in front of a positive number is seen by its value. -/
theorem Scientific.Normal.eq_of_signed_value {s t : Scientific} (hs : s.Normal) (ht : t.Normal)
    {negative negative' : Bool}
    (h : (if negative then -1 else 1) * s.value = (if negative' then -1 else 1) * t.value) :
    negative = negative' ∧ s = t := by
  have hspos := hs.value_pos
  have htpos := ht.value_pos
  cases negative with
  | false =>
    cases negative' with
    | false =>
      simp only [Bool.false_eq_true, if_false, one_mul] at h
      exact ⟨rfl, hs.eq_of_value ht h⟩
    | true =>
      simp only [Bool.false_eq_true, if_false, if_true, one_mul, neg_one_mul] at h
      linarith
  | true =>
    cases negative' with
    | false =>
      simp only [Bool.false_eq_true, if_false, if_true, one_mul, neg_one_mul] at h
      linarith
    | true =>
      simp only [if_true, neg_one_mul, neg_inj] at h
      exact ⟨rfl, hs.eq_of_value ht h⟩

end Decimal
end Markup
