/-
# Documents that are integers

A document that is an integer in decimal is read by its digits (`Json.ofText_toString`). The
reader keeps as many of them as fit 64 bits, which are the number divided by the power of ten
of the others (`Json.gather_digits`). If none are left it has the integer. Otherwise it
rounds twice before it multiplies, and takes the integer for the double nearest to a product
that need not be the integer (`Json.wide`, `Json.ofWhole_digits`); that is off by no more
than the 2⁵¹st part, though (`Json.rounded_wide_near`).

With a point and a zero behind it, a document is ten times as many tenths. An integer up to
2⁵³ has few enough digits for all of them to be kept, but their count is rounded before it is
divided by ten (`Json.ofText_point_zero`).

Key definitions: `Json.excess`, `Json.wide`.
Key theorems: `Json.gather_digits`, `Json.ofText_toString`, `Json.ofWhole_digits`,
`Json.rounded_wide_near`, `Json.ofText_point_zero`.
-/
import Mathlib.Tactic.FinCases
import Markup.Error
import Markup.Proofs.RoundedNaturals
import Markup.Proofs.Wholes

namespace Markup
namespace Json

open Decimal Format

/-! ### Digits that fit 64 bits -/

theorem gather_append (n : Nat) (ds es : List Digit) : gather n (ds ++ es) =
    if (gather n ds).2 = [] then gather (gather n ds).1 es
    else ((gather n ds).1, (gather n ds).2 ++ es) := by
  induction ds generalizing n with
  | nil => simp [gather]
  | cons d ds ih =>
    rw [List.cons_append, gather, gather]
    split
    · exact ih _
    · simp

/-- How many digits of a number stand behind those that fit 64 bits. -/
def excess (n : Nat) : Nat := if n < 0x10000000000000000 then 0 else excess (n / 10) + 1
termination_by n

theorem excess_of_lt {n : Nat} (h : n < 0x10000000000000000) : excess n = 0 := by
  rw [excess, if_pos h]

theorem excess_of_le {n : Nat} (h : 0x10000000000000000 ≤ n) :
    excess n = excess (n / 10) + 1 := by
  rw [excess, if_neg (Nat.not_lt.mpr h)]

/-- The digits that are kept fit, and are as many as there are: they are a large number. -/
theorem kept_bounds {n : Nat} (h : 0x10000000000000000 ≤ n) :
    2 ^ 60 ≤ n / 10 ^ excess n ∧ n / 10 ^ excess n < 0x10000000000000000 := by
  fun_induction excess n with
  | case1 n hlt => omega
  | case2 n hge ih =>
    rw [pow_succ' 10, ← Nat.div_div_eq_div_mul]
    by_cases hnext : 0x10000000000000000 ≤ n / 10
    · exact ih hnext
    · rw [excess_of_lt (Nat.lt_of_not_le hnext), pow_zero, Nat.div_one]
      omega

/-- **The reader keeps the digits that fit**, and leaves the others. -/
theorem gather_digits (n : Nat) : (gather 0 (digits n)).1 = n / 10 ^ excess n ∧
    (gather 0 (digits n)).2.length = excess n := by
  fun_induction digits n with
  | case1 n h =>
    have hdigit : 10 * 0 + (Fin.ofNat 10 n).val = n := by
      simp only [Fin.ofNat]
      omega
    rw [gather, hdigit, if_pos (by omega), excess_of_lt (by omega), pow_zero, Nat.div_one]
    exact ⟨rfl, rfl⟩
  | case2 n h ih =>
    obtain ⟨hkept, hleft⟩ := ih
    have hdigit : 10 * (n / 10) + (Fin.ofNat 10 n).val = n := by
      simp only [Fin.ofNat]
      omega
    rw [gather_append]
    split
    · rename_i hnone
      rw [hnone, List.length_nil] at hleft
      rw [← hleft, pow_zero, Nat.div_one] at hkept
      rw [hkept, gather, hdigit]
      split
      · rename_i hlt
        rw [excess_of_lt hlt, pow_zero, Nat.div_one]
        exact ⟨rfl, rfl⟩
      · rename_i hge
        rw [excess_of_le (Nat.le_of_not_lt hge), ← hleft, Nat.zero_add, pow_one]
        exact ⟨rfl, rfl⟩
    · rename_i hsome
      have hge : 0x10000000000000000 ≤ n := by
        by_contra hlt
        rw [excess_of_lt (by omega)] at hleft
        exact hsome (List.length_eq_zero_iff.mp hleft)
      rw [excess_of_le hge, pow_succ', ← Nat.div_div_eq_div_mul, List.length_append, hleft]
      exact ⟨hkept, rfl⟩

theorem gather_digits_of_lt {n : Nat} (h : n < 0x10000000000000000) :
    gather 0 (digits n) = (n, []) := by
  obtain ⟨hkept, hleft⟩ := gather_digits n
  rw [excess_of_lt h] at hkept hleft
  rw [pow_zero, Nat.div_one] at hkept
  exact Prod.ext hkept (List.length_eq_zero_iff.mp hleft)

/-! ### Doubles that are read -/

/-- A power of ten up to the greatest one is a double. -/
theorem exists_tenPower {k : Nat} (h : k ≤ maxPower) :
    ∃ m e, tenPower k = .finite false m e ∧ (m : ℚ) * 2 ^ e = rounded (10 ^ k) := by
  have hle : 10 ^ k ≤ 10 ^ maxPower := Nat.pow_le_pow_right (by decide) h
  have hlast : 10 ^ maxPower + 2 ^ 970 < 2 ^ 1024 := by decide +kernel
  exact exists_nearest_nat false ((Nat.add_le_add_right hle _).trans_lt hlast)

/-- A count times a power of ten is read as the double nearest to the product of both, each
rounded, if there is one. -/
theorem double?_nat (s : Bool) {count : Nat} (hpos : 0 < count) (hfits : count < 2 ^ 64)
    (k : Nat) : double? s count k
      = finite? (double.nearest s (rounded count * rounded (10 ^ k)) 1) := by
  obtain ⟨m, e, hcount, hvalue⟩ := exists_nearest_nat s (add_lt_of_le hfits.le)
  rw [double?, if_pos (Int.natCast_nonneg k), Int.toNat_natCast, hcount, multiplied?]
  have hkept := le_two_mul_rounded count
  split
  · rename_i hk
    obtain ⟨n, j, hpower, hten⟩ := exists_tenPower hk
    rw [hpower, mul_eq_nearest s hvalue hten]
  · rename_i hk
    have hnonzero : m ≠ 0 := by
      rintro rfl
      rw [Nat.cast_zero, zero_mul, eq_comm, Nat.cast_eq_zero] at hvalue
      omega
    have hlarge : 2 ^ 1025 ≤ 10 ^ k := by
      have hpow : 10 ^ (maxPower + 1) ≤ 10 ^ k :=
        Nat.pow_le_pow_right (by decide) (Nat.lt_of_not_le hk)
      have hfirst : 2 ^ 1025 ≤ 10 ^ (maxPower + 1) := by decide +kernel
      exact hfirst.trans hpow
    have hten := le_two_mul_rounded (10 ^ k)
    have hproduct := Nat.le_mul_of_pos_left (rounded (10 ^ k)) (show 0 < rounded count by omega)
    have hinfinite := (double_nearest_eq_infinity_iff s _).mpr
      (show 2 ^ 1024 ≤ rounded count * rounded (10 ^ k) + 2 ^ 970 by omega)
    rw [if_neg (by simpa [Binary.isZero] using hnonzero), hinfinite, finite?]

/-- The number that a wide integer becomes the nearest double of: its digits that fit 64 bits
times the power of ten of the others, each of the two as a double. -/
def wide (n : Nat) : Nat := rounded (n / 10 ^ excess n) * rounded (10 ^ excess n)

/-- The digits that are kept are the number but for its 2⁶⁰th part. -/
theorem kept_near {n : Nat} (h : 0x10000000000000000 ≤ n) :
    (n : ℚ) * (1 - 1 / 2 ^ 60) ≤ (n / 10 ^ excess n : Nat) * (10 ^ excess n : Nat) ∧
      ((n / 10 ^ excess n : Nat) : ℚ) * (10 ^ excess n : Nat) ≤ n := by
  obtain ⟨hlow, -⟩ := kept_bounds h
  have hle : ((n / 10 ^ excess n : Nat) : ℚ) * (10 ^ excess n : Nat) ≤ n := by
    exact_mod_cast Nat.div_mul_le_self n (10 ^ excess n)
  have hlt : (n : ℚ) < ((n / 10 ^ excess n : Nat) + 1) * (10 ^ excess n : Nat) := by
    exact_mod_cast (Nat.div_lt_iff_lt_mul (Nat.pow_pos (by decide))).mp (Nat.lt_succ_self _)
  have hkept : (2 : ℚ) ^ 60 * (10 ^ excess n : Nat)
      ≤ (n / 10 ^ excess n : Nat) * (10 ^ excess n : Nat) :=
    mul_le_mul_of_nonneg_right (by exact_mod_cast hlow) (Nat.cast_nonneg _)
  exact ⟨by linarith, hle⟩

/-- **A wide integer is read as a double that is near it**, though it need not be the nearest
one. -/
theorem rounded_wide_near {n : Nat} (h : 0x10000000000000000 ≤ n) :
    |(rounded (wide n) : ℚ) - n| ≤ n / 2 ^ 51 := by
  obtain ⟨hless, hmore⟩ := kept_near h
  obtain ⟨hkeptlow, hkepthigh⟩ := rounded_near (n / 10 ^ excess n)
  obtain ⟨htenlow, htenhigh⟩ := rounded_near (10 ^ excess n)
  obtain ⟨hlow, hhigh⟩ := rounded_near (wide n)
  rw [wide, Nat.cast_mul, ← wide] at hlow hhigh
  generalize hs : ((n / 10 ^ excess n : Nat) : ℚ) = s at *
  generalize hp : ((10 ^ excess n : Nat) : ℚ) = p at *
  have hspos : 0 ≤ s := hs ▸ Nat.cast_nonneg _
  have hppos : 0 ≤ p := hp ▸ Nat.cast_nonneg _
  have hnpos : (0 : ℚ) ≤ n := n.cast_nonneg
  rw [abs_le]
  constructor
  · have hproduct : (n : ℚ) * (1 - 1 / 2 ^ 60) * (1 - 1 / 2 ^ 53) ^ 3 ≤ rounded (wide n) :=
      calc (n : ℚ) * (1 - 1 / 2 ^ 60) * (1 - 1 / 2 ^ 53) ^ 3
          ≤ s * p * (1 - 1 / 2 ^ 53) ^ 3 := mul_le_mul_of_nonneg_right hless (by norm_num)
        _ = s * (1 - 1 / 2 ^ 53) * (p * (1 - 1 / 2 ^ 53)) * (1 - 1 / 2 ^ 53) := by ring
        _ ≤ rounded (n / 10 ^ excess n) * rounded (10 ^ excess n) * (1 - 1 / 2 ^ 53) := by
            gcongr
        _ ≤ rounded (wide n) := hlow
    have hfactor : (1 - 1 / 2 ^ 51 : ℚ) ≤ (1 - 1 / 2 ^ 60) * (1 - 1 / 2 ^ 53) ^ 3 := by norm_num
    have hbound := mul_le_mul_of_nonneg_left hfactor hnpos
    linarith
  · have hproduct : (rounded (wide n) : ℚ) ≤ n * (1 + 1 / 2 ^ 53) ^ 3 :=
      calc (rounded (wide n) : ℚ)
          ≤ rounded (n / 10 ^ excess n) * rounded (10 ^ excess n) * (1 + 1 / 2 ^ 53) := hhigh
        _ ≤ s * (1 + 1 / 2 ^ 53) * (p * (1 + 1 / 2 ^ 53)) * (1 + 1 / 2 ^ 53) := by gcongr
        _ = s * p * (1 + 1 / 2 ^ 53) ^ 3 := by ring
        _ ≤ n * (1 + 1 / 2 ^ 53) ^ 3 := mul_le_mul_of_nonneg_right hmore (by norm_num)
    have hfactor : (1 + 1 / 2 ^ 53 : ℚ) ^ 3 ≤ 1 + 1 / 2 ^ 51 := by norm_num
    have hbound := mul_le_mul_of_nonneg_left hfactor hnpos
    linarith

/-- **The value of digits without a fraction**: an integer if they fit 64 bits, else a
double. -/
theorem ofWhole_digits (s : Bool) (n : Nat) : ofWhole s (digits n) =
    if n < 0x10000000000000000 then .ok (ofCount s n)
    else ofDouble? (finite? (double.nearest s (wide n) 1)) := by
  split
  · rename_i hlt
    rw [ofWhole, gather_digits_of_lt hlt]
  · rename_i hge
    obtain ⟨hkept, hleft⟩ := gather_digits n
    obtain ⟨hlow, hfits⟩ := kept_bounds (Nat.le_of_not_lt hge)
    have hsome : (gather 0 (digits n)).2 ≠ [] := by
      intro hnone
      rw [hnone, excess_of_le (Nat.le_of_not_lt hge)] at hleft
      cases hleft
    have hdouble := double?_nat s (by omega) hfits (excess n)
    rw [← hkept, ← hleft] at hdouble
    rw [wide, ← hkept, ← hleft, ← hdouble]
    unfold ofWhole
    split
    · rename_i hgather
      rw [hgather] at hsome
      exact absurd rfl hsome
    · rename_i hgather
      rw [hgather]

/-- **The value of an integer with a point and a zero**: its tenths become a double, and the
tenth part of that double becomes one. -/
theorem ofParts_tenths (s : Bool) {n : Nat} (h : n ≤ 2 ^ 53) :
    ofParts s (digits n) [0] 0 = .ok (.float (double.nearest s (rounded (10 * n)) 10)) := by
  obtain ⟨m, e, hcount, hvalue⟩ := exists_nearest_nat s (n := 10 * n) (add_lt_of_le (by omega))
  obtain ⟨n', k, hpower, hten⟩ := exists_tenPower (show 1 ≤ maxPower by decide)
  have hquotient := div_eq_nearest s hvalue hten (by rw [rounded_of_lt (by decide)]; decide)
  rw [rounded_of_lt (by decide : 10 ^ 1 < 2 ^ 53), pow_one] at hquotient
  have hgather : gather n [0] = (10 * n, []) := by
    rw [gather, if_pos (by simp; omega)]
    rfl
  have hdouble : double? s (10 * n) (-1) = some (double.nearest s (rounded (10 * n)) 10) := by
    rw [double?, if_neg (by decide), hcount, divided, if_pos (by decide), ← hquotient, ← hpower]
    rfl
  rw [ofParts, gather_digits_of_lt (by omega)]
  dsimp only
  rw [hgather]
  exact congrArg ofDouble? hdouble

/-! ### Texts of documents -/

theorem isBlank_char : ∀ d : Digit, isBlank d.char = false := by decide

/-- A value that begins with a digit is a number. -/
theorem value_digit (fuel depth : Nat) (d : Digit) (cs : List Char) :
    value (fuel + 1) depth (d.char :: cs) = numeral false (d.char :: cs) := by
  rw [value, skipBlanks, List.dropWhile_cons_of_neg (by simp [isBlank_char])]
  fin_cases d <;> rfl

/-- A value that is an integer in decimal is a number behind its sign. -/
theorem value_intChars (fuel depth : Nat) (v : Int) (rest : List Char) :
    value (fuel + 1) depth (intChars v ++ rest)
      = numeral (decide (v < 0)) (natChars v.natAbs ++ rest) := by
  unfold intChars
  by_cases h : v < 0
  · rw [if_pos h, decide_eq_true h]
    rfl
  · rw [if_neg h, decide_eq_false h, natChars]
    cases hds : digits v.natAbs with
    | nil => exact absurd hds (digits_ne_nil _)
    | cons d ds => exact value_digit fuel depth d _

theorem someDigits_digitChars {ds : List Digit} (h : ds ≠ []) {rest : List Char}
    (hrest : Numeral.Stops rest) : someDigits (digitChars ds ++ rest) = .ok (ds, rest) := by
  unfold someDigits
  rw [Numeral.digitRun_digitChars ds hrest]
  cases ds with
  | nil => exact absurd rfl h
  | cons d ds => rfl

/-- The digits of a number are a whole part: only zero has a zero in front. -/
theorem wholePart_natChars (n : Nat) {rest : List Char} (hrest : Numeral.Stops rest) :
    wholePart (natChars n ++ rest) = .ok (digits n, rest) := by
  rw [wholePart, natChars, someDigits_digitChars (digits_ne_nil n) hrest]
  by_cases hn : n = 0
  · rw [hn, digits_of_lt (by decide)]
    rfl
  · simp only [Bind.bind, Except.bind]
    split
    · rename_i hzero
      exact absurd (congrArg List.head? hzero) (head?_digits hn)
    · rfl

/-- Digits alone have neither fraction nor exponent. -/
theorem numeral_natChars (negative : Bool) (n : Nat) :
    numeral negative (natChars n ++ []) = (·, []) <$> ofWhole negative (digits n) := by
  have hstops : Numeral.Stops [] := fun c hc => by cases hc
  rw [numeral, wholePart_natChars n hstops]
  change (ofWhole negative (digits n) >>= fun j => .ok (j, [])) = _
  cases ofWhole negative (digits n) <;> rfl

/-- Digits with a point and a zero have one digit in their fraction. -/
theorem numeral_point_zero (negative : Bool) (n : Nat) :
    numeral negative (natChars n ++ ['.', '0'])
      = (·, []) <$> ofParts negative (digits n) [0] 0 := by
  have hstops : Numeral.Stops ['.', '0'] := fun c hc => by
    cases hc
    rfl
  rw [numeral, wholePart_natChars n hstops]
  change (ofParts negative (digits n) [0] 0 >>= fun j => .ok (j, [])) = _
  cases ofParts negative (digits n) [0] 0 <;> rfl

/-- Whether a value is a number. -/
def IsNumber : Json → Prop
  | .integer _ => True
  | .float _ => True
  | _ => False

theorem isNumber_ofCount (negative : Bool) (n : Nat) : (ofCount negative n).IsNumber := by
  unfold ofCount
  split
  · split <;> trivial
  · trivial

theorem isNumber_of_ofDouble? {x : Option Binary} {j : Json} (h : ofDouble? x = .ok j) :
    j.IsNumber := by
  cases x <;> cases h
  trivial

theorem isNumber_of_ofWhole {negative : Bool} {whole : List Digit} {j : Json}
    (h : ofWhole negative whole = .ok j) : j.IsNumber := by
  unfold ofWhole at h
  split at h
  · cases h
    exact isNumber_ofCount _ _
  · exact isNumber_of_ofDouble? h

/-- A document that is a number is read as that number. -/
theorem ofText_intChars {v : Int} {rest : List Char} {r : Except Fault Json}
    (h : numeral (decide (v < 0)) (natChars v.natAbs ++ rest) = (·, []) <$> r)
    (hnumber : ∀ j, r = .ok j → j.IsNumber) (j : Json) :
    ofText (String.ofList (intChars v ++ rest)) = .ok j ↔ r = .ok j := by
  have hraw : readRaw (String.ofList (intChars v ++ rest)) = r := by
    rw [readRaw, readNested, String.toList_ofList, value_intChars, h]
    cases r <;> rfl
  rw [ofText, read, hraw]
  cases r with
  | error fault => exact ⟨nofun, nofun⟩
  | ok value =>
    have hmerged : merged value = value := by
      have hvalue := hnumber value rfl
      cases value <;> first | rfl | exact hvalue.elim
    rw [Except.map_ok, hmerged]
    exact ⟨fun heq => congrArg _ (Except.ok.inj heq), fun heq => congrArg _ (Except.ok.inj heq)⟩

/-- **A document that is an integer in decimal is read by its digits.** -/
theorem ofText_toString (v : Int) (j : Json) :
    ofText (toString v) = .ok j ↔ ofWhole (decide (v < 0)) (digits v.natAbs) = .ok j := by
  have hdocument := ofText_intChars (numeral_natChars (decide (v < 0)) v.natAbs)
    (fun _ => isNumber_of_ofWhole) j
  rwa [List.append_nil, ← intText, intText_eq_toString] at hdocument

/-- **A document that is an integer up to 2⁵³ with a point and a zero is a double.** -/
theorem ofText_point_zero {v : Int} (h : v.natAbs ≤ 2 ^ 53) : ofText (toString v ++ ".0")
    = .ok (.float (double.nearest (decide (v < 0)) (rounded (10 * v.natAbs)) 10)) := by
  have hparts := ofParts_tenths (decide (v < 0)) h
  have hdocument := ofText_intChars (numeral_point_zero (decide (v < 0)) v.natAbs)
    (fun j hj => by rw [hparts] at hj; cases hj; trivial)
    (.float (double.nearest (decide (v < 0)) (rounded (10 * v.natAbs)) 10))
  have htext : String.ofList (intChars v ++ ['.', '0']) = toString v ++ ".0" := by
    rw [String.ofList_append, ← intText, intText_eq_toString]
  rw [htext] at hdocument
  exact hdocument.mpr hparts

end Json
end Markup
