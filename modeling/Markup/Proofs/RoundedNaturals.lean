/-
# Natural numbers as doubles

The double nearest to a natural number is a natural number again: the number with all but its
first 53 bits rounded away (`Format.rounded`, `Format.exists_nearest_nat`). It differs from the
number by no more than the 2⁵³rd part (`Format.rounded_near`), and has no double near it from
the middle between the greatest one and 2¹⁰²⁴ on (`Format.double_nearest_eq_infinity_iff`).

So products and quotients of such doubles are the doubles nearest to a product and to a
fraction of natural numbers (`Format.mul_eq_nearest`, `Format.div_eq_nearest`).

Key definitions: `Format.rounded`.
Key theorems: `Format.exists_nearest_nat`, `Format.rounded_near`, `Format.mul_eq_nearest`,
`Format.div_eq_nearest`.
-/
import Markup.Proofs.Rounding

namespace Markup
namespace Format

/-- A natural number with all but its first 53 bits rounded away. -/
def rounded (n : Nat) : Nat := roundEven n (2 ^ (n.log2 - 52)) * 2 ^ (n.log2 - 52)

theorem double_hidden : (double.hidden : ℚ) = 2 ^ 52 := by norm_num [hidden, double]

/-! ### The nearest double -/

/-- A natural number has no nearest double from the middle between the greatest one and 2¹⁰²⁴
on. -/
theorem double_nearest_eq_infinity_iff (s : Bool) (n : Nat) :
    double.nearest s n 1 = .infinity s ↔ 2 ^ 1024 ≤ n + 2 ^ 970 := by
  have hgreatest : (2 : ℚ) ^ double.greatest = 2 * 2 ^ 970 :=
    (zpow_natCast 2 971).trans (pow_succ' 2 970)
  rw [nearest_eq_infinity_iff (by decide) (by decide) s Nat.one_pos, Nat.cast_one, div_one,
    double_hidden, hgreatest, ← @Nat.cast_le ℚ, Nat.cast_add, Nat.cast_pow, Nat.cast_pow,
    Nat.cast_ofNat, show (2 : ℚ) ^ 1024 = 2 ^ 54 * 2 ^ 970 from pow_add 2 54 970]
  generalize (2 : ℚ) ^ 970 = unit
  constructor <;> intro <;> linarith

theorem add_two_pow_lt {n a b : Nat} (hn : n ≤ 2 ^ a) (h : a + 1 < b) : n + 2 ^ a < 2 ^ b :=
  calc n + 2 ^ a ≤ 2 ^ a + 2 ^ a := Nat.add_le_add_right hn _
    _ = 2 ^ (a + 1) := (Nat.two_pow_succ a).symm
    _ < 2 ^ b := Nat.pow_lt_pow_right (by decide) h

/-- What fits 64 bits has a nearest double. -/
theorem add_lt_of_le {n : Nat} (h : n ≤ 2 ^ 64) : n + 2 ^ 970 < 2 ^ 1024 :=
  add_two_pow_lt (h.trans (pow_le_pow_right₀ one_le_two (show 64 ≤ 970 by decide))) (by decide)

/-- The first bit of a natural number decides the unit of its last place. -/
theorem unit_nat {n : Nat} (hn : n ≠ 0) : double.unit n 1 = (n.log2 : Int) - 52 := by
  have hpos := Nat.pos_of_ne_zero hn
  have hunit : (0 : ℚ) < 2 ^ ((n.log2 : Int) - 52) := by positivity
  have hlow : (2 : ℚ) ^ 52 * 2 ^ ((n.log2 : Int) - 52) ≤ n := by
    rw [← zpow_natCast 2 52, ← zpow_add₀ (by norm_num), Nat.cast_ofNat, add_sub_cancel,
      zpow_natCast]
    exact_mod_cast Nat.log2_self_le hn
  have hhigh : (n : ℚ) < 2 * 2 ^ 52 * 2 ^ ((n.log2 : Int) - 52) := by
    rw [mul_assoc, ← zpow_natCast 2 52, ← zpow_add₀ (by norm_num), Nat.cast_ofNat,
      add_sub_cancel, zpow_natCast, ← pow_succ']
    exact_mod_cast @Nat.lt_log2_self n
  refine unit_eq (by decide) hpos Nat.one_pos ?_ ?_ (Or.inr ?_)
  · simp only [double]
    omega
  · rw [Nat.cast_one, div_one, div_lt_iff₀ hunit, double_hidden]
    exact hhigh
  · rw [Nat.cast_one, div_one, le_div_iff₀ hunit, double_hidden]
    exact hlow

theorem rounded_of_lt {n : Nat} (h : n < 2 ^ 53) : rounded n = n := by
  have hlog : n.log2 - 52 = 0 := by
    by_cases hn : n = 0
    · rw [hn]
      rfl
    · have := (Nat.log2_lt hn).mpr h
      omega
  rw [rounded, hlog]
  simp [roundEven, Nat.mod_one]

/-- Up to 2⁵³ nothing is rounded away. -/
theorem rounded_of_le {n : Nat} (h : n ≤ 2 ^ 53) : rounded n = n := by
  rcases h.lt_or_eq with hlt | rfl
  · exact rounded_of_lt hlt
  · decide +kernel

/-- The count of units of the last place is the number without the bits behind. -/
theorem count_mul_unit {n : Nat} (hn : n ≠ 0) :
    (double.count n 1 : ℚ) * 2 ^ double.unit n 1 = rounded n := by
  have hcount := roundsTo_count double n Nat.one_pos
  rw [unit_nat hn, Nat.cast_one, div_one] at hcount
  rw [unit_nat hn]
  rcases le_or_gt 52 n.log2 with hlarge | hsmall
  · have hunit : (n.log2 : Int) - 52 = (n.log2 - 52 : Nat) := by omega
    have hrounds := roundsTo_roundEven n (Nat.two_pow_pos (n.log2 - 52))
    rw [hunit, zpow_natCast] at hcount ⊢
    rw [Nat.cast_pow, Nat.cast_ofNat] at hrounds
    rw [hcount.unique hrounds, rounded]
    push_cast
    rfl
  · have hunit : (n.log2 : Int) - 52 = -(52 - n.log2 : Nat) := by omega
    have hexact : (n : ℚ) / 2 ^ (-(52 - n.log2 : Nat) : Int) = (n * 2 ^ (52 - n.log2) : Nat) := by
      rw [zpow_neg, div_inv_eq_mul, zpow_natCast]
      push_cast
      rfl
    have hlt : n < 2 ^ 53 := (Nat.log2_lt hn).mp (by omega)
    rw [hunit, hexact] at hcount
    rw [hunit, hcount.unique (roundsTo_natCast _), rounded_of_lt hlt, zpow_neg, zpow_natCast]
    push_cast
    field_simp

/-- **The nearest double of a natural number**, if there is one, is the number without the
bits behind. -/
theorem exists_nearest_nat (s : Bool) {n : Nat} (h : n + 2 ^ 970 < 2 ^ 1024) :
    ∃ m e, double.nearest s n 1 = .finite s m e ∧ (m : ℚ) * 2 ^ e = rounded n := by
  by_cases hn : n = 0
  · subst hn
    refine ⟨0, double.least, rfl, ?_⟩
    rw [rounded_of_lt (by decide), Nat.cast_zero, zero_mul]
  · have hvalue := count_mul_unit hn
    obtain hinfinite | ⟨m, e, hnearest⟩ := nearest_cases double s n 1
    · exact absurd ((double_nearest_eq_infinity_iff s n).mp hinfinite) h.not_ge
    · refine ⟨m, e, hnearest, ?_⟩
      obtain ⟨-, ⟨hfull, rfl, rfl⟩ | ⟨-, rfl, rfl⟩⟩ := eq_of_nearest (Nat.pos_of_ne_zero hn) hnearest
      · rw [← hvalue, hfull, zpow_add_one₀ (by norm_num)]
        push_cast
        ring
      · exact hvalue

/-- **What is rounded away** is no more than the 2⁵³rd part. -/
theorem rounded_near (n : Nat) :
    (n : ℚ) * (1 - 1 / 2 ^ 53) ≤ rounded n ∧ (rounded n : ℚ) ≤ n * (1 + 1 / 2 ^ 53) := by
  have hpos : (0 : ℚ) ≤ n := n.cast_nonneg
  rcases Nat.lt_or_ge n (2 ^ 53) with hsmall | hlarge
  · rw [rounded_of_lt hsmall]
    constructor <;> linarith
  · have hn : n ≠ 0 := by omega
    have hlog : 52 ≤ n.log2 := (Nat.le_log2 hn).mpr (by omega)
    have hunit : (0 : ℚ) < 2 ^ (n.log2 - 52) := by positivity
    have hfirst : (2 : ℚ) ^ 52 * 2 ^ (n.log2 - 52) ≤ n := by
      rw [← pow_add, Nat.add_sub_cancel' hlog]
      exact_mod_cast Nat.log2_self_le hn
    have hrounds := roundsTo_roundEven n (Nat.two_pow_pos (n.log2 - 52))
    rw [Nat.cast_pow, Nat.cast_ofNat] at hrounds
    have hlow := hrounds.low_le
    have hhigh := hrounds.le_high
    rw [le_div_iff₀ hunit] at hlow
    rw [div_le_iff₀ hunit] at hhigh
    rw [rounded, Nat.cast_mul, Nat.cast_pow, Nat.cast_ofNat]
    constructor <;> linarith

theorem le_two_mul_rounded (n : Nat) : n ≤ 2 * rounded n := by
  have hnear := (rounded_near n).1
  have hpos : (0 : ℚ) ≤ n := n.cast_nonneg
  have hcast : (n : ℚ) ≤ 2 * rounded n := by linarith
  exact_mod_cast hcast

theorem rounded_le_two_mul (n : Nat) : rounded n ≤ 2 * n := by
  have hnear := (rounded_near n).2
  have hpos : (0 : ℚ) ≤ n := n.cast_nonneg
  have hcast : (rounded n : ℚ) ≤ 2 * n := by linarith
  exact_mod_cast hcast

/-- The nearest double of a natural number is a number of the format. -/
theorem holds_of_nearest_nat {s : Bool} {n m : Nat} {e : Int}
    (h : double.nearest s n 1 = .finite s m e) (hvalue : (m : ℚ) * 2 ^ e = rounded n) :
    double.Holds m e := by
  rcases Nat.eq_zero_or_pos n with rfl | hn
  · cases h
    exact ⟨by decide, le_rfl, by decide, Or.inr rfl⟩
  · have hm : m ≠ 0 := by
      rintro rfl
      have hkept := le_two_mul_rounded n
      rw [Nat.cast_zero, zero_mul, eq_comm, Nat.cast_eq_zero] at hvalue
      omega
    exact (mem_of_nearest (by decide) hn Nat.one_pos hm h).1

/-! ### Products and quotients -/

variable {m n : Nat} {e k : Int} {a b : Nat}

/-- A product is the double nearest to the product of the numbers. -/
theorem mul_eq_nearest (s : Bool) (ha : (m : ℚ) * 2 ^ e = a) (hb : (n : ℚ) * 2 ^ k = b) :
    double.mul (.finite s m e) (.finite false n k) = double.nearest s (a * b) 1 := by
  have hproduct : ((m * n * Nat.pow 2 (e + k).toNat : Nat) : ℚ) / (Nat.pow 2 (-(e + k)).toNat : Nat)
      = (a * b : Nat) / (1 : Nat) := by
    have hpower := zpow_eq_div (b := 2) (by norm_num) (e + k)
    rw [zpow_add₀ (by norm_num)] at hpower
    simp only [Nat.pow_eq, Nat.cast_mul, Nat.cast_pow, Nat.cast_ofNat, Nat.cast_one, div_one]
    rw [mul_div_assoc, ← hpower, ← ha, ← hb]
    ring
  rw [mul, Bool.bne_false]
  exact nearest_congr (by decide) s (Nat.pow_pos (by decide)) Nat.one_pos hproduct

/-- A quotient is the double nearest to the fraction of the numbers. -/
theorem div_eq_nearest (s : Bool) (ha : (m : ℚ) * 2 ^ e = a) (hb : (n : ℚ) * 2 ^ k = b)
    (hpos : 0 < b) :
    double.div (.finite s m e) (.finite false n k) = double.nearest s a b := by
  have hn : n ≠ 0 := by
    rintro rfl
    rw [Nat.cast_zero, zero_mul] at hb
    exact hpos.ne (by exact_mod_cast hb)
  have hquotient : ((m * Nat.pow 2 (e - k).toNat : Nat) : ℚ) / (n * Nat.pow 2 (k - e).toNat : Nat)
      = (a : ℚ) / b := by
    have hpower := zpow_eq_div (b := 2) (by norm_num) (e - k)
    rw [zpow_sub₀ (by norm_num), Int.neg_sub] at hpower
    simp only [Nat.pow_eq, Nat.cast_mul, Nat.cast_pow, Nat.cast_ofNat]
    rw [mul_div_mul_comm, ← hpower, ← ha, ← hb, div_mul_div_comm]
  rw [div, if_neg hn, Bool.bne_false]
  exact nearest_congr (by decide) s
    (Nat.mul_pos (Nat.pos_of_ne_zero hn) (Nat.pow_pos (by decide))) hpos hquotient

end Format
end Markup
