/-
# Rounding to the nearest number of a format

Rounding takes a fraction to the number of the format in whose interval it lies. `nearest`
finds that number: the power of two that the fraction reaches gives the unit of its last
place (`Format.unit_spec`, `Format.unit_eq`), the fraction counted in that unit is rounded to
an integer (`Format.roundEven_eq_iff`), and a mantissa that rounding fills up is the first one
of the next unit. So a number is the nearest one exactly if its interval holds the fraction
(`Format.nearest_eq_iff`), and what rounds beyond all numbers is infinite
(`Format.nearest_eq_infinity_iff`).

The interval is the one that `Decimal.shortest` searches. Its points are tested on a grid of
a power of ten; here they are rational numbers (`Decimal.Interval.holds_iff_mem`).

Key definitions: `Decimal.Interval.Mem`, `Format.RoundsTo`, `Format.Holds`.
Key theorems: `Decimal.Interval.holds_iff_mem`, `Format.roundEven_eq_iff`,
`Format.nearest_eq_iff`, `Format.nearest_eq_infinity_iff`.
-/
import Mathlib.Algebra.Order.Field.Power
import Mathlib.Data.Rat.Cast.Order
import Mathlib.Tactic.FieldSimp
import Mathlib.Tactic.Linarith
import Mathlib.Tactic.Positivity
import Markup.Proofs.Shortest

namespace Markup

/-- A power as a fraction of powers that are not negative. -/
theorem zpow_eq_div {b : ℚ} (hb : b ≠ 0) (k : ℤ) : b ^ k = b ^ k.toNat / b ^ (-k).toNat := by
  have hk : k = (k.toNat : ℤ) - ((-k).toNat : ℤ) := by omega
  conv_lhs => rw [hk, zpow_sub₀ hb, zpow_natCast, zpow_natCast]

/-! ### The numbers of an interval -/

namespace Decimal.Interval

/-- Whether a number lies in the interval. -/
structure Mem (i : Interval) (q : ℚ) : Prop where
  low_le : i.low * 2 ^ i.exponent ≤ q
  le_high : q ≤ i.high * 2 ^ i.exponent
  ends : i.closed = false → i.low * 2 ^ i.exponent ≠ q ∧ q ≠ i.high * 2 ^ i.exponent

theorem Mem.pos {i : Interval} {q : ℚ} (h : i.Mem q) (hi : i.Proper) : 0 < q := by
  have hlow : (0 : ℚ) < i.low := by exact_mod_cast hi.low_pos
  have hend : (0 : ℚ) < i.low * 2 ^ i.exponent := by positivity
  exact hend.trans_le h.low_le

/-- A unit of the interval counted in steps of a grid. -/
theorem unit_mul_scale (i : Interval) (t : Int) :
    (2 : ℚ) ^ i.exponent * (i.scale t).2 = 10 ^ t * (i.scale t).1 := by
  rw [zpow_eq_div (by norm_num) i.exponent, zpow_eq_div (by norm_num) t]
  simp only [scale, Nat.pow_eq, Nat.cast_mul, Nat.cast_pow, Nat.cast_ofNat]
  field_simp

theorem units_le_point (i : Interval) (t : Int) (x d : Nat) :
    x * (i.scale t).1 ≤ d * (i.scale t).2 ↔ (x : ℚ) * 2 ^ i.exponent ≤ d * 10 ^ t := by
  have hden : (0 : ℚ) < (i.scale t).2 := by exact_mod_cast (i.scale_pos t).2
  have hten : (0 : ℚ) < 10 ^ t := by positivity
  rw [← mul_le_mul_iff_left₀ hden, mul_assoc, i.unit_mul_scale t, ← @Nat.cast_le ℚ,
    ← mul_le_mul_iff_left₀ hten]
  push_cast
  ring_nf

theorem point_le_units (i : Interval) (t : Int) (x d : Nat) :
    d * (i.scale t).2 ≤ x * (i.scale t).1 ↔ (d : ℚ) * 10 ^ t ≤ x * 2 ^ i.exponent := by
  have hden : (0 : ℚ) < (i.scale t).2 := by exact_mod_cast (i.scale_pos t).2
  have hten : (0 : ℚ) < 10 ^ t := by positivity
  rw [← mul_le_mul_iff_left₀ hden, mul_assoc (x : ℚ), i.unit_mul_scale t, ← @Nat.cast_le ℚ,
    ← mul_le_mul_iff_left₀ hten]
  push_cast
  ring_nf

/-- **A point of a grid lies in the interval if its number does.** -/
theorem holds_iff_mem (i : Interval) (t : Int) (d : Nat) :
    i.holds t d = true ↔ i.Mem (d * 10 ^ t) := by
  have hlow := i.units_le_point t i.low d
  have hhigh := i.point_le_units t i.high d
  unfold holds
  cases hclosed : i.closed with
  | true =>
    simp only [if_true, Bool.and_eq_true, decide_eq_true_eq, hlow, hhigh]
    exact ⟨fun h => ⟨h.1, h.2, by simp [hclosed]⟩, fun h => ⟨h.low_le, h.le_high⟩⟩
  | false =>
    have hbelow := i.point_le_units t i.low d
    have habove := i.units_le_point t i.high d
    simp only [Bool.false_eq_true, if_false, Bool.and_eq_true, decide_eq_true_eq,
      ← Nat.not_le, hbelow, habove, not_le]
    refine ⟨fun h => ⟨h.1.le, h.2.le, fun _ => ⟨h.1.ne, h.2.ne⟩⟩, fun h => ?_⟩
    exact ⟨lt_of_le_of_ne h.low_le (h.ends hclosed).1, lt_of_le_of_ne h.le_high (h.ends hclosed).2⟩

end Decimal.Interval

namespace Format

/-! ### Rounding to an integer -/

/-- Whether rounding to the nearest integer, a half to the even one, takes `x` to `m`. -/
structure RoundsTo (x : ℚ) (m : Nat) : Prop where
  low_le : (m : ℚ) - 1 / 2 ≤ x
  le_high : x ≤ m + 1 / 2
  odd : m % 2 = 1 → (m : ℚ) - 1 / 2 < x ∧ x < m + 1 / 2

theorem RoundsTo.le {x y : ℚ} {m n : Nat} (hx : RoundsTo x m) (hy : RoundsTo y n) (h : x ≤ y) :
    m ≤ n := by
  by_contra hlt
  have hnext : n + 1 ≤ m := by omega
  have hcast : (n : ℚ) + 1 ≤ m := by exact_mod_cast hnext
  have hlow := hx.low_le
  have hhigh := hy.le_high
  -- both are a half, which goes to only one of two neighbours
  have heq : (m : ℚ) = n + 1 := by linarith
  have hsucc : m = n + 1 := by exact_mod_cast heq
  rcases Nat.mod_two_eq_zero_or_one n with heven | hodd
  · have hstrict := (hx.odd (by omega)).1
    linarith
  · have hstrict := (hy.odd hodd).2
    linarith

theorem RoundsTo.unique {x : ℚ} {m n : Nat} (hm : RoundsTo x m) (hn : RoundsTo x n) : m = n :=
  Nat.le_antisymm (hm.le hn le_rfl) (hn.le hm le_rfl)

theorem roundsTo_natCast (n : Nat) : RoundsTo n n :=
  ⟨by linarith, by linarith, fun _ => ⟨by linarith, by linarith⟩⟩

theorem roundsTo_roundEven (num : Nat) {den : Nat} (h : 0 < den) :
    RoundsTo (num / den) (roundEven num den) := by
  have hpos : (0 : ℚ) < den := by exact_mod_cast h
  have hsplit : (num : ℚ) / den = (num / den : Nat) + (num % den : Nat) / (den : ℚ) := by
    rw [eq_comm, ← mul_left_inj' hpos.ne', add_mul, div_mul_cancel₀ _ hpos.ne',
      div_mul_cancel₀ _ hpos.ne']
    exact_mod_cast Nat.div_add_mod' num den
  have hrest : (0 : ℚ) ≤ (num % den : Nat) / (den : ℚ) := by positivity
  have hone : ((num % den : Nat) : ℚ) / den < 1 := by
    rw [div_lt_one hpos]
    exact_mod_cast Nat.mod_lt num h
  have hbelow : 2 * (num % den) < den ↔ ((num % den : Nat) : ℚ) / den < 1 / 2 := by
    rw [div_lt_div_iff₀ hpos (by norm_num), ← @Nat.cast_lt ℚ]
    push_cast
    constructor <;> intro <;> linarith
  have habove : den < 2 * (num % den) ↔ 1 / 2 < ((num % den : Nat) : ℚ) / den := by
    rw [div_lt_div_iff₀ (by norm_num) hpos, ← @Nat.cast_lt ℚ]
    push_cast
    constructor <;> intro <;> linarith
  rw [hsplit]
  simp only [roundEven, hbelow, habove]
  generalize ((num % den : Nat) : ℚ) / den = y at hrest hone
  generalize num / den = b
  have hnext : ((b + 1 : Nat) : ℚ) = b + 1 := Nat.cast_succ b
  split
  · exact ⟨by linarith, by linarith, fun _ => ⟨by linarith, by linarith⟩⟩
  · split
    · exact ⟨by linarith, by linarith, fun _ => ⟨by linarith, by linarith⟩⟩
    · rcases Nat.mod_two_eq_zero_or_one b with heven | hodd
      · rw [heven, Nat.add_zero]
        exact ⟨by linarith, by linarith, fun h => by omega⟩
      · rw [hodd]
        exact ⟨by linarith, by linarith, fun h => by omega⟩

theorem roundEven_eq_iff (num : Nat) {den : Nat} (h : 0 < den) (m : Nat) :
    roundEven num den = m ↔ RoundsTo (num / den) m := by
  refine ⟨fun heq => heq ▸ roundsTo_roundEven num h, fun hm => ?_⟩
  exact (roundsTo_roundEven num h).unique hm

/-- Rounding to an integer without fractions: the integer is off by half a denominator at the
most, and by less if it is odd. -/
theorem roundEven_eq_iff_nat (num : Nat) {den : Nat} (h : 0 < den) (m : Nat) :
    roundEven num den = m ↔ 2 * m * den ≤ 2 * num + den ∧ 2 * num ≤ 2 * m * den + den ∧
      (m % 2 = 1 → 2 * m * den < 2 * num + den ∧ 2 * num < 2 * m * den + den) := by
  have hpos : (0 : ℚ) < den := by exact_mod_cast h
  have hlow : (m : ℚ) - 1 / 2 ≤ num / den ↔ 2 * m * den ≤ 2 * num + den := by
    rw [le_div_iff₀ hpos, ← @Nat.cast_le ℚ]
    push_cast
    constructor <;> intro <;> linarith
  have hhigh : (num : ℚ) / den ≤ m + 1 / 2 ↔ 2 * num ≤ 2 * m * den + den := by
    rw [div_le_iff₀ hpos, ← @Nat.cast_le ℚ]
    push_cast
    constructor <;> intro <;> linarith
  have habove : (m : ℚ) - 1 / 2 < num / den ↔ 2 * m * den < 2 * num + den := by
    rw [lt_div_iff₀ hpos, ← @Nat.cast_lt ℚ]
    push_cast
    constructor <;> intro <;> linarith
  have hbelow : (num : ℚ) / den < m + 1 / 2 ↔ 2 * num < 2 * m * den + den := by
    rw [div_lt_iff₀ hpos, ← @Nat.cast_lt ℚ]
    push_cast
    constructor <;> intro <;> linarith
  rw [roundEven_eq_iff num h, ← hlow, ← hhigh, ← habove, ← hbelow]
  exact ⟨fun hm => ⟨hm.low_le, hm.le_high, hm.odd⟩, fun hm => ⟨hm.1, hm.2.1, hm.2.2⟩⟩

/-! ### The unit of the last place -/

/-- **A positive fraction reaches the power of two of its binade, and not the next one.** -/
theorem binade_spec {num den : Nat} (hnum : 0 < num) (hden : 0 < den) :
    (2 : ℚ) ^ binade num den ≤ num / den ∧ (num : ℚ) / den < 2 ^ (binade num den + 1) := by
  have hpos : (0 : ℚ) < den := by exact_mod_cast hden
  have hnumlow : (2 : ℚ) ^ (num.log2 : ℤ) ≤ num := by
    exact_mod_cast Nat.log2_self_le hnum.ne'
  have hnumhigh : (num : ℚ) < 2 ^ ((num.log2 : ℤ) + 1) := by
    exact_mod_cast @Nat.lt_log2_self num
  have hdenlow : (2 : ℚ) ^ (den.log2 : ℤ) ≤ den := by
    exact_mod_cast Nat.log2_self_le hden.ne'
  have hdenhigh : (den : ℚ) < 2 ^ ((den.log2 : ℤ) + 1) := by
    exact_mod_cast @Nat.lt_log2_self den
  have hcompare (k : ℤ) : num * Nat.pow 2 (-k).toNat < den * Nat.pow 2 k.toNat ↔
      (num : ℚ) / den < 2 ^ k := by
    rw [zpow_eq_div (by norm_num), div_lt_div_iff₀ hpos (by positivity), ← @Nat.cast_lt ℚ,
      mul_comm den]
    simp only [Nat.pow_eq, Nat.cast_mul, Nat.cast_pow, Nat.cast_ofNat]
  have hhigh : (num : ℚ) / den < 2 ^ ((num.log2 : ℤ) - den.log2 + 1) := by
    rw [div_lt_iff₀ hpos]
    calc (num : ℚ) < 2 ^ ((num.log2 : ℤ) + 1) := hnumhigh
      _ = 2 ^ ((num.log2 : ℤ) - den.log2 + 1) * 2 ^ (den.log2 : ℤ) := by
          rw [← zpow_add₀ (by norm_num)]
          congr 1
          omega
      _ ≤ 2 ^ ((num.log2 : ℤ) - den.log2 + 1) * den :=
          mul_le_mul_of_nonneg_left hdenlow (by positivity)
  have hlow : (2 : ℚ) ^ ((num.log2 : ℤ) - den.log2 - 1) ≤ num / den := by
    rw [le_div_iff₀ hpos]
    calc (2 : ℚ) ^ ((num.log2 : ℤ) - den.log2 - 1) * den
        ≤ 2 ^ ((num.log2 : ℤ) - den.log2 - 1) * 2 ^ ((den.log2 : ℤ) + 1) :=
          mul_le_mul_of_nonneg_left hdenhigh.le (by positivity)
      _ = 2 ^ (num.log2 : ℤ) := by
          rw [← zpow_add₀ (by norm_num)]
          congr 1
          omega
      _ ≤ num := hnumlow
  simp only [binade, hcompare]
  split
  · rename_i hlt
    rw [Int.sub_add_cancel]
    exact ⟨hlow, hlt⟩
  · rename_i hge
    exact ⟨not_lt.mp hge, hhigh⟩

/-- The exponent of the unit that a fraction is counted in. -/
def unit (f : Format) (num den : Nat) : Int := max f.least (binade num den + 1 - f.precision)

/-- How many units of its last place a fraction is, rounded. -/
def count (f : Format) (num den : Nat) : Nat :=
  roundEven (num * Nat.pow 2 (-f.unit num den).toNat) (den * Nat.pow 2 (f.unit num den).toNat)

theorem nearest_of_ne_zero (f : Format) (s : Bool) {num : Nat} (h : num ≠ 0) (den : Nat) :
    f.nearest s num den =
      if f.count num den = 2 * f.hidden then
        if f.greatest < f.unit num den + 1 then .infinity s
        else .finite s f.hidden (f.unit num den + 1)
      else if f.greatest < f.unit num den then .infinity s
      else .finite s (f.count num den) (f.unit num den) := by
  rw [nearest, if_neg h]
  rfl

variable {f : Format}

/-- Rounding keeps the sign. -/
theorem nearest_cases (f : Format) (s : Bool) (num den : Nat) :
    f.nearest s num den = .infinity s ∨ ∃ m e, f.nearest s num den = .finite s m e := by
  by_cases hnum : num = 0
  · exact Or.inr ⟨_, _, by rw [nearest, if_pos hnum]⟩
  · rw [nearest_of_ne_zero f s hnum]
    split <;> split
    · exact Or.inl rfl
    · exact Or.inr ⟨_, _, rfl⟩
    · exact Or.inl rfl
    · exact Or.inr ⟨_, _, rfl⟩

theorem two_mul_hidden (hp : 0 < f.precision) : 2 * f.hidden = 2 ^ f.precision := by
  rw [hidden, Nat.pow_eq, ← pow_succ', Nat.sub_add_cancel hp]

theorem hidden_pos (f : Format) : 0 < f.hidden := Nat.pow_pos (by decide)

/-- The fraction counted in units of its last place rounds to the count. -/
theorem roundsTo_count (f : Format) (num : Nat) {den : Nat} (h : 0 < den) :
    RoundsTo (num / den / 2 ^ f.unit num den) (f.count num den) := by
  have hcount := roundsTo_roundEven (num * Nat.pow 2 (-f.unit num den).toNat)
    (Nat.mul_pos h (Nat.pow_pos (n := (f.unit num den).toNat) (show 0 < 2 by decide)))
  have hratio : ((num * Nat.pow 2 (-f.unit num den).toNat : Nat) : ℚ)
      / (den * Nat.pow 2 (f.unit num den).toNat : Nat) = num / den / 2 ^ f.unit num den := by
    rw [zpow_eq_div (by norm_num)]
    simp only [Nat.pow_eq, Nat.cast_mul, Nat.cast_pow, Nat.cast_ofNat]
    field_simp
  rwa [← hratio]

/-- A fraction is less than a full mantissa of its units; if they are not the least ones, it
is at least the first mantissa. -/
theorem unit_spec (hp : 0 < f.precision) {num den : Nat} (hnum : 0 < num) (hden : 0 < den) :
    (num : ℚ) / den / 2 ^ f.unit num den < 2 * f.hidden ∧
      (f.unit num den = f.least ∨ (f.hidden : ℚ) ≤ num / den / 2 ^ f.unit num den) := by
  have hunit : (0 : ℚ) < 2 ^ f.unit num den := by positivity
  have hfull : (2 : ℚ) * f.hidden = 2 ^ (f.precision : ℤ) := by
    exact_mod_cast two_mul_hidden hp
  have hfirst : (f.hidden : ℚ) = 2 ^ ((f.precision : ℤ) - 1) := by
    rw [zpow_sub_one₀ (by norm_num), ← hfull]
    field_simp
  obtain ⟨hlow, hhigh⟩ := binade_spec hnum hden
  rw [div_lt_iff₀ hunit, le_div_iff₀ hunit]
  constructor
  · rw [hfull, ← zpow_add₀ (by norm_num)]
    refine hhigh.trans_le (zpow_le_zpow_right₀ (by norm_num) ?_)
    simp only [unit]
    omega
  · rcases le_or_gt (binade num den + 1 - f.precision) f.least with hle | hlt
    · exact Or.inl (max_eq_left hle)
    · right
      rw [hfirst, ← zpow_add₀ (by norm_num)]
      refine le_trans (zpow_le_zpow_right₀ (by norm_num) ?_) hlow
      simp only [unit]
      omega

/-- In a greater unit a number counts half as much or less. -/
theorem div_unit_lt {q c : ℚ} (hq : 0 ≤ q) {a b : Int} (h : a < b) (hlt : q / 2 ^ a < 2 * c) :
    q / 2 ^ b < c := by
  have hpow : (2 : ℚ) ^ (a + 1) ≤ 2 ^ b := zpow_le_zpow_right₀ (by norm_num) (by omega)
  calc q / 2 ^ b ≤ q / 2 ^ (a + 1) := div_le_div_of_nonneg_left hq (by positivity) hpow
    _ = q / 2 ^ a / 2 := by rw [zpow_add_one₀ (by norm_num), div_div]
    _ < c := by linarith

/-- Only one unit counts a fraction with a mantissa. -/
theorem unit_eq (hp : 0 < f.precision) {num den : Nat} (hnum : 0 < num) (hden : 0 < den) {e : Int}
    (hleast : f.least ≤ e) (hlt : (num : ℚ) / den / 2 ^ e < 2 * f.hidden)
    (hle : e = f.least ∨ (f.hidden : ℚ) ≤ num / den / 2 ^ e) : f.unit num den = e := by
  have hpos : (0 : ℚ) ≤ num / den := by positivity
  have hunit : f.least ≤ f.unit num den := le_max_left _ _
  obtain ⟨hfull, hfirst⟩ := unit_spec hp hnum hden
  rcases lt_trichotomy (f.unit num den) e with hless | heq | hmore
  · have hsmall := div_unit_lt hpos hless hfull
    exact absurd (hle.resolve_left (by omega)) hsmall.not_ge
  · exact heq
  · have hsmall := div_unit_lt hpos hmore hlt
    exact absurd (hfirst.resolve_left (by omega)) hsmall.not_ge

/-! ### Numbers of a format -/

/-- The mantissas and exponents of a format: a mantissa that is smaller than the first one
has the least exponent. -/
structure Holds (f : Format) (mantissa : Nat) (exponent : Int) : Prop where
  lt : mantissa < 2 * f.hidden
  least_le : f.least ≤ exponent
  le_greatest : exponent ≤ f.greatest
  normal : f.hidden ≤ mantissa ∨ exponent = f.least

/-- Interchange bits are a number of the format. -/
theorem holds_of_decode (hrange : f.least ≤ f.greatest) {bits : Nat} {s : Bool} {m : Nat} {e : Int}
    (h : f.decode bits = .finite s m e) : f.Holds m e := by
  have hfraction : bits % f.hidden < f.hidden := Nat.mod_lt _ f.hidden_pos
  have hfield : bits / f.hidden % (f.specialField + 1) < f.specialField + 1 :=
    Nat.mod_lt _ (Nat.succ_pos _)
  have hspecial : (f.specialField : Int) = f.greatest - f.least + 2 := by
    rw [specialField]
    omega
  simp only [decode] at h
  split at h
  · split at h <;> cases h
  · split at h
    · cases h
      exact ⟨by omega, le_rfl, hrange, Or.inr rfl⟩
    · cases h
      exact ⟨by omega, by omega, by omega, Or.inl (Nat.le_add_right _ _)⟩

/-- How far the interval of a number reaches below it, in its units. -/
def below (f : Format) (m : Nat) (e : Int) : ℚ :=
  if m = f.hidden ∧ f.least < e then 1 / 4 else 1 / 2

theorem below_bounds (f : Format) (m : Nat) (e : Int) : 0 < f.below m e ∧ f.below m e ≤ 1 / 2 := by
  rw [below]
  split <;> norm_num

/-- The interval of a number in its units; the ends round to an even mantissa. -/
theorem mem_around_iff {m : Nat} (hm : m ≠ 0) (e : Int) (q : ℚ) :
    (Decimal.Interval.around f m e).Mem q ↔
      m - f.below m e ≤ q / 2 ^ e ∧ q / 2 ^ e ≤ m + 1 / 2 ∧
        (m % 2 = 1 → m - f.below m e < q / 2 ^ e ∧ q / 2 ^ e < m + 1 / 2) := by
  have hunit : (0 : ℚ) < 2 ^ e := by positivity
  have hquarter : (2 : ℚ) ^ (e - 2) = 2 ^ e / 4 := by
    rw [zpow_sub₀ (by norm_num)]
    norm_num
  have hlow : ((Decimal.Interval.around f m e).low : ℚ) * 2 ^ (e - 2)
      = (m - f.below m e) * 2 ^ e := by
    simp only [Decimal.Interval.around, below]
    split
    · rw [hquarter, Nat.cast_sub (by omega)]
      push_cast
      ring
    · rw [hquarter, Nat.cast_sub (by omega)]
      push_cast
      ring
  have hhigh : ((4 * m + 2 : Nat) : ℚ) * 2 ^ (e - 2) = (m + 1 / 2) * 2 ^ e := by
    rw [hquarter]
    push_cast
    ring
  have hclosed : (Decimal.Interval.around f m e).closed = false ↔ m % 2 = 1 := by
    simp [Decimal.Interval.around]
  rw [le_div_iff₀ hunit, div_le_iff₀ hunit, lt_div_iff₀ hunit, div_lt_iff₀ hunit, ← hlow, ← hhigh,
    ← hclosed]
  constructor
  · intro h
    refine ⟨h.low_le, h.le_high, fun hopen => ?_⟩
    exact ⟨lt_of_le_of_ne h.low_le (h.ends hopen).1, lt_of_le_of_ne h.le_high (h.ends hopen).2⟩
  · rintro ⟨hbelow, habove, hinside⟩
    exact ⟨hbelow, habove, fun hopen => ⟨(hinside hopen).1.ne, (hinside hopen).2.ne⟩⟩

/-- The interval of a number is what rounds to its mantissa, but below a mantissa at which the
unit shrinks. -/
theorem mem_around_iff_roundsTo {m : Nat} (hm : m ≠ 0) {e : Int} {q : ℚ}
    (h : e = f.least ∨ (f.hidden : ℚ) ≤ q / 2 ^ e) :
    (Decimal.Interval.around f m e).Mem q ↔ RoundsTo (q / 2 ^ e) m := by
  rw [mem_around_iff hm, below]
  split
  · rename_i hshrinks
    have hge := h.resolve_left (by omega)
    rw [← hshrinks.1] at hge
    constructor
    · rintro ⟨-, hhigh, hodd⟩
      exact ⟨by linarith, hhigh, fun h => ⟨by linarith, (hodd h).2⟩⟩
    · intro h
      exact ⟨by linarith, h.le_high, fun hodd => ⟨by linarith, (h.odd hodd).2⟩⟩
  · constructor
    · rintro ⟨hlow, hhigh, hodd⟩
      exact ⟨hlow, hhigh, hodd⟩
    · intro h
      exact ⟨h.low_le, h.le_high, h.odd⟩

/-- Below the first mantissa its interval is what rounds to a full mantissa of the next smaller
unit. -/
theorem mem_around_hidden_iff (hp : 1 < f.precision) {e : Int} (he : f.least ≤ e) {q : ℚ}
    (h : q / 2 ^ e < 2 * f.hidden) :
    (Decimal.Interval.around f f.hidden (e + 1)).Mem q ↔ RoundsTo (q / 2 ^ e) (2 * f.hidden) := by
  have heven : f.hidden % 2 = 0 :=
    Nat.mod_eq_zero_of_dvd (dvd_pow_self 2 (Nat.sub_ne_zero_of_lt hp))
  have hhalf : q / 2 ^ (e + 1) = q / 2 ^ e / 2 := by
    rw [zpow_add_one₀ (by norm_num), div_div]
  have hcast : ((2 * f.hidden : Nat) : ℚ) = 2 * f.hidden := by push_cast; rfl
  rw [mem_around_iff f.hidden_pos.ne', below, if_pos ⟨rfl, by omega⟩, hhalf]
  constructor
  · rintro ⟨hlow, -, -⟩
    exact ⟨by linarith, by linarith, fun hodd => by omega⟩
  · intro hfull
    have hlow := hfull.low_le
    exact ⟨by linarith, by linarith, fun hodd => by omega⟩

/-! ### The nearest number -/

section

variable {num den : Nat}

/-- The nearest number: the count of units, or the first mantissa of the next unit. -/
theorem eq_of_nearest {s : Bool} (hnum : 0 < num) {m : Nat} {e : Int}
    (h : f.nearest s num den = .finite s m e) :
    e ≤ f.greatest ∧ (f.count num den = 2 * f.hidden ∧ m = f.hidden ∧ e = f.unit num den + 1 ∨
      f.count num den ≠ 2 * f.hidden ∧ m = f.count num den ∧ e = f.unit num den) := by
  rw [nearest_of_ne_zero f s hnum.ne'] at h
  split at h
  · rename_i hfull
    split at h
    · cases h
    · rename_i hrange
      cases h
      exact ⟨not_lt.mp hrange, Or.inl ⟨hfull, rfl, rfl⟩⟩
  · rename_i hfull
    split at h
    · cases h
    · rename_i hrange
      cases h
      exact ⟨not_lt.mp hrange, Or.inr ⟨hfull, rfl, rfl⟩⟩

theorem count_le (hp : 0 < f.precision) (hnum : 0 < num) (hden : 0 < den) :
    f.count num den ≤ 2 * f.hidden := by
  refine (roundsTo_count f num hden).le (roundsTo_natCast (2 * f.hidden)) ?_
  push_cast
  exact (unit_spec hp hnum hden).1.le

theorem hidden_le_count (hden : 0 < den) (h : (f.hidden : ℚ) ≤ num / den / 2 ^ f.unit num den) :
    f.hidden ≤ f.count num den :=
  (roundsTo_natCast f.hidden).le (roundsTo_count f num hden) h

/-- The nearest number is one of the format, and the fraction lies in its interval. -/
theorem mem_of_nearest (hp : 1 < f.precision) {s : Bool} (hnum : 0 < num) (hden : 0 < den)
    {m : Nat} (hm : m ≠ 0) {e : Int} (h : f.nearest s num den = .finite s m e) :
    f.Holds m e ∧ (Decimal.Interval.around f m e).Mem (num / den) := by
  have hpos := f.hidden_pos
  have hleast : f.least ≤ f.unit num den := le_max_left _ _
  have hcount := roundsTo_count f num hden
  have hle := count_le (Nat.zero_lt_of_lt hp) hnum hden
  obtain ⟨hfull, hfirst⟩ := unit_spec (Nat.zero_lt_of_lt hp) hnum hden
  obtain ⟨hrange, ⟨hcarry, rfl, rfl⟩ | ⟨hcarry, rfl, rfl⟩⟩ := eq_of_nearest hnum h
  · rw [hcarry] at hcount
    exact ⟨⟨by omega, by omega, hrange, Or.inl le_rfl⟩,
      (mem_around_hidden_iff hp hleast hfull).mpr hcount⟩
  · exact ⟨⟨by omega, hleast, hrange, (hfirst.imp_right (hidden_le_count hden)).symm⟩,
      (mem_around_iff_roundsTo hm hfirst).mpr hcount⟩

/-- Only the first mantissa has numbers of its interval below it that are counted in a smaller
unit. -/
theorem eq_hidden_of_mem {m : Nat} (hm : m ≠ 0) {e : Int} (h : f.Holds m e) (he : f.least < e)
    {q : ℚ} (hq : q / 2 ^ e < f.hidden) (hmem : (Decimal.Interval.around f m e).Mem q) :
    m = f.hidden := by
  have hnormal := h.normal.resolve_right (by omega)
  obtain ⟨hlow, -⟩ := (mem_around_iff hm e q).mp hmem
  have hbelow := (f.below_bounds m e).2
  by_contra hne
  have hnext : (f.hidden : ℚ) + 1 ≤ m := by exact_mod_cast (by omega : f.hidden + 1 ≤ m)
  linarith

/-- A fraction in the interval of a number of the format is rounded to it. -/
theorem nearest_of_mem (hp : 1 < f.precision) (s : Bool) (hnum : 0 < num) (hden : 0 < den)
    {m : Nat} (hm : m ≠ 0) {e : Int} (h : f.Holds m e)
    (hmem : (Decimal.Interval.around f m e).Mem (num / den)) :
    f.nearest s num den = .finite s m e := by
  have hp' := Nat.zero_lt_of_lt hp
  have hone : (1 : ℚ) ≤ f.hidden := by exact_mod_cast f.hidden_pos
  have hcount := roundsTo_count f num hden
  by_cases hbelow : f.least < e ∧ (num : ℚ) / den / 2 ^ e < f.hidden
  · obtain ⟨hleast, hless⟩ := hbelow
    obtain rfl := eq_hidden_of_mem hm h hleast hless hmem
    obtain ⟨u, rfl⟩ : ∃ u, e = u + 1 := ⟨e - 1, by omega⟩
    have hdouble : (num : ℚ) / den / 2 ^ u = 2 * (num / den / 2 ^ (u + 1)) := by
      rw [zpow_add_one₀ (by norm_num)]
      field_simp
    have hfull : (num : ℚ) / den / 2 ^ u < 2 * f.hidden := by
      rw [hdouble]
      linarith
    have hrounds := (mem_around_hidden_iff hp (by omega) hfull).mp hmem
    have hunit : f.unit num den = u := by
      have hlow := hrounds.low_le
      push_cast at hlow
      exact unit_eq hp' hnum hden (by omega) hfull (Or.inr (by linarith))
    rw [hunit] at hcount
    rw [nearest_of_ne_zero f s hnum.ne', if_pos (hcount.unique hrounds), hunit,
      if_neg (not_lt.mpr h.le_greatest)]
  · have hfirst : e = f.least ∨ (f.hidden : ℚ) ≤ num / den / 2 ^ e := by
      rcases h.least_le.eq_or_lt with heq | hlt
      · exact Or.inl heq.symm
      · exact Or.inr (not_lt.mp fun hless => hbelow ⟨hlt, hless⟩)
    have hrounds := (mem_around_iff_roundsTo hm hfirst).mp hmem
    have hunit : f.unit num den = e := by
      have hhigh := hrounds.le_high
      have hlt : (m : ℚ) + 1 ≤ 2 * f.hidden := by exact_mod_cast h.lt
      exact unit_eq hp' hnum hden h.least_le (by linarith) hfirst
    rw [hunit] at hcount
    rw [nearest_of_ne_zero f s hnum.ne', hcount.unique hrounds, hunit, if_neg h.lt.ne,
      if_neg (not_lt.mpr h.le_greatest)]

/-- **A number is the nearest one to the fractions of its interval, and to no others.** -/
theorem nearest_eq_iff (hp : 1 < f.precision) (s : Bool) (hden : 0 < den) {m : Nat} (hm : m ≠ 0)
    (e : Int) : f.nearest s num den = .finite s m e ↔
      f.Holds m e ∧ (Decimal.Interval.around f m e).Mem (num / den) := by
  rcases Nat.eq_zero_or_pos num with rfl | hnum
  · refine iff_of_false (fun h => hm ?_) (fun h => ?_)
    · rw [nearest, if_pos rfl] at h
      cases h
      rfl
    · have hpos := h.2.pos (Decimal.Interval.proper_around f hm e)
      rw [Nat.cast_zero, zero_div] at hpos
      exact lt_irrefl _ hpos
  · exact ⟨fun h => mem_of_nearest hp hnum hden hm h,
      fun h => nearest_of_mem hp s hnum hden hm h.1 h.2⟩

/-- Equal fractions have the same nearest number. -/
theorem nearest_congr (hp : 0 < f.precision) (s : Bool) {num' den' : Nat} (hden : 0 < den)
    (hden' : 0 < den') (h : (num : ℚ) / den = num' / den') :
    f.nearest s num den = f.nearest s num' den' := by
  have hcross : num * den' = num' * den := by
    have hpos : (den : ℚ) ≠ 0 := by exact_mod_cast hden.ne'
    have hpos' : (den' : ℚ) ≠ 0 := by exact_mod_cast hden'.ne'
    rw [div_eq_div_iff hpos hpos'] at h
    exact_mod_cast h
  rcases Nat.eq_zero_or_pos num with rfl | hnum
  · have hnum' : num' = 0 := by
      rw [Nat.zero_mul] at hcross
      exact (Nat.mul_eq_zero.mp hcross.symm).resolve_right hden.ne'
    rw [hnum', nearest, nearest, if_pos rfl, if_pos rfl]
  · have hnum' : 0 < num' := by
      refine Nat.pos_of_ne_zero fun hzero => ?_
      rw [hzero, Nat.zero_mul] at hcross
      exact (Nat.mul_pos hnum hden').ne' hcross
    obtain ⟨hfull, hfirst⟩ := unit_spec (f := f) hp hnum' hden'
    have hunit : f.unit num den = f.unit num' den' :=
      unit_eq hp hnum hden (le_max_left _ _) (h ▸ hfull) (h ▸ hfirst)
    have hcount : f.count num den = f.count num' den' := by
      have hrounds := roundsTo_count f num hden
      rw [h, hunit] at hrounds
      exact hrounds.unique (roundsTo_count f num' hden')
    rw [nearest_of_ne_zero f s hnum.ne', nearest_of_ne_zero f s hnum'.ne', hunit, hcount]

/-- In the greatest unit a count that is rounded up to a full mantissa is too much. -/
theorem count_eq_full_iff (hp : 0 < f.precision) (hnum : 0 < num) (hden : 0 < den) :
    f.count num den = 2 * f.hidden ↔
      2 * (f.hidden : ℚ) - 1 / 2 ≤ num / den / 2 ^ f.unit num den := by
  have hcount := roundsTo_count f num hden
  have hfull := (unit_spec hp hnum hden).1
  have hcast : ((2 * f.hidden : Nat) : ℚ) = 2 * f.hidden := by push_cast; rfl
  constructor
  · intro h
    rw [h] at hcount
    rw [← hcast]
    exact hcount.low_le
  · intro h
    exact hcount.unique ⟨by linarith, by linarith, fun hodd => by omega⟩

/-- **Only what lies half a unit or more beyond the greatest number is rounded to infinity.** -/
theorem nearest_eq_infinity_iff (hp : 0 < f.precision) (hrange : f.least ≤ f.greatest) (s : Bool)
    (hden : 0 < den) : f.nearest s num den = .infinity s ↔
      (2 * f.hidden - 1 / 2) * 2 ^ f.greatest ≤ (num : ℚ) / den := by
  have hone : (1 : ℚ) ≤ f.hidden := by exact_mod_cast f.hidden_pos
  have hlast : (0 : ℚ) < 2 ^ f.greatest := by positivity
  have hpos : (0 : ℚ) ≤ num / den := by positivity
  rw [← le_div_iff₀ hlast]
  rcases Nat.eq_zero_or_pos num with rfl | hnum
  · refine iff_of_false (fun h => ?_) (fun h => ?_)
    · rw [nearest, if_pos rfl] at h
      cases h
    · rw [Nat.cast_zero, zero_div, zero_div] at h
      linarith
  obtain ⟨hfull, hfirst⟩ := unit_spec hp hnum hden
  have hfill := count_eq_full_iff hp hnum hden
  rw [nearest_of_ne_zero f s hnum.ne']
  rcases lt_trichotomy (f.unit num den) f.greatest with hless | heq | hmore
  · have hsmall := div_unit_lt hpos hless hfull
    have hnext : ¬f.greatest < f.unit num den + 1 := by omega
    rw [if_neg hnext, if_neg hless.not_gt]
    refine iff_of_false (fun h => ?_) (fun h => ?_)
    · split at h <;> cases h
    · linarith
  · rw [heq] at hfill
    rw [heq, if_neg (lt_irrefl f.greatest), if_pos (lt_add_one f.greatest), ← hfill]
    split
    · rename_i h
      exact iff_of_true rfl h
    · rename_i h
      exact iff_of_false nofun h
  · have hlarge : 2 * (f.hidden : ℚ) - 1 / 2 ≤ num / den / 2 ^ f.greatest := by
      by_contra hless
      have hsmall := div_unit_lt hpos hmore (c := f.hidden) (by linarith)
      exact absurd (hfirst.resolve_left (by omega)) hsmall.not_ge
    rw [if_pos (by omega : f.greatest < f.unit num den + 1), if_pos hmore, ite_self]
    exact iff_of_true rfl hlarge

end

end Format
end Markup
