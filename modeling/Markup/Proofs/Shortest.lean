/-
# A shortest decimal has no zero at its ends

The search for the shortest decimal goes from coarse grids to fine ones and stops on the
first that meets the interval. It tries only the two neighbours of the middle; if neither
lies in the interval, no point of the grid does (`Interval.misses_of_gridPoint?`). So the
grid above the one it stops on is missed by the interval (`Interval.search_eq`): for the
first grid because the interval lies below its first step (`Interval.misses_of_ceiling_le`),
for the later ones because the search went past it. It cannot run out of grids, since the
middle is a point of the last (`Interval.holds_floor_min`).

A point that ends with a zero is a point of the next coarser grid
(`Interval.holds_mul_ten`). What the search finds is none, so its digits end with another
digit than zero, and as the digits of a number they begin with one (`normal_shortest`).

Key definitions: `Scientific.Normal`, `Interval.Proper`, `Interval.Misses`.
Key theorems: `digits_ofDigits`, `Interval.misses_of_gridPoint?`, `Interval.shortest_eq`,
`normal_shortest`.
-/
import Mathlib.Data.List.Basic
import Mathlib.Data.List.Induction
import Mathlib.Tactic.NormNum
import Mathlib.Tactic.Ring
import Markup.Decimal.Shortest

namespace Markup
namespace Decimal

/-! ### Digits of a number -/

/-- Digits in front count as many powers of ten as digits follow. -/
theorem ofDigits_append (ds es : List Digit) :
    ofDigits (ds ++ es) = ofDigits ds * 10 ^ es.length + ofDigits es := by
  induction es using List.reverseRecOn with
  | nil => simp [ofDigits]
  | append_singleton es e ih =>
    rw [← List.append_assoc, ofDigits_append_singleton, ofDigits_append_singleton, ih,
      List.length_append, List.length_singleton, pow_succ]
    ring

theorem digits_of_lt {n : Nat} (h : n < 10) : digits n = [Fin.ofNat 10 n] := by
  rw [digits, if_pos h]

theorem digits_of_le {n : Nat} (h : 10 ≤ n) : digits n = digits (n / 10) ++ [Fin.ofNat 10 n] := by
  rw [digits, if_neg (Nat.not_lt.mpr h)]

theorem getLast?_digits (n : Nat) : (digits n).getLast? = some (Fin.ofNat 10 n) := by
  rcases Nat.lt_or_ge n 10 with h | h
  · rw [digits_of_lt h]
    rfl
  · rw [digits_of_le h, List.getLast?_concat]

/-- Only zero has a zero in front. -/
theorem head?_digits {n : Nat} (h : n ≠ 0) : (digits n).head? ≠ some 0 := by
  fun_induction digits n with
  | case1 n hlt =>
    intro hzero
    have hval := congrArg Fin.val (Option.some.inj hzero)
    simp only [Fin.ofNat, Fin.val_zero] at hval
    omega
  | case2 n hge ih =>
    rw [List.head?_append_of_ne_nil _ (digits_ne_nil _)]
    exact ih (by omega)

/-- A row of digits without a leading zero is the digits of its number. -/
theorem digits_ofDigits {ds : List Digit} (hne : ds ≠ []) (h : ds.head? ≠ some 0) :
    digits (ofDigits ds) = ds := by
  induction ds using List.reverseRecOn with
  | nil => exact absurd rfl hne
  | append_singleton ds d ih =>
    rw [ofDigits_append_singleton]
    have hd := d.isLt
    have hlast : Fin.ofNat 10 (10 * ofDigits ds + d.val) = d := by
      apply Fin.ext
      simp only [Fin.ofNat]
      omega
    by_cases hds : ds = []
    · subst hds
      have hone : 10 * ofDigits [] + d.val < 10 := by simp [ofDigits]
      rw [digits_of_lt hone, hlast]
      rfl
    · rw [List.head?_append_of_ne_nil _ hds] at h
      have hdigits := ih hds h
      have hpos : ofDigits ds ≠ 0 := by
        intro hzero
        rw [hzero, digits_of_lt (by decide)] at hdigits
        rw [← hdigits] at h
        exact h rfl
      have hdiv : (10 * ofDigits ds + d.val) / 10 = ofDigits ds := by omega
      rw [digits_of_le (by omega), hdiv, hdigits, hlast]

/-! ### Numbers in scientific form -/

/-- Digits that neither begin nor end with a zero. -/
structure Scientific.Normal (s : Scientific) : Prop where
  digits_ne : s.digits ≠ []
  head_ne : s.digits.head? ≠ some 0
  last_ne : s.digits.getLast? ≠ some 0

theorem normal_ofGrid {count : Nat} (h : count % 10 ≠ 0) (exponent : Int) :
    (Scientific.ofGrid count exponent).Normal where
  digits_ne := digits_ne_nil count
  head_ne := head?_digits (by omega)
  last_ne := by
    rw [Scientific.ofGrid, getLast?_digits]
    intro hzero
    have hval := congrArg Fin.val (Option.some.inj hzero)
    exact h hval

/-! ### Points of a grid -/

namespace Interval

/-- A positive interval with its middle inside. -/
structure Proper (i : Interval) : Prop where
  low_pos : 0 < i.low
  low_lt : i.low < i.middle
  lt_high : i.middle < i.high

theorem proper_around (f : Format) {mantissa : Nat} (h : mantissa ≠ 0) (exponent : Int) :
    (around f mantissa exponent).Proper := by
  refine ⟨?_, ?_, ?_⟩
  · simp only [around]
    split <;> omega
  · simp only [around]
    split <;> omega
  · simp only [around]
    omega

variable {i : Interval}

/-- Whether `x` stands in front of `y`, or at it where the ends belong to the interval. -/
def Reaches (i : Interval) (x y : Nat) : Prop := x < y ∨ i.closed = true ∧ x = y

theorem Reaches.trans_le {x y z : Nat} (h : i.Reaches x y) (hyz : y ≤ z) : i.Reaches x z := by
  rcases h with h | ⟨hclosed, rfl⟩
  · exact Or.inl (Nat.lt_of_lt_of_le h hyz)
  · rcases Nat.lt_or_eq_of_le hyz with hlt | heq
    · exact Or.inl hlt
    · exact Or.inr ⟨hclosed, heq⟩

theorem Reaches.of_le {x y z : Nat} (hxy : x ≤ y) (h : i.Reaches y z) : i.Reaches x z := by
  rcases h with h | ⟨hclosed, rfl⟩
  · exact Or.inl (Nat.lt_of_le_of_lt hxy h)
  · rcases Nat.lt_or_eq_of_le hxy with hlt | heq
    · exact Or.inl hlt
    · exact Or.inr ⟨hclosed, heq⟩

theorem reaches_mul {n : Nat} (hn : 0 < n) {x y : Nat} :
    i.Reaches (n * x) (n * y) ↔ i.Reaches x y := by
  simp only [Reaches, Nat.mul_lt_mul_left hn, Nat.mul_left_cancel_iff hn]

/-- A point lies in the interval if the lower end reaches it and it reaches the upper end. -/
theorem holds_iff (i : Interval) (t : Int) (d : Nat) : i.holds t d = true ↔
    i.Reaches (i.low * (i.scale t).1) (d * (i.scale t).2) ∧
      i.Reaches (d * (i.scale t).2) (i.high * (i.scale t).1) := by
  unfold holds Reaches
  cases i.closed with
  | true =>
    simp only [if_true, Bool.and_eq_true, decide_eq_true_eq, true_and, ← Nat.le_iff_lt_or_eq]
  | false => simp

theorem scale_pos (i : Interval) (t : Int) : 0 < (i.scale t).1 ∧ 0 < (i.scale t).2 := by
  simp [scale]

/-- A step of a grid is ten steps of the next finer one. -/
theorem scale_succ (i : Interval) (t : Int) :
    (i.scale t).1 = (i.scale (t + 1)).1 ∧ (i.scale (t + 1)).2 = 10 * (i.scale t).2 ∨
      (i.scale t).1 = 10 * (i.scale (t + 1)).1 ∧ (i.scale (t + 1)).2 = (i.scale t).2 := by
  simp only [scale, Nat.pow_eq]
  rcases lt_or_ge t 0 with h | h
  · right
    have hneg : (-t).toNat = (-(t + 1)).toNat + 1 := by omega
    have hpos : (t + 1).toNat = t.toNat := by omega
    rw [hneg, hpos, pow_succ]
    exact ⟨by ring, rfl⟩
  · left
    have hneg : (-(t + 1)).toNat = (-t).toNat := by omega
    have hpos : (t + 1).toNat = t.toNat + 1 := by omega
    rw [hneg, hpos, pow_succ]
    exact ⟨rfl, by ring⟩

/-- A point of a grid is a point of the finer grids. -/
theorem holds_mul_ten (i : Interval) (t : Int) (d : Nat) :
    i.holds t (10 * d) = i.holds (t + 1) d := by
  rw [Bool.eq_iff_iff, holds_iff, holds_iff]
  rcases scale_succ i t with ⟨hnum, hden⟩ | ⟨hnum, hden⟩
  · have hpoint : d * (i.scale (t + 1)).2 = 10 * d * (i.scale t).2 := by rw [hden]; ring
    rw [hpoint, hnum]
  · have hlow : i.low * (i.scale t).1 = 10 * (i.low * (i.scale (t + 1)).1) := by rw [hnum]; ring
    have hhigh : i.high * (i.scale t).1 = 10 * (i.high * (i.scale (t + 1)).1) := by rw [hnum]; ring
    have hpoint : 10 * d * (i.scale t).2 = 10 * (d * (i.scale (t + 1)).2) := by rw [hden]; ring
    rw [hlow, hhigh, hpoint, reaches_mul (by decide), reaches_mul (by decide)]

/-- Whether no point of the grid `10 ^ t` lies in the interval. -/
def Misses (i : Interval) (t : Int) : Prop := ∀ d, i.holds t d = false

/-- The lower neighbour of the middle is not above it. -/
theorem floor_mul_le (i : Interval) (t : Int) :
    i.floor t * (i.scale t).2 ≤ i.middle * (i.scale t).1 := Nat.div_mul_le_self _ _

/-- The upper neighbour of the middle is above it. -/
theorem lt_floor_succ_mul (i : Interval) (t : Int) :
    i.middle * (i.scale t).1 < (i.floor t + 1) * (i.scale t).2 := by
  obtain ⟨-, hden⟩ := i.scale_pos t
  exact (Nat.div_lt_iff_lt_mul hden).mp (Nat.lt_succ_self _)

theorem holds_of_gridPoint?_eq_none {tie : Tie} {t : Int} (h : i.gridPoint? tie t = none) :
    i.holds t (i.floor t) = false ∧ i.holds t (i.floor t + 1) = false := by
  simp only [gridPoint?] at h
  split at h
  · cases h
  · cases h
  · cases h
  · rename_i hfloor hnext
    exact ⟨hfloor, hnext⟩

/-- If neither neighbour of the middle lies in the interval, no point of the grid does. -/
theorem misses_of_gridPoint? (h : i.Proper) {tie : Tie} {t : Int}
    (hnone : i.gridPoint? tie t = none) : i.Misses t := by
  obtain ⟨hbelow, habove⟩ := holds_of_gridPoint?_eq_none hnone
  obtain ⟨hnum, -⟩ := i.scale_pos t
  have hlow : i.low * (i.scale t).1 < i.middle * (i.scale t).1 :=
    Nat.mul_lt_mul_of_pos_right h.low_lt hnum
  have hhigh : i.middle * (i.scale t).1 < i.high * (i.scale t).1 :=
    Nat.mul_lt_mul_of_pos_right h.lt_high hnum
  intro d
  by_contra hd
  rw [Bool.not_eq_false, holds_iff] at hd
  rcases Nat.lt_or_ge (i.floor t) d with hlt | hle
  · -- the upper neighbour is above the middle, and not above the point
    have hstep : (i.floor t + 1) * (i.scale t).2 ≤ d * (i.scale t).2 :=
      Nat.mul_le_mul_right _ hlt
    have hholds : i.holds t (i.floor t + 1) = true := by
      rw [holds_iff]
      exact ⟨Or.inl (hlow.trans (i.lt_floor_succ_mul t)), hd.2.of_le hstep⟩
    rw [habove] at hholds
    cases hholds
  · have hstep : d * (i.scale t).2 ≤ i.floor t * (i.scale t).2 := Nat.mul_le_mul_right _ hle
    have hholds : i.holds t (i.floor t) = true := by
      rw [holds_iff]
      exact ⟨hd.1.trans_le hstep, Or.inl (Nat.lt_of_le_of_lt (i.floor_mul_le t) hhigh)⟩
    rw [hbelow] at hholds
    cases hholds

/-! ### The search -/

/-- The nearer of two points is one of them. -/
theorem nearer_eq (i : Interval) (tie : Tie) (t : Int) (d : Nat) :
    i.nearer tie t d = d ∨ i.nearer tie t d = d + 1 := by
  simp only [nearer]
  split
  · exact Or.inl rfl
  · exact Or.inr rfl
  · cases tie with
    | up => exact Or.inr rfl
    | even =>
      simp only
      omega

theorem holds_of_gridPoint? {tie : Tie} {t : Int} {d : Nat}
    (h : i.gridPoint? tie t = some d) : i.holds t d = true := by
  simp only [gridPoint?] at h
  split at h
  · rename_i hfloor hnext
    cases h
    rcases i.nearer_eq tie t (i.floor t) with heq | heq
    · rw [heq]
      exact hfloor
    · rw [heq]
      exact hnext
  · rename_i hfloor _
    cases h
    exact hfloor
  · rename_i _ hnext
    cases h
    exact hnext
  · cases h

/-- **The search ends on the coarsest grid that meets the interval.** -/
theorem search_eq (h : i.Proper) (tie : Tie) : ∀ (steps : Nat) {t : Int}, i.Misses (t + 1) →
    i.holds (t - steps) (i.floor (t - steps)) = true →
    ∃ u d, i.search tie steps t = Scientific.ofGrid d u ∧ i.holds u d = true ∧ i.Misses (u + 1)
  | 0, t, hmiss, hlast => by
    refine ⟨t, i.floor t, rfl, ?_, hmiss⟩
    simpa using hlast
  | steps + 1, t, hmiss, hlast => by
    rw [search]
    cases hpoint : i.gridPoint? tie t with
    | some d => exact ⟨t, d, rfl, holds_of_gridPoint? hpoint, hmiss⟩
    | none =>
      have hnext : i.Misses (t - 1 + 1) := by
        rw [Int.sub_add_cancel]
        exact misses_of_gridPoint? h hpoint
      have hend : t - 1 - (steps : Int) = t - ((steps + 1 : Nat) : Int) := by omega
      exact search_eq h tie steps hnext (by rw [hend]; exact hlast)

/-! ### The first and the last grid -/

theorem two_pow_le_ten_pow {m n : Nat} (h : m ≤ 3 * n) : 2 ^ m ≤ 10 ^ n :=
  calc 2 ^ m ≤ 2 ^ (3 * n) := Nat.pow_le_pow_right (by decide) h
    _ = 8 ^ n := by rw [pow_mul]; norm_num
    _ ≤ 10 ^ n := Nat.pow_le_pow_left (by decide) n

theorem ten_pow_le_two_pow {m n : Nat} (h : 10 * m ≤ 3 * n) : 10 ^ m ≤ 2 ^ n := by
  have hcubes : (10 ^ m) ^ 3 ≤ (2 ^ n) ^ 3 :=
    calc (10 ^ m) ^ 3 = 1000 ^ m := by rw [← pow_mul, Nat.mul_comm, pow_mul]; norm_num
      _ ≤ 1024 ^ m := Nat.pow_le_pow_left (by decide) m
      _ = 2 ^ (10 * m) := by rw [pow_mul]; norm_num
      _ ≤ 2 ^ (3 * n) := Nat.pow_le_pow_right (by decide) h
      _ = (2 ^ n) ^ 3 := by rw [← pow_mul, Nat.mul_comm]
  exact (Nat.pow_le_pow_iff_left (by decide)).mp hcubes

/-- The whole interval lies below the first step of a grid that is coarse enough. -/
theorem high_lt_of_ceiling_le (i : Interval) {t : Int} (h : i.ceiling ≤ t) :
    i.high * (i.scale t).1 < (i.scale t).2 := by
  have hbits : i.high < 2 ^ (i.high.log2 + 1) := Nat.lt_log2_self
  have hnum : 0 < (i.scale t).1 := (i.scale_pos t).1
  refine Nat.lt_of_lt_of_le (Nat.mul_lt_mul_of_pos_right hbits hnum) ?_
  simp only [ceiling] at h
  simp only [scale, Nat.pow_eq]
  rcases lt_or_ge t 0 with hneg | hpos
  · have hexp : i.exponent.toNat = 0 ∧ t.toNat = 0 := by omega
    have hpow : 10 ^ (-t).toNat ≤ 2 ^ ((-i.exponent).toNat - (i.high.log2 + 1)) :=
      ten_pow_le_two_pow (by omega)
    have hsum : i.high.log2 + 1 + ((-i.exponent).toNat - (i.high.log2 + 1))
        = (-i.exponent).toNat := by omega
    rw [hexp.1, hexp.2, pow_zero, pow_zero, Nat.one_mul, Nat.mul_one]
    calc 2 ^ (i.high.log2 + 1) * 10 ^ (-t).toNat
        ≤ 2 ^ (i.high.log2 + 1) * 2 ^ ((-i.exponent).toNat - (i.high.log2 + 1)) :=
          Nat.mul_le_mul_left _ hpow
      _ = 2 ^ (-i.exponent).toNat := by rw [← pow_add, hsum]
  · have hneg : (-t).toNat = 0 := by omega
    have hpow : 2 ^ (i.high.log2 + 1 + i.exponent.toNat - (-i.exponent).toNat) ≤ 10 ^ t.toNat :=
      two_pow_le_ten_pow (by omega)
    rw [hneg, pow_zero, Nat.mul_one, ← pow_add]
    calc 2 ^ (i.high.log2 + 1 + i.exponent.toNat)
        ≤ 2 ^ ((-i.exponent).toNat
            + (i.high.log2 + 1 + i.exponent.toNat - (-i.exponent).toNat)) :=
          Nat.pow_le_pow_right (by decide) (by omega)
      _ ≤ 2 ^ (-i.exponent).toNat * 10 ^ t.toNat := by
          rw [pow_add]
          exact Nat.mul_le_mul_left _ hpow

/-- Zero lies below a positive interval, and every other point above it if the grid is
coarse enough. -/
theorem misses_of_ceiling_le (h : i.Proper) {t : Int} (ht : i.ceiling ≤ t) : i.Misses t := by
  intro d
  by_contra hd
  rw [Bool.not_eq_false, holds_iff] at hd
  obtain ⟨hbelow, habove⟩ := hd
  rcases Nat.eq_zero_or_pos d with rfl | hpos
  · have hlow : 0 < i.low * (i.scale t).1 := Nat.mul_pos h.low_pos (i.scale_pos t).1
    rcases hbelow with hlt | ⟨-, heq⟩
    · omega
    · omega
  · have hhigh := i.high_lt_of_ceiling_le ht
    have hstep : (i.scale t).2 ≤ d * (i.scale t).2 := Nat.le_mul_of_pos_left _ hpos
    rcases habove with hlt | ⟨-, heq⟩
    · omega
    · omega

/-- The middle is a point of the grid that the search ends on. -/
theorem holds_floor_min (h : i.Proper) :
    i.holds (min 0 i.exponent) (i.floor (min 0 i.exponent)) = true := by
  have hdvd : (i.scale (min 0 i.exponent)).2 ∣ (i.scale (min 0 i.exponent)).1 := by
    have hten : (min 0 i.exponent).toNat = 0 := by omega
    have hexp : (-min 0 i.exponent).toNat = (-i.exponent).toNat := by omega
    simp only [scale, Nat.pow_eq, hten, hexp, pow_zero, Nat.mul_one]
    exact Dvd.dvd.mul_left (pow_dvd_pow_of_dvd (by decide) _) _
  have hmiddle : i.floor (min 0 i.exponent) * (i.scale (min 0 i.exponent)).2
      = i.middle * (i.scale (min 0 i.exponent)).1 :=
    Nat.div_mul_cancel (Dvd.dvd.mul_left hdvd _)
  have hnum := (i.scale_pos (min 0 i.exponent)).1
  rw [holds_iff, hmiddle]
  exact ⟨Or.inl (Nat.mul_lt_mul_of_pos_right h.low_lt hnum),
    Or.inl (Nat.mul_lt_mul_of_pos_right h.lt_high hnum)⟩

/-- **The shortest decimal lies in the interval, and no point of the next coarser grid does.** -/
theorem shortest_eq (h : i.Proper) (tie : Tie) : ∃ t d,
    i.shortest tie = Scientific.ofGrid d t ∧ i.holds t d = true ∧ i.Misses (t + 1) := by
  have hlow : min 0 i.exponent ≤ i.ceiling := by
    simp only [ceiling]
    omega
  have hend : i.ceiling - ((i.ceiling - min 0 i.exponent).toNat : Int) = min 0 i.exponent := by
    omega
  refine search_eq h tie _ (misses_of_ceiling_le h (by omega)) ?_
  rw [hend]
  exact holds_floor_min h

end Interval

/-- **A shortest decimal neither begins nor ends with a zero.** -/
theorem normal_shortest (f : Format) (tie : Tie) {mantissa : Nat} (h : mantissa ≠ 0)
    (exponent : Int) : (shortest f tie mantissa exponent).Normal := by
  obtain ⟨t, d, heq, hholds, hmiss⟩ :=
    Interval.shortest_eq (Interval.proper_around f h exponent) tie
  rw [shortest, heq]
  refine normal_ofGrid (fun hzero => ?_) t
  -- with a zero at the end it would be a point of the next coarser grid
  have hcoarse := Interval.holds_mul_ten (Interval.around f mantissa exponent) t (d / 10)
  rw [Nat.mul_div_cancel' (Nat.dvd_of_mod_eq_zero hzero), hholds, hmiss] at hcoarse
  cases hcoarse

end Decimal
end Markup
