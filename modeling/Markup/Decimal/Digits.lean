/-
# Decimal digits

The digits of a natural number, most significant first, the number that a
row of digits stands for, and the text of both. Integers are written from
their digits with a minus sign in front of a negative one.

Key definitions: `Decimal.digits`, `Decimal.ofDigits`, `Decimal.intText`.
Key theorems: `Decimal.ofDigits_digits`, `Decimal.digits_ne_nil`.
-/
namespace Markup
namespace Decimal

/-- One decimal digit. -/
abbrev Digit := Fin 10

/-- The character of a digit. -/
def Digit.char (d : Digit) : Char := Char.ofNat (48 + d.val)

/-- The digit that a character shows, if it is one of `0` to `9`. -/
def Digit.ofChar? (c : Char) : Option Digit :=
  if '0' ≤ c ∧ c ≤ '9' then some (Fin.ofNat 10 (c.toNat - 48)) else none

/-- The number that a row of digits stands for. -/
def ofDigits (ds : List Digit) : Nat :=
  ds.foldl (fun n d => 10 * n + d.val) 0

/-- The digits of `n`, most significant first; zero has the one digit 0. -/
def digits (n : Nat) : List Digit :=
  if n < 10 then [Fin.ofNat 10 n] else digits (n / 10) ++ [Fin.ofNat 10 n]
termination_by n

theorem ofDigits_append_singleton (ds : List Digit) (d : Digit) :
    ofDigits (ds ++ [d]) = 10 * ofDigits ds + d.val := by
  simp [ofDigits, List.foldl_append]

/-- The digits of a number stand for it. -/
theorem ofDigits_digits (n : Nat) : ofDigits (digits n) = n := by
  fun_induction digits n with
  | case1 n h => simp [ofDigits, Fin.ofNat]; omega
  | case2 n h ih =>
    rw [ofDigits_append_singleton, ih]
    simp only [Fin.ofNat]
    omega

theorem digits_ne_nil (n : Nat) : digits n ≠ [] := by
  unfold digits
  split <;> simp

/-- A row of zeros. -/
def zeros (n : Nat) : List Digit := List.replicate n 0

@[simp] theorem length_zeros (n : Nat) : (zeros n).length = n := List.length_replicate

/-- Zeros stand for nothing. -/
theorem ofDigits_zeros (n : Nat) : ofDigits (zeros n) = 0 := by
  induction n with
  | zero => rfl
  | succ n ih =>
    have hsnoc : zeros (n + 1) = zeros n ++ [0] := List.replicate_succ'
    rw [hsnoc, ofDigits_append_singleton, ih]
    rfl

/-- The text of a row of digits. -/
def digitChars (ds : List Digit) : List Char := ds.map Digit.char

/-- A natural number in decimal. -/
def natChars (n : Nat) : List Char := digitChars (digits n)

/-- An integer in decimal, with a minus sign if it is negative. -/
def intChars (v : Int) : List Char :=
  if v < 0 then '-' :: natChars v.natAbs else natChars v.natAbs

/-- An integer in decimal, as a text. -/
def intText (v : Int) : String := String.ofList (intChars v)

end Decimal
end Markup
