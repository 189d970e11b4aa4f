/-
# Binary floating-point numbers

A finite floating-point number is a sign, a mantissa and a power of two; a
format bounds the mantissa and the power. `Format.decode` reads a number from
its interchange bits and `Format.nearest` rounds an exact fraction to the
nearest number of the format, a half to the even mantissa; `Format.ofDecimal`
rounds a decimal numeral. A product or a quotient is the nearest number to the
exact one. All of it is exact arithmetic on natural numbers, so that its results
can be reasoned about.

Key definitions: `Format`, `Binary`, `Format.decode`, `Format.nearest`,
`Format.ofDecimal`, `Format.mul`, `Format.div`.
-/
import Markup.Decimal.Digits

namespace Markup

/-- A floating-point number: `mantissa × 2 ^ exponent` with a sign, or one of
the values that are not numbers of the line. -/
inductive Binary where
  | nan
  | infinity (negative : Bool)
  | finite (negative : Bool) (mantissa : Nat) (exponent : Int)
deriving DecidableEq

/-- A binary format: the bits of a mantissa and the exponents of its unit. -/
structure Format where
  precision : Nat
  least : Int
  greatest : Int

/-- The 64-bit interchange format. -/
def Format.double : Format := ⟨53, -1074, 971⟩

/-- The 32-bit interchange format. -/
def Format.single : Format := ⟨24, -149, 104⟩

namespace Format

/-- The mantissa at which the exponent changes. -/
def hidden (f : Format) : Nat := Nat.pow 2 (f.precision - 1)

/-- The exponent field that marks infinities and NaN. -/
def specialField (f : Format) : Nat := (f.greatest - f.least + 2).toNat

/-- The number whose interchange bits are `bits`: sign, exponent field and
fraction, from the highest bit down. -/
def decode (f : Format) (bits : Nat) : Binary :=
  let fraction := bits % f.hidden
  let field := bits / f.hidden % (f.specialField + 1)
  let negative := bits / f.hidden / (f.specialField + 1) % 2 = 1
  if field = f.specialField then
    if fraction = 0 then .infinity negative else .nan
  else if field = 0 then
    .finite negative fraction f.least
  else
    .finite negative (f.hidden + fraction) (f.least + (field - 1 : Nat))

/-- `num / den` rounded to an integer, a half to the even neighbour. -/
def roundEven (num den : Nat) : Nat :=
  let below := num / den
  let twice := 2 * (num % den)
  if twice < den then below
  else if den < twice then below + 1
  else below + below % 2

/-- The power of two that `num / den` reaches: `2 ^ k ≤ num / den < 2 ^ (k + 1)`
for positive `num` and `den`. -/
def binade (num den : Nat) : Int :=
  let k : Int := (num.log2 : Int) - (den.log2 : Int)
  if num * Nat.pow 2 (-k).toNat < den * Nat.pow 2 k.toNat then k - 1 else k

/-- The number of the format nearest to `num / den`; what rounds past the
greatest one is infinite. -/
def nearest (f : Format) (negative : Bool) (num den : Nat) : Binary :=
  if num = 0 then .finite negative 0 f.least
  else
    let e := max f.least (binade num den + 1 - f.precision)
    let m := roundEven (num * Nat.pow 2 (-e).toNat) (den * Nat.pow 2 e.toNat)
    if m = 2 * f.hidden then
      if f.greatest < e + 1 then .infinity negative else .finite negative f.hidden (e + 1)
    else if f.greatest < e then .infinity negative
    else .finite negative m e

/-- The number of the format nearest to a natural number. -/
def ofNat (f : Format) (n : Nat) : Binary := f.nearest false n 1

/-- The number of the format nearest to `± count × 10 ^ exponent`. A numeral
that is out of range by its length alone is not multiplied out. -/
def ofDecimal (f : Format) (negative : Bool) (count : Nat) (exponent : Int) : Binary :=
  let point := ((Decimal.digits count).length : Int) + exponent
  if count = 0 then .finite negative 0 f.least
  else if f.greatest + f.precision < point then .infinity negative
  else if point < f.least then .finite negative 0 f.least
  else f.nearest negative (count * Nat.pow 10 exponent.toNat) (Nat.pow 10 (-exponent).toNat)

/-- The product of two numbers. Only an infinite one times zero is none. -/
def mul (f : Format) : Binary → Binary → Binary
  | .finite s m e, .finite t n k =>
    f.nearest (s != t) (m * n * Nat.pow 2 (e + k).toNat) (Nat.pow 2 (-(e + k)).toNat)
  | .finite s m _, .infinity t => if m = 0 then .nan else .infinity (s != t)
  | .infinity s, .finite t n _ => if n = 0 then .nan else .infinity (s != t)
  | .infinity s, .infinity t => .infinity (s != t)
  | .nan, _ => .nan
  | _, .nan => .nan

/-- The quotient of two numbers. Only zero by zero and an infinite one by an
infinite one are none. -/
def div (f : Format) : Binary → Binary → Binary
  | .finite s m e, .finite t n k =>
    if n = 0 then if m = 0 then .nan else .infinity (s != t)
    else f.nearest (s != t) (m * Nat.pow 2 (e - k).toNat) (n * Nat.pow 2 (k - e).toNat)
  | .finite s _ _, .infinity t => .finite (s != t) 0 f.least
  | .infinity s, .finite t _ _ => .infinity (s != t)
  | .infinity _, .infinity _ => .nan
  | .nan, _ => .nan
  | _, .nan => .nan

end Format

/-- Whether a number is one of the two zeros. -/
def Binary.isZero : Binary → Bool
  | .finite _ m _ => m == 0
  | _ => false

end Markup
