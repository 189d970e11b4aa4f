/-
# The shortest decimal that reads back

A floating-point number is the nearest one to every real of an interval around
it. `shortest` looks for the decimal with the fewest digits in that interval:
on the grids of the powers of ten, from a grid too coarse to meet the interval
down to one that holds the number itself, the first grid with a point inside
wins, and of two points inside the nearer one; a tie goes as `Tie` says. Only a
number's two neighbours on a grid have to be tried: if a grid meets the interval
at all, one of them lies inside.

Key definitions: `Interval`, `Interval.around`, `Interval.gridPoint?`,
`Interval.shortest`, `shortest`, `Layout.doubleChars`.
-/
import Markup.Binary
import Markup.Decimal.Layout

namespace Markup
namespace Decimal

/-- Which of two equally near decimals is taken. -/
inductive Tie where
  | up
  | even
deriving DecidableEq

/-- The reals between `low` and `high` around `middle`, all three in units of
`2 ^ exponent`. -/
structure Interval where
  low : Nat
  middle : Nat
  high : Nat
  /-- Whether the ends belong to it. -/
  closed : Bool
  exponent : Int
deriving DecidableEq

namespace Interval

/-- The reals that round to `mantissa × 2 ^ exponent`: half a unit to each side,
but a quarter below a mantissa at which the unit shrinks. The ends round to an
even mantissa. -/
def around (f : Format) (mantissa : Nat) (exponent : Int) : Interval where
  low := 4 * mantissa - (if mantissa = f.hidden ∧ f.least < exponent then 1 else 2)
  middle := 4 * mantissa
  high := 4 * mantissa + 2
  closed := mantissa % 2 = 0
  exponent := exponent - 2

/-- The units of the interval in one step of the grid `10 ^ t`, as a fraction:
`x` units are `x * (i.scale t).1 / (i.scale t).2` steps. -/
def scale (i : Interval) (t : Int) : Nat × Nat :=
  (Nat.pow 2 i.exponent.toNat * Nat.pow 10 (-t).toNat,
    Nat.pow 2 (-i.exponent).toNat * Nat.pow 10 t.toNat)

/-- Whether the point `d × 10 ^ t` lies in the interval. -/
def holds (i : Interval) (t : Int) (d : Nat) : Bool :=
  let (num, den) := i.scale t
  if i.closed then i.low * num ≤ d * den && d * den ≤ i.high * num
  else i.low * num < d * den && d * den < i.high * num

/-- The greatest point of the grid `10 ^ t` that is not above the middle. -/
def floor (i : Interval) (t : Int) : Nat :=
  i.middle * (i.scale t).1 / (i.scale t).2

/-- The nearer to the middle of `d` and `d + 1` on the grid `10 ^ t`. -/
def nearer (i : Interval) (tie : Tie) (t : Int) (d : Nat) : Nat :=
  let (num, den) := i.scale t
  match compare (2 * (i.middle * num)) ((2 * d + 1) * den) with
  | .lt => d
  | .gt => d + 1
  | .eq => match tie with
    | .up => d + 1
    | .even => d + d % 2

/-- The point of the grid `10 ^ t` in the interval that is nearest to the
middle, if there is one. -/
def gridPoint? (i : Interval) (tie : Tie) (t : Int) : Option Nat :=
  let d := i.floor t
  match i.holds t d, i.holds t (d + 1) with
  | true, true => some (i.nearer tie t d)
  | true, false => some d
  | false, true => some (d + 1)
  | false, false => none

/-- The first grid with a point inside, from `10 ^ t` down by `steps` grids; the
last of them is taken to hold the middle. -/
def search (i : Interval) (tie : Tie) : Nat → Int → Scientific
  | 0, t => Scientific.ofGrid (i.floor t) t
  | steps + 1, t => match i.gridPoint? tie t with
    | some d => Scientific.ofGrid d t
    | none => search i tie steps (t - 1)

/-- A power of ten above the whole interval. -/
def ceiling (i : Interval) : Int :=
  let b := (i.high.log2 : Int) + 1 + i.exponent
  max (b / 3) (b * 3 / 10) + 1

/-- The shortest decimal in the interval. The search ends where the middle is
itself a point of the grid: an integer on `10 ^ 0`, any other on the grid of
its own exponent. -/
def shortest (i : Interval) (tie : Tie) : Scientific :=
  i.search tie (i.ceiling - min 0 i.exponent).toNat i.ceiling

end Interval

/-- The shortest decimal that reads back as `mantissa × 2 ^ exponent`. -/
def shortest (f : Format) (tie : Tie) (mantissa : Nat) (exponent : Int) : Scientific :=
  (Interval.around f mantissa exponent).shortest tie

/-- The double `± mantissa × 2 ^ exponent` in a layout; zero is written as an
integer. -/
def Layout.doubleChars (l : Layout) (tie : Tie) (negative : Bool) (mantissa : Nat)
    (exponent : Int) : List Char :=
  let numeral :=
    if mantissa = 0 then '0' :: l.wholeMark
    else l.chars (shortest Format.double tie mantissa exponent)
  if negative then '-' :: numeral else numeral

end Decimal
end Markup
