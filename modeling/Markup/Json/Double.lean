/-
# The doubles of a document

A reader of documents does not look for the double that is nearest to a numeral.
It goes on with a count of the digits as long as the count fits 64 bits; digits
behind it count for their place alone. The count becomes a double, and is
multiplied or divided by a power of ten, which is a double as well. Each of the
three is rounded by itself, so that the double need not be the nearest one to
the numeral. A power beyond the greatest one is divided out in steps, and a
number that is too large for a double is none.

Key definitions: `Json.gather`, `Json.tenPower`, `Json.double?`.
-/
import Markup.Binary

namespace Markup
namespace Json

/-- A count that goes on with digits as long as it fits 64 bits, and the digits
that are left. -/
def gather : Nat → List Decimal.Digit → Nat × List Decimal.Digit
  | n, [] => (n, [])
  | n, d :: ds =>
    if 10 * n + d.val < 0x10000000000000000 then gather (10 * n + d.val) ds else (n, d :: ds)

/-- The exponent of the greatest power of ten that is a double. -/
def maxPower : Nat := 308

/-- A power of ten as a double. -/
def tenPower (k : Nat) : Binary := Format.double.ofNat (Nat.pow 10 k)

/-- A double divided by a power of ten: by the greatest one and again by what is
left of the power, unless nothing is left of the double. -/
def divided (x : Binary) (k : Nat) : Binary :=
  if k ≤ maxPower then Format.double.div x (tenPower k)
  else if x.isZero then x
  else divided (Format.double.div x (tenPower maxPower)) (k - maxPower)
termination_by k
decreasing_by simp only [maxPower] at *; omega

/-- A double that is not infinite. -/
def finite? : Binary → Option Binary
  | .infinity _ => none
  | x => some x

/-- A double multiplied by a power of ten, if that is in range. -/
def multiplied? (x : Binary) (k : Nat) : Option Binary :=
  if k ≤ maxPower then finite? (Format.double.mul x (tenPower k))
  else if x.isZero then some x
  else none

/-- The double that `± count × 10 ^ exponent` is read as, if it is in range. -/
def double? (negative : Bool) (count : Nat) (exponent : Int) : Option Binary :=
  let x := Format.double.nearest negative count 1
  if 0 ≤ exponent then multiplied? x exponent.toNat else some (divided x (-exponent).toNat)

end Json
end Markup
