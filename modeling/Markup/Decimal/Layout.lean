/-
# Layouts of decimal numerals

A non-zero number in scientific form is a row of digits and the place of its
point: `0.d₁d₂… × 10 ^ point`. A layout says for which places the numeral is
written out plainly, what a plain integer carries at its end, and whether a
positive exponent shows its sign; `Layout.chars` writes every numeral from
these three. The layouts that the library writes are `Layout.script` (the
numbers of a page), `Layout.json` (the compact text of a document, and what a
message about one shows of it) and `Layout.inspect` (the numbers inside a
value that is inspected).

Key definitions: `Scientific`, `Layout`, `Layout.chars`.
-/
import Markup.Decimal.Digits

namespace Markup
namespace Decimal

/-- The digits and the place of the point of a positive number,
`0.d₁d₂… × 10 ^ point`. -/
structure Scientific where
  digits : List Digit
  point : Int
deriving DecidableEq

/-- `count × 10 ^ exponent` in scientific form. -/
def Scientific.ofGrid (count : Nat) (exponent : Int) : Scientific :=
  ⟨Decimal.digits count, (Decimal.digits count).length + exponent⟩

/-- How numerals are written. -/
structure Layout where
  /-- Whether a numeral with its point at this place is written out plainly. -/
  plain : Int → Bool
  /-- What a plainly written integer ends with. -/
  wholeMark : List Char
  /-- What stands in front of a positive exponent. -/
  plus : List Char

/-- Plain from 10⁻⁶ up to 10²¹, integers without a point, exponents with their
sign. -/
def Layout.script : Layout := ⟨fun n => -6 < n && n ≤ 21, [], ['+']⟩

/-- Plain from 10⁻⁵ up to 10¹⁶, integers with `.0`, exponents with their sign. -/
def Layout.json : Layout := ⟨fun n => -5 < n && n ≤ 16, ['.', '0'], ['+']⟩

/-- Plain from 10⁻⁴ up to 10¹⁶, integers with `.0`, positive exponents without
a sign. -/
def Layout.inspect : Layout := ⟨fun n => -4 < n && n ≤ 16, ['.', '0'], []⟩

/-- A numeral written out: zeros fill the places between the digits and the
point. -/
def Layout.plainChars (l : Layout) (s : Scientific) : List Char :=
  if (s.digits.length : Int) ≤ s.point then
    digitChars s.digits ++ List.replicate (s.point - s.digits.length).toNat '0' ++ l.wholeMark
  else if 0 < s.point then
    digitChars (s.digits.take s.point.toNat) ++ '.' :: digitChars (s.digits.drop s.point.toNat)
  else
    '0' :: '.' :: (List.replicate (-s.point).toNat '0' ++ digitChars s.digits)

/-- A numeral with one digit before the point and an exponent. -/
def Layout.exponentChars (l : Layout) (s : Scientific) : List Char :=
  let fraction := match s.digits.drop 1 with
    | [] => []
    | rest => '.' :: digitChars rest
  let exponent := s.point - 1
  let sign := if exponent < 0 then ['-'] else l.plus
  digitChars (s.digits.take 1) ++ fraction ++ 'e' :: (sign ++ natChars exponent.natAbs)

/-- The numeral of a positive number. -/
def Layout.chars (l : Layout) (s : Scientific) : List Char :=
  if l.plain s.point then l.plainChars s else l.exponentChars s

end Decimal
end Markup
