/-
# Numbers of a page

A number is a 64-bit integer or a double. Every integer type converts to it
without changing the value, except that an unsigned 64-bit value above the
signed range becomes the nearest double; a single keeps its own shortest
digits, so that the single nearest to 0.1 is written `0.1`. An integer is
written in decimal, a double with the fewest digits that read back, laid out
as `Decimal.Layout.script` says; NaN and the infinities have names, and both
zeros are `0`.

Key definitions: `Number`, `ToNumber`, `Number.chars`, `Number.text`.
-/
import Markup.Decimal.Shortest

namespace Markup

/-- A numeric value. -/
inductive Number where
  | int (v : Int64)
  | float (x : Binary)
deriving DecidableEq

namespace Number

/-! ### Conversions -/

/-- An unsigned 64-bit value: an integer if it fits the signed range, else the
nearest double. -/
def ofUInt64 (v : UInt64) : Number :=
  if v.toNat < 0x8000000000000000 then .int v.toInt64 else .float (Format.double.ofNat v.toNat)

/-- The double with the interchange bits `bits`. -/
def ofDoubleBits (bits : UInt64) : Number :=
  .float (Format.double.decode bits.toNat)

/-- The double that a single's own shortest digits read as. -/
def ofSingle : Binary → Binary
  | .nan => .nan
  | .infinity s => .infinity s
  | .finite s 0 _ => .finite s 0 Format.double.least
  | .finite s m e =>
    let d := Decimal.shortest Format.single .up m e
    Format.double.ofDecimal s (Decimal.ofDigits d.digits) (d.point - d.digits.length)

/-- The double for the single with the interchange bits `bits`. -/
def ofSingleBits (bits : UInt32) : Number :=
  .float (ofSingle (Format.single.decode bits.toNat))

end Number

/-- Types whose values are numbers of a page. -/
class ToNumber (α : Type) where
  /-- The number that a value is. -/
  toNumber : α → Number

export ToNumber (toNumber)

instance : ToNumber Number := ⟨id⟩
instance : ToNumber Int8 := ⟨fun v => .int v.toInt64⟩
instance : ToNumber Int16 := ⟨fun v => .int v.toInt64⟩
instance : ToNumber Int32 := ⟨fun v => .int v.toInt64⟩
instance : ToNumber Int64 := ⟨.int⟩
instance : ToNumber ISize := ⟨fun v => .int v.toInt64⟩
instance : ToNumber UInt8 := ⟨fun v => .int v.toUInt64.toInt64⟩
instance : ToNumber UInt16 := ⟨fun v => .int v.toUInt64.toInt64⟩
instance : ToNumber UInt32 := ⟨fun v => .int v.toUInt64.toInt64⟩
instance : ToNumber UInt64 := ⟨Number.ofUInt64⟩
instance : ToNumber USize := ⟨fun v => Number.ofUInt64 v.toUInt64⟩
instance : ToNumber Binary := ⟨.float⟩

namespace Number

/-! ### Text -/

/-- The text of a finite double; zero has no sign. -/
def finiteChars (negative : Bool) (mantissa : Nat) (exponent : Int) : List Char :=
  Decimal.Layout.script.doubleChars .up (negative && mantissa != 0) mantissa exponent

/-- The text of a number, as characters. -/
def chars : Number → List Char
  | .int v => Decimal.intChars v.toInt
  | .float .nan => ['N', 'a', 'N']
  | .float (.infinity false) => ['I', 'n', 'f', 'i', 'n', 'i', 't', 'y']
  | .float (.infinity true) => ['-', 'I', 'n', 'f', 'i', 'n', 'i', 't', 'y']
  | .float (.finite s m e) => finiteChars s m e

/-- The text of a number. -/
def text (n : Number) : String := String.ofList n.chars

end Number
end Markup
