/-
# Timestamps

A moment is a number of seconds since 1970-01-01T00:00:00Z and of nanoseconds
in that second; a thousand million nanoseconds or more stand for a leap second
behind it. The date of a moment is found by counting days in cycles of 400
years that begin on the first of March, so that a leap day is the last day of a
cycle. Years have four digits, and a sign as well if they need more or lie
before the year 0.

Key definitions: `Timestamp`, `Timestamp.date`, `Timestamp.millisText`,
`Timestamp.inspect`.
-/
import Markup.Decimal.Digits

namespace Markup

/-- A moment of Coordinated Universal Time. -/
structure Timestamp where
  seconds : Int
  nanos : Nat
deriving DecidableEq

/-- A day of the Gregorian calendar. -/
structure Date where
  year : Int
  month : Nat
  day : Nat
deriving DecidableEq

/-- The day that is `days` days after 1970-01-01. -/
def Date.ofDays (days : Int) : Date :=
  let sinceMarch := days + 719468
  let cycle := sinceMarch / 146097
  let inCycle := (sinceMarch % 146097).toNat
  let year := (inCycle - inCycle / 1460 + inCycle / 36524 - inCycle / 146096) / 365
  let inYear := inCycle - (365 * year + year / 4 - year / 100)
  let march := (5 * inYear + 2) / 153
  let month := if march < 10 then march + 3 else march - 9
  { year := (year : Int) + cycle * 400 + (if month ≤ 2 then 1 else 0)
    month := month
    day := inYear - (153 * march + 2) / 5 + 1 }

namespace Timestamp

/-- The nanoseconds that make a second. -/
def nanosPerSecond : Nat := 1000000000

/-- The day of a moment. -/
def date (t : Timestamp) : Date := Date.ofDays (t.seconds / 86400)

/-- The seconds of a moment in its day. -/
def inDay (t : Timestamp) : Nat := (t.seconds % 86400).toNat

/-- The second that a clock shows in its minute: 60 in a leap second. -/
def clockSecond (t : Timestamp) : Nat := t.inDay % 60 + t.nanos / nanosPerSecond

/-- The nanoseconds that a clock shows. -/
def clockNanos (t : Timestamp) : Nat := t.nanos % nanosPerSecond

/-- A number with zeros in front, up to `width` digits. -/
def padded (width n : Nat) : List Char :=
  let digits := Decimal.natChars n
  List.replicate (width - digits.length) '0' ++ digits

/-- A year. -/
def yearChars (y : Int) : List Char :=
  if y < 0 then '-' :: padded 4 y.natAbs
  else if y ≤ 9999 then padded 4 y.natAbs
  else '+' :: padded 4 y.natAbs

/-- The date and the time of a moment up to its second. -/
def clockChars (t : Timestamp) : List Char :=
  let d := t.date
  yearChars d.year ++ '-' :: padded 2 d.month ++ '-' :: padded 2 d.day ++
    'T' :: padded 2 (t.inDay / 3600) ++ ':' :: padded 2 (t.inDay / 60 % 60) ++
    ':' :: padded 2 t.clockSecond

/-- A moment in ISO 8601 form to the millisecond. -/
def millisText (t : Timestamp) : String :=
  String.ofList (t.clockChars ++ '.' :: padded 3 (t.clockNanos / 1000000) ++ ['Z'])

/-- The fraction of a second with three, six or nine digits, or none if it is
zero. -/
def fractionChars (nanos : Nat) : List Char :=
  if nanos = 0 then []
  else if nanos % 1000000 = 0 then '.' :: padded 3 (nanos / 1000000)
  else if nanos % 1000 = 0 then '.' :: padded 6 (nanos / 1000)
  else '.' :: padded 9 nanos

/-- A moment as messages show it. -/
def inspect (t : Timestamp) : String :=
  String.ofList (t.clockChars ++ fractionChars t.clockNanos ++ ['Z'])

end Timestamp
end Markup
