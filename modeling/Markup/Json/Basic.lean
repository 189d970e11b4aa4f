/-
# JSON documents

A JSON value; its numbers are integers of the signed or unsigned 64-bit range
or doubles. An object lists its members in textual order, and a document as it
stands in a text may name a key twice: `merged` leaves each key at its first
place with its last value, at every depth.

Key definitions: `Json`, `Json.merged`.
-/
import Markup.Keyed
import Markup.Number

namespace Markup

/-- A JSON value. -/
inductive Json where
  | null
  | bool (b : Bool)
  | integer (v : Int)
  | float (x : Binary)
  | string (s : String)
  | array (items : List Json)
  | object (members : List (String × Json))

namespace Json

mutual

/-- The value with each key of an object once: at its first place, with its last
value. -/
def merged : Json → Json
  | .array items => .array (mergedItems items)
  | .object members => .object (Keyed.ofPairs (mergedMembers members))
  | value => value

/-- The items of a list, each merged. -/
def mergedItems : List Json → List Json
  | [] => []
  | item :: rest => merged item :: mergedItems rest

/-- The members of an object as they stand, each value merged. -/
def mergedMembers : List (String × Json) → List (String × Json)
  | [] => []
  | (key, value) :: rest => (key, merged value) :: mergedMembers rest

end

end Json

/-- The number of a page that a JSON integer is: itself if it fits the signed
64-bit range, else the nearest double. -/
def Number.ofJsonInteger (v : Int) : Number :=
  if -0x8000000000000000 ≤ v ∧ v < 0x8000000000000000 then .int (Int64.ofInt v)
  else .float (Format.double.nearest (v < 0) v.natAbs 1)

/-- In the signed range an integer is written in decimal. -/
theorem Number.text_ofJsonInteger {v : Int}
    (h : -0x8000000000000000 ≤ v ∧ v < 0x8000000000000000) :
    (Number.ofJsonInteger v).text = Decimal.intText v := by
  rw [ofJsonInteger, if_pos h, text, chars, Int64.toInt_ofInt_of_le h.1 h.2, Decimal.intText]

end Markup
