/-
# Reading JSON

A reader of the JSON grammar over the characters of a text: blanks are space,
tab, line feed and carriage return, control characters in a text must be
escaped, a number without fraction and exponent is an integer if it fits 64 bits
and a double otherwise, `-0` is a double, and a number too large for a double
is refused. Lists and objects may nest 127 deep. The reader of a part answers
the part with the text behind it. A text is refused for the first fault in it:
it ended too early (`truncated`), or it holds something that cannot stand there
(`malformed`).

Key definitions: `Json.Fault`, `Json.readRaw`, `Json.read`.
-/
import Markup.Json.Basic
import Markup.Json.Double

namespace Markup
namespace Json

/-- Why a text is not a JSON document. -/
inductive Fault where
  /-- The text ended where more was needed. -/
  | truncated
  /-- The text holds something that cannot stand at its place. -/
  | malformed
deriving DecidableEq

/-! ### Words -/

/-- Whether a character may stand between the words of a document. -/
def isBlank (c : Char) : Bool := c = ' ' || c = '\t' || c = '\n' || c = '\r'

/-- The text from its first character that is not blank. -/
def skipBlanks (cs : List Char) : List Char := cs.dropWhile isBlank

/-- The text behind the given characters. -/
def expect : List Char → List Char → Except Fault (List Char)
  | [], cs => .ok cs
  | _ :: _, [] => .error .truncated
  | e :: es, c :: cs => if c = e then expect es cs else .error .malformed

/-! ### Numbers -/

/-- The digits at the front of a text, and the rest. -/
def digitRun : List Char → List Decimal.Digit × List Char
  | [] => ([], [])
  | c :: cs => match Decimal.Digit.ofChar? c with
    | some d => (d :: (digitRun cs).1, (digitRun cs).2)
    | none => ([], c :: cs)

/-- One digit or more. -/
def someDigits (cs : List Char) : Except Fault (List Decimal.Digit × List Char) :=
  match digitRun cs, cs with
  | (d :: ds, rest), _ => .ok (d :: ds, rest)
  | ([], _), [] => .error .truncated
  | ([], _), _ :: _ => .error .malformed

/-- The digits before the point: a zero stands alone. -/
def wholePart (cs : List Char) : Except Fault (List Decimal.Digit × List Char) := do
  let (ds, rest) ← someDigits cs
  match ds with
  | 0 :: _ :: _ => .error .malformed
  | _ => .ok (ds, rest)

/-- The digits behind the point, if there is a point. -/
def fractionPart : List Char → Except Fault (Option (List Decimal.Digit) × List Char)
  | '.' :: cs => do
    let (ds, rest) ← someDigits cs
    .ok (some ds, rest)
  | cs => .ok (none, cs)

/-- The digits of an exponent behind its sign. -/
def signedDigits (cs : List Char) : Except Fault (Int × List Char) := do
  let (negative, cs) := match cs with
    | '+' :: cs => (false, cs)
    | '-' :: cs => (true, cs)
    | cs => (false, cs)
  let (ds, rest) ← someDigits cs
  let n : Int := Decimal.ofDigits ds
  .ok (if negative then -n else n, rest)

/-- The exponent, if there is one. -/
def exponentPart : List Char → Except Fault (Option Int × List Char)
  | 'e' :: cs => do
    let (n, rest) ← signedDigits cs
    .ok (some n, rest)
  | 'E' :: cs => do
    let (n, rest) ← signedDigits cs
    .ok (some n, rest)
  | cs => .ok (none, cs)

/-- The value of a numeral that is a double, if there is one in range. -/
def ofDouble? : Option Binary → Except Fault Json
  | none => .error .malformed
  | some x => .ok (.float x)

/-- The integer `± count`, where the count fits 64 bits. A negative one beyond
the signed range is a double, and so is `-0`. -/
def ofCount (negative : Bool) (count : Nat) : Json :=
  if negative then
    if count = 0 ∨ 0x8000000000000000 < count then .float (Format.double.nearest true count 1)
    else .integer (-count)
  else .integer count

/-- The value of a numeral without fraction and exponent. -/
def ofWhole (negative : Bool) (whole : List Decimal.Digit) : Except Fault Json :=
  match gather 0 whole with
  | (count, []) => .ok (ofCount negative count)
  | (count, left) => ofDouble? (double? negative count left.length)

/-- The value of a numeral with a fraction or an exponent. The digits behind the
point go on with the count of those before it. -/
def ofParts (negative : Bool) (whole fraction : List Decimal.Digit) (exponent : Int) :
    Except Fault Json :=
  let (count, left) := gather 0 whole
  let (count, unread) := gather count fraction
  ofDouble? (double? negative count
    (left.length - (fraction.length - unread.length : Nat) + exponent))

/-- A number behind its sign. -/
def numeral (negative : Bool) (cs : List Char) : Except Fault (Json × List Char) := do
  let (whole, rest) ← wholePart cs
  let (fraction, rest) ← fractionPart rest
  let (exponent, rest) ← exponentPart rest
  let value ← match fraction, exponent with
    | none, none => ofWhole negative whole
    | _, _ => ofParts negative whole (fraction.getD []) (exponent.getD 0)
  .ok (value, rest)

/-! ### Texts -/

/-- The value of a hexadecimal digit. -/
def hexDigit? (c : Char) : Option Nat :=
  if '0' ≤ c ∧ c ≤ '9' then some (c.toNat - '0'.toNat)
  else if 'a' ≤ c ∧ c ≤ 'f' then some (c.toNat - 'a'.toNat + 10)
  else if 'A' ≤ c ∧ c ≤ 'F' then some (c.toNat - 'A'.toNat + 10)
  else none

/-- The code unit that four hexadecimal digits name. -/
def unit? (a b c d : Char) : Option Nat := do
  let a ← hexDigit? a
  let b ← hexDigit? b
  let c ← hexDigit? c
  let d ← hexDigit? d
  some (((a * 16 + b) * 16 + c) * 16 + d)

/-- The fault of a text that ends within four hexadecimal digits: it ended too
early if not even four bytes are left. -/
def shortUnit (cs : List Char) : Fault :=
  if cs.foldl (fun n c => n + c.utf8Size) 0 < 4 then .truncated else .malformed

/-- The character of a one-letter escape. -/
def escaped? : Char → Option Char
  | '"' => some '"'
  | '\\' => some '\\'
  | '/' => some '/'
  | 'b' => some '\x08'
  | 'f' => some '\x0c'
  | 'n' => some '\n'
  | 'r' => some '\r'
  | 't' => some '\t'
  | _ => none

/-- Whether a code unit is the first of a surrogate pair. -/
def isLeading (u : Nat) : Bool := 0xD800 ≤ u && u ≤ 0xDBFF

/-- Whether a code unit is the second of a surrogate pair. -/
def isTrailing (u : Nat) : Bool := 0xDC00 ≤ u && u ≤ 0xDFFF

/-- The character of a surrogate pair. -/
def pairChar (leading trailing : Nat) : Char :=
  Char.ofNat (0x10000 + (leading - 0xD800) * 0x400 + (trailing - 0xDC00))

/-- A text behind its opening quote, up to and without the closing one. -/
def textTail : List Char → Except Fault (List Char × List Char)
  | [] => .error .truncated
  | '"' :: rest => .ok ([], rest)
  | ['\\'] => .error .truncated
  | '\\' :: 'u' :: a :: b :: c :: d :: rest =>
    match unit? a b c d with
    | none => .error .malformed
    | some u =>
      if isTrailing u then .error .malformed
      else if isLeading u then
        match rest with
        | [] => .error .truncated
        | ['\\'] => .error .truncated
        | '\\' :: 'u' :: a' :: b' :: c' :: d' :: rest' =>
          match unit? a' b' c' d' with
          | none => .error .malformed
          | some v =>
            if isTrailing v then do
              let (cs, rest'') ← textTail rest'
              .ok (pairChar u v :: cs, rest'')
            else .error .malformed
        | '\\' :: 'u' :: short => .error (shortUnit short)
        | _ => .error .malformed
      else do
        let (cs, rest') ← textTail rest
        .ok (Char.ofNat u :: cs, rest')
  | '\\' :: 'u' :: short => .error (shortUnit short)
  | '\\' :: e :: rest =>
    match escaped? e with
    | none => .error .malformed
    | some c => do
      let (cs, rest') ← textTail rest
      .ok (c :: cs, rest')
  | c :: rest =>
    if c.toNat < 0x20 then .error .malformed
    else do
      let (cs, rest') ← textTail rest
      .ok (c :: cs, rest')

/-- A text behind its opening quote. -/
def text (cs : List Char) : Except Fault (String × List Char) := do
  let (cs, rest) ← textTail cs
  .ok (String.ofList cs, rest)

/-! ### Values -/

/-- The text behind the colon that follows a key. -/
def afterColon (cs : List Char) : Except Fault (List Char) :=
  match skipBlanks cs with
  | [] => .error .truncated
  | ':' :: rest => .ok rest
  | _ => .error .malformed

mutual

/-- A value, where lists and objects may nest `depth` deep. -/
def value : Nat → Nat → List Char → Except Fault (Json × List Char)
  | 0, _, _ => .error .malformed
  | fuel + 1, depth, cs =>
    match skipBlanks cs with
    | [] => .error .truncated
    | 'n' :: rest => do
      let rest ← expect ['u', 'l', 'l'] rest
      .ok (.null, rest)
    | 't' :: rest => do
      let rest ← expect ['r', 'u', 'e'] rest
      .ok (.bool true, rest)
    | 'f' :: rest => do
      let rest ← expect ['a', 'l', 's', 'e'] rest
      .ok (.bool false, rest)
    | '"' :: rest => do
      let (s, rest) ← text rest
      .ok (.string s, rest)
    | '-' :: rest => numeral true rest
    | '[' :: rest =>
      if depth = 0 then .error .malformed
      else match skipBlanks rest with
        | [] => .error .truncated
        | ']' :: rest => .ok (.array [], rest)
        | rest => do
          let (items, rest) ← items fuel (depth - 1) rest
          .ok (.array items, rest)
    | '\x7b' :: rest =>
      if depth = 0 then .error .malformed
      else match skipBlanks rest with
        | [] => .error .truncated
        | '\x7d' :: rest => .ok (.object [], rest)
        | rest => do
          let (members, rest) ← members fuel (depth - 1) rest
          .ok (.object members, rest)
    | c :: rest => if c.isDigit then numeral false (c :: rest) else .error .malformed

/-- One item of a list or more, up to the closing bracket. -/
def items : Nat → Nat → List Char → Except Fault (List Json × List Char)
  | 0, _, _ => .error .malformed
  | fuel + 1, depth, cs => do
    let (item, rest) ← value fuel depth cs
    match skipBlanks rest with
    | [] => .error .truncated
    | ']' :: rest => .ok ([item], rest)
    | ',' :: rest => do
      let (others, rest) ← items fuel depth rest
      .ok (item :: others, rest)
    | _ => .error .malformed

/-- One member of an object or more, up to the closing brace. -/
def members : Nat → Nat → List Char → Except Fault (List (String × Json) × List Char)
  | 0, _, _ => .error .malformed
  | fuel + 1, depth, cs =>
    match skipBlanks cs with
    | [] => .error .truncated
    | '"' :: rest => do
      let (key, rest) ← text rest
      let rest ← afterColon rest
      let (item, rest) ← value fuel depth rest
      match skipBlanks rest with
      | [] => .error .truncated
      | '\x7d' :: rest => .ok ([(key, item)], rest)
      | ',' :: rest => do
        let (others, rest) ← members fuel depth rest
        .ok ((key, item) :: others, rest)
      | _ => .error .malformed
    | _ => .error .malformed

end

/-- How deep lists and objects of a document may nest. -/
def maxDepth : Nat := 127

/-- The document that a text holds, with every member as it stands. Each step
into a list or an object takes a character, and each item of a list one step
more, so twice the length of the text bounds the steps. -/
def readNested (depth : Nat) (source : String) : Except Fault Json := do
  let cs := source.toList
  let (result, rest) ← value (2 * cs.length + 2) depth cs
  match skipBlanks rest with
  | [] => .ok result
  | _ => .error .malformed

/-- The document that a text holds, with every member as it stands. -/
def readRaw (source : String) : Except Fault Json := readNested maxDepth source

/-- The document that a text holds; of members with one key the last value
counts, at the first place. -/
def read (source : String) : Except Fault Json := merged <$> readRaw source

end Json
end Markup
