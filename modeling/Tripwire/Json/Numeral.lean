import Tripwire.Json
import Tripwire.Number.Decimal

/-!
# JSON numbers

A literal without point and exponent is an integer if it fits sixty-four bits. Every other
literal is a double, minus zero too. Where a float is asked for, an integer will do; where an
integer is asked for, a double will not, even if it is whole.

Doubles are read in the documented default way, which is fast and not always exact: the first digits
make a word of sixty-four bits, which is rounded and then multiplied or divided by a rounded power
of ten, so that the last bit may differ from that of the nearest double. A double out of range is a
fault, and one too small is zero.
-/

namespace Tripwire.Json

open Tripwire.Number (Format Binary Decimal)

/-- The parts of a number's literal. -/
structure Numeral where
  negative : Bool
  whole : List Char
  fraction : Option (List Char)
  exponent : Option Int
deriving DecidableEq, Repr

namespace Numeral

/-- Reads the exponent that ends a literal, or nothing. -/
def readExponent? : List Char → Option (Option Int)
  | [] => some none
  | 'e' :: rest => (Decimal.exponent? rest).map some
  | 'E' :: rest => (Decimal.exponent? rest).map some
  | _ => none

/-- Reads a fraction and an exponent; a point stands only before a digit. -/
def readFraction? : List Char → Option (Option (List Char) × Option Int)
  | '.' :: rest =>
      let digits := rest.takeWhile Char.isDigit
      if digits.isEmpty then none
      else (readExponent? (rest.dropWhile Char.isDigit)).map (some digits, ·)
  | letters => (readExponent? letters).map (none, ·)

/-- Reads a literal without its sign; a zero in front stands alone before the point. -/
def readMagnitude? (negative : Bool) (letters : List Char) : Option Numeral :=
  match letters.takeWhile Char.isDigit with
  | [] => none
  | '0' :: _ :: _ => none
  | whole =>
      (readFraction? (letters.dropWhile Char.isDigit)).map fun (fraction, exponent) =>
        ⟨negative, whole, fraction, exponent⟩

/-- The parts of a literal, if it is one. -/
def ofLetters? : List Char → Option Numeral
  | '-' :: rest => readMagnitude? true rest
  | letters => readMagnitude? false letters

/-- Takes in digits while the number fits sixty-four bits, and keeps the others. -/
def gather : Nat → List Char → Nat × List Char
  | total, [] => (total, [])
  | total, digit :: rest =>
      let next := total * 10 + (digit.toNat - 48)
      if next < Nat.pow 2 64 then gather next rest else (total, digit :: rest)

/-- The integer of a numeral, if it is one that fits sixty-four bits. -/
def integer? (numeral : Numeral) : Option Int :=
  match numeral.fraction, numeral.exponent, gather 0 numeral.whole with
  | none, none, (magnitude, []) =>
      if numeral.negative then
        if 0 < magnitude && magnitude ≤ Nat.pow 2 63 then some (-(magnitude : Int)) else none
      else some (magnitude : Int)
  | _, _, _ => none

/-- The largest power of ten that is multiplied or divided by at once. -/
def stride : Nat := 308

/-- The pattern of a power of ten. -/
def powerOfTen (places : Nat) : Nat :=
  Format.double.round (Nat.pow 10 places) 1

/-- The rounded product of a pattern and a power of ten. -/
def timesPower (pattern places : Nat) : Nat :=
  let units := Format.double.units
  let one := Format.double.unitsPerOne
  Format.double.round (units pattern * units (powerOfTen places)) (one * one)

/-- The rounded quotient of a pattern and a power of ten. -/
def overPower (pattern places : Nat) : Nat :=
  let units := Format.double.units
  Format.double.round (units pattern) (units (powerOfTen places))

/-- Multiplies by a power of ten, unless the product is out of range. -/
def scaleUp? (pattern places : Nat) : Option Nat :=
  if places ≤ stride then
    let product := timesPower pattern places
    if product = Format.double.infinity then none else some product
  else if pattern = 0 then some 0
  else none

/-- Divides by a power of ten, by one stride at a time until the rest is within one. -/
def scaleDown : (strides : Nat) → (pattern places : Nat) → Nat
  | 0, pattern, places => overPower pattern places
  | strides + 1, pattern, places =>
      if places ≤ stride then overPower pattern places
      else if pattern = 0 then 0
      else scaleDown strides (overPower pattern stride) (places - stride)

/-- The double of a numeral, unless it is out of range. -/
def double? (numeral : Numeral) : Option Number.Double :=
  let (head, unread) := gather 0 numeral.whole
  let fraction := numeral.fraction.getD []
  let (significand, unused) := gather head fraction
  let exponent := (unread.length : Int) - ((fraction.length - unused.length : Nat) : Int) +
    numeral.exponent.getD 0
  let pattern := Format.double.round significand 1
  let scaled? :=
    match exponent with
    | .ofNat places => scaleUp? pattern places
    | .negSucc below => some (scaleDown ((below + 1) / stride) pattern (below + 1))
  scaled?.map (Binary.ofPattern numeral.negative)

/-- The number of a format that a numeral stands for: an integer is rounded once, a double
once more. -/
def binary? (format : Format) (numeral : Numeral) : Option (Binary format) :=
  match numeral.integer? with
  | some integer => some (Binary.ofInt integer)
  | none => numeral.double?.map (Binary.convert format)

end Numeral

/-- The integer that a value is, if it is one. -/
def integer? : Json → Option Int
  | number literal => (Numeral.ofLetters? literal).bind Numeral.integer?
  | _ => none

/-- The natural number of at most `width` bits that a value is. -/
def natural? (width : Nat) (json : Json) : Option Nat :=
  match json.integer? with
  | some (.ofNat natural) => if natural < Nat.pow 2 width then some natural else none
  | _ => none

/-- The integer of at most `width` bits with sign that a value is. -/
def signed? (width : Nat) (json : Json) : Option Int :=
  json.integer?.filter fun integer =>
    -(Nat.pow 2 (width - 1) : Int) ≤ integer && integer < (Nat.pow 2 (width - 1) : Int)

/-- The number of a format that a value is. -/
def binary? (format : Format) : Json → Option (Binary format)
  | number literal => (Numeral.ofLetters? literal).bind (Numeral.binary? format)
  | _ => none

end Tripwire.Json
