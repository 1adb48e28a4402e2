import Tripwire.Number.Binary
import Tripwire.Number.Integer

/-!
# Decimals

A decimal is digits times a power of ten. A decimal text is digits with at most one point
among or around them and perhaps an exponent; it is rounded to a binary format once.
-/

namespace Tripwire.Number

/-- The number `digits * 10 ^ exponent`. -/
structure Decimal where
  digits : Nat
  exponent : Int
deriving DecidableEq, Repr

namespace Decimal

/-- The pattern nearest to a decimal. Powers of ten out of reach of the format are not
computed: above its reach all is infinite, and below it all is zero. -/
def round (format : Format) (decimal : Decimal) : Nat :=
  let reach := format.exponentSize
  if decimal.digits = 0 then 0
  else if (reach : Int) < decimal.exponent then format.infinity
  else if decimal.exponent < -((reach + decimal.digits.log2 : Nat) : Int) then 0
  else
    match decimal.exponent with
    | .ofNat places => format.round (decimal.digits * Nat.pow 10 places) 1
    | .negSucc places => format.round decimal.digits (Nat.pow 10 (places + 1))

/-- Reads an exponent with a sign or none. -/
def exponent? : List Char → Option Int
  | '+' :: rest => (natural? 10 rest).map fun number => (number : Int)
  | '-' :: rest => (natural? 10 rest).map fun number => -(number : Int)
  | letters => (natural? 10 letters).map fun number => (number : Int)

/-- Reads what follows the last digit before the exponent. -/
def suffix? : List Char → Option Int
  | [] => some 0
  | 'e' :: rest => exponent? rest
  | 'E' :: rest => exponent? rest
  | _ => none

/-- The digits after a leading point, and what follows them. -/
def splitFraction : List Char → List Char × List Char
  | '.' :: rest => (rest.takeWhile Char.isDigit, rest.dropWhile Char.isDigit)
  | letters => ([], letters)

/-- Reads a decimal without a sign. At least one digit stands before or after the point. -/
def read? (letters : List Char) : Option Decimal := do
  let whole := letters.takeWhile Char.isDigit
  let (fraction, rest) := splitFraction (letters.dropWhile Char.isDigit)
  let digits ← natural? 10 (whole ++ fraction)
  let exponent ← suffix? rest
  return ⟨digits, exponent - (fraction.length : Int)⟩

end Decimal

namespace Binary

/-- Reads a magnitude: a decimal, or a name of infinity or of no number in any case. -/
def readMagnitude? (format : Format) (letters : List Char) : Option Nat :=
  match String.ofList (letters.map Char.toLower) with
  | "inf" => some format.infinity
  | "infinity" => some format.infinity
  | "nan" => some format.quietNan
  | _ => (Decimal.read? letters).map (Decimal.round format)

/-- Reads a number with a sign or none. -/
def read? (format : Format) (letters : List Char) : Option (Binary format) :=
  match letters with
  | '+' :: rest => (readMagnitude? format rest).map (ofPattern false)
  | '-' :: rest => (readMagnitude? format rest).map (ofPattern true)
  | _ => (readMagnitude? format letters).map (ofPattern false)

end Binary

end Tripwire.Number
