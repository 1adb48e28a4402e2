import Tripwire.Number.Shortest

/-!
# Layouts of decimals

A positional layout writes every place of a decimal, a scientific one its digits with a point
after the first and an exponent. A style says which layout a number gets.
-/

namespace Tripwire.Number

namespace Decimal

/-- The exponent of the first digit. -/
def leadingExponent (decimal : Decimal) : Int :=
  ((Nat.toDigits 10 decimal.digits).length : Int) + decimal.exponent - 1

/-- Every place of a decimal, with a point only where places follow it. -/
def positional (decimal : Decimal) : List Char :=
  let digits := Nat.toDigits 10 decimal.digits
  match decimal.exponent with
  | .ofNat zeros => digits ++ List.replicate zeros '0'
  | .negSucc below =>
      let places := below + 1
      if places < digits.length then
        digits.take (digits.length - places) ++ '.' :: digits.drop (digits.length - places)
      else '0' :: '.' :: (List.replicate (places - digits.length) '0' ++ digits)

/-- The first digit, the others after a point, and the exponent with its sign. -/
def scientific (decimal : Decimal) : List Char :=
  let mantissa :=
    match Nat.toDigits 10 decimal.digits with
    | first :: second :: rest => first :: '.' :: second :: rest
    | digits => digits
  let exponent :=
    match decimal.leadingExponent with
    | .ofNat number => '+' :: Nat.toDigits 10 number
    | .negSucc number => '-' :: Nat.toDigits 10 (number + 1)
  mantissa ++ 'e' :: exponent

end Decimal

/-- How finite numbers are written. -/
structure Style where
  tie : Tie
  /-- Whether whole numbers end in a point and a zero. -/
  keepsPoint : Bool
  /-- The exponents of first digits that are written positionally, or all of them. -/
  positional : Option (Int × Int)
deriving DecidableEq, Repr

namespace Style

def isPositional (style : Style) (exponent : Int) : Bool :=
  match style.positional with
  | none => true
  | some (least, greatest) => least ≤ exponent && exponent ≤ greatest

/-- The text of a decimal. -/
def decimal (style : Style) (number : Decimal) : List Char :=
  if style.isPositional number.leadingExponent then
    let text := number.positional
    if style.keepsPoint && !text.contains '.' then text ++ ['.', '0'] else text
  else number.scientific

end Style

namespace Binary

variable {format : Format}

/-- The text of a finite number, with a minus sign on every negative one, zero included. -/
def finiteText (style : Style) (number : Binary format) : List Char :=
  let text := style.decimal (Decimal.shortest format style.tie number.pattern)
  if number.negative then '-' :: text else text

end Binary

end Tripwire.Number
