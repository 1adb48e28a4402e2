import Tripwire.Number.Decimal

/-!
# Shortest digits

The decimal that a finite magnitude is printed as has the fewest digits that read back as the
same pattern and, of those, is nearest to the magnitude. On each grid of decimals only the
two neighbours of the magnitude can read back if any point of the grid does.
-/

namespace Tripwire.Number

/-- Which of two equally near decimals is taken. -/
inductive Tie where
  | up
  | even
deriving DecidableEq, Repr

namespace Tie

def takesUpper (tie : Tie) (lower : Nat) : Bool :=
  match tie with
  | up => true
  | even => lower % 2 == 1

end Tie

namespace Decimal

/-- How many places the first digit of a quotient stands before the point; no place or fewer
for a quotient below one. -/
def leadingPlace (dividend divisor : Nat) : Int :=
  if divisor ≤ dividend then ((Nat.toDigits 10 (dividend / divisor)).length : Int)
  else 1 - ((Nat.toDigits 10 ((divisor - 1) / dividend)).length : Int)

/-- A quotient divided by a power of ten, again as dividend and divisor. -/
def scaleDown (dividend divisor : Nat) : Int → Nat × Nat
  | .ofNat places => (dividend, divisor * Nat.pow 10 places)
  | .negSucc places => (dividend * Nat.pow 10 (places + 1), divisor)

/-- The neighbour of a magnitude on the grid of decimals with so many digits that reads back
as its pattern and, if both do, is nearer. -/
def onGrid? (format : Format) (tie : Tie) (pattern count : Nat) : Option Decimal :=
  let units := format.units pattern
  let place := leadingPlace units format.unitsPerOne
  let exponent := place - (count : Int)
  let (dividend, divisor) := scaleDown units format.unitsPerOne exponent
  let floor := dividend / divisor
  let twice := 2 * (dividend % divisor)
  let lower : Decimal := ⟨floor, exponent⟩
  let upper : Decimal :=
    if floor + 1 = Nat.pow 10 count then ⟨1, place⟩ else ⟨floor + 1, exponent⟩
  let upperIsNearer := divisor < twice || (divisor == twice && tie.takesUpper floor)
  match lower.round format == pattern, upper.round format == pattern with
  | true, true => some (if upperIsNearer then upper else lower)
  | true, false => some lower
  | false, true => some upper
  | false, false => none

/-- All digits of a magnitude. -/
def exact (format : Format) (pattern : Nat) : Decimal :=
  let places := format.unitsPerOne.log2
  ⟨format.units pattern * Nat.pow 5 places, -(places : Int)⟩

/-- No magnitude of the format needs more digits than this. -/
def digitLimit (format : Format) : Nat :=
  format.fractionBits / 3 + 2

/-- The shortest decimal of a finite magnitude. -/
def shortest (format : Format) (tie : Tie) (pattern : Nat) : Decimal :=
  if pattern = 0 then ⟨0, 0⟩
  else
    let counts := (List.range (digitLimit format)).map (· + 1)
    (counts.findSome? (onGrid? format tie pattern)).getD (exact format pattern)

end Decimal

end Tripwire.Number
