/-!
# Binary floating point

A binary format is given by the widths of its exponent and its fraction. A number of the
format is its sign and the pattern of all bits below the sign: patterns in increasing order
are magnitudes in increasing order, then infinity, then the patterns that are no number.
Every finite magnitude is a whole number of units, the least positive magnitude; rounding
goes to the nearest magnitude and from a tie to the even pattern.
-/

namespace Tripwire.Number

/-- The widths of the two fields below the sign bit. -/
structure Format where
  exponentBits : Nat
  fractionBits : Nat
deriving DecidableEq, Repr

namespace Format

/-- The format of thirty-two bits. -/
def single : Format := ⟨8, 23⟩

/-- The format of sixty-four bits. -/
def double : Format := ⟨11, 52⟩

/-- How many patterns the exponent field has. -/
def exponentSize (format : Format) : Nat :=
  Nat.pow 2 format.exponentBits

/-- How many patterns the fraction field has. -/
def fractionSize (format : Format) : Nat :=
  Nat.pow 2 format.fractionBits

/-- How many patterns there are below the sign. -/
def size (format : Format) : Nat :=
  format.exponentSize * format.fractionSize

theorem size_pos (format : Format) : 0 < format.size :=
  Nat.mul_pos (Nat.two_pow_pos format.exponentBits) (Nat.two_pow_pos format.fractionBits)

/-- The pattern of infinity: the exponent field all ones, the fraction zero. -/
def infinity (format : Format) : Nat :=
  (format.exponentSize - 1) * format.fractionSize

/-- The pattern that operations without a numeric result give. -/
def quietNan (format : Format) : Nat :=
  format.infinity + format.fractionSize / 2

/-- How many units make one. -/
def unitsPerOne (format : Format) : Nat :=
  Nat.pow 2 (format.exponentSize / 2 + format.fractionBits - 2)

/-- How many units the magnitude with a finite pattern is. -/
def units (format : Format) (pattern : Nat) : Nat :=
  let fraction := pattern % format.fractionSize
  match pattern / format.fractionSize with
  | 0 => fraction
  | exponent + 1 => (format.fractionSize + fraction) * Nat.pow 2 exponent

/-- The whole number nearest to a quotient, the even one of two that are equally near. -/
def divideToNearest (dividend divisor : Nat) : Nat :=
  let quotient := dividend / divisor
  let twice := 2 * (dividend % divisor)
  if twice < divisor || (twice == divisor && quotient % 2 == 0) then quotient
  else quotient + 1

/-- The pattern of the magnitude nearest to a quotient. -/
def round (format : Format) (dividend divisor : Nat) : Nat :=
  let scaled := dividend * format.unitsPerOne
  let shift := (scaled / divisor).log2 - format.fractionBits
  let significand := divideToNearest scaled (divisor * Nat.pow 2 shift)
  min (shift * format.fractionSize + significand) format.infinity

theorem round_le_infinity (format : Format) (dividend divisor : Nat) :
    format.round dividend divisor ≤ format.infinity :=
  Nat.min_le_right _ _

end Format

/-- A number of a binary format. -/
structure Binary (format : Format) where
  negative : Bool
  pattern : Nat
  pattern_lt : pattern < format.size
deriving DecidableEq

/-- A number of thirty-two bits. -/
abbrev Single := Binary .single

/-- A number of sixty-four bits. -/
abbrev Double := Binary .double

namespace Binary

variable {format : Format}

/-- The number with a sign and the low bits of a pattern. -/
def ofPattern (negative : Bool) (pattern : Nat) : Binary format :=
  ⟨negative, pattern % format.size, Nat.mod_lt _ format.size_pos⟩

/-- The number whose bits, the sign first, are those of a word. -/
def ofBits (bits : Nat) : Binary format :=
  ofPattern (bits / format.size % 2 == 1) bits

/-- The bits of a number as a word, the sign first. -/
def toBits (number : Binary format) : Nat :=
  (if number.negative then format.size else 0) + number.pattern

def isNan (number : Binary format) : Bool :=
  format.infinity < number.pattern

def isInfinite (number : Binary format) : Bool :=
  number.pattern == format.infinity

def isFinite (number : Binary format) : Bool :=
  number.pattern < format.infinity

/-- Numbers are ordered as these keys are; both zeros have the key zero. -/
def key? (number : Binary format) : Option Int :=
  if number.isNan then none
  else if number.negative then some (-(number.pattern : Int))
  else some (number.pattern : Int)

/-- How two numbers compare, unless one of the two is no number. -/
def compare? (first second : Binary format) : Option Ordering :=
  match first.key?, second.key? with
  | some key, some other => some (compare key other)
  | _, _ => none

/-- The nearest number of another format. -/
def convert (target : Format) (number : Binary format) : Binary target :=
  if number.isNan then ofPattern number.negative target.quietNan
  else if number.isInfinite then ofPattern number.negative target.infinity
  else ofPattern number.negative (target.round (format.units number.pattern) format.unitsPerOne)

/-- The number nearest to an integer. -/
def ofInt (integer : Int) : Binary format :=
  ofPattern (integer < 0) (format.round integer.natAbs 1)

end Binary

end Tripwire.Number
