import Tripwire.Comparison
import Tripwire.FieldType
import Tripwire.Number.Binary
import Tripwire.Text.Utf8

/-!
# Values

A value carries its type, and values of different types never compare. Equality of values as
data tells any two bit patterns of a float apart; a comparison does not tell the zeros apart
and finds no order beside a pattern that is no number.
-/

namespace Tripwire

/-- A decoded field value. -/
inductive Value where
  | unsigned (number : UInt64)
  | signed (number : Int64)
  | float (number : Number.Single)
  | double (number : Number.Double)
  | text (text : String)
  | boolean (truth : Bool)
  | bits (word : UInt64)
deriving DecidableEq

namespace Value

def type : Value → FieldType
  | unsigned _ => .unsigned
  | signed _ => .signed
  | float _ => .float
  | double _ => .double
  | text _ => .text
  | boolean _ => .boolean
  | bits _ => .bits

/-- How two values of one type compare, unless one of the two is no number. -/
def ordering? : Value → Value → Option Ordering
  | unsigned first, unsigned second => some (compare first second)
  | signed first, signed second => some (compare first second)
  | float first, float second => first.compare? second
  | double first, double second => first.compare? second
  | text first, text second => some (Text.compareBytes first second)
  | boolean first, boolean second => some (compare first second)
  | bits first, bits second => some (compare first second)
  | _, _ => none

/-- Whether a value stands in a relation to a literal. Values of different types stand in
none, truth values are not ordered, and of two floats without an order only the inequality
holds. -/
def compare? (operator : Comparison) (value literal : Value) : Option Bool :=
  if value.type ≠ literal.type then none
  else if operator.isOrdering && value.type = .boolean then none
  else
    match value.ordering? literal with
    | some ordering => some (operator.holds ordering)
    | none => some (operator == .ne)

/-- Whether two values are of one type and compare as equal. -/
def equals (first second : Value) : Bool :=
  first.ordering? second == some .eq

end Value

end Tripwire
