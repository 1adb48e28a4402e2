/-!
# Comparison operators

The six operators of a test, their symbols, and what each asks of an ordering.
-/

namespace Tripwire

/-- The operator between a field and a literal. -/
inductive Comparison where
  | eq
  | ne
  | lt
  | gt
  | le
  | ge
deriving DecidableEq, Repr

namespace Comparison

def symbol : Comparison → String
  | eq => "="
  | ne => "!="
  | lt => "<"
  | gt => ">"
  | le => "<="
  | ge => ">="

/-- The four operators that ask which side is larger. -/
def isOrdering : Comparison → Bool
  | eq => false
  | ne => false
  | lt => true
  | gt => true
  | le => true
  | ge => true

/-- Whether the operator holds of two sides that compare as given. -/
def holds : Comparison → Ordering → Bool
  | eq, ordering => ordering == .eq
  | ne, ordering => ordering != .eq
  | lt, ordering => ordering == .lt
  | gt, ordering => ordering == .gt
  | le, ordering => ordering != .gt
  | ge, ordering => ordering != .lt

end Comparison

end Tripwire
