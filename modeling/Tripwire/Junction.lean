/-!
# Junctions

A group holds when all of its members do, or when at least one does. Which of the two
is the group's junction; the status of a group is read off a count of its members.
-/

namespace Tripwire

/-- How a group joins its members. -/
inductive Junction where
  | all
  | any
deriving DecidableEq, Repr

namespace Junction

def symbol : Junction → String
  | all => "&"
  | any => "|"

/-- The status of a group of `size` members of which `holding` hold. -/
def status : Junction → (holding size : Nat) → Bool
  | all, holding, size => holding == size
  | any, holding, _ => 0 < holding

end Junction

end Tripwire
