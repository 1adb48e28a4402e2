import Tripwire.Token

/-!
# Expressions

A condition is a tree: groups join their members, and every leaf tests a field of the
sensor whose scope it stands in. Literals are still text, since only the declaration of the
field says how to read them.
-/

namespace Tripwire

/-- A literal as written; a quoted one's text is what its escapes stand for. -/
structure Literal where
  text : String
  quoted : Bool
  span : Span
deriving DecidableEq, Repr

/-- A leaf as written, with the sensor of its innermost scope. -/
structure WrittenTest where
  sensor : SensorId
  operator : Comparison
  field : String
  fieldSpan : Span
  literal : Literal
  span : Span
deriving DecidableEq, Repr

/-- A condition as written. A span runs from the first operator to the closing parenthesis. -/
inductive Expr where
  | test (test : WrittenTest)
  | group (junction : Junction) (members : List Expr) (span : Span)

namespace Expr

def span : Expr → Span
  | test leaf => leaf.span
  | group _ _ span => span

mutual

/-- The leaves from left to right. -/
def tests : Expr → List WrittenTest
  | test leaf => [leaf]
  | group _ members _ => testsOfMembers members

/-- The leaves of all members from left to right. -/
def testsOfMembers : List Expr → List WrittenTest
  | [] => []
  | first :: rest => first.tests ++ testsOfMembers rest

end

end Expr

end Tripwire
