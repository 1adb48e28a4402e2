import Tripwire.Expr

/-!
# Visiting the leaves

The leaves of an expression are collected with a stack of the expressions still to be visited, and
without recursion however deep it is. A group leaves its members on top of the stack, the first of
them topmost, so that the leaves come as they stand in the text.
-/

namespace Tripwire.Expr

mutual

/-- How many expressions there are in an expression. -/
def nodes : Expr → Nat
  | test _ => 1
  | group _ members _ => nodesOfMembers members + 1

def nodesOfMembers : List Expr → Nat
  | [] => 0
  | first :: rest => first.nodes + nodesOfMembers rest

end

theorem nodesOfMembers_append (first second : List Expr) :
    nodesOfMembers (first ++ second) = nodesOfMembers first + nodesOfMembers second := by
  induction first with
  | nil => exact (Nat.zero_add _).symm
  | cons expr rest ih =>
      rw [List.cons_append, nodesOfMembers, ih, nodesOfMembers, Nat.add_assoc]

/-- The leaves that are met until the stack, whose top is its first expression, is empty. -/
def visit : List Expr → List WrittenTest
  | [] => []
  | test leaf :: stack => leaf :: visit stack
  | group _ members _ :: stack => visit (members ++ stack)
termination_by stack => nodesOfMembers stack
decreasing_by
  · rw [nodesOfMembers, nodes]
    omega
  · rw [nodesOfMembers_append, nodesOfMembers, nodes]
    omega

theorem testsOfMembers_eq_flatMap (members : List Expr) :
    testsOfMembers members = members.flatMap tests := by
  induction members with
  | nil => rfl
  | cons first rest ih => rw [testsOfMembers, ih, List.flatMap_cons]

theorem visit_eq_flatMap (stack : List Expr) : visit stack = stack.flatMap tests := by
  fun_induction visit stack with
  | case1 => rfl
  | case2 leaf stack ih => rw [ih, List.flatMap_cons, tests, List.singleton_append]
  | case3 junction members span stack ih =>
      rw [ih, List.flatMap_append, List.flatMap_cons, tests, testsOfMembers_eq_flatMap]

/-- What the stack visits are the leaves from left to right. -/
theorem visit_singleton (expr : Expr) : visit [expr] = expr.tests := by
  rw [visit_eq_flatMap, List.flatMap_singleton]

end Tripwire.Expr
