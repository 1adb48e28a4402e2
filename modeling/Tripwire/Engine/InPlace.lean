import Tripwire.Engine

/-!
# Registering in place

Registration as work on an engine that keeps whatever was done to it before an error. All that can
fail comes first and only reads; adding what the condition lacks comes after and cannot fail.
-/

namespace Tripwire.Engine

/-- Work on an engine in place, which may fail midway. -/
abbrev Work := EStateM Error Engine

namespace Work

/-- The id that a condition is to have and the formula of its text. -/
def check (entry : ConditionEntry) : Work (ConditionId × Formula) := do
  let id := entry.id.getD (← get).nextId
  if (← get).roots.contains id then throw (.duplicateCondition id)
  let expr ← MonadExcept.ofExcept (Expr.parse entry.expression)
  let formula ← MonadExcept.ofExcept (Formula.ofExpr (← get).sensors expr)
  return (id, formula)

/-- Adds the nodes that a checked condition lacks, its root and all that goes with it. -/
def enroll (id : ConditionId) (entry : ConditionEntry) (formula : Formula) : Work Unit := do
  let child ← modifyGet fun engine =>
    let (network, child) := engine.toNetwork.wire formula
    (child, { engine with toNetwork := network })
  let node ← modifyGet fun engine =>
    let (graph, node) := engine.graph.addRoot ⟨id, entry.name, child, entry.actions⟩
    (node, { engine with graph })
  modify fun engine => { engine with roots := engine.roots.insert id node }
  modify fun engine => { engine with nextId := max engine.nextId (ConditionId.next id) }
  if (← get).graph.status node then
    modify fun engine => { engine with satisfied := engine.satisfied.insert id () }

/-- Registers a condition. -/
def register (entry : ConditionEntry) : Work ConditionId := do
  let (id, formula) ← check entry
  enroll id entry formula
  return id

end Work

end Tripwire.Engine
