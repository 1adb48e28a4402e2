import Tripwire.Config
import Tripwire.Expr.Parser
import Tripwire.Formula.OfExpr
import Tripwire.Network

/-!
# Engines

An engine holds a network, the root node of each registered condition and the set of
conditions that are satisfied. Registering a condition either changes nothing or adds what the
condition lacks and its root. Delivering a value tells which conditions turned true or false.
-/

namespace Tripwire

/-- A condition that turned true, with what it asks for. -/
structure Fired where
  condition : ConditionId
  name : Option String
  actions : List Action
deriving DecidableEq

/-- What one or more deliveries did. -/
structure Outcome where
  fired : List Fired
  cleared : List ConditionId
  comparisons : Nat
  changed : Nat
deriving DecidableEq

namespace Outcome

def empty : Outcome := ⟨[], [], 0, 0⟩

/-- Nothing fired, nothing cleared and no test changed. -/
def isQuiet (outcome : Outcome) : Bool :=
  outcome.fired.isEmpty && outcome.cleared.isEmpty && outcome.changed == 0

/-- What two deliveries did in turn. -/
def merge (first second : Outcome) : Outcome where
  fired := first.fired ++ second.fired
  cleared := first.cleared ++ second.cleared
  comparisons := first.comparisons + second.comparisons
  changed := first.changed + second.changed

end Outcome

/-- Sensors, graph, the roots of conditions, the satisfied ones, and the next free id. -/
structure Engine extends Network where
  roots : Table ConditionId NodeId
  satisfied : Table ConditionId Unit
  nextId : ConditionId
deriving DecidableEq

/-- An engine after deliveries, with what they did and the errors met, in their order. -/
structure Delivery where
  engine : Engine
  outcome : Outcome
  errors : List Error
deriving DecidableEq

namespace Engine

def empty : Engine :=
  { sensors := .empty, graph := .empty, roots := .empty, satisfied := .empty, nextId := 0 }

def isSatisfied (engine : Engine) (condition : ConditionId) : Bool :=
  engine.satisfied.contains condition

/-- The root of a registered condition. -/
def root? (engine : Engine) (condition : ConditionId) : Option Root := do
  let id ← engine.roots.get? condition
  let node ← engine.graph.node? id
  node.root?

/-- The canonical text of a registered condition. -/
def print? (engine : Engine) (condition : ConditionId) : Option String :=
  (engine.roots.get? condition).map engine.graph.print

/-- Registers a sensor under an id that no other has. -/
def addSensor (engine : Engine) (id : SensorId) (sensor : Sensor) : Except Error Engine :=
  if engine.sensors.contains id then .error (.duplicateSensor id)
  else .ok { engine with sensors := engine.sensors.insert id sensor }

/-- The formula of a condition's text, given the registered sensors. -/
def check (engine : Engine) (expression : String) : Except Error Formula := do
  let expr ← Expr.parse expression
  Formula.ofExpr engine.sensors expr

/-- Adds a checked condition. One that holds from the start is satisfied without firing. -/
def enroll (engine : Engine) (id : ConditionId) (entry : ConditionEntry) (formula : Formula) :
    Engine :=
  let (network, child) := engine.toNetwork.wire formula
  let (graph, node) := network.graph.addRoot ⟨id, entry.name, child, entry.actions⟩
  { sensors := network.sensors
    graph
    roots := engine.roots.insert id node
    satisfied :=
      if graph.status node then engine.satisfied.insert id () else engine.satisfied
    nextId := max engine.nextId (ConditionId.next id) }

/-- Registers a condition, if its id is free and its text is a formula. -/
def register (engine : Engine) (entry : ConditionEntry) : Except Error (Engine × ConditionId) :=
  let id := entry.id.getD engine.nextId
  if engine.roots.contains id then .error (.duplicateCondition id)
  else (engine.check entry.expression).map fun formula => (engine.enroll id entry formula, id)

/-- The satisfied conditions after a root's change. -/
def follow (satisfied : Table ConditionId Unit) (transition : Transition) :
    Table ConditionId Unit :=
  if transition.rising then satisfied.insert transition.root.condition ()
  else satisfied.erase transition.root.condition

/-- What a delivery's effect means for conditions. -/
def outcomeOf (effect : Network.Effect) : Outcome where
  fired := (effect.transitions.filter (·.rising)).map fun transition =>
    ⟨transition.root.condition, transition.root.name, transition.root.actions⟩
  cleared := (effect.transitions.filter (!·.rising)).map (·.root.condition)
  comparisons := effect.comparisons
  changed := effect.changed

/-- Delivers a value to a field of a registered sensor. -/
def deliver (engine : Engine) (sensor : SensorId) (field : String) (value : Value) :
    Delivery :=
  let (network, effect) := engine.toNetwork.deliver sensor field value
  { engine :=
      { engine with
        toNetwork := network
        satisfied := effect.transitions.foldl follow engine.satisfied }
    outcome := outcomeOf effect
    errors := effect.errors }

/-- Delivers a value, if the sensor is registered. -/
def update (engine : Engine) (sensor : SensorId) (field : String) (value : Value) :
    Except Error Delivery :=
  if engine.sensors.contains sensor then .ok (engine.deliver sensor field value)
  else .error (.unknownSensor sensor)

/-- Delivers one more value of a payload. -/
def deliverNext (sensor : SensorId) (done : Delivery) (item : String × Value) : Delivery :=
  let next := done.engine.deliver sensor item.1 item.2
  ⟨next.engine, done.outcome.merge next.outcome, done.errors ++ next.errors⟩

/-- Delivers the values of a payload in turn, if the sensor is registered. -/
def updateAll (engine : Engine) (sensor : SensorId) (payload : List (String × Value)) :
    Except Error Delivery :=
  if engine.sensors.contains sensor then
    .ok (payload.foldl (deliverNext sensor) ⟨engine, .empty, []⟩)
  else .error (.unknownSensor sensor)

end Engine

end Tripwire
