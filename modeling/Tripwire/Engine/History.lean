import Tripwire.Engine
import Tripwire.Engine.Load

/-!
# Histories

What can be done to an engine, and what engines come of it. A request that fails leaves the
engine as it was.
-/

namespace Tripwire

/-- A request to an engine. A sensor is declared by its fields, none of which has a value. -/
inductive Request where
  | addSensor (id : SensorId) (name : Option String) (fields : List (String × FieldType))
  | addEntry (entry : SensorEntry)
  | register (entry : ConditionEntry)
  | update (sensor : SensorId) (field : String) (value : Value)
  | updateAll (sensor : SensorId) (payload : List (String × Value))
deriving DecidableEq

namespace Engine

/-- The engine after a request that may fail. -/
def orSame {α : Type} (engine : Engine) (result : Except Error α) (after : α → Engine) : Engine :=
  match result with
  | .ok done => after done
  | .error _ => engine

/-- The engine after a request. -/
def handle (engine : Engine) : Request → Engine
  | .addSensor sensor name fields =>
      engine.orSame (engine.addSensor sensor (.ofList name fields)) fun extended => extended
  | .addEntry entry => engine.orSame (engine.addEntry entry) fun extended => extended
  | .register entry => engine.orSame (engine.register entry) Prod.fst
  | .update sensor field value =>
      engine.orSame (engine.update sensor field value) Delivery.engine
  | .updateAll sensor payload =>
      engine.orSame (engine.updateAll sensor payload) Delivery.engine

/-- The engine after requests in turn. -/
def handleAll (engine : Engine) (requests : List Request) : Engine :=
  requests.foldl handle engine

/-- The engines that come of requests to an empty or a loaded one. -/
inductive Reachable : Engine → Prop where
  | empty : Reachable Engine.empty
  | load {config : Config} {engine : Engine} {report : Report}
      (loaded : Engine.load config = .ok (engine, report)) : Reachable engine
  | handle {engine : Engine} (reached : Reachable engine) (request : Request) :
      Reachable (engine.handle request)

theorem Reachable.handleAll {engine : Engine} (reached : Reachable engine)
    (requests : List Request) : Reachable (engine.handleAll requests) := by
  induction requests generalizing engine with
  | nil => exact reached
  | cons request rest ih => exact ih (reached.handle request)

end Engine

end Tripwire
