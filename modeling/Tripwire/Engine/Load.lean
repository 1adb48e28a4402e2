import Tripwire.Engine

/-!
# Loading configurations

A faulty sensor entry is fatal. A faulty condition is rejected with its error, and the other
conditions are registered as if it were not there. Conditions without an id are given ids
above all those that the configuration gives.
-/

namespace Tripwire

/-- A condition that was not registered, and why. -/
structure Rejection where
  id : Option ConditionId
  name : Option String
  expression : String
  error : Error
deriving DecidableEq

/-- What became of a configuration: how many sensors it declares, and its conditions. -/
structure Report where
  sensors : Nat
  loaded : List ConditionId
  rejected : List Rejection
deriving DecidableEq

namespace Engine

/-- Registers the sensor of an entry. -/
def addEntry (engine : Engine) (entry : SensorEntry) : Except Error Engine := do
  let sensor ← entry.sensor
  engine.addSensor entry.id sensor

/-- Registers conditions in turn, keeping apart the ids of those registered and the others. -/
def registerAll (engine : Engine) :
    List ConditionEntry → Engine × List ConditionId × List Rejection
  | [] => (engine, [], [])
  | entry :: rest =>
      match engine.register entry with
      | .ok (extended, id) =>
          let (done, loaded, rejected) := registerAll extended rest
          (done, id :: loaded, rejected)
      | .error error =>
          let (done, loaded, rejected) := registerAll engine rest
          (done, loaded, ⟨entry.id, entry.name, entry.expression, error⟩ :: rejected)

/-- The engine of a configuration, and what became of its conditions. -/
def load (config : Config) : Except Error (Engine × Report) := do
  let declared ← config.sensors.foldlM addEntry empty
  let numbered := { declared with nextId := config.firstFreeId }
  let (engine, loaded, rejected) := numbered.registerAll config.conditions
  return (engine, ⟨config.sensors.length, loaded, rejected⟩)

end Engine

end Tripwire
