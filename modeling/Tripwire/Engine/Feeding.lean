import Tripwire.Engine

/-!
# Delivering in place

Delivery as work on an engine and the errors reported so far, which keeps whatever was done to both
before a failure. A payload asks for its sensor once, and each of its values asks again, so that it
could be left half-way.
-/

namespace Tripwire.Engine

/-- An engine with the errors that deliveries to it have reported, the first one first. -/
structure Intake where
  engine : Engine
  reported : List Error
deriving DecidableEq

/-- Work on an engine in place that reports errors and may fail midway. -/
abbrev Feed := EStateM Error Intake

namespace Feed

/-- Fails unless a sensor is registered. -/
def require (sensor : SensorId) : Feed Unit := do
  if !(← get).engine.sensors.contains sensor then throw (.unknownSensor sensor)

/-- Delivers a value, if the sensor is registered. -/
def update (sensor : SensorId) (field : String) (value : Value) : Feed Outcome := do
  require sensor
  modifyGet fun intake =>
    let delivery := intake.engine.deliver sensor field value
    (delivery.outcome, ⟨delivery.engine, intake.reported ++ delivery.errors⟩)

/-- Delivers the values of a payload in turn, up to the first that fails. -/
def updateAll (sensor : SensorId) (payload : List (String × Value)) : Feed Outcome := do
  require sensor
  payload.foldlM (fun total item => return total.merge (← update sensor item.1 item.2)) .empty

end Feed

end Tripwire.Engine
