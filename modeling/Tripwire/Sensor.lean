import Tripwire.Error
import Tripwire.Table
import Tripwire.Value

/-!
# Sensors

A sensor is a source of values for its declared fields. A field keeps the latest value that
was delivered to it, of whatever type, and the nodes that watch it.
-/

namespace Tripwire

/-- Identifies a node of the graph: its place in the order of creation. -/
abbrev NodeId := Nat

/-- A declared field. -/
structure Field where
  type : FieldType
  value : Option Value
  watchers : List NodeId
deriving DecidableEq

namespace Field

/-- A field to which nothing was delivered and which nothing watches. -/
def ofType (type : FieldType) : Field :=
  ⟨type, none, []⟩

/-- Adds a watcher, once. -/
def watch (field : Field) (node : NodeId) : Field :=
  if field.watchers.contains node then field
  else { field with watchers := field.watchers ++ [node] }

end Field

/-- A source of values. -/
structure Sensor where
  name : Option String
  fields : Table String Field
deriving DecidableEq

namespace Sensor

/-- Declares a field afresh, whatever it was declared as. -/
def declare (sensor : Sensor) (name : String) (type : FieldType) : Sensor :=
  { sensor with fields := sensor.fields.insert name (.ofType type) }

/-- The sensor with declared fields, of which a later one replaces an earlier of its name. -/
def ofList (name : Option String) (fields : List (String × FieldType)) : Sensor :=
  fields.foldl (fun sensor field => sensor.declare field.1 field.2) ⟨name, .empty⟩

end Sensor

/-- All registered sensors. -/
abbrev Sensors := Table SensorId Sensor

namespace Sensors

/-- A field of a registered sensor. -/
def field? (sensors : Sensors) (sensor : SensorId) (field : String) : Option Field :=
  (sensors.get? sensor).bind fun found => found.fields.get? field

/-- Changes a field of a registered sensor. -/
def modifyField (sensors : Sensors) (sensor : SensorId) (field : String)
    (change : Field → Field) : Sensors :=
  sensors.modify sensor fun found =>
    { found with fields := found.fields.modify field change }

end Sensors

end Tripwire
