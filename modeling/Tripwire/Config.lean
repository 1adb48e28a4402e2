import Tripwire.Action
import Tripwire.Sensor

/-!
# Configurations

What an engine is built from: the declared sensors and the texts of its conditions with what
they ask for.
-/

namespace Tripwire

/-- A declared sensor with its fields in the order of their declaration. -/
structure SensorEntry where
  id : SensorId
  name : Option String
  fields : List (String × FieldType)
deriving DecidableEq

namespace SensorEntry

/-- Declares one more field, which must not be declared already. -/
def declareNew (id : SensorId) (sensor : Sensor) (field : String × FieldType) :
    Except Error Sensor :=
  if sensor.fields.contains field.1 then .error (.fieldDeclaredTwice id field.1)
  else .ok (sensor.declare field.1 field.2)

/-- The sensor that an entry declares, unless it declares a field twice. -/
def sensor (entry : SensorEntry) : Except Error Sensor :=
  entry.fields.foldlM (declareNew entry.id) ⟨entry.name, .empty⟩

end SensorEntry

/-- A condition to register; without an id it is given the next free one. -/
structure ConditionEntry where
  id : Option ConditionId
  name : Option String
  expression : String
  actions : List Action
deriving DecidableEq

/-- All that an engine is built from. -/
structure Config where
  sensors : List SensorEntry
  conditions : List ConditionEntry
deriving DecidableEq

namespace ConditionId

/-- The next id; the largest is its own next. -/
def next (id : ConditionId) : ConditionId :=
  if id = 0xFFFFFFFF then id else id + 1

end ConditionId

namespace Config

/-- The first id above all those that conditions are given. -/
def firstFreeId (config : Config) : ConditionId :=
  match (config.conditions.filterMap ConditionEntry.id).max? with
  | some greatest => ConditionId.next greatest
  | none => 0

end Config

end Tripwire
