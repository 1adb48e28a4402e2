import Tripwire.Config
import Tripwire.Formula
import Tripwire.Proofs.Steps

/-!
# Fields of sensors

What is asked of a field is its declared type and its latest value. Watching a field changes
neither, and a delivery changes the value only.
-/

namespace Tripwire

namespace Field

variable (field : Field) (node : NodeId)

theorem type_watch : (field.watch node).type = field.type := by
  unfold watch
  split <;> rfl

theorem value_watch : (field.watch node).value = field.value := by
  unfold watch
  split <;> rfl

theorem watchers_watch (fresh : node ∉ field.watchers) :
    (field.watch node).watchers = field.watchers ++ [node] := by
  unfold watch
  rw [if_neg (by simpa using fresh)]

end Field

namespace Sensor

/-- No field has a value or is watched. -/
def Blank (sensor : Sensor) : Prop :=
  ∀ name field, sensor.fields.get? name = some field →
    field.value = none ∧ field.watchers = []

theorem blank_empty (name : Option String) : Blank ⟨name, .empty⟩ := by
  intro field declared found
  cases found

theorem Blank.declare {sensor : Sensor} (blank : sensor.Blank) (name : String)
    (type : FieldType) : (sensor.declare name type).Blank := by
  intro other field found
  unfold Sensor.declare at found
  rw [Table.get?_insert] at found
  split at found
  case isTrue =>
    cases found
    exact ⟨rfl, rfl⟩
  case isFalse => exact blank other field found

theorem blank_ofList (name : Option String) (fields : List (String × FieldType)) :
    (ofList name fields).Blank :=
  List.foldlRecOn fields _ (motive := Blank) (blank_empty name) fun _ blank field _ =>
    blank.declare field.1 field.2

end Sensor

/-- The sensor that an entry declares starts without values. -/
theorem SensorEntry.blank_sensor {entry : SensorEntry} {sensor : Sensor}
    (found : entry.sensor = .ok sensor) : sensor.Blank := by
  have kept : ∀ {earlier : Sensor} {field : String × FieldType} {later : Sensor},
      earlier.Blank → declareNew entry.id earlier field = .ok later → later.Blank := by
    intro earlier field later blank next
    unfold declareNew at next
    split at next
    case isTrue => cases next
    case isFalse =>
      cases next
      exact blank.declare field.1 field.2
  exact foldlM_ok_invariant kept entry.fields (Sensor.blank_empty entry.name) found

namespace Sensors

theorem field?_modifyField (sensors : Sensors) (sensor other : SensorId)
    (field name : String) (change : Field → Field) :
    (sensors.modifyField sensor field change).field? other name =
      if other = sensor ∧ name = field then (sensors.field? other name).map change
      else sensors.field? other name := by
  unfold field? modifyField
  rw [Table.get?_modify]
  by_cases here : other = sensor
  · subst here
    cases found : sensors.get? other with
    | none => simp
    | some known =>
        by_cases same : name = field
        · subst same
          simp [Table.get?_modify]
        · simp [Table.get?_modify, same]
  · simp [here]

theorem contains_modifyField (sensors : Sensors) (sensor other : SensorId) (field : String)
    (change : Field → Field) :
    (sensors.modifyField sensor field change).contains other = sensors.contains other := by
  unfold modifyField Table.contains
  rw [Table.get?_modify]
  split
  case isTrue => rw [Option.isSome_map]
  case isFalse => rfl

def type? (sensors : Sensors) (sensor : SensorId) (field : String) : Option FieldType :=
  (sensors.field? sensor field).map Field.type

/-- The latest value of a field. -/
def value? (sensors : Sensors) (sensor : SensorId) (field : String) : Option Value :=
  (sensors.field? sensor field).bind Field.value

theorem value?_of_undeclared {sensors : Sensors} {sensor : SensorId} {field : String}
    (undeclared : sensors.type? sensor field = none) : sensors.value? sensor field = none := by
  rw [value?, Option.map_eq_none_iff.1 undeclared, Option.bind_none]

theorem field?_of_unregistered {sensors : Sensors} {sensor : SensorId}
    (unknown : sensors.contains sensor = false) (field : String) :
    sensors.field? sensor field = none := by
  rw [Table.contains, Option.isSome_eq_false_iff, Option.isNone_iff_eq_none] at unknown
  rw [field?, unknown, Option.bind_none]

theorem type?_modifyField (sensors : Sensors) (sensor : SensorId) (field : String)
    {change : Field → Field} (keeps : ∀ declared, (change declared).type = declared.type) :
    (sensors.modifyField sensor field change).type? = sensors.type? := by
  funext other name
  unfold type?
  rw [field?_modifyField]
  split
  case isTrue => cases sensors.field? other name <;> simp [keeps]
  case isFalse => rfl

theorem value?_modifyField (sensors : Sensors) (sensor : SensorId) (field : String)
    {change : Field → Field} (keeps : ∀ declared, (change declared).value = declared.value) :
    (sensors.modifyField sensor field change).value? = sensors.value? := by
  funext other name
  unfold value?
  rw [field?_modifyField]
  split
  case isTrue => cases sensors.field? other name <;> simp [keeps]
  case isFalse => rfl

theorem value?_setValue {sensors : Sensors} {sensor : SensorId} {field : String}
    {declared : Field} (found : sensors.field? sensor field = some declared) (value : Value)
    (other : SensorId) (name : String) :
    (sensors.modifyField sensor field fun field => { field with value := some value }).value?
        other name =
      if other = sensor ∧ name = field then some value else sensors.value? other name := by
  unfold value?
  rw [field?_modifyField]
  split
  case isTrue here =>
    rw [here.1, here.2, found]
    rfl
  case isFalse => rfl

/-- Fields that were declared still are, and with their types. -/
def Extends (before after : Sensors) : Prop :=
  ∀ {sensor field type}, before.type? sensor field = some type →
    after.type? sensor field = some type

theorem extends_of_type?_eq {before after : Sensors} (same : after.type? = before.type?) :
    before.Extends after := by
  intro sensor field type declared
  rw [same, declared]

theorem ne_of_type? {sensors : Sensors} {added other : SensorId} {field : String}
    {type : FieldType} (fresh : sensors.contains added = false)
    (declared : sensors.type? other field = some type) : added ≠ other := by
  rintro rfl
  obtain ⟨known, found, _⟩ := Option.map_eq_some_iff.1 declared
  obtain ⟨there, here, _⟩ := Option.bind_eq_some_iff.1 found
  rw [Table.contains, here] at fresh
  cases fresh

theorem field?_insert (sensors : Sensors) (added other : SensorId) (sensor : Sensor)
    (name : String) :
    field? (sensors.insert added sensor) other name =
      if added = other then sensor.fields.get? name else sensors.field? other name := by
  unfold field?
  rw [Table.get?_insert]
  split <;> rfl

theorem value?_insert {sensor : Sensor} (blank : sensor.Blank) (sensors : Sensors)
    (added other : SensorId) (name : String) :
    value? (sensors.insert added sensor) other name =
      if added = other then none else sensors.value? other name := by
  unfold value?
  rw [field?_insert]
  split
  case isTrue =>
    cases found : sensor.fields.get? name with
    | none => rfl
    | some field => exact (blank name field found).1
  case isFalse => rfl

theorem extends_insert {sensors : Sensors} {added : SensorId}
    (fresh : sensors.contains added = false) (sensor : Sensor) :
    sensors.Extends (sensors.insert added sensor) := by
  intro other field type declared
  have apart := ne_of_type? fresh declared
  unfold type? at declared ⊢
  rw [field?_insert, if_neg apart, declared]

/-- The name that a registered sensor was given, if any. -/
def name? (sensors : Sensors) (sensor : SensorId) : Option (Option String) :=
  (sensors.get? sensor).map Sensor.name

theorem contains_eq_isSome_name? (sensors : Sensors) (sensor : SensorId) :
    sensors.contains sensor = (sensors.name? sensor).isSome := by
  rw [name?, Option.isSome_map, Table.contains]

theorem name?_modifyField (sensors : Sensors) (sensor : SensorId) (field : String)
    (change : Field → Field) : (sensors.modifyField sensor field change).name? = sensors.name? := by
  funext other
  unfold name? modifyField
  rw [Table.get?_modify]
  split
  case isTrue =>
    rw [Option.map_map]
    rfl
  case isFalse => rfl

/-- Fields are settled by their types, latest values and watchers. -/
theorem field?_ext {first second : Sensors} (types : first.type? = second.type?)
    (values : first.value? = second.value?)
    (watchers : ∀ {sensor field declared known}, first.field? sensor field = some declared →
      second.field? sensor field = some known → declared.watchers = known.watchers) :
    first.field? = second.field? := by
  funext sensor field
  have type := congrFun (congrFun types sensor) field
  have value := congrFun (congrFun values sensor) field
  unfold type? at type
  unfold value? at value
  cases here : first.field? sensor field with
  | none =>
      rw [here, Option.map_none, eq_comm, Option.map_eq_none_iff] at type
      exact type.symm
  | some declared =>
      rw [here, Option.map_some, eq_comm, Option.map_eq_some_iff] at type
      obtain ⟨known, there, alike⟩ := type
      rw [here, there, Option.bind_some, Option.bind_some] at value
      have watching := watchers here there
      obtain ⟨fieldType, latest, watched⟩ := declared
      cases alike
      cases value
      cases watching
      exact there.symm

/-- Sensors are settled by their names and fields. -/
theorem ext_field? {first second : Sensors} (names : first.name? = second.name?)
    (fields : first.field? = second.field?) : first = second := by
  refine Table.ext_get? fun id => ?_
  have name := congrFun names id
  have declared := congrFun fields id
  unfold name? at name
  unfold field? at declared
  cases here : first.get? id with
  | none =>
      rw [here, Option.map_none, eq_comm, Option.map_eq_none_iff] at name
      exact name.symm
  | some sensor =>
      rw [here, Option.map_some, eq_comm, Option.map_eq_some_iff] at name
      obtain ⟨other, there, alike⟩ := name
      simp only [here, there, Option.bind_some] at declared
      obtain ⟨named, known⟩ := sensor
      obtain ⟨otherName, others⟩ := other
      cases alike
      cases Table.ext_get? (congrFun declared)
      exact there.symm

/-- A change of a field that leaves what it has made does the same the second time. -/
theorem modifyField_modifyField {sensors : Sensors} {sensor : SensorId} {field : String}
    {change : Field → Field} (same : ∀ declared, change (change declared) = change declared) :
    (sensors.modifyField sensor field change).modifyField sensor field change =
      sensors.modifyField sensor field change := by
  apply ext_field?
  · rw [name?_modifyField]
  · funext other name
    rw [field?_modifyField _ sensor other]
    split
    case isTrue here =>
      rw [field?_modifyField, if_pos here, Option.map_map]
      exact Option.map_congr fun declared _ => same declared
    case isFalse => rfl

/-- A value is of the type of a field, if the field is declared. -/
def Fits (sensors : Sensors) (sensor : SensorId) (field : String) (value : Value) : Prop :=
  ∀ type ∈ sensors.type? sensor field, value.type = type

instance (sensors : Sensors) (sensor : SensorId) (field : String) (value : Value) :
    Decidable (sensors.Fits sensor field value) :=
  inferInstanceAs (Decidable (∀ type ∈ sensors.type? sensor field, value.type = type))

end Sensors

/-- The test is of a declared field and its literal of the field's type. -/
def Predicate.Typed (sensors : Sensors) (predicate : Predicate) : Prop :=
  sensors.type? predicate.sensor predicate.field = some predicate.literal.type

end Tripwire
