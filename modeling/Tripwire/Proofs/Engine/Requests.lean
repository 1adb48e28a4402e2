import Tripwire.Proofs.Engine.Meaning

/-!
# What requests do to tests and values

A request keeps all nodes. A delivery moves the tests of its field to what they tell of the value,
if they tell anything, and a test that a registration adds starts from the latest value of its
field, which is the last that was delivered to it.
-/

namespace Tripwire

namespace Predicate

/-- The status of a test that had a status before it met values: what it told of the latest on
which it told anything. -/
def statusAfter (predicate : Predicate) (status : Bool) (values : List Value) : Bool :=
  ((values.filterMap predicate.test).getLast?).getD status

variable (predicate : Predicate) (status : Bool)

theorem statusAfter_nil : predicate.statusAfter status [] = status := rfl

theorem statusAfter_append (earlier later : List Value) :
    predicate.statusAfter status (earlier ++ later) =
      predicate.statusAfter (predicate.statusAfter status earlier) later := by
  unfold statusAfter
  rw [List.filterMap_append, List.getLast?_append]
  cases (later.filterMap predicate.test).getLast? <;> rfl

theorem statusAfter_singleton (value : Value) :
    predicate.statusAfter status [value] = (predicate.test value).getD status := by
  unfold statusAfter
  cases told : predicate.test value <;> simp [told]

theorem statusAfter_of_silent {values : List Value}
    (silent : ∀ value ∈ values, predicate.test value = none) :
    predicate.statusAfter status values = status := by
  unfold statusAfter
  rw [List.filterMap_eq_nil_iff.2 silent]
  rfl

end Predicate

namespace Request

/-- The values among deliveries that are for a field. -/
def valuesAmong (sensor : SensorId) (field : String)
    (deliveries : List (SensorId × String × Value)) : List Value :=
  deliveries.filterMap fun delivery =>
    if delivery.1 = sensor ∧ delivery.2.1 = field then some delivery.2.2 else none

theorem valuesAmong_singleton (sensor other : SensorId) (field name : String) (value : Value) :
    valuesAmong sensor field [(other, name, value)] =
      if other = sensor ∧ name = field then [value] else [] := by
  unfold valuesAmong
  by_cases here : other = sensor ∧ name = field <;> simp [here]

theorem valuesAmong_append (sensor : SensorId) (field : String)
    (earlier later : List (SensorId × String × Value)) :
    valuesAmong sensor field (earlier ++ later) =
      valuesAmong sensor field earlier ++ valuesAmong sensor field later :=
  List.filterMap_append

theorem valuesAmong_of_ne {sensor other : SensorId} (apart : other ≠ sensor) (field : String)
    (payload : List (String × Value)) :
    valuesAmong sensor field (payload.map fun item => (other, item.1, item.2)) = [] := by
  unfold valuesAmong
  rw [List.filterMap_map, List.filterMap_eq_nil_iff]
  intro item _
  exact if_neg fun here => apart here.1

/-- The values that a request delivers to a field. -/
def valuesTo (request : Request) (sensor : SensorId) (field : String) : List Value :=
  valuesAmong sensor field request.deliveries

/-- A request delivers nothing. -/
structure Idle (request : Request) : Prop where
  deliveries : request.deliveries = []
  reports : ∀ engine : Engine, engine.reports request = []

/-- A request delivers a payload to a sensor, if that is registered. -/
structure Delivers (request : Request) (sensor : SensorId) (payload : List (String × Value)) :
    Prop where
  deliveries : request.deliveries = payload.map fun item => (sensor, item.1, item.2)
  conditions : request.conditions = []
  handle : ∀ engine : Engine, engine.handle request =
    if engine.sensors.contains sensor then engine.deliverAll sensor payload else engine
  reports : ∀ engine : Engine, engine.reports request =
    if engine.sensors.contains sensor then engine.outcomesOf sensor payload else []

theorem delivers_update (sensor : SensorId) (field : String) (value : Value) :
    Delivers (.update sensor field value) sensor [(field, value)] where
  deliveries := rfl
  conditions := rfl
  handle engine := by
    change engine.orSame (engine.update sensor field value) Delivery.engine = _
    unfold Engine.update
    split <;> rfl
  reports engine := by
    cases known : engine.sensors.contains sensor <;>
      simp [Engine.reports, Engine.update, Engine.outcomesOf, known]

theorem delivers_updateAll (sensor : SensorId) (payload : List (String × Value)) :
    Delivers (.updateAll sensor payload) sensor payload where
  deliveries := rfl
  conditions := rfl
  handle engine := by
    change engine.orSame (engine.updateAll sensor payload) Delivery.engine = _
    unfold Engine.updateAll
    split
    case isTrue => exact (Engine.foldl_deliverNext sensor payload ⟨engine, .empty, []⟩).1
    case isFalse => rfl
  reports engine := by
    cases known : engine.sensors.contains sensor <;>
      simp [Engine.reports, Engine.updateAll, known]

theorem idle_or_delivers (request : Request) :
    request.Idle ∨ ∃ sensor payload, request.Delivers sensor payload := by
  cases request with
  | addSensor | addEntry | register => exact Or.inl ⟨rfl, fun _ => rfl⟩
  | update sensor field value => exact Or.inr ⟨_, _, delivers_update sensor field value⟩
  | updateAll sensor payload => exact Or.inr ⟨_, _, delivers_updateAll sensor payload⟩

end Request

namespace Engine

variable {engine extended : Engine} {log : List Registration}

/-! ## One request -/

theorem Sound.frame_deliver (sound : engine.Sound log) (sensor : SensorId) (field : String)
    (value : Value) :
    (engine.deliver sensor field value).engine.graph.frame = engine.graph.frame := by
  cases declared : engine.sensors.field? sensor field with
  | none =>
      unfold Engine.deliver
      rw [Network.deliver_of_undeclared declared]
  | some known => exact (sound.network.delivered declared value).frame

theorem Sound.frame_deliverAll (sensor : SensorId) (payload : List (String × Value))
    {engine : Engine} (sound : engine.Sound log) :
    (engine.deliverAll sensor payload).graph.frame = engine.graph.frame := by
  induction payload generalizing engine with
  | nil => rfl
  | cons item rest ih =>
      exact (ih (sound.deliver sensor item.1 item.2).1).trans (sound.frame_deliver ..)

theorem deliver_of_undeclared {sensor : SensorId} {field : String}
    (undeclared : engine.sensors.field? sensor field = none) (value : Value) :
    (engine.deliver sensor field value).engine = engine := by
  unfold Engine.deliver
  rw [Network.deliver_of_undeclared undeclared]
  rfl

theorem valuesAmong_of_undeclared {sensor other : SensorId} {field name : String}
    {type : FieldType} (declared : engine.sensors.type? other name = some type)
    (undeclared : engine.sensors.field? sensor field = none) (value : Value) :
    Request.valuesAmong other name [(sensor, field, value)] = [] := by
  rw [Request.valuesAmong_singleton, if_neg]
  rintro ⟨rfl, rfl⟩
  rw [Sensors.type?, undeclared] at declared
  cases declared

/-- A delivery moves the tests of its field to what they tell of the value. -/
theorem Sound.status_deliver (sound : engine.Sound log) {id : NodeId} {predicate : Predicate}
    (found : engine.graph.predicate? id = some predicate) (sensor : SensorId) (field : String)
    (value : Value) :
    (engine.deliver sensor field value).engine.graph.status id =
      predicate.statusAfter (engine.graph.status id)
        (Request.valuesAmong predicate.sensor predicate.field [(sensor, field, value)]) := by
  cases known : engine.sensors.field? sensor field with
  | none =>
      rw [deliver_of_undeclared known,
        valuesAmong_of_undeclared (sound.network.typed found) known, Predicate.statusAfter_nil]
  | some declared =>
      refine ((sound.network.delivered known value).test found).trans ?_
      rw [Request.valuesAmong_singleton]
      by_cases here : sensor = predicate.sensor ∧ field = predicate.field
      · have isOn : predicate.isOn sensor field = true := by simp [Predicate.isOn, here]
        rw [if_pos isOn, if_pos here, Predicate.statusAfter_singleton]
      · have isOff : ¬predicate.isOn sensor field = true := by
          simpa [Predicate.isOn] using fun same other => here ⟨same.symm, other.symm⟩
        rw [if_neg isOff, if_neg here, Predicate.statusAfter_nil]

theorem Sound.value?_deliver (sound : engine.Sound log) {other : SensorId} {name : String}
    {type : FieldType} (declared : engine.sensors.type? other name = some type)
    (sensor : SensorId) (field : String) (value : Value) :
    (engine.deliver sensor field value).engine.sensors.value? other name =
      (Request.valuesAmong other name [(sensor, field, value)]).getLast?.or
        (engine.sensors.value? other name) := by
  cases known : engine.sensors.field? sensor field with
  | none =>
      rw [deliver_of_undeclared known, valuesAmong_of_undeclared declared known]
      rfl
  | some found =>
      have stored := (sound.network.delivered known value).sensors
      have latest := Sensors.value?_setValue known value other name
      rw [← stored] at latest
      refine latest.trans ?_
      rw [Request.valuesAmong_singleton]
      by_cases here : sensor = other ∧ field = name
      · rw [if_pos here, if_pos ⟨here.1.symm, here.2.symm⟩]
        rfl
      · rw [if_neg here, if_neg fun same => here ⟨same.1.symm, same.2.symm⟩]
        rfl

theorem type?_deliver (sensor : SensorId) (field : String) (value : Value) :
    (engine.deliver sensor field value).engine.sensors.type? = engine.sensors.type? :=
  engine.toNetwork.type?_deliver sensor field value

section

variable (sensor : SensorId) (payload : List (String × Value)) {engine : Engine}
  (sound : engine.Sound log)

include sound

theorem Sound.status_deliverAll {id : NodeId} {predicate : Predicate}
    (found : engine.graph.predicate? id = some predicate) :
    (engine.deliverAll sensor payload).graph.status id =
      predicate.statusAfter (engine.graph.status id)
        (Request.valuesAmong predicate.sensor predicate.field
          (payload.map fun item => (sensor, item.1, item.2))) := by
  induction payload generalizing engine with
  | nil => rfl
  | cons item rest ih =>
      have here : (engine.deliver sensor item.1 item.2).engine.graph.predicate? id =
          some predicate := by
        rw [Graph.predicate?_of_frame_eq (sound.frame_deliver ..), found]
      refine (ih (sound.deliver sensor item.1 item.2).1 here).trans ?_
      rw [sound.status_deliver found, ← Predicate.statusAfter_append,
        ← Request.valuesAmong_append]
      rfl

theorem Sound.value?_deliverAll {other : SensorId} {name : String} {type : FieldType}
    (declared : engine.sensors.type? other name = some type) :
    (engine.deliverAll sensor payload).sensors.value? other name =
      (Request.valuesAmong other name
        (payload.map fun item => (sensor, item.1, item.2))).getLast?.or
          (engine.sensors.value? other name) := by
  induction payload generalizing engine with
  | nil => rfl
  | cons item rest ih =>
      have here : (engine.deliver sensor item.1 item.2).engine.sensors.type? other name =
          some type := by rw [type?_deliver, declared]
      refine (ih (sound.deliver sensor item.1 item.2).1 here).trans ?_
      rw [sound.value?_deliver declared, ← Option.or_assoc, ← List.getLast?_append,
        ← Request.valuesAmong_append]
      rfl

end

theorem Sound.frame_handle (sound : engine.Sound log) {request : Request} {sensor : SensorId}
    {payload : List (String × Value)} (delivers : request.Delivers sensor payload) :
    (engine.handle request).graph.frame = engine.graph.frame := by
  rw [delivers.handle]
  split
  case isTrue => exact sound.frame_deliverAll sensor payload
  case isFalse => rfl

/-- What a request that delivers nothing does: it adds nodes, and the tests among them stand as the
latest values of their fields tell. -/
structure Adds (before after : Engine) : Prop where
  grows : before.graph.Grows after.graph
  value : ∀ {sensor field type}, before.sensors.type? sensor field = some type →
    after.sensors.value? sensor field = before.sensors.value? sensor field
  seeded : ∀ {id predicate}, before.graph.size ≤ id →
    after.graph.predicate? id = some predicate → after.graph.status id = after.current predicate

theorem Adds.of_graph_eq {after : Engine} (same : after.graph = engine.graph)
    (value : ∀ {sensor field type}, engine.sensors.type? sensor field = some type →
      after.sensors.value? sensor field = engine.sensors.value? sensor field) :
    engine.Adds after where
  grows := same ▸ .refl _
  value := value
  seeded outside found := by
    rw [same] at found
    exact absurd (Graph.lt_size_of_predicate? found) (Nat.not_lt.2 outside)

theorem Sound.adds_handle (sound : engine.Sound log) {request : Request}
    (idle : request.Idle) : engine.Adds (engine.handle request) := by
  have handled := engine.handled request
  generalize engine.handle request = after, engine.accepted request.conditions = added,
    engine.reports request = reported at handled ⊢
  cases handled with
  | refused => exact .of_graph_eq rfl fun _ => rfl
  | declared blank added =>
      obtain ⟨fresh, rfl⟩ := addSensor_eq_ok.1 added
      refine .of_graph_eq rfl fun declared => ?_
      exact (Sensors.value?_insert blank ..).trans (if_neg (Sensors.ne_of_type? fresh declared))
  | registered registered =>
      obtain ⟨_, _, formula, checked, rfl⟩ := register_eq_ok.1 registered
      obtain ⟨child, top, enrolled⟩ := enrolled sound checked
      exact ⟨enrolled.grows, fun _ => by rw [enrolled.value], enrolled.seeded⟩
  | @delivered sensor payload asked =>
      rw [idle.deliveries] at asked
      cases payload with
      | nil => exact .of_graph_eq rfl fun _ => rfl
      | cons item rest => cases asked

/-- A request keeps what every node tests. -/
theorem Sound.predicate?_handle (sound : engine.Sound log) (request : Request) {id : NodeId}
    (within : id < engine.graph.size) :
    (engine.handle request).graph.predicate? id = engine.graph.predicate? id := by
  rcases request.idle_or_delivers with idle | ⟨sensor, payload, delivers⟩
  · exact (sound.adds_handle idle).grows.predicate?_eq within
  · rw [Graph.predicate?_of_frame_eq (sound.frame_handle delivers)]

/-- A request moves a test to what it tells of the values that are delivered to its field. -/
theorem Sound.status_handle (sound : engine.Sound log) (request : Request) {id : NodeId}
    {predicate : Predicate} (found : engine.graph.predicate? id = some predicate) :
    (engine.handle request).graph.status id = predicate.statusAfter (engine.graph.status id)
      (request.valuesTo predicate.sensor predicate.field) := by
  rcases request.idle_or_delivers with idle | ⟨sensor, payload, delivers⟩
  · rw [(sound.adds_handle idle).grows.status_eq (Graph.lt_size_of_predicate? found),
      Request.valuesTo, idle.deliveries]
    rfl
  · rw [delivers.handle, Request.valuesTo, delivers.deliveries]
    split
    case isTrue => exact sound.status_deliverAll sensor payload found
    case isFalse unknown =>
      have apart := Sensors.ne_of_type? (Bool.not_eq_true _ ▸ unknown)
        (sound.network.typed found)
      rw [Request.valuesAmong_of_ne apart, Predicate.statusAfter_nil]

/-- The latest value of a declared field is the last that a request delivers to it. -/
theorem Sound.value?_handle (sound : engine.Sound log) (request : Request) {sensor : SensorId}
    {field : String} {type : FieldType}
    (declared : engine.sensors.type? sensor field = some type) :
    (engine.handle request).sensors.value? sensor field =
      (request.valuesTo sensor field).getLast?.or (engine.sensors.value? sensor field) := by
  rcases request.idle_or_delivers with idle | ⟨source, payload, delivers⟩
  · rw [(sound.adds_handle idle).value declared, Request.valuesTo, idle.deliveries]
    rfl
  · rw [delivers.handle, Request.valuesTo, delivers.deliveries]
    split
    case isTrue => exact sound.value?_deliverAll source payload declared
    case isFalse unknown =>
      have apart := Sensors.ne_of_type? (Bool.not_eq_true _ ▸ unknown) declared
      rw [Request.valuesAmong_of_ne apart]
      rfl

/-- A test that a request adds stands as the latest value of its field tells. -/
theorem Sound.seeded_handle (sound : engine.Sound log) (request : Request) {id : NodeId}
    {predicate : Predicate} (outside : engine.graph.size ≤ id)
    (found : (engine.handle request).graph.predicate? id = some predicate) :
    (engine.handle request).graph.status id = (engine.handle request).current predicate := by
  rcases request.idle_or_delivers with idle | ⟨sensor, payload, delivers⟩
  · exact (sound.adds_handle idle).seeded outside found
  · rw [Graph.predicate?_of_frame_eq (sound.frame_handle delivers)] at found
    exact absurd (Graph.lt_size_of_predicate? found) (Nat.not_lt.2 outside)

end Engine

end Tripwire
