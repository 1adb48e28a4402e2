import Tripwire.Proofs.Engine.Requests
import Tripwire.Proofs.Graph.Determined

/-!
# The order of deliveries

Deliveries to different fields may be taken in any order. What a test and a field come to depends on
the values for that field alone, and the tests and fields determine all else in a sound engine,
whichever way counts, statuses and satisfied conditions went in between.
-/

namespace Tripwire

namespace Request

/-- The requests to deliver values in turn. -/
def updates (deliveries : List (SensorId × String × Value)) : List Request :=
  deliveries.map fun delivery => .update delivery.1 delivery.2.1 delivery.2.2

/-- The deliveries to the fields that a producer owns. -/
def madeBy {ι : Type} [DecidableEq ι] (owner : SensorId → String → ι) (producer : ι)
    (deliveries : List (SensorId × String × Value)) : List (SensorId × String × Value) :=
  deliveries.filter fun delivery => owner delivery.1 delivery.2.1 = producer

/-- A field gets its values from its owner. -/
theorem valuesAmong_madeBy {ι : Type} [DecidableEq ι] (owner : SensorId → String → ι)
    (sensor : SensorId) (field : String) (deliveries : List (SensorId × String × Value)) :
    valuesAmong sensor field (madeBy owner (owner sensor field) deliveries) =
      valuesAmong sensor field deliveries := by
  unfold valuesAmong madeBy
  rw [List.filterMap_filter]
  congr 1
  funext delivery
  by_cases here : delivery.1 = sensor ∧ delivery.2.1 = field
  · rw [here.1, here.2, decide_eq_true rfl, if_pos rfl]
  · rw [if_neg here, ite_self]

end Request

namespace Engine

variable {engine other : Engine} {log : List Registration}

/-! ## What determines a sound engine -/

/-- Sound engines are the same if they have the same nodes and edges, roots, names and declared
fields, and their tests and latest values agree. -/
theorem Sound.ext {others : List Registration} (sound : engine.Sound log)
    (also : other.Sound others) (frame : engine.graph.frame = other.graph.frame)
    (roots : engine.roots = other.roots) (nextId : engine.nextId = other.nextId)
    (name : engine.sensors.name? = other.sensors.name?)
    (type : engine.sensors.type? = other.sensors.type?)
    (value : engine.sensors.value? = other.sensors.value?)
    (tests : ∀ {id predicate}, engine.graph.predicate? id = some predicate →
      engine.graph.status id = other.graph.status id) : engine = other := by
  have linked := sound.network.linked
  have graph : engine.graph = other.graph := Graph.eq_of_tests linked.toPaired linked.acyclic frame
    sound.network.settled also.network.settled id tests
  have sensors : engine.sensors = other.sensors := by
    refine Sensors.ext_field? name (Sensors.field?_ext type value fun here there => ?_)
    rw [sound.network.watched here, also.network.watched there, graph]
  have satisfied : engine.satisfied = other.satisfied := by
    refine Table.ext_contains fun condition => ?_
    change engine.isSatisfied condition = other.isSatisfied condition
    rw [sound.isSatisfied_eq, also.isSatisfied_eq, roots, graph]
  obtain ⟨⟨_, _⟩, _, _, _⟩ := engine
  obtain ⟨⟨_, _⟩, _, _, _⟩ := other
  cases graph
  cases sensors
  cases satisfied
  cases roots
  cases nextId
  rfl

/-! ## Deliveries in turn -/

/-- What deliveries leave of an engine and what they bring to tests and fields. -/
structure Advances (before : Engine) (log : List Registration)
    (deliveries : List (SensorId × String × Value)) (after : Engine) : Prop where
  sound : after.Sound log
  frame : after.graph.frame = before.graph.frame
  roots : after.roots = before.roots
  nextId : after.nextId = before.nextId
  name : after.sensors.name? = before.sensors.name?
  type : after.sensors.type? = before.sensors.type?
  value : ∀ {sensor field type}, before.sensors.type? sensor field = some type →
    after.sensors.value? sensor field =
      (Request.valuesAmong sensor field deliveries).getLast?.or
        (before.sensors.value? sensor field)
  test : ∀ {id predicate}, before.graph.predicate? id = some predicate →
    after.graph.status id = predicate.statusAfter (before.graph.status id)
      (Request.valuesAmong predicate.sensor predicate.field deliveries)

theorem Sound.advances_nil (sound : engine.Sound log) : engine.Advances log [] engine where
  sound := sound
  frame := rfl
  roots := rfl
  nextId := rfl
  name := rfl
  type := rfl
  value _ := rfl
  test _ := rfl

theorem handle_update (engine : Engine) (sensor : SensorId) (field : String) (value : Value) :
    engine.handle (.update sensor field value) = (engine.deliver sensor field value).engine := by
  rw [(Request.delivers_update sensor field value).handle]
  split
  case isTrue => rfl
  case isFalse unknown =>
    have undeclared := Sensors.field?_of_unregistered (Bool.not_eq_true _ ▸ unknown) field
    exact (deliver_of_undeclared undeclared value).symm

theorem Sound.advances_update (sound : engine.Sound log) (sensor : SensorId) (field : String)
    (value : Value) :
    engine.Advances log [(sensor, field, value)]
      (engine.handle (.update sensor field value)) := by
  rw [handle_update]
  constructor
  case sound => exact (sound.deliver sensor field value).1
  case frame => exact sound.frame_deliver sensor field value
  case roots => rfl
  case nextId => rfl
  case name => exact engine.toNetwork.name?_deliver sensor field value
  case type => exact type?_deliver sensor field value
  case value => exact fun declared => sound.value?_deliver declared sensor field value
  case test => exact fun found => sound.status_deliver found sensor field value

theorem Advances.trans {middle after : Engine}
    {earlier later : List (SensorId × String × Value)}
    (first : engine.Advances log earlier middle) (second : middle.Advances log later after) :
    engine.Advances log (earlier ++ later) after where
  sound := second.sound
  frame := second.frame.trans first.frame
  roots := second.roots.trans first.roots
  nextId := second.nextId.trans first.nextId
  name := second.name.trans first.name
  type := second.type.trans first.type
  value := by
    intro sensor field type declared
    have still : middle.sensors.type? sensor field = some type := by rw [first.type, declared]
    rw [second.value still, first.value declared, Request.valuesAmong_append,
      List.getLast?_append, Option.or_assoc]
  test := by
    intro id predicate found
    have still : middle.graph.predicate? id = some predicate := by
      rw [Graph.predicate?_of_frame_eq first.frame, found]
    rw [second.test still, first.test found, Request.valuesAmong_append,
      Predicate.statusAfter_append]

/-- Deliveries in turn bring to each test and field the values for it. -/
theorem Sound.advances (sound : engine.Sound log)
    (deliveries : List (SensorId × String × Value)) :
    engine.Advances log deliveries (engine.handleAll (Request.updates deliveries)) := by
  induction deliveries generalizing engine with
  | nil => exact sound.advances_nil
  | cons delivery rest ih =>
      have here := sound.advances_update delivery.1 delivery.2.1 delivery.2.2
      exact here.trans (ih here.sound)

/-- Two runs end in one engine if each field gets the same values in both. -/
theorem Advances.eq {first second : List (SensorId × String × Value)} {after left : Engine}
    (here : engine.Advances log first after) (there : engine.Advances log second left)
    (same : ∀ sensor field,
      Request.valuesAmong sensor field first = Request.valuesAmong sensor field second) :
    after = left := by
  have frame : after.graph.frame = left.graph.frame := here.frame.trans there.frame.symm
  have type : after.sensors.type? = left.sensors.type? := here.type.trans there.type.symm
  apply here.sound.ext there.sound frame
  case roots => exact here.roots.trans there.roots.symm
  case nextId => exact here.nextId.trans there.nextId.symm
  case name => exact here.name.trans there.name.symm
  case type => exact type
  case value =>
    funext sensor field
    cases declared : engine.sensors.type? sensor field with
    | none =>
        rw [← here.type] at declared
        rw [Sensors.value?_of_undeclared declared]
        rw [type] at declared
        rw [Sensors.value?_of_undeclared declared]
    | some _ => rw [here.value declared, there.value declared, same]
  case tests =>
    intro id predicate found
    rw [Graph.predicate?_of_frame_eq here.frame] at found
    rw [here.test found, there.test found, same]

/-- What a field and a test come to depends on the values for the field alone. So the order of
deliveries does not matter but for those to one field, and producers that own their fields may be
scheduled in any way. -/
structure Confluent (engine : Engine) : Prop where
  value : ∀ deliveries {sensor field type}, engine.sensors.type? sensor field = some type →
    (engine.handleAll (Request.updates deliveries)).sensors.value? sensor field =
      (Request.valuesAmong sensor field deliveries).getLast?.or
        (engine.sensors.value? sensor field)
  test : ∀ deliveries {id predicate}, engine.graph.predicate? id = some predicate →
    (engine.handleAll (Request.updates deliveries)).graph.status id =
      predicate.statusAfter (engine.graph.status id)
        (Request.valuesAmong predicate.sensor predicate.field deliveries)
  fields : ∀ {first second}, (∀ sensor field,
      Request.valuesAmong sensor field first = Request.valuesAmong sensor field second) →
    engine.handleAll (Request.updates first) = engine.handleAll (Request.updates second)
  producers : ∀ {ι : Type} [DecidableEq ι] (owner : SensorId → String → ι) {first second},
    (∀ producer, Request.madeBy owner producer first = Request.madeBy owner producer second) →
      engine.handleAll (Request.updates first) = engine.handleAll (Request.updates second)

/-- Whatever was asked of an engine before, the order of deliveries to different fields does not
matter to it. -/
theorem Reachable.confluent (reached : Reachable engine) : engine.Confluent := by
  obtain ⟨log, recorded⟩ := reached.recorded
  have sound := recorded.sound
  constructor
  case value => exact fun deliveries => (sound.advances deliveries).value
  case test => exact fun deliveries => (sound.advances deliveries).test
  case fields =>
    intro first second same
    exact (sound.advances first).eq (sound.advances second) same
  case producers =>
    intro ι _ owner first second same
    refine (sound.advances first).eq (sound.advances second) fun sensor field => ?_
    rw [← Request.valuesAmong_madeBy owner, same, Request.valuesAmong_madeBy]

/-- A condition on two fields turns true in between in one order of deliveries only. -/
theorem confluent_crossing :
    let engine := empty.handleAll
      [.addSensor 1 none [("t", .unsigned), ("p", .unsigned)],
        .register ⟨none, none, "[1]&(>(t,5),>(p,5))", []⟩]
    let early := [(1, "t", .unsigned 7), (1, "p", .unsigned 9)]
    let late := [(1, "t", .unsigned 7), (1, "t", .unsigned 3)]
    Reachable engine ∧
      (engine.handleAll (Request.updates early)).isSatisfied 0 = true ∧
      (engine.handleAll (Request.updates late)).isSatisfied 0 = false ∧
      engine.handleAll (Request.updates (early ++ [(1, "t", .unsigned 3)])) =
        engine.handleAll (Request.updates (late ++ [(1, "p", .unsigned 9)])) := by
  intro engine early late
  have reached : Reachable engine := Reachable.empty.handleAll _
  refine ⟨reached, by decide +kernel, by decide +kernel, ?_⟩
  exact reached.confluent.producers (fun _ field => field == "t") (by decide)

end Engine

end Tripwire
