import Tripwire.Proofs.Engine.Runs
import Tripwire.Proofs.Network.Examination

/-!
# Values that are delivered again

A delivery leaves every test of its field as the test says of the value, if it says anything, and
the graph at rest. Delivering the value once more therefore turns nothing: it stores what is stored,
compares as often and complains of the same tests, whatever the value.
-/

namespace Tripwire

namespace Network

variable {network : Network}

/-- Once a value is delivered, all watchers stand as they say of it. -/
theorem Sound.still_delivered (sound : network.Sound) {sensor : SensorId} {field : String}
    {declared : Field} (found : network.sensors.field? sensor field = some declared)
    {value : Value} {id : NodeId} (watches : id ∈ declared.watchers) {predicate : Predicate}
    {status : Bool}
    (test : (network.deliver sensor field value).1.graph.predicate? id = some predicate)
    (told : predicate.test value = some status) :
    (network.deliver sensor field value).1.graph.status id = status := by
  have delivered := sound.delivered found value
  rw [Graph.predicate?_of_frame_eq delivered.frame] at test
  rw [sound.watched found] at watches
  obtain ⟨other, known, rfl, rfl⟩ := Graph.mem_testsOn.1 watches
  rw [test, Option.some.injEq] at known
  have here : predicate.isOn other.sensor other.field = true := by simp [Predicate.isOn, known]
  rw [delivered.test test, if_pos here, told, Option.getD_some]

/-- A value that is delivered again changes nothing and is reported alike. -/
theorem Sound.deliver_again (sound : network.Sound) (sensor : SensorId) (field : String)
    (value : Value) :
    (network.deliver sensor field value).1.deliver sensor field value =
      ((network.deliver sensor field value).1,
        { (network.deliver sensor field value).2 with changed := 0, transitions := [] }) := by
  cases found : network.sensors.field? sensor field with
  | none =>
      have still := deliver_of_undeclared found value
      rw [still, still]
  | some declared =>
      have delivered := sound.delivered found value
      have there : (network.deliver sensor field value).1.sensors.field? sensor field =
          some { declared with value := some value } := by
        rw [delivered.sensors, Sensors.field?_modifyField, if_pos ⟨rfl, rfl⟩, found,
          Option.map_some]
      have again := deliver_of_still there value fun id watches =>
        sound.still_delivered found watches
      have sensors : (network.deliver sensor field value).1.sensors.modifyField sensor field
          (fun field => { field with value := some value }) =
            (network.deliver sensor field value).1.sensors := by
        rw [delivered.sensors]
        exact Sensors.modifyField_modifyField fun _ => rfl
      rw [again, sensors, Graph.predicatesAt_of_frame_eq delivered.frame]
      simp only [comparisons_deliver found, errors_deliver found]

end Network

namespace Engine

variable {engine : Engine}

/-- A delivery that does no more after another than to compare as often and report the same. -/
structure Repeats (first second : Delivery) : Prop where
  engine : second.engine = first.engine
  outcome : second.outcome = ⟨[], [], first.outcome.comparisons, 0⟩
  quiet : second.outcome.isQuiet = true
  errors : second.errors = first.errors

/-- Whatever was asked of an engine before, an update that is made twice in a row is made once. -/
theorem Reachable.repeats (reached : Reachable engine) {sensor : SensorId}
    (registered : engine.sensors.contains sensor = true) (field : String) (value : Value) :
    ∃ first second, engine.update sensor field value = .ok first ∧
      first.engine.update sensor field value = .ok second ∧ Repeats first second := by
  obtain ⟨log, recorded⟩ := reached.recorded
  let first := engine.deliver sensor field value
  let second := first.engine.deliver sensor field value
  have known : first.engine.sensors.contains sensor = true :=
    (engine.toNetwork.contains_deliver sensor field value sensor).trans registered
  have again : first.engine.toNetwork.deliver sensor field value = _ :=
    recorded.sound.network.deliver_again sensor field value
  have same : second = ⟨first.engine, ⟨[], [], first.outcome.comparisons, 0⟩, first.errors⟩ := by
    change first.engine.deliver sensor field value = _
    rw [deliver, again]
    rfl
  refine ⟨first, second, update_eq_ok.2 ⟨registered, rfl⟩, update_eq_ok.2 ⟨known, rfl⟩, ?_⟩
  rw [same]
  exact ⟨rfl, rfl, rfl, rfl⟩

/-- A truth value is compared with one of two tests, and the other complains of it each time. -/
theorem repeats_truth :
    let engine := empty.handleAll
      [.addSensor 1 none [("b", .boolean)],
        .register ⟨none, none, "[1]|(<(b,true),=(b,true))", []⟩]
    let first := engine.deliver 1 "b" (.boolean true)
    Reachable engine ∧ engine.sensors.contains 1 = true ∧
      first.outcome = ⟨[⟨0, none, []⟩], [], 1, 1⟩ ∧
      first.errors = [.typeMismatch 1 "b" .lt .boolean .boolean] ∧
      ∃ first second, engine.update 1 "b" (.boolean true) = .ok first ∧
        first.engine.update 1 "b" (.boolean true) = .ok second ∧ Repeats first second := by
  intro engine first
  have reached : Reachable engine := Reachable.empty.handleAll _
  have registered : engine.sensors.contains 1 = true := by decide +kernel
  refine ⟨reached, registered, by decide +kernel, by decide +kernel, ?_⟩
  exact reached.repeats registered "b" (.boolean true)

end Engine

end Tripwire
