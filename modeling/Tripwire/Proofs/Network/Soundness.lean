import Tripwire.Network
import Tripwire.Proofs.Graph.Sharing
import Tripwire.Proofs.Sensors

/-!
# Sound networks

In a sound network no formula has two nodes, and the fields and the tests know of each other:
a field is watched by exactly the tests of it, in the order of their creation, and every test
compares a declared field with a literal of the field's type.
-/

namespace Tripwire

/-- Whether a test is one of a field. -/
def Predicate.isOn (sensor : SensorId) (field : String) (predicate : Predicate) : Bool :=
  predicate.sensor == sensor && predicate.field == field

namespace Graph

/-- The tests of a field in the order of their creation. -/
def testsOn (graph : Graph) (sensor : SensorId) (field : String) : List NodeId :=
  (List.range graph.size).filter fun id =>
    (graph.predicate? id).any (Predicate.isOn sensor field)

theorem mem_testsOn {graph : Graph} {sensor : SensorId} {field : String} {id : NodeId} :
    id ∈ graph.testsOn sensor field ↔
      ∃ predicate, graph.predicate? id = some predicate ∧
        predicate.sensor = sensor ∧ predicate.field = field := by
  unfold testsOn
  rw [List.mem_filter, List.mem_range]
  constructor
  · rintro ⟨_, test⟩
    obtain ⟨predicate, found, here⟩ := (Option.any_eq_true _ _).1 test
    exact ⟨predicate, found, by simpa [Predicate.isOn] using here⟩
  · rintro ⟨predicate, found, rfl, rfl⟩
    exact ⟨lt_size_of_predicate? found, by simp [found, Predicate.isOn]⟩

theorem exists_test_of_mem_testsOn {graph : Graph} {sensor : SensorId} {field : String}
    {id : NodeId} (member : id ∈ graph.testsOn sensor field) :
    ∃ predicate, graph.predicate? id = some predicate := by
  obtain ⟨predicate, test, _⟩ := mem_testsOn.1 member
  exact ⟨predicate, test⟩

theorem testsOn_nodup (graph : Graph) (sensor : SensorId) (field : String) :
    (graph.testsOn sensor field).Nodup :=
  List.nodup_range.filter _

theorem testsOn_of_frame_eq {first second : Graph} (same : first.frame = second.frame)
    (sensor : SensorId) (field : String) :
    first.testsOn sensor field = second.testsOn sensor field := by
  unfold testsOn
  rw [size_of_frame_eq same, predicate?_of_frame_eq same]

end Graph

namespace Network

/-- What holds of every network between two requests. -/
structure Sound (network : Network) : Prop where
  linked : network.graph.Linked
  settled : network.graph.Settled
  distinct : network.graph.Distinct
  watched : ∀ {sensor field declared}, network.sensors.field? sensor field = some declared →
    declared.watchers = network.graph.testsOn sensor field
  typed : ∀ {id predicate}, network.graph.predicate? id = some predicate →
    predicate.Typed network.sensors

end Network

end Tripwire
