import Tripwire.Proofs.Engine.Runs

/-!
# Well-formed engines

Whatever refers to a node refers to one that is there. Edges lead to earlier nodes below the roots
and are kept at both ends, a field is watched by its tests in the order of their creation, each
registered condition has one root, and edges lead down to every other node from some root.
-/

namespace Tripwire

namespace Graph

/-- The tests of a field are listed in the order of their creation. -/
theorem testsOn_ascending (graph : Graph) (sensor : SensorId) (field : String) :
    (graph.testsOn sensor field).Pairwise (· < ·) :=
  List.pairwise_lt_range.filter _

end Graph

namespace Engine

variable {engine : Engine} {log : List Registration}

/-- What holds of an engine's nodes and edges and of all that refers to them. -/
structure WellFormed (engine : Engine) : Prop where
  child : ∀ {id child}, child ∈ engine.graph.children id →
    id < engine.graph.size ∧ child < id ∧ engine.graph.root? child = none
  parent : ∀ {id parent}, parent ∈ engine.graph.parents id →
    id < parent ∧ parent < engine.graph.size
  count : ∀ child parent,
    (engine.graph.parents child).count parent = (engine.graph.children parent).count child
  acyclic : ∀ {id child}, child ∈ engine.graph.children id → ¬engine.graph.Leads child id
  watchers : ∀ {sensor field declared}, engine.sensors.field? sensor field = some declared →
    declared.watchers.Pairwise (· < ·) ∧
      ∀ id, id ∈ declared.watchers ↔ ∃ predicate, engine.graph.predicate? id = some predicate ∧
        predicate.sensor = sensor ∧ predicate.field = field
  test : ∀ {id predicate}, engine.graph.predicate? id = some predicate →
    id < engine.graph.size ∧
      ∃ declared, engine.sensors.field? predicate.sensor predicate.field = some declared ∧
        id ∈ declared.watchers ∧ predicate.literal.type = declared.type
  root : ∀ {condition id}, engine.roots.get? condition = some id ↔
    ∃ root, engine.graph.root? id = some root ∧ root.condition = condition
  top : ∀ {id root}, engine.graph.root? id = some root →
    id < engine.graph.size ∧ engine.graph.children id = [root.child]
  reached : ∀ {id}, id < engine.graph.size → engine.graph.root? id = none →
    ∃ top root, engine.graph.root? top = some root ∧ engine.graph.Leads top id

/-- A test watches its field, and its literal is of the field's type. -/
theorem Sound.exists_watched (sound : engine.Sound log) {id : NodeId} {predicate : Predicate}
    (found : engine.graph.predicate? id = some predicate) :
    ∃ declared, engine.sensors.field? predicate.sensor predicate.field = some declared ∧
      id ∈ declared.watchers ∧ predicate.literal.type = declared.type := by
  obtain ⟨declared, known, type⟩ := Option.map_eq_some_iff.1 (sound.network.typed found)
  refine ⟨declared, known, ?_, type.symm⟩
  rw [sound.network.watched known]
  exact Graph.mem_testsOn.2 ⟨predicate, found, rfl, rfl⟩

/-- A node below the roots stands for a part of some condition's formula, and so edges lead to it
from the root of that condition. -/
theorem Sound.exists_top (sound : engine.Sound log) {id : NodeId}
    (within : id < engine.graph.size) (inner : engine.graph.root? id = none) :
    ∃ top root, engine.graph.root? top = some root ∧ engine.graph.Leads top id := by
  have linked := sound.network.linked
  obtain ⟨registration, _, formula, carried, part, isPart, stands⟩ := sound.needed within inner
  obtain ⟨child, found, whole⟩ := carried.root
  obtain ⟨top, _, isRoot⟩ := root?_eq_some.1 found
  obtain ⟨other, leads, alike⟩ := whole.exists_part linked isPart
  have same : other = id :=
    sound.network.distinct.eq_of_form? linked alike.inner inner alike.form stands.form
  have isChild := Graph.child_mem_of_root? isRoot
  exact ⟨top, registration.root child, isRoot, Relation.ReflTransGen.head isChild (same ▸ leads)⟩

/-- Whatever was asked of an engine, it is well-formed. -/
theorem Reachable.wellFormed (reached : Reachable engine) : engine.WellFormed := by
  obtain ⟨log, recorded⟩ := reached.recorded
  have sound := recorded.sound
  have linked := sound.network.linked
  have paired := linked.toPaired
  have parent_lt {id parent : NodeId} (isChild : id ∈ engine.graph.children parent) :
      parent < engine.graph.size :=
    paired.lt_size_of_mem_parents ((paired.mem_parents_iff id parent).2 isChild)
  constructor
  case child =>
    intro id child member
    exact ⟨parent_lt member, linked.below member, linked.shared member⟩
  case parent =>
    intro id parent member
    have isChild := (paired.mem_parents_iff id parent).1 member
    exact ⟨linked.below isChild, parent_lt isChild⟩
  case count => exact linked.count_eq
  case acyclic => exact linked.acyclic _ _
  case watchers =>
    intro sensor field declared found
    rw [sound.network.watched found]
    exact ⟨engine.graph.testsOn_ascending sensor field, fun id => Graph.mem_testsOn⟩
  case test =>
    intro id predicate found
    exact ⟨Graph.lt_size_of_predicate? found, sound.exists_watched found⟩
  case root => exact sound.rooted
  case top =>
    intro id root found
    exact ⟨Graph.lt_size_of_root? found, Graph.children_of_root? found⟩
  case reached =>
    intro id within inner
    exact sound.exists_top within inner

/-- A group that holds one test twice, both shared with another condition. -/
theorem wellFormed_samples :
    Reachable (empty.handleAll samples) ∧ (empty.handleAll samples).WellFormed ∧
      (empty.handleAll samples).graph.children 3 = [0, 2, 0] ∧
        (empty.handleAll samples).graph.parents 0 = [1, 3, 3] := by
  have reached := Reachable.empty.handleAll samples
  exact ⟨reached, reached.wellFormed, by decide +kernel, by decide +kernel⟩

end Engine

end Tripwire
