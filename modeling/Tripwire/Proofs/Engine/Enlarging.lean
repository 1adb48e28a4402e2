import Tripwire.Proofs.Engine.Reports

/-!
# What registering adds

Registering a condition adds to an engine and changes nothing else: of a node that was there only
the parents are added to, of a field only the watchers, and both at the end. The conditions that
were registered keep their roots, texts and standing, and the new one is satisfied if its root
holds.
-/

namespace Tripwire

namespace Graph

/-- Nodes that are added are the latest tests of a field. -/
theorem Grows.exists_testsOn_eq {before after : Graph} (grows : before.Grows after)
    (sensor : SensorId) (field : String) :
    ∃ added, after.testsOn sensor field = before.testsOn sensor field ++ added := by
  obtain ⟨more, size⟩ := Nat.exists_eq_add_of_le grows.size_le
  have earlier : (List.range before.size).filter (fun id =>
      (after.predicate? id).any (Predicate.isOn sensor field)) = before.testsOn sensor field := by
    refine List.filter_congr fun id member => ?_
    rw [grows.predicate?_eq (List.mem_range.1 member)]
  unfold testsOn at earlier ⊢
  rw [size, List.range_add, List.filter_append, earlier]
  exact ⟨_, rfl⟩

end Graph

namespace Engine

variable {engine : Engine} {log : List Registration}

/-- What becomes of an engine that a condition is registered in. -/
structure Enlarges (before : Engine) (condition : ConditionId) (after : Engine) : Prop where
  node : ∀ {id node}, before.graph.node? id = some node →
    ∃ added, after.graph.node? id = some { node with parents := node.parents ++ added }
  field : ∀ sensor name, ∃ added, after.sensors.field? sensor name =
    (before.sensors.field? sensor name).map fun field =>
      { field with watchers := field.watchers ++ added }
  earlier : ∀ {other id}, before.roots.get? other = some id →
    after.roots.get? other = some id ∧ after.root? other = before.root? other ∧
      after.print? other = before.print? other ∧
        after.isSatisfied other = before.isSatisfied other
  root : ∃ top root, after.roots.get? condition = some top ∧
    after.graph.root? top = some root ∧ root.condition = condition ∧ before.graph.size ≤ top ∧
      before.isSatisfied condition = false ∧
        after.satisfied =
          if after.graph.status top then before.satisfied.insert condition () else before.satisfied

namespace Enrolled

variable {after : Engine} {root : Root} {formula : Formula} {top : NodeId}

/-- A field is watched by what watched it and then by what is added. -/
theorem exists_field?_eq (enrolled : engine.Enrolled root formula top after)
    (sound : engine.Sound log) (sensor : SensorId) (name : String) :
    ∃ added, after.sensors.field? sensor name =
      (engine.sensors.field? sensor name).map fun field =>
        { field with watchers := field.watchers ++ added } := by
  have type := congrFun (congrFun enrolled.type sensor) name
  have value := congrFun (congrFun enrolled.value sensor) name
  unfold Sensors.type? at type
  unfold Sensors.value? at value
  cases was : engine.sensors.field? sensor name with
  | none =>
      rw [was, Option.map_none, Option.map_eq_none_iff] at type
      exact ⟨[], type⟩
  | some declared =>
      rw [was, Option.map_some, Option.map_eq_some_iff] at type
      obtain ⟨known, is, alike⟩ := type
      rw [was, is, Option.bind_some, Option.bind_some] at value
      obtain ⟨added, watchers⟩ := enrolled.grows.exists_testsOn_eq sensor name
      rw [← enrolled.network.watched is, ← sound.network.watched was] at watchers
      refine ⟨added, ?_⟩
      rw [is, Option.map_some, ← alike, ← value, ← watchers]

theorem get?_of_get? (enrolled : engine.Enrolled root formula top after)
    (fresh : engine.roots.contains root.condition = false) {other : ConditionId} {id : NodeId}
    (rooted : engine.roots.get? other = some id) : after.roots.get? other = some id := by
  rw [enrolled.get?, if_neg, rooted]
  rintro rfl
  rw [contains_iff.2 ⟨id, rooted⟩] at fresh
  cases fresh

theorem print?_eq (enrolled : engine.Enrolled root formula top after) (sound : engine.Sound log)
    (fresh : engine.roots.contains root.condition = false) {other : ConditionId} {id : NodeId}
    (rooted : engine.roots.get? other = some id) : after.print? other = engine.print? other := by
  obtain ⟨_, found, _⟩ := sound.rooted.1 rooted
  have same := enrolled.grows.formula?_eq sound.network.linked enrolled.network.linked
    (Graph.lt_size_of_root? found)
  rw [print?, print?, enrolled.get?_of_get? fresh rooted, rooted, Option.map_some,
    Option.map_some, Graph.print, Graph.print, same]

theorem isSatisfied_eq (enrolled : engine.Enrolled root formula top after)
    {other : ConditionId} (apart : root.condition ≠ other) :
    after.isSatisfied other = engine.isSatisfied other := by
  rw [Bool.eq_iff_iff, enrolled.satisfied]
  exact or_iff_right fun last => apart last.1

/-- The satisfied conditions are the ones before, with the new one if its root holds. -/
theorem satisfied_eq (enrolled : engine.Enrolled root formula top after) :
    after.satisfied = if after.graph.status top then engine.satisfied.insert root.condition ()
      else engine.satisfied := by
  refine Table.ext_contains fun other => ?_
  rw [Bool.eq_iff_iff, contains_join]
  exact enrolled.satisfied other

end Enrolled

/-- Whatever was asked of an engine before, registering a condition only adds to it. -/
theorem Reachable.enlarges (reached : Reachable engine) {after : Engine}
    {entry : ConditionEntry} {condition : ConditionId}
    (registered : engine.register entry = .ok (after, condition)) :
    engine.Enlarges condition after := by
  obtain ⟨log, recorded⟩ := reached.recorded
  have sound := recorded.sound
  obtain ⟨_, fresh, formula, checked, rfl⟩ := register_eq_ok.1 registered
  obtain ⟨child, top, enrolled⟩ := enrolled sound checked
  constructor
  case node => exact enrolled.grows.node
  case field => exact enrolled.exists_field?_eq sound
  case earlier =>
    intro other id rooted
    have apart : condition ≠ other := by
      rintro rfl
      rw [contains_iff.2 ⟨id, rooted⟩] at fresh
      cases fresh
    obtain ⟨root, isRoot, _⟩ := sound.rooted.1 rooted
    have found := root?_eq_some.2 ⟨id, rooted, isRoot⟩
    have still := (enrolled.keeps sound fresh).root found
    exact ⟨enrolled.get?_of_get? fresh rooted, still.trans found.symm,
      enrolled.print?_eq sound fresh rooted, enrolled.isSatisfied_eq apart⟩
  case root =>
    have isTop := (enrolled.root? top).trans (if_pos rfl)
    exact ⟨top, _, enrolled.get?_top, isTop, rfl, enrolled.above,
      sound.isSatisfied_of_unknown fresh, enrolled.satisfied_eq⟩

/-- A group over a latched test and a new one is added to an engine with other conditions. -/
theorem enlarges_samples :
    let engine := empty.handleAll samples
    let entry : ConditionEntry := ⟨none, none, "[1]|(&(>(t,5),<(t,10),>(t,5)),<(p,2.50))", []⟩
    Reachable engine ∧ ∃ after, engine.register entry = .ok (after, 10) ∧
      engine.Enlarges 10 after ∧ after.graph.size = engine.graph.size + 3 := by
  intro engine entry
  have reached : Reachable engine := Reachable.empty.handleAll samples
  have registered : engine.register entry = .ok (engine.handle (.register entry), 10) := by
    decide +kernel
  exact ⟨reached, _, registered, reached.enlarges registered, by decide +kernel⟩

end Engine

end Tripwire
