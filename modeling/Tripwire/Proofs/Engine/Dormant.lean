import Tripwire.Proofs.Engine.Loading
import Tripwire.Proofs.Engine.Printing
import Tripwire.Proofs.Engine.Requests

/-!
# Before the first value

Until a value is delivered no test holds, and then nothing does: every group has a member, so that
its junction tells nothing of members that do not hold. A configuration delivers nothing.
-/

namespace Tripwire

namespace Engine

/-- No field has a value, and no test holds. -/
structure Dormant (engine : Engine) : Prop where
  value : ∀ sensor field, engine.sensors.value? sensor field = none
  test : ∀ {id predicate}, engine.graph.predicate? id = some predicate →
    engine.graph.status id = false

variable {engine extended : Engine} {log : List Registration}

/-! ## Requests without values -/

theorem dormant_empty : Dormant empty where
  value _ _ := rfl
  test found := by simp [Graph.predicate?, Graph.node?, Graph.empty, empty] at found

theorem Dormant.addSensor (dormant : engine.Dormant) {id : SensorId} {sensor : Sensor}
    (blank : sensor.Blank) (added : engine.addSensor id sensor = .ok extended) :
    extended.Dormant := by
  obtain ⟨_, rfl⟩ := addSensor_eq_ok.1 added
  refine ⟨fun other field => ?_, dormant.test⟩
  rw [Sensors.value?_insert blank, dormant.value, ite_self]

theorem Dormant.register (dormant : engine.Dormant) (sound : engine.Sound log)
    {entry : ConditionEntry} {id : ConditionId}
    (registered : engine.register entry = .ok (extended, id)) : extended.Dormant := by
  obtain ⟨_, _, formula, checked, rfl⟩ := register_eq_ok.1 registered
  obtain ⟨child, top, enrolled⟩ := enrolled sound checked
  have value : ∀ sensor field,
      (engine.enroll id entry formula).sensors.value? sensor field = none := by
    intro sensor field
    rw [enrolled.value, dormant.value]
  refine ⟨value, fun {node predicate} found => ?_⟩
  by_cases earlier : node < engine.graph.size
  · rw [enrolled.grows.status_eq earlier]
    rw [enrolled.grows.predicate?_eq earlier] at found
    exact dormant.test found
  · have current : (engine.enroll id entry formula).current predicate =
        (((engine.enroll id entry formula).sensors.value? predicate.sensor
          predicate.field).bind predicate.test).getD false := rfl
    rw [enrolled.seeded (Nat.le_of_not_lt earlier) found, current, value]
    rfl

theorem Dormant.handle (dormant : engine.Dormant) (sound : engine.Sound log) {request : Request}
    (idle : request.deliveries = []) : (engine.handle request).Dormant := by
  have handled := engine.handled request
  generalize engine.handle request = after, engine.accepted request.conditions = added,
    engine.reports request = reported at handled ⊢
  cases handled with
  | refused => exact dormant
  | declared blank added => exact dormant.addSensor blank added
  | registered registered => exact dormant.register sound registered
  | @delivered sensor payload asked =>
      rw [idle, eq_comm, List.map_eq_nil_iff] at asked
      rw [asked]
      exact dormant

theorem Dormant.handleAll (requests : List Request)
    (idle : ∀ request ∈ requests, request.deliveries = []) {engine : Engine}
    {log : List Registration} (dormant : engine.Dormant) (sound : engine.Sound log) :
    (engine.handleAll requests).Dormant := by
  induction requests generalizing engine log with
  | nil => exact dormant
  | cons request rest ih =>
      obtain ⟨here, later⟩ := List.forall_mem_cons.1 idle
      exact ih later (dormant.handle sound here) (sound.handle request)

theorem dormant_of_declared {entries : List SensorEntry}
    (declared : entries.foldlM addEntry empty = .ok engine) : engine.Dormant := by
  have kept : ∀ {earlier entry next}, Dormant earlier → addEntry earlier entry = .ok next →
      Dormant next := by
    intro earlier entry next dormant added
    obtain ⟨sensor, found, added⟩ := addEntry_eq_ok.1 added
    exact dormant.addSensor (SensorEntry.blank_sensor found) added
  exact foldlM_ok_invariant kept entries dormant_empty declared

theorem dormant_of_load {config : Config} {report : Report}
    (loaded : load config = .ok (engine, report)) : engine.Dormant := by
  obtain ⟨declared, found, rfl, _⟩ := load_eq_ok loaded
  have dormant := dormant_of_declared found
  have numbered : Dormant { declared with nextId := config.firstFreeId } :=
    ⟨dormant.value, dormant.test⟩
  rw [registerAll_eq]
  refine numbered.handleAll _ ?_ ((sound_of_declared found).numbered config.firstFreeId)
  rw [List.forall_mem_map]
  exact fun _ _ => rfl

/-! ## Nothing holds -/

/-- No node holds where no test does. -/
theorem Dormant.status_eq_false (dormant : engine.Dormant) (sound : engine.Sound log)
    (id : NodeId) : engine.graph.status id = false := by
  have linked := sound.network.linked
  have settled := sound.network.settled
  have below : ∀ {node}, node < engine.graph.size → engine.graph.root? node = none →
      engine.graph.status node = false := by
    intro node within inner
    obtain ⟨registration, _, formula, carries, part, isPart, stands⟩ := sound.needed within inner
    obtain ⟨known, found, same⟩ := Option.map_eq_some_iff.1 stands.form
    obtain ⟨depth, legible⟩ := (legible_of_check carries.checked).exists_part isPart
    have holds := Graph.status_eq_holds linked settled (fun test => dormant.test test) found
    rw [holds, Formula.holds_eq_of_canonical_eq _ same, legible.holds_eq_false]
  by_cases within : id < engine.graph.size
  · cases top : engine.graph.root? id with
    | none => exact below within top
    | some root =>
        have isChild := Graph.child_mem_of_root? top
        rw [Graph.status_of_root settled top]
        exact below (linked.lt_size isChild) (linked.shared isChild)
  · rw [Graph.status, Graph.node?_eq_none_iff.2 (Nat.le_of_not_lt within)]

theorem Dormant.satisfied_eq_empty (dormant : engine.Dormant) (sound : engine.Sound log) :
    engine.satisfied = .empty := by
  refine Table.ext_contains fun condition => ?_
  change engine.isSatisfied condition = false
  rw [sound.isSatisfied_eq, ← Bool.not_eq_true, Option.any_eq_true]
  rintro ⟨id, _, holds⟩
  rw [dormant.status_eq_false sound] at holds
  cases holds

end Engine

end Tripwire
