import Mathlib.Data.List.Dedup
import Tripwire.Proofs.Engine.Standing
import Tripwire.Proofs.Engine.Runs
import Tripwire.Proofs.Network.Examination
import Tripwire.Proofs.Network.Faithful

/-!
# Each comparison is made once

However many conditions compare a field with a literal, and however often, the field has one watcher
for the comparison. A delivery asks all watchers: it either compares or reports that the types do
not allow it, and which of the two depends on types alone.
-/

namespace Tripwire

/-- Whether a test says anything of a value is a matter of types. -/
theorem Predicate.speaks_eq (value : Value) (predicate : Predicate) :
    predicate.speaks value =
      (decide (value.type = predicate.literal.type) &&
        !(predicate.operator.isOrdering && decide (value.type = .boolean))) :=
  Value.isSome_compare? predicate.operator value predicate.literal

/-- What a test compares its field with, and how. -/
def Predicate.comparison (predicate : Predicate) : Comparison × Value :=
  (predicate.operator, predicate.literal)

namespace Network

/-- The watchers of a field are tests of it, with literals of its type. -/
theorem Sound.of_mem_predicatesAt {network : Network} (sound : network.Sound) {sensor : SensorId}
    {field : String} {declared : Field}
    (found : network.sensors.field? sensor field = some declared) {predicate : Predicate}
    (member : predicate ∈ network.graph.predicatesAt declared.watchers) :
    predicate.sensor = sensor ∧ predicate.field = field ∧
      predicate.literal.type = declared.type := by
  obtain ⟨id, watches, test⟩ := List.mem_filterMap.1 member
  rw [sound.watched found] at watches
  obtain ⟨other, known, rfl, rfl⟩ := Graph.mem_testsOn.1 watches
  rw [test, Option.some.injEq] at known
  subst known
  have typed := sound.typed test
  rw [Predicate.Typed, Sensors.type?, found, Option.map_some, Option.some.injEq] at typed
  exact ⟨rfl, rfl, typed.symm⟩

end Network

namespace Engine

variable {engine : Engine} {log : List Registration} {sensor : SensorId} {field : String}
  {declared : Field}

/-- The tests that have nodes are those of the conditions on record. -/
theorem Sound.exists_predicate?_iff (sound : engine.Sound log) {predicate : Predicate} :
    (∃ id, engine.graph.predicate? id = some predicate) ↔
      ∃ registration ∈ log, ∃ formula,
        engine.check registration.entry.expression = .ok formula ∧
          predicate ∈ formula.predicates := by
  constructor
  · rintro ⟨id, test⟩
    obtain ⟨registration, member, formula, carries, part, isPart, stands⟩ :=
      sound.needed (Graph.lt_size_of_predicate? test) (Graph.root?_of_predicate? test)
    have form := stands.form
    rw [Graph.form?, Graph.formula?_of_test sound.network.linked test, Option.map_some,
      Option.some.injEq] at form
    rw [Formula.eq_test_of_canonical_eq form.symm] at isPart
    exact ⟨registration, member, formula, carries.checked, Formula.mem_predicates.2 isPart⟩
  · rintro ⟨registration, member, formula, checked, isTest⟩
    exact sound.exists_test member checked isTest

/-- What the conditions on record compare a field with, as often as it is written. -/
def comparisonsWith (engine : Engine) (log : List Registration) (sensor : SensorId)
    (field : String) : List (Comparison × Value) :=
  log.flatMap fun registration =>
    match engine.check registration.entry.expression with
    | .ok formula =>
        (formula.predicates.filter (Predicate.isOn sensor field)).map Predicate.comparison
    | .error _ => []

theorem mem_comparisonsWith {comparison : Comparison × Value} :
    comparison ∈ engine.comparisonsWith log sensor field ↔
      ∃ registration ∈ log, ∃ formula,
        engine.check registration.entry.expression = .ok formula ∧
          ∃ predicate ∈ formula.predicates, predicate.isOn sensor field = true ∧
            predicate.comparison = comparison := by
  unfold comparisonsWith
  rw [List.mem_flatMap]
  refine exists_congr fun registration => and_congr_right fun _ => ?_
  cases engine.check registration.entry.expression with
  | error error => simp
  | ok formula => simp [and_assoc]

/-- Each comparison with a field has one watcher. -/
theorem Sound.comparisons_perm (sound : engine.Sound log)
    (found : engine.sensors.field? sensor field = some declared) :
    ((engine.graph.predicatesAt declared.watchers).map Predicate.comparison).Perm
      (engine.comparisonsWith log sensor field).dedup := by
  have watched := sound.network.watched found
  have once : ((engine.graph.predicatesAt declared.watchers).map Predicate.comparison).Nodup := by
    refine List.Nodup.map_on ?_ (List.Nodup.filterMap ?_ (watched ▸ Graph.testsOn_nodup _ _ _))
    · intro first isFirst second isSecond same
      obtain ⟨sensors, fields, _⟩ := sound.network.of_mem_predicatesAt found isFirst
      obtain ⟨others, names, _⟩ := sound.network.of_mem_predicatesAt found isSecond
      obtain ⟨_, _, _, _⟩ := first
      cases second
      cases same
      cases sensors
      cases fields
      cases others
      cases names
      rfl
    · intro first second predicate test other
      exact sound.network.distinct.test test other
  rw [List.perm_ext_iff_of_nodup once (List.nodup_dedup _)]
  intro comparison
  rw [List.mem_dedup, mem_comparisonsWith, List.mem_map]
  constructor
  · rintro ⟨predicate, member, rfl⟩
    obtain ⟨sensors, fields, _⟩ := sound.network.of_mem_predicatesAt found member
    obtain ⟨id, _, test⟩ := List.mem_filterMap.1 member
    obtain ⟨registration, isLogged, formula, checked, isTest⟩ :=
      sound.exists_predicate?_iff.1 ⟨id, test⟩
    refine ⟨registration, isLogged, formula, checked, predicate, isTest, ?_, rfl⟩
    simp [Predicate.isOn, sensors, fields]
  · rintro ⟨registration, isLogged, formula, checked, predicate, isTest, here, rfl⟩
    obtain ⟨id, test⟩ := sound.exists_predicate?_iff.2
      ⟨registration, isLogged, formula, checked, isTest⟩
    refine ⟨predicate, List.mem_filterMap.2 ⟨id, ?_, test⟩, rfl⟩
    rw [watched]
    exact Graph.mem_testsOn.2 ⟨predicate, test, by simpa [Predicate.isOn] using here⟩

/-- The engine with a value stored in a field, and nothing else done. -/
def storing (engine : Engine) (sensor : SensorId) (field : String) (value : Value) : Engine :=
  { engine with
    sensors := engine.sensors.modifyField sensor field
      fun field => { field with value := some value } }

/-- What a delivery to a declared field makes of the tests of the field: each is compared with the
value or reported, which of the two its operator and the types tell. -/
structure Examines (engine : Engine) (log : List Registration) (sensor : SensorId)
    (field : String) (declared : Field) (value : Value) (delivery : Delivery) : Prop where
  watched : ((engine.graph.predicatesAt declared.watchers).map Predicate.comparison).Perm
    (engine.comparisonsWith log sensor field).dedup
  once : delivery.outcome.comparisons + delivery.errors.length =
    (engine.comparisonsWith log sensor field).dedup.length
  errors : delivery.errors =
    ((engine.graph.predicatesAt declared.watchers).filter (!·.speaks value)).map fun predicate =>
      .typeMismatch sensor field predicate.operator declared.type value.type
  foreign : value.type ≠ declared.type →
    delivery.errors =
        ((engine.graph.predicatesAt declared.watchers).map fun predicate =>
          .typeMismatch sensor field predicate.operator declared.type value.type) ∧
      delivery.outcome = .empty ∧ delivery.engine = engine.storing sensor field value
  fitting : value.type = declared.type →
    delivery.errors =
      ((engine.graph.predicatesAt declared.watchers).filter fun predicate =>
        predicate.operator.isOrdering && decide (declared.type = .boolean)).map fun predicate =>
          .typeMismatch sensor field predicate.operator declared.type value.type
  changed : delivery.outcome.changed =
    (List.range engine.graph.size).countP fun id => (engine.graph.predicate? id).isSome &&
      engine.graph.status id != delivery.engine.graph.status id

theorem Sound.errors_deliver (sound : engine.Sound log)
    (found : engine.sensors.field? sensor field = some declared) (value : Value) :
    (engine.deliver sensor field value).errors =
      ((engine.graph.predicatesAt declared.watchers).filter (!·.speaks value)).map fun predicate =>
        .typeMismatch sensor field predicate.operator declared.type value.type := by
  change (engine.toNetwork.deliver sensor field value).2.errors = _
  rw [Network.errors_deliver found, ← List.filterMap_eq_map, List.filterMap_filter]
  refine List.filterMap_congr fun predicate member => ?_
  obtain ⟨_, _, type⟩ := sound.network.of_mem_predicatesAt found member
  rw [Predicate.complaint?, type]
  cases predicate.speaks value <;> rfl

/-- Every watcher is either compared or reported. -/
theorem length_watchers (engine : Engine)
    (found : engine.sensors.field? sensor field = some declared) (value : Value) :
    (engine.deliver sensor field value).outcome.comparisons +
        (engine.deliver sensor field value).errors.length =
      (engine.graph.predicatesAt declared.watchers).length := by
  change (engine.toNetwork.deliver sensor field value).2.comparisons +
    (engine.toNetwork.deliver sensor field value).2.errors.length = _
  rw [Network.comparisons_deliver found, Network.errors_deliver found,
    List.length_filterMap_eq_countP, List.length_eq_countP_add_countP (·.speaks value)]
  refine congrArg _ (List.countP_congr fun predicate _ => ?_)
  rw [predicate.isSome_complaint?]
  cases predicate.speaks value <;> simp

/-- A value of another type is stored, and all watchers complain of it. -/
theorem Sound.deliver_of_foreign (sound : engine.Sound log)
    (found : engine.sensors.field? sensor field = some declared) {value : Value}
    (foreign : value.type ≠ declared.type) :
    (engine.deliver sensor field value).errors =
        ((engine.graph.predicatesAt declared.watchers).map fun predicate =>
          .typeMismatch sensor field predicate.operator declared.type value.type) ∧
      (engine.deliver sensor field value).outcome = .empty ∧
      (engine.deliver sensor field value).engine = engine.storing sensor field value := by
  have silent : ∀ predicate ∈ engine.graph.predicatesAt declared.watchers,
      predicate.speaks value = false := by
    intro predicate member
    obtain ⟨_, _, type⟩ := sound.network.of_mem_predicatesAt found member
    rw [Predicate.speaks_eq, type, decide_eq_false foreign, Bool.false_and]
  have stored := Network.deliver_of_still found value (by
    intro id watches predicate status test told
    have mute := silent predicate (List.mem_filterMap.2 ⟨id, watches, test⟩)
    rw [Predicate.speaks, told] at mute
    cases mute)
  have none_compared : (engine.graph.predicatesAt declared.watchers).countP
      (·.speaks value) = 0 := List.countP_eq_zero.2 fun predicate member => by
    rw [silent predicate member]
    exact Bool.false_ne_true
  have all_reported : (engine.graph.predicatesAt declared.watchers).filter (!·.speaks value) =
      engine.graph.predicatesAt declared.watchers :=
    List.filter_eq_self.2 fun predicate member => by rw [silent predicate member, Bool.not_false]
  refine ⟨by rw [sound.errors_deliver found, all_reported], ?_⟩
  rw [none_compared] at stored
  rw [Engine.deliver, stored]
  exact ⟨rfl, rfl⟩

/-- Whatever was asked of an engine, a delivery to a declared field examines each comparison with
the field once. -/
theorem Recorded.examines (recorded : Recorded engine log)
    (found : engine.sensors.field? sensor field = some declared) (value : Value) :
    ∃ delivery, engine.update sensor field value = .ok delivery ∧
      engine.Examines log sensor field declared value delivery := by
  have sound := recorded.sound
  have registered : engine.sensors.contains sensor = true := by
    obtain ⟨known, there, _⟩ := Option.bind_eq_some_iff.1 found
    rw [Table.contains, there, Option.isSome_some]
  refine ⟨engine.deliver sensor field value, update_eq_ok.2 ⟨registered, rfl⟩, ?_⟩
  constructor
  case watched => exact sound.comparisons_perm found
  case once =>
    rw [engine.length_watchers found, ← (sound.comparisons_perm found).length_eq, List.length_map]
  case errors => exact sound.errors_deliver found value
  case foreign => exact sound.deliver_of_foreign found
  case fitting =>
    intro fits
    rw [sound.errors_deliver found]
    refine congrArg _ (List.filter_congr fun predicate member => ?_)
    obtain ⟨_, _, type⟩ := sound.network.of_mem_predicatesAt found member
    rw [Predicate.speaks_eq, type, fits, decide_eq_true rfl, Bool.true_and, Bool.not_not]
  case changed => exact sound.network.changed_deliver found value

/-- Two conditions make three comparisons with a field of truth values, two of them twice. -/
theorem examines_truth :
    let requests : List Request :=
      [.addSensor 1 none [("b", .boolean)],
        .register ⟨none, none, "[1]|(<(b,true),=(b,TRUE),<(b,1))", []⟩,
        .register ⟨none, none, "[1]&(=(b,true),!=(b,0))", []⟩]
    let engine := empty.handleAll requests
    let log := empty.registrations requests
    Recorded engine log ∧
      (∃ declared, engine.sensors.field? 1 "b" = some declared ∧ declared.watchers = [0, 1, 4] ∧
        (∃ delivery, engine.update 1 "b" (.boolean true) = .ok delivery ∧
          engine.Examines log 1 "b" declared (.boolean true) delivery) ∧
        ∃ delivery, engine.update 1 "b" (.text "hot") = .ok delivery ∧
          engine.Examines log 1 "b" declared (.text "hot") delivery) ∧
      (engine.comparisonsWith log 1 "b").length = 5 ∧
      (engine.comparisonsWith log 1 "b").dedup.length = 3 := by
  intro requests engine log
  have recorded : Recorded engine log := recorded_handleAll requests
  have found : engine.sensors.field? 1 "b" = some ⟨.boolean, none, [0, 1, 4]⟩ := by decide +kernel
  refine ⟨recorded, ⟨_, found, rfl, ?_, ?_⟩, by decide +kernel, by decide +kernel⟩
  · exact recorded.examines found (.boolean true)
  · exact recorded.examines found (.text "hot")

end Engine

end Tripwire
