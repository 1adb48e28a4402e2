import Tripwire.Proofs.Engine.Runs
import Tripwire.Proofs.Network.Faithful

/-!
# Conditions mean what their texts say

Along a run in which every value is of its field's type, a condition is satisfied exactly while
its text, evaluated afresh on the latest values, holds.
-/

namespace Tripwire

namespace Engine

variable {engine extended : Engine} {log : List Registration}

/-- All values that a run delivers to declared fields are of the fields' types. -/
def Fitting (engine : Engine) : List Request → Prop
  | [] => True
  | request :: rest =>
      (∀ delivery ∈ request.deliveries,
        engine.sensors.Fits delivery.1 delivery.2.1 delivery.2.2) ∧
        (engine.handle request).Fitting rest

instance decidableFitting (engine : Engine) : (requests : List Request) →
    Decidable (engine.Fitting requests)
  | [] => .isTrue trivial
  | request :: rest =>
      have := decidableFitting (engine.handle request) rest
      inferInstanceAs (Decidable (_ ∧ _))

theorem Fitting.of_append {requests rest : List Request}
    (fitting : engine.Fitting (requests ++ rest)) : engine.Fitting requests := by
  induction requests generalizing engine with
  | nil => trivial
  | cons request requests ih => exact ⟨fitting.1, ih fitting.2⟩

/-! ## Every request keeps an engine faithful -/

theorem faithful_addSensor (sound : engine.toNetwork.Sound)
    (faithful : engine.toNetwork.Faithful) {id : SensorId} {sensor : Sensor}
    (blank : sensor.Blank) (added : engine.addSensor id sensor = .ok extended) :
    extended.toNetwork.Faithful := by
  obtain ⟨fresh, rfl⟩ := addSensor_eq_ok.1 added
  constructor
  · intro other name type value declared stored
    unfold Sensors.type? at declared
    rw [Sensors.field?_insert] at declared
    rw [Sensors.value?_insert blank] at stored
    split at stored
    case isTrue => cases stored
    case isFalse apart =>
      rw [if_neg apart] at declared
      exact faithful.value declared stored
  · intro node predicate test
    have apart := Sensors.ne_of_type? fresh (sound.typed test)
    have latest := Sensors.value?_insert blank engine.sensors id predicate.sensor predicate.field
    rw [if_neg apart] at latest
    refine (faithful.current test).trans ?_
    change ((engine.sensors.value? _ _).bind predicate.test).getD false =
      ((Sensors.value? (engine.sensors.insert id sensor) _ _).bind predicate.test).getD false
    rw [latest]

theorem Enrolled.faithful {root : Root} {formula : Formula} {top : NodeId}
    (enrolled : engine.Enrolled root formula top extended)
    (faithful : engine.toNetwork.Faithful) : extended.toNetwork.Faithful where
  value declared stored := by
    rw [enrolled.type] at declared
    rw [enrolled.value] at stored
    exact faithful.value declared stored
  current := by
    intro id predicate test
    by_cases earlier : id < engine.graph.size
    · rw [enrolled.grows.predicate?_eq earlier] at test
      rw [enrolled.grows.status_eq earlier, faithful.current test]
      exact (congrFun (Network.current_congr enrolled.value) predicate).symm
    · exact enrolled.seeded (Nat.le_of_not_lt earlier) test

theorem faithful_deliverAll (sensor : SensorId) (payload : List (String × Value))
    {engine : Engine} (sound : engine.Sound log) (faithful : engine.toNetwork.Faithful)
    (fits : ∀ item ∈ payload, engine.sensors.Fits sensor item.1 item.2) :
    (engine.deliverAll sensor payload).toNetwork.Faithful := by
  induction payload generalizing engine with
  | nil => exact faithful
  | cons item rest ih =>
      refine ih (sound.deliver sensor item.1 item.2).1
        (faithful.deliver sound.network (fits item List.mem_cons_self)) fun other member => ?_
      have type := engine.toNetwork.type?_deliver sensor item.1 item.2
      intro declared found
      exact fits other (.tail _ member) declared (type ▸ found)

theorem faithful_handle (sound : engine.Sound log) (faithful : engine.toNetwork.Faithful)
    (request : Request)
    (fits : ∀ delivery ∈ request.deliveries,
      engine.sensors.Fits delivery.1 delivery.2.1 delivery.2.2) :
    (engine.handle request).toNetwork.Faithful := by
  have handled := engine.handled request
  generalize engine.handle request = after, engine.accepted request.conditions = added,
    engine.reports request = reported at handled ⊢
  cases handled with
  | refused => exact faithful
  | declared blank added => exact faithful_addSensor sound.network faithful blank added
  | registered registered =>
      obtain ⟨_, _, formula, checked, rfl⟩ := register_eq_ok.1 registered
      obtain ⟨child, top, enrolled⟩ := enrolled sound checked
      exact enrolled.faithful faithful
  | delivered asked =>
      refine faithful_deliverAll _ _ sound faithful fun item member => ?_
      exact fits (_, item.1, item.2) (asked ▸ List.mem_map_of_mem member)

theorem faithful_handleAll (requests : List Request) {engine : Engine}
    {log : List Registration} (sound : engine.Sound log)
    (faithful : engine.toNetwork.Faithful) (fitting : engine.Fitting requests) :
    (engine.handleAll requests).toNetwork.Faithful := by
  induction requests generalizing engine log with
  | nil => exact faithful
  | cons request rest ih =>
      exact ih (sound.handle request) (faithful_handle sound faithful request fitting.1)
        fitting.2

theorem faithful_registerAll (entries : List ConditionEntry) {engine : Engine}
    {log : List Registration} (sound : engine.Sound log)
    (faithful : engine.toNetwork.Faithful) :
    (engine.registerAll entries).1.toNetwork.Faithful := by
  induction entries generalizing engine log with
  | nil => exact faithful
  | cons entry rest ih =>
      rw [Engine.registerAll]
      cases registered : engine.register entry with
      | error error => exact ih sound faithful
      | ok result =>
          have next := sound.register registered
          obtain ⟨_, _, formula, checked, same⟩ := register_eq_ok.1 registered
          obtain ⟨child, top, enrolled⟩ := enrolled sound checked
          exact ih next (same ▸ enrolled.faithful faithful)

/-- In a loaded engine all tests stand as the latest values tell: nothing was delivered. -/
theorem faithful_of_load {config : Config} {report : Report}
    (loaded : load config = .ok (engine, report)) : engine.toNetwork.Faithful := by
  obtain ⟨declared, found, rfl, _⟩ := load_eq_ok loaded
  have kept : ∀ {earlier entry next}, Sound earlier [] ∧ earlier.toNetwork.Faithful →
      addEntry earlier entry = .ok next → Sound next [] ∧ next.toNetwork.Faithful := by
    rintro earlier entry next ⟨sound, faithful⟩ added
    refine ⟨sound.addEntry added, ?_⟩
    obtain ⟨sensor, known, added⟩ := addEntry_eq_ok.1 added
    exact faithful_addSensor sound.network faithful (SensorEntry.blank_sensor known) added
  obtain ⟨sound, faithful⟩ := foldlM_ok_invariant kept config.sensors
    ⟨sound_empty, Network.faithful_empty⟩ found
  exact faithful_registerAll config.conditions (sound.numbered config.firstFreeId) faithful

/-! ## The meaning of a condition -/

/-- In a sound and faithful engine a condition is satisfied exactly if its text holds. -/
theorem Sound.isSatisfied_eq_holds (sound : engine.Sound log)
    (faithful : engine.toNetwork.Faithful) {registration : Registration}
    (member : registration ∈ log) :
    ∃ expr, Expr.parse registration.entry.expression = .ok expr ∧
      engine.isSatisfied registration.condition = expr.holds engine.sensors := by
  obtain ⟨formula, carried⟩ := sound.carried registration member
  obtain ⟨expr, parsed, checked⟩ := check_eq_ok.1 carried.checked
  refine ⟨expr, parsed, ?_⟩
  rw [sound.isSatisfied_eq_of_tests carried fun test => faithful.current test]
  exact (Formula.holds_of_ofExpr checked).symm

/-- At every point of a run of fitting values, each registered condition is satisfied exactly if
its own text holds of the latest values. -/
theorem run_isSatisfied_eq_holds {requests done : List Request} (fitting : empty.Fitting requests)
    (point : done <+: requests) :
    (∀ condition, (empty.handleAll done).roots.contains condition = true ↔
        ∃ registration ∈ empty.registrations done, registration.condition = condition) ∧
      ((empty.registrations done).map Registration.condition).Nodup ∧
        ∀ registration ∈ empty.registrations done,
          ∃ expr, Expr.parse registration.entry.expression = .ok expr ∧
            (empty.handleAll done).isSatisfied registration.condition =
              expr.holds (empty.handleAll done).sensors := by
  obtain ⟨rest, rfl⟩ := point
  have sound := (recorded_handleAll done).sound
  have faithful := faithful_handleAll done sound_empty Network.faithful_empty fitting.of_append
  exact ⟨fun condition => sound.registered, sound.once, fun registration member =>
    sound.isSatisfied_eq_holds faithful member⟩

theorem run_isSatisfied_eq_holds_samples :
    empty.Fitting (samples.take 4) ∧ samples.take 3 <+: samples.take 4 ∧
      (∀ registration ∈ empty.registrations (samples.take 3),
        ∃ expr, Expr.parse registration.entry.expression = .ok expr ∧
          (empty.handleAll (samples.take 3)).isSatisfied registration.condition =
            expr.holds (empty.handleAll (samples.take 3)).sensors) ∧
        (empty.registrations (samples.take 3)).length = 1 := by
  have fitting : empty.Fitting (samples.take 4) := by decide +kernel
  have point : samples.take 3 <+: samples.take 4 := by decide +kernel
  exact ⟨fitting, point, (run_isSatisfied_eq_holds fitting point).2.2, by decide +kernel⟩

end Engine

end Tripwire
