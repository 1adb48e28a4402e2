import Tripwire.Proofs.Network.Delivery

/-!
# Faithful networks

While all values are of the types of their fields, every test stands as it tells of the latest
value. A value on which a test is silent leaves the test as it was, but whether a test is silent
is settled by the type of its field, so that such a test never held.
-/

namespace Tripwire

/-- Whether a comparison is defined is a matter of types. -/
theorem Value.isSome_compare? (operator : Comparison) (value literal : Value) :
    (value.compare? operator literal).isSome =
      (decide (value.type = literal.type) &&
        !(operator.isOrdering && decide (value.type = .boolean))) := by
  unfold compare?
  split
  case isTrue apart => simp [apart]
  case isFalse same =>
    rw [Decidable.not_not] at same
    split
    case isTrue unordered => simp only [unordered, Bool.not_true, Bool.and_false]; rfl
    case isFalse ordered =>
      rw [Bool.not_eq_true] at ordered
      rw [ordered, decide_eq_true same]
      cases value.ordering? literal <;> rfl

theorem Predicate.test_eq_none_congr {predicate : Predicate} {first second : Value}
    (same : first.type = second.type) (silent : predicate.test first = none) :
    predicate.test second = none := by
  have undefined := congrArg Option.isSome silent
  unfold test at undefined ⊢
  rw [Value.isSome_compare?, same, ← Value.isSome_compare?] at undefined
  exact Option.isSome_eq_false_iff.1 undefined |> Option.isNone_iff_eq_none.1

namespace Network

/-- Every value is of its field's type, and every test stands as it tells of the latest value. -/
structure Faithful (network : Network) : Prop where
  value : ∀ {sensor field type value}, network.sensors.type? sensor field = some type →
    network.sensors.value? sensor field = some value → value.type = type
  current : ∀ {id predicate}, network.graph.predicate? id = some predicate →
    network.graph.status id = network.current predicate

variable {before after : Network} {sensor : SensorId} {field : String} {value : Value}
  {transitions : List Transition}

theorem faithful_empty : Faithful empty where
  value declared := by cases declared
  current found := by simp [Graph.predicate?, Graph.node?, Graph.empty, empty] at found

/-- A test that is silent on a value of its field's type does not hold. -/
theorem Faithful.status_of_silent (faithful : before.Faithful) (sound : before.Sound)
    {id : NodeId} {predicate : Predicate}
    (found : before.graph.predicate? id = some predicate)
    (fits : before.sensors.Fits predicate.sensor predicate.field value)
    (silent : predicate.test value = none) : before.graph.status id = false := by
  have typed := sound.typed found
  rw [faithful.current found]
  change ((before.sensors.value? predicate.sensor predicate.field).bind
    predicate.test).getD false = false
  cases latest : before.sensors.value? predicate.sensor predicate.field with
  | none => rfl
  | some old =>
      have same : value.type = old.type :=
        (fits _ typed).trans (faithful.value typed latest).symm
      rw [Option.bind_some, Predicate.test_eq_none_congr same silent]
      rfl

theorem Faithful.delivered (faithful : before.Faithful) (sound : before.Sound)
    {declared : Field} (found : before.sensors.field? sensor field = some declared)
    (fits : before.sensors.Fits sensor field value)
    (delivered : before.Delivered sensor field value after transitions) : after.Faithful := by
  have latest := Sensors.value?_setValue found value
  rw [← delivered.sensors] at latest
  constructor
  · intro other name type known declared stored
    rw [delivered.type?_eq] at declared
    rw [latest] at stored
    split at stored
    case isTrue here =>
      cases stored
      rw [here.1, here.2] at declared
      exact fits type declared
    case isFalse => exact faithful.value declared stored
  · intro id predicate test
    rw [Graph.predicate?_of_frame_eq delivered.frame] at test
    rw [delivered.test test]
    change _ = ((after.sensors.value? predicate.sensor predicate.field).bind
      predicate.test).getD false
    rw [latest]
    by_cases on : predicate.sensor = sensor ∧ predicate.field = field
    · have isOn : predicate.isOn sensor field = true := by simp [Predicate.isOn, on]
      rw [if_pos isOn, if_pos on, Option.bind_some]
      cases told : predicate.test value with
      | none =>
          rw [← on.1, ← on.2] at fits
          exact faithful.status_of_silent sound test fits told
      | some status => rfl
    · have isOff : ¬predicate.isOn sensor field = true := by simpa [Predicate.isOn] using on
      rw [if_neg isOff, if_neg on]
      exact faithful.current test

/-- A value of the right type keeps a network faithful. -/
theorem Faithful.deliver (faithful : before.Faithful) (sound : before.Sound)
    (fits : before.sensors.Fits sensor field value) :
    (before.deliver sensor field value).1.Faithful := by
  cases found : before.sensors.field? sensor field with
  | none =>
      rw [deliver_of_undeclared found]
      exact faithful
  | some declared => exact faithful.delivered sound found fits (sound.delivered found value)

end Network

end Tripwire
