import Tripwire.Expr
import Tripwire.Formula
import Tripwire.Sensor
import Tripwire.Value.Literal

/-!
# What conditions mean

The meaning of an expression, told from the latest values of the fields alone: no graph, no
counts and no memory of earlier values. A test holds if its field has a value and the
comparison with its literal, read as the declared type, is defined and true. The meaning of a
formula is relative to what its tests say.
-/

namespace Tripwire

namespace Junction

/-- Whether a group holds of whose members these are the statuses. -/
def combine : Junction → List Bool → Bool
  | all, statuses => statuses.all id
  | any, statuses => statuses.any id

/-- The status told by a count is that of the members counted. -/
theorem status_count (junction : Junction) (statuses : List Bool) :
    junction.status (statuses.count true) statuses.length = junction.combine statuses := by
  cases junction with
  | all =>
      simp only [status, combine]
      induction statuses with
      | nil => rfl
      | cons first rest ih =>
          have bounded : rest.count true ≤ rest.length := List.count_le_length
          cases first with
          | true => simpa using ih
          | false =>
              have apart : rest.count true ≠ rest.length + 1 := by omega
              simp [apart]
  | any =>
      simp only [status, combine]
      induction statuses with
      | nil => rfl
      | cons first rest ih => cases first <;> simp_all

end Junction

/-- What a written test says of the latest value of its field. -/
def WrittenTest.holds (sensors : Sensors) (test : WrittenTest) : Bool :=
  match sensors.field? test.sensor test.field with
  | none => false
  | some field =>
      match field.type.read? test.literal.text, field.value with
      | some literal, some value => value.compare? test.operator literal == some true
      | _, _ => false

namespace Expr

mutual

/-- Whether an expression holds of the latest values. -/
def holds (sensors : Sensors) : Expr → Bool
  | test leaf => leaf.holds sensors
  | group junction members _ => junction.combine (statuses sensors members)

/-- Whether each member holds. -/
def statuses (sensors : Sensors) : List Expr → List Bool
  | [] => []
  | first :: rest => first.holds sensors :: statuses sensors rest

end

theorem statuses_eq_map (sensors : Sensors) (members : List Expr) :
    statuses sensors members = members.map (holds sensors) := by
  induction members with
  | nil => rfl
  | cons first rest ih => rw [statuses, ih, List.map_cons]

end Expr

namespace Formula

mutual

/-- Whether a formula holds, given what each test says. -/
def holds (truth : Predicate → Bool) : Formula → Bool
  | test predicate => truth predicate
  | group junction members => junction.combine (statuses truth members)

/-- Whether each member holds. -/
def statuses (truth : Predicate → Bool) : List Formula → List Bool
  | [] => []
  | first :: rest => first.holds truth :: statuses truth rest

end

theorem statuses_eq_map (truth : Predicate → Bool) (members : List Formula) :
    statuses truth members = members.map (holds truth) := by
  induction members with
  | nil => rfl
  | cons first rest ih => rw [statuses, ih, List.map_cons]

end Formula

end Tripwire
