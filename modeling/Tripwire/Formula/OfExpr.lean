import Tripwire.Expr
import Tripwire.Formula
import Tripwire.Sensor
import Tripwire.Value.Literal

/-!
# Checking expressions

An expression becomes a formula if every test names a registered sensor, a field declared on
it and a literal of the field's type. Otherwise the leftmost test that does not is the error,
and its faults count in that order.
-/

namespace Tripwire

/-- Checks one test. -/
def Predicate.ofTest (sensors : Sensors) (test : WrittenTest) : Except Error Predicate :=
  match sensors.get? test.sensor with
  | none => .error (.unknownSensor test.sensor)
  | some sensor =>
      match sensor.fields.get? test.field with
      | none => .error (.unknownField test.sensor test.field)
      | some field =>
          match field.type.read? test.literal.text with
          | none =>
              .error (.malformed test.literal.span.start
                (.badLiteral test.literal.text field.type test.field))
          | some literal => .ok ⟨test.sensor, test.field, test.operator, literal⟩

namespace Formula

mutual

/-- Checks an expression. -/
def ofExpr (sensors : Sensors) : Expr → Except Error Formula
  | .test leaf => (Predicate.ofTest sensors leaf).map .test
  | .group junction members _ => (ofMembers sensors members).map (.group junction)

/-- Checks members from left to right. -/
def ofMembers (sensors : Sensors) : List Expr → Except Error (List Formula)
  | [] => .ok []
  | first :: rest => do
      let formula ← ofExpr sensors first
      let formulas ← ofMembers sensors rest
      return formula :: formulas

end

end Formula

end Tripwire
