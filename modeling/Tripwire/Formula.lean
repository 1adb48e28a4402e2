import Tripwire.Error
import Tripwire.Junction
import Tripwire.Value.Printer

/-!
# Formulas

A formula is an expression whose fields are declared and whose literals are values of their
types. Its text is an expression again: every test carries its scope, so the text means the
same wherever it stands.
-/

namespace Tripwire

/-- A test of a field against a value of its declared type. -/
structure Predicate where
  sensor : SensorId
  field : String
  operator : Comparison
  literal : Value
deriving DecidableEq

namespace Predicate

/-- What the test says of a value, if it says anything. -/
def test (predicate : Predicate) (value : Value) : Option Bool :=
  value.compare? predicate.operator predicate.literal

/-- The characters of the test with its scope. -/
def letters (predicate : Predicate) : List Char :=
  '[' :: (Number.digitsOf 10 predicate.sensor.toNat ++ ']' ::
    (predicate.operator.symbol.toList ++ '(' ::
      (predicate.field.toList ++ ',' :: (predicate.literal.letters ++ [')']))))

end Predicate

/-- A checked condition. -/
inductive Formula where
  | test (predicate : Predicate)
  | group (junction : Junction) (members : List Formula)

namespace Formula

mutual

/-- The characters of a formula. -/
def letters : Formula → List Char
  | test predicate => predicate.letters
  | group junction members =>
      junction.symbol.toList ++ '(' ::
        ([','].intercalate (lettersOfMembers members) ++ [')'])

/-- The characters of each member. -/
def lettersOfMembers : List Formula → List (List Char)
  | [] => []
  | first :: rest => first.letters :: lettersOfMembers rest

end

/-- The text of a formula. -/
def print (formula : Formula) : String :=
  String.ofList formula.letters

end Formula

end Tripwire
