import Tripwire.Comparison
import Tripwire.FieldType

/-!
# Errors

Every way in which a request can fail, as a cause. The wording of all causes is in
`Error.message` and the functions it calls.
-/

namespace Tripwire

/-- Identifies a data source. -/
abbrev SensorId := UInt32

/-- Identifies a registered condition. -/
abbrev ConditionId := UInt32

/-- What would have been accepted where an expression goes wrong. -/
inductive Expectation where
  | sensorId
  | closeBracket
  | operator
  | openGroup
  | openTest
  | separator
  | fieldName
  | comma
  | literal
  | closeTest
deriving DecidableEq, Repr

def Expectation.phrase : Expectation → String
  | sensorId => "sensor id"
  | closeBracket => "']'"
  | operator => "combinator or comparison operator"
  | openGroup => "'(' after combinator"
  | openTest => "'(' after operator"
  | separator => "',' or ')'"
  | fieldName => "field name"
  | comma => "','"
  | literal => "literal"
  | closeTest => "')'"

/-- What stands where an expression goes wrong. -/
inductive Found where
  | finish
  | lexeme (text : String)
deriving DecidableEq, Repr

def Found.phrase : Found → String
  | finish => "end of input"
  | lexeme text => "'" ++ text ++ "'"

/-- What is wrong with the text of an expression. -/
inductive Flaw where
  | openQuote
  | loneBang
  | noTokens
  | tooDeep
  | badScope (text : String)
  | expected (wanted : Expectation) (found : Found)
  | trailing (found : Found)
  | badLiteral (literal : String) (type : FieldType) (field : String)
deriving DecidableEq, Repr

def Flaw.phrase : Flaw → String
  | openQuote => "Unterminated string literal"
  | loneBang => "Unknown operator '!'"
  | noTokens => "Empty token stream"
  | tooDeep => "Expression nested too deeply"
  | badScope text => "Sensor scope must be a non-negative integer, got '" ++ text ++ "'"
  | expected wanted found => "Expected " ++ wanted.phrase ++ ", got " ++ found.phrase
  | trailing found => "Unexpected " ++ found.phrase ++ " after expression"
  | badLiteral literal type field =>
      "Literal '" ++ literal ++ "' is not a valid " ++ type.name ++ " for field '" ++ field ++ "'"

/-- The causes of failure. -/
inductive Error where
  | malformed (position : Nat) (flaw : Flaw)
  | unscoped (position : Nat)
  | unknownSensor (sensor : SensorId)
  | unknownField (sensor : SensorId) (field : String)
  | typeMismatch (sensor : SensorId) (field : String) (operator : Comparison)
      (expected got : FieldType)
  | duplicateSensor (sensor : SensorId)
  | duplicateCondition (condition : ConditionId)
  | fieldDeclaredTwice (sensor : SensorId) (field : String)
  | dispatchFailed (reason : String)
  | queueClosed
deriving DecidableEq, Repr

namespace Error

def message : Error → String
  | malformed position flaw =>
      "Malformed expression at position " ++ toString position ++ ": " ++ flaw.phrase
  | unscoped position =>
      "Predicate at position " ++ toString position ++ " has no enclosing sensor scope"
  | unknownSensor sensor => "Unknown sensor: " ++ toString sensor
  | unknownField sensor field =>
      "Unknown field '" ++ field ++ "' on sensor " ++ toString sensor
  | typeMismatch sensor field operator expected got =>
      "Type mismatch on sensor " ++ toString sensor ++ " field '" ++ field ++ "': '" ++
        operator.symbol ++ "' expects " ++ expected.name ++ ", got " ++ got.name
  | duplicateSensor sensor => "Sensor " ++ toString sensor ++ " is already registered"
  | duplicateCondition condition =>
      "Condition " ++ toString condition ++ " is already registered"
  | fieldDeclaredTwice sensor field =>
      "Configuration error: sensor " ++ toString sensor ++ " declares field '" ++ field ++
        "' twice"
  | dispatchFailed reason => "Dispatch error: " ++ reason
  | queueClosed => "Evaluation queue is closed"

/-- An update that meets a recoverable error skips only what the error concerns. -/
def isRecoverable : Error → Bool
  | unknownField .. => true
  | typeMismatch .. => true
  | _ => false

end Error

end Tripwire
