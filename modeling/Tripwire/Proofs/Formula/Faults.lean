import Tripwire.Proofs.Formula.Checking
import Tripwire.Proofs.Steps

/-!
# Where the check of an expression fails

A test is at fault in one way at a time. An expression is checked test by test from left to right:
without a faulty test it is a formula, and otherwise the first one is the error.
-/

namespace Tripwire

namespace WrittenTest

/-- The test names a registered sensor, a field declared on it and a literal of the field's
type. -/
def Resolves (sensors : Sensors) (test : WrittenTest) : Prop :=
  ∃ sensor field literal, sensors.get? test.sensor = some sensor ∧
    sensor.fields.get? test.field = some field ∧
      field.type.read? test.literal.text = some literal

/-- What is wrong with a test that does not resolve. -/
inductive Fault (sensors : Sensors) (test : WrittenTest) : Error → Prop where
  | sensor (unknown : sensors.get? test.sensor = none) :
      Fault sensors test (.unknownSensor test.sensor)
  | field {sensor : Sensor} (known : sensors.get? test.sensor = some sensor)
      (undeclared : sensor.fields.get? test.field = none) :
      Fault sensors test (.unknownField test.sensor test.field)
  | literal {sensor : Sensor} {field : Field} (known : sensors.get? test.sensor = some sensor)
      (declared : sensor.fields.get? test.field = some field)
      (unread : field.type.read? test.literal.text = none) :
      Fault sensors test (.malformed test.literal.span.start
        (.badLiteral test.literal.text field.type test.field))

end WrittenTest

namespace Predicate

variable {sensors : Sensors} {test : WrittenTest}

theorem exists_ofTest_eq_ok :
    (∃ predicate, ofTest sensors test = .ok predicate) ↔ test.Resolves sensors := by
  constructor
  · rintro ⟨predicate, tested⟩
    obtain ⟨type, literal, declared, read, _⟩ := ofTest_eq_ok.1 tested
    obtain ⟨field, found, rfl⟩ := Option.map_eq_some_iff.1 declared
    obtain ⟨sensor, known, has⟩ := Option.bind_eq_some_iff.1 found
    exact ⟨sensor, field, literal, known, has, read⟩
  · rintro ⟨sensor, field, literal, known, declared, read⟩
    refine ⟨⟨test.sensor, test.field, test.operator, literal⟩, ?_⟩
    simp [ofTest, known, declared, read]

/-- When a test fails the check, and with which error. -/
theorem ofTest_eq_error {error : Error} :
    ofTest sensors test = .error error ↔ test.Fault sensors error := by
  constructor
  · unfold ofTest
    cases known : sensors.get? test.sensor with
    | none =>
        rintro ⟨⟩
        exact .sensor known
    | some sensor =>
        cases declared : sensor.fields.get? test.field with
        | none =>
            simp only [declared]
            rintro ⟨⟩
            exact .field known declared
        | some field =>
            cases read : field.type.read? test.literal.text with
            | none =>
                simp only [declared, read]
                rintro ⟨⟩
                exact .literal known declared read
            | some literal => simp [declared, read]
  · intro fault
    cases fault with
    | sensor unknown => simp [ofTest, unknown]
    | field known undeclared => simp [ofTest, known, undeclared]
    | literal known declared unread => simp [ofTest, known, declared, unread]

end Predicate

namespace Formula

variable {sensors : Sensors}

theorem predicates_group {junction : Junction} {members : List Formula} :
    (group junction members).predicates = members.flatMap predicates := by
  have inside : partsOfMembers members = members.flatMap parts := by
    induction members with
    | nil => rfl
    | cons first rest ih => rw [partsOfMembers, List.flatMap_cons, ih]
  rw [predicates, parts, inside, List.filterMap_cons, List.filterMap_flatMap]
  rfl

/-- Members are checked by the checks of all their tests. -/
theorem map_predicates_ofMembers {members : List Expr}
    (each : ∀ member ∈ members, (ofExpr sensors member).map predicates =
      member.tests.mapM (Predicate.ofTest sensors)) :
    (ofMembers sensors members).map (List.flatMap predicates) =
      (Expr.testsOfMembers members).mapM (Predicate.ofTest sensors) := by
  induction members with
  | nil => rfl
  | cons first rest ih =>
      obtain ⟨here, others⟩ := List.forall_mem_cons.1 each
      rw [ofMembers, Expr.testsOfMembers, List.mapM_append, ← here, ← ih others]
      cases ofExpr sensors first with
      | error error => rfl
      | ok formula =>
          cases ofMembers sensors rest with
          | error error => rfl
          | ok formulas => rfl

/-- An expression is checked by the checks of its tests from left to right. -/
theorem map_predicates_ofExpr (sensors : Sensors) (expr : Expr) :
    (ofExpr sensors expr).map predicates = expr.tests.mapM (Predicate.ofTest sensors) := by
  induction expr using Expr.induction with
  | test leaf =>
      rw [ofExpr, Expr.tests, List.mapM_cons, List.mapM_nil]
      cases Predicate.ofTest sensors leaf with
      | error error => rfl
      | ok predicate => rfl
  | group junction members span ih =>
      rw [ofExpr, Expr.tests, ← map_predicates_ofMembers ih]
      cases ofMembers sensors members with
      | error error => rfl
      | ok formulas => exact congrArg _ predicates_group

/-- An expression passes the check if all its tests resolve. -/
theorem exists_ofExpr_eq_ok {expr : Expr} :
    (∃ formula, ofExpr sensors expr = .ok formula) ↔
      ∀ test ∈ expr.tests, test.Resolves sensors := by
  have passes : (∃ formula, ofExpr sensors expr = .ok formula) ↔
      ∃ found, (ofExpr sensors expr).map predicates = .ok found :=
    exists_map_eq_ok.symm
  simp only [passes, map_predicates_ofExpr, exists_mapM_eq_ok, Predicate.exists_ofTest_eq_ok]

/-- The first test that does not resolve is the error of an expression. -/
theorem ofExpr_eq_error {expr : Expr} {error : Error} :
    ofExpr sensors expr = .error error ↔
      ∃ before test after, expr.tests = before ++ test :: after ∧
        (∀ earlier ∈ before, earlier.Resolves sensors) ∧ test.Fault sensors error := by
  have fails : ofExpr sensors expr = .error error ↔
      (ofExpr sensors expr).map predicates = .error error :=
    map_eq_error.symm
  simp only [fails, map_predicates_ofExpr, mapM_eq_error, Predicate.exists_ofTest_eq_ok,
    Predicate.ofTest_eq_error]

end Formula

end Tripwire
