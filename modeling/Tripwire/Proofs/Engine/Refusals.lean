import Tripwire.Engine.History
import Tripwire.Engine.InPlace
import Tripwire.Proofs.Engine.Soundness
import Tripwire.Proofs.Expr.Errors
import Tripwire.Proofs.Formula.Faults

/-!
# What registration refuses

A condition is registered exactly if its id is free, its text is an expression and all tests in it
resolve. What comes first in this order decides the error, and registering in place shows that
nothing has been done to the engine by then.
-/

namespace Tripwire

theorem Expr.parse_eq_ok {text : String} {expr : Expr} :
    parse text = .ok expr ↔ ∃ tokens, Token.scan text = .ok tokens ∧ ofTokens tokens = .ok expr :=
  bind_eq_ok

theorem Expr.parse_eq_error {text : String} {error : Error} :
    parse text = .error error ↔ Token.scan text = .error error ∨
      ∃ tokens, Token.scan text = .ok tokens ∧ ofTokens tokens = .error error :=
  bind_eq_error

namespace Engine

variable {engine : Engine} {entry : ConditionEntry}

/-- The condition's id, its own or the next one, is free, and its text is an expression whose tests
all resolve. -/
structure Admits (engine : Engine) (entry : ConditionEntry) : Prop where
  fresh : engine.roots.contains (entry.id.getD engine.nextId) = false
  expression : ∃ tokens expr, Token.scan entry.expression = .ok tokens ∧
    Expr.ofTokens tokens = .ok expr ∧ ∀ test ∈ expr.tests, test.Resolves engine.sensors

/-- Why a condition is not registered. A taken id is found before the text is looked at, and the
text is read to its end before the sensors are. -/
inductive Refuses (engine : Engine) (entry : ConditionEntry) : Error → Prop where
  | registered (taken : engine.roots.contains (entry.id.getD engine.nextId) = true) :
      Refuses engine entry (.duplicateCondition (entry.id.getD engine.nextId))
  | unscanned {error : Error}
      (fresh : engine.roots.contains (entry.id.getD engine.nextId) = false)
      (scanned : Token.scan entry.expression = .error error) : Refuses engine entry error
  | unparsed {tokens : List Token} {error : Error}
      (fresh : engine.roots.contains (entry.id.getD engine.nextId) = false)
      (scanned : Token.scan entry.expression = .ok tokens)
      (parsed : Expr.ofTokens tokens = .error error) : Refuses engine entry error
  | faulty {tokens : List Token} {expr : Expr} {before after : List WrittenTest}
      {test : WrittenTest} {error : Error}
      (fresh : engine.roots.contains (entry.id.getD engine.nextId) = false)
      (scanned : Token.scan entry.expression = .ok tokens)
      (parsed : Expr.ofTokens tokens = .ok expr) (split : expr.tests = before ++ test :: after)
      (fine : ∀ earlier ∈ before, earlier.Resolves engine.sensors)
      (fault : test.Fault engine.sensors error) : Refuses engine entry error

/-! ## When a text is refused -/

theorem exists_check_eq_ok {expression : String} :
    (∃ formula, engine.check expression = .ok formula) ↔
      ∃ tokens expr, Token.scan expression = .ok tokens ∧ Expr.ofTokens tokens = .ok expr ∧
        ∀ test ∈ expr.tests, test.Resolves engine.sensors := by
  simp only [check_eq_ok, Expr.parse_eq_ok]
  constructor
  · rintro ⟨formula, expr, ⟨tokens, scanned, parsed⟩, checked⟩
    exact ⟨tokens, expr, scanned, parsed, Formula.exists_ofExpr_eq_ok.1 ⟨formula, checked⟩⟩
  · rintro ⟨tokens, expr, scanned, parsed, resolve⟩
    obtain ⟨formula, checked⟩ := Formula.exists_ofExpr_eq_ok.2 resolve
    exact ⟨formula, expr, ⟨tokens, scanned, parsed⟩, checked⟩

theorem check_eq_error {expression : String} {error : Error} :
    engine.check expression = .error error ↔ Expr.parse expression = .error error ∨
      ∃ expr, Expr.parse expression = .ok expr ∧
        Formula.ofExpr engine.sensors expr = .error error :=
  bind_eq_error

/-! ## When a condition is refused -/

theorem register_of_taken
    (taken : engine.roots.contains (entry.id.getD engine.nextId) = true) :
    engine.register entry = .error (.duplicateCondition (entry.id.getD engine.nextId)) :=
  if_pos taken

theorem register_of_fresh
    (fresh : engine.roots.contains (entry.id.getD engine.nextId) = false) :
    engine.register entry = (engine.check entry.expression).map fun formula =>
      (engine.enroll (entry.id.getD engine.nextId) entry formula, entry.id.getD engine.nextId) :=
  if_neg (Bool.not_eq_true _ ▸ fresh)

theorem exists_register_eq_ok :
    (∃ after id, engine.register entry = .ok (after, id)) ↔ engine.Admits entry := by
  constructor
  · rintro ⟨after, id, done⟩
    obtain ⟨rfl, fresh, formula, checked, _⟩ := register_eq_ok.1 done
    exact ⟨fresh, exists_check_eq_ok.1 ⟨formula, checked⟩⟩
  · intro admitted
    obtain ⟨formula, checked⟩ := exists_check_eq_ok.2 admitted.expression
    exact ⟨_, _, register_eq_ok.2 ⟨rfl, admitted.fresh, formula, checked, rfl⟩⟩

theorem register_eq_error {error : Error} :
    engine.register entry = .error error ↔ engine.Refuses entry error := by
  cases taken : engine.roots.contains (entry.id.getD engine.nextId) with
  | true =>
      rw [register_of_taken taken]
      constructor
      · rintro ⟨⟩
        exact .registered taken
      · intro refused
        cases refused with
        | registered _ => rfl
        | unscanned fresh _ | unparsed fresh _ _ | faulty fresh _ _ _ _ _ =>
            rw [taken] at fresh
            cases fresh
  | false =>
      rw [register_of_fresh taken, map_eq_error, check_eq_error, Expr.parse_eq_error]
      constructor
      · rintro ((scanned | ⟨tokens, scanned, parsed⟩) | ⟨expr, parsed, checked⟩)
        · exact .unscanned taken scanned
        · exact .unparsed taken scanned parsed
        · obtain ⟨tokens, scanned, parsed⟩ := Expr.parse_eq_ok.1 parsed
          obtain ⟨before, test, after, split, fine, fault⟩ := Formula.ofExpr_eq_error.1 checked
          exact .faulty taken scanned parsed split fine fault
      · intro refused
        cases refused with
        | registered found =>
            rw [taken] at found
            cases found
        | unscanned _ scanned => exact .inl (.inl scanned)
        | unparsed _ scanned parsed => exact .inl (.inr ⟨_, scanned, parsed⟩)
        | faulty _ scanned parsed split fine fault =>
            exact .inr ⟨_, Expr.parse_eq_ok.2 ⟨_, scanned, parsed⟩,
              Formula.ofExpr_eq_error.2 ⟨_, _, _, split, fine, fault⟩⟩

/-- A condition is refused as a duplicate for no other reason than that its id is taken. -/
theorem register_eq_duplicate {condition : ConditionId} :
    engine.register entry = .error (.duplicateCondition condition) ↔
      condition = entry.id.getD engine.nextId ∧ engine.roots.contains condition = true := by
  rw [register_eq_error]
  constructor
  · intro refused
    cases refused with
    | registered taken => exact ⟨rfl, taken⟩
    | unscanned _ scanned => exact absurd (Token.textual_of_scan scanned) id
    | unparsed _ _ parsed => exact absurd (Expr.textual_of_ofTokens parsed) id
    | faulty _ _ _ _ _ fault => cases fault
  · rintro ⟨rfl, taken⟩
    exact .registered taken

/-! ## Registering in place -/

namespace Work

theorem run_ofExcept {α : Type} (engine : Engine) (result : Except Error α) :
    (MonadExcept.ofExcept result : Work α).run engine =
      match result with
      | .ok value => .ok value engine
      | .error error => .error error engine := by
  cases result <;> rfl

/-- The first part only reads. -/
theorem run_check (engine : Engine) (entry : ConditionEntry) :
    (check entry).run engine =
      if engine.roots.contains (entry.id.getD engine.nextId) then
        .error (.duplicateCondition (entry.id.getD engine.nextId)) engine
      else match engine.check entry.expression with
        | .ok formula => .ok (entry.id.getD engine.nextId, formula) engine
        | .error error => .error error engine := by
  unfold check
  simp only [EStateM.run_bind, EStateM.run_get]
  split
  case isTrue => rfl
  case isFalse =>
    simp only [EStateM.run_bind, EStateM.run_get, run_ofExcept, Engine.check]
    cases Expr.parse entry.expression with
    | error error => rfl
    | ok expr =>
        simp only [bind, Except.bind]
        cases Formula.ofExpr engine.sensors expr with
        | error error => rfl
        | ok formula => rfl

/-- The second part does not fail. -/
theorem run_enroll (engine : Engine) (id : ConditionId) (entry : ConditionEntry)
    (formula : Formula) :
    (enroll id entry formula).run engine = .ok () (engine.enroll id entry formula) := by
  unfold enroll Engine.enroll
  simp only [EStateM.run_bind, EStateM.run_modifyGet, EStateM.run_modify, EStateM.run_get]
  split
  case isTrue => rfl
  case isFalse => rfl

/-- An engine that refuses a condition is left as it was. -/
theorem run_register (engine : Engine) (entry : ConditionEntry) :
    (register entry).run engine =
      match engine.register entry with
      | .ok (after, id) => .ok id after
      | .error error => .error error engine := by
  unfold register
  simp only [EStateM.run_bind, run_check]
  cases taken : engine.roots.contains (entry.id.getD engine.nextId) with
  | true =>
      rw [register_of_taken taken]
      rfl
  | false =>
      rw [register_of_fresh taken]
      cases engine.check entry.expression with
      | error error => rfl
      | ok formula =>
          simp only [run_enroll, EStateM.run_pure]
          rfl

end Work

/-- What an engine answers to a condition: when it is registered and under which id, when it is
refused and why, and that registering in place does nothing to an engine that refuses, so that
whatever is asked for later is answered as without the attempt. -/
structure Answers (engine : Engine) (entry : ConditionEntry) : Prop where
  accepted : (∃ after id, engine.register entry = .ok (after, id)) ↔ engine.Admits entry
  named : ∀ {after id}, engine.register entry = .ok (after, id) →
    id = entry.id.getD engine.nextId
  refused : ∀ {error}, engine.register entry = .error error ↔ engine.Refuses entry error
  done : ∀ {after id}, (Work.register entry).run engine = .ok id after ↔
    engine.register entry = .ok (after, id)
  undone : ∀ {error left}, (Work.register entry).run engine = .error error left ↔
    engine.register entry = .error error ∧ left = engine
  later : ∀ {error}, engine.register entry = .error error →
    ∀ requests, engine.handleAll (.register entry :: requests) = engine.handleAll requests

/-- Any engine answers to any condition so. -/
theorem answers (engine : Engine) (entry : ConditionEntry) : engine.Answers entry := by
  constructor
  case accepted => exact exists_register_eq_ok
  case named =>
    intro after id registered
    exact (register_eq_ok.1 registered).1
  case refused => exact register_eq_error
  case done =>
    intro after id
    rw [Work.run_register]
    cases engine.register entry with
    | error error => simp
    | ok result => simp [Prod.ext_iff, and_comm]
  case undone =>
    intro error left
    rw [Work.run_register]
    cases engine.register entry with
    | error found => simp [eq_comm]
    | ok result => simp
  case later =>
    intro error failed requests
    rw [handleAll, List.foldl_cons, handle, failed]
    rfl

end Engine

end Tripwire
