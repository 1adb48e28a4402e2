import Tripwire.Engine.History
import Tripwire.Proofs.Steps

/-!
# What was registered

An engine does not keep the conditions as they were given. Its record does: the conditions
that were registered on the way to it, with their ids, from the first to the last.
-/

namespace Tripwire

/-- A condition with the id under which it was registered. -/
structure Registration where
  condition : ConditionId
  entry : ConditionEntry
deriving DecidableEq

/-- The conditions that a request asks to register. -/
def Request.conditions : Request → List ConditionEntry
  | .register entry => [entry]
  | _ => []

namespace Engine

/-- The registrations that succeed of conditions in turn. -/
def accepted (engine : Engine) : List ConditionEntry → List Registration
  | [] => []
  | entry :: rest =>
      match engine.register entry with
      | .ok (extended, id) => ⟨id, entry⟩ :: accepted extended rest
      | .error _ => accepted engine rest

/-- The registrations that succeed of requests in turn. -/
def registrations (engine : Engine) : List Request → List Registration
  | [] => []
  | request :: rest =>
      engine.accepted request.conditions ++ registrations (engine.handle request) rest

/-- The registrations that succeed of a configuration. -/
def configured (config : Config) : List Registration :=
  match config.sensors.foldlM addEntry empty with
  | .ok declared => { declared with nextId := config.firstFreeId }.accepted config.conditions
  | .error _ => []

/-- The engines that come of requests to an empty or a loaded one, each with the registrations
that succeeded on the way. -/
inductive Recorded : Engine → List Registration → Prop where
  | empty : Recorded Engine.empty []
  | load {config : Config} {engine : Engine} {report : Report}
      (loaded : Engine.load config = .ok (engine, report)) : Recorded engine (configured config)
  | handle {engine : Engine} {log : List Registration} (recorded : Recorded engine log)
      (request : Request) :
      Recorded (engine.handle request) (log ++ engine.accepted request.conditions)

/-- Every engine that can be reached has a record. -/
theorem Reachable.recorded {engine : Engine} (reached : Reachable engine) :
    ∃ log, Recorded engine log := by
  induction reached with
  | empty => exact ⟨[], .empty⟩
  | load loaded => exact ⟨_, .load loaded⟩
  | handle reached request ih =>
      obtain ⟨log, recorded⟩ := ih
      exact ⟨_, recorded.handle request⟩

theorem Recorded.handleAll {engine : Engine} {log : List Registration}
    (recorded : Recorded engine log) (requests : List Request) :
    Recorded (engine.handleAll requests) (log ++ engine.registrations requests) := by
  induction requests generalizing engine log with
  | nil =>
      rw [registrations, List.append_nil]
      exact recorded
  | cons request rest ih =>
      rw [registrations, ← List.append_assoc]
      exact ih (recorded.handle request)

theorem recorded_handleAll (requests : List Request) :
    Recorded (empty.handleAll requests) (empty.registrations requests) :=
  Recorded.empty.handleAll requests

/-! ## Loading -/

theorem registerAll_loaded (engine : Engine) (entries : List ConditionEntry) :
    (engine.registerAll entries).2.1 = (engine.accepted entries).map Registration.condition := by
  induction entries generalizing engine with
  | nil => rfl
  | cons entry rest ih =>
      rw [registerAll, accepted]
      cases engine.register entry with
      | error error => exact ih engine
      | ok result => exact congrArg _ (ih result.1)

/-- A configuration that loads declares its sensors first and then registers its conditions. -/
theorem load_eq_ok {config : Config} {engine : Engine} {report : Report}
    (loaded : load config = .ok (engine, report)) :
    ∃ declared, config.sensors.foldlM addEntry empty = .ok declared ∧
      engine = ({ declared with nextId := config.firstFreeId }.registerAll config.conditions).1 ∧
      report.loaded =
        ({ declared with nextId := config.firstFreeId }.registerAll config.conditions).2.1 ∧
      report.rejected =
        ({ declared with nextId := config.firstFreeId }.registerAll config.conditions).2.2 := by
  unfold load at loaded
  obtain ⟨declared, found, done⟩ := bind_eq_ok.1 loaded
  cases done
  exact ⟨declared, found, rfl, rfl, rfl⟩

/-- The report of a configuration names the conditions on record. -/
theorem loaded_eq {config : Config} {engine : Engine} {report : Report}
    (loaded : load config = .ok (engine, report)) :
    report.loaded = (configured config).map Registration.condition := by
  obtain ⟨declared, found, _, named, _⟩ := load_eq_ok loaded
  rw [named, registerAll_loaded, configured, found]

end Engine

end Tripwire
