import Tripwire.Proofs.Engine.Runs

/-!
# Reports along runs

A delivery reports the net turns of conditions. Along a run the events of a condition therefore
alternate from the status that it had when it was registered, which is itself no event.
-/

namespace Tripwire

/-- The events of a condition: whether it fired, and whether it cleared, as often as listed. -/
def Outcome.events (outcome : Outcome) (condition : ConditionId) : List Bool :=
  List.replicate ((outcome.fired.map Fired.condition).count condition) true ++
    List.replicate (outcome.cleared.count condition) false

/-- Events that each turn a status, from the first status to the last. -/
def Alternates (status : Bool) : List Bool → Bool → Prop
  | [], last => last = status
  | event :: rest, last => event = !status ∧ Alternates event rest last

theorem Alternates.append {first middle last : Bool} {events later : List Bool}
    (early : Alternates first events middle) (late : Alternates middle later last) :
    Alternates first (events ++ later) last := by
  induction events generalizing first with
  | nil =>
      cases early
      exact late
  | cons event rest ih => exact ⟨early.1, ih early.2⟩

namespace Engine

/-- The events of a condition along requests. -/
def events (engine : Engine) (condition : ConditionId) : List Request → List Bool
  | [] => []
  | request :: rest =>
      (engine.reports request).flatMap (Outcome.events · condition) ++
        (engine.handle request).events condition rest

variable {engine after : Engine} {log : List Registration}

/-- The events of one delivery are none, or the one that tells the new status. -/
theorem Reports.alternates {outcome : Outcome} (reports : engine.Reports after log outcome)
    (condition : ConditionId) :
    Alternates (engine.isSatisfied condition) (outcome.events condition)
      (after.isSatisfied condition) := by
  unfold Outcome.events
  rw [reports.firedOnce.count, reports.clearedOnce.count]
  simp only [reports.fired, reports.cleared]
  cases engine.isSatisfied condition <;> cases after.isSatisfied condition <;> simp [Alternates]

theorem Sound.alternates_outcomesOf (sensor : SensorId) (payload : List (String × Value))
    {engine : Engine} (sound : engine.Sound log) (condition : ConditionId) :
    Alternates (engine.isSatisfied condition)
      ((engine.outcomesOf sensor payload).flatMap (Outcome.events · condition))
      ((engine.deliverAll sensor payload).isSatisfied condition) := by
  induction payload generalizing engine with
  | nil => rfl
  | cons item rest ih =>
      obtain ⟨next, reports⟩ := sound.deliver sensor item.1 item.2
      rw [outcomesOf, List.flatMap_cons]
      exact (reports.alternates condition).append (ih next)

/-- A condition that is registered keeps its status in all registrations. -/
theorem Sound.isSatisfied_register {extended : Engine} (sound : engine.Sound log)
    {entry : ConditionEntry} {id : ConditionId}
    (registered : engine.register entry = .ok (extended, id)) {condition : ConditionId}
    (known : engine.roots.contains condition = true) :
    extended.isSatisfied condition = engine.isSatisfied condition := by
  obtain ⟨_, fresh, formula, checked, rfl⟩ := register_eq_ok.1 registered
  obtain ⟨child, top, enrolled⟩ := enrolled sound checked
  have apart : id ≠ condition := by
    rintro rfl
    rw [known] at fresh
    cases fresh
  rw [Bool.eq_iff_iff, enrolled.satisfied]
  constructor
  · rintro (⟨same, _⟩ | holds)
    · exact absurd same apart
    · exact holds
  · exact Or.inr

theorem Sound.alternates_handle (sound : engine.Sound log) (request : Request)
    {condition : ConditionId} (known : engine.roots.contains condition = true) :
    Alternates (engine.isSatisfied condition)
      ((engine.reports request).flatMap (Outcome.events · condition))
      ((engine.handle request).isSatisfied condition) := by
  have handled := engine.handled request
  generalize engine.handle request = after, engine.accepted request.conditions = added,
    engine.reports request = reported at handled ⊢
  cases handled with
  | refused => rfl
  | declared blank added =>
      obtain ⟨_, rfl⟩ := addSensor_eq_ok.1 added
      rfl
  | registered registered => exact sound.isSatisfied_register registered known
  | delivered asked => exact sound.alternates_outcomesOf _ _ condition

theorem Sound.contains_handle (sound : engine.Sound log) (request : Request)
    {condition : ConditionId} (known : engine.roots.contains condition = true) :
    (engine.handle request).roots.contains condition = true := by
  obtain ⟨registration, member, same⟩ := sound.registered.1 known
  exact (sound.handle request).registered.2
    ⟨registration, List.mem_append_left _ member, same⟩

theorem Sound.contains_handleAll (requests : List Request) {engine : Engine}
    {log : List Registration} (sound : engine.Sound log) {condition : ConditionId}
    (known : engine.roots.contains condition = true) :
    (engine.handleAll requests).roots.contains condition = true := by
  induction requests generalizing engine log with
  | nil => exact known
  | cons request rest ih => exact ih (sound.handle request) (sound.contains_handle request known)

/-- From whenever it is registered, the events of a condition alternate. -/
theorem Sound.alternates (requests : List Request) {engine : Engine} {log : List Registration}
    (sound : engine.Sound log) {condition : ConditionId}
    (known : engine.roots.contains condition = true) :
    Alternates (engine.isSatisfied condition) (engine.events condition requests)
      ((engine.handleAll requests).isSatisfied condition) := by
  induction requests generalizing engine log with
  | nil => rfl
  | cons request rest ih =>
      exact (sound.alternates_handle request known).append
        (ih (sound.handle request) (sound.contains_handle request known))

/-! ## Before the registration -/

theorem Reports.events_of_still {outcome : Outcome} (reports : engine.Reports after log outcome)
    {condition : ConditionId}
    (still : after.isSatisfied condition = engine.isSatisfied condition) :
    outcome.events condition = [] := by
  unfold Outcome.events
  rw [reports.firedOnce.count, reports.clearedOnce.count]
  simp only [reports.fired, reports.cleared, still]
  cases engine.isSatisfied condition <;> simp

theorem Sound.isSatisfied_of_unknown (sound : engine.Sound log) {condition : ConditionId}
    (unknown : engine.roots.contains condition = false) : engine.isSatisfied condition = false := by
  rw [sound.isSatisfied_eq, Option.isSome_eq_false_iff.1 unknown |> Option.isNone_iff_eq_none.1]
  rfl

theorem Sound.outcomesOf_of_unknown (sensor : SensorId) (payload : List (String × Value))
    {engine : Engine} (sound : engine.Sound log) {condition : ConditionId}
    (unknown : engine.roots.contains condition = false) :
    (engine.outcomesOf sensor payload).flatMap (Outcome.events · condition) = [] := by
  induction payload generalizing engine with
  | nil => rfl
  | cons item rest ih =>
      obtain ⟨next, reports⟩ := sound.deliver sensor item.1 item.2
      have alsoUnknown : (engine.deliver sensor item.1 item.2).engine.roots.contains condition =
          false := unknown
      have still := (next.isSatisfied_of_unknown alsoUnknown).trans
        (sound.isSatisfied_of_unknown unknown).symm
      rw [outcomesOf, List.flatMap_cons, reports.events_of_still still, ih next alsoUnknown]
      rfl

theorem Sound.reports_of_unknown (sound : engine.Sound log) (request : Request)
    {condition : ConditionId} (unknown : engine.roots.contains condition = false) :
    (engine.reports request).flatMap (Outcome.events · condition) = [] := by
  have handled := engine.handled request
  generalize engine.handle request = after, engine.accepted request.conditions = added,
    engine.reports request = reported at handled ⊢
  cases handled with
  | refused | declared | registered => rfl
  | delivered asked => exact sound.outcomesOf_of_unknown _ _ unknown

/-- Nothing is reported of a condition before it is registered. -/
theorem Sound.events_of_unknown (requests : List Request) {engine : Engine}
    {log : List Registration} (sound : engine.Sound log) {condition : ConditionId}
    (unknown : (engine.handleAll requests).roots.contains condition = false) :
    engine.events condition requests = [] := by
  induction requests generalizing engine log with
  | nil => rfl
  | cons request rest ih =>
      have now : engine.roots.contains condition = false := by
        rw [← Bool.not_eq_true]
        intro known
        rw [sound.contains_handleAll (request :: rest) known] at unknown
        cases unknown
      rw [events, sound.reports_of_unknown request now, ih (sound.handle request) unknown]
      rfl

/-! ## What an engine reports -/

theorem handle_register {extended : Engine} {entry : ConditionEntry} {id : ConditionId}
    (registered : engine.register entry = .ok (extended, id)) :
    engine.handle (.register entry) = extended := by
  rw [handle, registered, orSame]

/-- Every delivery reports exactly what it turns, and along all further requests the events of
each condition alternate from its status at the registration, before which there are none. -/
structure Reporting (engine : Engine) (log : List Registration) : Prop where
  once : (log.map Registration.condition).Nodup
  update : ∀ {sensor field value delivery}, engine.update sensor field value = .ok delivery →
    engine.Reports delivery.engine log delivery.outcome
  apart : ∀ {sensor field value delivery}, engine.update sensor field value = .ok delivery →
    ∀ condition ∈ delivery.outcome.cleared,
      condition ∉ delivery.outcome.fired.map Fired.condition
  later : ∀ registration ∈ log, ∀ requests,
    Alternates (engine.isSatisfied registration.condition)
      (engine.events registration.condition requests)
      ((engine.handleAll requests).isSatisfied registration.condition)
  start : ∀ {entry extended condition}, engine.register entry = .ok (extended, condition) →
    engine.isSatisfied condition = false ∧ ∀ requests,
      Alternates (extended.isSatisfied condition)
        (engine.events condition (.register entry :: requests))
        ((extended.handleAll requests).isSatisfied condition)
  before : ∀ {condition requests},
    (engine.handleAll requests).roots.contains condition = false →
      engine.events condition requests = []

/-- Whatever was asked of an engine, what it reports are the net turns of its conditions. -/
theorem Recorded.reporting (recorded : Recorded engine log) : engine.Reporting log := by
  have sound := recorded.sound
  constructor
  case once => exact sound.once
  case update =>
    intro sensor field value delivery done
    obtain ⟨_, rfl⟩ := update_eq_ok.1 done
    exact (sound.deliver sensor field value).2
  case apart =>
    intro sensor field value delivery done condition cleared fired
    obtain ⟨_, rfl⟩ := update_eq_ok.1 done
    have reports := (sound.deliver sensor field value).2
    have was := ((reports.cleared condition).1 cleared).1
    rw [((reports.fired condition).1 fired).1] at was
    cases was
  case later =>
    intro registration member requests
    exact sound.alternates requests (sound.registered.2 ⟨registration, member, rfl⟩)
  case start =>
    intro entry extended condition registered
    obtain ⟨_, fresh, _⟩ := register_eq_ok.1 registered
    refine ⟨sound.isSatisfied_of_unknown fresh, fun requests => ?_⟩
    have next := sound.register registered
    have known : extended.roots.contains condition = true :=
      next.registered.2 ⟨⟨condition, entry⟩, List.mem_append_right _ (.head _), rfl⟩
    rw [events, handle_register registered]
    exact next.alternates requests known
  case before =>
    intro condition requests unknown
    exact sound.events_of_unknown requests unknown

theorem reporting_samples :
    (empty.handleAll samples).Reporting (empty.registrations samples) ∧
      empty.events 0 samples = [true, false] ∧ empty.events 1 samples = [false] ∧
        empty.events 9 samples = [] :=
  ⟨Recorded.reporting (recorded_handleAll samples), by decide +kernel, by decide +kernel,
    by decide +kernel⟩

end Engine

end Tripwire
