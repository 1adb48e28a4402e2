import Mathlib.Algebra.Order.Ring.Int
import Tripwire.Engine.Feeding
import Tripwire.Proofs.Engine.Runs

/-!
# Payloads

A payload for a registered sensor is delivered as a whole: no delivery takes a sensor away, so that
none of its values can fail once the first is asked for. What a payload does is what the single
updates do in turn, and as each of them reports the net turns of conditions, so does the payload if
what cleared is taken off what fired.
-/

namespace Tripwire

/-- How often a condition fired more than it cleared. -/
def Outcome.net (outcome : Outcome) (condition : ConditionId) : Int :=
  (outcome.fired.map Fired.condition).count condition - outcome.cleared.count condition

theorem Outcome.net_merge (first second : Outcome) (condition : ConditionId) :
    (first.merge second).net condition = first.net condition + second.net condition := by
  unfold net merge
  rw [List.map_append, List.count_append, List.count_append]
  omega

namespace Engine

variable {engine after : Engine} {log : List Registration} {sensor : SensorId}
  {payload : List (String × Value)} {deliveries : List Delivery}

/-- What a condition that is satisfied counts for. -/
def standingOf (engine : Engine) (condition : ConditionId) : Int :=
  if engine.isSatisfied condition then 1 else 0

/-- One delivery fires or clears a condition as it turns. -/
theorem Reports.net {outcome : Outcome} (reports : engine.Reports after log outcome)
    (condition : ConditionId) :
    outcome.net condition = after.standingOf condition - engine.standingOf condition := by
  unfold Outcome.net standingOf
  rw [reports.firedOnce.count, reports.clearedOnce.count]
  simp only [reports.fired, reports.cleared]
  cases engine.isSatisfied condition <;> cases after.isSatisfied condition <;> rfl

/-! ## Single updates in turn -/

/-- Updates of one sensor in turn, none of which fails, with what each of them did. -/
inductive Updates (sensor : SensorId) :
    Engine → List (String × Value) → List Delivery → Engine → Prop where
  | done (engine : Engine) : Updates sensor engine [] [] engine
  | next {engine after : Engine} {field : String} {value : Value} {delivery : Delivery}
      {rest : List (String × Value)} {others : List Delivery}
      (here : engine.update sensor field value = .ok delivery)
      (later : Updates sensor delivery.engine rest others after) :
      Updates sensor engine ((field, value) :: rest) (delivery :: others) after

theorem contains_deliver (engine : Engine) (field : String) (value : Value) (other : SensorId) :
    (engine.deliver sensor field value).engine.sensors.contains other =
      engine.sensors.contains other :=
  engine.toNetwork.contains_deliver sensor field value other

/-- A payload does what the single updates do. -/
theorem updates_foldl (payload : List (String × Value)) (done : Delivery)
    (registered : done.engine.sensors.contains sensor = true) :
    ∃ deliveries,
      Updates sensor done.engine payload deliveries
        (payload.foldl (deliverNext sensor) done).engine ∧
      (payload.foldl (deliverNext sensor) done).outcome =
        (deliveries.map Delivery.outcome).foldl Outcome.merge done.outcome ∧
      (payload.foldl (deliverNext sensor) done).errors =
        done.errors ++ deliveries.flatMap Delivery.errors := by
  induction payload generalizing done with
  | nil => exact ⟨[], .done done.engine, rfl, (List.append_nil _).symm⟩
  | cons item rest ih =>
      obtain ⟨field, value⟩ := item
      have known : (deliverNext sensor done (field, value)).engine.sensors.contains sensor =
          true := (contains_deliver done.engine field value sensor).trans registered
      obtain ⟨others, updates, outcome, errors⟩ := ih _ known
      have here : done.engine.update sensor field value =
          .ok (done.engine.deliver sensor field value) := update_eq_ok.2 ⟨registered, rfl⟩
      refine ⟨_ :: others, .next here updates, outcome, ?_⟩
      rw [List.foldl_cons, errors, List.flatMap_cons, ← List.append_assoc]
      rfl

/-! ## Outcomes merged -/

/-- What is merged of several outcomes. -/
structure Merges (outcomes : List Outcome) (total : Outcome) : Prop where
  fired : total.fired = outcomes.flatMap Outcome.fired
  cleared : total.cleared = outcomes.flatMap Outcome.cleared
  comparisons : total.comparisons = (outcomes.map Outcome.comparisons).sum
  changed : total.changed = (outcomes.map Outcome.changed).sum

theorem merges_foldl (outcomes : List Outcome) :
    Merges outcomes (outcomes.foldl Outcome.merge .empty) := by
  induction outcomes using List.reverseRecOn with
  | nil => exact ⟨rfl, rfl, rfl, rfl⟩
  | append_singleton outcomes outcome ih =>
      rw [List.foldl_concat]
      refine ⟨?_, ?_, ?_, ?_⟩
      · simp [Outcome.merge, ih.fired]
      · simp [Outcome.merge, ih.cleared]
      · simp [Outcome.merge, ih.comparisons]
      · simp [Outcome.merge, ih.changed]

theorem net_foldl (outcomes : List Outcome) (condition : ConditionId) :
    (outcomes.foldl Outcome.merge .empty).net condition =
      (outcomes.map fun outcome => outcome.net condition).sum := by
  induction outcomes using List.reverseRecOn with
  | nil => rfl
  | append_singleton outcomes outcome ih =>
      rw [List.foldl_concat, Outcome.net_merge, ih, List.map_append, List.sum_append,
        List.map_singleton, List.sum_singleton]

/-- Along updates a condition fires as often more than it clears as it turns in all. -/
theorem Updates.net (updates : Updates sensor engine payload deliveries after)
    (sound : engine.Sound log) (condition : ConditionId) :
    ((deliveries.map Delivery.outcome).foldl Outcome.merge .empty).net condition =
      after.standingOf condition - engine.standingOf condition := by
  rw [net_foldl]
  induction updates with
  | done engine => simp
  | next here later ih =>
      obtain ⟨_, rfl⟩ := update_eq_ok.1 here
      obtain ⟨next, reports⟩ := sound.deliver _ _ _
      rw [List.map_cons, List.map_cons, List.sum_cons, reports.net, ih next]
      omega

/-! ## In place -/

namespace Feed

/-- What work in place comes to if it does what a delivery does, and nothing if that fails. -/
def settled (engine : Engine) (reported : List Error) :
    Except Error Delivery → EStateM.Result Error Intake Outcome
  | .ok delivery => .ok delivery.outcome ⟨delivery.engine, reported ++ delivery.errors⟩
  | .error error => .error error ⟨engine, reported⟩

theorem run_require (sensor : SensorId) (intake : Intake) :
    (require sensor).run intake =
      if intake.engine.sensors.contains sensor then .ok () intake
      else .error (.unknownSensor sensor) intake := by
  unfold require
  simp only [EStateM.run_bind, EStateM.run_get]
  cases intake.engine.sensors.contains sensor <;> rfl

theorem run_update (engine : Engine) (reported : List Error) (field : String) (value : Value) :
    (update sensor field value).run ⟨engine, reported⟩ =
      settled engine reported (engine.update sensor field value) := by
  unfold update
  simp only [EStateM.run_bind, run_require, Engine.update]
  cases engine.sensors.contains sensor <;> rfl

/-- No value of a payload fails once the sensor is known to be registered. -/
theorem run_foldlM (payload : List (String × Value)) (done : Delivery) (reported : List Error)
    (registered : done.engine.sensors.contains sensor = true) :
    (payload.foldlM (fun total item => return total.merge (← update sensor item.1 item.2))
        done.outcome : Feed Outcome).run ⟨done.engine, reported ++ done.errors⟩ =
      settled done.engine reported (.ok (payload.foldl (deliverNext sensor) done)) := by
  induction payload generalizing done with
  | nil => rfl
  | cons item rest ih =>
      have known : (deliverNext sensor done item).engine.sensors.contains sensor = true :=
        (contains_deliver done.engine item.1 item.2 sensor).trans registered
      have next := ih _ known
      rw [List.foldlM_cons, List.foldl_cons]
      simp only [EStateM.run_bind, run_update, Engine.update, registered, if_true]
      rw [deliverNext, ← List.append_assoc] at next
      exact next

/-- Delivering a payload in place does what delivering it does, and nothing if that fails. -/
theorem run_updateAll (engine : Engine) (sensor : SensorId) (payload : List (String × Value))
    (reported : List Error) :
    (updateAll sensor payload).run ⟨engine, reported⟩ =
      settled engine reported (engine.updateAll sensor payload) := by
  unfold updateAll
  simp only [EStateM.run_bind, run_require, Engine.updateAll]
  cases registered : engine.sensors.contains sensor with
  | false => rfl
  | true =>
      have done := run_foldlM payload ⟨engine, .empty, []⟩ reported registered
      rw [List.append_nil] at done
      exact done

end Feed

/-! ## What becomes of a payload -/

/-- A payload is refused as a whole, which leaves no trace, or it is what the single updates are:
its outcome is theirs merged, and it fires and clears conditions as they turn in all. -/
structure Batches (engine : Engine) (sensor : SensorId) (payload : List (String × Value)) :
    Prop where
  refused : ∀ {error}, engine.updateAll sensor payload = .error error ↔
    engine.sensors.contains sensor = false ∧ error = .unknownSensor sensor
  undone : ∀ {reported error left},
    (Feed.updateAll sensor payload).run ⟨engine, reported⟩ = .error error left ↔
      engine.updateAll sensor payload = .error error ∧ left = ⟨engine, reported⟩
  done : ∀ {reported outcome left},
    (Feed.updateAll sensor payload).run ⟨engine, reported⟩ = .ok outcome left ↔
      ∃ total, engine.updateAll sensor payload = .ok total ∧ outcome = total.outcome ∧
        left = ⟨total.engine, reported ++ total.errors⟩
  applied : ∀ {total}, engine.updateAll sensor payload = .ok total →
    ∃ deliveries, Updates sensor engine payload deliveries total.engine ∧
      total.errors = deliveries.flatMap Delivery.errors ∧
      Merges (deliveries.map Delivery.outcome) total.outcome
  net : ∀ {total}, engine.updateAll sensor payload = .ok total → ∀ condition,
    ((total.outcome.fired.map Fired.condition).count condition : Int) -
        total.outcome.cleared.count condition =
      (if total.engine.isSatisfied condition then 1 else 0) -
        (if engine.isSatisfied condition then 1 else 0)

/-- Whatever was asked of an engine before, it takes or refuses a payload so. -/
theorem Reachable.batches (reached : Reachable engine) (sensor : SensorId)
    (payload : List (String × Value)) : engine.Batches sensor payload := by
  obtain ⟨log, recorded⟩ := reached.recorded
  constructor
  case refused =>
    intro error
    unfold updateAll
    cases engine.sensors.contains sensor <;> simp [eq_comm]
  case undone =>
    intro reported error left
    rw [Feed.run_updateAll]
    cases engine.updateAll sensor payload <;> simp [Feed.settled, eq_comm]
  case done =>
    intro reported outcome left
    rw [Feed.run_updateAll]
    cases engine.updateAll sensor payload <;> simp [Feed.settled, eq_comm]
  case applied =>
    intro total done
    obtain ⟨registered, rfl⟩ := updateAll_eq_ok.1 done
    obtain ⟨deliveries, updates, outcome, errors⟩ :=
      updates_foldl payload ⟨engine, .empty, []⟩ registered
    refine ⟨deliveries, updates, errors, ?_⟩
    rw [outcome]
    exact merges_foldl _
  case net =>
    intro total done condition
    obtain ⟨registered, rfl⟩ := updateAll_eq_ok.1 done
    obtain ⟨deliveries, updates, outcome, _⟩ :=
      updates_foldl payload ⟨engine, .empty, []⟩ registered
    have turned := updates.net recorded.sound condition
    rw [← outcome] at turned
    exact turned

/-- A condition fires twice and clears twice in a payload with an unknown field and a value of
another type between. -/
theorem batches_restless :
    let engine := empty.handleAll
      [.addSensor 1 none [("t", .unsigned)], .register ⟨none, none, "[1]>(t,5)", []⟩,
        .update 1 "t" (.unsigned 7)]
    let payload := [("t", .unsigned 3), ("p", .unsigned 3), ("t", .unsigned 9),
      ("t", .text "hot"), ("t", .unsigned 2), ("t", .unsigned 6), ("t", .unsigned 0)]
    let total := payload.foldl (deliverNext 1) ⟨engine, .empty, []⟩
    Reachable engine ∧ engine.Batches 1 payload ∧ engine.updateAll 1 payload = .ok total ∧
      total.outcome.fired.map Fired.condition = [0, 0] ∧ total.outcome.cleared = [0, 0, 0] ∧
      total.errors.length = 2 := by
  intro engine payload total
  have reached : Reachable engine := Reachable.empty.handleAll _
  have registered : engine.sensors.contains 1 = true := by decide +kernel
  refine ⟨reached, reached.batches 1 payload, updateAll_eq_ok.2 ⟨registered, rfl⟩, ?_⟩
  exact ⟨by decide +kernel, by decide +kernel, by decide +kernel⟩

end Engine

end Tripwire
