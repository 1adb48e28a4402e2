import Tripwire.Proofs.Engine.Confluence
import Tripwire.Worker

/-!
# What workers do

However producers and a worker take turns, the worker has at any time applied a first part of the
updates in their order, has dispatched what that fired, and finds the rest of them in its queue and
with the producers. Some turn is possible until nothing is left, each turn brings the end nearer, and
a worker that was closed and drained is as if it had applied one update after the other.
-/

namespace Tripwire

/-- The request that an update makes to an engine. -/
def FieldUpdate.request (update : FieldUpdate) : Request :=
  .update update.sensor update.field update.value

namespace Engine

/-- The conditions that an update fires. -/
def firedBy (engine : Engine) (update : FieldUpdate) : List Fired :=
  match engine.update update.sensor update.field update.value with
  | .ok delivery => delivery.outcome.fired
  | .error _ => []

/-- What updates in turn fire, each for itself. -/
def firings (engine : Engine) : List FieldUpdate → List (List Fired)
  | [] => []
  | update :: rest => engine.firedBy update :: (engine.handle update.request).firings rest

theorem firings_concat (engine : Engine) (updates : List FieldUpdate) (update : FieldUpdate) :
    engine.firings (updates ++ [update]) = engine.firings updates ++
      [(engine.handleAll (updates.map FieldUpdate.request)).firedBy update] := by
  induction updates generalizing engine with
  | nil => rfl
  | cons first rest ih => exact congrArg _ (ih _)

theorem handleAll_concat (engine : Engine) (updates : List FieldUpdate) (update : FieldUpdate) :
    engine.handleAll ((updates ++ [update]).map FieldUpdate.request) =
      (engine.handleAll (updates.map FieldUpdate.request)).handle update.request := by
  rw [List.map_append, handleAll, List.foldl_append]
  rfl

theorem contains_request (engine : Engine) (update : FieldUpdate) (id : SensorId) :
    (engine.handle update.request).sensors.contains id = engine.sensors.contains id := by
  rw [FieldUpdate.request, handle_update]
  exact engine.toNetwork.contains_deliver update.sensor update.field update.value id

theorem contains_requests (updates : List FieldUpdate) (engine : Engine) (id : SensorId) :
    (engine.handleAll (updates.map FieldUpdate.request)).sensors.contains id =
      engine.sensors.contains id := by
  induction updates generalizing engine with
  | nil => rfl
  | cons update rest ih => exact (ih _).trans (engine.contains_request update id)

theorem handle_request_of_unregistered {engine : Engine} {update : FieldUpdate}
    (unknown : engine.sensors.contains update.sensor = false) :
    engine.handle update.request = engine := by
  rw [FieldUpdate.request, handle, Engine.update, unknown]
  rfl

/-- Updates for unknown sensors may be left out. -/
theorem handleAll_filter (updates : List FieldUpdate) (engine : Engine) :
    engine.handleAll ((updates.filter fun update =>
        engine.sensors.contains update.sensor).map FieldUpdate.request) =
      engine.handleAll (updates.map FieldUpdate.request) := by
  induction updates generalizing engine with
  | nil => rfl
  | cons update rest ih =>
      cases known : engine.sensors.contains update.sensor with
      | false =>
          rw [List.filter_cons, known, if_neg Bool.false_ne_true, ih, List.map_cons, handleAll,
            handleAll, List.foldl_cons, handle_request_of_unregistered known]
      | true =>
          have after := ih (engine.handle update.request)
          simp only [contains_request] at after
          rw [List.filter_cons, if_pos known]
          exact after

/-- An update fires the conditions that it turns true, each of them once. -/
structure Fires (engine : Engine) (update : FieldUpdate) : Prop where
  once : ((engine.firedBy update).map Fired.condition).Nodup
  turned : ∀ condition, condition ∈ (engine.firedBy update).map Fired.condition ↔
    engine.isSatisfied condition = false ∧
      (engine.handle update.request).isSatisfied condition = true

theorem Sound.fires {engine : Engine} {log : List Registration} (sound : engine.Sound log)
    (update : FieldUpdate) : engine.Fires update := by
  cases known : engine.sensors.contains update.sensor with
  | false =>
      have none : engine.firedBy update = [] := by
        rw [firedBy, Engine.update, known]
        rfl
      constructor
      case once =>
        rw [none]
        exact List.nodup_nil
      case turned =>
        intro condition
        rw [none, handle_request_of_unregistered known]
        refine ⟨fun member => absurd member List.not_mem_nil, ?_⟩
        rintro ⟨unsatisfied, satisfied⟩
        exact absurd (unsatisfied.symm.trans satisfied) Bool.false_ne_true
  | true =>
      have done : engine.update update.sensor update.field update.value = .ok _ :=
        update_eq_ok.2 ⟨known, rfl⟩
      have reports := (sound.deliver update.sensor update.field update.value).2
      constructor
      case once =>
        rw [firedBy, done]
        exact reports.firedOnce
      case turned =>
        rw [firedBy, FieldUpdate.request, Engine.handle, done]
        exact reports.fired

theorem roots_request (engine : Engine) (update : FieldUpdate) :
    (engine.handle update.request).roots = engine.roots := by
  rw [FieldUpdate.request, handle_update]
  rfl

theorem Sound.handle_request {engine : Engine} {log : List Registration}
    (sound : engine.Sound log) (update : FieldUpdate) :
    (engine.handle update.request).Sound log :=
  (sound.advances_update update.sensor update.field update.value).sound

/-- An update fires registered conditions alone. -/
theorem Sound.length_firedBy {engine : Engine} {log : List Registration}
    (sound : engine.Sound log) (update : FieldUpdate) :
    (engine.firedBy update).length ≤ engine.roots.size := by
  have fires := sound.fires update
  have after := sound.handle_request update
  have known : (engine.firedBy update).map Fired.condition ⊆ engine.roots.keys := by
    intro condition member
    have satisfied := ((fires.turned condition).1 member).2
    obtain ⟨id, found, _⟩ := after.satisfied.1 satisfied
    rw [roots_request] at found
    rw [Table.mem_keys, Table.contains, found, Option.isSome_some]
  have most := (fires.once.subperm known).length_le
  rwa [List.length_map, Table.keys, List.length_map] at most

theorem Sound.length_firings (updates : List FieldUpdate) {engine : Engine}
    {log : List Registration} (sound : engine.Sound log) :
    (engine.firings updates).flatten.length ≤ updates.length * engine.roots.size := by
  induction updates generalizing engine with
  | nil => exact Nat.zero_le _
  | cons update rest ih =>
      have now := sound.length_firedBy update
      have later := ih (sound.handle_request update)
      rw [roots_request] at later
      rw [firings, List.flatten_cons, List.length_append, List.length_cons, Nat.succ_mul,
        Nat.add_comm]
      exact Nat.add_le_add later now

end Engine

namespace Worker

variable {dispatcher : Dispatcher} {start : Engine} {capacity : Nat} {worker other last : Worker}
  {updates taken held : List FieldUpdate} {update : FieldUpdate} {turn : Turn}
  {schedule : List Turn} {state next : Worker × List FieldUpdate}

/-! ## Applying updates -/

/-- Whether a dispatch fails. -/
def fails (dispatcher : Dispatcher) (fired : Fired) : Bool :=
  !(dispatcher fired).isOk

theorem dispatch_eq (dispatcher : Dispatcher) (worker : Worker) (fired : Fired) :
    worker.dispatch dispatcher fired =
      { worker with
        stats :=
          { worker.stats with
            fired := worker.stats.fired + 1
            failures := worker.stats.failures + [fired].countP (fails dispatcher) }
        attempted := worker.attempted ++ [fired] } := by
  rw [dispatch, List.countP_singleton, fails]
  cases dispatcher fired <;> rfl

theorem foldl_dispatch (dispatcher : Dispatcher) (fired : List Fired) (worker : Worker) :
    fired.foldl (dispatch dispatcher) worker =
      { worker with
        stats :=
          { worker.stats with
            fired := worker.stats.fired + fired.length
            failures := worker.stats.failures + fired.countP (fails dispatcher) }
        attempted := worker.attempted ++ fired } := by
  induction fired generalizing worker with
  | nil => simp
  | cons first rest ih =>
      rw [List.foldl_cons, ih, dispatch_eq]
      simp [List.countP_cons, Nat.add_assoc, Nat.add_comm 1, Nat.add_comm (List.countP _ rest)]

/-- An update moves the engine, the counters and the attempts. -/
theorem apply_eq (dispatcher : Dispatcher) (worker : Worker) (update : FieldUpdate) :
    worker.apply dispatcher update =
      { worker with
        engine := worker.engine.handle update.request
        stats :=
          { applied := worker.stats.applied +
              if worker.engine.sensors.contains update.sensor then 1 else 0
            rejected := worker.stats.rejected +
              if worker.engine.sensors.contains update.sensor then 0 else 1
            fired := worker.stats.fired + (worker.engine.firedBy update).length
            failures := worker.stats.failures +
              (worker.engine.firedBy update).countP (fails dispatcher) }
        attempted := worker.attempted ++ worker.engine.firedBy update } := by
  rw [apply, Engine.firedBy, FieldUpdate.request, Engine.handle, Engine.update]
  cases known : worker.engine.sensors.contains update.sensor with
  | false => simp [Engine.orSame]
  | true =>
      simp only [if_true, foldl_dispatch]
      rfl

/-- All counters stay below a bound. Below 2 ^ 64 they count as 64 bits do. -/
structure Stats.Below (stats : Stats) (bound : Nat) : Prop where
  applied : stats.applied < bound
  rejected : stats.rejected < bound
  fired : stats.fired < bound
  failures : stats.failures < bound

/-- What a worker has done once it has applied updates to an engine: the engine is as after them in
turn, where those for unknown sensors do nothing, and what they fired was dispatched in that
order. -/
structure Served (dispatcher : Dispatcher) (start : Engine) (updates : List FieldUpdate)
    (worker : Worker) : Prop where
  engine : worker.engine = start.handleAll (updates.map FieldUpdate.request)
  applied : worker.stats.applied =
    updates.countP fun update => start.sensors.contains update.sensor
  submitted : worker.stats.applied + worker.stats.rejected = updates.length
  attempted : worker.attempted = (start.firings updates).flatten
  fired : worker.stats.fired = worker.attempted.length
  failures : worker.stats.failures = worker.attempted.countP (fails dispatcher)

theorem served_ofEngine (dispatcher : Dispatcher) (start : Engine) (capacity : Nat) :
    Served dispatcher start [] (ofEngine start capacity) :=
  ⟨rfl, rfl, rfl, rfl, rfl, rfl⟩

namespace Served

/-- Neither the queue nor its end counts for what was done. -/
theorem requeue (served : Served dispatcher start taken worker) (queue : List FieldUpdate)
    (isOpen : Bool) :
    Served dispatcher start taken { worker with queue := queue, isOpen := isOpen } :=
  ⟨served.engine, served.applied, served.submitted, served.attempted, served.fired,
    served.failures⟩

theorem apply (served : Served dispatcher start taken worker) (update : FieldUpdate) :
    Served dispatcher start (taken ++ [update]) (worker.apply dispatcher update) := by
  have known : worker.engine.sensors.contains update.sensor =
      start.sensors.contains update.sensor := by
    rw [served.engine, Engine.contains_requests]
  rw [apply_eq]
  constructor
  case engine => exact served.engine ▸ (start.handleAll_concat taken update).symm
  case applied =>
    change worker.stats.applied + _ = _
    rw [List.countP_append, List.countP_singleton, served.applied, known]
  case submitted =>
    change worker.stats.applied + _ + (worker.stats.rejected + _) = _
    rw [List.length_append, ← served.submitted]
    split <;> simp +arith
  case attempted =>
    change worker.attempted ++ _ = _
    rw [Engine.firings_concat, List.flatten_append, List.flatten_singleton, served.attempted,
      served.engine]
  case fired =>
    change worker.stats.fired + _ = (worker.attempted ++ _).length
    rw [List.length_append, served.fired]
  case failures =>
    change worker.stats.failures + _ = (worker.attempted ++ _).countP _
    rw [List.countP_append, served.failures]

/-- Few updates leave all counters small. -/
theorem below {log : List Registration} {bound : Nat} (sound : start.Sound log)
    (served : Served dispatcher start taken worker)
    (few : taken.length * max start.roots.size 1 < bound) : worker.stats.Below bound := by
  have submitted : worker.stats.applied + worker.stats.rejected < bound := by
    rw [served.submitted]
    exact Nat.lt_of_le_of_lt (Nat.le_mul_of_pos_right _ (Nat.le_max_right ..)) few
  have fired : worker.stats.fired < bound := by
    have firings := sound.length_firings taken
    rw [← served.attempted, ← served.fired] at firings
    exact Nat.lt_of_le_of_lt
      (firings.trans (Nat.mul_le_mul_left _ (Nat.le_max_left ..))) few
  have failures : worker.stats.failures ≤ worker.stats.fired := by
    rw [served.failures, served.fired]
    exact List.countP_le_length
  exact ⟨by omega, by omega, fired, by omega⟩

/-- Each attempt is delivered or fails. -/
theorem length_delivered (served : Served dispatcher start taken worker) :
    (worker.delivered dispatcher).length + worker.stats.failures = worker.stats.fired := by
  have failing : worker.attempted.countP (fails dispatcher) =
      worker.attempted.countP fun fired => ¬ (dispatcher fired).isOk = true :=
    List.countP_congr fun fired _ => by simp [fails]
  rw [served.fired, served.failures, failing, delivered, ← List.countP_eq_length_filter,
    ← List.length_eq_countP_add_countP]

theorem ext (served : Served dispatcher start taken worker)
    (also : Served dispatcher start taken other) (capacity : worker.capacity = other.capacity)
    (isOpen : worker.isOpen = other.isOpen) (queue : worker.queue = other.queue) :
    worker = other := by
  have engine : worker.engine = other.engine := served.engine.trans also.engine.symm
  have attempted : worker.attempted = other.attempted :=
    served.attempted.trans also.attempted.symm
  have applied : worker.stats.applied = other.stats.applied :=
    served.applied.trans also.applied.symm
  have rejected : worker.stats.rejected = other.stats.rejected := by
    have := served.submitted.trans also.submitted.symm
    omega
  have fired : worker.stats.fired = other.stats.fired := by
    rw [served.fired, also.fired, attempted]
  have failures : worker.stats.failures = other.stats.failures := by
    rw [served.failures, also.failures, attempted]
  obtain ⟨_, _, _, _, ⟨_, _, _, _⟩, _⟩ := worker
  obtain ⟨_, _, _, _, ⟨_, _, _, _⟩, _⟩ := other
  cases engine
  cases capacity
  cases isOpen
  cases queue
  cases applied
  cases rejected
  cases fired
  cases failures
  cases attempted
  rfl

end Served

/-! ## Turns -/

theorem turn?_submit_eq_some : turn? dispatcher (worker, held) .submit = some next ↔
    worker.isOpen = true ∧ worker.hasRoom = true ∧ ∃ update rest, held = update :: rest ∧
      next = ({ worker with queue := worker.queue ++ [update] }, rest) := by
  cases held with
  | nil => simp [turn?]
  | cons update rest =>
      cases isOpen : worker.isOpen <;> cases hasRoom : worker.hasRoom <;>
        simp [turn?, submit, isOpen, hasRoom, eq_comm]

theorem turn?_take_eq_some : turn? dispatcher (worker, held) .take = some next ↔
    ∃ update rest, worker.queue = update :: rest ∧
      next = (apply dispatcher { worker with queue := rest } update, held) := by
  cases queue : worker.queue with
  | nil => simp [turn?, queue]
  | cons update rest => simp [turn?, take, queue, eq_comm]

/-- What turns leave of a worker and its producers, and how near they bring the end: an update is
queued in one turn and applied in another. -/
structure Advances (dispatcher : Dispatcher) (before : Worker × List FieldUpdate) (turns : Nat)
    (after : Worker × List FieldUpdate) : Prop where
  capacity : after.1.capacity = before.1.capacity
  isOpen : after.1.isOpen = before.1.isOpen
  held : after.2 <:+ before.2
  bounded : before.1.queue.length ≤ max before.1.capacity 1 →
    after.1.queue.length ≤ max before.1.capacity 1
  nearer : turns + 2 * after.2.length + after.1.queue.length =
    2 * before.2.length + before.1.queue.length
  served : ∃ taken, before.1.queue ++ before.2 = taken ++ after.1.queue ++ after.2 ∧
    ∀ {start updates}, Served dispatcher start updates before.1 →
      Served dispatcher start (updates ++ taken) after.1

namespace Advances

theorem refl (state : Worker × List FieldUpdate) : Advances dispatcher state 0 state where
  capacity := rfl
  isOpen := rfl
  held := List.suffix_rfl
  bounded := id
  nearer := by omega
  served := ⟨[], rfl, fun served => by rwa [List.append_nil]⟩

theorem trans {before middle after : Worker × List FieldUpdate} {earlier later : Nat}
    (first : Advances dispatcher before earlier middle)
    (second : Advances dispatcher middle later after) :
    Advances dispatcher before (earlier + later) after where
  capacity := second.capacity.trans first.capacity
  isOpen := second.isOpen.trans first.isOpen
  held := second.held.trans first.held
  bounded short := first.capacity ▸ second.bounded (first.capacity.symm ▸ first.bounded short)
  nearer := by
    have := first.nearer
    have := second.nearer
    omega
  served := by
    obtain ⟨taken, split, served⟩ := first.served
    obtain ⟨more, rejoined, also⟩ := second.served
    refine ⟨taken ++ more, ?_, fun done => ?_⟩
    · rw [split, List.append_assoc, rejoined]
      simp only [List.append_assoc]
    · rw [← List.append_assoc]
      exact also (served done)

/-- Updates are held only while the queue is open. -/
theorem admits {before after : Worker × List FieldUpdate} {turns : Nat}
    (advances : Advances dispatcher before turns after)
    (admits : before.1.isOpen = true ∨ before.2 = []) :
    after.1.isOpen = true ∨ after.2 = [] := by
  rw [advances.isOpen]
  refine admits.imp_right fun noneHeld => List.suffix_nil.1 ?_
  exact noneHeld ▸ advances.held

end Advances

/-- A turn queues the first update that is held, or applies the first in the queue. -/
theorem advances_of_turn? (taken : turn? dispatcher state turn = some next) :
    Advances dispatcher state 1 next := by
  obtain ⟨worker, held⟩ := state
  cases turn with
  | submit =>
      obtain ⟨-, hasRoom, update, rest, rfl, rfl⟩ := turn?_submit_eq_some.1 taken
      have short : worker.queue.length < max worker.capacity 1 := of_decide_eq_true hasRoom
      constructor
      case capacity => rfl
      case isOpen => rfl
      case held => exact List.suffix_cons update rest
      case bounded => exact fun _ => List.length_append.trans_le short
      case nearer =>
        simp only [List.length_append, List.length_cons, List.length_nil]
        omega
      case served =>
        refine ⟨[], by simp, fun served => ?_⟩
        rw [List.append_nil]
        exact served.requeue _ _
  | take =>
      obtain ⟨update, rest, queue, rfl⟩ := turn?_take_eq_some.1 taken
      rw [apply_eq]
      constructor
      case capacity => rfl
      case isOpen => rfl
      case held => exact List.suffix_rfl
      case bounded =>
        intro short
        rw [queue, List.length_cons] at short
        exact Nat.le_of_succ_le short
      case nearer =>
        simp only [queue, List.length_cons]
        omega
      case served =>
        refine ⟨[update], by simp [queue], fun served => ?_⟩
        rw [← apply_eq]
        exact (served.requeue rest worker.isOpen).apply update

theorem advances_of_follow? (followed : follow? dispatcher state schedule = some next) :
    Advances dispatcher state schedule.length next := by
  induction schedule generalizing state with
  | nil =>
      cases followed
      exact .refl _
  | cons turn rest ih =>
      obtain ⟨middle, taken, followed⟩ := Option.bind_eq_some_iff.1 followed
      rw [List.length_cons, Nat.add_comm]
      exact (advances_of_turn? taken).trans (ih followed)

/-- An empty queue has room, in a capacity of zero as well. -/
theorem hasRoom_of_drained (drained : worker.queue = []) : worker.hasRoom = true := by
  rw [hasRoom, drained]
  exact decide_eq_true (Nat.lt_of_lt_of_le Nat.zero_lt_one (Nat.le_max_right ..))

/-- A worker takes what is queued, or else producers queue what they hold. -/
theorem exists_turn (dispatcher : Dispatcher) (admits : state.1.isOpen = true ∨ state.2 = [])
    (left : state.1.queue ≠ [] ∨ state.2 ≠ []) :
    ∃ turn next, turn? dispatcher state turn = some next := by
  obtain ⟨worker, held⟩ := state
  cases queue : worker.queue with
  | cons update rest => exact ⟨.take, _, turn?_take_eq_some.2 ⟨update, rest, queue, rfl⟩⟩
  | nil =>
      cases held with
      | nil => exact absurd queue (left.resolve_right fun some => some rfl)
      | cons update rest =>
          have isOpen : worker.isOpen = true := admits.resolve_right nofun
          exact ⟨.submit, _, turn?_submit_eq_some.2
            ⟨isOpen, hasRoom_of_drained queue, update, rest, rfl, rfl⟩⟩

/-- However far a schedule has come, it can be continued until nothing is left. -/
theorem exists_schedule (dispatcher : Dispatcher) (state : Worker × List FieldUpdate)
    (admits : state.1.isOpen = true ∨ state.2 = []) :
    ∃ schedule last, follow? dispatcher state schedule = some (last, []) ∧ last.queue = [] := by
  -- Each turn leaves one turn less.
  generalize size : 2 * state.2.length + state.1.queue.length = turns
  induction turns generalizing state with
  | zero =>
      obtain ⟨worker, held⟩ := state
      obtain ⟨noneHeld, noneQueued⟩ := Nat.add_eq_zero_iff.1 size
      obtain rfl : held = [] :=
        List.eq_nil_of_length_eq_zero ((Nat.mul_eq_zero.1 noneHeld).resolve_left nofun)
      exact ⟨[], worker, rfl, List.eq_nil_of_length_eq_zero noneQueued⟩
  | succ turns ih =>
      have left : state.1.queue ≠ [] ∨ state.2 ≠ [] := by
        rw [← List.length_pos_iff, ← List.length_pos_iff]
        omega
      obtain ⟨turn, next, taken⟩ := exists_turn dispatcher admits left
      have advances := advances_of_turn? taken
      have nearer := advances.nearer
      obtain ⟨schedule, last, followed, drained⟩ := ih next (advances.admits admits) (by omega)
      exact ⟨turn :: schedule, last, Option.bind_eq_some_iff.2 ⟨next, taken, followed⟩, drained⟩

/-- A worker that some turns were taken with, and maybe closed, since producers set out to give it
updates: it has applied the first of them. -/
structure Underway (dispatcher : Dispatcher) (start : Engine) (capacity : Nat)
    (updates : List FieldUpdate) (turns : Nat) (state : Worker × List FieldUpdate) : Prop where
  served : ∃ taken, updates = taken ++ state.1.queue ++ state.2 ∧
    Served dispatcher start taken state.1
  bounded : state.1.queue.length ≤ max capacity 1
  capacity : state.1.capacity = capacity
  admits : state.1.isOpen = true ∨ state.2 = []
  turns : turns + 2 * state.2.length + state.1.queue.length = 2 * updates.length

theorem underway_ofEngine (dispatcher : Dispatcher) (start : Engine) (capacity : Nat)
    (updates : List FieldUpdate) :
    Underway dispatcher start capacity updates 0 (ofEngine start capacity, updates) where
  served := ⟨[], rfl, served_ofEngine dispatcher start capacity⟩
  capacity := rfl
  bounded := Nat.zero_le _
  admits := .inl rfl
  turns := by simp [ofEngine]

namespace Underway

variable {turns : Nat}

theorem follow (underway : Underway dispatcher start capacity updates turns state)
    (followed : follow? dispatcher state schedule = some next) :
    Underway dispatcher start capacity updates (turns + schedule.length) next := by
  have advances := advances_of_follow? followed
  constructor
  case served =>
    obtain ⟨taken, split, served⟩ := underway.served
    obtain ⟨more, rejoined, also⟩ := advances.served
    refine ⟨taken ++ more, ?_, also served⟩
    rw [split, List.append_assoc, rejoined]
    simp only [List.append_assoc]
  case capacity => exact advances.capacity.trans underway.capacity
  case bounded =>
    have bounded := advances.bounded
    rw [underway.capacity] at bounded
    exact bounded underway.bounded
  case admits => exact advances.admits underway.admits
  case turns =>
    have := advances.nearer
    have := underway.turns
    omega

theorem close (underway : Underway dispatcher start capacity updates turns (worker, [])) :
    Underway dispatcher start capacity updates turns (worker.close, []) where
  served := by
    obtain ⟨taken, split, served⟩ := underway.served
    exact ⟨taken, split, served.requeue worker.queue false⟩
  capacity := underway.capacity
  bounded := underway.bounded
  admits := .inr rfl
  turns := underway.turns

/-- Nothing is left to apply once no update is held or queued. -/
theorem served_of_drained
    (underway : Underway dispatcher start capacity updates turns (worker, []))
    (drained : worker.queue = []) : Served dispatcher start updates worker := by
  obtain ⟨taken, split, served⟩ := underway.served
  rw [drained, List.append_nil, List.append_nil] at split
  exact split ▸ served

/-- At no time has a counter passed the number of updates times that of registered conditions, of
which at least one counts. -/
theorem below {bound : Nat} (reached : Engine.Reachable start)
    (underway : Underway dispatcher start capacity updates turns state)
    (few : updates.length * max start.roots.size 1 < bound) : state.1.stats.Below bound := by
  obtain ⟨log, recorded⟩ := reached.recorded
  obtain ⟨taken, split, served⟩ := underway.served
  have within : taken.length ≤ updates.length := by
    rw [split, List.append_assoc, List.length_append]
    exact Nat.le_add_right ..
  exact served.below recorded.sound
    (Nat.lt_of_le_of_lt (Nat.mul_le_mul_right _ within) few)

end Underway

theorem underway_of_submitting {early : List Turn}
    (submitted : follow? dispatcher (ofEngine start capacity, updates) early = some state) :
    Underway dispatcher start capacity updates early.length state := by
  have underway := (underway_ofEngine dispatcher start capacity updates).follow submitted
  rwa [Nat.zero_add] at underway

theorem underway_of_draining {early late : List Turn} {middle : Worker}
    (submitted : follow? dispatcher (ofEngine start capacity, updates) early = some (middle, []))
    (taken : follow? dispatcher (middle.close, []) late = some state) :
    Underway dispatcher start capacity updates (early.length + late.length) state :=
  (underway_of_submitting submitted).close.follow taken

/-! ## Complete runs -/

/-- A worker that producers gave updates to, that was then closed and took the rest. -/
def Completes (dispatcher : Dispatcher) (start : Engine) (capacity : Nat)
    (updates : List FieldUpdate) (last : Worker) : Prop :=
  ∃ early middle late,
    follow? dispatcher (ofEngine start capacity, updates) early = some (middle, []) ∧
      follow? dispatcher (middle.close, []) late = some (last, []) ∧ last.queue = []

theorem process_eq (isOpen : worker.isOpen = true) (drained : worker.queue = []) :
    worker.process dispatcher update = worker.apply dispatcher update := by
  obtain ⟨engine, capacity, _, _, stats, attempted⟩ := worker
  cases isOpen
  cases drained
  rfl

theorem follow?_submit_take (isOpen : worker.isOpen = true) (drained : worker.queue = []) :
    follow? dispatcher (worker, update :: held) [.submit, .take] =
      some (worker.process dispatcher update, held) := by
  have submitted : turn? dispatcher (worker, update :: held) .submit = some _ :=
    turn?_submit_eq_some.2 ⟨isOpen, hasRoom_of_drained drained, update, held, rfl, rfl⟩
  rw [process_eq isOpen drained]
  obtain ⟨engine, capacity, _, _, stats, attempted⟩ := worker
  cases drained
  exact Option.bind_eq_some_iff.2 ⟨_, submitted, rfl⟩

/-- Each update may be applied before the next one is queued, in any capacity. -/
theorem follow?_process (dispatcher : Dispatcher) (updates : List FieldUpdate)
    (isOpen : worker.isOpen = true) (drained : worker.queue = []) :
    follow? dispatcher (worker, updates) (updates.flatMap fun _ => [.submit, .take]) =
        some (updates.foldl (process dispatcher) worker, []) ∧
      (updates.foldl (process dispatcher) worker).queue = [] := by
  induction updates generalizing worker with
  | nil => exact ⟨rfl, drained⟩
  | cons update rest ih =>
      have still : (worker.process dispatcher update).isOpen = true ∧
          (worker.process dispatcher update).queue = [] := by
        rw [process_eq isOpen drained, apply_eq]
        exact ⟨isOpen, drained⟩
      obtain ⟨followed, empty⟩ := ih still.1 still.2
      refine ⟨?_, empty⟩
      rw [List.flatMap_cons, follow?, List.foldlM_append]
      exact Option.bind_eq_some_iff.2 ⟨_, follow?_submit_take isOpen drained, followed⟩

theorem completes_run (dispatcher : Dispatcher) (start : Engine) (capacity : Nat)
    (updates : List FieldUpdate) :
    Completes dispatcher start capacity updates (run dispatcher start capacity updates) := by
  have ⟨followed, drained⟩ :=
    @follow?_process (ofEngine start capacity) dispatcher updates rfl rfl
  exact ⟨_, _, [], followed, rfl, drained⟩

namespace Completes

theorem underway (completes : Completes dispatcher start capacity updates last) :
    Underway dispatcher start capacity updates (2 * updates.length) (last, []) ∧
      last.isOpen = false ∧ last.queue = [] := by
  obtain ⟨early, middle, late, submitted, taken, drained⟩ := completes
  have underway := underway_of_draining submitted taken
  have turns : _ + 2 * 0 + last.queue.length = _ := underway.turns
  rw [drained, List.length_nil] at turns
  exact ⟨turns ▸ underway, (advances_of_follow? taken).isOpen, drained⟩

theorem served (completes : Completes dispatcher start capacity updates last) :
    Served dispatcher start updates last :=
  completes.underway.1.served_of_drained completes.underway.2.2

/-- All complete runs end alike. -/
theorem unique (completes : Completes dispatcher start capacity updates last)
    (also : Completes dispatcher start capacity updates other) : last = other := by
  obtain ⟨underway, isClosed, drained⟩ := completes.underway
  obtain ⟨alsoUnderway, alsoClosed, alsoDrained⟩ := also.underway
  exact completes.served.ext also.served (underway.capacity.trans alsoUnderway.capacity.symm)
    (isClosed.trans alsoClosed.symm) (drained.trans alsoDrained.symm)

end Completes

/-- What workers on an engine do, whoever takes turns when and whichever dispatches fail. -/
structure Serves (start : Engine) : Prop where
  submitting : ∀ {dispatcher capacity updates early state},
    follow? dispatcher (ofEngine start capacity, updates) early = some state →
      Underway dispatcher start capacity updates early.length state
  draining : ∀ {dispatcher capacity updates early middle late state},
    follow? dispatcher (ofEngine start capacity, updates) early = some (middle, []) →
      follow? dispatcher (middle.close, []) late = some state →
        Underway dispatcher start capacity updates (early.length + late.length) state
  proceeds : ∀ {dispatcher capacity updates turns state},
    Underway dispatcher start capacity updates turns state →
      ∃ schedule last, follow? dispatcher state schedule = some (last, []) ∧ last.queue = []
  completes : ∀ {dispatcher capacity updates last},
    Completes dispatcher start capacity updates last ↔
      last = run dispatcher start capacity updates
  served : ∀ dispatcher capacity updates,
    Served dispatcher start updates (run dispatcher start capacity updates)
  delivered : ∀ dispatcher capacity updates,
    let last := run dispatcher start capacity updates
    (last.delivered dispatcher).length + last.stats.failures = last.stats.fired
  skips : ∀ updates : List FieldUpdate,
    start.handleAll (updates.map FieldUpdate.request) =
      start.handleAll ((updates.filter fun update =>
        start.sensors.contains update.sensor).map FieldUpdate.request)
  fires : ∀ (before : List FieldUpdate) (update : FieldUpdate),
    (start.handleAll (before.map FieldUpdate.request)).Fires update

/-- Whatever was asked of an engine before, workers apply updates to it in their order and dispatch
each condition that an update turns true, once and in that order. -/
theorem serves_of_reachable {engine : Engine} (reached : Engine.Reachable engine) :
    Serves engine := by
  constructor
  case submitting => exact underway_of_submitting
  case draining => exact underway_of_draining
  case proceeds =>
    intro dispatcher capacity updates turns state underway
    exact exists_schedule dispatcher state underway.admits
  case completes =>
    intro dispatcher capacity updates last
    refine ⟨fun completes => completes.unique (completes_run ..), ?_⟩
    rintro rfl
    exact completes_run dispatcher engine capacity updates
  case served =>
    intro dispatcher capacity updates
    exact (completes_run dispatcher engine capacity updates).served
  case delivered =>
    intro dispatcher capacity updates
    exact (completes_run dispatcher engine capacity updates).served.length_delivered
  case skips => exact fun updates => (engine.handleAll_filter updates).symm
  case fires =>
    intro before update
    obtain ⟨log, recorded⟩ := (reached.handleAll (before.map FieldUpdate.request)).recorded
    exact recorded.sound.fires update

/-- A queue for one update, a dispatcher that fails for one of two conditions, and an update for a
sensor that is not registered. -/
theorem serves_statuses :
    let engine := Engine.empty.handleAll
      [.addSensor 3 none [("Status", .unsigned)],
        .register ⟨some 1, none, "[3]=(Status,50)", []⟩,
        .register ⟨some 2, none, "[3]>(Status,40)", []⟩]
    let dispatcher : Dispatcher := fun fired =>
      if fired.condition = 1 then .error .queueClosed else .ok ()
    let updates : List FieldUpdate :=
      [⟨3, "Status", .unsigned 50⟩, ⟨3, "Status", .unsigned 51⟩, ⟨9, "Status", .unsigned 50⟩,
        ⟨3, "Status", .unsigned 50⟩]
    let last := run dispatcher engine 0 updates
    Engine.Reachable engine ∧
      follow? dispatcher (ofEngine engine 0, updates) [.submit, .submit] = none ∧
      last.stats = ⟨3, 1, 3, 2⟩ ∧ last.attempted.map Fired.condition = [2, 1, 1] ∧
      Serves engine := by
  intro engine dispatcher updates last
  have reached : Engine.Reachable engine := Engine.Reachable.empty.handleAll _
  exact ⟨reached, by decide +kernel, by decide +kernel, by decide +kernel,
    serves_of_reachable reached⟩

end Worker

end Tripwire
