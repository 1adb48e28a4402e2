import Tripwire.Proofs.Engine.Deliveries

/-!
# Runs

Every request keeps an engine sound, and a configuration that loads gives a sound engine. So
every engine on record is sound.
-/

namespace Tripwire

/-- The deliveries that a request asks for. -/
def Request.deliveries : Request → List (SensorId × String × Value)
  | .update sensor field value => [(sensor, field, value)]
  | .updateAll sensor payload => payload.map fun item => (sensor, item.1, item.2)
  | _ => []

namespace Engine

variable {engine extended : Engine} {log : List Registration}

/-! ## Sensors -/

theorem addSensor_eq_ok {id : SensorId} {sensor : Sensor} :
    engine.addSensor id sensor = .ok extended ↔
      engine.sensors.contains id = false ∧
        extended = { engine with sensors := engine.sensors.insert id sensor } := by
  rw [addSensor, ite_error_eq_ok, Bool.not_eq_true, Except.ok.injEq, eq_comm (a := extended)]

theorem addEntry_eq_ok {entry : SensorEntry} :
    engine.addEntry entry = .ok extended ↔
      ∃ sensor, entry.sensor = .ok sensor ∧ engine.addSensor entry.id sensor = .ok extended :=
  bind_eq_ok

/-- A sensor that is not registered has no tests. -/
theorem testsOn_of_fresh (sound : engine.toNetwork.Sound) {id : SensorId}
    (fresh : engine.sensors.contains id = false) (field : String) :
    engine.graph.testsOn id field = [] := by
  rw [List.eq_nil_iff_forall_not_mem]
  intro test member
  obtain ⟨predicate, found, rfl, _⟩ := Graph.mem_testsOn.1 member
  exact Sensors.ne_of_type? fresh (sound.typed found) rfl

theorem Sound.addSensor (sound : engine.Sound log) {id : SensorId} {sensor : Sensor}
    (blank : sensor.Blank) (added : engine.addSensor id sensor = .ok extended) :
    extended.Sound log := by
  obtain ⟨fresh, rfl⟩ := addSensor_eq_ok.1 added
  have extending : Sensors.Extends engine.sensors (engine.sensors.insert id sensor) :=
    Sensors.extends_insert fresh sensor
  have keeps : engine.Keeps { engine with sensors := engine.sensors.insert id sensor } :=
    ⟨extending, fun found => found, fun stands => stands⟩
  have watched : ∀ {other field declared},
      Sensors.field? (engine.sensors.insert id sensor) other field = some declared →
        declared.watchers = engine.graph.testsOn other field := by
    intro other field declared found
    rw [Sensors.field?_insert] at found
    split at found
    case isTrue same =>
      rw [← same, testsOn_of_fresh sound.network fresh]
      exact (blank field declared found).2
    case isFalse => exact sound.network.watched found
  have network : Network.Sound ⟨engine.sensors.insert id sensor, engine.graph⟩ :=
    ⟨sound.network.linked, sound.network.settled, sound.network.distinct, watched,
      fun test => extending (sound.network.typed test)⟩
  refine ⟨network, sound.rooted, sound.satisfied, sound.registered, sound.once, ?_, ?_⟩
  · intro registration member
    obtain ⟨formula, carried⟩ := sound.carried registration member
    exact ⟨formula, carried.keep keeps⟩
  · intro node within inner
    obtain ⟨registration, member, formula, carried, part⟩ := sound.needed within inner
    exact ⟨registration, member, formula, carried.keep keeps, part⟩

theorem Sound.addEntry (sound : engine.Sound log) {entry : SensorEntry}
    (added : engine.addEntry entry = .ok extended) : extended.Sound log := by
  obtain ⟨sensor, found, added⟩ := addEntry_eq_ok.1 added
  exact sound.addSensor (SensorEntry.blank_sensor found) added

/-! ## Loading -/

theorem Sound.registerAll (entries : List ConditionEntry) {engine : Engine}
    (sound : engine.Sound log) :
    (engine.registerAll entries).1.Sound (log ++ engine.accepted entries) := by
  induction entries generalizing engine log with
  | nil =>
      rw [accepted, List.append_nil]
      exact sound
  | cons entry rest ih =>
      rw [Engine.registerAll, accepted]
      cases registered : engine.register entry with
      | error error => exact ih sound
      | ok result =>
          obtain ⟨extended, id⟩ := result
          have next := ih (sound.register registered)
          rw [List.append_assoc] at next
          exact next

/-- The id that comes next is of no concern to what is registered. -/
theorem Sound.numbered (sound : engine.Sound log) (nextId : ConditionId) :
    Sound { engine with nextId } log where
  network := sound.network
  rooted := sound.rooted
  satisfied := sound.satisfied
  registered := sound.registered
  once := sound.once
  carried registration member := by
    obtain ⟨formula, carried⟩ := sound.carried registration member
    exact ⟨formula, carried.checked, carried.root⟩
  needed within inner := by
    obtain ⟨registration, member, formula, carried, part⟩ := sound.needed within inner
    exact ⟨registration, member, formula, ⟨carried.checked, carried.root⟩, part⟩

theorem sound_of_declared {entries : List SensorEntry}
    (declared : entries.foldlM addEntry empty = .ok engine) : engine.Sound [] := by
  have kept : ∀ {earlier entry next}, Sound earlier [] → addEntry earlier entry = .ok next →
      Sound next [] := fun sound added => sound.addEntry added
  exact foldlM_ok_invariant kept entries sound_empty declared

theorem sound_of_load {config : Config} {report : Report}
    (loaded : load config = .ok (engine, report)) : engine.Sound (configured config) := by
  obtain ⟨declared, found, rfl, _⟩ := load_eq_ok loaded
  have sound := sound_of_declared found
  have registered := (sound.numbered config.firstFreeId).registerAll config.conditions
  rw [configured, found]
  exact registered

/-! ## Requests -/

/-- The engine after deliveries to one sensor in turn. -/
def deliverAll (engine : Engine) (sensor : SensorId) : List (String × Value) → Engine
  | [] => engine
  | item :: rest => (engine.deliver sensor item.1 item.2).engine.deliverAll sensor rest

/-- What each of the deliveries to one sensor did. -/
def outcomesOf (engine : Engine) (sensor : SensorId) : List (String × Value) → List Outcome
  | [] => []
  | item :: rest =>
      (engine.deliver sensor item.1 item.2).outcome ::
        (engine.deliver sensor item.1 item.2).engine.outcomesOf sensor rest

/-- Deliveries in turn do what each of them does, and their outcomes are merged. -/
theorem foldl_deliverNext (sensor : SensorId) (payload : List (String × Value))
    (done : Delivery) :
    (payload.foldl (deliverNext sensor) done).engine = done.engine.deliverAll sensor payload ∧
      (payload.foldl (deliverNext sensor) done).outcome =
        (done.engine.outcomesOf sensor payload).foldl Outcome.merge done.outcome := by
  induction payload generalizing done with
  | nil => exact ⟨rfl, rfl⟩
  | cons item rest ih =>
      obtain ⟨engine, outcome⟩ := ih (deliverNext sensor done item)
      exact ⟨engine, outcome⟩

/-- What the deliveries of a request report, each for itself. -/
def reports (engine : Engine) : Request → List Outcome
  | .update sensor field value =>
      match engine.update sensor field value with
      | .ok delivery => [delivery.outcome]
      | .error _ => []
  | .updateAll sensor payload =>
      match engine.updateAll sensor payload with
      | .ok _ => engine.outcomesOf sensor payload
      | .error _ => []
  | _ => []

theorem Sound.deliverAll (sensor : SensorId) (payload : List (String × Value))
    {engine : Engine} (sound : engine.Sound log) :
    (engine.deliverAll sensor payload).Sound log := by
  induction payload generalizing engine with
  | nil => exact sound
  | cons item rest ih => exact ih (sound.deliver sensor item.1 item.2).1

theorem update_eq_ok {sensor : SensorId} {field : String} {value : Value}
    {delivery : Delivery} :
    engine.update sensor field value = .ok delivery ↔
      engine.sensors.contains sensor = true ∧ delivery = engine.deliver sensor field value :=
  ite_eq_ok

theorem updateAll_eq_ok {sensor : SensorId} {payload : List (String × Value)}
    {delivery : Delivery} :
    engine.updateAll sensor payload = .ok delivery ↔
      engine.sensors.contains sensor = true ∧
        delivery = payload.foldl (deliverNext sensor) ⟨engine, .empty, []⟩ :=
  ite_eq_ok

/-- What a request does to an engine, with what it registers and what its deliveries report. -/
inductive Handled (engine : Engine) (request : Request) :
    Engine → List Registration → List Outcome → Prop where
  | refused : Handled engine request engine [] []
  | declared {id : SensorId} {sensor : Sensor} {extended : Engine} (blank : sensor.Blank)
      (added : engine.addSensor id sensor = .ok extended) :
      Handled engine request extended [] []
  | registered {entry : ConditionEntry} {id : ConditionId} {extended : Engine}
      (registered : engine.register entry = .ok (extended, id)) :
      Handled engine request extended [⟨id, entry⟩] []
  | delivered {sensor : SensorId} {payload : List (String × Value)}
      (asked : request.deliveries = payload.map fun item => (sensor, item.1, item.2)) :
      Handled engine request (engine.deliverAll sensor payload) []
        (engine.outcomesOf sensor payload)

theorem handled (engine : Engine) (request : Request) :
    engine.Handled request (engine.handle request) (engine.accepted request.conditions)
      (engine.reports request) := by
  cases request with
  | addSensor id name fields =>
      cases added : engine.addSensor id (.ofList name fields) with
      | error error =>
          simp only [handle, added, orSame]
          exact .refused
      | ok extended =>
          simp only [handle, added, orSame]
          exact .declared (Sensor.blank_ofList name fields) added
  | addEntry entry =>
      cases added : engine.addEntry entry with
      | error error =>
          simp only [handle, added, orSame]
          exact .refused
      | ok extended =>
          obtain ⟨sensor, found, there⟩ := addEntry_eq_ok.1 added
          simp only [handle, added, orSame]
          exact .declared (SensorEntry.blank_sensor found) there
  | register entry =>
      cases registered : engine.register entry with
      | error error =>
          simp only [handle, Request.conditions, accepted, registered, orSame]
          exact .refused
      | ok result =>
          simp only [handle, Request.conditions, accepted, registered, orSame]
          exact .registered registered
  | update sensor field value =>
      cases done : engine.update sensor field value with
      | error error =>
          simp only [handle, reports, done, orSame]
          exact .refused
      | ok delivery =>
          obtain ⟨_, rfl⟩ := update_eq_ok.1 done
          simp only [handle, reports, done, orSame]
          have asked : Request.deliveries (.update sensor field value) =
              [(field, value)].map fun item => (sensor, item.1, item.2) := rfl
          exact .delivered asked
  | updateAll sensor payload =>
      cases done : engine.updateAll sensor payload with
      | error error =>
          simp only [handle, reports, done, orSame]
          exact .refused
      | ok delivery =>
          obtain ⟨_, rfl⟩ := updateAll_eq_ok.1 done
          simp only [handle, reports, done, orSame,
            (foldl_deliverNext sensor payload ⟨engine, .empty, []⟩).1]
          exact .delivered rfl

theorem Sound.handle (sound : engine.Sound log) (request : Request) :
    (engine.handle request).Sound (log ++ engine.accepted request.conditions) := by
  have handled := engine.handled request
  generalize engine.handle request = after, engine.accepted request.conditions = added,
    engine.reports request = reported at handled ⊢
  cases handled with
  | refused =>
      rw [List.append_nil]
      exact sound
  | declared blank added =>
      rw [List.append_nil]
      exact sound.addSensor blank added
  | registered registered => exact sound.register registered
  | delivered asked =>
      rw [List.append_nil]
      exact sound.deliverAll _ _

/-- Every engine on record is sound. -/
theorem Recorded.sound (recorded : Recorded engine log) : engine.Sound log := by
  induction recorded with
  | empty => exact sound_empty
  | load loaded => exact sound_of_load loaded
  | handle recorded request ih => exact ih.handle request

/-! ## Counts, statuses and the satisfied conditions -/

/-- Every group counts its edges to children that hold and stands as its junction tells from
the count, every root stands as its child, and the satisfied conditions are the registered ones
whose roots hold. -/
structure Consistent (engine : Engine) (log : List Registration) : Prop where
  edges : ∀ {id junction children holding status parents},
    engine.graph.node? id = some ⟨.group junction children holding, status, parents⟩ →
      ∀ child ∈ children, ∃ node, engine.graph.node? child = some node
  count : ∀ {id junction children holding status parents},
    engine.graph.node? id = some ⟨.group junction children holding, status, parents⟩ →
      holding = children.countP engine.graph.status ∧ holding ≤ children.length
  all : ∀ {id children holding status parents},
    engine.graph.node? id = some ⟨.group .all children holding, status, parents⟩ →
      (status = true ↔ holding = children.length)
  any : ∀ {id children holding status parents},
    engine.graph.node? id = some ⟨.group .any children holding, status, parents⟩ →
      (status = true ↔ 0 < holding)
  root : ∀ {id root status parents},
    engine.graph.node? id = some ⟨.root root, status, parents⟩ →
      ∃ child, engine.graph.node? root.child = some child ∧ status = child.status
  satisfied : ∀ {condition}, engine.isSatisfied condition = true ↔
    ∃ registration ∈ log, registration.condition = condition ∧
      ∃ id root parents, engine.roots.get? condition = some id ∧
        engine.graph.node? id = some ⟨.root root, true, parents⟩ ∧ root.condition = condition

theorem Sound.satisfied_iff (sound : engine.Sound log) {condition : ConditionId} :
    engine.isSatisfied condition = true ↔
      ∃ registration ∈ log, registration.condition = condition ∧
        ∃ id root parents, engine.roots.get? condition = some id ∧
          engine.graph.node? id = some ⟨.root root, true, parents⟩ ∧
            root.condition = condition := by
  rw [sound.satisfied]
  constructor
  · rintro ⟨id, rooted, holds⟩
    obtain ⟨registration, member, same⟩ := sound.registered.1 (contains_iff.2 ⟨id, rooted⟩)
    obtain ⟨root, found, here⟩ := sound.rooted.1 rooted
    obtain ⟨status, parents, there⟩ := Graph.node?_of_root? found
    rw [Graph.status_of_node? there] at holds
    cases holds
    exact ⟨registration, member, same, id, root, parents, rooted, there, here⟩
  · rintro ⟨_, _, _, id, root, parents, rooted, there, _⟩
    exact ⟨id, rooted, Graph.status_of_node? there⟩

/-- Whatever was asked of an engine, its counts, statuses and satisfied conditions agree. -/
theorem Recorded.consistent (recorded : Recorded engine log) : engine.Consistent log := by
  have sound := recorded.sound
  have linked := sound.network.linked
  have settled := sound.network.settled
  constructor
  case edges =>
    intro id junction children holding status parents found child member
    rw [← Graph.children_of_group found] at member
    exact Graph.exists_node? (linked.lt_size member)
  case count =>
    intro id junction children holding status parents found
    have counted := (settled.group found).1
    exact ⟨counted, counted ▸ List.countP_le_length⟩
  case all =>
    intro id children holding status parents found
    rw [(settled.group found).2, Junction.status, beq_iff_eq]
  case any =>
    intro id children holding status parents found
    rw [(settled.group found).2, Junction.status, decide_eq_true_iff]
  case root =>
    intro id root status parents found
    have isChild : root.child ∈ engine.graph.children id := by
      rw [Graph.children_of_root found]
      exact List.mem_singleton_self _
    obtain ⟨child, there⟩ := Graph.exists_node? (linked.lt_size isChild)
    exact ⟨child, there, (settled.root found).trans (Graph.status_of_node? there)⟩
  case satisfied => exact sound.satisfied_iff

/-- Requests that share tests among conditions, with a value of another type between. -/
def samples : List Request :=
  [.addSensor 1 none [("t", .unsigned), ("p", .double)],
    .register ⟨none, some "warm", "[1]>(t,5)", []⟩,
    .update 1 "t" (.unsigned 7),
    .register ⟨none, some "mild", "[1]&(>(t,5),<(t,10),>(t,05))", []⟩,
    .update 1 "t" (.text "hot"),
    .register ⟨some 9, none, "[1]|(<(t,10),&(<(t,10),>(t,5),>(t,5)))", [.ofList 2 "cool" []]⟩,
    .update 1 "t" (.unsigned 3)]

theorem consistent_samples :
    (empty.handleAll samples).Consistent (empty.registrations samples) ∧
      (empty.registrations samples).length = 3 ∧
        (empty.handleAll samples).satisfied.keys = [9] :=
  ⟨Recorded.consistent (recorded_handleAll samples), by decide +kernel, by decide +kernel⟩

end Engine

end Tripwire
