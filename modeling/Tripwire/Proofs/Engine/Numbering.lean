import Tripwire.Proofs.Engine.Refusals
import Tripwire.Proofs.Engine.Runs

/-!
# The ids of conditions that come without one

The id that is given out next stays above all registered ones until the largest id is taken, which
has none above it. A configuration's conditions without an id get ids above those that it gives to
others, as long as there are any.
-/

namespace Tripwire

namespace ConditionId

/-- The largest id. -/
def greatest : ConditionId := 0xFFFFFFFF

instance : Std.LawfulOrderSup ConditionId where
  max_le_iff first second bound := by
    change (if first ≤ second then second else first) ≤ bound ↔ _
    split
    case isTrue le => exact ⟨fun below => ⟨UInt32.le_trans le below, below⟩, And.right⟩
    case isFalse above =>
      have le := UInt32.le_of_lt (UInt32.not_le.1 above)
      exact ⟨fun below => ⟨below, UInt32.le_trans le below⟩, And.left⟩

variable {id other : ConditionId}

theorem le_greatest (id : ConditionId) : id ≤ greatest :=
  UInt32.le_iff_toNat_le.2 (Nat.le_of_lt_succ id.toNat_lt)

theorem toNat_next (id : ConditionId) : (next id).toNat = min (id.toNat + 1) greatest.toNat := by
  have bounded := id.toNat_lt
  have top : greatest.toNat = 2 ^ 32 - 1 := rfl
  unfold next
  split
  case isTrue same =>
    subst same
    rfl
  case isFalse apart =>
    have below : id.toNat ≠ greatest.toNat := fun same => apart (UInt32.toNat_inj.1 same)
    have room : id.toNat + 1 < 2 ^ 32 := by omega
    rw [UInt32.toNat_add]
    exact (Nat.mod_eq_of_lt room).trans (by omega)

theorem lt_next (below : id ≠ greatest) : id < next id := by
  have apart : id.toNat ≠ greatest.toNat := fun same => below (UInt32.toNat_inj.1 same)
  have bounded := UInt32.le_iff_toNat_le.1 (le_greatest id)
  rw [UInt32.lt_iff_toNat_lt, toNat_next]
  omega

theorem next_mono (le : id ≤ other) : next id ≤ next other := by
  rw [UInt32.le_iff_toNat_le] at le ⊢
  rw [toNat_next, toNat_next]
  omega

theorem eq_greatest_of_next_le (le : next id ≤ id) : id = greatest := by
  apply Classical.byContradiction
  intro below
  exact UInt32.not_lt.2 le (lt_next below)

end ConditionId

/-- The first free id comes after all that a configuration gives. -/
theorem Config.next_le_firstFreeId {config : Config} {entry : ConditionEntry}
    (member : entry ∈ config.conditions) {id : ConditionId} (given : entry.id = some id) :
    ConditionId.next id ≤ config.firstFreeId := by
  have among : id ∈ config.conditions.filterMap ConditionEntry.id :=
    List.mem_filterMap.2 ⟨entry, member, given⟩
  unfold firstFreeId
  cases found : (config.conditions.filterMap ConditionEntry.id).max? with
  | none =>
      rw [List.max?_eq_none_iff.1 found] at among
      cases among
  | some largest =>
      exact ConditionId.next_mono ((List.max?_le_iff found).1 (Std.le_refl largest) id among)

namespace Engine

open ConditionId

variable {engine extended : Engine} {log : List Registration} {entry : ConditionEntry}

/-! ## The next id -/

/-- The next id is no earlier than what follows any registered one. -/
def Ahead (engine : Engine) : Prop :=
  ∀ condition, engine.roots.contains condition = true → next condition ≤ engine.nextId

theorem Ahead.register {id : ConditionId} (ahead : engine.Ahead)
    (registered : engine.register entry = .ok (extended, id)) : extended.Ahead := by
  obtain ⟨_, _, formula, _, rfl⟩ := register_eq_ok.1 registered
  intro condition taken
  rcases (Table.contains_insert ..).1 taken with rfl | earlier
  · exact Std.right_le_max
  · exact Std.le_trans (ahead condition earlier) Std.left_le_max

theorem nextId_le_of_register {id : ConditionId}
    (registered : engine.register entry = .ok (extended, id)) :
    engine.nextId ≤ extended.nextId := by
  obtain ⟨_, _, formula, _, rfl⟩ := register_eq_ok.1 registered
  exact Std.left_le_max

theorem Ahead.registerAll (entries : List ConditionEntry) {engine : Engine}
    (ahead : engine.Ahead) : (engine.registerAll entries).1.Ahead := by
  induction entries generalizing engine with
  | nil => exact ahead
  | cons entry rest ih =>
      rw [Engine.registerAll]
      cases registered : engine.register entry with
      | error error => exact ih ahead
      | ok result => exact ih (ahead.register registered)

theorem Ahead.deliver (ahead : engine.Ahead) (sensor : SensorId) (field : String)
    (value : Value) : (engine.deliver sensor field value).engine.Ahead :=
  ahead

theorem Ahead.deliverAll (sensor : SensorId) (payload : List (String × Value)) {engine : Engine}
    (ahead : engine.Ahead) : (engine.deliverAll sensor payload).Ahead := by
  induction payload generalizing engine with
  | nil => exact ahead
  | cons item rest ih => exact ih (ahead.deliver sensor item.1 item.2)

theorem Ahead.handle (ahead : engine.Ahead) (request : Request) :
    (engine.handle request).Ahead := by
  have handled := engine.handled request
  generalize engine.handle request = after, engine.accepted request.conditions = added,
    engine.reports request = reported at handled ⊢
  cases handled with
  | refused => exact ahead
  | declared blank added =>
      obtain ⟨_, rfl⟩ := addSensor_eq_ok.1 added
      exact ahead
  | registered registered => exact ahead.register registered
  | @delivered sensor payload _ => exact ahead.deliverAll sensor payload

/-- An engine without conditions is ahead, whatever id comes next. -/
theorem Sound.ahead (sound : engine.Sound []) (nextId : ConditionId) :
    Ahead { engine with nextId } := by
  intro condition taken
  obtain ⟨_, member, _⟩ := sound.registered.1 taken
  cases member

theorem Reachable.ahead (reached : Reachable engine) : engine.Ahead := by
  induction reached with
  | empty => exact sound_empty.ahead 0
  | load loaded =>
      obtain ⟨declared, found, rfl, _⟩ := load_eq_ok loaded
      exact ((sound_of_declared found).ahead _).registerAll _
  | handle reached request ih => exact ih.handle request

/-! ## What was registered in turn -/

/-- A registered condition has the id that it came with or the one that was next by then. -/
theorem exists_nextId_of_mem_accepted {entries : List ConditionEntry}
    {registration : Registration} (member : registration ∈ engine.accepted entries) :
    ∃ nextId, engine.nextId ≤ nextId ∧
      registration.condition = registration.entry.id.getD nextId := by
  induction entries generalizing engine with
  | nil => cases member
  | cons entry rest ih =>
      rw [accepted] at member
      cases registered : engine.register entry with
      | error error =>
          rw [registered] at member
          exact ih member
      | ok result =>
          obtain ⟨extended, id⟩ := result
          rw [registered] at member
          rcases List.mem_cons.1 member with rfl | later
          · exact ⟨engine.nextId, Std.le_refl _, (register_eq_ok.1 registered).1⟩
          · obtain ⟨nextId, above, named⟩ := ih later
            exact ⟨nextId, Std.le_trans (nextId_le_of_register registered) above, named⟩

theorem accepted_append (before after : List ConditionEntry) (engine : Engine) :
    engine.accepted (before ++ after) =
      engine.accepted before ++ (engine.registerAll before).1.accepted after := by
  induction before generalizing engine with
  | nil => rfl
  | cons entry rest ih =>
      rw [List.cons_append, accepted, accepted, registerAll]
      cases engine.register entry with
      | error error => exact ih engine
      | ok result => exact congrArg _ (ih result.1)

/-- What is rejected was refused by the engine that the conditions before it left. -/
theorem exists_refused_of_mem_rejected {entries : List ConditionEntry} {rejection : Rejection}
    (member : rejection ∈ (engine.registerAll entries).2.2) :
    ∃ before entry after, entries = before ++ entry :: after ∧ rejection.id = entry.id ∧
      (engine.registerAll before).1.register entry = .error rejection.error := by
  induction entries generalizing engine with
  | nil => cases member
  | cons first rest ih =>
      rw [registerAll] at member
      cases registered : engine.register first with
      | error error =>
          rw [registered] at member
          rcases List.mem_cons.1 member with rfl | later
          · exact ⟨[], first, rest, rfl, rfl, registered⟩
          · obtain ⟨before, entry, after, rfl, named, refused⟩ := ih later
            refine ⟨first :: before, entry, after, rfl, named, ?_⟩
            rw [registerAll, registered]
            exact refused
      | ok result =>
          rw [registered] at member
          obtain ⟨before, entry, after, rfl, named, refused⟩ := ih member
          refine ⟨first :: before, entry, after, rfl, named, ?_⟩
          rw [registerAll, registered]
          exact refused

/-! ## How conditions without an id are numbered -/

/-- A condition without an id that is valid gets one above all registered ones, until the largest
id is registered. -/
structure Numbers (engine : Engine) : Prop where
  above : engine.roots.contains greatest = false → ∀ {entry formula}, entry.id = none →
    engine.check entry.expression = .ok formula →
      ∃ after id, engine.register entry = .ok (after, id) ∧
        ∀ {condition}, engine.roots.contains condition = true → condition < id
  exhausted : engine.roots.contains greatest = true → ∀ {entry}, entry.id = none →
    engine.register entry = .error (.duplicateCondition greatest)

/-- A configuration gives no condition without an id one that it gives to another, nor is a
condition with an id refused for one without, unless it is the largest id. -/
structure Numbered (config : Config) (report : Report) : Prop where
  loaded : report.loaded = (configured config).map Registration.condition
  apart : ∀ registration ∈ configured config, registration.entry.id = none →
    ∀ entry ∈ config.conditions, entry.id = some registration.condition →
      registration.condition = greatest
  refused : ∀ rejection ∈ report.rejected, ∀ {id condition}, rejection.id = some id →
    rejection.error = .duplicateCondition condition →
      condition = id ∧ (id = greatest ∨
        ∃ registration ∈ configured config, registration.condition = id ∧
          registration.entry.id = some id)

theorem Ahead.lt_nextId (ahead : engine.Ahead)
    (free : engine.roots.contains greatest = false) {condition : ConditionId}
    (taken : engine.roots.contains condition = true) : condition < engine.nextId := by
  have below : condition ≠ greatest := by
    rintro rfl
    rw [free] at taken
    cases taken
  exact Std.lt_of_lt_of_le (lt_next below) (ahead condition taken)

theorem Ahead.numbers (ahead : engine.Ahead) : engine.Numbers where
  above := by
    intro free entry formula unnamed checked
    have fresh : engine.roots.contains engine.nextId = false := by
      cases taken : engine.roots.contains engine.nextId with
      | false => rfl
      | true => exact absurd (ahead.lt_nextId free taken) (UInt32.lt_irrefl _)
    have named : engine.nextId = entry.id.getD engine.nextId := by rw [unnamed, Option.getD_none]
    exact ⟨_, _, register_eq_ok.2 ⟨named, fresh, formula, checked, rfl⟩,
      fun taken => ahead.lt_nextId free taken⟩
  exhausted := by
    intro taken entry unnamed
    have last : engine.nextId = greatest := Std.le_antisymm (le_greatest _) (ahead greatest taken)
    exact register_eq_duplicate.2 ⟨by rw [unnamed, Option.getD_none, last], taken⟩

theorem numbered_of_load {config : Config} {report : Report}
    (loaded : load config = .ok (engine, report)) : Numbered config report := by
  obtain ⟨declared, found, _, _, rejected⟩ := load_eq_ok loaded
  have sound := (sound_of_declared found).numbered config.firstFreeId
  have inTurn : configured config =
      { declared with nextId := config.firstFreeId }.accepted config.conditions := by
    rw [configured, found]
  have apart : ∀ registration ∈ configured config, registration.entry.id = none →
      ∀ entry ∈ config.conditions, entry.id = some registration.condition →
        registration.condition = greatest := by
    intro registration member unnamed entry among given
    rw [inTurn] at member
    obtain ⟨nextId, above, named⟩ := exists_nextId_of_mem_accepted member
    rw [unnamed, Option.getD_none] at named
    rw [← named] at above
    exact eq_greatest_of_next_le (Std.le_trans (Config.next_le_firstFreeId among given) above)
  constructor
  case loaded => exact loaded_eq loaded
  case apart => exact apart
  case refused =>
    intro rejection member id condition given duplicate
    rw [rejected] at member
    obtain ⟨before, entry, after, split, same, refused⟩ := exists_refused_of_mem_rejected member
    rw [duplicate] at refused
    obtain ⟨named, taken⟩ := register_eq_duplicate.1 refused
    rw [same] at given
    rw [given, Option.getD_some] at named
    subst named
    refine ⟨rfl, ?_⟩
    -- the id was taken by one of the conditions before, and only another that came with it may
    obtain ⟨registration, earlier, taker⟩ := (sound.registerAll before).registered.1 taken
    have onRecord : registration ∈ configured config := by
      rw [inTurn, split, accepted_append]
      exact List.mem_append_left _ earlier
    cases own : registration.entry.id with
    | none =>
        have among : entry ∈ config.conditions := by simp [split]
        have top := apart registration onRecord own entry among (taker ▸ given)
        exact .inl (taker ▸ top)
    | some other =>
        rw [inTurn] at onRecord
        obtain ⟨_, _, named⟩ := exists_nextId_of_mem_accepted onRecord
        rw [own, Option.getD_some] at named
        rw [← inTurn] at onRecord
        exact .inr ⟨registration, onRecord, taker, by rw [own, ← named, taker]⟩

/-- Ids are numbered on from the largest one, by requests as well as in a configuration. -/
theorem numbering : (∀ {engine}, Reachable engine → engine.Numbers) ∧
    ∀ {config engine report}, load config = .ok (engine, report) → Numbered config report :=
  ⟨fun reached => reached.ahead.numbers, numbered_of_load⟩

/-- Nine is the largest id that was registered, and five the largest that a configuration gives. -/
theorem numbering_samples :
    (∃ after id, (empty.handleAll samples).register ⟨none, none, "[1]=(p,1)", []⟩ =
        .ok (after, id) ∧
      ∀ {condition}, (empty.handleAll samples).roots.contains condition = true →
        condition < id) ∧
    ∃ config engine report, config.conditions.map ConditionEntry.id = [none, some 5, some 5] ∧
      load config = .ok (engine, report) ∧ report.loaded = [6, 5] ∧
        Numbered config report := by
  constructor
  · cases checked : (empty.handleAll samples).check "[1]=(p,1)" with
    | error error =>
        have passes : ((empty.handleAll samples).check "[1]=(p,1)").isOk = true := by
          decide +kernel
        rw [checked] at passes
        cases passes
    | ok formula =>
        exact (numbering.1 (Reachable.empty.handleAll samples)).above (by decide +kernel) rfl
          checked
  · let config : Config :=
      ⟨[⟨1, none, [("t", .unsigned)]⟩],
        [⟨none, none, "[1]=(t,1)", []⟩, ⟨some 5, none, "[1]=(t,2)", []⟩,
          ⟨some 5, none, "[1]=(t,3)", []⟩]⟩
    have told : (load config).map (fun done => done.2.loaded) = .ok [6, 5] := by
      decide +kernel
    obtain ⟨⟨engine, report⟩, loaded, same⟩ := map_eq_ok.1 told
    exact ⟨config, engine, report, rfl, loaded, same.symm, numbering.2 loaded⟩

/-- Where the largest id is taken nothing can be numbered, and a configuration that gives it may see
it given to another condition before. -/
theorem not_numbered_at_greatest :
    let engine := empty.handleAll
      [.addSensor 1 none [("t", .unsigned)], .register ⟨some greatest, none, "[1]=(t,1)", []⟩]
    let config : Config :=
      ⟨[⟨1, none, [("t", .unsigned)]⟩],
        [⟨none, none, "[1]=(t,1)", []⟩, ⟨some greatest, none, "[1]=(t,2)", []⟩]⟩
    Reachable engine ∧ (engine.check "[1]=(t,2)").isOk = true ∧
      engine.register ⟨none, none, "[1]=(t,2)", []⟩ = .error (.duplicateCondition greatest) ∧
      (load config).map Prod.snd = .ok ⟨1, [greatest],
        [⟨some greatest, none, "[1]=(t,2)", .duplicateCondition greatest⟩]⟩ := by
  intro engine config
  exact ⟨Reachable.empty.handleAll _, by decide +kernel, by decide +kernel, by decide +kernel⟩

end Engine

end Tripwire
