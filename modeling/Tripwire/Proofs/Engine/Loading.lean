import Tripwire.Proofs.Engine.Declarations
import Tripwire.Proofs.Engine.Numbering

/-!
# What a configuration loads

The conditions of a configuration are judged in turn. Each is registered or rejected, and unless its
id is taken by then it is judged as it would be alone. What is rejected uses up no number: conditions
without an id are numbered without a gap from above the ids that the configuration gives.
-/

namespace Tripwire

theorem ConditionId.toNat_max (first second : ConditionId) :
    (max first second).toNat = max first.toNat second.toNat := by
  change (if first ≤ second then second else first).toNat = _
  split
  case isTrue le => exact (Nat.max_eq_right (UInt32.le_iff_toNat_le.1 le)).symm
  case isFalse above =>
    have le := UInt32.le_of_lt (UInt32.not_le.1 above)
    exact (Nat.max_eq_left (UInt32.le_iff_toNat_le.1 le)).symm

namespace Config

open ConditionId

variable {config : Config}

/-- The ids that conditions come with. -/
def ids (config : Config) : List ConditionId :=
  config.conditions.filterMap ConditionEntry.id

/-- How many conditions come without an id. -/
def unnumbered (config : Config) : Nat :=
  config.conditions.countP fun entry => entry.id.isNone

/-- The number of the first condition that comes without an id. -/
def base (config : Config) : Nat :=
  match config.ids.max? with
  | some largest => largest.toNat + 1
  | none => 0

/-- Above the ids that conditions come with there is one for each of the others. -/
def HasRoom (config : Config) : Prop :=
  (config.ids.max?.map UInt32.toNat).getD 0 + config.unnumbered < UInt32.size

instance (config : Config) : Decidable config.HasRoom :=
  inferInstanceAs (Decidable (_ < _))

theorem toNat_firstFreeId (config : Config) :
    config.firstFreeId.toNat = min config.base greatest.toNat := by
  unfold firstFreeId base ids
  cases (config.conditions.filterMap ConditionEntry.id).max? with
  | none => rfl
  | some largest => exact toNat_next largest

theorem lt_base {entry : ConditionEntry} (member : entry ∈ config.conditions) {id : ConditionId}
    (given : entry.id = some id) : id.toNat < config.base := by
  have among : id ∈ config.ids := List.mem_filterMap.2 ⟨entry, member, given⟩
  unfold base
  cases found : config.ids.max? with
  | none =>
      rw [List.max?_eq_none_iff.1 found] at among
      cases among
  | some largest =>
      have le := (List.max?_le_iff found).1 (Std.le_refl largest) id among
      exact Nat.lt_succ_of_le (UInt32.le_iff_toNat_le.1 le)

theorem HasRoom.base_add_lt (room : config.HasRoom) {count : Nat} (few : count < config.unnumbered) :
    config.base + count < UInt32.size := by
  unfold HasRoom at room
  unfold base
  cases found : config.ids.max? with
  | none =>
      rw [found, Option.map_none, Option.getD_none] at room
      dsimp only
      omega
  | some largest =>
      rw [found, Option.map_some, Option.getD_some] at room
      dsimp only
      omega

end Config

/-! ## Verdicts -/

/-- A condition with the id under which it was registered or the error with which it was
rejected. -/
structure Verdict where
  entry : ConditionEntry
  result : Except Error ConditionId

namespace Verdict

/-- The id of a condition that was registered. -/
def id? (verdict : Verdict) : Option ConditionId :=
  match verdict.result with
  | .ok id => some id
  | .error _ => none

/-- What is reported of a condition that was rejected. -/
def rejection? (verdict : Verdict) : Option Rejection :=
  match verdict.result with
  | .ok _ => none
  | .error error =>
      some ⟨verdict.entry.id, verdict.entry.name, verdict.entry.expression, error⟩

/-- The condition was registered under an id that it did not come with. -/
def isNumbered (verdict : Verdict) : Bool :=
  verdict.entry.id.isNone && verdict.id?.isSome

/-- The ids under which conditions were registered, in their order. -/
def ids (verdicts : List Verdict) : List ConditionId :=
  verdicts.filterMap id?

/-- How many ids were given out to conditions that came without one. -/
def numbered (verdicts : List Verdict) : Nat :=
  verdicts.countP isNumbered

variable (verdicts : List Verdict) (entry : ConditionEntry)

theorem ids_reject (error : Error) : ids (verdicts ++ [⟨entry, .error error⟩]) = ids verdicts := by
  rw [ids, List.filterMap_append]
  exact List.append_nil _

theorem ids_register (id : ConditionId) :
    ids (verdicts ++ [⟨entry, .ok id⟩]) = ids verdicts ++ [id] :=
  List.filterMap_append

theorem numbered_reject (error : Error) :
    numbered (verdicts ++ [⟨entry, .error error⟩]) = numbered verdicts := by
  rw [numbered, List.countP_append, List.countP_singleton, isNumbered, id?, Option.isSome_none,
    Bool.and_false]
  rfl

theorem numbered_register (id : ConditionId) :
    numbered (verdicts ++ [⟨entry, .ok id⟩]) =
      numbered verdicts + if entry.id.isNone then 1 else 0 := by
  rw [numbered, List.countP_append, List.countP_singleton, isNumbered, id?, Option.isSome_some,
    Bool.and_true]
  rfl

end Verdict

namespace Engine

open ConditionId

variable {engine : Engine} {entries : List ConditionEntry}

/-- What becomes of a condition. -/
def verdict (engine : Engine) (entry : ConditionEntry) : Verdict :=
  ⟨entry, (engine.register entry).map Prod.snd⟩

/-- What becomes of conditions in turn. -/
def verdicts (engine : Engine) : List ConditionEntry → List Verdict
  | [] => []
  | entry :: rest => engine.verdict entry :: (engine.handle (.register entry)).verdicts rest

/-- Registering conditions in turn is requesting each, and its report are the verdicts. -/
theorem registerAll_eq (engine : Engine) (entries : List ConditionEntry) :
    engine.registerAll entries =
      (engine.handleAll (entries.map .register),
        Verdict.ids (engine.verdicts entries),
        (engine.verdicts entries).filterMap Verdict.rejection?) := by
  induction entries generalizing engine with
  | nil => rfl
  | cons entry rest ih =>
      rw [registerAll, verdicts, verdict, List.map_cons, handleAll, List.foldl_cons, ← handleAll,
        handle]
      cases engine.register entry with
      | error error => simp only [ih engine]; rfl
      | ok result => simp only [ih result.1]; rfl

theorem map_entry_verdicts (engine : Engine) (entries : List ConditionEntry) :
    (engine.verdicts entries).map Verdict.entry = entries := by
  induction entries generalizing engine with
  | nil => rfl
  | cons entry rest ih => exact congrArg _ (ih _)

/-- A verdict is that of the engine which the conditions before leave. -/
theorem exists_verdict_of_split {before after : List Verdict} {verdict : Verdict}
    (split : engine.verdicts entries = before ++ verdict :: after) :
    ∃ earlier entry later, entries = earlier ++ entry :: later ∧
      before = engine.verdicts earlier ∧
        verdict = (engine.handleAll (earlier.map .register)).verdict entry := by
  induction before generalizing engine entries with
  | nil =>
      cases entries with
      | nil => cases split
      | cons entry rest =>
          cases split
          exact ⟨[], entry, rest, rfl, rfl, rfl⟩
  | cons first before ih =>
      cases entries with
      | nil => cases split
      | cons entry rest =>
          obtain ⟨rfl, remaining⟩ := List.cons.inj split
          obtain ⟨earlier, item, later, rfl, rfl, rfl⟩ := ih remaining
          exact ⟨entry :: earlier, item, later, rfl, rfl, rfl⟩

theorem numbered_verdicts_le (engine : Engine) (entries : List ConditionEntry) :
    Verdict.numbered (engine.verdicts entries) ≤ entries.countP fun entry => entry.id.isNone :=
  calc (engine.verdicts entries).countP Verdict.isNumbered
      ≤ (engine.verdicts entries).countP fun verdict => verdict.entry.id.isNone :=
        List.countP_mono_left fun verdict _ numbered => (Bool.and_eq_true_iff.1 numbered).1
    _ = ((engine.verdicts entries).map Verdict.entry).countP fun entry => entry.id.isNone :=
        by rw [List.countP_map]; rfl
    _ = entries.countP fun entry => entry.id.isNone := by rw [map_entry_verdicts]

/-! ## What every condition keeps -/

/-- How an engine stands after the verdicts of a configuration so far: its fields are those that were
declared, it has the conditions that were registered, and the next id comes after all of them and
as many numbers above the given ids as were used up. -/
structure Tally (config : Config) (engine : Engine) (verdicts : List Verdict) : Prop where
  sound : ∃ log, engine.Sound log
  contains : ∀ id, engine.sensors.contains id = (Sensors.ofEntries config.sensors).contains id
  type : engine.sensors.type? = (Sensors.ofEntries config.sensors).type?
  registered : ∀ {id}, engine.roots.contains id = true ↔ id ∈ Verdict.ids verdicts
  once : (Verdict.ids verdicts).Nodup
  next : engine.nextId.toNat = min (config.base + Verdict.numbered verdicts) greatest.toNat
  below : ∀ id ∈ Verdict.ids verdicts, id.toNat < config.base + Verdict.numbered verdicts

namespace Tally

variable {config : Config} {verdicts : List Verdict}

theorem check_eq (tally : Tally config engine verdicts) (expression : String) :
    engine.check expression = (ofSensors (.ofEntries config.sensors)).check expression := by
  unfold check
  congr 1
  funext expr
  exact Formula.ofExpr_congr tally.contains tally.type expr

/-- The condition without an id that comes next gets the next number, unless ids run out. -/
theorem toNat_nextId (tally : Tally config engine verdicts)
    (room : config.base + Verdict.numbered verdicts < UInt32.size) :
    engine.nextId.toNat = config.base + Verdict.numbered verdicts := by
  have top : greatest.toNat = UInt32.size - 1 := rfl
  rw [tally.next]
  omega

theorem reject (tally : Tally config engine verdicts) (entry : ConditionEntry) (error : Error) :
    Tally config engine (verdicts ++ [⟨entry, .error error⟩]) where
  sound := tally.sound
  contains := tally.contains
  type := tally.type
  registered := by
    intro id
    rw [Verdict.ids_reject]
    exact tally.registered
  once := by simpa only [Verdict.ids_reject] using tally.once
  next := by simpa only [Verdict.numbered_reject] using tally.next
  below := by simpa only [Verdict.ids_reject, Verdict.numbered_reject] using tally.below

theorem enroll (tally : Tally config engine verdicts) {entry : ConditionEntry}
    (given : ∀ id, entry.id = some id → id.toNat < config.base) {extended : Engine}
    {id : ConditionId} (registered : engine.register entry = .ok (extended, id)) :
    Tally config extended (verdicts ++ [⟨entry, .ok id⟩]) := by
  obtain ⟨log, sound⟩ := tally.sound
  have next := tally.next
  have after := sound.register registered
  obtain ⟨named, fresh, formula, checked, rfl⟩ := register_eq_ok.1 registered
  obtain ⟨child, top, enrolled⟩ := enrolled sound checked
  have unused : id ∉ Verdict.ids verdicts := by
    rw [← tally.registered, fresh]
    exact Bool.false_ne_true
  -- an id that the condition came with is below all numbers, any other is the next number
  have used : Verdict.numbered (verdicts ++ [⟨entry, .ok id⟩]) = Verdict.numbered verdicts + 1 ∧
      id = engine.nextId ∨ Verdict.numbered (verdicts ++ [⟨entry, .ok id⟩]) =
        Verdict.numbered verdicts ∧ id.toNat < config.base := by
    rw [Verdict.numbered_register]
    cases own : entry.id with
    | none => exact .inl ⟨rfl, by rw [named, own, Option.getD_none]⟩
    | some condition =>
        refine .inr ⟨rfl, ?_⟩
        rw [named, own, Option.getD_some]
        exact given condition own
  constructor
  case sound => exact ⟨_, after⟩
  case contains =>
    intro other
    exact (Network.contains_wire formula engine.toNetwork other).trans (tally.contains other)
  case type => exact enrolled.type.trans tally.type
  case registered =>
    intro other
    rw [Verdict.ids_register, List.mem_append, List.mem_singleton, ← tally.registered, or_comm]
    exact (Table.contains_insert ..).trans (or_congr_left eq_comm)
  case once =>
    rw [Verdict.ids_register, (List.perm_append_singleton _ _).nodup_iff]
    exact List.nodup_cons.2 ⟨unused, tally.once⟩
  case next =>
    change (max engine.nextId (ConditionId.next id)).toNat = _
    rw [toNat_max, toNat_next]
    rcases used with ⟨count, rfl⟩ | ⟨count, under⟩ <;> omega
  case below =>
    rw [Verdict.ids_register, List.forall_mem_append, List.forall_mem_singleton]
    constructor
    · intro other member
      have earlier := tally.below other member
      omega
    · rcases used with ⟨count, rfl⟩ | ⟨count, under⟩ <;> omega

/-- Every condition leaves the engine as its verdict tells. -/
theorem register (tally : Tally config engine verdicts) {entry : ConditionEntry}
    (given : ∀ id, entry.id = some id → id.toNat < config.base) :
    Tally config (engine.handle (.register entry)) (verdicts ++ [engine.verdict entry]) := by
  rw [handle, verdict]
  cases registered : engine.register entry with
  | error error => exact tally.reject entry error
  | ok result => exact tally.enroll given registered

theorem registerAll (entries : List ConditionEntry)
    (given : ∀ entry ∈ entries, ∀ id, entry.id = some id → id.toNat < config.base)
    {engine : Engine} {verdicts : List Verdict} (tally : Tally config engine verdicts) :
    Tally config (engine.handleAll (entries.map .register))
      (verdicts ++ engine.verdicts entries) := by
  induction entries generalizing engine verdicts with
  | nil =>
      rw [Engine.verdicts, List.append_nil]
      exact tally
  | cons entry rest ih =>
      obtain ⟨here, others⟩ := List.forall_mem_cons.1 given
      have done := ih others (tally.register here)
      rw [List.append_assoc] at done
      exact done

end Tally

/-! ## Loading -/

/-- The engine of a configuration before its conditions are registered. -/
def start (config : Config) : Engine :=
  { ofSensors (.ofEntries config.sensors) with nextId := config.firstFreeId }

theorem load_eq_error {error : Error} {config : Config} :
    load config = .error error ↔ config.sensors.foldlM addEntry empty = .error error := by
  unfold load
  rw [bind_eq_error]
  constructor
  · rintro (failed | ⟨declared, _, ⟨⟩⟩)
    exact failed
  · exact .inl

theorem load_eq_ok_iff {config : Config} {engine : Engine} {report : Report} :
    load config = .ok (engine, report) ↔ SensorEntry.Declarable config.sensors ∧
      engine = (start config).handleAll (config.conditions.map .register) ∧
      report = ⟨config.sensors.length, Verdict.ids ((start config).verdicts config.conditions),
        ((start config).verdicts config.conditions).filterMap Verdict.rejection?⟩ := by
  unfold load
  rw [bind_eq_ok]
  simp only [foldlM_addEntry, registerAll_eq]
  constructor
  · rintro ⟨_, ⟨declarable, rfl⟩, done⟩
    cases done
    exact ⟨declarable, rfl, rfl⟩
  · rintro ⟨declarable, rfl, rfl⟩
    exact ⟨_, ⟨declarable, rfl⟩, rfl⟩

theorem tally_start {config : Config} (declarable : SensorEntry.Declarable config.sensors) :
    Tally config (start config) [] where
  sound :=
    ⟨[], (sound_of_declared (foldlM_addEntry.2 ⟨declarable, rfl⟩)).numbered config.firstFreeId⟩
  contains _ := rfl
  type := rfl
  registered := by
    intro id
    exact ⟨nofun, nofun⟩
  once := .nil
  next := config.toNat_firstFreeId
  below := nofun

/-- The verdicts on the conditions of a configuration. Each condition has one, in the order of the
configuration, and the report tells them all. -/
structure Judged (config : Config) (engine : Engine) (report : Report)
    (verdicts : List Verdict) : Prop where
  entries : verdicts.map Verdict.entry = config.conditions
  sensors : report.sensors = config.sensors.length
  loaded : report.loaded = verdicts.filterMap Verdict.id?
  rejected : report.rejected = verdicts.filterMap Verdict.rejection?
  own : ∀ verdict ∈ verdicts, ∀ {id given}, verdict.result = .ok id →
    verdict.entry.id = some given → id = given
  duplicate : ∀ {before verdict after}, verdicts = before ++ verdict :: after →
    ∀ {given}, verdict.entry.id = some given → ∀ {id},
      verdict.result = .error (.duplicateCondition id) ↔
        id = given ∧ given ∈ before.filterMap Verdict.id?
  refused : ∀ {before verdict after}, verdicts = before ++ verdict :: after →
    (∀ given, verdict.entry.id = some given → given ∉ before.filterMap Verdict.id?) →
      ∀ {error}, verdict.result = .error error ↔
        (ofSensors (.ofEntries config.sensors)).check verdict.entry.expression = .error error
  numbered : ∀ {before verdict after}, verdicts = before ++ verdict :: after →
    verdict.entry.id = none → ∀ {id}, verdict.result = .ok id →
      id.toNat = config.base + before.countP Verdict.isNumbered
  registered : ∀ {id}, engine.roots.contains id = true ↔ id ∈ report.loaded
  once : report.loaded.Nodup

/-- What comes of a configuration: the error of its first faulty sensor, or else an engine with the
conditions that were not rejected. -/
structure Loads (config : Config) : Prop where
  fails : (∃ error, load config = .error error) ↔
    ∃ before entry after, config.sensors = before ++ entry :: after ∧
      (¬(entry.fields.map Prod.fst).Nodup ∨ entry.id ∈ before.map SensorEntry.id)
  first : ∀ {error}, load config = .error error ↔
    ∃ before entry after, config.sensors = before ++ entry :: after ∧
      SensorEntry.Declarable before ∧ entry.Fault before error
  judged : ∀ {engine report}, load config = .ok (engine, report) →
    ∃ verdicts, Judged config engine report verdicts

section

variable {config : Config} {verdicts : List Verdict} {entry : ConditionEntry}

theorem verdict_eq_ok {id : ConditionId} (done : (engine.verdict entry).result = .ok id) :
    id = entry.id.getD engine.nextId := by
  obtain ⟨⟨extended, condition⟩, registered, same⟩ := map_eq_ok.1 done
  obtain ⟨named, _⟩ := register_eq_ok.1 registered
  exact same.trans named

theorem Tally.verdict_eq_duplicate (tally : Tally config engine verdicts) {given id : ConditionId}
    (own : entry.id = some given) :
    (engine.verdict entry).result = .error (.duplicateCondition id) ↔
      id = given ∧ given ∈ verdicts.filterMap Verdict.id? := by
  rw [verdict, map_eq_error, register_eq_duplicate, own, Option.getD_some]
  refine and_congr_right fun same => ?_
  rw [same, tally.registered]
  rfl

/-- A condition whose id is free is judged by its text. -/
theorem Tally.verdict_eq_error (tally : Tally config engine verdicts)
    (fresh : engine.roots.contains (entry.id.getD engine.nextId) = false) {error : Error} :
    (engine.verdict entry).result = .error error ↔
      (ofSensors (.ofEntries config.sensors)).check entry.expression = .error error := by
  rw [verdict, map_eq_error, register_of_fresh fresh, map_eq_error, tally.check_eq]

theorem Tally.fresh (tally : Tally config engine verdicts)
    (room : entry.id = none → config.base + Verdict.numbered verdicts < UInt32.size)
    (free : ∀ given, entry.id = some given → given ∉ verdicts.filterMap Verdict.id?) :
    engine.roots.contains (entry.id.getD engine.nextId) = false := by
  rw [← Bool.not_eq_true, tally.registered]
  cases own : entry.id with
  | none =>
      intro taken
      have under := tally.below _ taken
      rw [Option.getD_none, tally.toNat_nextId (room own)] at under
      exact Nat.lt_irrefl _ under
  | some given => exact free given own

end

/-- A configuration with room for the ids that it does not give is loaded so. -/
theorem loads_of_hasRoom {config : Config} (room : config.HasRoom) : Loads config := by
  constructor
  case fails =>
    simp only [load_eq_error]
    exact exists_foldlM_addEntry_eq_error
  case first =>
    intro error
    rw [load_eq_error]
    exact foldlM_addEntry_eq_error
  case judged =>
    intro engine report loaded
    obtain ⟨declarable, rfl, rfl⟩ := load_eq_ok_iff.1 loaded
    have given : ∀ entry ∈ config.conditions, ∀ id, entry.id = some id →
        id.toNat < config.base := fun _ member _ own => Config.lt_base member own
    -- the conditions before any one have left an engine with their tally
    have reached : ∀ {before verdict after},
        (start config).verdicts config.conditions = before ++ verdict :: after →
          ∃ engine entry, Tally config engine before ∧ verdict = engine.verdict entry ∧
            (entry.id = none → config.base + Verdict.numbered before < UInt32.size) := by
      intro before verdict after split
      obtain ⟨earlier, entry, later, whole, rfl, rfl⟩ := exists_verdict_of_split split
      have tally := (tally_start declarable).registerAll earlier fun entry member =>
        given entry (whole ▸ List.mem_append_left _ member)
      refine ⟨_, entry, tally, rfl, fun unnamed => room.base_add_lt ?_⟩
      have few := numbered_verdicts_le (start config) earlier
      rw [Config.unnumbered, whole, List.countP_append, List.countP_cons, unnamed]
      simp only [Option.isNone_none, if_true]
      omega
    have done := (tally_start declarable).registerAll config.conditions given
    refine ⟨(start config).verdicts config.conditions, ?_⟩
    constructor
    case entries => exact map_entry_verdicts _ _
    case sensors => rfl
    case loaded => rfl
    case rejected => rfl
    case own =>
      intro verdict member id condition result named
      obtain ⟨before, after, split⟩ := List.append_of_mem member
      obtain ⟨engine, entry, _, rfl, _⟩ := reached split
      rw [verdict_eq_ok result]
      rw [show entry.id = some condition from named, Option.getD_some]
    case duplicate =>
      intro before verdict after split condition named id
      obtain ⟨engine, entry, tally, rfl, _⟩ := reached split
      exact tally.verdict_eq_duplicate named
    case refused =>
      intro before verdict after split free error
      obtain ⟨engine, entry, tally, rfl, room⟩ := reached split
      exact tally.verdict_eq_error (tally.fresh room free)
    case numbered =>
      intro before verdict after split unnamed id result
      obtain ⟨engine, entry, tally, rfl, room⟩ := reached split
      rw [verdict_eq_ok result, show entry.id = none from unnamed, Option.getD_none]
      exact tally.toNat_nextId (room unnamed)
    case registered => exact done.registered
    case once => exact done.once

/-- The text of seven is rejected, but numbers start above it, and the text without an id that is
rejected leaves no gap. -/
theorem loads_samples :
    let config : Config :=
      ⟨[⟨1, none, [("t", .unsigned)]⟩],
        [⟨none, none, "[1]=(t,1)", []⟩, ⟨some 5, none, "[1]=(t,2)", []⟩,
          ⟨none, some "cold", "[1]=(p,1)", []⟩, ⟨some 7, none, "[1]=(t", []⟩,
          ⟨some 5, none, "[1]=(", []⟩, ⟨none, none, "[1]=(t,3)", []⟩]⟩
    config.HasRoom ∧
      (load config).map Prod.snd = .ok ⟨1, [8, 5, 9],
        [⟨none, some "cold", "[1]=(p,1)", .unknownField 1 "p"⟩,
          ⟨some 7, none, "[1]=(t", .malformed 6 (.expected .comma .finish)⟩,
          ⟨some 5, none, "[1]=(", .duplicateCondition 5⟩]⟩ ∧
      Loads config := by
  intro config
  exact ⟨by decide, by decide +kernel, loads_of_hasRoom (by decide)⟩

end Engine

end Tripwire
