import Tripwire.Proofs.Engine.Confluence
import Tripwire.Proofs.Engine.Dormant
import Tripwire.Proofs.Engine.Latching
import Tripwire.Proofs.Engine.Loading
import Tripwire.Proofs.Engine.Reports
import Tripwire.Proofs.Engine.Standing

/-!
# Engines rebuilt from canonical texts

An engine to which nothing was delivered yet can be written down as a configuration: its sensors, and
for each condition its id and its canonical text. What is loaded from that may have other nodes in
another order, but each condition has a formula that means the same, so that no delivery tells the two
engines apart. Even a sign that the text of a literal loses makes no difference to any comparison.
-/

namespace Tripwire

namespace Predicate

/-- What a test tells once deliveries were made, none having been made before. -/
def toldBy (deliveries : List (SensorId × String × Value)) (predicate : Predicate) : Bool :=
  predicate.latched (Request.valuesAmong predicate.sensor predicate.field deliveries)

theorem toldBy_asWritten (deliveries : List (SensorId × String × Value)) (predicate : Predicate) :
    predicate.asWritten.toldBy deliveries = predicate.toldBy deliveries := by
  unfold toldBy latched statusAfter
  rw [test_asWritten]
  rfl

end Predicate

/-- Two deliveries turn the same conditions. -/
def Outcome.SameTurns (first second : Outcome) : Prop :=
  ∀ condition, (condition ∈ first.fired.map Fired.condition ↔
      condition ∈ second.fired.map Fired.condition) ∧
    (condition ∈ first.cleared ↔ condition ∈ second.cleared)

namespace Engine

variable {engine other : Engine} {log others : List Registration} {config : Config}

/-! ## What deliveries do to an engine without values -/

/-- A condition is satisfied if its formula holds of what its tests tell of the deliveries. -/
theorem Dormant.isSatisfied_updates (dormant : engine.Dormant) (sound : engine.Sound log)
    {registration : Registration} (member : registration ∈ log) {formula : Formula}
    (checked : engine.check registration.entry.expression = .ok formula)
    (deliveries : List (SensorId × String × Value)) :
    (engine.handleAll (Request.updates deliveries)).isSatisfied registration.condition =
      formula.holds (Predicate.toldBy deliveries) := by
  have advances := sound.advances deliveries
  obtain ⟨expr, parsed, tests⟩ := check_eq_ok.1 checked
  have still := check_eq_ok.2 ⟨expr, parsed,
    Formula.ofExpr_of_extends (Sensors.extends_of_type?_eq advances.type) tests⟩
  refine advances.sound.isSatisfied_eq_of_tests (advances.sound.carries member still) ?_
  intro id predicate found
  rw [Graph.predicate?_of_frame_eq advances.frame] at found
  rw [advances.test found, dormant.test found]
  rfl

/-! ## Configurations that restate an engine -/

/-- A configuration declares the sensors of an engine, and for each registered condition in
ascending order it has one with the same id and with the condition's canonical text. -/
structure Restates (engine : Engine) (config : Config) : Prop where
  declarable : SensorEntry.Declarable config.sensors
  sensors : ∀ {id}, id ∈ config.sensors.map SensorEntry.id ↔ engine.sensors.contains id = true
  fields : ∀ entry ∈ config.sensors, ∀ {field type},
    (field, type) ∈ entry.fields ↔ engine.sensors.type? entry.id field = some type
  conditions : List.Forall₂ (fun entry condition =>
    entry.id = some condition ∧ engine.print? condition = some entry.expression)
      config.conditions engine.roots.keys

/-- The sensors and conditions of an engine, without what names them and what they ask for. -/
def restated (engine : Engine) : Config where
  sensors := engine.sensors.entries.map fun sensor =>
    ⟨sensor.1, none, sensor.2.fields.entries.map fun field => (field.1, field.2.type)⟩
  conditions := engine.roots.keys.map fun condition =>
    ⟨some condition, none, (engine.print? condition).getD "", []⟩

theorem restates_restated (engine : Engine) : engine.Restates engine.restated := by
  have keys : engine.restated.sensors.map SensorEntry.id = engine.sensors.keys :=
    List.map_map
  constructor
  case declarable =>
    refine ⟨List.forall_mem_map.2 fun sensor _ => ?_, keys ▸ engine.sensors.keys_nodup⟩
    have names := sensor.2.fields.keys_nodup
    rw [Table.keys] at names
    rw [List.map_map]
    exact names
  case sensors =>
    intro id
    rw [keys, Table.mem_keys]
  case fields =>
    refine List.forall_mem_map.2 fun sensor member {field type} => ?_
    have known := Table.get?_of_mem member
    rw [Sensors.type?, Sensors.field?, known, Option.bind_some, List.mem_map]
    constructor
    · rintro ⟨declared, inside, same⟩
      cases same
      rw [Table.get?_of_mem inside, Option.map_some]
    · intro declared
      obtain ⟨found, there, rfl⟩ := Option.map_eq_some_iff.1 declared
      exact ⟨(field, found), Table.mem_of_get? there, rfl⟩
  case conditions =>
    rw [restated, List.forall₂_map_left_iff, List.forall₂_same]
    intro condition member
    obtain ⟨id, rooted⟩ := contains_iff.1 (Table.mem_keys.1 member)
    refine ⟨rfl, ?_⟩
    rw [print?, rooted, Option.map_some, Option.getD_some]

namespace Restates

theorem contains (restates : engine.Restates config) (id : SensorId) :
    (Sensors.ofEntries config.sensors).contains id = engine.sensors.contains id := by
  rw [Bool.eq_iff_iff, Sensors.contains_ofEntries, restates.sensors]

theorem type (restates : engine.Restates config) :
    (Sensors.ofEntries config.sensors).type? = engine.sensors.type? := by
  funext id field
  cases known : engine.sensors.contains id with
  | false =>
      have unknown := (restates.contains id).trans known
      rw [Sensors.type?, Sensors.type?, Sensors.field?_of_unregistered known,
        Sensors.field?_of_unregistered unknown]
  | true =>
      obtain ⟨entry, member, rfl⟩ := List.mem_map.1 (restates.sensors.2 known)
      refine Option.ext fun type => ?_
      rw [Sensors.type?_ofEntries restates.declarable member]
      exact restates.fields entry member

theorem check_eq (restates : engine.Restates config) (expression : String) :
    (ofSensors (.ofEntries config.sensors)).check expression = engine.check expression := by
  unfold check
  congr 1
  funext expr
  exact Formula.ofExpr_congr restates.contains restates.type expr

theorem ids_eq (restates : engine.Restates config) : config.ids = engine.roots.keys := by
  have named := restates.conditions
  unfold Config.ids
  generalize config.conditions = entries, engine.roots.keys = keys at named ⊢
  induction named with
  | nil => rfl
  | cons here _ ih => rw [List.filterMap_cons_some here.1, ih]

theorem exists_condition (restates : engine.Restates config) {entry : ConditionEntry}
    (member : entry ∈ config.conditions) :
    ∃ condition, engine.roots.contains condition = true ∧ entry.id = some condition ∧
      engine.print? condition = some entry.expression := by
  have named := restates.conditions
  obtain ⟨condition, among, own, text⟩ := exists_of_forall₂ named.flip member
  exact ⟨condition, Table.mem_keys.1 among, own, text⟩

end Restates

/-! ## Loading what restates an engine -/

/-- The canonical text of a registered condition is accepted as what its formula is read as. -/
theorem Sound.exists_check_print (sound : engine.Sound log) {condition : ConditionId}
    (registered : engine.roots.contains condition = true) :
    ∃ registration ∈ log, registration.condition = condition ∧ ∃ formula known : Formula,
      engine.check registration.entry.expression = .ok formula ∧
        known.canonical = formula.canonical ∧ engine.print? condition = some known.print ∧
          engine.check known.print = .ok known.asWritten := by
  obtain ⟨registration, member, rfl⟩ := sound.registered.1 registered
  obtain ⟨formula, carries⟩ := sound.carried registration member
  obtain ⟨_, known, _, _, found, same⟩ := sound.formula?_of_carries carries
  exact ⟨registration, member, rfl, formula, known, carries.checked, same,
    print?_of_formula? found, check_print carries.checked same⟩

/-- Valid conditions that come with different ids are all registered. -/
theorem Tally.verdicts_of_valid (entries : List ConditionEntry)
    (valid : ∀ entry ∈ entries, ∃ id, entry.id = some id ∧ id.toNat < config.base ∧
      ∃ formula, (ofSensors (.ofEntries config.sensors)).check entry.expression = .ok formula)
    (once : (entries.filterMap ConditionEntry.id).Nodup) {engine : Engine}
    {verdicts : List Verdict} (tally : Tally config engine verdicts)
    (free : ∀ id ∈ entries.filterMap ConditionEntry.id, id ∉ Verdict.ids verdicts) :
    Verdict.ids (engine.verdicts entries) = entries.filterMap ConditionEntry.id ∧
      (engine.verdicts entries).filterMap Verdict.rejection? = [] := by
  induction entries generalizing engine verdicts with
  | nil => exact ⟨rfl, rfl⟩
  | cons entry rest ih =>
      obtain ⟨⟨id, own, below, formula, checked⟩, later⟩ := List.forall_mem_cons.1 valid
      rw [List.filterMap_cons_some own, List.nodup_cons] at once
      rw [List.filterMap_cons_some own, List.forall_mem_cons] at free
      have fresh : engine.roots.contains id = false := by
        rw [← Bool.not_eq_true, tally.registered]
        exact free.1
      have named : id = entry.id.getD engine.nextId := by rw [own, Option.getD_some]
      have registered := register_eq_ok.2
        ⟨named, fresh, formula, (tally.check_eq _).trans checked, rfl⟩
      have bounded : ∀ given, entry.id = some given → given.toNat < config.base := by
        intro given same
        rw [own, Option.some.injEq] at same
        exact same ▸ below
      have next := tally.enroll bounded registered
      obtain ⟨ids, none⟩ := ih later once.2 next fun other member => by
        rw [Verdict.ids_register, List.mem_append, List.mem_singleton]
        rintro (taken | rfl)
        · exact free.2 other member taken
        · exact once.1 member
      have told : engine.verdict entry = ⟨entry, .ok id⟩ := by rw [verdict, registered]; rfl
      have step : engine.handle (.register entry) = engine.enroll id entry formula := by
        rw [handle, registered]
        rfl
      rw [Engine.verdicts, told, step, List.filterMap_cons_some own]
      exact ⟨congrArg (id :: ·) ids, none⟩

theorem mem_of_mem_accepted {entries : List ConditionEntry} {registration : Registration}
    (member : registration ∈ engine.accepted entries) : registration.entry ∈ entries := by
  induction entries generalizing engine with
  | nil => cases member
  | cons entry rest ih =>
      rw [accepted] at member
      cases registered : engine.register entry with
      | error error =>
          rw [registered] at member
          exact .tail _ (ih member)
      | ok result =>
          rw [registered] at member
          rcases List.mem_cons.1 member with rfl | later
          · exact List.mem_cons_self
          · exact .tail _ (ih later)

/-- What is loaded from a configuration that restates an engine: all its conditions, with the
canonical texts for expressions. -/
structure Restated (engine : Engine) (other : Engine) (others : List Registration) : Prop where
  sound : other.Sound others
  dormant : other.Dormant
  contains : ∀ id, other.sensors.contains id = engine.sensors.contains id
  check : ∀ expression, other.check expression = engine.check expression
  registered : ∀ condition, other.roots.contains condition = engine.roots.contains condition
  text : ∀ registration ∈ others,
    engine.print? registration.condition = some registration.entry.expression

theorem Restates.load (restates : engine.Restates config) (sound : engine.Sound log) :
    ∃ other report, load config = .ok (other, report) ∧ report.rejected = [] ∧
      report.loaded = engine.roots.keys ∧ Restated engine other (configured config) := by
  have declarable := restates.declarable
  have loaded := load_eq_ok_iff.2 ⟨declarable, rfl, rfl⟩
  have once : config.ids.Nodup := restates.ids_eq ▸ engine.roots.keys_nodup
  have valid : ∀ entry ∈ config.conditions, ∃ id, entry.id = some id ∧ id.toNat < config.base ∧
      ∃ formula, (ofSensors (.ofEntries config.sensors)).check entry.expression = .ok formula := by
    intro entry member
    obtain ⟨condition, registered, own, text⟩ := restates.exists_condition member
    obtain ⟨_, _, _, _, known, _, _, told, checked⟩ := sound.exists_check_print registered
    rw [text, Option.some.injEq] at told
    exact ⟨condition, own, Config.lt_base member own, known.asWritten,
      by rw [restates.check_eq, told, checked]⟩
  obtain ⟨ids, none⟩ := (tally_start declarable).verdicts_of_valid config.conditions valid once
    fun _ _ => List.not_mem_nil
  have tally := (tally_start declarable).registerAll config.conditions
    fun _ member _ own => Config.lt_base member own
  have keys : Verdict.ids ((start config).verdicts config.conditions) = engine.roots.keys :=
    ids.trans restates.ids_eq
  refine ⟨_, _, loaded, none, keys, ?_⟩
  constructor
  case sound => exact sound_of_load loaded
  case dormant => exact dormant_of_load loaded
  case contains => exact fun id => (tally.contains id).trans (restates.contains id)
  case check => exact fun text => (tally.check_eq text).trans (restates.check_eq text)
  case registered =>
    intro condition
    rw [Bool.eq_iff_iff, tally.registered, ← Table.mem_keys, List.nil_append, keys]
  case text =>
    intro registration member
    rw [configured, foldlM_addEntry.2 ⟨declarable, rfl⟩] at member
    obtain ⟨condition, _, own, text⟩ := restates.exists_condition (mem_of_mem_accepted member)
    obtain ⟨_, _, named⟩ := exists_nextId_of_mem_accepted member
    rw [named, own, Option.getD_some, text]

/-! ## What deliveries tell apart -/

/-- No deliveries in turn tell two engines apart: afterwards the same conditions are satisfied, and
one more is accepted by both or neither and turns the same conditions. -/
structure Indistinct (engine other : Engine) : Prop where
  satisfied : ∀ deliveries, (engine.handleAll (Request.updates deliveries)).satisfied =
    (other.handleAll (Request.updates deliveries)).satisfied
  reports : ∀ deliveries sensor field value, List.Forall₂ Outcome.SameTurns
    ((engine.handleAll (Request.updates deliveries)).reports (.update sensor field value))
    ((other.handleAll (Request.updates deliveries)).reports (.update sensor field value))

theorem handleAll_updates_concat (engine : Engine)
    (deliveries : List (SensorId × String × Value)) (sensor : SensorId) (field : String)
    (value : Value) :
    engine.handleAll (Request.updates (deliveries ++ [(sensor, field, value)])) =
      ((engine.handleAll (Request.updates deliveries)).deliver sensor field value).engine := by
  rw [Request.updates, List.map_append, handleAll, List.foldl_append]
  exact handle_update _ sensor field value

theorem Sound.contains_updates (sound : engine.Sound log)
    (deliveries : List (SensorId × String × Value)) (id : SensorId) :
    (engine.handleAll (Request.updates deliveries)).sensors.contains id =
      engine.sensors.contains id := by
  rw [Sensors.contains_eq_isSome_name?, (sound.advances deliveries).name,
    Sensors.contains_eq_isSome_name?]

theorem Sound.isSatisfied_updates_of_unknown (sound : engine.Sound log)
    {condition : ConditionId} (unknown : engine.roots.contains condition = false)
    (deliveries : List (SensorId × String × Value)) :
    (engine.handleAll (Request.updates deliveries)).isSatisfied condition = false := by
  have advances := sound.advances deliveries
  refine advances.sound.isSatisfied_of_unknown ?_
  rw [advances.roots, unknown]

namespace Restated

variable (restated : Restated engine other others) (sound : engine.Sound log)
  (dormant : engine.Dormant) (deliveries : List (SensorId × String × Value))

include restated sound dormant

/-- A condition and the one of its text have formulas that mean the same. -/
theorem isSatisfied_eq (condition : ConditionId) :
    (engine.handleAll (Request.updates deliveries)).isSatisfied condition =
      (other.handleAll (Request.updates deliveries)).isSatisfied condition := by
  cases known : engine.roots.contains condition with
  | false =>
      have unknown := (restated.registered condition).trans known
      rw [sound.isSatisfied_updates_of_unknown known,
        restated.sound.isSatisfied_updates_of_unknown unknown]
  | true =>
      obtain ⟨registration, member, rfl, formula, written, checked, same, text, reads⟩ :=
        sound.exists_check_print known
      obtain ⟨twin, among, named⟩ :=
        restated.sound.registered.1 ((restated.registered _).trans known)
      have told := restated.text twin among
      rw [named, text, Option.some.injEq] at told
      have alsoChecked : other.check twin.entry.expression = .ok written.asWritten := by
        rw [restated.check, ← told, reads]
      calc (engine.handleAll (Request.updates deliveries)).isSatisfied registration.condition
          = formula.holds (Predicate.toldBy deliveries) :=
            dormant.isSatisfied_updates sound member checked deliveries
        _ = written.holds (Predicate.toldBy deliveries) :=
            (Formula.holds_eq_of_canonical_eq _ same).symm
        _ = written.asWritten.holds (Predicate.toldBy deliveries) :=
            (written.holds_asWritten (Predicate.toldBy_asWritten deliveries)).symm
        _ = (other.handleAll (Request.updates deliveries)).isSatisfied twin.condition :=
            (restated.dormant.isSatisfied_updates restated.sound among alsoChecked
              deliveries).symm
        _ = (other.handleAll (Request.updates deliveries)).isSatisfied registration.condition := by
            rw [named]

theorem sameTurns (sensor : SensorId) (field : String) (value : Value) : Outcome.SameTurns
    ((engine.handleAll (Request.updates deliveries)).deliver sensor field value).outcome
    ((other.handleAll (Request.updates deliveries)).deliver sensor field value).outcome := by
  intro condition
  have reports := ((sound.advances deliveries).sound.deliver sensor field value).2
  have also := ((restated.sound.advances deliveries).sound.deliver sensor field value).2
  have before := restated.isSatisfied_eq sound dormant deliveries condition
  have after := restated.isSatisfied_eq sound dormant (deliveries ++ [(sensor, field, value)])
    condition
  rw [handleAll_updates_concat, handleAll_updates_concat] at after
  rw [reports.fired, also.fired, reports.cleared, also.cleared, before, after]
  exact ⟨Iff.rfl, Iff.rfl⟩

theorem indistinct : engine.Indistinct other where
  satisfied deliveries :=
    Table.ext_contains (restated.isSatisfied_eq sound dormant deliveries)
  reports deliveries sensor field value := by
    have delivers := Request.delivers_update sensor field value
    rw [delivers.reports, delivers.reports, sound.contains_updates,
      restated.sound.contains_updates, restated.contains]
    split
    case isTrue => exact .cons (restated.sameTurns sound dormant deliveries _ _ _) .nil
    case isFalse => exact .nil

end Restated

/-- What restates an engine is loaded in full, and no delivery tells the two engines apart. -/
structure Rebuilds (engine : Engine) : Prop where
  exists_config : ∃ config, engine.Restates config
  loads : ∀ {config}, engine.Restates config → ∃ other report,
    load config = .ok (other, report) ∧ report.rejected = [] ∧
      report.loaded = engine.roots.keys ∧ engine.Indistinct other

/-- An engine is rebuilt from its canonical texts if nothing was delivered to it yet. -/
theorem rebuilds_of_quiet {requests : List Request}
    (quiet : ∀ request ∈ requests, request.deliveries = []) :
    Rebuilds (empty.handleAll requests) := by
  have sound : Sound (empty.handleAll requests) (empty.registrations requests) :=
    (recorded_handleAll requests).sound
  have dormant := dormant_empty.handleAll requests quiet sound_empty
  constructor
  case exists_config => exact ⟨_, restates_restated _⟩
  case loads =>
    intro config restates
    obtain ⟨other, report, loaded, rejected, ids, restated⟩ := restates.load sound
    exact ⟨other, report, loaded, rejected, ids, restated.indistinct sound dormant⟩

/-- Literals that are no number, with a sign and without: the texts lose the sign, and with it the
second condition loses a test and a group of its own. -/
theorem rebuilds_of_signs :
    let requests : List Request :=
      [.addSensor 1 none [("x", .double), ("t", .unsigned)],
        .register ⟨some 4, some "a", "[1]|(=(x,-nan),&(>(t,5),!=(x,nan)))", []⟩,
        .register ⟨none, none, "[1]&(!=(x,-nan),>(t,05))", []⟩]
    let engine := empty.handleAll requests
    (∀ request ∈ requests, request.deliveries = []) ∧
      engine.restated.conditions.map ConditionEntry.expression =
        ["|([1]=(x,NaN),&([1]>(t,5),[1]!=(x,NaN)))", "&([1]!=(x,NaN),[1]>(t,5))"] ∧
      engine.graph.size = 9 ∧
      (load engine.restated).map (fun done => done.1.graph.size) = .ok 7 ∧ Rebuilds engine := by
  intro requests engine
  have quiet : ∀ request ∈ requests, request.deliveries = [] := by decide
  exact ⟨quiet, by decide +kernel, by decide +kernel, by decide +kernel, rebuilds_of_quiet quiet⟩

end Engine

end Tripwire
