import Tripwire.Proofs.Engine.Latching
import Tripwire.Proofs.Engine.Reports
import Tripwire.Proofs.Engine.Standing

/-!
# What conditions see of each other

A test keeps what it told before a value on which it is silent, while a new test starts from the
latest value and does not hold if it is silent on that. So a condition can be seen by another in one
way: it brought in a test that holds from an earlier value, and the other is registered while the
test is silent on the latest and comes to share it. A condition from which no other inherits such
a test can be left out of a run, and nothing tells it of the others.
-/

namespace Tripwire

/-- Outcomes that differ in one condition at most. -/
def Outcome.Alike (apart : ConditionId) (first second : Outcome) : Prop :=
  ∀ condition, condition ≠ apart →
    (condition ∈ first.fired.map Fired.condition ↔
        condition ∈ second.fired.map Fired.condition) ∧
      (condition ∈ first.cleared ↔ condition ∈ second.cleared)

namespace Request

/-- Whether a request asks to register a condition under an id. -/
def isFor (condition : ConditionId) : Request → Bool
  | .register entry => entry.id == some condition
  | _ => false

/-- Every condition that a request asks to register has an id. -/
def Names (request : Request) : Prop :=
  ∀ entry ∈ request.conditions, entry.id.isSome = true

instance (request : Request) : Decidable request.Names :=
  inferInstanceAs (Decidable (∀ entry ∈ request.conditions, entry.id.isSome = true))

/-- The requests that do not ask to register under an id. -/
def without (condition : ConditionId) (requests : List Request) : List Request :=
  requests.filter fun request => !request.isFor condition

end Request

namespace Engine

variable {engine other third : Engine} {log others : List Registration} {apart : ConditionId}

/-! ## Inherited tests -/

/-- The tests of a text, if it is a condition. -/
def testsOf (engine : Engine) (expression : String) : List Predicate :=
  match engine.check expression with
  | .ok formula => formula.predicates
  | .error _ => []

/-- A test holds from an earlier value and is silent on the latest. -/
def isStale (engine : Engine) (predicate : Predicate) : Bool :=
  engine.standing predicate &&
    ((engine.sensors.value? predicate.sensor predicate.field).bind predicate.test).isNone

/-- A condition that is to be registered has a stale test that of those on record only one other
has. -/
def Inherits (engine : Engine) (log : List Registration) (apart : ConditionId)
    (entry : ConditionEntry) : Prop :=
  ∃ predicate ∈ engine.testsOf entry.expression, engine.isStale predicate = true ∧
    ∀ registration ∈ log, registration.condition ≠ apart →
      predicate ∉ engine.testsOf registration.entry.expression

instance (engine : Engine) (log : List Registration) (apart : ConditionId)
    (entry : ConditionEntry) : Decidable (engine.Inherits log apart entry) :=
  inferInstanceAs (Decidable (∃ predicate ∈ engine.testsOf entry.expression, _ ∧ _))

/-- No other condition that a run registers inherits a test from one. -/
def Independent (apart : ConditionId) (engine : Engine) (log : List Registration) :
    List Request → Prop
  | [] => True
  | request :: rest =>
      (∀ registration ∈ engine.accepted request.conditions, registration.condition ≠ apart →
          ¬engine.Inherits log apart registration.entry) ∧
        Independent apart (engine.handle request)
          (log ++ engine.accepted request.conditions) rest

instance decidableIndependent (apart : ConditionId) (engine : Engine)
    (log : List Registration) :
    (requests : List Request) → Decidable (Independent apart engine log requests)
  | [] => .isTrue trivial
  | request :: rest =>
      have := decidableIndependent apart (engine.handle request)
        (log ++ engine.accepted request.conditions) rest
      inferInstanceAs (Decidable (_ ∧ _))

theorem Independent.of_append {requests rest : List Request}
    (independent : Independent apart engine log (requests ++ rest)) :
    Independent apart engine log requests := by
  induction requests generalizing engine log with
  | nil => trivial
  | cons request requests ih => exact ⟨independent.1, ih independent.2⟩

/-- A new test is one of the condition that is registered, and it had no node before. -/
theorem Enrolled.new_test {root : Root} {formula : Formula} {top : NodeId} {after : Engine}
    (enrolled : engine.Enrolled root formula top after) {id : NodeId} {predicate : Predicate}
    (outside : engine.graph.size ≤ id) (found : after.graph.predicate? id = some predicate) :
    predicate ∈ formula.predicates ∧
      ∀ earlier, engine.graph.predicate? earlier ≠ some predicate := by
  constructor
  · have below : id ≠ top := by
      rintro rfl
      have inner := Graph.root?_of_predicate? found
      rw [enrolled.root?, if_pos rfl] at inner
      cases inner
    obtain ⟨part, member, stands⟩ :=
      enrolled.fresh outside (Graph.lt_size_of_predicate? found) below
    have form := (Graph.stands_of_test enrolled.network.linked found).form
    rw [stands.form, Option.some.injEq] at form
    exact Formula.mem_predicates.2 (Formula.eq_test_of_canonical_eq form ▸ member)
  · intro earlier known
    have within := Graph.lt_size_of_predicate? known
    rw [← enrolled.grows.predicate?_eq within] at known
    rw [enrolled.network.distinct.test known found] at within
    exact Nat.lt_irrefl _ (Nat.lt_of_lt_of_le within outside)

/-! ## An engine with a condition and one without -/

/-- An engine has all that another has, and on record one condition more at most. -/
structure Covers (apart : ConditionId) (engine : Engine) (log : List Registration)
    (other : Engine) (others : List Registration) : Prop where
  sound : engine.Sound log
  also : other.Sound others
  logged : others = log.filter fun registration => registration.condition != apart
  contains : ∀ id, engine.sensors.contains id = other.sensors.contains id
  type : engine.sensors.type? = other.sensors.type?
  value : engine.sensors.value? = other.sensors.value?
  test : ∀ {id predicate}, other.graph.predicate? id = some predicate →
    ∃ twin, engine.graph.predicate? twin = some predicate ∧
      engine.graph.status twin = other.graph.status id

namespace Covers

theorem refl_empty (apart : ConditionId) : Covers apart empty [] empty [] where
  sound := sound_empty
  also := sound_empty
  logged := rfl
  contains _ := rfl
  type := rfl
  value := rfl
  test found := ⟨_, found, rfl⟩

theorem mem_iff (covers : Covers apart engine log other others) {registration : Registration} :
    registration ∈ others ↔ registration ∈ log ∧ registration.condition ≠ apart := by
  rw [covers.logged, List.mem_filter, bne_iff_ne]

theorem check_iff (covers : Covers apart engine log other others) {expression : String}
    {formula : Formula} :
    engine.check expression = .ok formula ↔ other.check expression = .ok formula := by
  rw [check_eq_ok, check_eq_ok]
  refine exists_congr fun expr => and_congr_right fun _ => ?_
  exact ⟨Formula.ofExpr_of_extends (Sensors.extends_of_type?_eq covers.type.symm),
    Formula.ofExpr_of_extends (Sensors.extends_of_type?_eq covers.type)⟩

theorem contains_roots (covers : Covers apart engine log other others) {condition : ConditionId}
    (differs : condition ≠ apart) :
    engine.roots.contains condition = other.roots.contains condition := by
  rw [Bool.eq_iff_iff, covers.sound.registered, covers.also.registered]
  constructor
  · rintro ⟨registration, member, rfl⟩
    exact ⟨registration, covers.mem_iff.2 ⟨member, differs⟩, rfl⟩
  · rintro ⟨registration, member, same⟩
    exact ⟨registration, (covers.mem_iff.1 member).1, same⟩

theorem standing_eq (covers : Covers apart engine log other others) {id : NodeId}
    {predicate : Predicate} (found : other.graph.predicate? id = some predicate) :
    engine.standing predicate = other.standing predicate := by
  obtain ⟨twin, there, same⟩ := covers.test found
  rw [covers.sound.standing_eq there, covers.also.standing_eq found, same]

/-- Conditions other than the one that is apart are satisfied in both engines or in neither. -/
theorem isSatisfied_eq (covers : Covers apart engine log other others) {condition : ConditionId}
    (differs : condition ≠ apart) : engine.isSatisfied condition = other.isSatisfied condition := by
  cases known : other.roots.contains condition with
  | false =>
      rw [covers.also.isSatisfied_of_unknown known, covers.sound.isSatisfied_of_unknown]
      rw [covers.contains_roots differs, known]
  | true =>
      obtain ⟨registration, member, rfl⟩ := covers.also.registered.1 known
      obtain ⟨formula, carried⟩ := covers.also.carried registration member
      have checked := carried.checked
      rw [covers.also.isSatisfied_eq_standing member checked,
        covers.sound.isSatisfied_eq_standing (covers.mem_iff.1 member).1
          (covers.check_iff.2 checked)]
      refine Formula.holds_congr fun predicate isTest => ?_
      obtain ⟨id, found⟩ := covers.also.exists_test member checked isTest
      exact covers.standing_eq found

/-! ## Deliveries -/

section

variable (covers : Covers apart engine log other others) (sensor : SensorId) (field : String)
  (value : Value)

include covers

theorem deliver : Covers apart (engine.deliver sensor field value).engine log
    (other.deliver sensor field value).engine others where
  sound := (covers.sound.deliver sensor field value).1
  also := (covers.also.deliver sensor field value).1
  logged := covers.logged
  contains id := by
    refine (engine.toNetwork.contains_deliver sensor field value id).trans ?_
    exact (covers.contains id).trans
      (other.toNetwork.contains_deliver sensor field value id).symm
  type := by rw [type?_deliver, type?_deliver, covers.type]
  value := by
    funext source name
    cases declared : engine.sensors.type? source name with
    | none =>
        have undeclared := declared
        rw [← type?_deliver sensor field value] at undeclared
        rw [Sensors.value?_of_undeclared undeclared]
        rw [covers.type, ← type?_deliver sensor field value] at declared
        rw [Sensors.value?_of_undeclared declared]
    | some type =>
        rw [covers.sound.value?_deliver declared, covers.also.value?_deliver
          (covers.type ▸ declared), covers.value]
  test := by
    intro id predicate found
    rw [Graph.predicate?_of_frame_eq (covers.also.frame_deliver ..)] at found
    obtain ⟨twin, there, same⟩ := covers.test found
    refine ⟨twin, ?_, ?_⟩
    · rw [Graph.predicate?_of_frame_eq (covers.sound.frame_deliver ..), there]
    · rw [covers.sound.status_deliver there, covers.also.status_deliver found, same]

/-- A delivery to both engines turns the same conditions, but for the one that is apart. -/
theorem alike_deliver : Outcome.Alike apart (engine.deliver sensor field value).outcome
    (other.deliver sensor field value).outcome := by
  intro condition differs
  have reports := (covers.sound.deliver sensor field value).2
  have also := (covers.also.deliver sensor field value).2
  have after := covers.deliver sensor field value
  rw [reports.fired, also.fired, reports.cleared, also.cleared, covers.isSatisfied_eq differs,
    after.isSatisfied_eq differs]
  exact ⟨Iff.rfl, Iff.rfl⟩

end

theorem deliverAll (sensor : SensorId) (payload : List (String × Value)) {engine other : Engine}
    (covers : Covers apart engine log other others) :
    Covers apart (engine.deliverAll sensor payload) log
        (other.deliverAll sensor payload) others ∧
      List.Forall₂ (Outcome.Alike apart) (engine.outcomesOf sensor payload)
        (other.outcomesOf sensor payload) := by
  induction payload generalizing engine other with
  | nil => exact ⟨covers, .nil⟩
  | cons item rest ih =>
      obtain ⟨last, outcomes⟩ := ih (covers.deliver sensor item.1 item.2)
      exact ⟨last, .cons (covers.alike_deliver sensor item.1 item.2) outcomes⟩

/-! ## Sensors -/

theorem addSensor (covers : Covers apart engine log other others) {id : SensorId}
    {sensor : Sensor} (blank : sensor.Blank) (fresh : engine.sensors.contains id = false) :
    Covers apart { engine with sensors := engine.sensors.insert id sensor } log
      { other with sensors := other.sensors.insert id sensor } others where
  sound := covers.sound.addSensor blank (addSensor_eq_ok.2 ⟨fresh, rfl⟩)
  also := covers.also.addSensor blank (addSensor_eq_ok.2 ⟨covers.contains id ▸ fresh, rfl⟩)
  logged := covers.logged
  contains known := by
    rw [Bool.eq_iff_iff]
    change (engine.sensors.insert id sensor).contains known = true ↔
      (other.sensors.insert id sensor).contains known = true
    rw [Table.contains_insert, Table.contains_insert, covers.contains]
  type := by
    funext source name
    have same := congrFun (congrFun covers.type source) name
    unfold Sensors.type? at same ⊢
    rw [Sensors.field?_insert, Sensors.field?_insert]
    split
    case isTrue => rfl
    case isFalse => exact same
  value := by
    funext source name
    rw [Sensors.value?_insert blank, Sensors.value?_insert blank, covers.value]
  test := covers.test

/-! ## Registrations -/

/-- What has been added to an engine is of no concern to the tests of the other. -/
theorem test_of_grows (covers : Covers apart engine log other others) {after : Engine}
    (grows : engine.graph.Grows after.graph) {id : NodeId} {predicate : Predicate}
    (found : other.graph.predicate? id = some predicate) :
    ∃ twin, after.graph.predicate? twin = some predicate ∧
      after.graph.status twin = other.graph.status id := by
  obtain ⟨twin, there, same⟩ := covers.test found
  have within := Graph.lt_size_of_predicate? there
  exact ⟨twin, by rw [grows.predicate?_eq within, there], by rw [grows.status_eq within, same]⟩

/-- The condition that is apart comes in addition. -/
theorem enroll_apart (covers : Covers apart engine log other others) {entry : ConditionEntry}
    {extended : Engine} (registered : engine.register entry = .ok (extended, apart)) :
    Covers apart extended (log ++ [⟨apart, entry⟩]) other others := by
  have sound := covers.sound.register registered
  obtain ⟨_, fresh, formula, checked, rfl⟩ := register_eq_ok.1 registered
  obtain ⟨child, top, enrolled⟩ := enrolled covers.sound checked
  refine ⟨sound, covers.also, ?_, ?_, enrolled.type.trans covers.type,
    enrolled.value.trans covers.value, covers.test_of_grows enrolled.grows⟩
  · rw [covers.logged, List.filter_append]
    simp
  · intro id
    exact (Network.contains_wire formula engine.toNetwork id).trans (covers.contains id)

/-- A test that only one of the engines has stands as a new one would, unless it is stale. -/
theorem status_eq_current (covers : Covers apart engine log other others)
    (reached : Reachable engine) {entry : ConditionEntry} {formula : Formula}
    (checked : engine.check entry.expression = .ok formula)
    (independent : ¬engine.Inherits log apart entry) {predicate : Predicate}
    (isTest : predicate ∈ formula.predicates)
    (missing : ∀ id, other.graph.predicate? id ≠ some predicate) {twin : NodeId}
    (found : engine.graph.predicate? twin = some predicate) :
    engine.graph.status twin = engine.current predicate := by
  have current : engine.current predicate =
      ((engine.sensors.value? predicate.sensor predicate.field).bind predicate.test).getD
        false := rfl
  cases told : (engine.sensors.value? predicate.sensor predicate.field).bind
      predicate.test with
  | some status => rw [current, told, reached.status_of_told found told, Option.getD_some]
  | none =>
      rw [current, told, Option.getD_none, ← Bool.not_eq_true]
      intro holds
      refine independent ⟨predicate, ?_, ?_, fun registration member differs also => ?_⟩
      · rw [testsOf, checked]
        exact isTest
      · rw [isStale, covers.sound.standing_eq found, holds, told]
        rfl
      · unfold testsOf at also
        split at also
        case h_2 => cases also
        case h_1 known read =>
          obtain ⟨id, there⟩ := covers.also.exists_test (covers.mem_iff.2 ⟨member, differs⟩)
            (covers.check_iff.1 read) also
          exact missing id there

/-- A test that is new to the other engine stands in it as in the engine, where it may not be. -/
theorem exists_twin (covers : Covers apart engine log other others) (reached : Reachable engine)
    {entry : ConditionEntry} {formula : Formula}
    (checked : engine.check entry.expression = .ok formula)
    (independent : ¬engine.Inherits log apart entry) {root otherRoot : Root}
    {top otherTop : NodeId} {extended also : Engine}
    (enrolled : engine.Enrolled root formula top extended)
    (alsoEnrolled : other.Enrolled otherRoot formula otherTop also) {id : NodeId}
    {predicate : Predicate} (outside : other.graph.size ≤ id)
    (found : also.graph.predicate? id = some predicate) :
    ∃ twin, extended.graph.predicate? twin = some predicate ∧
      extended.graph.status twin = also.graph.status id := by
  obtain ⟨isTest, missing⟩ := alsoEnrolled.new_test outside found
  obtain ⟨twin, there⟩ := enrolled.child.exists_test enrolled.network.linked isTest
  have latest : also.current predicate = engine.current predicate :=
    congrFun (Network.current_congr (alsoEnrolled.value.trans covers.value.symm)) predicate
  refine ⟨twin, there, ?_⟩
  rw [alsoEnrolled.seeded outside found, latest]
  by_cases within : twin < engine.graph.size
  · rw [enrolled.grows.predicate?_eq within] at there
    rw [enrolled.grows.status_eq within]
    exact covers.status_eq_current reached checked independent isTest missing there
  · rw [enrolled.seeded (Nat.le_of_not_lt within) there]
    exact congrFun (Network.current_congr enrolled.value) predicate

/-- A condition that inherits nothing is registered in both engines with equal tests. -/
theorem enroll (covers : Covers apart engine log other others) (reached : Reachable engine)
    {entry : ConditionEntry} {condition : ConditionId} (differs : condition ≠ apart)
    {extended also : Engine} (registered : engine.register entry = .ok (extended, condition))
    (alsoRegistered : other.register entry = .ok (also, condition))
    (independent : ¬engine.Inherits log apart entry) :
    Covers apart extended (log ++ [⟨condition, entry⟩]) also
      (others ++ [⟨condition, entry⟩]) := by
  have sound := covers.sound.register registered
  have alsoSound := covers.also.register alsoRegistered
  obtain ⟨_, fresh, formula, checked, rfl⟩ := register_eq_ok.1 registered
  obtain ⟨_, _, _, alsoChecked, rfl⟩ := register_eq_ok.1 alsoRegistered
  rw [covers.check_iff.1 checked, Except.ok.injEq] at alsoChecked
  subst alsoChecked
  obtain ⟨child, top, enrolled⟩ := enrolled covers.sound checked
  obtain ⟨otherChild, otherTop, alsoEnrolled⟩ :=
    Engine.enrolled covers.also (covers.check_iff.1 checked)
  refine ⟨sound, alsoSound, ?_, ?_, ?_, ?_, ?_⟩
  · rw [covers.logged, List.filter_append]
    simp [differs]
  · intro id
    refine (Network.contains_wire formula engine.toNetwork id).trans ?_
    exact (covers.contains id).trans (Network.contains_wire formula other.toNetwork id).symm
  · rw [enrolled.type, alsoEnrolled.type, covers.type]
  · rw [enrolled.value, alsoEnrolled.value, covers.value]
  · intro id predicate found
    by_cases earlier : id < other.graph.size
    · rw [alsoEnrolled.grows.predicate?_eq earlier] at found
      rw [alsoEnrolled.grows.status_eq earlier]
      exact covers.test_of_grows enrolled.grows found
    · exact covers.exists_twin reached checked independent enrolled alsoEnrolled
        (Nat.le_of_not_lt earlier) found

/-! ## Requests -/

theorem skip (covers : Covers apart engine log other others) {request : Request}
    (isFor : request.isFor apart = true) :
    Covers apart (engine.handle request) (log ++ engine.accepted request.conditions) other
      others := by
  cases request with
  | addSensor | addEntry | update | updateAll => cases isFor
  | register entry =>
      have named : entry.id = some apart := by simpa [Request.isFor] using isFor
      cases registered : engine.register entry with
      | error error =>
          simp only [handle, Request.conditions, accepted, registered, orSame, List.append_nil]
          exact covers
      | ok result =>
          obtain ⟨extended, id⟩ := result
          obtain ⟨same, _⟩ := register_eq_ok.1 registered
          rw [named, Option.getD_some] at same
          subst same
          simp only [handle, Request.conditions, accepted, registered, orSame]
          exact covers.enroll_apart registered

theorem declare (covers : Covers apart engine log other others) (id : SensorId) {sensor : Sensor}
    (blank : sensor.Blank) :
    Covers apart (engine.orSame (engine.addSensor id sensor) fun extended => extended) log
      (other.orSame (other.addSensor id sensor) fun extended => extended) others := by
  unfold Engine.addSensor
  rw [← covers.contains]
  cases known : engine.sensors.contains id with
  | true => exact covers
  | false => exact covers.addSensor blank known

theorem register (covers : Covers apart engine log other others) (reached : Reachable engine)
    {entry : ConditionEntry} {condition : ConditionId} (named : entry.id = some condition)
    (differs : condition ≠ apart)
    (independent : ∀ registration ∈ engine.accepted [entry], registration.condition ≠ apart →
      ¬engine.Inherits log apart registration.entry) :
    Covers apart (engine.handle (.register entry)) (log ++ engine.accepted [entry])
      (other.handle (.register entry)) (others ++ other.accepted [entry]) := by
  cases registered : engine.register entry with
  | ok result =>
      obtain ⟨extended, id⟩ := result
      have accepts : engine.accepted [entry] = [⟨id, entry⟩] := by
        simp only [accepted, registered]
      obtain ⟨same, fresh, formula, checked, _⟩ := register_eq_ok.1 registered
      rw [named, Option.getD_some] at same
      subst same
      have also : other.register entry = .ok (other.enroll id entry formula, id) := by
        refine register_eq_ok.2 ⟨by rw [named, Option.getD_some], ?_, formula,
          covers.check_iff.1 checked, rfl⟩
        rw [← covers.contains_roots differs, fresh]
      have alsoAccepts : other.accepted [entry] = [⟨id, entry⟩] := by
        simp only [accepted, also]
      have inherits := independent ⟨id, entry⟩ (accepts ▸ List.mem_singleton_self _) differs
      rw [accepts, alsoAccepts, handle_register registered, handle_register also]
      exact covers.enroll reached differs registered also inherits
  | error error =>
      cases also : other.register entry with
      | error error =>
          simp only [handle, accepted, registered, also, orSame, List.append_nil]
          exact covers
      | ok result =>
          obtain ⟨same, fresh, formula, checked, _⟩ := register_eq_ok.1 also
          rw [named, Option.getD_some] at same
          rw [same, ← covers.contains_roots differs] at fresh
          have done : engine.register entry = .ok (engine.enroll condition entry formula,
              condition) :=
            register_eq_ok.2 ⟨by rw [named, Option.getD_some], fresh, formula,
              covers.check_iff.2 checked, rfl⟩
          rw [registered] at done
          cases done

theorem handle_delivers (covers : Covers apart engine log other others) {request : Request}
    {sensor : SensorId} {payload : List (String × Value)}
    (delivers : request.Delivers sensor payload) :
    Covers apart (engine.handle request) (log ++ engine.accepted request.conditions)
      (other.handle request) (others ++ other.accepted request.conditions) := by
  rw [delivers.conditions, accepted, accepted, List.append_nil, List.append_nil,
    delivers.handle, delivers.handle, covers.contains]
  split
  case isTrue => exact (covers.deliverAll sensor payload).1
  case isFalse => exact covers

/-- A request that does not concern the condition that is apart is handled alike. -/
theorem handle (covers : Covers apart engine log other others) (reached : Reachable engine)
    {request : Request} (names : request.Names) (differs : request.isFor apart = false)
    (independent : ∀ registration ∈ engine.accepted request.conditions,
      registration.condition ≠ apart → ¬engine.Inherits log apart registration.entry) :
    Covers apart (engine.handle request) (log ++ engine.accepted request.conditions)
      (other.handle request) (others ++ other.accepted request.conditions) := by
  cases request with
  | register entry =>
      obtain ⟨condition, named⟩ := Option.isSome_iff_exists.1 (names entry (.head _))
      refine covers.register reached named (fun same => ?_) independent
      rw [Request.isFor, named, same, beq_self_eq_true] at differs
      cases differs
  | addSensor id name fields =>
      simp only [Request.conditions, accepted, List.append_nil]
      exact covers.declare id (Sensor.blank_ofList name fields)
  | addEntry entry =>
      simp only [Request.conditions, accepted, List.append_nil]
      cases known : entry.sensor with
      | error error =>
          simp only [Engine.handle, Engine.addEntry, known]
          exact covers
      | ok sensor =>
          simp only [Engine.handle, Engine.addEntry, known]
          exact covers.declare entry.id (SensorEntry.blank_sensor known)
  | update sensor field value =>
      exact covers.handle_delivers (Request.delivers_update sensor field value)
  | updateAll sensor payload =>
      exact covers.handle_delivers (Request.delivers_updateAll sensor payload)

/-- What is reported of conditions other than the one that is apart is the same. -/
theorem reports (covers : Covers apart engine log other others) (request : Request) :
    List.Forall₂ (Outcome.Alike apart) (engine.reports request) (other.reports request) := by
  rcases request.idle_or_delivers with idle | ⟨sensor, payload, delivers⟩
  · rw [idle.reports, idle.reports]
    exact .nil
  · rw [delivers.reports, delivers.reports, covers.contains]
    split
    case isTrue => exact (covers.deliverAll sensor payload).2
    case isFalse => exact .nil

/-- Along a run the engine covers the one that was never asked to register the condition. -/
theorem handleAll (requests : List Request) {engine other : Engine}
    {log others : List Registration} (covers : Covers apart engine log other others)
    (reached : Reachable engine) (names : ∀ request ∈ requests, request.Names)
    (independent : Independent apart engine log requests) :
    ∃ log others, Covers apart (engine.handleAll requests) log
      (other.handleAll (Request.without apart requests)) others := by
  induction requests generalizing engine other log others with
  | nil => exact ⟨log, others, covers⟩
  | cons request rest ih =>
      have named : ∀ later ∈ rest, later.Names := fun later member =>
        names later (.tail _ member)
      unfold Request.without
      cases isFor : request.isFor apart with
      | true =>
          rw [List.filter_cons_of_neg (by simp [isFor])]
          exact ih (covers.skip isFor) (reached.handle request) named independent.2
      | false =>
          rw [List.filter_cons_of_pos (by simp [isFor])]
          exact ih (covers.handle reached (names request (.head _)) isFor independent.1)
            (reached.handle request) named independent.2

end Covers

/-! ## Runs that differ in one condition -/

/-- Engines that nothing tells apart but one condition: the others are registered and satisfied
in both or in neither, and every delivery turns the same of them. -/
structure Alike (apart : ConditionId) (engine other : Engine) : Prop where
  registered : ∀ {condition}, condition ≠ apart →
    engine.roots.contains condition = other.roots.contains condition
  satisfied : ∀ {condition}, condition ≠ apart →
    engine.isSatisfied condition = other.isSatisfied condition
  reports : ∀ request,
    List.Forall₂ (Outcome.Alike apart) (engine.reports request) (other.reports request)

theorem Covers.alike (covers : Covers apart engine log other others) :
    Alike apart engine other where
  registered := covers.contains_roots
  satisfied := covers.isSatisfied_eq
  reports := covers.reports

/-- Engines that are like the same engine are like each other. -/
theorem Alike.of_common (alike : Alike apart engine third) (also : Alike apart other third) :
    Alike apart engine other where
  registered differs := (alike.registered differs).trans (also.registered differs).symm
  satisfied differs := (alike.satisfied differs).trans (also.satisfied differs).symm
  reports request := by
    have first := alike.reports request
    have second := also.reports request
    generalize engine.reports request = outcomes, other.reports request = counterparts,
      third.reports request = common at first second ⊢
    induction first generalizing counterparts with
    | nil =>
        cases second
        exact .nil
    | cons here rest ih =>
        cases second with
        | cons there others =>
            refine .cons (fun condition differs => ?_) (ih _ others)
            obtain ⟨fired, cleared⟩ := here condition differs
            obtain ⟨alsoFired, alsoCleared⟩ := there condition differs
            exact ⟨fired.trans alsoFired.symm, cleared.trans alsoCleared.symm⟩

/-- Leaving the registration of a condition out of a run changes nothing about the others at any
point, if no condition inherits a test from it in either run. -/
theorem alike_of_left_out {condition : ConditionId} {entry : ConditionEntry}
    (named : entry.id = some condition) {early late done : List Request}
    (names : ∀ request ∈ early ++ late, request.Names)
    (independent : Independent condition empty [] (early ++ .register entry :: late))
    (also : Independent condition empty [] (early ++ late)) (point : done <+: late) :
    Alike condition (empty.handleAll (early ++ .register entry :: done))
      (empty.handleAll (early ++ done)) := by
  obtain ⟨rest, rfl⟩ := point
  rw [← List.append_assoc] at names also
  rw [← List.cons_append, ← List.append_assoc] at independent
  have isFor : Request.isFor condition (.register entry) = true := by
    rw [Request.isFor, named, beq_self_eq_true]
  have common : Request.without condition (early ++ .register entry :: done) =
      Request.without condition (early ++ done) := by
    unfold Request.without
    rw [List.filter_append, List.filter_append, List.filter_cons_of_neg (by simp [isFor])]
  have allNamed : ∀ request ∈ early ++ .register entry :: done, request.Names := by
    intro request member
    rw [List.mem_append, List.mem_cons] at member
    rcases member with before | rfl | after
    · exact names request (List.mem_append_left _ (List.mem_append_left _ before))
    · intro asked isEntry
      rw [List.mem_singleton.1 isEntry, named]
      rfl
    · exact names request (List.mem_append_left _ (List.mem_append_right _ after))
  obtain ⟨_, _, covers⟩ := (Covers.refl_empty condition).handleAll _ .empty allNamed
    independent.of_append
  obtain ⟨_, _, alsoCovers⟩ := (Covers.refl_empty condition).handleAll _ .empty
    (fun request member => names request (List.mem_append_left _ member)) also.of_append
  exact covers.alike.of_common (common ▸ alsoCovers.alike)

/-- Another condition has the test before the one that is left out, so that the latest condition
inherits it from both. -/
theorem alike_of_left_out_samples :
    let early : List Request :=
      [.addSensor 1 none [("t", .unsigned)], .update 1 "t" (.unsigned 7),
        .register ⟨some 3, none, "[1]>(t,5)", []⟩]
    let entry : ConditionEntry := ⟨some 1, none, "[1]&(>(t,5),<(t,10))", []⟩
    let late : List Request :=
      [.update 1 "t" (.text "hot"), .register ⟨some 2, none, "[1]|(>(t,5),=(t,1))", []⟩,
        .update 1 "t" (.unsigned 12)]
    Independent 1 empty [] (early ++ .register entry :: late) ∧
      Alike 1 (empty.handleAll (early ++ .register entry :: late))
        (empty.handleAll (early ++ late)) ∧
        (empty.handleAll (early ++ late)).isSatisfied 2 = true := by
  intro early entry late
  have names : ∀ request ∈ early ++ late, request.Names := by decide
  have independent : Independent 1 empty [] (early ++ .register entry :: late) := by
    decide +kernel
  have also : Independent 1 empty [] (early ++ late) := by decide +kernel
  exact ⟨independent, alike_of_left_out rfl names independent also (List.prefix_refl late),
    by decide +kernel⟩

/-! ## A run in which a condition inherits a test -/

/-- A sensor whose field has a value. -/
def sighting : List Request :=
  [.addSensor 1 none [("t", .unsigned)], .update 1 "t" (.unsigned 7)]

/-- A condition whose test holds of the value. -/
def predecessor : ConditionEntry :=
  ⟨some 1, none, "[1]>(t,5)", []⟩

/-- A value of another type, and then a condition with the same test. -/
def succession : List Request :=
  [.update 1 "t" (.text "hot"), .register ⟨some 2, none, "[1]>(t,5)", []⟩]

/-- A condition starts from what the test of another told before a value of another type, while on
its own it does not hold. -/
theorem not_alike_of_inherited :
    (empty.handleAll (sighting ++ .register predecessor :: succession)).isSatisfied 2 = true ∧
      (empty.handleAll (sighting ++ succession)).isSatisfied 2 = false ∧
        ¬Alike 1 (empty.handleAll (sighting ++ .register predecessor :: succession))
          (empty.handleAll (sighting ++ succession)) := by
  have shared : (empty.handleAll
      (sighting ++ .register predecessor :: succession)).isSatisfied 2 = true := by
    decide +kernel
  have alone : (empty.handleAll (sighting ++ succession)).isSatisfied 2 = false := by
    decide +kernel
  refine ⟨shared, alone, fun alike => ?_⟩
  have same := alike.satisfied (by decide : (2 : ConditionId) ≠ 1)
  rw [shared, alone] at same
  cases same

end Engine

end Tripwire
