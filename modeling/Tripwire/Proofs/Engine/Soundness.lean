import Tripwire.Proofs.Engine.Recorded
import Tripwire.Proofs.Formula.Checking
import Tripwire.Proofs.Network.Wiring

/-!
# Sound engines

In a sound engine every condition on record has one root, above a node for the formula of its
text, the satisfied conditions are those whose roots hold, and every node below the roots
stands for a part of the formula of a condition on record.
-/

namespace Tripwire

/-- The root that a registered condition has above a node. -/
def Registration.root (registration : Registration) (child : NodeId) : Root :=
  ⟨registration.condition, registration.entry.name, child, registration.entry.actions⟩

namespace Engine

/-- A condition's root carries what it was registered with, above a node for its formula. -/
structure Carries (engine : Engine) (registration : Registration) (formula : Formula) : Prop where
  checked : engine.check registration.entry.expression = .ok formula
  root : ∃ child, engine.root? registration.condition = some (registration.root child) ∧
    engine.graph.Stands child formula

/-- What holds of every engine and its record between two requests. -/
structure Sound (engine : Engine) (log : List Registration) : Prop where
  network : engine.toNetwork.Sound
  rooted : ∀ {condition id}, engine.roots.get? condition = some id ↔
    ∃ root, engine.graph.root? id = some root ∧ root.condition = condition
  satisfied : ∀ {condition}, engine.isSatisfied condition = true ↔
    ∃ id, engine.roots.get? condition = some id ∧ engine.graph.status id = true
  registered : ∀ {condition}, engine.roots.contains condition = true ↔
    ∃ registration ∈ log, registration.condition = condition
  once : (log.map Registration.condition).Nodup
  carried : ∀ registration ∈ log, ∃ formula, engine.Carries registration formula
  needed : ∀ {id}, id < engine.graph.size → engine.graph.root? id = none →
    ∃ registration ∈ log, ∃ formula, engine.Carries registration formula ∧
      ∃ part ∈ formula.parts, engine.graph.Stands id part

/-- What was registered is still as it was. -/
structure Keeps (before after : Engine) : Prop where
  sensors : before.sensors.Extends after.sensors
  root : ∀ {condition root}, before.root? condition = some root →
    after.root? condition = some root
  stands : ∀ {id formula}, before.graph.Stands id formula → after.graph.Stands id formula

theorem check_eq_ok {engine : Engine} {expression : String} {formula : Formula} :
    engine.check expression = .ok formula ↔
      ∃ expr, Expr.parse expression = .ok expr ∧
        Formula.ofExpr engine.sensors expr = .ok formula :=
  bind_eq_ok

theorem Carries.keep {before after : Engine} {registration : Registration} {formula : Formula}
    (carries : before.Carries registration formula) (keeps : before.Keeps after) :
    after.Carries registration formula := by
  obtain ⟨child, found, stands⟩ := carries.root
  obtain ⟨expr, parsed, checked⟩ := check_eq_ok.1 carries.checked
  constructor
  · exact check_eq_ok.2 ⟨expr, parsed, Formula.ofExpr_of_extends keeps.sensors checked⟩
  · exact ⟨child, keeps.root found, keeps.stands stands⟩

theorem root?_eq_some {engine : Engine} {condition : ConditionId} {root : Root} :
    engine.root? condition = some root ↔
      ∃ id, engine.roots.get? condition = some id ∧ engine.graph.root? id = some root := by
  unfold root? Graph.root?
  simp [Option.bind_eq_some_iff]

theorem contains_iff {engine : Engine} {condition : ConditionId} :
    engine.roots.contains condition = true ↔ ∃ id, engine.roots.get? condition = some id := by
  rw [Table.contains, Option.isSome_iff_exists]

theorem sound_empty : Sound .empty [] where
  network := {
    linked := Graph.linked_empty
    settled := Graph.settled_empty
    distinct := Graph.distinct_empty
    watched := fun found => by cases found
    typed := fun found => by simp [Graph.predicate?, Graph.node?, Graph.empty, empty] at found }
  rooted := by
    intro condition id
    constructor
    · rintro ⟨⟩
    · rintro ⟨root, found, _⟩
      simp [Graph.root?, Graph.node?, Graph.empty, empty] at found
  satisfied := by
    intro condition
    constructor
    · rintro ⟨⟩
    · rintro ⟨id, found, _⟩
      cases found
  registered := by
    intro condition
    constructor
    · rintro ⟨⟩
    · rintro ⟨registration, member, _⟩
      cases member
  once := .nil
  carried registration member := by cases member
  needed within := absurd within (Nat.not_lt_zero _)

/-! ## Registering -/

/-- What registering a condition adds to an engine: a root on top of a node for its formula. -/
structure Enrolled (before : Engine) (root : Root) (formula : Formula) (top : NodeId)
    (after : Engine) : Prop where
  network : after.toNetwork.Sound
  grows : before.graph.Grows after.graph
  type : after.sensors.type? = before.sensors.type?
  value : after.sensors.value? = before.sensors.value?
  seeded : ∀ {id predicate}, before.graph.size ≤ id →
    after.graph.predicate? id = some predicate → after.graph.status id = after.current predicate
  child : after.graph.Stands root.child formula
  fresh : ∀ {id}, before.graph.size ≤ id → id < after.graph.size → id ≠ top →
    ∃ part ∈ formula.parts, after.graph.Stands id part
  above : before.graph.size ≤ top
  root? : ∀ id, after.graph.root? id = if id = top then some root else before.graph.root? id
  get? : ∀ condition, after.roots.get? condition =
    if root.condition = condition then some top else before.roots.get? condition
  satisfied : ∀ condition, after.isSatisfied condition = true ↔
    (root.condition = condition ∧ after.graph.status top = true) ∨
      before.isSatisfied condition = true

/-- A condition that holds from the start joins the satisfied ones. -/
theorem contains_join (satisfied : Table ConditionId Unit) (id condition : ConditionId)
    (holds : Bool) :
    (if holds then satisfied.insert id () else satisfied).contains condition = true ↔
      (id = condition ∧ holds = true) ∨ satisfied.contains condition = true := by
  cases holds with
  | true => simpa using satisfied.contains_insert id condition ()
  | false => simp

/-- The graph of a wired formula takes a root on top. -/
theorem enrolled {engine : Engine} {log : List Registration} (sound : engine.Sound log)
    {id : ConditionId} {entry : ConditionEntry} {formula : Formula}
    (checked : engine.check entry.expression = .ok formula) :
    ∃ child top, engine.Enrolled (Registration.root ⟨id, entry⟩ child) formula top
      (engine.enroll id entry formula) := by
  obtain ⟨expr, _, tests⟩ := check_eq_ok.1 checked
  obtain ⟨wired, stands⟩ := Network.wires formula sound.network fun predicate member =>
    Formula.typed_of_ofExpr tests member
  let network := (engine.toNetwork.wire formula).1
  let child := (engine.toNetwork.wire formula).2
  let root := Registration.root ⟨id, entry⟩ child
  have below : ∀ below ∈ Node.children ⟨.root root, network.graph.status child, []⟩,
      below < network.graph.size := by
    intro below member
    rw [List.mem_singleton.1 member]
    exact Graph.lt_size_of_form? stands.form
  have inner : ∀ below ∈ Node.children ⟨.root root, network.graph.status child, []⟩,
      network.graph.root? below = none := by
    intro below member
    rw [List.mem_singleton.1 member]
    exact stands.inner
  have settled : (network.graph.mount (.root root) (network.graph.status child)).Settled :=
    wired.sound.settled.mount wired.sound.linked.toPaired below (fun same => by cases same)
      (by rintro _ ⟨⟩; rfl)
  have extended := wired.sound.mount below inner rfl settled fun same => by cases same
  have grows := Graph.grows_mount below
  have roots : ∀ other, (network.graph.mount (.root root) (network.graph.status child)).root?
      other = if other = network.graph.size then some root else engine.graph.root? other := by
    intro other
    rw [Graph.root?_mount below, wired.root?_eq]
    rfl
  refine ⟨child, network.graph.size, extended, wired.grows.trans grows, wired.type, wired.value,
    ?_, stands.grows grows wired.sound.linked extended.linked, ?_, wired.grows.size_le, roots, ?_,
    ?_⟩
  · intro other predicate outside test
    change (network.graph.mount (.root root) (network.graph.status child)).predicate? other =
      some predicate at test
    rcases Graph.predicate?_of_mount below test with ⟨_, isTest⟩ | earlier
    · cases isTest
    · have within := Graph.lt_size_of_predicate? earlier
      exact (grows.status_eq within).trans (wired.seeded outside earlier)
  · intro other outside within apart
    change other < (network.graph.mount (.root root) (network.graph.status child)).size at within
    rw [Graph.size_mount] at within
    have earlier := Nat.lt_of_le_of_ne (Nat.le_of_lt_succ within) apart
    obtain ⟨part, member, known⟩ := wired.fresh outside earlier
    exact ⟨part, member, known.grows grows wired.sound.linked extended.linked⟩
  · intro condition
    exact Table.get?_insert _ _ _ _
  · intro condition
    exact contains_join _ _ _ _

namespace Enrolled

variable {before after : Engine} {log : List Registration} {root : Root} {formula : Formula}
  {top : NodeId}

theorem get?_top (enrolled : before.Enrolled root formula top after) :
    after.roots.get? root.condition = some top := by
  rw [enrolled.get?, if_pos rfl]

theorem root?_of_root? (enrolled : before.Enrolled root formula top after) {id : NodeId}
    {known : Root} (found : before.graph.root? id = some known) :
    id ≠ top ∧ after.graph.root? id = some known := by
  have within := Graph.lt_size_of_root? found
  refine ⟨Nat.ne_of_lt (Nat.lt_of_lt_of_le within enrolled.above), ?_⟩
  rw [enrolled.grows.root?_eq within, found]

theorem root?_eq (enrolled : before.Enrolled root formula top after) :
    after.root? root.condition = some root := by
  rw [root?_eq_some]
  exact ⟨top, enrolled.get?_top, by rw [enrolled.root?, if_pos rfl]⟩

theorem keeps (enrolled : before.Enrolled root formula top after) (sound : before.Sound log)
    (fresh : before.roots.contains root.condition = false) : before.Keeps after where
  sensors := Sensors.extends_of_type?_eq enrolled.type
  root := by
    intro condition known found
    obtain ⟨id, rooted, there⟩ := root?_eq_some.1 found
    refine root?_eq_some.2 ⟨id, ?_, (enrolled.root?_of_root? there).2⟩
    rw [enrolled.get?, if_neg, rooted]
    rintro rfl
    rw [contains_iff.2 ⟨id, rooted⟩] at fresh
    cases fresh
  stands stands := stands.grows enrolled.grows sound.network.linked enrolled.network.linked

theorem rooted (enrolled : before.Enrolled root formula top after) (sound : before.Sound log)
    (fresh : before.roots.contains root.condition = false) {condition : ConditionId}
    {id : NodeId} : after.roots.get? condition = some id ↔
      ∃ known, after.graph.root? id = some known ∧ known.condition = condition := by
  rw [enrolled.get?, enrolled.root?]
  constructor
  · intro found
    split at found
    case isTrue same =>
      cases found
      exact ⟨root, if_pos rfl, same⟩
    case isFalse =>
      obtain ⟨known, there, here⟩ := sound.rooted.1 found
      exact ⟨known, by rw [if_neg (enrolled.root?_of_root? there).1, there], here⟩
  · rintro ⟨known, found, here⟩
    split at found
    case isTrue last =>
      cases found
      rw [if_pos here, last]
    case isFalse =>
      have earlier := sound.rooted.2 ⟨known, found, here⟩
      rw [if_neg, earlier]
      rintro rfl
      rw [contains_iff.2 ⟨id, earlier⟩] at fresh
      cases fresh

theorem satisfied_iff (enrolled : before.Enrolled root formula top after)
    (sound : before.Sound log) (fresh : before.roots.contains root.condition = false)
    {condition : ConditionId} : after.isSatisfied condition = true ↔
      ∃ id, after.roots.get? condition = some id ∧ after.graph.status id = true := by
  have kept : ∀ {id}, before.roots.get? condition = some id →
      after.graph.status id = before.graph.status id := by
    intro id found
    obtain ⟨known, there, _⟩ := sound.rooted.1 found
    exact enrolled.grows.status_eq (Graph.lt_size_of_root? there)
  rw [enrolled.satisfied, enrolled.get?, sound.satisfied]
  constructor
  · rintro (⟨same, holds⟩ | ⟨id, found, holds⟩)
    · exact ⟨top, if_pos same, holds⟩
    · refine ⟨id, ?_, by rw [kept found, holds]⟩
      rw [if_neg, found]
      rintro rfl
      rw [contains_iff.2 ⟨id, found⟩] at fresh
      cases fresh
  · rintro ⟨id, found, holds⟩
    split at found
    case isTrue same =>
      cases found
      exact Or.inl ⟨same, holds⟩
    case isFalse => exact Or.inr ⟨id, found, by rw [← kept found, holds]⟩

theorem registered_iff {registration : Registration} {child : NodeId}
    (enrolled : before.Enrolled (registration.root child) formula top after)
    (sound : before.Sound log) {condition : ConditionId} :
    after.roots.contains condition = true ↔
      ∃ known ∈ log ++ [registration], known.condition = condition := by
  rw [Table.contains, enrolled.get?]
  simp only [List.mem_append, List.mem_singleton]
  constructor
  · intro contained
    split at contained
    case isTrue same => exact ⟨registration, Or.inr rfl, same⟩
    case isFalse =>
      obtain ⟨earlier, member, here⟩ := sound.registered.1 contained
      exact ⟨earlier, Or.inl member, here⟩
  · rintro ⟨known, member, here⟩
    split
    case isTrue => rfl
    case isFalse apart =>
      rcases member with earlier | rfl
      · exact sound.registered.2 ⟨known, earlier, here⟩
      · exact absurd here apart

/-- A new node is the root or stands for a part of the formula. -/
theorem needed {registration : Registration} {child : NodeId}
    (enrolled : before.Enrolled (registration.root child) formula top after)
    (sound : before.Sound log) (keeps : before.Keeps after)
    (carries : after.Carries registration formula) {id : NodeId}
    (within : id < after.graph.size) (inner : after.graph.root? id = none) :
    ∃ known ∈ log ++ [registration], ∃ formula, after.Carries known formula ∧
      ∃ part ∈ formula.parts, after.graph.Stands id part := by
  rw [enrolled.root?] at inner
  split at inner
  case isTrue => cases inner
  case isFalse apart =>
    by_cases earlier : id < before.graph.size
    · obtain ⟨known, member, other, carried, part, isPart, stands⟩ := sound.needed earlier inner
      exact ⟨known, List.mem_append_left _ member, other, carried.keep keeps, part, isPart,
        keeps.stands stands⟩
    · obtain ⟨part, isPart, stands⟩ := enrolled.fresh (Nat.le_of_not_lt earlier) within apart
      exact ⟨registration, List.mem_append_right _ (List.mem_singleton_self _), formula, carries,
        part, isPart, stands⟩

/-- A registration goes on record. -/
theorem sound {registration : Registration} {child : NodeId}
    (enrolled : before.Enrolled (registration.root child) formula top after)
    (sound : before.Sound log) (fresh : before.roots.contains registration.condition = false)
    (checked : after.check registration.entry.expression = .ok formula) :
    after.Sound (log ++ [registration]) := by
  have keeps := enrolled.keeps sound fresh
  have carries : after.Carries registration formula :=
    ⟨checked, child, enrolled.root?_eq, enrolled.child⟩
  refine ⟨enrolled.network, enrolled.rooted sound fresh, enrolled.satisfied_iff sound fresh,
    enrolled.registered_iff sound, ?_, ?_, enrolled.needed sound keeps carries⟩
  · rw [List.map_append, List.map_singleton, List.nodup_append]
    refine ⟨sound.once, by simp, ?_⟩
    intro condition member other last same
    rw [List.mem_singleton] at last
    obtain ⟨earlier, isLogged, here⟩ := List.mem_map.1 member
    rw [sound.registered.2 ⟨earlier, isLogged, here.trans (same.trans last)⟩] at fresh
    cases fresh
  · intro other member
    rw [List.mem_append, List.mem_singleton] at member
    rcases member with earlier | rfl
    · obtain ⟨known, carried⟩ := sound.carried other earlier
      exact ⟨known, carried.keep keeps⟩
    · exact ⟨formula, carries⟩

end Enrolled

/-- When a condition is registered, under which id, and what becomes of the engine. -/
theorem register_eq_ok {engine extended : Engine} {entry : ConditionEntry} {id : ConditionId} :
    engine.register entry = .ok (extended, id) ↔
      id = entry.id.getD engine.nextId ∧ engine.roots.contains id = false ∧
        ∃ formula, engine.check entry.expression = .ok formula ∧
          extended = engine.enroll id entry formula := by
  unfold register
  simp only [ite_error_eq_ok, map_eq_ok, Bool.not_eq_true]
  constructor
  · rintro ⟨fresh, formula, checked, same⟩
    cases same
    exact ⟨rfl, fresh, formula, checked, rfl⟩
  · rintro ⟨rfl, fresh, formula, checked, rfl⟩
    exact ⟨fresh, formula, checked, rfl⟩

theorem Sound.register {engine extended : Engine} {log : List Registration}
    (sound : engine.Sound log) {entry : ConditionEntry} {id : ConditionId}
    (registered : engine.register entry = .ok (extended, id)) :
    extended.Sound (log ++ [⟨id, entry⟩]) := by
  obtain ⟨_, fresh, formula, checked, rfl⟩ := register_eq_ok.1 registered
  obtain ⟨child, top, enrolled⟩ := enrolled sound checked
  obtain ⟨expr, parsed, tests⟩ := check_eq_ok.1 checked
  refine enrolled.sound sound fresh (check_eq_ok.2 ⟨expr, parsed, ?_⟩)
  exact Formula.ofExpr_of_extends (Sensors.extends_of_type?_eq enrolled.type) tests

end Engine

end Tripwire
