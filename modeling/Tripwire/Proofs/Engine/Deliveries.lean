import Tripwire.Proofs.Engine.Soundness
import Tripwire.Proofs.Network.Delivery

/-!
# Deliveries to engines

After a delivery the satisfied conditions are again those whose roots hold, and what is
reported are the conditions that turned, each once, with what they were registered with.
-/

namespace Tripwire

namespace Engine

/-- The conditions that a delivery reports are those that it turned. -/
structure Reports (before after : Engine) (log : List Registration) (outcome : Outcome) :
    Prop where
  firedOnce : (outcome.fired.map Fired.condition).Nodup
  clearedOnce : outcome.cleared.Nodup
  fired : ∀ condition, condition ∈ outcome.fired.map Fired.condition ↔
    before.isSatisfied condition = false ∧ after.isSatisfied condition = true
  cleared : ∀ condition, condition ∈ outcome.cleared ↔
    before.isSatisfied condition = true ∧ after.isSatisfied condition = false
  carried : ∀ fired ∈ outcome.fired, ∃ registration ∈ log,
    fired = ⟨registration.condition, registration.entry.name, registration.entry.actions⟩

/-! ## Following transitions -/

theorem contains_follow (satisfied : Table ConditionId Unit) (transition : Transition)
    (condition : ConditionId) :
    (follow satisfied transition).contains condition =
      if transition.root.condition = condition then transition.rising
      else satisfied.contains condition := by
  rw [Bool.eq_iff_iff]
  unfold follow
  cases transition.rising with
  | true =>
      rw [if_pos rfl, Table.contains_insert]
      by_cases here : transition.root.condition = condition <;> simp [here]
  | false =>
      rw [if_neg Bool.false_ne_true, Table.contains_erase]
      by_cases here : transition.root.condition = condition
      · simp [here]
      · simp [here, Ne.symm here]

theorem foldl_follow_of_absent (transitions : List Transition) {satisfied : Table ConditionId Unit}
    {condition : ConditionId}
    (absent : ∀ transition ∈ transitions, transition.root.condition ≠ condition) :
    (transitions.foldl follow satisfied).contains condition = satisfied.contains condition := by
  induction transitions generalizing satisfied with
  | nil => rfl
  | cons first rest ih =>
      rw [List.foldl_cons, ih fun other member => absent other (.tail _ member), contains_follow,
        if_neg (absent first List.mem_cons_self)]

theorem foldl_follow_of_mem {transitions : List Transition} {satisfied : Table ConditionId Unit}
    (once : (transitions.map (·.root.condition)).Nodup) {transition : Transition}
    (member : transition ∈ transitions) :
    (transitions.foldl follow satisfied).contains transition.root.condition =
      transition.rising := by
  induction transitions generalizing satisfied with
  | nil => cases member
  | cons first rest ih =>
      rw [List.map_cons, List.nodup_cons] at once
      rw [List.foldl_cons]
      rcases List.mem_cons.1 member with rfl | inRest
      · rw [foldl_follow_of_absent, contains_follow, if_pos rfl]
        intro other isOther same
        exact once.1 (List.mem_map.2 ⟨other, isOther, same⟩)
      · exact ih once.2 inRest

/-! ## How a condition stands -/

section

variable {engine : Engine} {log : List Registration}

theorem Sound.isSatisfied_eq (sound : engine.Sound log) (condition : ConditionId) :
    engine.isSatisfied condition = (engine.roots.get? condition).any engine.graph.status := by
  rw [Bool.eq_iff_iff, sound.satisfied, Option.any_eq_true]

/-- A condition is satisfied exactly if the node below its root holds. -/
theorem Sound.isSatisfied_eq_status (sound : engine.Sound log) {condition : ConditionId}
    {root : Root} (found : engine.root? condition = some root) :
    engine.isSatisfied condition = engine.graph.status root.child := by
  obtain ⟨id, rooted, top⟩ := root?_eq_some.1 found
  rw [sound.isSatisfied_eq, rooted, Option.any_some, Graph.status_of_root sound.network.settled top]

/-- A condition is satisfied exactly if its formula holds of what the nodes of tests say. -/
theorem Sound.isSatisfied_eq_of_tests (sound : engine.Sound log) {registration : Registration}
    {formula : Formula} (carries : engine.Carries registration formula)
    {truth : Predicate → Bool}
    (tests : ∀ {id predicate}, engine.graph.predicate? id = some predicate →
      engine.graph.status id = truth predicate) :
    engine.isSatisfied registration.condition = formula.holds truth := by
  obtain ⟨child, found, stands⟩ := carries.root
  obtain ⟨known, here, same⟩ := Option.map_eq_some_iff.1 stands.form
  calc engine.isSatisfied registration.condition
      = engine.graph.status child := sound.isSatisfied_eq_status found
    _ = known.holds truth :=
        Graph.status_eq_holds sound.network.linked sound.network.settled tests here
    _ = formula.holds truth := Formula.holds_eq_of_canonical_eq _ same

end

/-! ## One delivery -/

section

variable {engine : Engine} {log : List Registration} {network : Network} {sensor : SensorId}
  {field : String} {value : Value} {transitions : List Transition}

/-- The engine after a delivery that took the network to another. -/
def following (engine : Engine) (network : Network) (transitions : List Transition) : Engine :=
  { engine with
    toNetwork := network
    satisfied := transitions.foldl follow engine.satisfied }

theorem Sound.once_delivered (sound : engine.Sound log)
    (delivered : engine.toNetwork.Delivered sensor field value network transitions) :
    (transitions.map (·.root.condition)).Nodup := by
  refine delivered.once fun {id other root top} found also same => ?_
  have here := sound.rooted.2 ⟨root, found, rfl⟩
  have there := sound.rooted.2 ⟨top, also, rfl⟩
  rw [same, there, Option.some.injEq] at here
  exact here.symm

/-- A condition has a transition if its root turned. -/
theorem Sound.exists_transition_iff (sound : engine.Sound log)
    (delivered : engine.toNetwork.Delivered sensor field value network transitions)
    {condition : ConditionId} {rising : Bool} :
    (∃ transition ∈ transitions,
        transition.root.condition = condition ∧ transition.rising = rising) ↔
      ∃ id, engine.roots.get? condition = some id ∧ network.graph.status id = rising ∧
        engine.graph.status id = !rising := by
  constructor
  · rintro ⟨transition, member, rfl, rfl⟩
    obtain ⟨id, found, after, before⟩ := (delivered.transition transition).1 member
    exact ⟨id, sound.rooted.2 ⟨_, found, rfl⟩, after, before⟩
  · rintro ⟨id, rooted, after, before⟩
    obtain ⟨root, found, rfl⟩ := sound.rooted.1 rooted
    exact ⟨⟨root, rising⟩, (delivered.transition _).2 ⟨id, found, after, before⟩, rfl, rfl⟩

/-- After a delivery a condition is satisfied exactly if its root holds. -/
theorem Sound.isSatisfied_following (sound : engine.Sound log)
    (delivered : engine.toNetwork.Delivered sensor field value network transitions)
    (condition : ConditionId) :
    (engine.following network transitions).isSatisfied condition =
      (engine.roots.get? condition).any network.graph.status := by
  change (transitions.foldl follow engine.satisfied).contains condition = _
  by_cases turned : ∃ transition ∈ transitions, transition.root.condition = condition
  · obtain ⟨transition, member, rfl⟩ := turned
    obtain ⟨id, rooted, after, _⟩ :=
      (sound.exists_transition_iff delivered).1 ⟨transition, member, rfl, rfl⟩
    rw [foldl_follow_of_mem (sound.once_delivered delivered) member, rooted, Option.any_some,
      after]
  · have absent : ∀ transition ∈ transitions, transition.root.condition ≠ condition :=
      fun transition member same => turned ⟨transition, member, same⟩
    rw [foldl_follow_of_absent transitions absent]
    change engine.isSatisfied condition = _
    rw [sound.isSatisfied_eq]
    cases rooted : engine.roots.get? condition with
    | none => rfl
    | some id =>
        rw [Option.any_some, Option.any_some]
        apply Classical.byContradiction
        intro moved
        obtain ⟨transition, member, same, _⟩ := (sound.exists_transition_iff delivered).2
          ⟨id, rooted, rfl, Bool.eq_not.2 moved⟩
        exact absent transition member same

/-- The conditions with a transition are those that turned. -/
theorem Sound.turned_iff (sound : engine.Sound log)
    (delivered : engine.toNetwork.Delivered sensor field value network transitions)
    (condition : ConditionId) (rising : Bool) :
    (∃ transition ∈ transitions,
        transition.root.condition = condition ∧ transition.rising = rising) ↔
      engine.isSatisfied condition = !rising ∧
        (engine.following network transitions).isSatisfied condition = rising := by
  rw [sound.exists_transition_iff delivered, sound.isSatisfied_eq,
    sound.isSatisfied_following delivered]
  cases engine.roots.get? condition with
  | none => cases rising <;> simp
  | some id => simp [and_comm]

theorem Sound.keeps_following (sound : engine.Sound log)
    (delivered : engine.toNetwork.Delivered sensor field value network transitions) :
    engine.Keeps (engine.following network transitions) where
  sensors := Sensors.extends_of_type?_eq delivered.type?_eq
  root := by
    intro condition root found
    obtain ⟨id, rooted, there⟩ := root?_eq_some.1 found
    refine root?_eq_some.2 ⟨id, rooted, ?_⟩
    rw [← Graph.root?_of_frame_eq delivered.frame] at there
    exact there
  stands stands := by
    constructor
    · have inner := stands.inner
      rw [← Graph.root?_of_frame_eq delivered.frame] at inner
      exact inner
    · rw [← stands.form]
      exact Graph.form?_of_frame_eq delivered.frame sound.network.linked _

theorem Sound.following (sound : engine.Sound log)
    (delivered : engine.toNetwork.Delivered sensor field value network transitions)
    (settled : network.Sound) : (engine.following network transitions).Sound log := by
  have keeps := sound.keeps_following delivered
  have roots : ∀ id, network.graph.root? id = engine.graph.root? id := by
    intro id
    rw [Graph.root?_of_frame_eq delivered.frame]
  refine ⟨settled, ?_, ?_, sound.registered, sound.once, ?_, ?_⟩
  · intro condition id
    change engine.roots.get? condition = some id ↔
      ∃ root, network.graph.root? id = some root ∧ root.condition = condition
    rw [roots]
    exact sound.rooted
  · intro condition
    rw [sound.isSatisfied_following delivered, Option.any_eq_true]
    rfl
  · intro registration member
    obtain ⟨formula, carried⟩ := sound.carried registration member
    exact ⟨formula, carried.keep keeps⟩
  · intro id within inner
    change id < network.graph.size at within
    change network.graph.root? id = none at inner
    rw [roots] at inner
    rw [Graph.size_of_frame_eq delivered.frame] at within
    obtain ⟨registration, member, formula, carried, part, isPart, stands⟩ :=
      sound.needed within inner
    exact ⟨registration, member, formula, carried.keep keeps, part, isPart,
      keeps.stands stands⟩

/-- What a condition was registered with is what its root carries. -/
theorem Sound.exists_registration (sound : engine.Sound log) {id : NodeId} {root : Root}
    (found : engine.graph.root? id = some root) :
    ∃ registration ∈ log, root = registration.root root.child := by
  have rooted := sound.rooted.2 ⟨root, found, rfl⟩
  obtain ⟨registration, member, same⟩ :=
    sound.registered.1 (contains_iff.2 ⟨id, rooted⟩)
  obtain ⟨formula, carried⟩ := sound.carried registration member
  obtain ⟨child, known, _⟩ := carried.root
  rw [same, root?_eq_some.2 ⟨id, rooted, found⟩, Option.some.injEq] at known
  refine ⟨registration, member, ?_⟩
  rw [known]
  rfl

theorem Sound.reports (sound : engine.Sound log) {effect : Network.Effect}
    (delivered : engine.toNetwork.Delivered sensor field value network effect.transitions) :
    engine.Reports (engine.following network effect.transitions) log (outcomeOf effect) := by
  have once := sound.once_delivered delivered
  have fired : (outcomeOf effect).fired.map Fired.condition =
      (effect.transitions.filter (·.rising)).map (·.root.condition) := by
    rw [outcomeOf, List.map_map]
    rfl
  refine ⟨?_, once.sublist (List.filter_sublist.map _), ?_, ?_, ?_⟩
  · rw [fired]
    exact once.sublist (List.filter_sublist.map _)
  · intro condition
    rw [fired, List.mem_map]
    refine Iff.trans ?_ (sound.turned_iff delivered condition true)
    simp only [List.mem_filter]
    constructor
    · rintro ⟨transition, ⟨member, rising⟩, here⟩
      exact ⟨transition, member, here, rising⟩
    · rintro ⟨transition, member, here, rising⟩
      exact ⟨transition, ⟨member, rising⟩, here⟩
  · intro condition
    rw [outcomeOf, List.mem_map]
    refine Iff.trans ?_ (sound.turned_iff delivered condition false)
    simp only [List.mem_filter, Bool.not_eq_true']
    constructor
    · rintro ⟨transition, ⟨member, falling⟩, here⟩
      exact ⟨transition, member, here, falling⟩
    · rintro ⟨transition, member, here, falling⟩
      exact ⟨transition, ⟨member, falling⟩, here⟩
  · intro fired member
    obtain ⟨transition, among, rfl⟩ := List.mem_map.1 member
    obtain ⟨id, found, _⟩ := (delivered.transition transition).1 (List.mem_filter.1 among).1
    obtain ⟨registration, isLogged, same⟩ := sound.exists_registration found
    refine ⟨registration, isLogged, ?_⟩
    rw [same]
    rfl

end

/-- A delivery keeps an engine sound and reports what it turns. -/
theorem Sound.deliver {engine : Engine} {log : List Registration} (sound : engine.Sound log)
    (sensor : SensorId) (field : String) (value : Value) :
    (engine.deliver sensor field value).engine.Sound log ∧
      engine.Reports (engine.deliver sensor field value).engine log
        (engine.deliver sensor field value).outcome := by
  cases found : engine.sensors.field? sensor field with
  | none =>
      have still : engine.deliver sensor field value =
          ⟨engine, .empty, [.unknownField sensor field]⟩ := by
        unfold Engine.deliver
        rw [Network.deliver_of_undeclared found]
        rfl
      rw [still]
      refine ⟨sound, .nil, .nil, ?_, ?_, ?_⟩
      · intro condition
        simp [Outcome.empty]
      · intro condition
        simp [Outcome.empty]
      · intro fired member
        cases member
  | some declared =>
      have delivered := sound.network.delivered found value
      have settled := sound.network.deliver sensor field value
      exact ⟨sound.following delivered settled, sound.reports delivered⟩

end Engine

end Tripwire
