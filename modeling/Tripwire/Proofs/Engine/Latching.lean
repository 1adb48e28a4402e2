import Tripwire.Proofs.Engine.Requests

/-!
# Tests keep what they told last

A test stands as it told of the latest value on which it told anything. What it has met is the value
that its field had when its node was made and every value delivered to the field since, of whatever
type: neither a value on which it is silent, nor a registration that shares it, nor a delivery to
another field moves it. Everything above the tests stands as it follows from them.
-/

namespace Tripwire

namespace Predicate

/-- What a test told of the latest value on which it told anything; before, it does not hold. -/
def latched (predicate : Predicate) (values : List Value) : Bool :=
  predicate.statusAfter false values

theorem latched_toList (predicate : Predicate) (value? : Option Value) :
    predicate.latched value?.toList = (value?.bind predicate.test).getD false := by
  cases value? with
  | none => rfl
  | some value => exact predicate.statusAfter_singleton false value

end Predicate

namespace Engine

variable {engine : Engine}

/-! ## Histories of tests -/

/-- The latest value of the field that a node tests. -/
def stored (engine : Engine) (id : NodeId) : List Value :=
  match engine.graph.predicate? id with
  | some predicate => (engine.sensors.value? predicate.sensor predicate.field).toList
  | none => []

/-- What each node has met after a request: what it had met and what the request delivers to its
field. A new node has met the value that its field has; what adds it delivers nothing. -/
def met (engine : Engine) (seen : NodeId → List Value) (request : Request) (id : NodeId) :
    List Value :=
  if id < engine.graph.size then
    seen id ++
      match engine.graph.predicate? id with
      | some predicate => request.valuesTo predicate.sensor predicate.field
      | none => []
  else (engine.handle request).stored id

/-- The engines that come of requests to an empty or a loaded one, each with the values that its
nodes have met. -/
inductive Observed : Engine → (NodeId → List Value) → Prop where
  | empty : Observed Engine.empty Engine.empty.stored
  | load {config : Config} {engine : Engine} {report : Report}
      (loaded : Engine.load config = .ok (engine, report)) : Observed engine engine.stored
  | handle {engine : Engine} {seen : NodeId → List Value} (observed : Observed engine seen)
      (request : Request) : Observed (engine.handle request) (engine.met seen request)

/-- Every engine that can be reached has met some values. -/
theorem Reachable.observed (reached : Reachable engine) : ∃ seen, Observed engine seen := by
  induction reached with
  | empty => exact ⟨_, .empty⟩
  | load loaded => exact ⟨_, .load loaded⟩
  | handle reached request ih =>
      obtain ⟨seen, observed⟩ := ih
      exact ⟨_, observed.handle request⟩

theorem Observed.reachable {seen : NodeId → List Value} (observed : Observed engine seen) :
    Reachable engine := by
  induction observed with
  | empty => exact .empty
  | load loaded => exact .load loaded
  | handle observed request ih => exact ih.handle request

/-- What each node has met after requests in turn. -/
def metAll (engine : Engine) (seen : NodeId → List Value) : List Request → NodeId → List Value
  | [] => seen
  | request :: rest => (engine.handle request).metAll (engine.met seen request) rest

theorem Observed.handleAll (requests : List Request) {engine : Engine}
    {seen : NodeId → List Value} (observed : Observed engine seen) :
    Observed (engine.handleAll requests) (engine.metAll seen requests) := by
  induction requests generalizing engine seen with
  | nil => exact observed
  | cons request rest ih => exact ih (observed.handle request)

theorem stored_eq {id : NodeId} {predicate : Predicate}
    (found : engine.graph.predicate? id = some predicate) :
    engine.stored id =
      (engine.sensors.value? predicate.sensor predicate.field).toList := by
  unfold stored
  rw [found]

theorem latched_stored {id : NodeId} {predicate : Predicate}
    (found : engine.graph.predicate? id = some predicate) :
    predicate.latched (engine.stored id) = engine.current predicate := by
  rw [stored_eq found]
  exact predicate.latched_toList _

/-- Every test stands as it told of the latest value on which it told anything. -/
theorem Observed.status_eq {seen : NodeId → List Value} (observed : Observed engine seen)
    {id : NodeId} {predicate : Predicate}
    (found : engine.graph.predicate? id = some predicate) :
    engine.graph.status id = predicate.latched (seen id) := by
  induction observed generalizing id predicate with
  | empty => exact (Network.faithful_empty.current found).trans (latched_stored found).symm
  | load loaded => rw [latched_stored found, (faithful_of_load loaded).current found]
  | @handle engine seen observed request ih =>
      obtain ⟨log, recorded⟩ := observed.reachable.recorded
      unfold met
      split
      case isTrue within =>
        rw [recorded.sound.predicate?_handle request within] at found
        rw [recorded.sound.status_handle request found, found, Predicate.latched,
          Predicate.statusAfter_append, ← Predicate.latched, ih found]
      case isFalse beyond =>
        rw [latched_stored found]
        exact recorded.sound.seeded_handle request (Nat.le_of_not_lt beyond) found

/-- What a test met last is the latest value of its field. -/
theorem Observed.getLast?_eq {seen : NodeId → List Value} (observed : Observed engine seen)
    {id : NodeId} {predicate : Predicate}
    (found : engine.graph.predicate? id = some predicate) :
    (seen id).getLast? = engine.sensors.value? predicate.sensor predicate.field := by
  have last {engine : Engine} {id : NodeId} {predicate : Predicate}
      (found : engine.graph.predicate? id = some predicate) :
      (engine.stored id).getLast? = engine.sensors.value? predicate.sensor predicate.field := by
    rw [stored_eq found]
    cases engine.sensors.value? predicate.sensor predicate.field <;> rfl
  induction observed generalizing id predicate with
  | empty | load => exact last found
  | @handle engine seen observed request ih =>
      obtain ⟨log, recorded⟩ := observed.reachable.recorded
      unfold met
      split
      case isTrue within =>
        rw [recorded.sound.predicate?_handle request within] at found
        rw [found, recorded.sound.value?_handle request (recorded.sound.network.typed found),
          List.getLast?_append, ih found]
      case isFalse => exact last found

/-- A test that tells anything of the latest value of its field stands as it tells. -/
theorem Reachable.status_of_told (reached : Reachable engine) {id : NodeId}
    {predicate : Predicate} (found : engine.graph.predicate? id = some predicate)
    {status : Bool}
    (told : (engine.sensors.value? predicate.sensor predicate.field).bind predicate.test =
      some status) : engine.graph.status id = status := by
  obtain ⟨seen, observed⟩ := reached.observed
  rw [← observed.getLast?_eq found] at told
  obtain ⟨value, last, here⟩ := Option.bind_eq_some_iff.1 told
  obtain ⟨earlier, split⟩ := List.getLast?_eq_some_iff.1 last
  rw [observed.status_eq found, split, Predicate.latched, Predicate.statusAfter_append,
    Predicate.statusAfter_singleton, here, Option.getD_some]

/-- What the tests tell of what their nodes have met. -/
def truthOf (engine : Engine) (seen : NodeId → List Value) (predicate : Predicate) : Bool :=
  (engine.graph.findTest? predicate).any fun id => predicate.latched (seen id)

/-- Tests latch what they tell of the values that they meet, and all nodes above stand as it
follows from them. -/
structure Latching (engine : Engine) (seen : NodeId → List Value) : Prop where
  test : ∀ {id predicate}, engine.graph.predicate? id = some predicate →
    engine.graph.status id = predicate.latched (seen id)
  group : ∀ {id junction children}, engine.graph.group? id = some (junction, children) →
    engine.graph.status id = junction.combine (children.map engine.graph.status)
  root : ∀ {id root}, engine.graph.root? id = some root →
    engine.graph.status id = engine.graph.status root.child
  above : ∀ {id}, id < engine.graph.size → ∃ formula, engine.graph.formula? id = some formula ∧
    engine.graph.status id = formula.holds (engine.truthOf seen)
  kept : ∀ request {id predicate}, engine.graph.predicate? id = some predicate →
    (∀ value ∈ request.valuesTo predicate.sensor predicate.field, predicate.test value = none) →
      (engine.handle request).graph.predicate? id = some predicate ∧
        (engine.handle request).graph.status id = engine.graph.status id

/-- Whatever was asked of an engine, its tests latch what they have met. -/
theorem Reachable.latching (reached : Reachable engine) :
    (∃ seen, Observed engine seen) ∧ ∀ seen, Observed engine seen → engine.Latching seen := by
  refine ⟨reached.observed, fun seen observed => ?_⟩
  obtain ⟨log, recorded⟩ := reached.recorded
  have network := recorded.sound.network
  constructor
  case test => exact observed.status_eq
  case group => exact Graph.status_of_group network.settled
  case root => exact Graph.status_of_root network.settled
  case above =>
    intro id within
    obtain ⟨formula, found⟩ := Graph.exists_formula network.linked within
    refine ⟨formula, found, Graph.status_eq_holds network.linked network.settled ?_ found⟩
    intro node predicate test
    rw [observed.status_eq test, truthOf, network.distinct.findTest?_eq test,
      Option.any_some]
  case kept =>
    intro request id predicate found silent
    constructor
    · rw [recorded.sound.predicate?_handle request (Graph.lt_size_of_predicate? found), found]
    · rw [recorded.sound.status_handle request found, Predicate.statusAfter_of_silent _ _ silent]

theorem latching_samples :
    Reachable (empty.handleAll samples) ∧
      (empty.handleAll samples).Latching (empty.metAll empty.stored samples) ∧
        empty.metAll empty.stored samples 0 = [.unsigned 7, .text "hot", .unsigned 3] ∧
          empty.metAll empty.stored samples 2 = [.unsigned 7, .text "hot", .unsigned 3] ∧
            (empty.handleAll samples).graph.status 0 = false ∧
              (empty.handleAll samples).graph.status 2 = true := by
  have reached := Reachable.empty.handleAll samples
  exact ⟨reached, reached.latching.2 _ (Observed.empty.handleAll samples), by decide +kernel,
    by decide +kernel, by decide +kernel, by decide +kernel⟩

end Engine

end Tripwire
