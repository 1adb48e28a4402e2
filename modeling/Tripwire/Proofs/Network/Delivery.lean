import Tripwire.Proofs.Network.Soundness
import Tripwire.Proofs.Wave.Overwriting

/-!
# Deliveries

A delivery tests the watchers of a field again: each that says something of the value takes
what it says as its status, and all others keep theirs. Then the graph comes to rest, and the
transitions are the net changes of the roots.
-/

namespace Tripwire

namespace Network

/-! ## Testing the watchers -/

/-- The watchers tested so far, and what became of them. -/
structure Examined (before : Graph) (value : Value) (seen : List NodeId)
    (progress : Examination) : Prop where
  frame : progress.graph.frame = before.frame
  unseen : ∀ {id}, id ∉ seen → progress.graph.node? id = before.node? id
  status : ∀ {id predicate}, id ∈ seen → before.predicate? id = some predicate →
    progress.graph.status id = (predicate.test value).getD (before.status id)
  changes : ∀ change, change ∈ progress.changes ↔
    change.node ∈ seen ∧ progress.graph.status change.node = change.rising ∧
      before.status change.node = !change.rising
  distinct : (progress.changes.map Change.node).Nodup

namespace Examined

variable {before : Graph} {value : Value} {seen : List NodeId} {progress : Examination}
  {sensor : SensorId} {field : String} {id : NodeId} {predicate : Predicate}

theorem start (graph : Graph) (value : Value) :
    Examined graph value [] ⟨graph, 0, [], []⟩ where
  frame := rfl
  unseen _ := rfl
  status member := by cases member
  changes change := by simp
  distinct := List.nodup_nil

theorem status_of_unseen (examined : Examined before value seen progress) (unseen : id ∉ seen) :
    progress.graph.status id = before.status id := by
  rw [Graph.status, examined.unseen unseen, ← Graph.status]

/-- A watcher whose status stays as it was is not among the changes. -/
theorem keep (examined : Examined before value seen progress) (fresh : id ∉ seen)
    (test : before.predicate? id = some predicate)
    (keeps : (predicate.test value).getD (before.status id) = before.status id)
    {next : Examination} (graph : next.graph = progress.graph)
    (changes : next.changes = progress.changes) :
    Examined before value (seen ++ [id]) next where
  frame := by rw [graph]; exact examined.frame
  unseen absent := by
    rw [graph]
    exact examined.unseen fun member => absent (List.mem_append_left _ member)
  status := by
    intro other known member found
    rw [graph]
    rcases List.mem_append.1 member with older | last
    · exact examined.status older found
    · rw [List.mem_singleton.1 last] at found ⊢
      rw [test, Option.some.injEq] at found
      rw [← found, keeps, examined.status_of_unseen fresh]
  changes change := by
    rw [graph, changes, examined.changes, List.mem_append, List.mem_singleton]
    constructor
    · rintro ⟨older, moved⟩
      exact ⟨Or.inl older, moved⟩
    · rintro ⟨older | last, after, earlier⟩
      · exact ⟨older, after, earlier⟩
      · subst last
        rw [examined.status_of_unseen fresh, earlier] at after
        cases rising : change.rising <;> simp [rising] at after
  distinct := by rw [changes]; exact examined.distinct

/-- A watcher that takes another status is the latest change. -/
theorem turn (examined : Examined before value seen progress) (fresh : id ∉ seen)
    (test : before.predicate? id = some predicate) {node : Node}
    (found : progress.graph.node? id = some node) {status : Bool}
    (told : predicate.test value = some status) (moved : status ≠ node.status)
    {next : Examination}
    (graph : next.graph = progress.graph.modify id fun node => { node with status })
    (changes : next.changes = ⟨id, status⟩ :: progress.changes) :
    Examined before value (seen ++ [id]) next := by
  have earlier : before.status id = node.status := by
    rw [examined.unseen fresh] at found
    exact Graph.status_of_node? found
  have elsewhere : ∀ {other}, other ≠ id →
      next.graph.node? other = progress.graph.node? other := by
    intro other apart
    rw [graph, Graph.node?_modify, if_neg (Ne.symm apart)]
  have older : ∀ {other}, other ∈ seen →
      next.graph.status other = progress.graph.status other := by
    intro other member
    rw [Graph.status, elsewhere fun same => fresh (same ▸ member), ← Graph.status]
  have here : next.graph.status id = status := by
    rw [graph, Graph.status, Graph.node?_modify, if_pos rfl, found]
    rfl
  refine ⟨?_, ?_, ?_, ?_, ?_⟩
  · rw [graph, Graph.frame_modify _ _ _ fun node _ => node.frame_setStatus status]
    exact examined.frame
  · intro other absent
    rw [List.mem_append, List.mem_singleton, not_or] at absent
    rw [elsewhere absent.2, examined.unseen absent.1]
  · intro other known member there
    rcases List.mem_append.1 member with known | last
    · rw [older known]
      exact examined.status known there
    · rw [List.mem_singleton.1 last] at there ⊢
      rw [test, Option.some.injEq] at there
      rw [here, ← there, told, Option.getD_some]
  · intro change
    rw [changes, List.mem_cons, examined.changes, List.mem_append, List.mem_singleton]
    constructor
    · rintro (same | ⟨known, after, was⟩)
      · subst same
        exact ⟨Or.inr rfl, here, by rw [earlier]; exact Bool.eq_not.2 (Ne.symm moved)⟩
      · exact ⟨Or.inl known, (older known).trans after, was⟩
    · rintro ⟨known | last, after, was⟩
      · exact Or.inr ⟨known, (older known).symm.trans after, was⟩
      · obtain ⟨node, rising⟩ := change
        simp only at last after
        subst last
        rw [here] at after
        exact Or.inl (by rw [after])
  · rw [changes, List.map_cons, List.nodup_cons]
    refine ⟨?_, examined.distinct⟩
    intro member
    obtain ⟨change, known, same⟩ := List.mem_map.1 member
    have here : change.node = id := same
    exact fresh (here ▸ ((examined.changes change).1 known).1)

/-- Testing one more watcher. -/
theorem examine (examined : Examined before value seen progress) (fresh : id ∉ seen)
    (test : before.predicate? id = some predicate) :
    Examined before value (seen ++ [id]) (examine sensor field value progress id) := by
  obtain ⟨node, found, tests⟩ := Option.bind_eq_some_iff.1 test
  have here : progress.graph.node? id = some node := by rw [examined.unseen fresh, found]
  have earlier : before.status id = node.status := Graph.status_of_node? found
  cases told : predicate.test value with
  | none =>
      refine examined.keep fresh test (by rw [told]; rfl) ?_ ?_
      all_goals simp [Network.examine, here, tests, told]
  | some status =>
      by_cases same : status = node.status
      · refine examined.keep fresh test (by rw [told, earlier, same]; rfl) ?_ ?_
        all_goals simp [Network.examine, here, tests, told, same]
      · refine examined.turn fresh test here told same ?_ ?_
        all_goals simp [Network.examine, here, tests, told, same]

theorem examineAll (ids : List NodeId) {seen : List NodeId} {progress : Examination}
    (examined : Examined before value seen progress) (distinct : (seen ++ ids).Nodup)
    (tests : ∀ id ∈ ids, ∃ predicate, before.predicate? id = some predicate) :
    Examined before value (seen ++ ids)
      (ids.foldl (Network.examine sensor field value) progress) := by
  induction ids generalizing seen progress with
  | nil => simpa using examined
  | cons id ids ih =>
      obtain ⟨predicate, test⟩ := tests id List.mem_cons_self
      have split : seen ++ id :: ids = (seen ++ [id]) ++ ids := by simp
      rw [split] at distinct ⊢
      have fresh : id ∉ seen := by
        intro member
        rw [List.append_assoc, List.nodup_append] at distinct
        exact distinct.2.2 id member id (by simp) rfl
      exact ih (examined.examine fresh test) distinct fun other member =>
        tests other (List.mem_cons_of_mem _ member)

/-- The changes are the tests that stand otherwise than before. -/
theorem overwritten (examined : Examined before value seen progress)
    (tests : ∀ id ∈ seen, ∃ predicate, before.predicate? id = some predicate) :
    before.Overwritten progress.graph progress.changes where
  frame := examined.frame
  inner notTest := by
    refine examined.unseen fun member => ?_
    obtain ⟨predicate, test⟩ := tests _ member
    rw [notTest] at test
    cases test
  listed change := by
    rw [examined.changes]
    refine and_congr_left fun ⟨after, earlier⟩ => ⟨tests change.node, fun _ => ?_⟩
    apply Classical.byContradiction
    intro unseen
    rw [examined.status_of_unseen unseen] at after
    exact Bool.eq_not.1 earlier after
  distinct := examined.distinct

end Examined

/-! ## The whole delivery -/

/-- What a delivery to a declared field makes of a network. -/
structure Delivered (before : Network) (sensor : SensorId) (field : String) (value : Value)
    (after : Network) (transitions : List Transition) : Prop where
  sensors : after.sensors =
    before.sensors.modifyField sensor field fun field => { field with value := some value }
  frame : after.graph.frame = before.graph.frame
  settled : after.graph.Settled
  test : ∀ {id predicate}, before.graph.predicate? id = some predicate →
    after.graph.status id =
      if predicate.isOn sensor field then (predicate.test value).getD (before.graph.status id)
      else before.graph.status id
  transition : ∀ transition, transition ∈ transitions ↔
    ∃ id, before.graph.root? id = some transition.root ∧
      after.graph.status id = transition.rising ∧
      before.graph.status id = !transition.rising
  once : (∀ {id other root top}, before.graph.root? id = some root →
      before.graph.root? other = some top → root.condition = top.condition → id = other) →
    (transitions.map (·.root.condition)).Nodup

theorem Delivered.type?_eq {before after : Network} {sensor : SensorId} {field : String}
    {value : Value} {transitions : List Transition}
    (delivered : before.Delivered sensor field value after transitions) :
    after.sensors.type? = before.sensors.type? := by
  rw [delivered.sensors]
  exact before.sensors.type?_modifyField sensor field fun _ => rfl

/-- Once its watchers are tested, a delivery only has to come to rest. -/
theorem Examined.delivered {network : Network} (sound : network.Sound) {sensor : SensorId}
    {field : String} {value : Value} {progress : Examination}
    (examined : Examined network.graph value (network.graph.testsOn sensor field) progress) :
    network.Delivered sensor field value
      ⟨network.sensors.modifyField sensor field fun field => { field with value := some value },
        (progress.graph.settle progress.changes).graph⟩
      (progress.graph.settle progress.changes).transitions := by
  have overwritten := examined.overwritten fun _ => Graph.exists_test_of_mem_testsOn
  have remembers := Graph.settle_remembers progress.graph progress.changes
  have predicates := Graph.predicate?_of_frame_eq examined.frame
  have roots := Graph.root?_of_frame_eq examined.frame
  have unmoved : ∀ {id root}, network.graph.root? id = some root →
      progress.graph.status id = network.graph.status id := by
    intro id root found
    exact overwritten.status_of_inner (Graph.predicate?_of_root? found)
  refine ⟨rfl, remembers.frame.trans examined.frame, ?_, ?_, ?_, ?_⟩
  · have linked := sound.linked.of_frame_eq examined.frame.symm
    exact Graph.settle_settled (overwritten.poised sound.linked.toPaired sound.settled)
      linked.shared
  · intro id predicate found
    rw [remembers.test (by rw [predicates, found])]
    split
    case isTrue here =>
      have member : id ∈ network.graph.testsOn sensor field :=
        Graph.mem_testsOn.2 ⟨predicate, found, by simpa [Predicate.isOn] using here⟩
      exact examined.status member found
    case isFalse elsewhere =>
      refine examined.status_of_unseen fun member => ?_
      obtain ⟨other, test, here⟩ := Graph.mem_testsOn.1 member
      rw [found, Option.some.injEq] at test
      exact elsewhere (by simpa [Predicate.isOn, test] using here)
  · intro transition
    rw [remembers.mem_transitions_iff]
    refine exists_congr fun id => ?_
    rw [roots]
    refine and_congr_right fun found => ?_
    rw [unmoved found]
  · intro unique
    refine remembers.transitions_distinct fun {id other root top} found also => ?_
    rw [roots] at found also
    exact unique found also

theorem deliver_of_undeclared {network : Network} {sensor : SensorId} {field : String}
    (undeclared : network.sensors.field? sensor field = none) (value : Value) :
    network.deliver sensor field value =
      (network, ⟨0, 0, [], [.unknownField sensor field]⟩) := by
  simp [deliver, undeclared]

/-- The tests of a field, each tested once. -/
theorem examined (network : Network) (sensor : SensorId) (field : String) (value : Value) :
    Examined network.graph value (network.graph.testsOn sensor field)
      ((network.graph.testsOn sensor field).foldl (Network.examine sensor field value)
        ⟨network.graph, 0, [], []⟩) := by
  have distinct : ([] ++ network.graph.testsOn sensor field).Nodup :=
    Graph.testsOn_nodup _ _ _
  exact (Examined.start network.graph value).examineAll _ distinct
    fun _ => Graph.exists_test_of_mem_testsOn

theorem Sound.delivered {network : Network} (sound : network.Sound) {sensor : SensorId}
    {field : String} {declared : Field}
    (found : network.sensors.field? sensor field = some declared) (value : Value) :
    network.Delivered sensor field value (network.deliver sensor field value).1
      (network.deliver sensor field value).2.transitions := by
  have delivered := Examined.delivered sound (network.examined sensor field value)
  unfold deliver
  rw [found]
  simp only [sound.watched found]
  exact delivered

theorem contains_deliver (network : Network) (sensor : SensorId) (field : String) (value : Value)
    (id : SensorId) :
    (network.deliver sensor field value).1.sensors.contains id = network.sensors.contains id := by
  unfold deliver
  split
  case h_1 => rfl
  case h_2 => exact Sensors.contains_modifyField ..

theorem type?_deliver (network : Network) (sensor : SensorId) (field : String) (value : Value) :
    (network.deliver sensor field value).1.sensors.type? = network.sensors.type? := by
  unfold deliver
  split
  case h_1 => rfl
  case h_2 => exact network.sensors.type?_modifyField sensor field fun _ => rfl

theorem name?_deliver (network : Network) (sensor : SensorId) (field : String) (value : Value) :
    (network.deliver sensor field value).1.sensors.name? = network.sensors.name? := by
  unfold deliver
  split
  case h_1 => rfl
  case h_2 => exact network.sensors.name?_modifyField sensor field _

/-- A delivery keeps a network sound. -/
theorem Sound.deliver {network : Network} (sound : network.Sound) (sensor : SensorId)
    (field : String) (value : Value) : (network.deliver sensor field value).1.Sound := by
  cases found : network.sensors.field? sensor field with
  | none =>
      rw [deliver_of_undeclared found]
      exact sound
  | some declared =>
      have delivered := sound.delivered found value
      have frame := delivered.frame
      refine ⟨sound.linked.of_frame_eq frame.symm, delivered.settled,
        sound.distinct.of_frame_eq frame.symm, ?_, ?_⟩
      · intro other name known there
        rw [Graph.testsOn_of_frame_eq frame]
        rw [delivered.sensors, Sensors.field?_modifyField] at there
        split at there
        case isTrue =>
          obtain ⟨earlier, was, rfl⟩ := Option.map_eq_some_iff.1 there
          have watched := sound.watched was
          exact watched
        case isFalse => exact sound.watched there
      · intro id predicate test
        rw [Graph.predicate?_of_frame_eq frame] at test
        rw [Predicate.Typed, delivered.type?_eq]
        exact sound.typed test

end Network

end Tripwire
