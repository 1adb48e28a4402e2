import Tripwire.Proofs.Network.Delivery

/-!
# What an examination tells

Each watcher of a field is asked once of a value. Those that say something of it are counted as
comparisons, and each of the others is an error, in the order of the watchers. Watchers that stand
as they say already are left alone, so that a value which is delivered again finds nothing to do.
-/

namespace Tripwire

namespace Predicate

/-- Whether the test says anything of a value. -/
def speaks (value : Value) (predicate : Predicate) : Bool :=
  (predicate.test value).isSome

/-- The error that the test is if it says nothing of a value delivered to a field. -/
def complaint? (sensor : SensorId) (field : String) (value : Value) (predicate : Predicate) :
    Option Error :=
  if predicate.speaks value then none
  else some (.typeMismatch sensor field predicate.operator predicate.literal.type value.type)

/-- A test either says something of a value or complains. -/
theorem isSome_complaint? (sensor : SensorId) (field : String) (value : Value)
    (predicate : Predicate) :
    (predicate.complaint? sensor field value).isSome = !predicate.speaks value := by
  unfold complaint?
  cases predicate.speaks value <;> rfl

end Predicate

namespace Graph

/-- What the tests among some nodes test, in the order of the nodes. -/
def predicatesAt (graph : Graph) (ids : List NodeId) : List Predicate :=
  ids.filterMap graph.predicate?

theorem predicatesAt_concat (graph : Graph) (ids : List NodeId) (id : NodeId) :
    graph.predicatesAt (ids ++ [id]) =
      graph.predicatesAt ids ++ (graph.predicate? id).toList := by
  unfold predicatesAt
  rw [List.filterMap_append]
  cases found : graph.predicate? id <;> simp [found]

theorem predicatesAt_of_frame_eq {first second : Graph} (same : first.frame = second.frame) :
    first.predicatesAt = second.predicatesAt := by
  funext ids
  rw [predicatesAt, predicate?_of_frame_eq same, predicatesAt]

end Graph

namespace Network

variable {sensor : SensorId} {field : String} {value : Value} {progress : Examination}
  {id : NodeId} {predicate : Predicate}

/-! ## One watcher -/

theorem examine_of_no_test (absent : progress.graph.predicate? id = none) :
    examine sensor field value progress id = progress := by
  unfold examine
  cases found : progress.graph.node? id with
  | none => rfl
  | some node =>
      have noTest : node.predicate? = none := by simpa [Graph.predicate?, found] using absent
      simp [noTest]

theorem examine_of_silent (test : progress.graph.predicate? id = some predicate)
    (silent : predicate.test value = none) :
    examine sensor field value progress id =
      { progress with
        errors := .typeMismatch sensor field predicate.operator predicate.literal.type value.type
          :: progress.errors } := by
  obtain ⟨node, found, tests⟩ := Option.bind_eq_some_iff.1 test
  simp [examine, found, tests, silent]

theorem examine_of_told (test : progress.graph.predicate? id = some predicate) {status : Bool}
    (told : predicate.test value = some status) :
    examine sensor field value progress id =
      { progress with
        comparisons := progress.comparisons + 1
        graph :=
          if status = progress.graph.status id then progress.graph
          else progress.graph.modify id fun node => { node with status }
        changes :=
          if status = progress.graph.status id then progress.changes
          else ⟨id, status⟩ :: progress.changes } := by
  obtain ⟨node, found, tests⟩ := Option.bind_eq_some_iff.1 test
  rw [Graph.status_of_node? found]
  by_cases same : status = node.status <;> simp [examine, found, tests, told, same]

/-! ## All watchers -/

/-- The watchers asked so far, with what was counted and reported of them. -/
structure Tallied (before : Graph) (sensor : SensorId) (field : String) (value : Value)
    (seen : List NodeId) (progress : Examination) : Prop where
  frame : progress.graph.frame = before.frame
  comparisons : progress.comparisons = (before.predicatesAt seen).countP (·.speaks value)
  errors : progress.errors.reverse =
    (before.predicatesAt seen).filterMap (Predicate.complaint? sensor field value)

namespace Tallied

variable {before : Graph} {seen : List NodeId}

theorem start (graph : Graph) : Tallied graph sensor field value [] ⟨graph, 0, [], []⟩ :=
  ⟨rfl, rfl, rfl⟩

theorem examine (tallied : Tallied before sensor field value seen progress) (id : NodeId) :
    Tallied before sensor field value (seen ++ [id])
      (examine sensor field value progress id) := by
  have predicates := Graph.predicate?_of_frame_eq tallied.frame
  cases test : progress.graph.predicate? id with
  | none =>
      rw [examine_of_no_test test]
      rw [predicates] at test
      refine ⟨tallied.frame, ?_, ?_⟩ <;>
        rw [Graph.predicatesAt_concat, test, Option.toList_none, List.append_nil]
      · exact tallied.comparisons
      · exact tallied.errors
  | some predicate =>
      have known := test
      rw [predicates] at known
      cases told : predicate.test value with
      | none =>
          rw [examine_of_silent test told]
          have mute : predicate.speaks value = false := by simp [Predicate.speaks, told]
          refine ⟨tallied.frame, ?_, ?_⟩
          · simp [Graph.predicatesAt_concat, known, mute, tallied.comparisons]
          · simp [Graph.predicatesAt_concat, known, Predicate.complaint?, mute, tallied.errors]
      | some status =>
          rw [examine_of_told test told]
          have spoken : predicate.speaks value = true := by simp [Predicate.speaks, told]
          refine ⟨?_, ?_, ?_⟩
          · dsimp only
            split
            case isTrue => exact tallied.frame
            case isFalse =>
              rw [Graph.frame_modify _ _ _ fun node _ => node.frame_setStatus status]
              exact tallied.frame
          · simp [Graph.predicatesAt_concat, known, spoken, tallied.comparisons]
          · simp [Graph.predicatesAt_concat, known, Predicate.complaint?, spoken, tallied.errors]

theorem examineAll (ids : List NodeId) {seen : List NodeId} {progress : Examination}
    (tallied : Tallied before sensor field value seen progress) :
    Tallied before sensor field value (seen ++ ids)
      (ids.foldl (Network.examine sensor field value) progress) := by
  induction ids generalizing seen progress with
  | nil => simpa using tallied
  | cons id ids ih =>
      have split : seen ++ id :: ids = (seen ++ [id]) ++ ids := by simp
      rw [split]
      exact ih (tallied.examine id)

end Tallied

/-- Watchers that stand as they say of the value are left alone. -/
theorem foldl_examine_of_still (ids : List NodeId) {progress : Examination}
    (still : ∀ id ∈ ids, ∀ {predicate status}, progress.graph.predicate? id = some predicate →
      predicate.test value = some status → progress.graph.status id = status) :
    (ids.foldl (examine sensor field value) progress).graph = progress.graph ∧
      (ids.foldl (examine sensor field value) progress).changes = progress.changes := by
  induction ids generalizing progress with
  | nil => exact ⟨rfl, rfl⟩
  | cons id ids ih =>
      have here : (examine sensor field value progress id).graph = progress.graph ∧
          (examine sensor field value progress id).changes = progress.changes := by
        cases test : progress.graph.predicate? id with
        | none =>
            rw [examine_of_no_test test]
            exact ⟨rfl, rfl⟩
        | some predicate =>
            cases told : predicate.test value with
            | none =>
                rw [examine_of_silent test told]
                exact ⟨rfl, rfl⟩
            | some status =>
                rw [examine_of_told test told, still id List.mem_cons_self test told]
                exact ⟨if_pos rfl, if_pos rfl⟩
      rw [List.foldl_cons, ← here.1, ← here.2]
      refine ih ?_
      rw [here.1]
      exact fun other member => still other (List.mem_cons_of_mem _ member)

/-! ## What is delivered -/

/-- The watchers of a field asked of a value; a field that is not declared has none. -/
def examination (network : Network) (sensor : SensorId) (field : String) (value : Value) :
    Examination :=
  match network.sensors.field? sensor field with
  | none => ⟨network.graph, 0, [], []⟩
  | some declared =>
      declared.watchers.foldl (examine sensor field value) ⟨network.graph, 0, [], []⟩

section

variable {network : Network} {declared : Field}
  (found : network.sensors.field? sensor field = some declared)

include found

theorem deliver_of_declared (value : Value) :
    network.deliver sensor field value =
      let examination := network.examination sensor field value
      let wave := examination.graph.settle examination.changes
      (⟨network.sensors.modifyField sensor field fun field => { field with value := some value },
          wave.graph⟩,
        { comparisons := examination.comparisons
          changed := examination.changes.length
          transitions := wave.transitions
          errors := examination.errors.reverse }) := by
  simp [deliver, examination, found]

theorem tallied (value : Value) :
    Tallied network.graph sensor field value declared.watchers
      (network.examination sensor field value) := by
  rw [examination, found]
  exact (Tallied.start network.graph).examineAll declared.watchers

theorem comparisons_deliver (value : Value) :
    (network.deliver sensor field value).2.comparisons =
      (network.graph.predicatesAt declared.watchers).countP (·.speaks value) := by
  rw [deliver_of_declared found]
  exact (tallied found value).comparisons

theorem errors_deliver (value : Value) :
    (network.deliver sensor field value).2.errors =
      (network.graph.predicatesAt declared.watchers).filterMap
        (Predicate.complaint? sensor field value) := by
  rw [deliver_of_declared found]
  exact (tallied found value).errors

/-- In a sound network the examination of a declared field is that of all its tests. -/
theorem Sound.overwritten_examination (sound : network.Sound) (value : Value) :
    network.graph.Overwritten (network.examination sensor field value).graph
      (network.examination sensor field value).changes := by
  rw [examination, found]
  simp only [sound.watched found]
  exact (network.examined sensor field value).overwritten
    fun _ => Graph.exists_test_of_mem_testsOn

/-- The changes that are counted are the tests that stand otherwise after the delivery. -/
theorem Sound.changed_deliver (sound : network.Sound) (value : Value) :
    (network.deliver sensor field value).2.changed =
      (List.range network.graph.size).countP fun id => (network.graph.predicate? id).isSome &&
        network.graph.status id != (network.deliver sensor field value).1.graph.status id := by
  have overwritten := sound.overwritten_examination found value
  rw [deliver_of_declared found]
  refine overwritten.length_changes.trans (List.countP_congr fun id _ => ?_)
  cases test : network.graph.predicate? id with
  | none => rfl
  | some predicate =>
      rw [← Graph.predicate?_of_frame_eq overwritten.frame] at test
      rw [(Graph.settle_remembers _ _).test test]

/-- A delivery that finds all watchers as they say of the value only stores it. -/
theorem deliver_of_still (value : Value)
    (still : ∀ id ∈ declared.watchers, ∀ {predicate status},
      network.graph.predicate? id = some predicate → predicate.test value = some status →
        network.graph.status id = status) :
    network.deliver sensor field value =
      (⟨network.sensors.modifyField sensor field fun field => { field with value := some value },
          network.graph⟩,
        { comparisons := (network.graph.predicatesAt declared.watchers).countP (·.speaks value)
          changed := 0
          transitions := []
          errors := (network.graph.predicatesAt declared.watchers).filterMap
            (Predicate.complaint? sensor field value) }) := by
  have tallied := tallied found value
  have settled : (network.examination sensor field value).graph = network.graph ∧
      (network.examination sensor field value).changes = [] := by
    rw [examination, found]
    exact foldl_examine_of_still declared.watchers still
  rw [deliver_of_declared found]
  simp only [settled.1, settled.2, tallied.comparisons, tallied.errors]
  simp [Graph.settle, Wave.run, Wave.ofChanges, Wave.transitions]

end

end Network

end Tripwire
