import Tripwire.Proofs.Graph.Edges

/-!
# Counts and statuses that agree

In a settled graph every count is the number of edges to children that hold, and every status
follows from the count or, for a root, from the child. While a node's change is passed on, its
parents are told of it one edge at a time: to those that are still due it has not changed yet.
-/

namespace Tripwire

namespace Junction

/-- A group that one more member makes change turns true. -/
theorem status_of_rise (junction : Junction) {holding size : Nat} (room : holding < size)
    (moved : junction.status (holding + 1) size ≠ junction.status holding size) :
    junction.status (holding + 1) size = true := by
  cases junction with
  | all =>
      have apart : (holding == size) = false := by simpa using Nat.ne_of_lt room
      simpa [status, apart] using moved
  | any => simp [status]

/-- A group that one member less makes change turns false. -/
theorem status_of_fall (junction : Junction) {holding size : Nat} (some_holds : 0 < holding)
    (bounded : holding ≤ size)
    (moved : junction.status (holding - 1) size ≠ junction.status holding size) :
    junction.status (holding - 1) size = false := by
  cases junction with
  | all =>
      have apart : holding - 1 ≠ size := by omega
      simp [status, apart]
  | any => simpa [status, some_holds] using moved

end Junction

/-- Where one more element counts, a count grows by how often it is there. -/
theorem countP_of_rise {truth later : NodeId → Bool} {id : NodeId} (before : truth id = false)
    (after : later id = true) (elsewhere : ∀ other, other ≠ id → later other = truth other)
    (ids : List NodeId) : ids.countP later = ids.countP truth + ids.count id := by
  induction ids with
  | nil => rfl
  | cons first rest ih =>
      by_cases same : first = id
      · subst same
        simp [ih, before, after]
        omega
      · simp [List.countP_cons, ih, same, elsewhere first same]
        omega

namespace Graph

/-- Counts and statuses agree with what holds of the children. -/
structure Agrees (graph : Graph) (truth : NodeId → Bool) : Prop where
  group : ∀ {id junction children holding status parents},
    graph.node? id = some ⟨.group junction children holding, status, parents⟩ →
      holding = children.countP truth ∧ status = junction.status holding children.length
  root : ∀ {id root status parents},
    graph.node? id = some ⟨.root root, status, parents⟩ → status = truth root.child

/-- Counts and statuses agree with the statuses of the children. -/
def Settled (graph : Graph) : Prop :=
  graph.Agrees graph.status

/-- What a node stands like to those above it once changes were passed on. A root's change is not
passed on, so that it stands there as it did before. -/
def seen (before after : Graph) (id : NodeId) : Bool :=
  if (before.root? id).isSome then before.status id else after.status id

/-- A node's change in a direction was passed on along all edges but those to the due. -/
structure Told (graph : Graph) (truth : NodeId → Bool) (rising : Bool) (due : List NodeId) :
    Prop where
  group : ∀ {id junction children holding status parents},
    graph.node? id = some ⟨.group junction children holding, status, parents⟩ →
      holding + (if rising then due.count id else 0) =
          children.countP truth + (if rising then 0 else due.count id) ∧
        holding ≤ children.length ∧ status = junction.status holding children.length
  due_root : ∀ {id root status parents},
    graph.node? id = some ⟨.root root, status, parents⟩ → id ∈ due → truth root.child = rising
  root : ∀ {id root status parents},
    graph.node? id = some ⟨.root root, status, parents⟩ → id ∉ due → status = truth root.child

theorem settled_empty : Graph.empty.Settled where
  group found := by simp [node?, empty] at found
  root found := by simp [node?, empty] at found

theorem children_of_group {graph : Graph} {id : NodeId} {junction : Junction}
    {children parents : List NodeId} {holding : Nat} {status : Bool}
    (found : graph.node? id = some ⟨.group junction children holding, status, parents⟩) :
    graph.children id = children := by
  simp [Graph.children, found, Node.children]

theorem children_of_root {graph : Graph} {id : NodeId} {root : Root} {parents : List NodeId}
    {status : Bool} (found : graph.node? id = some ⟨.root root, status, parents⟩) :
    graph.children id = [root.child] := by
  simp [Graph.children, found, Node.children]

namespace Agrees

/-- Only what holds of children matters. -/
theorem congr {graph : Graph} {truth other : NodeId → Bool} (agrees : graph.Agrees truth)
    (same : ∀ id, ∀ child ∈ graph.children id, truth child = other child) :
    graph.Agrees other where
  group found := by
    obtain ⟨counted, status⟩ := agrees.group found
    refine ⟨?_, status⟩
    rw [counted]
    apply List.countP_congr
    intro child member
    rw [same _ child (by rw [children_of_group found]; exact member)]
  root found := by
    rw [agrees.root found]
    exact same _ _ (by rw [children_of_root found]; exact List.mem_singleton_self _)

/-- Where nothing stands on a root, no node is seen otherwise than it stands. -/
theorem settled {before after : Graph} (agrees : after.Agrees (before.seen after))
    (shared : ∀ {id child}, child ∈ after.children id → before.root? child = none) :
    after.Settled := by
  refine agrees.congr fun id child member => ?_
  rw [seen, shared member]
  rfl

/-- A node that has just changed has all its parents still to tell. -/
theorem told {graph : Graph} {truth later : NodeId → Bool} (agrees : graph.Agrees truth)
    (paired : graph.Paired) {id : NodeId} {rising : Bool} (before : truth id = !rising)
    (after : later id = rising) (elsewhere : ∀ other, other ≠ id → later other = truth other) :
    graph.Told later rising (graph.parents id) where
  group found := by
    obtain ⟨counted, status⟩ := agrees.group found
    refine ⟨?_, counted ▸ List.countP_le_length, status⟩
    rw [paired.count_eq, children_of_group found, counted]
    cases rising with
    | true =>
        have grown := countP_of_rise before after elsewhere
        simp [grown]
    | false =>
        have shrunk := countP_of_rise after before fun other apart => (elsewhere other apart).symm
        simp [shrunk]
  due_root found member := by
    rw [paired.mem_parents_iff, children_of_root found, List.mem_singleton] at member
    rw [← member, after]
  root found absent := by
    rw [paired.mem_parents_iff, children_of_root found, List.mem_singleton] at absent
    rw [agrees.root found, elsewhere _ (Ne.symm absent)]

end Agrees

namespace Told

/-- Once every parent is told, all agree. -/
theorem agrees {graph : Graph} {truth : NodeId → Bool} {rising : Bool}
    (told : graph.Told truth rising []) : graph.Agrees truth where
  group found := by
    obtain ⟨counted, bounded, status⟩ := told.group found
    exact ⟨by simpa using counted, status⟩
  root found := told.root found (List.not_mem_nil)

theorem congr {graph : Graph} {truth other : NodeId → Bool} {rising : Bool}
    {due : List NodeId} (told : graph.Told truth rising due)
    (same : ∀ id, ∀ child ∈ graph.children id, truth child = other child) :
    graph.Told other rising due where
  group found := by
    obtain ⟨counted, bounded, status⟩ := told.group found
    refine ⟨?_, bounded, status⟩
    rw [counted]
    congr 1
    apply List.countP_congr
    intro child member
    rw [same _ child (by rw [children_of_group found]; exact member)]
  due_root found member := by
    rw [← told.due_root found member]
    exact (same _ _ (by rw [children_of_root found]; exact List.mem_singleton_self _)).symm
  root found absent := by
    rw [told.root found absent]
    exact same _ _ (by rw [children_of_root found]; exact List.mem_singleton_self _)

/-- What is no node needs not be told. -/
theorem skip {graph : Graph} {truth : NodeId → Bool} {rising : Bool} {id : NodeId}
    {due : List NodeId} (told : graph.Told truth rising (id :: due))
    (absent : graph.node? id = none) : graph.Told truth rising due where
  group := by
    intro other junction children holding status parents found
    have apart : id ≠ other := by
      intro same
      rw [← same, absent] at found
      cases found
    simpa [List.count_cons, apart] using told.group found
  due_root found member := told.due_root found (List.mem_cons_of_mem _ member)
  root := by
    intro other root status parents found absentDue
    refine told.root found fun member => ?_
    rcases List.mem_cons.1 member with same | rest
    · rw [same, absent] at found
      cases found
    · exact absentDue rest

/-- A rise reaches a group only while a member does not hold, and a fall only while one
does. -/
theorem room {graph : Graph} {truth : NodeId → Bool} {rising : Bool} {due : List NodeId}
    (told : graph.Told truth rising due) {id : NodeId} (member : id ∈ due)
    {junction : Junction} {children parents : List NodeId} {holding : Nat} {status : Bool}
    (found : graph.node? id = some ⟨.group junction children holding, status, parents⟩) :
    (rising = true → holding < children.length) ∧ (rising = false → 0 < holding) := by
  have counted := (told.group found).1
  have owed : 0 < due.count id := List.count_pos_iff.2 member
  have bounded : children.countP truth ≤ children.length := List.countP_le_length
  constructor
  · intro rises
    simp only [rises, if_true] at counted
    omega
  · intro falls
    simp only [falls, Bool.false_eq_true, if_false] at counted
    omega

/-- No count is ever clamped: a group takes in the step that it is due. -/
theorem shift_group {graph : Graph} {truth : NodeId → Bool} {rising : Bool} {id : NodeId}
    {due : List NodeId} (told : graph.Told truth rising (id :: due))
    {junction : Junction} {children parents : List NodeId} {holding : Nat} {status : Bool}
    (found : graph.node? id = some ⟨.group junction children holding, status, parents⟩) :
    let count := if rising then holding + 1 else holding - 1
    Node.shift ⟨.group junction children holding, status, parents⟩ rising =
      ⟨.group junction children count, junction.status count children.length, parents⟩ := by
  obtain ⟨rise, fall⟩ := told.room List.mem_cons_self found
  cases rising with
  | true =>
      have room : min (holding + 1) children.length = holding + 1 :=
        Nat.min_eq_left (rise rfl)
      simp [Node.shift, room]
  | false => simp [Node.shift]

/-- A node that a step moves takes the direction of the step. -/
theorem shift_status {graph : Graph} {truth : NodeId → Bool} {rising : Bool} {id : NodeId}
    {due : List NodeId} (told : graph.Told truth rising (id :: due)) {node : Node}
    (found : graph.node? id = some node)
    (moved : (node.shift rising).status ≠ node.status) :
    (node.shift rising).status = rising := by
  obtain ⟨kind, status, parents⟩ := node
  cases kind with
  | test predicate => exact absurd rfl moved
  | group junction children holding =>
      obtain ⟨rise, fall⟩ := told.room List.mem_cons_self found
      obtain ⟨counted, bounded, same⟩ := told.group found
      rw [told.shift_group found] at moved ⊢
      cases rising with
      | true =>
          simp only [if_true] at moved ⊢
          exact junction.status_of_rise (rise rfl) (same ▸ moved)
      | false =>
          simp only [Bool.false_eq_true, if_false] at moved ⊢
          exact junction.status_of_fall (fall rfl) bounded (same ▸ moved)
  | root root => rfl

/-- Telling the next parent that is due. -/
theorem shift {graph : Graph} {truth : NodeId → Bool} {rising : Bool} {id : NodeId}
    {due : List NodeId} (told : graph.Told truth rising (id :: due)) {node : Node}
    (here : graph.node? id = some node) :
    (graph.modify id fun _ => node.shift rising).Told truth rising due where
  group := by
    intro other junction children holding status parents found
    rcases node?_of_modify here found with ⟨rfl, moved⟩ | ⟨apart, earlier⟩
    · obtain ⟨count, before, rfl⟩ := Node.eq_group_of_shift moved
      obtain ⟨rise, fall⟩ := told.room List.mem_cons_self here
      obtain ⟨counted, bounded, same⟩ := told.group here
      rw [told.shift_group here] at moved
      cases rising with
      | true =>
          simp only [if_true, Node.mk.injEq, Node.Kind.group.injEq] at moved
          obtain ⟨⟨_, _, rfl⟩, rfl, _⟩ := moved
          simp only [if_true, List.count_cons_self] at counted ⊢
          exact ⟨by omega, rise rfl, trivial⟩
      | false =>
          simp only [Bool.false_eq_true, if_false, Node.mk.injEq, Node.Kind.group.injEq] at moved
          obtain ⟨⟨_, _, rfl⟩, rfl, _⟩ := moved
          have holds := fall rfl
          simp only [Bool.false_eq_true, if_false, List.count_cons_self] at counted ⊢
          exact ⟨by omega, by omega, trivial⟩
    · simpa [List.count_cons, apart] using told.group earlier
  due_root := by
    intro other root status parents found member
    rcases node?_of_modify here found with ⟨rfl, moved⟩ | ⟨apart, earlier⟩
    · obtain ⟨_, before, rfl⟩ := Node.eq_root_of_shift moved
      exact told.due_root here List.mem_cons_self
    · exact told.due_root earlier (List.mem_cons_of_mem _ member)
  root := by
    intro other root status parents found absent
    rcases node?_of_modify here found with ⟨rfl, moved⟩ | ⟨apart, earlier⟩
    · obtain ⟨risen, before, rfl⟩ := Node.eq_root_of_shift moved
      rw [risen, told.due_root here List.mem_cons_self]
    · refine told.root earlier fun member => ?_
      rcases List.mem_cons.1 member with same | rest
      · exact apart same.symm
      · exact absent rest

end Told

end Graph

end Tripwire
