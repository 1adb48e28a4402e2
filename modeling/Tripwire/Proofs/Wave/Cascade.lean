import Tripwire.Proofs.Graph.Settled

/-!
# Cascades

A wave takes up the changed tests one after the other. What a test's change moves are groups
only, all in the direction of the test, and each at most once: they lie above the other tests
on the stack, so that no node waits there twice. While the stack is not empty, counts agree
with what the parents of a node know of it, which is its status from before the change that
waits. Roots never wait: whatever stands on one goes on with the status that the wave remembers.
-/

namespace Tripwire

namespace Graph

/-- How many groups a cascade in a direction may still move. -/
def movable (graph : Graph) (rising : Bool) : Nat :=
  graph.nodes.countP fun node => node.isGroup && node.status != rising

theorem movable_le_groupCount (graph : Graph) (rising : Bool) :
    graph.movable rising ≤ graph.groupCount :=
  Array.countP_mono_left fun _ _ moves => (Bool.and_eq_true_iff.1 moves).1

theorem groupCount_of_frame_eq {first second : Graph} (same : first.frame = second.frame) :
    first.groupCount = second.groupCount := by
  have count : ∀ graph : Graph, graph.groupCount = graph.frame.groupCount := by
    intro graph
    unfold groupCount frame
    rw [Array.countP_map]
    congr 1
    funext node
    exact node.frame_isGroup.symm
  rw [count first, count second, same]

end Graph

namespace Wave

/-- Whether a change of a node waits to be passed on. -/
def isPending (wave : Wave) (id : NodeId) : Bool :=
  wave.pending.any (·.node == id)

/-- The status of a root from before its first change. -/
def recalled (wave : Wave) (id : NodeId) : Bool :=
  (wave.touched.lookup id).getD (wave.graph.status id)

/-- The status of a node that its parents know of. -/
def known (wave : Wave) (id : NodeId) : Bool :=
  if wave.isPending id then !wave.graph.status id
  else if (wave.graph.root? id).isSome then wave.recalled id
  else wave.graph.status id

/-- The changes that wait: groups moved in one direction, above tests. -/
structure Stacked (wave : Wave) (rising : Bool) (cascade leaves : List Change) : Prop where
  paired : wave.graph.Paired
  pending : wave.pending = cascade ++ leaves
  groups : ∀ change ∈ cascade,
    wave.graph.isGroup change.node = true ∧ change.rising = rising
  tests : ∀ change ∈ leaves, ∃ predicate, wave.graph.predicate? change.node = some predicate
  current : ∀ change ∈ wave.pending, wave.graph.status change.node = change.rising
  distinct : (wave.pending.map Change.node).Nodup

/-! ## What passing a change on along one edge does -/

section

variable {wave : Wave} {rising : Bool} {parent : NodeId}

theorem deliver_none (absent : wave.graph.node? parent = none) :
    wave.deliver rising parent = wave := by
  simp [deliver, absent]

theorem deliver_still {node : Node} (found : wave.graph.node? parent = some node)
    (still : (node.shift rising).status = node.status) :
    wave.deliver rising parent =
      { wave with graph := wave.graph.modify parent fun _ => node.shift rising } := by
  simp [deliver, found, still]

theorem deliver_root {node : Node} (found : wave.graph.node? parent = some node)
    (moved : (node.shift rising).status ≠ node.status) (isRoot : node.isRoot = true) :
    wave.deliver rising parent =
      { wave with graph := wave.graph.modify parent fun _ => node.shift rising }.touch parent
        node.status := by
  simp [deliver, found, moved, isRoot]

theorem deliver_inner {node : Node} (found : wave.graph.node? parent = some node)
    (moved : (node.shift rising).status ≠ node.status) (inner : node.isRoot = false) :
    wave.deliver rising parent =
      { wave with
        graph := wave.graph.modify parent fun _ => node.shift rising
        pending := ⟨parent, (node.shift rising).status⟩ :: wave.pending } := by
  simp [deliver, found, moved, inner]

theorem touch_graph (root : NodeId) (before : Bool) :
    (wave.touch root before).graph = wave.graph := by
  unfold touch
  split <;> rfl

theorem touch_pending (root : NodeId) (before : Bool) :
    (wave.touch root before).pending = wave.pending := by
  unfold touch
  split <;> rfl

/-- Whatever becomes of the stack, the graph is that of the step taken in. -/
theorem deliver_graph (rising : Bool) {node : Node} (found : wave.graph.node? parent = some node) :
    (wave.deliver rising parent).graph =
      wave.graph.modify parent fun _ => node.shift rising := by
  by_cases still : (node.shift rising).status = node.status
  · rw [deliver_still found still]
  · cases kind : node.isRoot with
    | true => rw [deliver_root found still kind, touch_graph]
    | false => rw [deliver_inner found still kind]

theorem deliver_status (rising : Bool) {node : Node}
    (found : wave.graph.node? parent = some node) (id : NodeId) :
    (wave.deliver rising parent).graph.status id =
      if parent = id then (node.shift rising).status else wave.graph.status id := by
  rw [deliver_graph rising found, Graph.status_modify found]

theorem deliver_frame (rising : Bool) (wave : Wave) (parent : NodeId) :
    (wave.deliver rising parent).graph.frame = wave.graph.frame := by
  cases found : wave.graph.node? parent with
  | none => rw [deliver_none found]
  | some node =>
      rw [deliver_graph _ found]
      apply Graph.frame_modify
      intro other here
      rw [found, Option.some.injEq] at here
      rw [← here, Node.frame_shift]

end

/-! ## The stack while a change is passed on -/

section

variable {wave : Wave} {rising : Bool} {cascade leaves : List Change}

theorem isPending_iff {id : NodeId} :
    wave.isPending id = true ↔ ∃ change ∈ wave.pending, change.node = id := by
  simp [isPending, List.any_eq_true]

theorem known_of_isPending {id : NodeId} (waits : wave.isPending id = true) :
    wave.known id = !wave.graph.status id := by
  rw [known, if_pos waits]

theorem known_of_inner {id : NodeId} (idle : wave.isPending id = false)
    (inner : wave.graph.root? id = none) : wave.known id = wave.graph.status id := by
  simp [known, idle, inner]

/-- Changes to nodes that do not wait leave the stack as it was. -/
theorem Stacked.of_frame_eq (stacked : wave.Stacked rising cascade leaves) {other : Wave}
    (same : other.graph.frame = wave.graph.frame) (pending : other.pending = wave.pending)
    (keeps : ∀ change ∈ wave.pending,
      other.graph.status change.node = wave.graph.status change.node) :
    other.Stacked rising cascade leaves where
  paired := stacked.paired.of_frame_eq same.symm
  pending := pending.trans stacked.pending
  groups change member := by
    rw [Graph.isGroup_of_frame_eq same]
    exact stacked.groups change member
  tests change member := by
    rw [Graph.predicate?_of_frame_eq same]
    exact stacked.tests change member
  current change member := by
    rw [pending] at member
    rw [keeps change member]
    exact stacked.current change member
  distinct := by
    rw [pending]
    exact stacked.distinct

theorem Stacked.root?_of_isPending (stacked : wave.Stacked rising cascade leaves)
    {id : NodeId} (waits : wave.isPending id = true) : wave.graph.root? id = none := by
  obtain ⟨change, member, rfl⟩ := isPending_iff.1 waits
  rw [stacked.pending] at member
  rcases List.mem_append.1 member with inCascade | inLeaves
  · exact Graph.root?_of_isGroup (stacked.groups change inCascade).1
  · obtain ⟨predicate, test⟩ := stacked.tests change inLeaves
    exact Graph.root?_of_predicate? test

/-- A group that waits stands as the cascade's direction has it. -/
theorem Stacked.status_of_isPending (stacked : wave.Stacked rising cascade leaves)
    {id : NodeId} (group : wave.graph.isGroup id = true) (waits : wave.isPending id = true) :
    wave.graph.status id = rising := by
  obtain ⟨change, member, rfl⟩ := isPending_iff.1 waits
  rw [stacked.current change member]
  rw [stacked.pending] at member
  rcases List.mem_append.1 member with inCascade | inLeaves
  · exact (stacked.groups change inCascade).2
  · obtain ⟨predicate, test⟩ := stacked.tests change inLeaves
    rw [Graph.isGroup_of_predicate? test] at group
    cases group

/-- A group that turns in the cascade's direction waits on top of the stack. -/
theorem Stacked.push (stacked : wave.Stacked rising cascade leaves) {other : Wave} {id : NodeId}
    (same : other.graph.frame = wave.graph.frame)
    (pending : other.pending = ⟨id, rising⟩ :: wave.pending)
    (group : wave.graph.isGroup id = true) (idle : wave.isPending id = false)
    (here : other.graph.status id = rising)
    (elsewhere : ∀ node, node ≠ id → other.graph.status node = wave.graph.status node) :
    other.Stacked rising (⟨id, rising⟩ :: cascade) leaves := by
  have absent : ∀ change ∈ wave.pending, change.node ≠ id := by
    intro change member same
    rw [isPending_iff.2 ⟨change, member, same⟩] at idle
    cases idle
  refine ⟨stacked.paired.of_frame_eq same.symm, ?_, ?_, ?_, ?_, ?_⟩
  · rw [pending, stacked.pending, List.cons_append]
  · intro change member
    rw [Graph.isGroup_of_frame_eq same]
    rcases List.mem_cons.1 member with last | waiting
    · exact last ▸ ⟨group, rfl⟩
    · exact stacked.groups change waiting
  · intro change member
    rw [Graph.predicate?_of_frame_eq same]
    exact stacked.tests change member
  · intro change member
    rw [pending] at member
    rcases List.mem_cons.1 member with last | waiting
    · exact last ▸ here
    · rw [elsewhere _ (absent change waiting)]
      exact stacked.current change waiting
  · rw [pending, List.map_cons, List.nodup_cons]
    refine ⟨?_, stacked.distinct⟩
    intro member
    obtain ⟨change, waiting, last⟩ := List.mem_map.1 member
    exact absent change waiting last

theorem known_congr {other : Wave} {id : NodeId} (frame : other.graph.frame = wave.graph.frame)
    (pending : other.pending = wave.pending) (touched : other.touched = wave.touched)
    (status : other.graph.status id = wave.graph.status id) : other.known id = wave.known id := by
  unfold known recalled isPending
  rw [pending, touched, status, Graph.root?_of_frame_eq frame]

/-- To its parents a group that has just turned stands as it did before. -/
theorem known_push {other : Wave} {id : NodeId} {status : Bool}
    (frame : other.graph.frame = wave.graph.frame)
    (pending : other.pending = ⟨id, status⟩ :: wave.pending)
    (touched : other.touched = wave.touched) (idle : wave.isPending id = false)
    (inner : wave.graph.root? id = none)
    (turned : other.graph.status id ≠ wave.graph.status id)
    (elsewhere : ∀ node, node ≠ id → other.graph.status node = wave.graph.status node) :
    other.known = wave.known := by
  funext node
  by_cases same : node = id
  · subst same
    have waits : other.isPending node = true := by simp [isPending, pending]
    rw [known_of_isPending waits, known_of_inner idle inner]
    exact (Bool.eq_not.2 turned.symm).symm
  · have waits : other.isPending node = wave.isPending node := by
      simp [isPending, pending, Ne.symm same]
    unfold known recalled
    rw [waits, touched, elsewhere node same, Graph.root?_of_frame_eq frame]

theorem isSome_lookup_touched (wave : Wave) (id : NodeId) :
    (wave.touched.lookup id).isSome = wave.touched.any (·.1 == id) := by
  rw [Bool.eq_iff_iff, List.lookup_isSome_iff, List.any_eq_true]
  exact exists_congr fun entry => and_congr_right fun _ => by rw [BEq.comm]

/-- What is recalled of a root stays the same when the root turns. -/
theorem recalled_touch {root : NodeId} {moved : Graph}
    (elsewhere : ∀ id, id ≠ root → moved.status id = wave.graph.status id) (id : NodeId) :
    ({ wave with graph := moved }.touch root (wave.graph.status root)).recalled id =
      wave.recalled id := by
  unfold touch recalled
  rw [← isSome_lookup_touched]
  by_cases same : id = root
  · subst same
    cases found : wave.touched.lookup id with
    | some status => simp [found]
    | none => simp
  · have differs : (id == root) = false := by simpa using same
    split
    case isTrue => rw [elsewhere id same]
    case isFalse => simp only [List.lookup_cons, differs, elsewhere id same]

end

section

variable {wave : Wave} {rising : Bool} {cascade leaves : List Change} {parent : NodeId}
  {due : List NodeId}

/-- A step that leaves a node's status as it is moves nothing. -/
theorem Stacked.deliver_of_still (stacked : wave.Stacked rising cascade leaves)
    (told : wave.graph.Told wave.known rising (parent :: due)) {node : Node}
    (found : wave.graph.node? parent = some node)
    (still : (node.shift rising).status = node.status) :
    (wave.deliver rising parent).Stacked rising cascade leaves ∧
      (wave.deliver rising parent).graph.Told (wave.deliver rising parent).known rising due ∧
      (wave.deliver rising parent).graph.movable rising = wave.graph.movable rising := by
  have graph := deliver_graph rising found
  have pending : (wave.deliver rising parent).pending = wave.pending := by
    rw [deliver_still found still]
  have touched : (wave.deliver rising parent).touched = wave.touched := by
    rw [deliver_still found still]
  have frame := deliver_frame rising wave parent
  have status : ∀ id, (wave.deliver rising parent).graph.status id = wave.graph.status id := by
    intro id
    rw [deliver_status rising found, still]
    split
    case isTrue same => rw [← same, Graph.status_of_node? found]
    case isFalse => rfl
  refine ⟨stacked.of_frame_eq frame pending fun change _ => status _, ?_, ?_⟩
  · have next := told.shift found
    rw [← graph] at next
    exact next.congr fun id child member =>
      (known_congr frame pending touched (status child)).symm
  · have counted := Graph.countP_modify found (node.shift rising)
      fun node => node.isGroup && node.status != rising
    rw [still, Node.shift_isGroup, ← graph] at counted
    exact Nat.add_right_cancel counted

/-- To what stands on it a root that is told of a change stands as it did before. -/
theorem Stacked.known_deliver_of_root (stacked : wave.Stacked rising cascade leaves)
    {node : Node} (found : wave.graph.node? parent = some node)
    (moved : (node.shift rising).status ≠ node.status) (isRoot : node.isRoot = true) :
    (wave.deliver rising parent).known = wave.known := by
  have top : (wave.graph.root? parent).isSome = true := by
    simpa [Graph.root?, found, Node.isRoot] using isRoot
  have idle : wave.isPending parent = false := by
    rw [← Bool.not_eq_true]
    intro waits
    rw [stacked.root?_of_isPending waits] at top
    cases top
  have elsewhere : ∀ id, id ≠ parent →
      (wave.graph.modify parent fun _ => node.shift rising).status id = wave.graph.status id := by
    intro id apart
    rw [Graph.status_modify found, if_neg (Ne.symm apart)]
  have recalled : ∀ id, (wave.deliver rising parent).recalled id = wave.recalled id := by
    intro id
    rw [deliver_root found moved isRoot, ← Graph.status_of_node? found]
    exact recalled_touch elsewhere id
  have pending : ∀ id, (wave.deliver rising parent).isPending id = wave.isPending id := by
    intro id
    rw [isPending, deliver_root found moved isRoot, touch_pending, isPending]
  funext id
  unfold known
  rw [pending, recalled, Graph.root?_of_frame_eq (deliver_frame rising wave parent),
    deliver_graph rising found]
  by_cases same : id = parent
  · subst same
    rw [idle, top]
    rfl
  · rw [elsewhere id same]

/-- A root takes the status that it is told of. -/
theorem Stacked.deliver_of_root (stacked : wave.Stacked rising cascade leaves)
    (told : wave.graph.Told wave.known rising (parent :: due)) {node : Node}
    (found : wave.graph.node? parent = some node)
    (moved : (node.shift rising).status ≠ node.status) (isRoot : node.isRoot = true) :
    (wave.deliver rising parent).Stacked rising cascade leaves ∧
      (wave.deliver rising parent).graph.Told (wave.deliver rising parent).known rising due ∧
      (wave.deliver rising parent).graph.movable rising = wave.graph.movable rising := by
  have graph := deliver_graph rising found
  have pending : (wave.deliver rising parent).pending = wave.pending := by
    rw [deliver_root found moved isRoot, touch_pending]
  have top : (wave.graph.root? parent).isSome = true := by
    simpa [Graph.root?, found, Node.isRoot] using isRoot
  refine ⟨stacked.of_frame_eq (deliver_frame rising wave parent) pending ?_, ?_, ?_⟩
  · intro change member
    rw [deliver_status rising found, if_neg]
    intro same
    rw [same, stacked.root?_of_isPending (isPending_iff.2 ⟨change, member, rfl⟩)] at top
    cases top
  · rw [stacked.known_deliver_of_root found moved isRoot, graph]
    exact told.shift found
  · have counted := Graph.countP_modify found (node.shift rising)
      fun node => node.isGroup && node.status != rising
    rw [Node.shift_isGroup, Node.isGroup_of_isRoot isRoot, ← graph] at counted
    exact counted

/-- A group that a step moves waits on top of the stack, where it did not wait yet. -/
theorem Stacked.deliver_of_group (stacked : wave.Stacked rising cascade leaves)
    (told : wave.graph.Told wave.known rising (parent :: due)) {node : Node}
    (found : wave.graph.node? parent = some node)
    (moved : (node.shift rising).status ≠ node.status) (inner : node.isRoot = false) :
    (wave.deliver rising parent).Stacked rising (⟨parent, rising⟩ :: cascade) leaves ∧
      (wave.deliver rising parent).graph.Told (wave.deliver rising parent).known rising due ∧
      (wave.deliver rising parent).graph.movable rising + 1 = wave.graph.movable rising := by
  have graph := deliver_graph rising found
  have direction := told.shift_status found moved
  have before : node.status ≠ rising := fun same => moved (direction.trans same.symm)
  have group := Node.isGroup_of_moved moved inner
  have pending : (wave.deliver rising parent).pending = ⟨parent, rising⟩ :: wave.pending := by
    rw [deliver_inner found moved inner, direction]
  have isGroup : wave.graph.isGroup parent = true := by
    simp [Graph.isGroup, found, group]
  have idle : wave.isPending parent = false := by
    rw [← Bool.not_eq_true]
    intro waits
    have stands := stacked.status_of_isPending isGroup waits
    rw [Graph.status_of_node? found] at stands
    exact before stands
  have elsewhere : ∀ id, id ≠ parent →
      (wave.deliver rising parent).graph.status id = wave.graph.status id := by
    intro id apart
    rw [deliver_status rising found, if_neg (Ne.symm apart)]
  have here : (wave.deliver rising parent).graph.status parent = rising := by
    rw [deliver_status rising found, if_pos rfl, direction]
  refine ⟨stacked.push (deliver_frame rising wave parent) pending isGroup idle here elsewhere,
    ?_, ?_⟩
  · have turned : (wave.deliver rising parent).graph.status parent ≠
        wave.graph.status parent := by
      rw [here, Graph.status_of_node? found]
      exact before.symm
    have touched : (wave.deliver rising parent).touched = wave.touched := by
      rw [deliver_inner found moved inner]
    rw [known_push (deliver_frame rising wave parent) pending touched idle
      (Graph.root?_of_isGroup isGroup) turned elsewhere, graph]
    exact told.shift found
  · have counted := Graph.countP_modify found (node.shift rising)
      fun node => node.isGroup && node.status != rising
    rw [Node.shift_isGroup, direction, group, ← graph] at counted
    simpa [Graph.movable, before] using counted

/-- What passing a change on along one edge moves is put on top of the cascade. -/
theorem Stacked.deliver (stacked : wave.Stacked rising cascade leaves)
    (told : wave.graph.Told wave.known rising (parent :: due)) :
    ∃ moved, (wave.deliver rising parent).Stacked rising (moved ++ cascade) leaves ∧
      (wave.deliver rising parent).graph.Told (wave.deliver rising parent).known rising due ∧
      (wave.deliver rising parent).graph.movable rising + moved.length =
        wave.graph.movable rising := by
  cases found : wave.graph.node? parent with
  | none =>
      rw [deliver_none found]
      exact ⟨[], stacked, told.skip found, rfl⟩
  | some node =>
      by_cases still : (node.shift rising).status = node.status
      · exact ⟨[], stacked.deliver_of_still told found still⟩
      · cases isRoot : node.isRoot with
        | true => exact ⟨[], stacked.deliver_of_root told found still isRoot⟩
        | false =>
            exact ⟨[⟨parent, rising⟩], stacked.deliver_of_group told found still isRoot⟩

end

end Wave

end Tripwire
