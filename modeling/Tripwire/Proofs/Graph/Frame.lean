import Tripwire.Graph.Wave

/-!
# The frame of a graph

A delivery changes statuses and counts only. What it keeps of a node is the node's frame, and
two graphs of one frame have the same nodes with the same edges.
-/

namespace Tripwire

namespace Node

/-- The nodes that a node stands on, once for each edge. -/
def children (node : Node) : List NodeId :=
  match node.kind with
  | .test _ => []
  | .group _ children _ => children
  | .root root => [root.child]

/-- How a group joins which nodes. -/
def group? (node : Node) : Option (Junction × List NodeId) :=
  match node.kind with
  | .group junction children _ => some (junction, children)
  | _ => none

/-- What no delivery changes of a node. -/
def frame (node : Node) : Node :=
  match node.kind with
  | .test predicate => ⟨.test predicate, false, node.parents⟩
  | .group junction children _ => ⟨.group junction children 0, false, node.parents⟩
  | .root root => ⟨.root root, false, node.parents⟩

@[simp]
theorem frame_children (node : Node) : node.frame.children = node.children := by
  obtain ⟨kind, status, parents⟩ := node
  cases kind <;> rfl

@[simp]
theorem frame_parents (node : Node) : node.frame.parents = node.parents := by
  obtain ⟨kind, status, parents⟩ := node
  cases kind <;> rfl

@[simp]
theorem frame_predicate? (node : Node) : node.frame.predicate? = node.predicate? := by
  obtain ⟨kind, status, parents⟩ := node
  cases kind <;> rfl

@[simp]
theorem frame_root? (node : Node) : node.frame.root? = node.root? := by
  obtain ⟨kind, status, parents⟩ := node
  cases kind <;> rfl

@[simp]
theorem frame_group? (node : Node) : node.frame.group? = node.group? := by
  obtain ⟨kind, status, parents⟩ := node
  cases kind <;> rfl

@[simp]
theorem frame_isGroup (node : Node) : node.frame.isGroup = node.isGroup := by
  obtain ⟨kind, status, parents⟩ := node
  cases kind <;> rfl

@[simp]
theorem frame_shift (node : Node) (rising : Bool) : (node.shift rising).frame = node.frame := by
  obtain ⟨kind, status, parents⟩ := node
  cases kind <;> rfl

theorem isGroup_of_isRoot {node : Node} (isRoot : node.isRoot = true) :
    node.isGroup = false := by
  obtain ⟨kind, status, parents⟩ := node
  cases kind with
  | root root => rfl
  | test predicate => cases isRoot
  | group junction children holding => cases isRoot

theorem predicate?_of_isRoot {node : Node} (isRoot : node.isRoot = true) :
    node.predicate? = none := by
  obtain ⟨kind, status, parents⟩ := node
  cases kind with
  | root root => rfl
  | test predicate => cases isRoot
  | group junction children holding => rfl

/-- Beside roots, steps move groups only. -/
theorem isGroup_of_moved {node : Node} {rising : Bool}
    (moved : (node.shift rising).status ≠ node.status) (inner : node.isRoot = false) :
    node.isGroup = true := by
  obtain ⟨kind, status, parents⟩ := node
  cases kind with
  | group junction children holding => rfl
  | test predicate => exact absurd rfl moved
  | root root => cases inner

/-- What a step makes a group was one. -/
theorem eq_group_of_shift {node : Node} {rising : Bool} {junction : Junction}
    {children parents : List NodeId} {count : Nat} {status : Bool}
    (moved : node.shift rising = ⟨.group junction children count, status, parents⟩) :
    ∃ holding before, node = ⟨.group junction children holding, before, parents⟩ := by
  obtain ⟨kind, before, above⟩ := node
  cases kind with
  | group joined members holding =>
      cases moved
      exact ⟨holding, before, rfl⟩
  | test predicate => cases moved
  | root root => cases moved

/-- What a step makes a root was one, and takes the direction of the step. -/
theorem eq_root_of_shift {node : Node} {rising : Bool} {root : Root} {parents : List NodeId}
    {status : Bool} (moved : node.shift rising = ⟨.root root, status, parents⟩) :
    status = rising ∧ ∃ before, node = ⟨.root root, before, parents⟩ := by
  obtain ⟨kind, before, above⟩ := node
  cases kind with
  | root top =>
      cases moved
      exact ⟨rfl, before, rfl⟩
  | test predicate => cases moved
  | group joined members holding => cases moved

theorem shift_isGroup (node : Node) (rising : Bool) :
    (node.shift rising).isGroup = node.isGroup := by
  rw [← frame_isGroup, frame_shift, frame_isGroup]

@[simp]
theorem frame_setStatus (node : Node) (status : Bool) :
    { node with status }.frame = node.frame := by
  obtain ⟨kind, before, parents⟩ := node
  cases kind <;> rfl

end Node

namespace Graph

/-! ## What a graph says of a node -/

/-- The nodes that a node stands on, once for each edge. -/
def children (graph : Graph) (id : NodeId) : List NodeId :=
  ((graph.node? id).map Node.children).getD []

/-- The nodes that stand on a node, once for each edge. -/
def parents (graph : Graph) (id : NodeId) : List NodeId :=
  ((graph.node? id).map Node.parents).getD []

def predicate? (graph : Graph) (id : NodeId) : Option Predicate :=
  (graph.node? id).bind Node.predicate?

def root? (graph : Graph) (id : NodeId) : Option Root :=
  (graph.node? id).bind Node.root?

def group? (graph : Graph) (id : NodeId) : Option (Junction × List NodeId) :=
  (graph.node? id).bind Node.group?

def isGroup (graph : Graph) (id : NodeId) : Bool :=
  ((graph.node? id).map Node.isGroup).getD false

/-- A node is a test, a group or a root. -/
theorem kind_cases {graph : Graph} {id : NodeId} (within : id < graph.size) :
    (∃ predicate, graph.predicate? id = some predicate) ∨
      (∃ junction children, graph.group? id = some (junction, children)) ∨
      ∃ root, graph.root? id = some root := by
  have found : graph.node? id = some graph.nodes[id] := Array.getElem?_eq_getElem within
  cases kind : graph.nodes[id].kind with
  | test predicate =>
      exact Or.inl ⟨predicate, by simp [predicate?, found, Node.predicate?, kind]⟩
  | group junction children holding =>
      exact Or.inr (Or.inl ⟨junction, children, by simp [group?, found, Node.group?, kind]⟩)
  | root root => exact Or.inr (Or.inr ⟨root, by simp [root?, found, Node.root?, kind]⟩)

theorem ext_node? {first second : Graph} (same : ∀ id, first.node? id = second.node? id) :
    first = second := by
  obtain ⟨nodes⟩ := first
  obtain ⟨others⟩ := second
  exact congrArg Graph.mk (Array.ext_getElem? same)

theorem lt_size_of_node? {graph : Graph} {id : NodeId} {node : Node}
    (found : graph.node? id = some node) : id < graph.size :=
  (Array.getElem?_eq_some_iff.1 found).1

theorem node?_eq_none_iff {graph : Graph} {id : NodeId} :
    graph.node? id = none ↔ graph.size ≤ id :=
  Array.getElem?_eq_none_iff

theorem exists_node? {graph : Graph} {id : NodeId} (within : id < graph.size) :
    ∃ node, graph.node? id = some node :=
  ⟨_, Array.getElem?_eq_getElem within⟩

theorem status_of_node? {graph : Graph} {id : NodeId} {node : Node}
    (found : graph.node? id = some node) : graph.status id = node.status := by
  simp [status, found]

/-! ## What is known of a node by its kind -/

section

variable {graph : Graph} {id : NodeId}

theorem node?_of_predicate? {predicate : Predicate}
    (found : graph.predicate? id = some predicate) :
    ∃ status parents, graph.node? id = some ⟨.test predicate, status, parents⟩ := by
  obtain ⟨⟨kind, status, parents⟩, here, test⟩ := Option.bind_eq_some_iff.1 found
  cases kind with
  | test known =>
      cases test
      exact ⟨status, parents, here⟩
  | group junction children holding => cases test
  | root root => cases test

theorem node?_of_group? {junction : Junction} {children : List NodeId}
    (found : graph.group? id = some (junction, children)) :
    ∃ holding status parents,
      graph.node? id = some ⟨.group junction children holding, status, parents⟩ := by
  obtain ⟨⟨kind, status, parents⟩, here, group⟩ := Option.bind_eq_some_iff.1 found
  cases kind with
  | group joined members holding =>
      cases group
      exact ⟨holding, status, parents, here⟩
  | test predicate => cases group
  | root root => cases group

theorem node?_of_root? {root : Root} (found : graph.root? id = some root) :
    ∃ status parents, graph.node? id = some ⟨.root root, status, parents⟩ := by
  obtain ⟨⟨kind, status, parents⟩, here, top⟩ := Option.bind_eq_some_iff.1 found
  cases kind with
  | root other =>
      cases top
      exact ⟨status, parents, here⟩
  | test predicate => cases top
  | group junction children holding => cases top

theorem lt_size_of_predicate? {predicate : Predicate}
    (found : graph.predicate? id = some predicate) : id < graph.size := by
  obtain ⟨_, _, here⟩ := node?_of_predicate? found
  exact lt_size_of_node? here

theorem lt_size_of_root? {root : Root} (found : graph.root? id = some root) :
    id < graph.size := by
  obtain ⟨_, _, here⟩ := node?_of_root? found
  exact lt_size_of_node? here

theorem isGroup_of_predicate? {predicate : Predicate}
    (found : graph.predicate? id = some predicate) : graph.isGroup id = false := by
  obtain ⟨_, _, here⟩ := node?_of_predicate? found
  simp [isGroup, here, Node.isGroup]

theorem root?_of_predicate? {predicate : Predicate}
    (found : graph.predicate? id = some predicate) : graph.root? id = none := by
  obtain ⟨_, _, here⟩ := node?_of_predicate? found
  simp [root?, here, Node.root?]

theorem predicate?_of_group? {group : Junction × List NodeId}
    (found : graph.group? id = some group) : graph.predicate? id = none := by
  obtain ⟨_, _, _, here⟩ := node?_of_group? found
  simp [predicate?, here, Node.predicate?]

theorem predicate?_of_root? {root : Root} (found : graph.root? id = some root) :
    graph.predicate? id = none := by
  obtain ⟨_, _, here⟩ := node?_of_root? found
  simp [predicate?, here, Node.predicate?]

theorem root?_of_group? {group : Junction × List NodeId}
    (found : graph.group? id = some group) : graph.root? id = none := by
  obtain ⟨_, _, _, here⟩ := node?_of_group? found
  simp [root?, here, Node.root?]

theorem predicate?_of_isGroup (group : graph.isGroup id = true) : graph.predicate? id = none := by
  cases test : graph.predicate? id with
  | none => rfl
  | some predicate =>
      rw [isGroup_of_predicate? test] at group
      cases group

theorem root?_of_isGroup (group : graph.isGroup id = true) : graph.root? id = none := by
  cases top : graph.root? id with
  | none => rfl
  | some root =>
      obtain ⟨_, _, here⟩ := node?_of_root? top
      simp [isGroup, here, Node.isGroup] at group

end

/-! ## Changing one node -/

theorem node?_modify (graph : Graph) (id other : NodeId) (change : Node → Node) :
    (graph.modify id change).node? other =
      if id = other then (graph.node? other).map change else graph.node? other :=
  Array.getElem?_modify

/-- A node of the changed graph is the changed one or was there. -/
theorem node?_of_modify {graph : Graph} {id : NodeId} {node : Node}
    (here : graph.node? id = some node) {moved : Node} {other : NodeId} {result : Node}
    (found : (graph.modify id fun _ => moved).node? other = some result) :
    (id = other ∧ moved = result) ∨ (id ≠ other ∧ graph.node? other = some result) := by
  rw [node?_modify] at found
  split at found
  case isTrue same =>
    subst same
    rw [here] at found
    exact Or.inl ⟨rfl, Option.some.inj found⟩
  case isFalse apart => exact Or.inr ⟨apart, found⟩

/-- Changing one node into another. -/
theorem status_modify {graph : Graph} {id : NodeId} {node : Node}
    (found : graph.node? id = some node) (moved : Node) (other : NodeId) :
    (graph.modify id fun _ => moved).status other =
      if id = other then moved.status else graph.status other := by
  unfold status
  rw [node?_modify]
  by_cases same : id = other
  · subst same
    simp [found]
  · simp [same]

/-- A count of nodes follows a node that is changed into another. -/
theorem countP_modify {graph : Graph} {id : NodeId} {node : Node}
    (found : graph.node? id = some node) (moved : Node) (property : Node → Bool) :
    (graph.modify id fun _ => moved).nodes.countP property + (if property node then 1 else 0) =
      graph.nodes.countP property + (if property moved then 1 else 0) := by
  obtain ⟨within, here⟩ := Array.getElem?_eq_some_iff.1 found
  have placed : (graph.modify id fun _ => moved).nodes = graph.nodes.set id moved within := by
    apply Array.ext_getElem?
    intro other
    rw [Array.getElem?_set, modify, Array.getElem?_modify]
    split
    case isTrue same =>
      subst same
      rw [Array.getElem?_eq_getElem within]
      rfl
    case isFalse => rfl
  have counted : (if property node then 1 else 0) ≤ graph.nodes.countP property := by
    rw [← here]
    exact Array.boole_getElem_le_countP within
  rw [placed, Array.countP_set, here]
  omega

@[simp]
theorem size_modify (graph : Graph) (id : NodeId) (change : Node → Node) :
    (graph.modify id change).size = graph.size :=
  Array.size_modify

/-! ## Frames -/

/-- What no delivery changes of a graph. -/
def frame (graph : Graph) : Graph :=
  ⟨graph.nodes.map Node.frame⟩

@[simp]
theorem node?_frame (graph : Graph) (id : NodeId) :
    graph.frame.node? id = (graph.node? id).map Node.frame := by
  simp [frame, node?]

@[simp]
theorem size_frame (graph : Graph) : graph.frame.size = graph.size :=
  Array.size_map

@[simp]
theorem children_frame (graph : Graph) (id : NodeId) :
    graph.frame.children id = graph.children id := by
  cases found : graph.node? id <;> simp [children, found]

@[simp]
theorem parents_frame (graph : Graph) (id : NodeId) :
    graph.frame.parents id = graph.parents id := by
  cases found : graph.node? id <;> simp [parents, found]

@[simp]
theorem predicate?_frame (graph : Graph) (id : NodeId) :
    graph.frame.predicate? id = graph.predicate? id := by
  cases found : graph.node? id <;> simp [predicate?, found]

@[simp]
theorem root?_frame (graph : Graph) (id : NodeId) :
    graph.frame.root? id = graph.root? id := by
  cases found : graph.node? id <;> simp [root?, found]

@[simp]
theorem group?_frame (graph : Graph) (id : NodeId) :
    graph.frame.group? id = graph.group? id := by
  cases found : graph.node? id <;> simp [group?, found]

@[simp]
theorem isGroup_frame (graph : Graph) (id : NodeId) :
    graph.frame.isGroup id = graph.isGroup id := by
  cases found : graph.node? id <;> simp [isGroup, found]

section

variable {first second : Graph} (same : first.frame = second.frame)

include same

theorem size_of_frame_eq : first.size = second.size := by
  rw [← size_frame first, same, size_frame]

theorem children_of_frame_eq : first.children = second.children := by
  funext id
  rw [← children_frame first, same, children_frame]

theorem parents_of_frame_eq : first.parents = second.parents := by
  funext id
  rw [← parents_frame first, same, parents_frame]

theorem predicate?_of_frame_eq : first.predicate? = second.predicate? := by
  funext id
  rw [← predicate?_frame first, same, predicate?_frame]

theorem root?_of_frame_eq : first.root? = second.root? := by
  funext id
  rw [← root?_frame first, same, root?_frame]

theorem group?_of_frame_eq : first.group? = second.group? := by
  funext id
  rw [← group?_frame first, same, group?_frame]

theorem isGroup_of_frame_eq : first.isGroup = second.isGroup := by
  funext id
  rw [← isGroup_frame first, same, isGroup_frame]

end

/-- A change that keeps a node's frame keeps the graph's. -/
theorem frame_modify (graph : Graph) (id : NodeId) (change : Node → Node)
    (keeps : ∀ node, graph.node? id = some node → (change node).frame = node.frame) :
    (graph.modify id change).frame = graph.frame := by
  apply ext_node?
  intro other
  rw [node?_frame, node?_frame, node?_modify]
  split
  case isTrue same =>
    subst same
    cases found : graph.node? id with
    | none => rfl
    | some node => simp [keeps node found]
  case isFalse => rfl

end Graph

end Tripwire
