import Tripwire.Proofs.Graph.Settled

/-!
# Growing graphs

Wiring a condition only ever puts a node on top of others. Nodes that were there keep all but
their parents, to which the new node is added once for each edge.
-/

namespace Tripwire

namespace Graph

/-- Every node stays what it is, with its parents first among its later ones. -/
structure Grows (before after : Graph) : Prop where
  node : ∀ {id node}, before.node? id = some node →
    ∃ added, after.node? id = some { node with parents := node.parents ++ added }

namespace Grows

theorem refl (graph : Graph) : graph.Grows graph where
  node found := ⟨[], by simp [found]⟩

theorem trans {first second third : Graph} (early : first.Grows second)
    (late : second.Grows third) : first.Grows third where
  node found := by
    obtain ⟨added, middle⟩ := early.node found
    obtain ⟨more, last⟩ := late.node middle
    exact ⟨added ++ more, by simpa using last⟩

variable {before after : Graph}

theorem size_le (grows : before.Grows after) : before.size ≤ after.size := by
  apply Nat.le_of_not_lt
  intro smaller
  obtain ⟨node, found⟩ := exists_node? smaller
  obtain ⟨added, there⟩ := grows.node found
  exact Nat.lt_irrefl _ (lt_size_of_node? there)

theorem status_eq (grows : before.Grows after) {id : NodeId} (within : id < before.size) :
    after.status id = before.status id := by
  obtain ⟨node, found⟩ := exists_node? within
  obtain ⟨added, there⟩ := grows.node found
  rw [status_of_node? found, status_of_node? there]

theorem predicate?_eq (grows : before.Grows after) {id : NodeId} (within : id < before.size) :
    after.predicate? id = before.predicate? id := by
  obtain ⟨node, found⟩ := exists_node? within
  obtain ⟨added, there⟩ := grows.node found
  simp [predicate?, found, there, Node.predicate?]

theorem group?_eq (grows : before.Grows after) {id : NodeId} (within : id < before.size) :
    after.group? id = before.group? id := by
  obtain ⟨node, found⟩ := exists_node? within
  obtain ⟨added, there⟩ := grows.node found
  simp [group?, found, there, Node.group?]

theorem root?_eq (grows : before.Grows after) {id : NodeId} (within : id < before.size) :
    after.root? id = before.root? id := by
  obtain ⟨node, found⟩ := exists_node? within
  obtain ⟨added, there⟩ := grows.node found
  simp [root?, found, there, Node.root?]

end Grows

/-! ## One node more -/

/-- The graph with one more node on top, of which its children know. -/
def mount (graph : Graph) (kind : Node.Kind) (status : Bool) : Graph :=
  (Node.children ⟨kind, status, []⟩).foldl (addParent graph.size) (graph.push kind status)

theorem node?_push (graph : Graph) (kind : Node.Kind) (status : Bool) (id : NodeId) :
    (graph.push kind status).node? id =
      if id = graph.size then some ⟨kind, status, []⟩ else graph.node? id := by
  unfold node? push size
  exact Array.getElem?_push

theorem node?_foldl_addParent (parent : NodeId) (children : List NodeId) (graph : Graph)
    (id : NodeId) :
    (children.foldl (addParent parent) graph).node? id =
      (graph.node? id).map fun node =>
        { node with parents := node.parents ++ List.replicate (children.count id) parent } := by
  induction children generalizing graph with
  | nil => cases found : graph.node? id <;> simp [found]
  | cons child children ih =>
      rw [List.foldl_cons, ih, addParent, node?_modify]
      by_cases same : child = id
      · subst same
        cases found : graph.node? child with
        | none => simp
        | some node => simp [List.replicate_succ]
      · simp [same]

section

variable {graph : Graph} {kind : Node.Kind} {status : Bool}

theorem node?_mount (below : ∀ child ∈ Node.children ⟨kind, status, []⟩, child < graph.size)
    (id : NodeId) :
    (graph.mount kind status).node? id =
      if id = graph.size then some ⟨kind, status, []⟩
      else (graph.node? id).map fun node =>
        { node with
          parents := node.parents ++
            List.replicate ((Node.children ⟨kind, status, []⟩).count id) graph.size } := by
  unfold mount
  rw [node?_foldl_addParent, node?_push]
  by_cases last : id = graph.size
  · have absent : id ∉ Node.children ⟨kind, status, []⟩ := by
      intro member
      exact Nat.lt_irrefl _ (last ▸ below id member)
    simp [last, List.count_eq_zero.2 (last ▸ absent)]
  · simp [last]

theorem size_mount (graph : Graph) (kind : Node.Kind) (status : Bool) :
    (graph.mount kind status).size = graph.size + 1 := by
  unfold mount
  have kept : ∀ (children : List NodeId) (grown : Graph),
      (children.foldl (addParent graph.size) grown).size = grown.size := by
    intro children
    induction children with
    | nil => intro grown; rfl
    | cons child children ih =>
        intro grown
        rw [List.foldl_cons, ih, addParent, size_modify]
  rw [kept]
  exact Array.size_push _

theorem grows_mount (below : ∀ child ∈ Node.children ⟨kind, status, []⟩, child < graph.size) :
    graph.Grows (graph.mount kind status) where
  node found := by
    have apart := Nat.ne_of_lt (lt_size_of_node? found)
    exact ⟨_, by rw [node?_mount below, if_neg apart, found, Option.map_some]⟩

theorem node?_mount_size
    (below : ∀ child ∈ Node.children ⟨kind, status, []⟩, child < graph.size) :
    (graph.mount kind status).node? graph.size = some ⟨kind, status, []⟩ := by
  rw [node?_mount below, if_pos rfl]

/-- A root on top is one more parent of its child and of nothing else. -/
theorem node?_mount_root {root : Root} (below : root.child < graph.size) {id : NodeId}
    (earlier : id < graph.size) :
    (graph.mount (.root root) status).node? id = (graph.node? id).map fun node =>
      if id = root.child then { node with parents := node.parents ++ [graph.size] } else node := by
  have within : ∀ child ∈ Node.children ⟨.root root, status, []⟩, child < graph.size :=
    List.forall_mem_singleton.2 below
  rw [node?_mount within, if_neg (Nat.ne_of_lt earlier)]
  congr 1
  funext node
  by_cases same : id = root.child
  · subst same
    simp [Node.children]
  · simp [Node.children, same, Ne.symm same]

/-- A node of the larger graph is the new one or was there but for a parent. -/
theorem node?_of_mount (below : ∀ child ∈ Node.children ⟨kind, status, []⟩, child < graph.size)
    {id : NodeId} {other : Node.Kind} {stands : Bool} {parents : List NodeId}
    (found : (graph.mount kind status).node? id = some ⟨other, stands, parents⟩) :
    (id = graph.size ∧ other = kind ∧ stands = status) ∨
      ∃ earlier, graph.node? id = some ⟨other, stands, earlier⟩ := by
  rw [node?_mount below] at found
  split at found
  case isTrue last =>
    cases found
    exact Or.inl ⟨last, rfl, rfl⟩
  case isFalse =>
    obtain ⟨node, there, same⟩ := Option.map_eq_some_iff.1 found
    cases same
    exact Or.inr ⟨node.parents, there⟩

theorem children_mount (below : ∀ child ∈ Node.children ⟨kind, status, []⟩, child < graph.size)
    (id : NodeId) :
    (graph.mount kind status).children id =
      if id = graph.size then Node.children ⟨kind, status, []⟩ else graph.children id := by
  unfold children
  rw [node?_mount below]
  split
  case isTrue => rfl
  case isFalse =>
    cases found : graph.node? id <;> rfl

theorem predicate?_mount
    (below : ∀ child ∈ Node.children ⟨kind, status, []⟩, child < graph.size) (id : NodeId) :
    (graph.mount kind status).predicate? id =
      if id = graph.size then Node.predicate? ⟨kind, status, []⟩ else graph.predicate? id := by
  unfold predicate?
  rw [node?_mount below]
  split
  case isTrue => rfl
  case isFalse =>
    cases found : graph.node? id <;> rfl

theorem group?_mount (below : ∀ child ∈ Node.children ⟨kind, status, []⟩, child < graph.size)
    (id : NodeId) :
    (graph.mount kind status).group? id =
      if id = graph.size then Node.group? ⟨kind, status, []⟩ else graph.group? id := by
  unfold group?
  rw [node?_mount below]
  split
  case isTrue => rfl
  case isFalse =>
    cases found : graph.node? id <;> rfl

theorem predicate?_of_mount
    (below : ∀ child ∈ Node.children ⟨kind, status, []⟩, child < graph.size) {id : NodeId}
    {predicate : Predicate} (found : (graph.mount kind status).predicate? id = some predicate) :
    (id = graph.size ∧ kind = .test predicate) ∨ graph.predicate? id = some predicate := by
  rw [predicate?_mount below] at found
  split at found
  case isTrue last =>
    cases kind with
    | test known =>
        cases found
        exact Or.inl ⟨last, rfl⟩
    | group junction children holding => cases found
    | root root => cases found
  case isFalse => exact Or.inr found

theorem group?_of_mount
    (below : ∀ child ∈ Node.children ⟨kind, status, []⟩, child < graph.size) {id : NodeId}
    {junction : Junction} {children : List NodeId}
    (found : (graph.mount kind status).group? id = some (junction, children)) :
    (id = graph.size ∧ ∃ holding, kind = .group junction children holding) ∨
      graph.group? id = some (junction, children) := by
  rw [group?_mount below] at found
  split at found
  case isTrue last =>
    cases kind with
    | group joined members holding =>
        cases found
        exact Or.inl ⟨last, holding, rfl⟩
    | test predicate => cases found
    | root root => cases found
  case isFalse => exact Or.inr found

theorem root?_mount (below : ∀ child ∈ Node.children ⟨kind, status, []⟩, child < graph.size)
    (id : NodeId) :
    (graph.mount kind status).root? id =
      if id = graph.size then Node.root? ⟨kind, status, []⟩ else graph.root? id := by
  unfold root?
  rw [node?_mount below]
  split
  case isTrue => rfl
  case isFalse =>
    cases found : graph.node? id <;> rfl

theorem parents_mount (below : ∀ child ∈ Node.children ⟨kind, status, []⟩, child < graph.size)
    (id : NodeId) :
    (graph.mount kind status).parents id =
      graph.parents id ++
        List.replicate ((Node.children ⟨kind, status, []⟩).count id) graph.size := by
  unfold parents
  rw [node?_mount below]
  split
  case isTrue last =>
    have absent : id ∉ Node.children ⟨kind, status, []⟩ := by
      intro member
      exact Nat.lt_irrefl _ (last ▸ below id member)
    have outside : graph.node? id = none := node?_eq_none_iff.2 (Nat.le_of_eq last.symm)
    simp [outside, List.count_eq_zero.2 absent]
  case isFalse last =>
    cases found : graph.node? id with
    | some node => simp
    | none =>
        have absent : id ∉ Node.children ⟨kind, status, []⟩ := by
          intro member
          have within := below id member
          exact Nat.lt_irrefl _ (Nat.lt_of_lt_of_le within (node?_eq_none_iff.1 found))
        simp [List.count_eq_zero.2 absent]

theorem Paired.mount (paired : graph.Paired)
    (below : ∀ child ∈ Node.children ⟨kind, status, []⟩, child < graph.size) :
    (graph.mount kind status).Paired where
  count_eq child parent := by
    rw [parents_mount below, children_mount below, List.count_append, List.count_replicate,
      paired.count_eq]
    by_cases last : parent = graph.size
    · have outside : graph.children graph.size = [] := by
        simp [Graph.children, node?_eq_none_iff.2 (Nat.le_refl graph.size)]
      simp [last, outside]
    · simp [last, Ne.symm last]

theorem Linked.mount (linked : graph.Linked)
    (below : ∀ child ∈ Node.children ⟨kind, status, []⟩, child < graph.size)
    (shared : ∀ child ∈ Node.children ⟨kind, status, []⟩, graph.root? child = none) :
    (graph.mount kind status).Linked where
  toPaired := linked.toPaired.mount below
  below member := by
    rw [children_mount below] at member
    split at member
    case isTrue last => exact last ▸ below _ member
    case isFalse => exact linked.below member
  shared member := by
    rw [children_mount below] at member
    split at member
    case isTrue =>
      rw [(grows_mount below).root?_eq (below _ member)]
      exact shared _ member
    case isFalse =>
      rw [(grows_mount below).root?_eq (linked.lt_size member)]
      exact linked.shared member

theorem Settled.mount (settled : graph.Settled) (paired : graph.Paired)
    (below : ∀ child ∈ Node.children ⟨kind, status, []⟩, child < graph.size)
    (group : ∀ {junction children holding}, kind = .group junction children holding →
      holding = children.countP graph.status ∧
        status = junction.status holding children.length)
    (root : ∀ {root}, kind = .root root → status = graph.status root.child) :
    (graph.mount kind status).Settled := by
  have agrees : (graph.mount kind status).Agrees graph.status := by
    refine ⟨fun found => ?_, fun found => ?_⟩
    · rcases node?_of_mount below found with ⟨_, rfl, rfl⟩ | ⟨earlier, there⟩
      · exact group rfl
      · exact settled.group there
    · rcases node?_of_mount below found with ⟨_, rfl, rfl⟩ | ⟨earlier, there⟩
      · exact root rfl
      · exact settled.root there
  refine agrees.congr fun id child member => ?_
  rw [children_mount below] at member
  split at member
  case isTrue => exact ((grows_mount below).status_eq (below _ member)).symm
  case isFalse => exact ((grows_mount below).status_eq (paired.lt_size member)).symm

end

end Graph

end Tripwire
