import Mathlib.Data.Fintype.EquivFin
import Mathlib.Logic.Relation
import Tripwire.Proofs.Graph.Frame

/-!
# Edges

Every edge is kept at both of its ends, as often as it is there. A graph is linked if moreover
every node stands on earlier nodes, none of which is a root. Whatever edges lead down to is then
earlier as well, so that they never lead back. Where edges never lead back, what holds of a node
whenever it holds of those below it holds of all nodes.
-/

namespace Tripwire

namespace Graph

/-- Both ends of every edge know of it. -/
structure Paired (graph : Graph) : Prop where
  count_eq : ∀ child parent,
    (graph.parents child).count parent = (graph.children parent).count child

/-- Both ends of every edge know of it, and edges go up from earlier nodes. -/
structure Linked (graph : Graph) : Prop extends graph.Paired where
  below : ∀ {id child}, child ∈ graph.children id → child < id
  shared : ∀ {id child}, child ∈ graph.children id → graph.root? child = none

/-- Edges lead from a node down to another, or the two are the same. -/
def Leads (graph : Graph) : NodeId → NodeId → Prop :=
  Relation.ReflTransGen fun id child => child ∈ graph.children id

/-- No edge leads to a node from which edges lead back. -/
def Acyclic (graph : Graph) : Prop :=
  ∀ id child, child ∈ graph.children id → ¬graph.Leads child id

namespace Paired

theorem mem_parents_iff {graph : Graph} (paired : graph.Paired) (child parent : NodeId) :
    parent ∈ graph.parents child ↔ child ∈ graph.children parent := by
  rw [← List.count_pos_iff, ← List.count_pos_iff, paired.count_eq]

/-- What stands on a node is a node. -/
theorem lt_size_of_mem_parents {graph : Graph} (paired : graph.Paired)
    {id parent : NodeId} (member : parent ∈ graph.parents id) : parent < graph.size := by
  have isChild := (paired.mem_parents_iff id parent).1 member
  apply Nat.lt_of_not_le
  intro outside
  rw [children, node?_eq_none_iff.2 outside] at isChild
  cases isChild

/-- What a node stands on is a node. -/
theorem lt_size {graph : Graph} (paired : graph.Paired) {id child : NodeId}
    (member : child ∈ graph.children id) : child < graph.size := by
  have isParent := (paired.mem_parents_iff child id).2 member
  apply Nat.lt_of_not_le
  intro outside
  rw [parents, node?_eq_none_iff.2 outside] at isParent
  cases isParent

theorem of_frame_eq {first second : Graph} (same : first.frame = second.frame)
    (paired : first.Paired) : second.Paired where
  count_eq child parent := by
    rw [← parents_of_frame_eq same, ← children_of_frame_eq same]
    exact paired.count_eq child parent

end Paired

namespace Linked

theorem of_frame_eq {first second : Graph} (same : first.frame = second.frame)
    (linked : first.Linked) : second.Linked where
  toPaired := linked.toPaired.of_frame_eq same
  below member := by
    rw [← children_of_frame_eq same] at member
    exact linked.below member
  shared member := by
    rw [← children_of_frame_eq same] at member
    rw [← root?_of_frame_eq same]
    exact linked.shared member

end Linked

/-- Edges that go down to earlier nodes never lead back. -/
theorem acyclic_of_below {graph : Graph}
    (below : ∀ {id child}, child ∈ graph.children id → child < id) : graph.Acyclic := by
  have descends : ∀ {id inner}, graph.Leads id inner → inner ≤ id := by
    intro id inner leads
    induction leads with
    | refl => exact Nat.le_refl id
    | tail _ member ih => exact Nat.le_trans (Nat.le_of_lt (below member)) ih
  exact fun _ _ member leads => Nat.not_lt.2 (descends leads) (below member)

theorem Linked.acyclic {graph : Graph} (linked : graph.Linked) : graph.Acyclic :=
  acyclic_of_below linked.below

namespace Acyclic

variable {graph : Graph}

theorem of_frame_eq {other : Graph} (same : graph.frame = other.frame) (acyclic : graph.Acyclic) :
    other.Acyclic := by
  intro id child member leads
  rw [← children_of_frame_eq same] at member
  rw [Leads, ← children_of_frame_eq same] at leads
  exact acyclic id child member leads

/-- Steps from a node down to its children come to an end. -/
theorem wellFounded (acyclic : graph.Acyclic) (paired : graph.Paired) :
    WellFounded fun child id => child ∈ graph.children id := by
  let below (child id : NodeId) : Prop := child ∈ graph.children id
  let deeper (inner outer : Fin graph.size) : Prop := Relation.TransGen below inner outer
  have transitive : IsTrans (Fin graph.size) deeper := ⟨fun _ _ _ => Relation.TransGen.trans⟩
  have irreflexive : Std.Irrefl deeper := by
    refine ⟨fun id round => ?_⟩
    obtain ⟨parent, member, back⟩ := Relation.TransGen.head'_iff.1 round
    exact acyclic parent id member (Relation.reflTransGen_swap.2 back)
  have founded : WellFounded deeper := Finite.wellFounded_of_trans_of_irrefl deeper
  have inside (id : Fin graph.size) : Acc below id := by
    induction id using founded.induction with
    | _ id ih =>
        refine Acc.intro _ fun child member => ?_
        exact ih ⟨child, paired.lt_size member⟩ (.single member)
  exact ⟨fun id => Acc.intro id fun child member => inside ⟨child, paired.lt_size member⟩⟩

end Acyclic

theorem linked_empty : Graph.empty.Linked where
  count_eq child parent := by simp [parents, children, node?, empty]
  below member := by simp [children, node?, empty] at member
  shared member := by simp [children, node?, empty] at member

end Graph

end Tripwire
