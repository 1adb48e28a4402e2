import Tripwire.Proofs.Graph.Formulas

/-!
# What determines a graph

Statuses and counts follow from the statuses of the tests, whatever brought a graph to rest: graphs
of one frame, in which edges never lead back, are the same if their tests stand alike, and what agrees
below a node is seen alike above it.
-/

namespace Tripwire

/-- Nodes of one frame are the same if they have the same status and, as groups, the same count. -/
theorem Node.eq_of_frame_eq {node other : Node} (same : node.frame = other.frame)
    (standing : node.status = other.status)
    (counted : ∀ {junction children holding count}, node.kind = .group junction children holding →
      other.kind = .group junction children count → holding = count) : node = other := by
  obtain ⟨kind, status, parents⟩ := node
  obtain ⟨otherKind, otherStatus, others⟩ := other
  cases standing
  cases kind with
  | test predicate =>
      cases otherKind with
      | test known =>
          cases same
          rfl
      | group junction children holding => cases same
      | root root => cases same
  | group junction children holding =>
      cases otherKind with
      | group joined members count =>
          cases same
          cases counted rfl rfl
          rfl
      | test predicate => cases same
      | root root => cases same
  | root root =>
      cases otherKind with
      | root known =>
          cases same
          rfl
      | test predicate => cases same
      | group junction children holding => cases same

namespace Graph

section

variable {first second : Graph} {truth other : NodeId → Bool} (paired : first.Paired)
  (acyclic : first.Acyclic) (same : first.frame = second.frame) (agrees : first.Agrees truth)
  (also : second.Agrees other)
  (alike : ∀ {id}, first.status id = second.status id → truth id = other id)
  (tests : ∀ {id predicate}, first.predicate? id = some predicate →
    first.status id = second.status id)

include paired acyclic same agrees also alike tests

/-- Statuses agree above tests that stand alike. -/
theorem status_eq_of_tests {id : NodeId} (within : id < first.size) :
    first.status id = second.status id := by
  -- edges never lead back, so that statuses agree below a node before they do at it
  induction id using (acyclic.wellFounded paired).induction with
  | _ id ih =>
      rcases kind_cases within with ⟨predicate, test⟩ | ⟨junction, children, group⟩ | ⟨root, top⟩
      · exact tests test
      · have there : second.group? id = some (junction, children) := by
          rw [← group?_of_frame_eq same, group]
        rw [status_of_group agrees group, status_of_group also there]
        refine congrArg junction.combine (List.map_congr_left fun child member => ?_)
        rw [← children_of_group? group] at member
        exact alike (ih child member (paired.lt_size member))
      · have there : second.root? id = some root := by rw [← root?_of_frame_eq same, top]
        have member := child_mem_of_root? top
        rw [status_of_root agrees top, status_of_root also there]
        exact alike (ih root.child member (paired.lt_size member))

/-- Graphs of one frame are the same if their tests stand alike. -/
theorem eq_of_tests : first = second := by
  have statuses : ∀ {id}, id < first.size → first.status id = second.status id :=
    status_eq_of_tests paired acyclic same agrees also alike tests
  refine ext_node? fun id => ?_
  have frames : (first.node? id).map Node.frame = (second.node? id).map Node.frame := by
    rw [← node?_frame, same, node?_frame]
  cases here : first.node? id with
  | none =>
      rw [here, Option.map_none, eq_comm, Option.map_eq_none_iff] at frames
      exact frames.symm
  | some node =>
      rw [here, Option.map_some, eq_comm, Option.map_eq_some_iff] at frames
      obtain ⟨counterpart, there, matching⟩ := frames
      rw [there]
      refine congrArg some (Node.eq_of_frame_eq matching.symm ?_ ?_)
      · rw [← status_of_node? here, ← status_of_node? there]
        exact statuses (lt_size_of_node? here)
      · intro junction children holding count group twin
        obtain ⟨kind, status, parents⟩ := node
        obtain ⟨otherKind, stands, others⟩ := counterpart
        cases group
        cases twin
        rw [(agrees.group here).1, (also.group there).1]
        refine List.countP_congr fun child member => ?_
        rw [← children_of_group here] at member
        rw [alike (statuses (paired.lt_size member))]

end

end Graph

end Tripwire
