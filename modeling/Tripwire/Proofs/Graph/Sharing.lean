import Tripwire.Proofs.Graph.Growth

/-!
# Nodes are found again

A search finds the node of a test or a group if there is one, so that a node is added only for
what has none, and no test and no group ever has two.
-/

namespace Tripwire

namespace Graph

/-- No test and no group has two nodes. -/
structure Distinct (graph : Graph) : Prop where
  test : ∀ {first second predicate}, graph.predicate? first = some predicate →
    graph.predicate? second = some predicate → first = second
  group : ∀ {first second junction children others},
    graph.group? first = some (junction, children) →
    graph.group? second = some (junction, others) → children.Perm others → first = second

theorem Distinct.of_frame_eq {first second : Graph} (same : first.frame = second.frame)
    (distinct : first.Distinct) : second.Distinct where
  test found other := by
    rw [← predicate?_of_frame_eq same] at found other
    exact distinct.test found other
  group found other := by
    rw [← group?_of_frame_eq same] at found other
    exact distinct.group found other

theorem distinct_empty : Graph.empty.Distinct where
  test found := by simp [predicate?, node?, empty] at found
  group found := by simp [group?, node?, empty] at found

theorem findTest?_eq_some {graph : Graph} {predicate : Predicate} {id : NodeId}
    (found : graph.findTest? predicate = some id) : graph.predicate? id = some predicate := by
  obtain ⟨within, test, _⟩ := List.findIdx?_eq_some_iff_getElem.1 found
  have here : graph.node? id = some graph.nodes.toList[id] := by
    rw [node?, ← Array.getElem?_toList, List.getElem?_eq_getElem within]
  simpa [predicate?, here] using test

theorem findTest?_eq_none {graph : Graph} {predicate : Predicate}
    (missing : graph.findTest? predicate = none) (id : NodeId) :
    graph.predicate? id ≠ some predicate := by
  intro found
  obtain ⟨node, here, test⟩ := Option.bind_eq_some_iff.1 found
  have differs := List.findIdx?_eq_none_iff.1 missing node (Array.mem_of_getElem? here).val
  simp [test] at differs

/-- The node of a test is the one that a search finds. -/
theorem Distinct.findTest?_eq {graph : Graph} (distinct : graph.Distinct) {id : NodeId}
    {predicate : Predicate} (found : graph.predicate? id = some predicate) :
    graph.findTest? predicate = some id := by
  cases searched : graph.findTest? predicate with
  | none => exact absurd found (findTest?_eq_none searched id)
  | some other => rw [distinct.test (findTest?_eq_some searched) found]

theorem isGroupOf_iff {junction : Junction} {children : List NodeId} {node : Node} :
    node.isGroupOf junction children = true ↔
      ∃ others, node.group? = some (junction, others) ∧ others.Perm children := by
  obtain ⟨kind, status, parents⟩ := node
  cases kind with
  | test predicate => simp [Node.isGroupOf, Node.group?]
  | group other others holding =>
      simp only [Node.isGroupOf, Node.group?, Bool.and_eq_true, beq_iff_eq, List.isPerm_iff,
        Option.some.injEq, Prod.mk.injEq]
      constructor
      · rintro ⟨rfl, same⟩
        exact ⟨others, ⟨rfl, rfl⟩, same⟩
      · rintro ⟨_, ⟨rfl, rfl⟩, same⟩
        exact ⟨rfl, same⟩
  | root root => simp [Node.isGroupOf, Node.group?]

theorem findGroup?_eq_some {graph : Graph} {junction : Junction} {children : List NodeId}
    {id : NodeId} (found : graph.findGroup? junction children = some id) :
    ∃ others, graph.group? id = some (junction, others) ∧ others.Perm children := by
  obtain ⟨within, group, _⟩ := List.findIdx?_eq_some_iff_getElem.1 found
  have here : graph.node? id = some graph.nodes.toList[id] := by
    rw [node?, ← Array.getElem?_toList, List.getElem?_eq_getElem within]
  simpa [group?, here] using isGroupOf_iff.1 group

theorem findGroup?_eq_none {graph : Graph} {junction : Junction} {children : List NodeId}
    (missing : graph.findGroup? junction children = none) {id : NodeId}
    {others : List NodeId} (found : graph.group? id = some (junction, others)) :
    ¬others.Perm children := by
  intro same
  obtain ⟨node, here, group⟩ := Option.bind_eq_some_iff.1 found
  have differs := List.findIdx?_eq_none_iff.1 missing node (Array.mem_of_getElem? here).val
  rw [isGroupOf_iff.2 ⟨others, group, same⟩] at differs
  cases differs

/-- A node on top keeps a graph without doubles, if what it stands for had none. -/
theorem Distinct.mount {graph : Graph} {kind : Node.Kind} {status : Bool}
    (distinct : graph.Distinct)
    (below : ∀ child ∈ Node.children ⟨kind, status, []⟩, child < graph.size)
    (test : ∀ {predicate}, kind = .test predicate →
      ∀ id, graph.predicate? id ≠ some predicate)
    (group : ∀ {junction children holding}, kind = .group junction children holding →
      ∀ {id others}, graph.group? id = some (junction, others) → ¬others.Perm children) :
    (graph.mount kind status).Distinct where
  test := by
    intro first second predicate found other
    rcases predicate?_of_mount below found with ⟨last, isTest⟩ | earlier
    · rcases predicate?_of_mount below other with ⟨alsoLast, _⟩ | alsoEarlier
      · rw [last, alsoLast]
      · exact absurd alsoEarlier (test isTest second)
    · rcases predicate?_of_mount below other with ⟨_, isTest⟩ | alsoEarlier
      · exact absurd earlier (test isTest first)
      · exact distinct.test earlier alsoEarlier
  group := by
    intro first second junction children others found other same
    rcases group?_of_mount below found with ⟨last, _, isGroup⟩ | earlier
    · rcases group?_of_mount below other with ⟨alsoLast, _⟩ | alsoEarlier
      · rw [last, alsoLast]
      · exact absurd same.symm (group isGroup alsoEarlier)
    · rcases group?_of_mount below other with ⟨_, _, isGroup⟩ | alsoEarlier
      · exact absurd same (group isGroup earlier)
      · exact distinct.group earlier alsoEarlier same

end Graph

end Tripwire
