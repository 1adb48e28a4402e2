import Tripwire.Proofs.Network.Wiring

/-!
# What has a node is wired to it

Wiring a formula that differs from one with a node in the order of members only adds nothing: its
tests and groups are found again, from the leaves up, and it is wired to that node.
-/

namespace Tripwire

namespace Graph

variable {graph : Graph} {id : NodeId}

/-- Below a node for a group every member has a node, and the node has these as its children. -/
theorem Stands.exists_group (linked : graph.Linked) {junction : Junction}
    {members : List Formula} (stands : graph.Stands id (.group junction members)) :
    ∃ children, graph.group? id = some (junction, children) ∧
      (children.map graph.form?).Perm ((members.map Formula.canonical).map some) := by
  obtain ⟨formula, known, same⟩ := Option.map_eq_some_iff.1 stands.form
  rcases formula?_cases linked known with ⟨predicate, _, rfl⟩ |
    ⟨joined, children, inner, group, read, rfl⟩ | ⟨root, top, _⟩
  · exact absurd same Formula.canonical_test_ne_group
  · obtain ⟨rfl, forms⟩ := Formula.canonical_group_inj.1 same
    refine ⟨children, group, ?_⟩
    rw [map_form?_of_mapM read]
    exact forms.map some
  · rw [stands.inner] at top
    cases top

theorem Stands.exists_member (linked : graph.Linked) {junction : Junction}
    {members : List Formula} (stands : graph.Stands id (.group junction members))
    {member : Formula} (among : member ∈ members) : ∃ child, graph.Stands child member := by
  obtain ⟨children, group, forms⟩ := stands.exists_group linked
  have form : some member.canonical ∈ children.map graph.form? :=
    forms.mem_iff.2 (List.mem_map_of_mem (List.mem_map_of_mem among))
  obtain ⟨child, isChild, found⟩ := List.mem_map.1 form
  rw [← children_of_group? group] at isChild
  exact ⟨child, linked.shared isChild, found⟩

/-- The node of a group is found by nodes for its members. -/
theorem Stands.findGroup?_eq (linked : graph.Linked) (distinct : graph.Distinct)
    {junction : Junction} {members : List Formula} {children : List NodeId}
    (stands : graph.Stands id (.group junction members))
    (each : List.Forall₂ graph.Stands children members) :
    graph.findGroup? junction children = some id := by
  obtain ⟨others, group, forms⟩ := stands.exists_group linked
  have same : others.Perm children := by
    refine perm_of_map_perm (f := graph.form?) ?_ ?_
    · intro child isChild other isOther alike
      rw [← children_of_group? group] at isChild
      obtain ⟨formula, known⟩ := exists_formula linked (linked.lt_size isChild)
      have form : graph.form? child = some formula.canonical := by rw [form?, known]; rfl
      exact distinct.eq_of_form? linked (linked.shared isChild) (inner_of_stands each isOther).2
        form (alike ▸ form)
    · rw [map_form?_of_stands each]
      exact forms
  cases found : graph.findGroup? junction children with
  | none => exact absurd same (findGroup?_eq_none found group)
  | some other =>
      obtain ⟨counterparts, alsoGroup, alike⟩ := findGroup?_eq_some found
      rw [distinct.group alsoGroup group (alike.trans same.symm)]

end Graph

namespace Network

variable {network : Network}

theorem wireMembers_of_stand {members : List Formula}
    (each : ∀ member ∈ members, ∃ child, network.graph.Stands child member ∧
      network.wire member = (network, child)) :
    ∃ children, network.wireMembers members = (network, children) ∧
      List.Forall₂ network.graph.Stands children members := by
  induction members with
  | nil => exact ⟨[], rfl, .nil⟩
  | cons first rest ih =>
      obtain ⟨child, stands, wired⟩ := each first (.head _)
      obtain ⟨children, others, stand⟩ := ih fun member among => each member (.tail _ among)
      exact ⟨child :: children, by simp only [wireMembers, wired, others], .cons stands stand⟩

/-- A formula with a node is wired to it, and nothing is added. -/
theorem Sound.wire_of_stands (sound : network.Sound) {formula : Formula} {id : NodeId}
    (stands : network.graph.Stands id formula) : network.wire formula = (network, id) := by
  induction formula using Formula.induction generalizing id with
  | test predicate =>
      have test := Graph.predicate?_of_form? sound.linked stands.inner stands.form
      rw [wire, Network.wireTest, sound.distinct.findTest?_eq test]
  | group junction members ih =>
      obtain ⟨children, wired, each⟩ := wireMembers_of_stand fun member among => by
        obtain ⟨child, below⟩ := stands.exists_member sound.linked among
        exact ⟨child, below, ih member among below⟩
      rw [wire, wired]
      simp only [Graph.shareGroup, stands.findGroup?_eq sound.linked sound.distinct each]

end Network

end Tripwire
