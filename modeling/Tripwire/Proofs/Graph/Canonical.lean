import Tripwire.Proofs.Formula.Canonical
import Tripwire.Proofs.Graph.Formulas
import Tripwire.Proofs.Graph.Sharing

/-!
# Nodes and canonical forms

Children are compared as handles, and handles stand for canonical forms one to one: nodes below
the roots whose formulas have one canonical form are the same node.
-/

namespace Tripwire

/-- Lists that a function makes equal up to order are so themselves, if it tells the elements
of the one from those of the other. -/
theorem perm_of_map_perm {α β : Type} {f : α → β} {items others : List α}
    (apart : ∀ item ∈ items, ∀ other ∈ others, f item = f other → item = other)
    (same : (items.map f).Perm (others.map f)) : items.Perm others := by
  induction items generalizing others with
  | nil =>
      have empty : others.map f = [] := List.nil_perm.1 same
      rw [List.map_eq_nil_iff.1 empty]
  | cons item items ih =>
      have among : f item ∈ others.map f := same.mem_iff.1 List.mem_cons_self
      obtain ⟨twin, member, alike⟩ := List.mem_map.1 among
      have here : item = twin := apart item List.mem_cons_self twin member alike.symm
      subst here
      obtain ⟨front, back, split⟩ := List.append_of_mem member
      have middle : others.Perm (item :: (front ++ back)) := by
        rw [split]
        exact List.perm_middle
      have rest : (items.map f).Perm ((front ++ back).map f) :=
        (same.trans (middle.map f)).cons_inv
      refine ((ih ?_ rest).cons item).trans middle.symm
      intro other isItem counterpart isOther
      refine apart other (List.mem_cons_of_mem _ isItem) counterpart ?_
      exact middle.mem_iff.2 (List.mem_cons_of_mem _ isOther)

namespace Graph

variable {graph : Graph}

/-- The canonical form of the formula that a node stands for. -/
noncomputable def form? (graph : Graph) (id : NodeId) : Option Formula :=
  (graph.formula? id).map Formula.canonical

theorem lt_size_of_form? {id : NodeId} {form : Formula} (found : graph.form? id = some form) :
    id < graph.size := by
  obtain ⟨formula, known, _⟩ := Option.map_eq_some_iff.1 found
  exact lt_size_of_formula? known

theorem map_form?_of_mapM {children : List NodeId} {members : List Formula}
    (read : children.mapM graph.formula? = some members) :
    children.map graph.form? = (members.map Formula.canonical).map some := by
  rw [List.map_map]
  refine map_eq_of_mapM read fun child _ formula known => ?_
  rw [form?, known]
  rfl

/-- Nodes below the roots are settled by their canonical forms. -/
theorem Distinct.eq_of_form? (distinct : graph.Distinct) (linked : graph.Linked)
    {first second : NodeId} {form : Formula} (inner : graph.root? first = none)
    (alsoInner : graph.root? second = none) (found : graph.form? first = some form)
    (alsoFound : graph.form? second = some form) : first = second := by
  induction first using Nat.strongRecOn generalizing second form with
  | ind first ih =>
      obtain ⟨formula, known, rfl⟩ := Option.map_eq_some_iff.1 found
      obtain ⟨other, alsoKnown, same⟩ := Option.map_eq_some_iff.1 alsoFound
      rcases formula?_cases linked known with ⟨predicate, test, rfl⟩ |
        ⟨junction, children, members, group, read, rfl⟩ | ⟨root, top, _⟩
      · rcases formula?_cases linked alsoKnown with ⟨tested, alsoTest, rfl⟩ |
          ⟨_, _, members, _, _, rfl⟩ | ⟨root, top, _⟩
        · rw [Formula.canonical_test, Formula.canonical_test, Formula.test.injEq] at same
          exact distinct.test test (same ▸ alsoTest)
        · exact absurd same.symm Formula.canonical_test_ne_group
        · rw [alsoInner] at top
          cases top
      · rcases formula?_cases linked alsoKnown with ⟨tested, alsoTest, rfl⟩ |
          ⟨joined, others, counterparts, alsoGroup, alsoRead, rfl⟩ | ⟨root, top, _⟩
        · exact absurd same Formula.canonical_test_ne_group
        · obtain ⟨rfl, forms⟩ := Formula.canonical_group_inj.1 same
          have children : (children.map graph.form?).Perm (others.map graph.form?) := by
            rw [map_form?_of_mapM read, map_form?_of_mapM alsoRead]
            exact (forms.map some).symm
          refine distinct.group group alsoGroup (perm_of_map_perm ?_ children)
          intro child member twin isTwin alike
          rw [← children_of_group? group] at member
          rw [← children_of_group? alsoGroup] at isTwin
          obtain ⟨inside, here⟩ := exists_formula linked (linked.lt_size member)
          have form : graph.form? child = some inside.canonical := by rw [form?, here]; rfl
          exact ih child (linked.below member) (linked.shared member) (linked.shared isTwin) form
            (alike ▸ form)
        · rw [alsoInner] at top
          cases top
      · rw [inner] at top
        cases top

/-- Edges lead from a node down to a node below the roots for every part of its formula. -/
theorem exists_node_of_part (linked : graph.Linked) {id : NodeId} {formula part : Formula}
    (found : graph.formula? id = some formula) (member : part ∈ formula.parts) :
    ∃ inner, graph.Leads id inner ∧ graph.root? inner = none ∧
      graph.formula? inner = some part := by
  induction id using Nat.strongRecOn generalizing formula with
  | ind id ih =>
      rcases formula?_cases linked found with ⟨predicate, test, rfl⟩ |
        ⟨junction, children, members, group, read, rfl⟩ | ⟨root, top, known⟩
      · rw [Formula.parts, List.mem_singleton] at member
        exact ⟨id, .refl, root?_of_predicate? test, by rw [found, member]⟩
      · rw [Formula.parts, List.mem_cons, Formula.mem_partsOfMembers] at member
        rcases member with whole | ⟨inside, isMember, isPart⟩
        · exact ⟨id, .refl, root?_of_group? group, by rw [found, whole]⟩
        · have among : some inside ∈ children.map graph.formula? := by
            rw [mapM_eq_some_iff.1 read]
            exact List.mem_map_of_mem isMember
          obtain ⟨child, isChild, known⟩ := List.mem_map.1 among
          rw [← children_of_group? group] at isChild
          obtain ⟨inner, leads, here⟩ := ih child (linked.below isChild) known isPart
          exact ⟨inner, leads.head isChild, here⟩
      · have isChild := child_mem_of_root? top
        obtain ⟨inner, leads, here⟩ := ih _ (linked.below isChild) known member
        exact ⟨inner, leads.head isChild, here⟩

/-- A node below the roots that stands for a test is the node of that test. -/
theorem predicate?_of_form? (linked : graph.Linked) {id : NodeId} {predicate : Predicate}
    (inner : graph.root? id = none)
    (found : graph.form? id = some (Formula.test predicate).canonical) :
    graph.predicate? id = some predicate := by
  obtain ⟨formula, known, same⟩ := Option.map_eq_some_iff.1 found
  rw [Formula.eq_test_of_canonical_eq same] at known
  rcases formula?_cases linked known with ⟨tested, test, isTest⟩ |
    ⟨_, _, members, _, _, isGroup⟩ | ⟨root, top, _⟩
  · cases isTest
    exact test
  · cases isGroup
  · rw [inner] at top
    cases top

end Graph

end Tripwire
