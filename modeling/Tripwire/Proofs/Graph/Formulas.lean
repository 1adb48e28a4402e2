import Tripwire.Expr.Meaning
import Tripwire.Proofs.Graph.Growth
import Tripwire.Proofs.Steps

/-!
# The formulas of nodes

In a linked graph every node stands for a formula: a test for itself, a group for the group of
its children's formulas and a root for its child's. What a node stands for depends on kinds
only, so neither deliveries nor growth change it, and in a settled graph a node holds exactly
if its formula does.
-/

namespace Tripwire

theorem mapM_congr {α β : Type} {f g : α → Option β} {items : List α}
    (same : ∀ item ∈ items, f item = g item) : items.mapM f = items.mapM g := by
  have mapped : items.map f = items.map g := List.map_congr_left same
  apply Option.ext
  intro results
  rw [mapM_eq_some_iff, mapM_eq_some_iff, mapped]

theorem exists_mapM {α β : Type} {f : α → Option β} {items : List α}
    (each : ∀ item ∈ items, ∃ result, f item = some result) :
    ∃ results, items.mapM f = some results := by
  induction items with
  | nil => exact ⟨[], rfl⟩
  | cons item items ih =>
      obtain ⟨first, here⟩ := each item List.mem_cons_self
      obtain ⟨rest, others⟩ := ih fun other member => each other (List.mem_cons_of_mem _ member)
      exact ⟨first :: rest, by simp [here, others]⟩

/-- What agrees on every item and its result agrees on the lists. -/
theorem map_eq_of_mapM {α β γ : Type} {f : α → Option β} {g : α → γ} {h : β → γ}
    {items : List α} {results : List β} (read : items.mapM f = some results)
    (same : ∀ item ∈ items, ∀ result, f item = some result → g item = h result) :
    items.map g = results.map h := by
  rw [mapM_eq_some_iff] at read
  induction items generalizing results with
  | nil => cases results <;> simp_all
  | cons item items ih =>
      cases results with
      | nil => cases read
      | cons first rest =>
          rw [List.map_cons, List.map_cons, List.cons.injEq] at read
          rw [List.map_cons, List.map_cons, same item List.mem_cons_self first read.1,
            ih read.2 fun other member => same other (List.mem_cons_of_mem _ member)]

namespace Graph

/-! ## The table of formulas -/

/-- The formulas of nodes that follow nodes with known formulas. -/
def formulasFrom (earlier : Array (Option Formula)) (nodes : List Node) :
    Array (Option Formula) :=
  nodes.foldl (fun earlier node => earlier.push (node.formula? earlier)) earlier

theorem formulas_eq (graph : Graph) : graph.formulas = formulasFrom #[] graph.nodes.toList := by
  unfold formulas formulasFrom
  rw [Array.foldl_toList]

theorem size_formulasFrom (earlier : Array (Option Formula)) (nodes : List Node) :
    (formulasFrom earlier nodes).size = earlier.size + nodes.length := by
  induction nodes generalizing earlier with
  | nil => rfl
  | cons node nodes ih =>
      change (formulasFrom (earlier.push _) nodes).size = _
      rw [ih, Array.size_push, List.length_cons]
      omega

theorem formulasFrom_of_lt {earlier : Array (Option Formula)} {id : Nat}
    (within : id < earlier.size) (nodes : List Node) :
    (formulasFrom earlier nodes)[id]? = earlier[id]? := by
  induction nodes generalizing earlier with
  | nil => rfl
  | cons node nodes ih =>
      change (formulasFrom (earlier.push _) nodes)[id]? = _
      rw [ih (by rw [Array.size_push]; omega), Array.getElem?_push_lt within,
        Array.getElem?_eq_getElem within]

end Graph

/-- A node's formula depends on those of its children only. -/
theorem Node.formula?_congr {node : Node} {earlier later : Array (Option Formula)}
    (same : ∀ child ∈ node.children, earlier[child]? = later[child]?) :
    node.formula? earlier = node.formula? later := by
  obtain ⟨kind, status, parents⟩ := node
  cases kind with
  | test predicate => rfl
  | group junction children holding =>
      have members : (children.mapM fun child => (earlier[child]?).join) =
          children.mapM fun child => (later[child]?).join :=
        mapM_congr fun child member => by rw [same child member]
      simp only [Node.formula?, members]
  | root root => simp only [Node.formula?, same root.child (List.mem_singleton_self _)]

namespace Graph

/-- In a linked graph a node's formula is made from those of its children. -/
theorem formula?_of_node? {graph : Graph} (linked : graph.Linked) {id : NodeId} {node : Node}
    (found : graph.node? id = some node) : graph.formula? id = node.formula? graph.formulas := by
  have here : graph.nodes.toList[id]? = some node := by
    rw [Array.getElem?_toList]
    exact found
  obtain ⟨within, same⟩ := List.getElem?_eq_some_iff.1 here
  have split : graph.nodes.toList =
      graph.nodes.toList.take id ++ node :: graph.nodes.toList.drop (id + 1) := by
    rw [← same, List.getElem_cons_drop, List.take_append_drop]
  let earlier := formulasFrom #[] (graph.nodes.toList.take id)
  have size : earlier.size = id := by
    simp only [earlier, size_formulasFrom, List.length_take, Nat.min_eq_left (Nat.le_of_lt within)]
    exact Nat.zero_add id
  have whole : graph.formulas = formulasFrom (earlier.push (node.formula? earlier))
      (graph.nodes.toList.drop (id + 1)) := by
    rw [formulas_eq]
    conv => lhs; rw [split]
    exact List.foldl_append
  have kept : ∀ other : Nat, other < earlier.size → graph.formulas[other]? = earlier[other]? := by
    intro other before
    rw [whole, formulasFrom_of_lt (by rw [Array.size_push]; exact Nat.lt_succ_of_lt before),
      Array.getElem?_push_lt before, Array.getElem?_eq_getElem before]
  have last : graph.formulas[id]? = some (node.formula? earlier) := by
    rw [whole, ← size, formulasFrom_of_lt (by rw [Array.size_push]; exact Nat.lt_succ_self _),
      Array.getElem?_push_size]
  unfold formula?
  rw [last, Option.join_some]
  refine Node.formula?_congr fun child member => (kept child ?_).symm
  rw [size]
  have isChild : child ∈ graph.children id := by simpa [Graph.children, found] using member
  exact linked.below isChild

section

variable {graph : Graph}

theorem formula?_of_test (linked : graph.Linked) {id : NodeId} {predicate : Predicate}
    (found : graph.predicate? id = some predicate) :
    graph.formula? id = some (.test predicate) := by
  obtain ⟨_, _, here⟩ := node?_of_predicate? found
  exact formula?_of_node? linked here

theorem formula?_of_group (linked : graph.Linked) {id : NodeId} {junction : Junction}
    {children : List NodeId} (found : graph.group? id = some (junction, children)) :
    graph.formula? id = (children.mapM graph.formula?).map (.group junction) := by
  obtain ⟨_, _, _, here⟩ := node?_of_group? found
  exact formula?_of_node? linked here

theorem formula?_of_root (linked : graph.Linked) {id : NodeId} {root : Root}
    (found : graph.root? id = some root) : graph.formula? id = graph.formula? root.child := by
  obtain ⟨_, _, here⟩ := node?_of_root? found
  exact formula?_of_node? linked here

theorem children_of_group? {id : NodeId} {junction : Junction} {children : List NodeId}
    (found : graph.group? id = some (junction, children)) : graph.children id = children := by
  obtain ⟨_, _, _, here⟩ := node?_of_group? found
  exact children_of_group here

theorem children_of_root? {id : NodeId} {root : Root} (found : graph.root? id = some root) :
    graph.children id = [root.child] := by
  obtain ⟨_, _, here⟩ := node?_of_root? found
  exact children_of_root here

theorem formula?_eq_none {id : NodeId} (outside : graph.size ≤ id) :
    graph.formula? id = none := by
  have size : graph.formulas.size = graph.size := by
    rw [formulas_eq, size_formulasFrom, Array.length_toList]
    exact Nat.zero_add _
  unfold formula?
  rw [Array.getElem?_eq_none (by rw [size]; exact outside)]
  rfl

theorem lt_size_of_formula? {id : NodeId} {formula : Formula}
    (found : graph.formula? id = some formula) : id < graph.size := by
  apply Nat.lt_of_not_le
  intro outside
  rw [formula?_eq_none outside] at found
  cases found

/-- How a formula is read off the kind of its node. -/
theorem formula?_cases (linked : graph.Linked) {id : NodeId} {formula : Formula}
    (found : graph.formula? id = some formula) :
    (∃ predicate, graph.predicate? id = some predicate ∧ formula = .test predicate) ∨
      (∃ junction children members, graph.group? id = some (junction, children) ∧
        children.mapM graph.formula? = some members ∧ formula = .group junction members) ∨
      ∃ root, graph.root? id = some root ∧ graph.formula? root.child = some formula := by
  rcases kind_cases (lt_size_of_formula? found) with
    ⟨predicate, test⟩ | ⟨junction, children, group⟩ | ⟨root, top⟩
  · rw [formula?_of_test linked test, Option.some.injEq] at found
    exact Or.inl ⟨predicate, test, found.symm⟩
  · rw [formula?_of_group linked group] at found
    obtain ⟨members, read, same⟩ := Option.map_eq_some_iff.1 found
    exact Or.inr (Or.inl ⟨junction, children, members, group, read, same.symm⟩)
  · rw [formula?_of_root linked top] at found
    exact Or.inr (Or.inr ⟨root, top, found⟩)

theorem child_mem_of_root? {id : NodeId} {root : Root} (found : graph.root? id = some root) :
    root.child ∈ graph.children id := by
  rw [children_of_root? found]
  exact List.mem_singleton_self _

theorem exists_formula (linked : graph.Linked) {id : NodeId} (within : id < graph.size) :
    ∃ formula, graph.formula? id = some formula := by
  induction id using Nat.strongRecOn with
  | ind id ih =>
      rcases kind_cases within with ⟨predicate, test⟩ | ⟨junction, children, group⟩ | ⟨root, top⟩
      · exact ⟨_, formula?_of_test linked test⟩
      · rw [formula?_of_group linked group]
        have each : ∀ child ∈ children, ∃ formula, graph.formula? child = some formula := by
          intro child member
          rw [← children_of_group? group] at member
          exact ih child (linked.below member) (linked.lt_size member)
        obtain ⟨members, read⟩ := exists_mapM each
        exact ⟨.group junction members, by rw [read, Option.map_some]⟩
      · have member := child_mem_of_root? top
        rw [formula?_of_root linked top]
        exact ih _ (linked.below member) (linked.lt_size member)

/-- Nodes of one kind each stand for the same formulas. -/
theorem formula?_congr {other : Graph} (linked : graph.Linked) (also : other.Linked)
    {bound : NodeId} (within : bound ≤ graph.size)
    (tests : ∀ id, id < bound → other.predicate? id = graph.predicate? id)
    (groups : ∀ id, id < bound → other.group? id = graph.group? id)
    (roots : ∀ id, id < bound → other.root? id = graph.root? id) {id : NodeId}
    (before : id < bound) : other.formula? id = graph.formula? id := by
  induction id using Nat.strongRecOn with
  | ind id ih =>
      rcases kind_cases (Nat.lt_of_lt_of_le before within) with
        ⟨predicate, test⟩ | ⟨junction, children, group⟩ | ⟨root, top⟩
      · rw [formula?_of_test linked test]
        exact formula?_of_test also (by rw [tests id before, test])
      · rw [formula?_of_group linked group,
          formula?_of_group also (by rw [groups id before, group])]
        refine congrArg _ (mapM_congr fun child member => ?_)
        rw [← children_of_group? group] at member
        have lower := linked.below member
        exact ih child lower (Nat.lt_trans lower before)
      · have lower := linked.below (child_mem_of_root? top)
        rw [formula?_of_root linked top, formula?_of_root also (by rw [roots id before, top])]
        exact ih _ lower (Nat.lt_trans lower before)

theorem Grows.formula?_eq {after : Graph} (grows : graph.Grows after) (linked : graph.Linked)
    (also : after.Linked) {id : NodeId} (within : id < graph.size) :
    after.formula? id = graph.formula? id :=
  formula?_congr linked also (Nat.le_refl _) (fun _ => grows.predicate?_eq)
    (fun _ => grows.group?_eq) (fun _ => grows.root?_eq) within

theorem formula?_of_frame_eq {other : Graph} (same : other.frame = graph.frame)
    (linked : graph.Linked) (id : NodeId) : other.formula? id = graph.formula? id := by
  by_cases within : id < graph.size
  · refine formula?_congr linked (linked.of_frame_eq same.symm) (Nat.le_refl _) ?_ ?_ ?_ within
    · intro id _
      rw [predicate?_of_frame_eq same]
    · intro id _
      rw [group?_of_frame_eq same]
    · intro id _
      rw [root?_of_frame_eq same]
  · have outside : graph.size ≤ id := Nat.le_of_not_lt within
    have alsoOutside : other.size ≤ id := by
      rw [size_of_frame_eq same]
      exact outside
    rw [formula?_eq_none outside, formula?_eq_none alsoOutside]

/-! ## Statuses -/

theorem status_of_group {truth : NodeId → Bool} (agrees : graph.Agrees truth) {id : NodeId}
    {junction : Junction} {children : List NodeId}
    (found : graph.group? id = some (junction, children)) :
    graph.status id = junction.combine (children.map truth) := by
  obtain ⟨holding, status, parents, here⟩ := node?_of_group? found
  obtain ⟨counted, stands⟩ := agrees.group here
  have count : (children.map truth).count true = children.countP truth := by
    rw [List.count, List.countP_map]
    congr 1
    funext child
    simp
  rw [status_of_node? here, ← junction.status_count, count, List.length_map, ← counted]
  exact stands

theorem status_of_root {truth : NodeId → Bool} (agrees : graph.Agrees truth) {id : NodeId}
    {root : Root} (found : graph.root? id = some root) : graph.status id = truth root.child := by
  obtain ⟨_, _, here⟩ := node?_of_root? found
  rw [status_of_node? here]
  exact agrees.root here

/-- In a settled graph a node holds exactly if its formula does. -/
theorem status_eq_holds (linked : graph.Linked) (settled : graph.Settled)
    {truth : Predicate → Bool}
    (tests : ∀ {id predicate}, graph.predicate? id = some predicate →
      graph.status id = truth predicate) {id : NodeId} {formula : Formula}
    (found : graph.formula? id = some formula) :
    graph.status id = formula.holds truth := by
  induction id using Nat.strongRecOn generalizing formula with
  | ind id ih =>
      rcases formula?_cases linked found with ⟨predicate, test, rfl⟩ |
        ⟨junction, children, members, group, read, rfl⟩ | ⟨root, top, known⟩
      · rw [tests test, Formula.holds]
      · have statuses : children.map graph.status = members.map (Formula.holds truth) := by
          refine map_eq_of_mapM read fun child member formula known => ?_
          rw [← children_of_group? group] at member
          exact ih child (linked.below member) known
        rw [status_of_group settled group, statuses, Formula.holds, Formula.statuses_eq_map]
      · rw [status_of_root settled top]
        exact ih _ (linked.below (child_mem_of_root? top)) known

end

end Graph

end Tripwire
