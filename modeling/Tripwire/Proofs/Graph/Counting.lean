import Mathlib.Data.List.Nodup
import Tripwire.Proofs.Graph.Canonical

/-!
# Counting nodes

Every node is one of those that conditions share, each with a canonical form of its own, or the
root of a condition.
-/

namespace Tripwire.Graph

variable {graph : Graph}

theorem map_node?_range (graph : Graph) :
    (List.range graph.size).map graph.node? = graph.nodes.toList.map some := by
  apply List.ext_getElem?
  intro id
  have stored : graph.nodes.toList[id]? = graph.node? id := Array.getElem?_toList
  rw [List.getElem?_map, List.getElem?_map, stored]
  by_cases within : id < graph.size
  · obtain ⟨node, found⟩ := exists_node? within
    rw [List.getElem?_range within, Option.map_some, found, Option.map_some]
  · have outside := Nat.le_of_not_lt within
    have beyond : (List.range graph.size)[id]? = none :=
      List.getElem?_eq_none (by rw [List.length_range]; exact outside)
    rw [beyond, node?_eq_none_iff.2 outside]
    rfl

theorem sharedSize_eq_countP (graph : Graph) :
    graph.sharedSize = (List.range graph.size).countP fun id => (graph.root? id).isNone := by
  have counted : graph.sharedSize =
      (graph.nodes.toList.map some).countP fun node? => (node?.bind Node.root?).isNone := by
    rw [List.countP_map, sharedSize, ← Array.countP_toList]
    congr 1
    funext node
    simp [Node.isRoot]
  rw [counted, ← map_node?_range, List.countP_map]
  rfl

theorem groupCount_eq_countP (graph : Graph) :
    graph.groupCount = (List.range graph.size).countP graph.isGroup := by
  have counted : graph.groupCount =
      (graph.nodes.toList.map some).countP fun node? => (node?.map Node.isGroup).getD false := by
    rw [List.countP_map, groupCount, ← Array.countP_toList]
    rfl
  rw [counted, ← map_node?_range, List.countP_map]
  rfl

/-- Different groups are no more than there are. -/
theorem length_le_groupCount {ids : List NodeId} (distinct : ids.Nodup)
    (groups : ∀ id ∈ ids, graph.isGroup id = true) : ids.length ≤ graph.groupCount := by
  rw [groupCount_eq_countP, List.countP_eq_length_filter]
  refine (List.subperm_of_subset distinct fun id member => ?_).length_le
  have group := groups id member
  have within : id < graph.size := by
    apply Nat.lt_of_not_le
    intro outside
    simp [isGroup, node?_eq_none_iff.2 outside] at group
  exact List.mem_filter.2 ⟨List.mem_range.2 within, group⟩

/-- A root is no node that conditions share. -/
theorem sharedSize_mount_root {root : Root} {status : Bool} (below : root.child < graph.size) :
    (graph.mount (.root root) status).sharedSize = graph.sharedSize := by
  have within : ∀ child ∈ Node.children ⟨.root root, status, []⟩, child < graph.size :=
    List.forall_mem_singleton.2 below
  rw [sharedSize_eq_countP, sharedSize_eq_countP, size_mount, List.range_succ, List.countP_append]
  have last : [graph.size].countP
      (fun id => ((graph.mount (.root root) status).root? id).isNone) = 0 := by
    rw [List.countP_singleton, root?_mount within, if_pos rfl]
    rfl
  rw [last, Nat.add_zero]
  refine List.countP_congr fun id member => ?_
  rw [root?_mount within, if_neg (Nat.ne_of_lt (List.mem_range.1 member))]

/-- The canonical forms that nodes below the roots stand for. -/
noncomputable def forms (graph : Graph) : List Formula :=
  (List.range graph.size).filterMap fun id =>
    if (graph.root? id).isNone then graph.form? id else none

theorem mem_forms {form : Formula} :
    form ∈ graph.forms ↔ ∃ id, graph.root? id = none ∧ graph.form? id = some form := by
  unfold forms
  rw [List.mem_filterMap]
  constructor
  · rintro ⟨id, _, found⟩
    split at found
    case isTrue inner => exact ⟨id, Option.isNone_iff_eq_none.1 inner, found⟩
    case isFalse => cases found
  · rintro ⟨id, inner, found⟩
    refine ⟨id, List.mem_range.2 (lt_size_of_form? found), ?_⟩
    rw [if_pos (Option.isNone_iff_eq_none.2 inner), found]

theorem forms_nodup (distinct : graph.Distinct) (linked : graph.Linked) :
    graph.forms.Nodup := by
  refine List.Nodup.filterMap (fun first second form found also => ?_) List.nodup_range
  rw [Option.mem_def] at found also
  split at found
  case isFalse => cases found
  case isTrue inner =>
    split at also
    case isFalse => cases also
    case isTrue alsoInner =>
      exact distinct.eq_of_form? linked (Option.isNone_iff_eq_none.1 inner)
        (Option.isNone_iff_eq_none.1 alsoInner) found also

/-- There are as many nodes below the roots as forms that they stand for. -/
theorem length_forms (linked : graph.Linked) : graph.forms.length = graph.sharedSize := by
  rw [forms, List.length_filterMap_eq_countP, sharedSize_eq_countP]
  refine List.countP_congr fun id member => ?_
  obtain ⟨formula, known⟩ := exists_formula linked (List.mem_range.1 member)
  cases (graph.root? id).isNone <;> simp [form?, known]

/-- The conditions of the roots. -/
def conditions (graph : Graph) : List ConditionId :=
  (List.range graph.size).filterMap fun id => (graph.root? id).map Root.condition

theorem mem_conditions {condition : ConditionId} :
    condition ∈ graph.conditions ↔
      ∃ id root, graph.root? id = some root ∧ root.condition = condition := by
  unfold conditions
  rw [List.mem_filterMap]
  constructor
  · rintro ⟨id, _, found⟩
    obtain ⟨root, top, same⟩ := Option.map_eq_some_iff.1 found
    exact ⟨id, root, top, same⟩
  · rintro ⟨id, root, top, same⟩
    refine ⟨id, List.mem_range.2 (lt_size_of_root? top), ?_⟩
    rw [top, Option.map_some, same]

theorem conditions_nodup (unique : ∀ {id other root top}, graph.root? id = some root →
    graph.root? other = some top → root.condition = top.condition → id = other) :
    graph.conditions.Nodup := by
  refine List.Nodup.filterMap (fun first second condition found also => ?_) List.nodup_range
  obtain ⟨root, top, here⟩ := Option.map_eq_some_iff.1 found
  obtain ⟨other, alsoTop, there⟩ := Option.map_eq_some_iff.1 also
  exact unique top alsoTop (here.trans there.symm)

theorem size_eq (graph : Graph) : graph.size = graph.sharedSize + graph.conditions.length := by
  rw [conditions, List.length_filterMap_eq_countP, sharedSize_eq_countP]
  have split := List.length_eq_countP_add_countP (fun id => (graph.root? id).isNone)
    (l := List.range graph.size)
  rw [List.length_range] at split
  refine split.trans (congrArg _ (List.countP_congr fun id _ => ?_))
  cases graph.root? id <;> simp

end Tripwire.Graph
