import Mathlib.Data.Multiset.Basic
import Std.Data.HashMap.Lemmas
import Tripwire.Network
import Tripwire.Proofs.Graph.Counting

/-!
# The index of shared nodes

A node that conditions share is found again by its signature: a test by its predicate, a group by its
junction and the multiset of its children. A catalog keeps an index of them beside the network. It
looks nodes up where wiring searches for them, and puts in each node that it adds. What it finds is
what the searches find, and the index has as many entries as there are shared nodes.
-/

namespace Tripwire

/-- What a shared node is found by. -/
inductive Signature where
  | test (predicate : Predicate)
  | group (junction : Junction) (children : Multiset NodeId)
deriving DecidableEq

/-- The signature of a node; a root is never found again. -/
def Node.signature? (node : Node) : Option Signature :=
  match node.kind with
  | .test predicate => some (.test predicate)
  | .group junction children _ => some (.group junction children)
  | .root _ => none

namespace Graph

def signature? (graph : Graph) (id : NodeId) : Option Signature :=
  (graph.node? id).bind Node.signature?

/-- The shared nodes under their signatures. -/
def entries (graph : Graph) : List (Signature × NodeId) :=
  (List.range graph.size).filterMap fun id => (graph.signature? id).map (·, id)

/-- The index that has all shared nodes as its entries. -/
def index [Hashable Signature] (graph : Graph) : Std.HashMap Signature NodeId :=
  .ofList graph.entries

/-- Signatures lead to the nodes that have them, and to nothing else. -/
structure Indexed [Hashable Signature] (graph : Graph) (index : Std.HashMap Signature NodeId) :
    Prop where
  entry : ∀ {signature id}, index[signature]? = some id ↔ graph.signature? id = some signature

/-! ## Signatures -/

section

variable {graph : Graph} {id : NodeId}

theorem signature?_eq_test_iff {predicate : Predicate} :
    graph.signature? id = some (.test predicate) ↔ graph.predicate? id = some predicate := by
  unfold signature? predicate?
  cases graph.node? id with
  | none => simp
  | some node =>
      obtain ⟨kind, status, parents⟩ := node
      cases kind <;> simp [Node.signature?, Node.predicate?]

theorem signature?_eq_group_iff {junction : Junction} {children : List NodeId} :
    graph.signature? id = some (.group junction children) ↔
      ∃ others, graph.group? id = some (junction, others) ∧ others.Perm children := by
  unfold signature? group?
  cases graph.node? id with
  | none => simp
  | some node =>
      obtain ⟨kind, status, parents⟩ := node
      cases kind <;> simp [Node.signature?, Node.group?, and_assoc]

theorem exists_signature?_iff :
    (∃ signature, graph.signature? id = some signature) ↔
      id < graph.size ∧ graph.root? id = none := by
  unfold signature? root?
  cases found : graph.node? id with
  | none => simpa using node?_eq_none_iff.1 found
  | some node =>
      have within := lt_size_of_node? found
      obtain ⟨kind, status, parents⟩ := node
      cases kind <;> simp [Node.signature?, Node.root?, within]

theorem signature?_size (graph : Graph) : graph.signature? graph.size = none := by
  rw [signature?, node?_eq_none_iff.2 (Nat.le_refl graph.size), Option.bind_none]

/-- Whatever it stands on, the node on top is the only one whose signature is new. -/
theorem signature?_mount (kind : Node.Kind) (status : Bool) (id : NodeId) :
    (graph.mount kind status).signature? id =
      if id = graph.size then Node.signature? ⟨kind, status, []⟩ else graph.signature? id := by
  unfold signature? mount
  rw [node?_foldl_addParent, node?_push]
  split
  case isTrue => rfl
  case isFalse =>
    cases graph.node? id <;> rfl

/-- No two nodes have one signature. -/
theorem Distinct.eq_of_signature? (distinct : graph.Distinct) {other : NodeId}
    {signature : Signature} (found : graph.signature? id = some signature)
    (also : graph.signature? other = some signature) : id = other := by
  cases signature with
  | test predicate =>
      exact distinct.test (signature?_eq_test_iff.1 found) (signature?_eq_test_iff.1 also)
  | group junction children =>
      induction children using Quotient.inductionOn with
      | _ children =>
          obtain ⟨members, group, same⟩ := signature?_eq_group_iff.1 found
          obtain ⟨others, alsoGroup, alsoSame⟩ := signature?_eq_group_iff.1 also
          exact distinct.group group alsoGroup (same.trans alsoSame.symm)

theorem mem_entries {signature : Signature} :
    (signature, id) ∈ graph.entries ↔ graph.signature? id = some signature := by
  unfold entries
  rw [List.mem_filterMap]
  constructor
  · rintro ⟨other, _, found⟩
    obtain ⟨_, here, same⟩ := Option.map_eq_some_iff.1 found
    cases same
    exact here
  · intro found
    have within := (exists_signature?_iff.1 ⟨signature, found⟩).1
    exact ⟨id, List.mem_range.2 within, by rw [found]; rfl⟩

theorem Distinct.entries_once (distinct : graph.Distinct) :
    graph.entries.Pairwise fun first second => (first.1 == second.1) = false := by
  unfold entries
  rw [List.pairwise_filterMap]
  refine List.nodup_range.imp ?_
  intro first second apart entry found other also
  obtain ⟨signature, here, rfl⟩ := Option.map_eq_some_iff.1 found
  obtain ⟨_, there, rfl⟩ := Option.map_eq_some_iff.1 also
  refine beq_false_of_ne fun same => apart ?_
  exact distinct.eq_of_signature? here (there.trans (congrArg some same.symm))

end

/-! ## What an index finds -/

section

variable [Hashable Signature] {graph : Graph} {index : Std.HashMap Signature NodeId}

/-- Where no test and no group has two nodes, the index finds each of them. -/
theorem Distinct.indexed (distinct : graph.Distinct) : graph.Indexed graph.index where
  entry := by
    intro signature id
    have listed : ∀ {other}, (signature, other) ∈ graph.entries →
        graph.index[signature]? = some other :=
      Std.HashMap.getElem?_ofList_of_mem BEq.rfl distinct.entries_once
    rw [← mem_entries]
    refine ⟨fun found => ?_, listed⟩
    cases put : (graph.entries.map Prod.fst).contains signature with
    | false =>
        rw [Graph.index, Std.HashMap.getElem?_ofList_of_contains_eq_false put] at found
        cases found
    | true =>
        obtain ⟨⟨_, other⟩, member, rfl⟩ := List.mem_map.1 (List.contains_iff_mem.1 put)
        have same := (listed member).symm.trans found
        cases same
        exact member

namespace Indexed

/-- The search for the node of a test is a look-up. -/
theorem findTest?_eq (indexed : graph.Indexed index) (predicate : Predicate) :
    graph.findTest? predicate = index[Signature.test predicate]? := by
  ext id
  rw [indexed.entry, signature?_eq_test_iff]
  refine ⟨findTest?_eq_some, fun found => ?_⟩
  cases searched : graph.findTest? predicate with
  | none => exact absurd found (findTest?_eq_none searched id)
  | some other =>
      have here := signature?_eq_test_iff.2 (findTest?_eq_some searched)
      have there := signature?_eq_test_iff.2 found
      exact (indexed.entry.2 here).symm.trans (indexed.entry.2 there)

/-- The search for the node of a group is a look-up, in whatever order its children stand. -/
theorem findGroup?_eq (indexed : graph.Indexed index) (junction : Junction)
    (children : List NodeId) :
    graph.findGroup? junction children = index[Signature.group junction children]? := by
  ext id
  rw [indexed.entry, signature?_eq_group_iff]
  refine ⟨findGroup?_eq_some, fun ⟨others, group, same⟩ => ?_⟩
  cases searched : graph.findGroup? junction children with
  | none => exact absurd same (findGroup?_eq_none searched group)
  | some other =>
      have here := signature?_eq_group_iff.2 (findGroup?_eq_some searched)
      have there := signature?_eq_group_iff.2 ⟨others, group, same⟩
      exact (indexed.entry.2 here).symm.trans (indexed.entry.2 there)

theorem mem_toList_iff (indexed : graph.Indexed index) {signature : Signature} {id : NodeId} :
    (signature, id) ∈ index.toList ↔ graph.signature? id = some signature := by
  rw [Std.HashMap.mem_toList_iff_getElem?_eq_some, indexed.entry]

/-- The entries lead to all nodes that conditions share, to each of them once. -/
theorem nodes_perm (indexed : graph.Indexed index) :
    (index.toList.map Prod.snd).Perm
      ((List.range graph.size).filter fun id => (graph.root? id).isNone) := by
  have once : (index.toList.map Prod.snd).Nodup := by
    refine List.pairwise_map.2 (index.distinct_keys_toList.imp_of_mem ?_)
    rintro ⟨first, id⟩ ⟨second, other⟩ isFirst isSecond apart rfl
    have same := (indexed.mem_toList_iff.1 isFirst).symm.trans (indexed.mem_toList_iff.1 isSecond)
    exact ne_of_beq_false apart (Option.some.inj same)
  rw [List.perm_ext_iff_of_nodup once (List.nodup_range.filter _)]
  intro id
  rw [List.mem_filter, List.mem_range, Option.isNone_iff_eq_none, ← exists_signature?_iff,
    List.mem_map]
  constructor
  · rintro ⟨⟨signature, id⟩, member, rfl⟩
    exact ⟨signature, indexed.mem_toList_iff.1 member⟩
  · rintro ⟨signature, found⟩
    exact ⟨(signature, id), indexed.mem_toList_iff.2 found, rfl⟩

/-- There are as many entries as nodes that conditions share. -/
theorem size_eq (indexed : graph.Indexed index) : index.size = graph.sharedSize :=
  calc
    index.size = (index.toList.map Prod.snd).length := by
      rw [List.length_map, Std.HashMap.length_toList]
    _ = ((List.range graph.size).filter fun id => (graph.root? id).isNone).length :=
      indexed.nodes_perm.length_eq
    _ = graph.sharedSize := by
      rw [sharedSize_eq_countP, List.countP_eq_length_filter]

/-- A shared node on top is put in under its signature, if that leads to no node yet. -/
theorem mount (indexed : graph.Indexed index) {kind : Node.Kind} {status : Bool}
    {signature : Signature} (isShared : Node.signature? ⟨kind, status, []⟩ = some signature)
    (fresh : index[signature]? = none) :
    (graph.mount kind status).Indexed (index.insert signature graph.size) where
  entry := by
    have unsigned : ∀ id, graph.signature? id ≠ some signature := by
      intro id found
      rw [← indexed.entry, fresh] at found
      cases found
    intro sought id
    rw [Std.HashMap.getElem?_insert, signature?_mount, isShared]
    by_cases same : signature = sought
    · subst same
      by_cases last : id = graph.size
      · simp [last]
      · simp [last, Ne.symm last, unsigned]
    · have differs : (signature == sought) = false := beq_false_of_ne same
      rw [differs, if_neg Bool.false_ne_true, indexed.entry]
      by_cases last : id = graph.size
      · simp [last, same, graph.signature?_size]
      · simp [last]

/-- A root on top is not put in. -/
theorem addRoot (indexed : graph.Indexed index) (root : Root) :
    (graph.addRoot root).1.Indexed index where
  entry := by
    have mounted : (graph.addRoot root).1 =
        graph.mount (.root root) (graph.status root.child) := rfl
    intro signature id
    rw [mounted, signature?_mount, indexed.entry]
    by_cases last : id = graph.size
    · simp [last, graph.signature?_size, Node.signature?]
    · simp [last]

end Indexed

end

end Graph

/-- A network with an index of its shared nodes. -/
structure Catalog [Hashable Signature] where
  network : Network
  index : Std.HashMap Signature NodeId

namespace Catalog

variable [Hashable Signature]

/-- The node of a test, added and put in if its signature leads to none. -/
def internTest (catalog : Catalog) (predicate : Predicate) : Catalog × NodeId :=
  match catalog.index[Signature.test predicate]? with
  | some id => (catalog, id)
  | none =>
      let id := catalog.network.graph.size
      let sensors :=
        catalog.network.sensors.modifyField predicate.sensor predicate.field (·.watch id)
      let graph :=
        catalog.network.graph.push (.test predicate) (catalog.network.current predicate)
      (⟨⟨sensors, graph⟩, catalog.index.insert (.test predicate) id⟩, id)

/-- The node of a group, added with its edges and put in if its signature leads to none. -/
def internGroup (catalog : Catalog) (junction : Junction) (children : List NodeId) :
    Catalog × NodeId :=
  match catalog.index[Signature.group junction children]? with
  | some id => (catalog, id)
  | none =>
      let id := catalog.network.graph.size
      let holding := children.countP catalog.network.graph.status
      let status := junction.status holding children.length
      let extended := catalog.network.graph.push (.group junction children holding) status
      let graph := children.foldl (Graph.addParent id) extended
      (⟨{ catalog.network with graph }, catalog.index.insert (.group junction children) id⟩, id)

mutual

/-- The node of a formula, added with all that it needs. -/
def intern (catalog : Catalog) : Formula → Catalog × NodeId
  | .test predicate => catalog.internTest predicate
  | .group junction members =>
      let (interned, children) := internMembers catalog members
      interned.internGroup junction children

/-- The nodes of members from left to right. -/
def internMembers (catalog : Catalog) : List Formula → Catalog × List NodeId
  | [] => (catalog, [])
  | first :: rest =>
      let (interned, child) := intern catalog first
      let (done, children) := internMembers interned rest
      (done, child :: children)

end

/-- A catalog did to its network what was done to the network without one, and its index is
complete. -/
structure Follows {α : Type} (interned : Catalog × α) (wired : Network × α) : Prop where
  network : interned.1.network = wired.1
  node : interned.2 = wired.2
  indexed : interned.1.network.graph.Indexed interned.1.index

variable {catalog : Catalog}

theorem follows_internTest (indexed : catalog.network.graph.Indexed catalog.index)
    (predicate : Predicate) :
    Follows (catalog.internTest predicate) (catalog.network.wireTest predicate) := by
  unfold internTest Network.wireTest
  rw [indexed.findTest?_eq]
  cases found : catalog.index[Signature.test predicate]? with
  | some id => exact ⟨rfl, rfl, indexed⟩
  | none =>
      let status := catalog.network.current predicate
      have mounted : (catalog.network.graph.mount (.test predicate) status).Indexed
          (catalog.index.insert (.test predicate) catalog.network.graph.size) :=
        indexed.mount rfl found
      exact ⟨rfl, rfl, mounted⟩

theorem follows_internGroup (indexed : catalog.network.graph.Indexed catalog.index)
    (junction : Junction) (children : List NodeId) :
    Follows (catalog.internGroup junction children)
      ({ catalog.network with graph := (catalog.network.graph.shareGroup junction children).1 },
        (catalog.network.graph.shareGroup junction children).2) := by
  unfold internGroup Graph.shareGroup
  rw [indexed.findGroup?_eq]
  cases found : catalog.index[Signature.group junction children]? with
  | some id => exact ⟨rfl, rfl, indexed⟩
  | none =>
      let holding := children.countP catalog.network.graph.status
      let status := junction.status holding children.length
      have mounted : (catalog.network.graph.mount (.group junction children holding) status).Indexed
          (catalog.index.insert (.group junction children) catalog.network.graph.size) :=
        indexed.mount rfl found
      exact ⟨rfl, rfl, mounted⟩

theorem follows_internMembers {members : List Formula}
    (each : ∀ member ∈ members, ∀ {catalog : Catalog},
      catalog.network.graph.Indexed catalog.index →
        Follows (catalog.intern member) (catalog.network.wire member))
    {catalog : Catalog} (indexed : catalog.network.graph.Indexed catalog.index) :
    Follows (catalog.internMembers members) (catalog.network.wireMembers members) := by
  induction members generalizing catalog with
  | nil => exact ⟨rfl, rfl, indexed⟩
  | cons first rest ih =>
      have here := each first List.mem_cons_self indexed
      have others := ih (fun member inRest => each member (.tail _ inRest)) here.indexed
      rw [here.network] at others
      rw [internMembers, Network.wireMembers]
      exact ⟨others.network, congrArg₂ List.cons here.node others.node, others.indexed⟩

/-- Looking nodes up in the index adds the same nodes as searching for them. -/
theorem follows_intern (formula : Formula) {catalog : Catalog}
    (indexed : catalog.network.graph.Indexed catalog.index) :
    Follows (catalog.intern formula) (catalog.network.wire formula) := by
  induction formula using Formula.induction generalizing catalog with
  | test predicate => exact follows_internTest indexed predicate
  | group junction members ih =>
      have below := follows_internMembers ih indexed
      have top := follows_internGroup below.indexed junction (catalog.internMembers members).2
      rw [intern, Network.wire]
      refine ⟨top.network.trans ?_, top.node.trans ?_, top.indexed⟩
      · rw [below.network, below.node]
      · rw [below.network, below.node]

end Catalog

end Tripwire
