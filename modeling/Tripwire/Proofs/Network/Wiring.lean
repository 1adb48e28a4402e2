import Tripwire.Proofs.Graph.Canonical
import Tripwire.Proofs.Network.Soundness

/-!
# Wiring

Wiring a formula leaves all nodes and values as they are and adds nodes for those of its parts
that have none, so that in the end a node below the roots stands for each. A test that is added
starts from the latest value of its field.
-/

namespace Tripwire

namespace Graph

/-- A node below the roots stands for a formula, up to the order of members. -/
structure Stands (graph : Graph) (id : NodeId) (formula : Formula) : Prop where
  inner : graph.root? id = none
  form : graph.form? id = some formula.canonical

section

variable {graph after : Graph} {id : NodeId} {formula : Formula}

theorem Grows.form?_eq (grows : graph.Grows after) (linked : graph.Linked) (also : after.Linked)
    (within : id < graph.size) : after.form? id = graph.form? id := by
  rw [form?, grows.formula?_eq linked also within, form?]

theorem form?_of_frame_eq (same : after.frame = graph.frame) (linked : graph.Linked)
    (id : NodeId) : after.form? id = graph.form? id := by
  rw [form?, formula?_of_frame_eq same linked, form?]

theorem Stands.grows (stands : graph.Stands id formula) (grows : graph.Grows after)
    (linked : graph.Linked) (also : after.Linked) : after.Stands id formula := by
  have within := lt_size_of_form? stands.form
  constructor
  · rw [grows.root?_eq within, stands.inner]
  · rw [grows.form?_eq linked also within, stands.form]

theorem stands_of_test (linked : graph.Linked) {predicate : Predicate}
    (found : graph.predicate? id = some predicate) : graph.Stands id (.test predicate) := by
  constructor
  · exact root?_of_predicate? found
  · rw [form?, formula?_of_test linked found]
    rfl

theorem map_form?_of_stands {children : List NodeId} {members : List Formula}
    (stand : List.Forall₂ graph.Stands children members) :
    children.map graph.form? = (members.map Formula.canonical).map some := by
  induction stand with
  | nil => rfl
  | cons first rest ih => rw [List.map_cons, List.map_cons, List.map_cons, first.form, ih]

theorem inner_of_stands {children : List NodeId} {members : List Formula}
    (stand : List.Forall₂ graph.Stands children members) {child : NodeId}
    (member : child ∈ children) : child < graph.size ∧ graph.root? child = none := by
  induction stand with
  | nil => cases member
  | cons first rest ih =>
      rcases List.mem_cons.1 member with same | inRest
      · exact same ▸ ⟨lt_size_of_form? first.form, first.inner⟩
      · exact ih inRest

/-- A group stands for any group with the same canonical forms of members. -/
theorem stands_of_group (linked : graph.Linked) {junction : Junction} {children : List NodeId}
    {members : List Formula} (found : graph.group? id = some (junction, children))
    (forms : (children.map graph.form?).Perm ((members.map Formula.canonical).map some)) :
    graph.Stands id (.group junction members) := by
  have each : ∀ child ∈ children, ∃ formula, graph.formula? child = some formula := by
    intro child member
    rw [← children_of_group? found] at member
    exact exists_formula linked (linked.lt_size member)
  obtain ⟨others, read⟩ := exists_mapM each
  rw [map_form?_of_mapM read, List.map_perm_map_iff fun _ _ => Option.some.inj] at forms
  constructor
  · exact root?_of_group? found
  · rw [form?, formula?_of_group linked found, read, Option.map_some, Option.map_some,
      Formula.canonical_group_inj.2 ⟨rfl, forms⟩]

/-- Edges lead from a node down to one for every part of what it stands for. -/
theorem Stands.exists_part (stands : graph.Stands id formula) (linked : graph.Linked)
    {part : Formula} (member : part ∈ formula.parts) :
    ∃ inner, graph.Leads id inner ∧ graph.Stands inner part := by
  obtain ⟨whole, found, same⟩ := Option.map_eq_some_iff.1 stands.form
  obtain ⟨counterpart, inWhole, alike⟩ := Formula.exists_part_of_canonical_eq same.symm member
  obtain ⟨inner, leads, below, here⟩ := exists_node_of_part linked found inWhole
  exact ⟨inner, leads, below, by rw [form?, here, Option.map_some, alike]⟩

theorem eq_size_of_mount {kind : Node.Kind} {status : Bool} (outside : graph.size ≤ id)
    (within : id < (graph.mount kind status).size) : id = graph.size := by
  rw [size_mount] at within
  exact Nat.le_antisymm (Nat.le_of_lt_succ within) outside

theorem testsOn_mount {kind : Node.Kind} {status : Bool}
    (below : ∀ child ∈ Node.children ⟨kind, status, []⟩, child < graph.size)
    (sensor : SensorId) (field : String) :
    (graph.mount kind status).testsOn sensor field =
      graph.testsOn sensor field ++
        if (Node.predicate? ⟨kind, status, []⟩).any (Predicate.isOn sensor field)
        then [graph.size] else [] := by
  unfold testsOn
  rw [size_mount, List.range_succ, List.filter_append]
  congr 1
  · refine List.filter_congr fun id member => ?_
    rw [predicate?_mount below, if_neg (Nat.ne_of_lt (List.mem_range.1 member))]
  · rw [List.filter_singleton, predicate?_mount below, if_pos rfl, Bool.cond_eq_ite]

end

end Graph

namespace Network

theorem current_congr {before after : Network}
    (same : after.sensors.value? = before.sensors.value?) : after.current = before.current := by
  funext predicate
  change (((after.sensors.value? _ _).bind predicate.test).getD false) = _
  rw [same]
  rfl

/-- What wiring does to a network, given the parts that may need nodes. -/
structure Wired (before after : Network) (parts : List Formula) : Prop where
  sound : after.Sound
  grows : before.graph.Grows after.graph
  type : after.sensors.type? = before.sensors.type?
  value : after.sensors.value? = before.sensors.value?
  seeded : ∀ {id predicate}, before.graph.size ≤ id →
    after.graph.predicate? id = some predicate → after.graph.status id = after.current predicate
  fresh : ∀ {id}, before.graph.size ≤ id → id < after.graph.size →
    ∃ part ∈ parts, after.graph.Stands id part

namespace Wired

variable {first second third : Network} {parts more : List Formula}

theorem refl {network : Network} (sound : network.Sound) (parts : List Formula) :
    network.Wired network parts where
  sound := sound
  grows := .refl _
  type := rfl
  value := rfl
  seeded outside test := by
    exact absurd (Graph.lt_size_of_predicate? test) (Nat.not_lt.2 outside)
  fresh outside within := absurd within (Nat.not_lt.2 outside)

theorem trans (early : first.Wired second parts) (late : second.Wired third more) :
    first.Wired third (parts ++ more) where
  sound := late.sound
  grows := early.grows.trans late.grows
  type := late.type.trans early.type
  value := late.value.trans early.value
  seeded := by
    intro id predicate outside test
    by_cases within : id < second.graph.size
    · rw [late.grows.predicate?_eq within] at test
      rw [late.grows.status_eq within, early.seeded outside test, current_congr late.value]
    · exact late.seeded (Nat.le_of_not_lt within) test
  fresh := by
    intro id outside within
    by_cases earlier : id < second.graph.size
    · obtain ⟨part, member, stands⟩ := early.fresh outside earlier
      exact ⟨part, List.mem_append_left _ member,
        stands.grows late.grows early.sound.linked late.sound.linked⟩
    · obtain ⟨part, member, stands⟩ := late.fresh (Nat.le_of_not_lt earlier) within
      exact ⟨part, List.mem_append_right _ member, stands⟩

theorem mono (wired : first.Wired second parts) (among : ∀ part ∈ parts, part ∈ more) :
    first.Wired second more where
  sound := wired.sound
  grows := wired.grows
  type := wired.type
  value := wired.value
  seeded := wired.seeded
  fresh outside within := by
    obtain ⟨part, member, stands⟩ := wired.fresh outside within
    exact ⟨part, among part member, stands⟩

/-- Wiring adds no root. -/
theorem root?_eq (wired : first.Wired second parts) (id : NodeId) :
    second.graph.root? id = first.graph.root? id := by
  by_cases earlier : id < first.graph.size
  · exact wired.grows.root?_eq earlier
  · have outside := Nat.le_of_not_lt earlier
    have absent : first.graph.root? id = none := by
      rw [Graph.root?, Graph.node?_eq_none_iff.2 outside, Option.bind_none]
    rw [absent]
    by_cases within : id < second.graph.size
    · obtain ⟨part, _, stands⟩ := wired.fresh outside within
      exact stands.inner
    · rw [Graph.root?, Graph.node?_eq_none_iff.2 (Nat.le_of_not_lt within), Option.bind_none]

end Wired

/-! ## One test -/

variable {network : Network}

/-- A new test is a watcher of its field, the latest. -/
theorem Sound.watched_test (sound : network.Sound) {predicate : Predicate} {status : Bool}
    {sensor : SensorId} {field : String} {declared : Field}
    (found : (network.sensors.modifyField predicate.sensor predicate.field
      (·.watch network.graph.size)).field? sensor field = some declared) :
    declared.watchers =
      (network.graph.mount (.test predicate) status).testsOn sensor field := by
  rw [Graph.testsOn_mount (fun _ member => by cases member)]
  rw [Sensors.field?_modifyField] at found
  split at found
  case isTrue here =>
    obtain ⟨earlier, was, rfl⟩ := Option.map_eq_some_iff.1 found
    have fresh : network.graph.size ∉ earlier.watchers := by
      rw [sound.watched was]
      intro member
      obtain ⟨_, test, _⟩ := Graph.mem_testsOn.1 member
      exact Nat.lt_irrefl _ (Graph.lt_size_of_predicate? test)
    have on : predicate.isOn sensor field = true := by simp [Predicate.isOn, here]
    rw [Field.watchers_watch _ _ fresh, sound.watched was]
    simp [Node.predicate?, on]
  case isFalse elsewhere =>
    have off : predicate.isOn sensor field = false := by
      rw [← Bool.not_eq_true]
      intro on
      simp only [Predicate.isOn, Bool.and_eq_true, beq_iff_eq] at on
      exact elsewhere ⟨on.1.symm, on.2.symm⟩
    simp [Node.predicate?, off, sound.watched found]

/-- The node of a test, and that of no other, is added if there is none. -/
theorem Sound.mount_test (sound : network.Sound) {predicate : Predicate}
    (typed : predicate.Typed network.sensors)
    (missing : ∀ id, network.graph.predicate? id ≠ some predicate) :
    network.Wired
      ⟨network.sensors.modifyField predicate.sensor predicate.field
          (·.watch network.graph.size),
        network.graph.mount (.test predicate) (network.current predicate)⟩
      [.test predicate] := by
  have below : ∀ child ∈ Node.children ⟨.test predicate, network.current predicate, []⟩,
      child < network.graph.size := fun child member => by cases member
  have type := network.sensors.type?_modifyField predicate.sensor predicate.field
    fun declared => declared.type_watch network.graph.size
  have value := network.sensors.value?_modifyField predicate.sensor predicate.field
    fun declared => declared.value_watch network.graph.size
  have linked : (network.graph.mount (.test predicate) (network.current predicate)).Linked :=
    sound.linked.mount below fun child member => by cases member
  have top : (network.graph.mount (.test predicate) (network.current predicate)).predicate?
      network.graph.size = some predicate := by
    rw [Graph.predicate?_mount below, if_pos rfl]
    rfl
  refine ⟨⟨linked, ?_, ?_, sound.watched_test, ?_⟩, Graph.grows_mount below, type, value, ?_, ?_⟩
  · exact sound.settled.mount sound.linked.toPaired below (fun same => by cases same)
      fun same => by cases same
  · refine sound.distinct.mount below ?_ fun same => by cases same
    rintro _ ⟨⟩
    exact missing
  · intro id known test
    rw [Predicate.Typed, type]
    rcases Graph.predicate?_of_mount below test with ⟨_, isTest⟩ | earlier
    · cases isTest
      exact typed
    · exact sound.typed earlier
  · intro id known outside test
    have last := Graph.eq_size_of_mount outside (Graph.lt_size_of_predicate? test)
    rw [last, top, Option.some.injEq] at test
    rw [last, Graph.status_of_node? (Graph.node?_mount_size below), ← test]
    exact (congrFun (current_congr value) predicate).symm
  · intro id outside within
    rw [Graph.eq_size_of_mount outside within]
    exact ⟨_, List.mem_singleton_self _, Graph.stands_of_test linked top⟩

theorem Sound.wireTest (sound : network.Sound) {predicate : Predicate}
    (typed : predicate.Typed network.sensors) :
    network.Wired (network.wireTest predicate).1 [.test predicate] ∧
      (network.wireTest predicate).1.graph.Stands (network.wireTest predicate).2
        (.test predicate) := by
  unfold Network.wireTest
  cases found : network.graph.findTest? predicate with
  | some id =>
      exact ⟨.refl sound _,
        Graph.stands_of_test sound.linked (Graph.findTest?_eq_some found)⟩
  | none =>
      have wired := sound.mount_test typed (Graph.findTest?_eq_none found)
      refine ⟨wired, Graph.stands_of_test wired.sound.linked ?_⟩
      rw [Graph.predicate?_mount (fun child member => by cases member), if_pos rfl]
      rfl

/-! ## Groups and formulas -/

/-- A node that is no test is of no concern to any field. -/
theorem Sound.mount (sound : network.Sound) {kind : Node.Kind} {status : Bool}
    (below : ∀ child ∈ Node.children ⟨kind, status, []⟩, child < network.graph.size)
    (inner : ∀ child ∈ Node.children ⟨kind, status, []⟩, network.graph.root? child = none)
    (noTest : Node.predicate? ⟨kind, status, []⟩ = none)
    (settled : (network.graph.mount kind status).Settled)
    (missing : ∀ {junction children holding}, kind = .group junction children holding →
      ∀ {id others}, network.graph.group? id = some (junction, others) →
        ¬others.Perm children) :
    Sound ⟨network.sensors, network.graph.mount kind status⟩ where
  linked := sound.linked.mount below inner
  settled := settled
  distinct := by
    refine sound.distinct.mount below ?_ missing
    rintro _ rfl
    cases noTest
  watched found := by
    rw [Graph.testsOn_mount below, noTest]
    simpa using sound.watched found
  typed := by
    intro id predicate test
    rw [Graph.predicate?_mount below, noTest] at test
    split at test
    case isTrue => cases test
    case isFalse => exact sound.typed test

/-- A group with the count of its children that hold is added if it has no node. -/
theorem Sound.mount_group (sound : network.Sound) {junction : Junction}
    {children : List NodeId} {members : List Formula}
    (stand : List.Forall₂ network.graph.Stands children members)
    (missing : ∀ {id others}, network.graph.group? id = some (junction, others) →
      ¬others.Perm children) {holding : Nat}
    (counted : holding = children.countP network.graph.status) {graph : Graph}
    (mounted : graph = network.graph.mount (.group junction children holding)
      (junction.status holding children.length)) :
    network.Wired { network with graph } [.group junction members] ∧
      graph.Stands network.graph.size (.group junction members) := by
  subst mounted
  have below : ∀ child ∈ Node.children ⟨.group junction children holding,
      junction.status holding children.length, []⟩, child < network.graph.size :=
    fun child member => (Graph.inner_of_stands stand member).1
  have extended := sound.mount below
    (fun child member => (Graph.inner_of_stands stand member).2) rfl
    (sound.settled.mount sound.linked.toPaired below (by rintro _ _ _ ⟨⟩; exact ⟨counted, rfl⟩)
      fun same => by cases same)
    (by rintro _ _ _ ⟨⟩; exact missing)
  have grows := Graph.grows_mount below
  have top : (network.graph.mount (.group junction children holding)
      (junction.status holding children.length)).group? network.graph.size =
        some (junction, children) := by
    rw [Graph.group?_mount below, if_pos rfl]
    rfl
  have kept : children.map (network.graph.mount (.group junction children holding)
      (junction.status holding children.length)).form? = children.map network.graph.form? := by
    refine List.map_congr_left fun child member => ?_
    exact grows.form?_eq sound.linked extended.linked (below child member)
  have stands := Graph.stands_of_group extended.linked top
    (.of_eq (kept.trans (Graph.map_form?_of_stands stand)))
  refine ⟨⟨extended, grows, rfl, rfl, ?_, ?_⟩, stands⟩
  · intro id predicate outside test
    have last := Graph.eq_size_of_mount outside (Graph.lt_size_of_predicate? test)
    rw [last, Graph.predicate?_of_group? top] at test
    cases test
  · intro id outside within
    rw [Graph.eq_size_of_mount outside within]
    exact ⟨_, List.mem_singleton_self _, stands⟩

theorem Sound.shareGroup (sound : network.Sound) (junction : Junction) {children : List NodeId}
    {members : List Formula} (stand : List.Forall₂ network.graph.Stands children members) :
    network.Wired { network with graph := (network.graph.shareGroup junction children).1 }
        [.group junction members] ∧
      (network.graph.shareGroup junction children).1.Stands
        (network.graph.shareGroup junction children).2 (.group junction members) := by
  unfold Graph.shareGroup
  cases found : network.graph.findGroup? junction children with
  | some id =>
      obtain ⟨others, group, same⟩ := Graph.findGroup?_eq_some found
      exact ⟨.refl sound _, Graph.stands_of_group sound.linked group
        (Graph.map_form?_of_stands stand ▸ same.map _)⟩
  | none => exact sound.mount_group stand (Graph.findGroup?_eq_none found) rfl rfl

/-- Wiring a formula gives it a node, in whatever sound network. -/
def Wires (formula : Formula) : Prop :=
  ∀ {network : Network}, network.Sound →
    (∀ predicate, .test predicate ∈ formula.parts → predicate.Typed network.sensors) →
      network.Wired (network.wire formula).1 formula.parts ∧
        (network.wire formula).1.graph.Stands (network.wire formula).2 formula

theorem wires_members {members : List Formula} (each : ∀ member ∈ members, Wires member)
    {network : Network} (sound : network.Sound)
    (typed : ∀ predicate, .test predicate ∈ Formula.partsOfMembers members →
      predicate.Typed network.sensors) :
    network.Wired (network.wireMembers members).1 (Formula.partsOfMembers members) ∧
      List.Forall₂ (network.wireMembers members).1.graph.Stands
        (network.wireMembers members).2 members := by
  induction members generalizing network with
  | nil => exact ⟨.refl sound _, .nil⟩
  | cons first rest ih =>
      obtain ⟨wired, stands⟩ := each first List.mem_cons_self sound fun predicate member =>
        typed predicate (List.mem_append_left _ member)
      obtain ⟨done, others⟩ := ih (fun member inRest => each member (.tail _ inRest))
        wired.sound fun predicate member => by
          rw [Predicate.Typed, wired.type]
          exact typed predicate (List.mem_append_right _ member)
      exact ⟨wired.trans done, .cons
        (stands.grows done.grows wired.sound.linked done.sound.linked) others⟩

/-- A formula of typed tests is given a node, and nodes are added for its parts only. -/
theorem wires (formula : Formula) : Wires formula := by
  induction formula using Formula.induction with
  | test predicate =>
      intro network sound typed
      exact sound.wireTest (typed predicate (Formula.mem_parts_self _))
  | group junction members ih =>
      intro network sound typed
      obtain ⟨wired, stand⟩ := wires_members ih sound fun predicate member =>
        typed predicate (.tail _ member)
      obtain ⟨shared, stands⟩ := wired.sound.shareGroup junction stand
      refine ⟨(wired.trans shared).mono fun part member => ?_, stands⟩
      rw [List.mem_append, List.mem_singleton] at member
      exact List.mem_cons.2 member.symm

/-! ## Sensors -/

/-- Wiring registers no sensor. -/
theorem contains_wire (formula : Formula) (network : Network) (id : SensorId) :
    (network.wire formula).1.sensors.contains id = network.sensors.contains id := by
  induction formula using Formula.induction generalizing network with
  | test predicate =>
      rw [wire, wireTest]
      cases network.graph.findTest? predicate with
      | some found => rfl
      | none => exact Sensors.contains_modifyField ..
  | group junction members ih =>
      rw [wire]
      change (network.wireMembers members).1.sensors.contains id = _
      induction members generalizing network with
      | nil => rfl
      | cons first rest rec =>
          rw [wireMembers]
          exact (rec (fun member inRest => ih member (.tail _ inRest)) _).trans
            (ih first List.mem_cons_self network)

end Network

end Tripwire
