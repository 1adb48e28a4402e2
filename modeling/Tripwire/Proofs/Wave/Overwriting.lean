import Tripwire.Proofs.Wave.Transitions

/-!
# Overwritten tests

A wave starts from a graph whose tests were overwritten, while the counts and statuses above them
still tell of the tests from before. As the changes are all that differs, each node that waits to be
passed on stood the other way before, and the wave brings the graph to rest.
-/

namespace Tripwire

namespace Graph

/-- A graph whose tests may stand otherwise than before, with all those that do. -/
structure Overwritten (before after : Graph) (changes : List Change) : Prop where
  frame : after.frame = before.frame
  inner : ∀ {id}, before.predicate? id = none → after.node? id = before.node? id
  listed : ∀ change, change ∈ changes ↔
    (∃ predicate, before.predicate? change.node = some predicate) ∧
      after.status change.node = change.rising ∧ before.status change.node = !change.rising
  distinct : (changes.map Change.node).Nodup

namespace Overwritten

variable {before after : Graph} {changes : List Change}

theorem status_of_inner (overwritten : before.Overwritten after changes) {id : NodeId}
    (inner : before.predicate? id = none) : after.status id = before.status id := by
  rw [status, overwritten.inner inner, ← status]

/-- What parents know before the changes are passed on is the status from before. -/
theorem known_eq (overwritten : before.Overwritten after changes) (id : NodeId) :
    (Wave.ofChanges after changes).known id = before.status id := by
  cases waits : (Wave.ofChanges after changes).isPending id with
  | true =>
      obtain ⟨change, member, rfl⟩ := Wave.isPending_iff.1 waits
      obtain ⟨_, now, earlier⟩ := (overwritten.listed change).1 member
      have status : (Wave.ofChanges after changes).graph.status change.node = change.rising := now
      simp [Wave.known, waits, status, earlier]
  | false =>
      have stands : (Wave.ofChanges after changes).known id = after.status id := by
        rw [Wave.known, waits, if_neg Bool.false_ne_true]
        exact ite_self (after.status id)
      rw [stands]
      cases test : before.predicate? id with
      | none => exact overwritten.status_of_inner test
      | some predicate =>
          apply Classical.byContradiction
          intro moved
          have change : (⟨id, after.status id⟩ : Change) ∈ changes :=
            (overwritten.listed _).2 ⟨⟨predicate, test⟩, rfl, Bool.eq_not.2 (Ne.symm moved)⟩
          have waiting : (Wave.ofChanges after changes).isPending id = true :=
            Wave.isPending_iff.2 ⟨_, change, rfl⟩
          rw [waiting] at waits
          cases waits

/-- There are as many changes as tests that stand otherwise. -/
theorem length_changes (overwritten : before.Overwritten after changes) :
    changes.length = (List.range before.size).countP fun id =>
      (before.predicate? id).isSome && before.status id != after.status id := by
  have listed : (changes.map Change.node).Perm ((List.range before.size).filter fun id =>
      (before.predicate? id).isSome && before.status id != after.status id) := by
    rw [List.perm_ext_iff_of_nodup overwritten.distinct (List.nodup_range.filter _)]
    intro id
    rw [List.mem_map, List.mem_filter, List.mem_range, Bool.and_eq_true, bne_iff_ne,
      Option.isSome_iff_exists]
    constructor
    · rintro ⟨change, member, rfl⟩
      obtain ⟨⟨predicate, test⟩, now, earlier⟩ := (overwritten.listed change).1 member
      refine ⟨lt_size_of_predicate? test, ⟨predicate, test⟩, ?_⟩
      rw [now, earlier]
      exact Bool.not_ne_self _
    · rintro ⟨_, test, differs⟩
      refine ⟨⟨id, after.status id⟩, (overwritten.listed _).2 ⟨test, rfl, ?_⟩, rfl⟩
      exact Bool.eq_not.2 differs
  rw [List.countP_eq_length_filter, ← listed.length_eq, List.length_map]

/-- The overwritten tests are ready to be passed on. -/
theorem poised (overwritten : before.Overwritten after changes) (paired : before.Paired)
    (settled : before.Settled) : (Wave.ofChanges after changes).Poised false [] changes where
  paired := paired.of_frame_eq overwritten.frame.symm
  pending := rfl
  groups change member := by cases member
  tests change member := by
    obtain ⟨predicate, test⟩ := ((overwritten.listed change).1 member).1
    refine ⟨predicate, ?_⟩
    change after.predicate? change.node = some predicate
    rw [predicate?_of_frame_eq overwritten.frame, test]
  current change member := ((overwritten.listed change).1 member).2.1
  distinct := overwritten.distinct
  agrees := by
    have inner : ∀ {id node}, after.node? id = some node → node.predicate? = none →
        before.node? id = some node := by
      intro id node found isInner
      rw [← overwritten.inner, found]
      rw [← predicate?_of_frame_eq overwritten.frame, predicate?, found, Option.bind_some, isInner]
    have known := overwritten.known_eq
    refine ⟨fun found => ?_, fun found => ?_⟩
    · obtain ⟨counted, status⟩ := settled.group (inner found rfl)
      refine ⟨?_, status⟩
      rw [counted, funext known]
    · rw [settled.root (inner found rfl), known]

end Overwritten

/-! ## The roots that turn -/

/-- The roots that stand otherwise in a later graph, in the order of their creation. -/
def turned (before after : Graph) : List (NodeId × Transition) :=
  (List.range before.size).filterMap fun id =>
    (before.root? id).bind fun root =>
      if after.status id = before.status id then none else some (id, ⟨root, after.status id⟩)

theorem turn_eq_some_iff {before after : Graph} {id : NodeId}
    {reported : NodeId × Transition} :
    ((before.root? id).bind fun root =>
        if after.status id = before.status id then none
        else some (id, (⟨root, after.status id⟩ : Transition))) = some reported ↔
      id = reported.1 ∧ before.root? id = some reported.2.root ∧
        after.status id = reported.2.rising ∧ before.status id = !reported.2.rising := by
  obtain ⟨other, root, rising⟩ := reported
  rw [Option.bind_eq_some_iff]
  constructor
  · rintro ⟨top, found, turns⟩
    split at turns
    case isTrue => cases turns
    case isFalse differs =>
      cases turns
      exact ⟨rfl, found, rfl, Bool.eq_not.2 (Ne.symm differs)⟩
  · rintro ⟨rfl, found, rfl, earlier⟩
    refine ⟨root, found, if_neg ?_⟩
    exact Ne.symm (Bool.eq_not.1 earlier)

theorem mem_turned {before after : Graph} {id : NodeId} {transition : Transition} :
    (id, transition) ∈ before.turned after ↔
      before.root? id = some transition.root ∧
        after.status id = transition.rising ∧ before.status id = !transition.rising := by
  unfold turned
  rw [List.mem_filterMap]
  constructor
  · rintro ⟨other, _, turns⟩
    obtain ⟨rfl, turned⟩ := turn_eq_some_iff.1 turns
    exact turned
  · intro turned
    exact ⟨id, List.mem_range.2 (lt_size_of_root? turned.1), turn_eq_some_iff.2 ⟨rfl, turned⟩⟩

theorem turned_nodup (before after : Graph) : (before.turned after).Nodup := by
  unfold turned List.Nodup
  rw [List.pairwise_filterMap]
  refine List.nodup_range.imp ?_
  intro first second apart reported found other alsoFound same
  obtain ⟨here, _⟩ := turn_eq_some_iff.1 found
  obtain ⟨there, _⟩ := turn_eq_some_iff.1 alsoFound
  exact apart (here.trans (same ▸ there.symm))

end Graph

/-- What a wave remembers suffices to report the roots that turned, each once. -/
theorem Wave.Remembers.netChanges_perm {wave : Wave} {before : Graph}
    (remembers : wave.Remembers before) : wave.netChanges.Perm (before.turned wave.graph) := by
  have once : wave.netChanges.Nodup := remembers.netChanges_nodup.of_map Prod.fst
  rw [List.perm_ext_iff_of_nodup once (before.turned_nodup wave.graph)]
  rintro ⟨id, transition⟩
  rw [remembers.mem_netChanges_iff, Graph.mem_turned]

end Tripwire
