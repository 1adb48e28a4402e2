import Tripwire.Proofs.Engine.Runs
import Tripwire.Proofs.Graph.Determined

/-!
# The order of changes

Tests that stand otherwise may be passed on in any order: although groups may turn to and fro on the
way, the wave ends with the counts and statuses that follow from the tests, and these leave room for
one graph only. What is reported of the roots is their net change, which is then the same as well.

A root is the top of its condition and its change is passed on to nothing. So a node that stood on a
root all the same would go on as if the root had not changed.
-/

namespace Tripwire

namespace Graph

/-- A wave that has brought the overwritten tests to the roots. Counts and statuses follow from the
tests, where a root below another node counts with its status from before. -/
structure Restored (before after : Graph) (wave : Wave) : Prop where
  done : wave.pending = []
  frame : wave.graph.frame = before.frame
  tests : ∀ {id predicate}, before.predicate? id = some predicate →
    wave.graph.status id = after.status id
  agrees : wave.graph.Agrees (before.seen wave.graph)
  settled : (∀ {id child}, child ∈ before.children id → before.root? child = none) →
    wave.graph.Settled
  reported : wave.transitions.Perm ((before.turned wave.graph).map Prod.snd)

namespace Overwritten

variable {before after : Graph} {changes : List Change}

/-- The changes may be listed in any order. -/
theorem perm (overwritten : before.Overwritten after changes) {others : List Change}
    (same : others.Perm changes) : before.Overwritten after others where
  frame := overwritten.frame
  inner := overwritten.inner
  listed change := same.mem_iff.trans (overwritten.listed change)
  distinct := (same.map Change.node).nodup_iff.2 overwritten.distinct

/-- Remembering the overwritten graph is remembering the one before, but for its tests. -/
theorem turned_eq (overwritten : before.Overwritten after changes) (last : Graph) :
    after.turned last = before.turned last := by
  unfold turned
  rw [size_of_frame_eq overwritten.frame, root?_of_frame_eq overwritten.frame]
  refine List.filterMap_congr fun id _ => ?_
  cases top : before.root? id with
  | none => rfl
  | some root => rw [overwritten.status_of_inner (predicate?_of_root? top)]

/-- Roots are seen in the overwritten graph as in the one before. -/
theorem seen_eq (overwritten : before.Overwritten after changes) (last : Graph) :
    after.seen last = before.seen last := by
  funext id
  unfold seen
  rw [root?_of_frame_eq overwritten.frame]
  cases top : before.root? id with
  | none => rfl
  | some root => rw [overwritten.status_of_inner (predicate?_of_root? top)]

/-- Every list of the changed tests is passed on to the roots. -/
theorem restored (overwritten : before.Overwritten after changes) (paired : before.Paired)
    (settled : before.Settled) : before.Restored after (after.settle changes) := by
  have poised := overwritten.poised paired settled
  have remembers := settle_remembers after changes
  have frame := remembers.frame.trans overwritten.frame
  have agrees := settle_agrees poised
  rw [overwritten.seen_eq] at agrees
  refine ⟨settle_pending poised, frame, ?_, agrees, fun shared => ?_, ?_⟩
  · intro id predicate test
    rw [← predicate?_of_frame_eq overwritten.frame] at test
    exact remembers.test test
  · refine settle_settled poised fun member => ?_
    rw [children_of_frame_eq overwritten.frame] at member
    rw [root?_of_frame_eq overwritten.frame]
    exact shared member
  · rw [Wave.transitions_eq, ← overwritten.turned_eq]
    exact remembers.netChanges_perm.map Prod.snd

end Overwritten

/-- Statuses of tests leave room for one graph only. -/
theorem Restored.graph_eq {before after : Graph} {wave other : Wave} (paired : before.Paired)
    (acyclic : before.Acyclic) (restored : before.Restored after wave)
    (also : before.Restored after other) : wave.graph = other.graph := by
  have frame := restored.frame
  refine eq_of_tests (paired.of_frame_eq frame.symm) (acyclic.of_frame_eq frame.symm)
    (frame.trans also.frame.symm) restored.agrees also.agrees (fun same => ?_) ?_
  · unfold seen
    rw [same]
  · intro id predicate test
    rw [predicate?_of_frame_eq frame] at test
    rw [restored.tests test, also.tests test]

/-- Changed tests are passed on to the same end in any order: no change is left waiting, counts and
statuses follow from the tests, and the roots that stand otherwise than before are reported. A root's
own change goes no further, so that a node on a root still counts it as it stood before. -/
theorem settle_of_perm {before after : Graph} {changes : List Change} (paired : before.Paired)
    (acyclic : before.Acyclic) (settled : before.Settled)
    (overwritten : before.Overwritten after changes) :
    before.Restored after (after.settle changes) ∧
      ∀ others : List Change, others.Perm changes →
        before.Restored after (after.settle others) ∧
          (after.settle others).graph = (after.settle changes).graph ∧
          (after.settle others).transitions.Perm (after.settle changes).transitions := by
  have restored := overwritten.restored paired settled
  refine ⟨restored, fun others same => ?_⟩
  have also := (overwritten.perm same).restored paired settled
  have graph := also.graph_eq paired acyclic restored
  refine ⟨also, graph, also.reported.trans ?_⟩
  rw [graph]
  exact restored.reported.symm

/-- A group of two tests, of which one turns true where the other turns false, with a condition on
the group and another on the group and one of the tests. -/
def seesaw : Engine :=
  Engine.empty.handleAll
    [.addSensor 1 none [("t", .unsigned)],
      .register ⟨none, none, "[1]|(<(t,3),>(t,6))", []⟩,
      .register ⟨none, none, "[1]&(>(t,6),|(<(t,3),>(t,6)))", []⟩,
      .update 1 "t" (.unsigned 1)]

/-- Its tests after a greater value was delivered, before their changes are passed on. -/
def seesawTested : Network.Examination :=
  (seesaw.graph.testsOn 1 "t").foldl (Network.examine 1 "t" (.unsigned 9))
    ⟨seesaw.graph, 0, [], []⟩

/-- In one of the two orders the group turns false and true again on the way. -/
theorem settle_of_perm_seesaw :
    (seesaw.graph.Paired ∧ seesaw.graph.Acyclic ∧ seesaw.graph.Settled ∧
        seesaw.graph.Overwritten seesawTested.graph [⟨1, true⟩, ⟨0, false⟩]) ∧
      ((Wave.ofChanges seesawTested.graph [⟨0, false⟩, ⟨1, true⟩]).run 1).pending =
        [⟨2, false⟩, ⟨1, true⟩] ∧
      (seesawTested.graph.settle [⟨1, true⟩, ⟨0, false⟩]).graph.Settled ∧
      (seesawTested.graph.settle [⟨1, true⟩, ⟨0, false⟩]).transitions.map
        (fun transition => (transition.root.condition, transition.rising)) = [(1, true)] ∧
      (seesawTested.graph.settle [⟨0, false⟩, ⟨1, true⟩]).graph =
        (seesawTested.graph.settle [⟨1, true⟩, ⟨0, false⟩]).graph ∧
      (seesawTested.graph.settle [⟨0, false⟩, ⟨1, true⟩]).transitions.Perm
        (seesawTested.graph.settle [⟨1, true⟩, ⟨0, false⟩]).transitions := by
  have reached : Engine.Reachable seesaw := Engine.Reachable.empty.handleAll _
  obtain ⟨log, recorded⟩ := reached.recorded
  have sound := recorded.sound.network
  have changes : seesawTested.changes = [⟨1, true⟩, ⟨0, false⟩] := by decide +kernel
  have overwritten : seesaw.graph.Overwritten seesawTested.graph [⟨1, true⟩, ⟨0, false⟩] := by
    rw [← changes]
    exact (seesaw.toNetwork.examined 1 "t" (.unsigned 9)).overwritten
      fun _ => exists_test_of_mem_testsOn
  have paired := sound.linked.toPaired
  have acyclic := sound.linked.acyclic
  obtain ⟨restored, orders⟩ := settle_of_perm paired acyclic sound.settled overwritten
  obtain ⟨_, graph, transitions⟩ := orders [⟨0, false⟩, ⟨1, true⟩] (List.Perm.swap _ _ [])
  have settled := restored.settled sound.linked.shared
  refine ⟨⟨paired, acyclic, sound.settled, overwritten⟩, ?_, settled, ?_, graph, transitions⟩
  · decide +kernel
  · decide +kernel

/-- A test, the root of a condition on it, and a group that stands on the root. -/
def capped : Graph :=
  let test := Graph.empty.push (.test ⟨1, "t", .gt, .unsigned 6⟩) false
  let (rooted, root) := test.addRoot ⟨1, none, 0, []⟩
  (rooted.shareGroup .all [root]).1

/-- The test after a greater value was delivered. -/
def cappedTested : Network.Examination :=
  (capped.testsOn 1 "t").foldl (Network.examine 1 "t" (.unsigned 9)) ⟨capped, 0, [], []⟩

/-- Both ends of each edge know of it, and counts and statuses agree with the children. -/
theorem capped_consistent : capped.Paired ∧ capped.Settled := by
  let first := empty.mount (.test ⟨1, "t", .gt, .unsigned 6⟩) false
  let second := first.mount (.root ⟨1, none, 0, []⟩) false
  have paired : first.Paired := linked_empty.toPaired.mount (by decide)
  have alsoPaired : second.Paired := paired.mount (by decide)
  have settled : first.Settled :=
    settled_empty.mount linked_empty.toPaired (by decide) (fun same => by cases same)
      fun same => by cases same
  have alsoSettled : second.Settled :=
    settled.mount paired (by decide) (fun same => by cases same) (by rintro _ ⟨⟩; rfl)
  have mounted : capped = second.mount (.group .all [1] 0) false := by decide +kernel
  rw [mounted]
  exact ⟨alsoPaired.mount (by decide),
    alsoSettled.mount alsoPaired (by decide) (by rintro _ _ _ ⟨⟩; exact ⟨rfl, rfl⟩)
      fun same => by cases same⟩

/-- The root turns true, and the group on it goes on as if nothing had happened. -/
theorem not_settled_capped :
    let last := (cappedTested.graph.settle [⟨0, true⟩]).graph
    (capped.Paired ∧ capped.Acyclic ∧ capped.Settled ∧
        capped.Overwritten cappedTested.graph [⟨0, true⟩]) ∧
      last.status 1 = true ∧ last.node? 2 = some ⟨.group .all [1] 0, false, []⟩ ∧
        ¬last.Settled := by
  intro last
  obtain ⟨paired, settled⟩ := capped_consistent
  have acyclic : capped.Acyclic := by
    have below : ∀ id < capped.size, ∀ child ∈ capped.children id, child < id := by decide +kernel
    refine acyclic_of_below fun {id child} member => below id ?_ child member
    exact paired.lt_size_of_mem_parents ((paired.mem_parents_iff child id).2 member)
  have changes : cappedTested.changes = [⟨0, true⟩] := by decide +kernel
  have overwritten : capped.Overwritten cappedTested.graph [⟨0, true⟩] := by
    rw [← changes]
    exact ((⟨.empty, capped⟩ : Network).examined 1 "t" (.unsigned 9)).overwritten
      fun _ => exists_test_of_mem_testsOn
  have risen : last.status 1 = true := by decide +kernel
  have group : last.node? 2 = some ⟨.group .all [1] 0, false, []⟩ := by decide +kernel
  refine ⟨⟨paired, acyclic, settled, overwritten⟩, risen, group, fun settles => ?_⟩
  have counted := (settles.group group).1
  rw [List.countP_singleton, if_pos risen] at counted
  cases counted

end Graph

end Tripwire
