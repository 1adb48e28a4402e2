import Tripwire.Proofs.Wave.Cascade

/-!
# Waves come to rest

Between two steps counts and statuses agree with what parents know. Each step uses up one unit
of a budget: a test that waits is worth one and all groups together, since it may move each of
them once, and during its cascade what waits and what may still move are worth one each. The
bound on steps is the budget at the start, so the stack is empty in the end and counts and
statuses agree with what parents know.
-/

namespace Tripwire

namespace Wave

/-- A wave between two steps. -/
structure Poised (wave : Wave) (rising : Bool) (cascade leaves : List Change) : Prop
    extends wave.Stacked rising cascade leaves where
  agrees : wave.graph.Agrees wave.known

/-- How many steps a wave takes at most. -/
def budget (wave : Wave) (rising : Bool) (cascade leaves : List Change) : Nat :=
  leaves.length * (1 + wave.graph.groupCount) +
    (if cascade = [] then 0 else cascade.length + wave.graph.movable rising)

theorem parents_eq (wave : Wave) (id : NodeId) : wave.parents id = wave.graph.parents id := by
  unfold parents Graph.parents
  cases wave.graph.node? id <;> rfl

/-! ## One step -/

section

variable {wave : Wave} {rising : Bool} {cascade leaves rest : List Change} {change : Change}

/-- No root waits, so that a change that is taken off the stack is known of by its node's status. -/
theorem Stacked.root?_of_next (stacked : wave.Stacked rising cascade leaves)
    (next : wave.pending = change :: rest) : wave.graph.root? change.node = none := by
  refine stacked.root?_of_isPending (isPending_iff.2 ⟨change, ?_, rfl⟩)
  rw [next]
  exact List.mem_cons_self

/-- A change that is taken off the stack has all its parents still to tell. -/
theorem Poised.told (poised : wave.Poised rising cascade leaves)
    (next : wave.pending = change :: rest) :
    wave.graph.Told ({ wave with pending := rest }.known) change.rising
      (wave.graph.parents change.node) := by
  have distinct := poised.distinct
  have stands := poised.current change (by rw [next]; exact List.mem_cons_self)
  rw [next, List.map_cons, List.nodup_cons] at distinct
  have waits : wave.isPending change.node = true := by
    simp [isPending, next]
  have idle : ({ wave with pending := rest } : Wave).isPending change.node = false := by
    cases waiting : ({ wave with pending := rest } : Wave).isPending change.node with
    | false => rfl
    | true =>
        obtain ⟨other, member, same⟩ := isPending_iff.1 waiting
        exact absurd (List.mem_map.2 ⟨other, member, same⟩) distinct.1
  have inner : ({ wave with pending := rest } : Wave).graph.root? change.node = none :=
    poised.toStacked.root?_of_next next
  refine poised.agrees.told poised.paired ?_ ?_ ?_
  · rw [known_of_isPending waits, stands]
  · rw [known_of_inner idle inner, stands]
  · intro other apart
    have waiting : ({ wave with pending := rest } : Wave).isPending other =
        wave.isPending other := by
      simp [isPending, next, Ne.symm apart]
    simp [known, waiting, recalled]

/-- Taking a group's change off the stack goes on with the cascade. -/
theorem Stacked.pop_cascade (stacked : wave.Stacked rising (change :: cascade) leaves) :
    ({ wave with pending := cascade ++ leaves } : Wave).Stacked rising cascade leaves where
  paired := stacked.paired
  pending := rfl
  groups other member := stacked.groups other (List.mem_cons_of_mem _ member)
  tests := stacked.tests
  current other member := by
    refine stacked.current other ?_
    rw [stacked.pending, List.cons_append]
    exact List.mem_cons_of_mem _ member
  distinct := by
    have distinct := stacked.distinct
    rw [stacked.pending, List.cons_append, List.map_cons, List.nodup_cons] at distinct
    exact distinct.2

/-- Taking a test's change off the stack starts a cascade in its direction. -/
theorem Stacked.pop_leaf (stacked : wave.Stacked rising [] (change :: leaves)) :
    ({ wave with pending := leaves } : Wave).Stacked change.rising [] leaves where
  paired := stacked.paired
  pending := rfl
  groups other member := by cases member
  tests other member := stacked.tests other (List.mem_cons_of_mem _ member)
  current other member := by
    refine stacked.current other ?_
    rw [stacked.pending]
    exact List.mem_cons_of_mem _ member
  distinct := by
    have distinct := stacked.distinct
    rw [stacked.pending, List.nil_append, List.map_cons, List.nodup_cons] at distinct
    exact distinct.2

/-- Telling all parents that are due. -/
theorem Stacked.deliverAll (due : List NodeId) {wave : Wave} {cascade : List Change}
    (stacked : wave.Stacked rising cascade leaves)
    (told : wave.graph.Told wave.known rising due) :
    ∃ moved, (due.foldl (Wave.deliver rising) wave).Poised rising (moved ++ cascade) leaves ∧
      (due.foldl (Wave.deliver rising) wave).graph.movable rising + moved.length =
        wave.graph.movable rising := by
  induction due generalizing wave cascade with
  | nil => exact ⟨[], ⟨stacked, told.agrees⟩, rfl⟩
  | cons parent due ih =>
      obtain ⟨first, nextStacked, nextTold, fewer⟩ := stacked.deliver told
      obtain ⟨others, poised, fewest⟩ := ih nextStacked nextTold
      refine ⟨others ++ first, ?_, ?_⟩
      · rw [List.append_assoc]
        exact poised
      · rw [List.foldl_cons, List.length_append, ← fewer, ← fewest]
        omega

end

theorem foldl_deliver_frame (rising : Bool) (due : List NodeId) (wave : Wave) :
    (due.foldl (deliver rising) wave).graph.frame = wave.graph.frame := by
  induction due generalizing wave with
  | nil => rfl
  | cons parent due ih => rw [List.foldl_cons, ih, deliver_frame]

theorem step_frame (wave : Wave) : wave.step.graph.frame = wave.graph.frame := by
  unfold step
  split
  · rfl
  · exact foldl_deliver_frame _ _ _

theorem step_eq {wave : Wave} {change : Change} {rest : List Change}
    (next : wave.pending = change :: rest) :
    wave.step = (wave.graph.parents change.node).foldl (deliver change.rising)
      { wave with pending := rest } := by
  simp only [step, next, parents_eq]

section

variable {wave : Wave} {rising : Bool} {cascade leaves : List Change} {change : Change}

/-- Passing on a group's change goes on with the cascade. -/
theorem Poised.step_cascade (poised : wave.Poised rising (change :: cascade) leaves) :
    ∃ moved, wave.step.Poised rising (moved ++ cascade) leaves ∧
      wave.step.graph.movable rising + moved.length = wave.graph.movable rising := by
  have next : wave.pending = change :: (cascade ++ leaves) := poised.pending
  have direction : change.rising = rising := (poised.groups change List.mem_cons_self).2
  have told := poised.told next
  rw [direction] at told
  obtain ⟨moved, after, fewer⟩ := poised.toStacked.pop_cascade.deliverAll _ told
  rw [← direction, ← step_eq next, direction] at after fewer
  exact ⟨moved, after, fewer⟩

/-- Passing on a test's change starts a cascade in its direction. -/
theorem Poised.step_leaf (poised : wave.Poised rising [] (change :: leaves)) :
    ∃ moved, wave.step.Poised change.rising moved leaves ∧
      wave.step.graph.movable change.rising + moved.length =
        wave.graph.movable change.rising := by
  have next : wave.pending = change :: leaves := poised.pending
  obtain ⟨moved, after, fewer⟩ := poised.toStacked.pop_leaf.deliverAll _ (poised.told next)
  rw [← step_eq next] at after fewer
  rw [List.append_nil] at after
  exact ⟨moved, after, fewer⟩

/-- Every step is paid from the budget. -/
theorem Poised.step (poised : wave.Poised rising cascade leaves) (waiting : wave.pending ≠ []) :
    ∃ direction moved others, wave.step.Poised direction moved others ∧
      wave.step.budget direction moved others < wave.budget rising cascade leaves := by
  have groups := Graph.groupCount_of_frame_eq wave.step_frame
  cases cascade with
  | cons change cascade =>
      obtain ⟨moved, after, fewer⟩ := poised.step_cascade
      refine ⟨rising, moved ++ cascade, leaves, after, ?_⟩
      simp only [budget, groups, List.length_append, List.length_cons, reduceCtorEq, if_false]
      split <;> omega
  | nil =>
      cases leaves with
      | nil => exact absurd poised.pending waiting
      | cons change leaves =>
          obtain ⟨moved, after, fewer⟩ := poised.step_leaf
          refine ⟨change.rising, moved, leaves, after, ?_⟩
          have most : wave.graph.movable change.rising ≤ wave.graph.groupCount :=
            wave.graph.movable_le_groupCount change.rising
          simp only [budget, groups, List.length_cons, if_true, Nat.succ_mul]
          split <;> omega

end

/-! ## Whole runs -/

/-- A wave whose steps the bound covers passes on all its changes. -/
theorem Poised.run {wave : Wave} {rising : Bool} {cascade leaves : List Change} {bound : Nat}
    (poised : wave.Poised rising cascade leaves)
    (enough : wave.budget rising cascade leaves ≤ bound) :
    ∃ direction, (wave.run bound).Poised direction [] [] := by
  induction bound generalizing wave rising cascade leaves with
  | zero =>
      have spent : wave.budget rising cascade leaves = 0 := Nat.le_zero.1 enough
      cases cascade with
      | cons change cascade => simp [budget] at spent
      | nil =>
          cases leaves with
          | cons change leaves => simp [budget, Nat.succ_mul] at spent
          | nil => exact ⟨rising, poised⟩
  | succ bound ih =>
      cases waiting : wave.pending with
      | nil =>
          have empty := poised.pending
          rw [waiting] at empty
          obtain ⟨rfl, rfl⟩ := List.append_eq_nil_iff.1 empty.symm
          exact ⟨rising, by simpa [Wave.run, waiting] using poised⟩
      | cons change rest =>
          obtain ⟨direction, moved, others, after, cheaper⟩ :=
            poised.step (by rw [waiting]; exact List.cons_ne_nil _ _)
          obtain ⟨last, done⟩ := ih after (by omega)
          exact ⟨last, by simpa [Wave.run, waiting] using done⟩

/-- Once nothing waits, all nodes but the roots are known of as they stand. -/
theorem Poised.known_eq {wave : Wave} {rising : Bool} (poised : wave.Poised rising [] [])
    (id : NodeId) :
    wave.known id =
      if (wave.graph.root? id).isSome then wave.recalled id else wave.graph.status id := by
  have idle : wave.isPending id = false := by simp [isPending, poised.pending]
  rw [known, idle, if_neg Bool.false_ne_true]

end Wave

end Tripwire
