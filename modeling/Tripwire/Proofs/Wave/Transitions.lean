import Tripwire.Proofs.Wave.Settling

/-!
# Net changes of roots

A wave remembers of each root that it touches the status from before the first touch. Tests
and untouched roots keep theirs, so the transitions in the end are the roots whose statuses
differ from before, each once, however often they changed on the way.
-/

namespace Tripwire

namespace Wave

/-- A wave that started from a graph whose statuses it remembers where they may differ. -/
structure Remembers (wave : Wave) (before : Graph) : Prop where
  frame : wave.graph.frame = before.frame
  distinct : (wave.touched.map Prod.fst).Nodup
  touched : ∀ entry ∈ wave.touched,
    (∃ root, before.root? entry.1 = some root) ∧ entry.2 = before.status entry.1
  untouched : ∀ {id root}, before.root? id = some root → id ∉ wave.touched.map Prod.fst →
    wave.graph.status id = before.status id
  test : ∀ {id predicate}, before.predicate? id = some predicate →
    wave.graph.status id = before.status id

theorem isTouched_iff {wave : Wave} {id : NodeId} :
    wave.touched.any (·.1 == id) = true ↔ id ∈ wave.touched.map Prod.fst := by
  simp [List.any_eq_true]

theorem remembers_ofChanges (graph : Graph) (changes : List Change) :
    (ofChanges graph changes).Remembers graph where
  frame := rfl
  distinct := List.nodup_nil
  touched entry member := by cases member
  untouched _ _ := rfl
  test _ := rfl

/-- What is reported of a root with the status remembered of it. -/
def report? (wave : Wave) (entry : NodeId × Bool) : Option Transition :=
  match wave.graph.node? entry.1 with
  | none => none
  | some node =>
      if node.status = entry.2 then none
      else node.root?.map fun root => ⟨root, node.status⟩

/-- A touched root is reported if its status differs from the one remembered. -/
theorem report?_eq_some_iff {wave : Wave} {entry : NodeId × Bool} {transition : Transition} :
    wave.report? entry = some transition ↔
      wave.graph.root? entry.1 = some transition.root ∧
        wave.graph.status entry.1 = transition.rising ∧ entry.2 ≠ transition.rising := by
  obtain ⟨root, rising⟩ := transition
  unfold report?
  cases found : wave.graph.node? entry.1 with
  | none => simp [Graph.root?, found]
  | some node =>
      rw [Graph.status_of_node? found]
      simp only [Graph.root?, found, Option.bind_some]
      split
      case isTrue same => simp [same]
      case isFalse differs =>
        simp only [Option.map_eq_some_iff, Transition.mk.injEq]
        constructor
        · rintro ⟨top, isTop, rfl, rfl⟩
          exact ⟨isTop, rfl, Ne.symm differs⟩
        · rintro ⟨isTop, status, _⟩
          exact ⟨root, isTop, rfl, status⟩

/-- The transitions in their order, each with the node of its root. -/
def netChanges (wave : Wave) : List (NodeId × Transition) :=
  wave.touched.reverse.filterMap fun entry => (wave.report? entry).map (entry.1, ·)

theorem transitions_eq (wave : Wave) : wave.transitions = wave.netChanges.map Prod.snd := by
  unfold netChanges
  rw [List.map_filterMap]
  refine List.filterMap_congr fun entry _ => ?_
  rw [Option.map_map]
  exact (Option.map_id_apply).symm

namespace Remembers

variable {wave : Wave} {before : Graph}

theorem pop (remembers : wave.Remembers before) (rest : List Change) :
    ({ wave with pending := rest } : Wave).Remembers before :=
  ⟨remembers.frame, remembers.distinct, remembers.touched, remembers.untouched,
    remembers.test⟩

/-- A change of a node that is neither a root nor a test is not remembered. -/
theorem of_inner (remembers : wave.Remembers before) {next : Wave} {parent : NodeId}
    (frame : next.graph.frame = wave.graph.frame) (touched : next.touched = wave.touched)
    (elsewhere : ∀ id, id ≠ parent → next.graph.status id = wave.graph.status id)
    (keeps : before.root? parent ≠ none ∨ before.predicate? parent ≠ none →
      next.graph.status parent = wave.graph.status parent) :
    next.Remembers before where
  frame := frame.trans remembers.frame
  distinct := by rw [touched]; exact remembers.distinct
  touched := by rw [touched]; exact remembers.touched
  untouched := by
    intro id root found absent
    rw [touched] at absent
    rw [← remembers.untouched found absent]
    by_cases same : id = parent
    · subst same
      exact keeps (Or.inl (by simp [found]))
    · exact elsewhere id same
  test := by
    intro id predicate found
    rw [← remembers.test found]
    by_cases same : id = parent
    · subst same
      exact keeps (Or.inr (by simp [found]))
    · exact elsewhere id same

/-- A root's status from before is remembered when the root first changes. -/
theorem touch (remembers : wave.Remembers before) {parent : NodeId} {node : Node}
    (found : wave.graph.node? parent = some node) (isRoot : node.isRoot = true) (moved : Node)
    (keeps : moved.frame = node.frame) :
    ({ wave with graph := wave.graph.modify parent fun _ => moved }.touch parent
      node.status).Remembers before := by
  have frame : (wave.graph.modify parent fun _ => moved).frame = before.frame := by
    rw [Graph.frame_modify _ _ _ fun other here => ?_, remembers.frame]
    rw [found, Option.some.injEq] at here
    rw [keeps, here]
  have top : ∃ root, before.root? parent = some root := by
    rw [← Graph.root?_of_frame_eq remembers.frame]
    simpa [Graph.root?, found, Node.isRoot, Option.isSome_iff_exists] using isRoot
  have notTest : before.predicate? parent = none := by
    rw [← Graph.predicate?_of_frame_eq remembers.frame, Graph.predicate?, found,
      Option.bind_some, Node.predicate?_of_isRoot isRoot]
  have test : ∀ {id predicate}, before.predicate? id = some predicate →
      (wave.graph.modify parent fun _ => moved).status id = before.status id := by
    intro id predicate found'
    rw [Graph.status_modify found, if_neg, remembers.test found']
    intro same
    rw [← same, notTest] at found'
    cases found'
  unfold Wave.touch
  split
  case isTrue known =>
    refine ⟨frame, remembers.distinct, remembers.touched, ?_, test⟩
    intro id root here absent
    rw [Graph.status_modify found, if_neg, remembers.untouched here absent]
    intro same
    subst same
    exact absent (isTouched_iff.1 known)
  case isFalse fresh =>
    have absent : parent ∉ wave.touched.map Prod.fst :=
      fun member => fresh (isTouched_iff.2 member)
    obtain ⟨root, here⟩ := top
    have status : node.status = before.status parent := by
      rw [← remembers.untouched here absent, Graph.status_of_node? found]
    refine ⟨frame, ?_, ?_, ?_, test⟩
    · exact List.nodup_cons.2 ⟨absent, remembers.distinct⟩
    · intro entry member
      rcases List.mem_cons.1 member with same | older
      · subst same
        exact ⟨⟨root, here⟩, status⟩
      · exact remembers.touched entry older
    · intro id other there outside
      rw [List.map_cons, List.mem_cons, not_or] at outside
      rw [Graph.status_modify found, if_neg (Ne.symm outside.1),
        remembers.untouched there outside.2]

theorem deliver (remembers : wave.Remembers before) (rising : Bool) (parent : NodeId) :
    (wave.deliver rising parent).Remembers before := by
  cases found : wave.graph.node? parent with
  | none =>
      rw [deliver_none found]
      exact remembers
  | some node =>
      have elsewhere : ∀ id, id ≠ parent →
          (wave.deliver rising parent).graph.status id = wave.graph.status id := by
        intro id apart
        rw [deliver_status rising found, if_neg (Ne.symm apart)]
      have here : (wave.deliver rising parent).graph.status parent =
          (node.shift rising).status := by
        rw [deliver_status rising found, if_pos rfl]
      by_cases still : (node.shift rising).status = node.status
      · refine remembers.of_inner (deliver_frame rising wave parent) ?_ elsewhere fun _ => ?_
        · rw [deliver_still found still]
        · rw [here, still, Graph.status_of_node? found]
      · cases isRoot : node.isRoot with
        | true =>
            rw [deliver_root found still isRoot]
            exact remembers.touch found isRoot _ (node.frame_shift rising)
        | false =>
            refine remembers.of_inner (deliver_frame rising wave parent) ?_ elsewhere ?_
            · rw [deliver_inner found still isRoot]
            · intro outer
              rw [← Graph.root?_of_frame_eq remembers.frame,
                ← Graph.predicate?_of_frame_eq remembers.frame] at outer
              have group : wave.graph.isGroup parent = true := by
                simp [Graph.isGroup, found, Node.isGroup_of_moved still isRoot]
              rcases outer with top | test
              · exact absurd (Graph.root?_of_isGroup group) top
              · exact absurd (Graph.predicate?_of_isGroup group) test

theorem deliverAll (remembers : wave.Remembers before) (rising : Bool) (due : List NodeId) :
    (due.foldl (Wave.deliver rising) wave).Remembers before := by
  induction due generalizing wave with
  | nil => exact remembers
  | cons parent due ih => exact ih (remembers.deliver rising parent)

theorem step (remembers : wave.Remembers before) : wave.step.Remembers before := by
  cases waiting : wave.pending with
  | nil => simpa [Wave.step, waiting] using remembers
  | cons change rest =>
      rw [step_eq waiting]
      exact (remembers.pop rest).deliverAll change.rising _

theorem run (remembers : wave.Remembers before) (bound : Nat) :
    (wave.run bound).Remembers before := by
  induction bound generalizing wave with
  | zero => exact remembers
  | succ bound ih =>
      unfold Wave.run
      split
      · exact remembers
      · exact ih remembers.step

theorem root?_eq (remembers : wave.Remembers before) (id : NodeId) :
    wave.graph.root? id = before.root? id := by
  rw [Graph.root?_of_frame_eq remembers.frame]

/-- What is recalled of a root is its status from before. -/
theorem recalled_eq (remembers : wave.Remembers before) {id : NodeId} {root : Root}
    (found : before.root? id = some root) : wave.recalled id = before.status id := by
  unfold recalled
  cases touched : wave.touched.lookup id with
  | some status =>
      obtain ⟨earlier, later, split, _⟩ := List.lookup_eq_some_iff.1 touched
      have member : (id, status) ∈ wave.touched := by
        rw [split]
        exact List.mem_append_right _ List.mem_cons_self
      exact (remembers.touched _ member).2
  | none =>
      refine remembers.untouched found fun member => ?_
      obtain ⟨entry, inTouched, rfl⟩ := List.mem_map.1 member
      have differs := List.lookup_eq_none_iff.1 touched entry inTouched
      simp at differs

/-- The net changes are the roots whose statuses differ from before. -/
theorem mem_netChanges_iff (remembers : wave.Remembers before) {id : NodeId}
    {transition : Transition} :
    (id, transition) ∈ wave.netChanges ↔
      before.root? id = some transition.root ∧
        wave.graph.status id = transition.rising ∧ before.status id = !transition.rising := by
  unfold netChanges
  rw [List.mem_filterMap]
  constructor
  · rintro ⟨entry, member, reported⟩
    obtain ⟨_, found, same⟩ := Option.map_eq_some_iff.1 reported
    cases same
    obtain ⟨top, after, differs⟩ := report?_eq_some_iff.1 found
    obtain ⟨_, status⟩ := remembers.touched entry (List.mem_reverse.1 member)
    refine ⟨?_, after, ?_⟩
    · rw [← remembers.root?_eq, top]
    · rw [← status]
      exact Bool.eq_not.2 differs
  · rintro ⟨found, after, earlier⟩
    have differs : before.status id ≠ transition.rising := Bool.eq_not.1 earlier
    have member : id ∈ wave.touched.map Prod.fst := by
      apply Classical.byContradiction
      intro absent
      exact differs (after ▸ (remembers.untouched found absent).symm)
    obtain ⟨entry, inTouched, rfl⟩ := List.mem_map.1 member
    have reported : wave.report? entry = some transition := by
      refine report?_eq_some_iff.2 ⟨?_, after, ?_⟩
      · rw [remembers.root?_eq, found]
      · rw [(remembers.touched entry inTouched).2]
        exact differs
    exact ⟨entry, List.mem_reverse.2 inTouched, by rw [reported, Option.map_some]⟩

/-- The transitions are the roots whose statuses differ from before. -/
theorem mem_transitions_iff (remembers : wave.Remembers before) (transition : Transition) :
    transition ∈ wave.transitions ↔
      ∃ id, before.root? id = some transition.root ∧
        wave.graph.status id = transition.rising ∧ before.status id = !transition.rising := by
  rw [transitions_eq, List.mem_map]
  constructor
  · rintro ⟨⟨id, _⟩, member, rfl⟩
    exact ⟨id, remembers.mem_netChanges_iff.1 member⟩
  · rintro ⟨id, turned⟩
    exact ⟨(id, transition), remembers.mem_netChanges_iff.2 turned, rfl⟩

/-- No root is reported twice. -/
theorem netChanges_nodup (remembers : wave.Remembers before) :
    (wave.netChanges.map Prod.fst).Nodup := by
  have distinct : wave.touched.reverse.Pairwise fun first second => first.1 ≠ second.1 :=
    List.pairwise_reverse.2 ((List.pairwise_map.1 remembers.distinct).imp Ne.symm)
  unfold netChanges List.Nodup
  rw [List.pairwise_map, List.pairwise_filterMap]
  refine distinct.imp ?_
  intro first second apart reported found other alsoFound
  obtain ⟨_, _, rfl⟩ := Option.map_eq_some_iff.1 found
  obtain ⟨_, _, rfl⟩ := Option.map_eq_some_iff.1 alsoFound
  exact apart

/-- No condition is reported twice, if no two roots are of one condition. -/
theorem transitions_distinct (remembers : wave.Remembers before)
    (unique : ∀ {id other root top}, before.root? id = some root →
      before.root? other = some top → root.condition = top.condition → id = other) :
    (wave.transitions.map (·.root.condition)).Nodup := by
  rw [transitions_eq, List.map_map]
  refine List.pairwise_map.2 ((List.pairwise_map.1 remembers.netChanges_nodup).imp_of_mem ?_)
  intro first second isFirst isSecond apart same
  obtain ⟨found, _⟩ := remembers.mem_netChanges_iff.1 isFirst
  obtain ⟨alsoFound, _⟩ := remembers.mem_netChanges_iff.1 isSecond
  exact apart (unique found alsoFound same)

end Remembers

end Wave

namespace Graph

theorem settle_remembers (graph : Graph) (changes : List Change) :
    (graph.settle changes).Remembers graph :=
  (Wave.remembers_ofChanges graph changes).run _

section

variable {graph : Graph} {changes : List Change} {rising : Bool}
  (poised : (Wave.ofChanges graph changes).Poised rising [] changes)

include poised

theorem settle_poised : ∃ direction, (graph.settle changes).Poised direction [] [] :=
  poised.run (Nat.le_refl (changes.length * (1 + graph.groupCount)))

/-- The bound on the steps of a wave leaves none of its changes waiting. -/
theorem settle_pending : (graph.settle changes).pending = [] := by
  obtain ⟨direction, last⟩ := settle_poised poised
  exact last.pending

/-- In the end counts and statuses agree with the children, where roots stand as before. -/
theorem settle_agrees :
    (graph.settle changes).graph.Agrees (graph.seen (graph.settle changes).graph) := by
  obtain ⟨direction, last⟩ := settle_poised poised
  have remembers := settle_remembers graph changes
  refine last.agrees.congr fun id child _ => ?_
  rw [last.known_eq, seen, remembers.root?_eq]
  cases top : graph.root? child with
  | none => rfl
  | some root => exact remembers.recalled_eq top

/-- Where nothing stands on a root, the graph is settled in the end. -/
theorem settle_settled
    (shared : ∀ {id child}, child ∈ graph.children id → graph.root? child = none) :
    (graph.settle changes).graph.Settled := by
  refine (settle_agrees poised).settled fun member => ?_
  rw [children_of_frame_eq (settle_remembers graph changes).frame] at member
  exact shared member

end

end Graph

end Tripwire
