import Tripwire.Proofs.Graph.Counting
import Tripwire.Proofs.Wave.Unclamped

/-!
# Rounds and cascades

Changes are passed on in rounds, each of which takes the next change off the stack and puts the
groups that it turns on top. The rounds from one changed test to the next form a cascade. All of
it goes in the direction of the test, and what has turned in this direction stays so until the
cascade ends. So each node turns once at most, each group is put on the stack once at most, and the
number of groups bounds the rounds, although over a whole wave a node may turn to and fro.
-/

namespace Tripwire

namespace Wave

/-! ## What turns in a round -/

/-- The change of a node that is told of a child's, if it changes by it. -/
def turn? (rising : Bool) (wave : Wave) (parent : NodeId) : Option Change :=
  let status := (wave.deliver rising parent).graph.status parent
  if status = wave.graph.status parent then none else some ⟨parent, status⟩

/-- The changes of the nodes told along edges, the first one first. -/
def turnsAlong (rising : Bool) (wave : Wave) : List NodeId → List Change
  | [] => []
  | parent :: due =>
      (wave.turn? rising parent).toList ++ turnsAlong rising (wave.deliver rising parent) due

section

variable {wave : Wave} {rising : Bool} {parent : NodeId}

theorem turn?_of_absent (absent : wave.graph.node? parent = none) :
    wave.turn? rising parent = none := by
  rw [turn?, deliver_none absent]
  exact if_pos rfl

theorem turn?_of_node? {node : Node} (found : wave.graph.node? parent = some node) :
    wave.turn? rising parent =
      if (node.shift rising).status = node.status then none
      else some ⟨parent, (node.shift rising).status⟩ := by
  rw [turn?, deliver_status rising found, if_pos rfl, Graph.status_of_node? found]

/-- Of the nodes that turn only groups are passed on. -/
theorem deliver_pending (rising : Bool) (wave : Wave) (parent : NodeId) :
    (wave.deliver rising parent).pending =
      ((wave.turn? rising parent).toList.filter fun turn => wave.graph.isGroup turn.node).reverse ++
        wave.pending := by
  cases found : wave.graph.node? parent with
  | none =>
      rw [turn?_of_absent found, deliver_none found]
      rfl
  | some node =>
      have kind : wave.graph.isGroup parent = node.isGroup := by simp [Graph.isGroup, found]
      by_cases still : (node.shift rising).status = node.status
      · rw [turn?_of_node? found, if_pos still, deliver_still found still]
        rfl
      · rw [turn?_of_node? found, if_neg still]
        cases isRoot : node.isRoot with
        | true =>
            rw [deliver_root found still isRoot, touch_pending]
            simp [kind, Node.isGroup_of_isRoot isRoot]
        | false =>
            rw [deliver_inner found still isRoot]
            simp [kind, Node.isGroup_of_moved still isRoot]

theorem foldl_deliver_pending (rising : Bool) (due : List NodeId) (wave : Wave) :
    (due.foldl (deliver rising) wave).pending =
      ((turnsAlong rising wave due).filter fun turn => wave.graph.isGroup turn.node).reverse ++
        wave.pending := by
  induction due generalizing wave with
  | nil => rfl
  | cons parent due ih =>
      rw [List.foldl_cons, ih, deliver_pending, turnsAlong,
        Graph.isGroup_of_frame_eq (deliver_frame rising wave parent), List.filter_append,
        List.reverse_append, List.append_assoc]

end

/-! ## Rounds -/

/-- A change that was passed on, with all that turned by it and what was put on the stack. -/
structure Round where
  taken : Change
  turns : List Change
  put : List Change
deriving DecidableEq

/-- What passing the next change on does in one round. -/
def round (wave : Wave) (change : Change) (rest put : List Change) : Round where
  taken := change
  turns := turnsAlong change.rising { wave with pending := rest } (wave.parents change.node)
  put := put

/-- Rounds lead from one wave to another, without a bound on how many they are. -/
inductive Rounds : Wave → List Round → Wave → Prop where
  | done (wave : Wave) : Rounds wave [] wave
  | next {wave last : Wave} {change : Change} {rest put : List Change} {rounds : List Round}
      (top : wave.pending = change :: rest) (stack : wave.step.pending = put ++ rest)
      (others : Rounds wave.step rounds last) :
      Rounds wave (wave.round change rest put :: rounds) last

section

variable {wave last : Wave} {change : Change} {rest : List Change} {rounds : List Round}

theorem step_pending (top : wave.pending = change :: rest) :
    wave.step.pending =
      ((turnsAlong change.rising { wave with pending := rest } (wave.parents change.node)).filter
        fun turn => wave.graph.isGroup turn.node).reverse ++ rest := by
  rw [step_eq top, parents_eq]
  exact foldl_deliver_pending change.rising _ { wave with pending := rest }

/-- Any change that waits can be passed on. -/
theorem exists_round (top : wave.pending = change :: rest) :
    ∃ put, Rounds wave [wave.round change rest put] wave.step :=
  ⟨_, .next top (step_pending top) (.done wave.step)⟩

namespace Rounds

theorem append (first : Rounds wave rounds last) {others : List Round} {later : Wave}
    (second : Rounds last others later) : Rounds wave (rounds ++ others) later := by
  induction first with
  | done wave => exact second
  | next top stack _ ih => exact .next top stack (ih second)

theorem frame_eq (passed : Rounds wave rounds last) : last.graph.frame = wave.graph.frame := by
  induction passed with
  | done wave => rfl
  | next top stack _ ih => exact ih.trans (step_frame _)

/-- Each round takes one change off the stack. -/
theorem length_pending (passed : Rounds wave rounds last) :
    last.pending.length + rounds.length =
      wave.pending.length + (rounds.flatMap Round.put).length := by
  induction passed with
  | done wave => rfl
  | next top stack _ ih =>
      rw [stack, List.length_append] at ih
      rw [top, List.flatMap_cons, List.length_append, List.length_cons, List.length_cons]
      dsimp only [round]
      omega

/-- What is put on the stack is what turns, but for the roots. -/
theorem put_eq (passed : Rounds wave rounds last) : ∀ round ∈ rounds,
    round.put = (round.turns.filter fun turn => wave.graph.isGroup turn.node).reverse := by
  induction passed with
  | done wave =>
      intro round member
      cases member
  | @next wave last change rest put rounds top stack _ ih =>
      intro round member
      rcases List.mem_cons.1 member with rfl | later
      · rw [step_pending top] at stack
        exact (List.append_cancel_right stack).symm
      · rw [← Graph.isGroup_of_frame_eq wave.step_frame]
        exact ih round later

theorem put_perm (passed : Rounds wave rounds last) :
    (rounds.flatMap Round.put).Perm
      ((rounds.flatMap Round.turns).filter fun turn => wave.graph.isGroup turn.node) := by
  rw [List.filter_flatMap]
  refine List.Perm.flatMap_left rounds fun round member => ?_
  rw [passed.put_eq round member]
  exact List.reverse_perm _

/-- Each round is determined, so rounds can only be continued, and not after the stack is empty. -/
theorem eq_append (passed : Rounds wave rounds last) (empty : last.pending = [])
    {others : List Round} {later : Wave} (also : Rounds wave others later) :
    ∃ remaining, rounds = others ++ remaining := by
  induction also generalizing rounds with
  | done wave => exact ⟨rounds, rfl⟩
  | next top stack _ ih =>
      cases passed with
      | done =>
          rw [empty] at top
          cases top
      | next sameTop sameStack continued =>
          obtain ⟨rfl, rfl⟩ := List.cons.inj (top.symm.trans sameTop)
          obtain rfl := List.append_cancel_right (stack.symm.trans sameStack)
          obtain ⟨remaining, same⟩ := ih continued
          exact ⟨remaining, congrArg _ same⟩

/-- A run whose bound covers all rounds makes them. -/
theorem run_eq (passed : Rounds wave rounds last) (empty : last.pending = []) {bound : Nat}
    (enough : rounds.length ≤ bound) : wave.run bound = last := by
  induction passed generalizing bound with
  | done wave => cases bound <;> simp [run, empty]
  | next top _ _ ih =>
      cases bound with
      | zero => cases Nat.not_succ_le_zero _ enough
      | succ bound =>
          rw [run, top]
          exact ih empty (Nat.le_of_succ_le_succ enough)

end Rounds

end

/-! ## Climbing in one direction -/

/-- Nodes take the direction of a climb once at most, and none turns against it. -/
structure Climbs (rising : Bool) (before after : Graph) (turns : List Change) : Prop where
  once : (turns.map Change.node).Nodup
  direction : ∀ turn ∈ turns, turn.rising = rising
  turned : ∀ turn ∈ turns, before.status turn.node = !rising ∧ after.status turn.node = rising
  kept : ∀ id, before.status id = rising → after.status id = rising

namespace Climbs

variable {rising : Bool} {before middle after : Graph} {turns others : List Change}

theorem of_status_eq (same : ∀ id, after.status id = before.status id) :
    Climbs rising before after [] where
  once := List.nodup_nil
  direction := List.forall_mem_nil _
  turned := List.forall_mem_nil _
  kept id stands := (same id).trans stands

theorem refl (rising : Bool) (graph : Graph) : Climbs rising graph graph [] :=
  of_status_eq fun _ => rfl

theorem single {id : NodeId} (was : before.status id = !rising) (stands : after.status id = rising)
    (elsewhere : ∀ other, other ≠ id → after.status other = before.status other) :
    Climbs rising before after [⟨id, rising⟩] where
  once := List.nodup_singleton id
  direction := List.forall_mem_singleton.2 rfl
  turned := List.forall_mem_singleton.2 ⟨was, stands⟩
  kept other risen := by
    by_cases same : other = id
    · rw [same, stands]
    · rw [elsewhere other same, risen]

/-- What turned in a first climb stands in the way of turning in a second one. -/
theorem trans (first : Climbs rising before middle turns)
    (second : Climbs rising middle after others) :
    Climbs rising before after (turns ++ others) where
  once := by
    rw [List.map_append]
    refine first.once.append second.once fun id here there => ?_
    obtain ⟨turn, member, rfl⟩ := List.mem_map.1 here
    obtain ⟨other, alsoMember, same⟩ := List.mem_map.1 there
    have stands := (first.turned turn member).2
    have against := (second.turned other alsoMember).1
    rw [same, stands] at against
    exact Bool.eq_not.1 against rfl
  direction turn member :=
    (List.mem_append.1 member).elim (first.direction turn) (second.direction turn)
  turned turn member := by
    rcases List.mem_append.1 member with early | late
    · obtain ⟨was, stands⟩ := first.turned turn early
      exact ⟨was, second.kept _ stands⟩
    · obtain ⟨was, stands⟩ := second.turned turn late
      refine ⟨Bool.eq_not.2 fun risen => ?_, stands⟩
      rw [first.kept _ risen] at was
      exact Bool.eq_not.1 was rfl
  kept id stands := second.kept id (first.kept id stands)

end Climbs

section

variable {wave : Wave} {rising : Bool} {cascade leaves : List Change} {parent : NodeId}
  {due : List NodeId}

/-- A parent that is told of a change climbs with it or stays where it is. -/
theorem climbs_of_told (told : wave.graph.Told wave.known rising (parent :: due)) :
    Climbs rising wave.graph (wave.deliver rising parent).graph
      (wave.turn? rising parent).toList := by
  cases found : wave.graph.node? parent with
  | none =>
      rw [turn?_of_absent found, deliver_none found]
      exact Climbs.refl rising wave.graph
  | some node =>
      have before := Graph.status_of_node? found
      rw [turn?_of_node? found]
      by_cases still : (node.shift rising).status = node.status
      · rw [if_pos still]
        refine Climbs.of_status_eq fun id => ?_
        rw [deliver_status rising found, still]
        split
        case isTrue same => rw [← before, same]
        case isFalse => rfl
      · have direction := told.shift_status found still
        rw [if_neg still, direction]
        refine Climbs.single ?_ ?_ fun id apart => ?_
        · rw [before]
          exact Bool.eq_not.2 fun same => still (direction.trans same.symm)
        · rw [deliver_status rising found, if_pos rfl, direction]
        · rw [deliver_status rising found, if_neg (Ne.symm apart)]

theorem Stacked.climbs (due : List NodeId) {wave : Wave} {cascade : List Change}
    (stacked : wave.Stacked rising cascade leaves)
    (told : wave.graph.Told wave.known rising due) :
    Climbs rising wave.graph (due.foldl (Wave.deliver rising) wave).graph
      (turnsAlong rising wave due) := by
  induction due generalizing wave cascade with
  | nil => exact Climbs.refl rising wave.graph
  | cons parent due ih =>
      obtain ⟨_, nextStacked, nextTold, _⟩ := stacked.deliver told
      exact (climbs_of_told told).trans (ih nextStacked nextTold)

theorem Poised.climbs (poised : wave.Poised rising cascade leaves) {change : Change}
    {rest : List Change} (top : wave.pending = change :: rest) :
    Climbs change.rising wave.graph wave.step.graph
      (turnsAlong change.rising { wave with pending := rest } (wave.parents change.node)) := by
  obtain ⟨others, tests, stacked⟩ := poised.pop top
  rw [step_eq top, parents_eq]
  exact stacked.climbs _ (poised.told top)

end

/-- Rounds that all go in one direction. -/
structure OneWay (wave : Wave) (rising : Bool) (rounds : List Round) (later : Wave) : Prop where
  passed : Rounds wave rounds later
  taken : ∀ round ∈ rounds, round.taken.rising = rising
  climbs : Climbs rising wave.graph later.graph (rounds.flatMap Round.turns)

namespace OneWay

variable {wave later last : Wave} {rising : Bool} {rounds others : List Round}

theorem refl (rising : Bool) (wave : Wave) : OneWay wave rising [] wave where
  passed := .done wave
  taken := List.forall_mem_nil _
  climbs := Climbs.refl rising wave.graph

theorem trans (first : OneWay wave rising rounds later)
    (second : OneWay later rising others last) :
    OneWay wave rising (rounds ++ others) last where
  passed := first.passed.append second.passed
  taken round member := (List.mem_append.1 member).elim (first.taken round) (second.taken round)
  climbs := by
    rw [List.flatMap_append]
    exact first.climbs.trans second.climbs

end OneWay

section

variable {wave : Wave} {rising : Bool} {cascade leaves : List Change} {change : Change}
  {rest : List Change}

theorem Poised.exists_oneWay (poised : wave.Poised rising cascade leaves)
    (top : wave.pending = change :: rest) :
    ∃ put, OneWay wave change.rising [wave.round change rest put] wave.step := by
  obtain ⟨put, passed⟩ := exists_round top
  refine ⟨put, passed, List.forall_mem_singleton.2 rfl, ?_⟩
  rw [List.flatMap_singleton]
  exact poised.climbs top

/-- The groups that wait are passed on, and those that turn by it, until only tests wait. -/
theorem Poised.oneWay {wave : Wave} {cascade : List Change}
    (poised : wave.Poised rising cascade leaves) :
    ∃ rounds later, OneWay wave rising rounds later ∧ later.Poised rising [] leaves ∧
      ∀ round ∈ rounds, wave.graph.isGroup round.taken.node = true := by
  -- Each round takes one group off the cascade and adds only groups that could still move.
  induction left : cascade.length + wave.graph.movable rising using Nat.strong_induction_on
    generalizing wave cascade with
  | _ left ih =>
      cases cascade with
      | nil => exact ⟨[], wave, OneWay.refl rising wave, poised, List.forall_mem_nil _⟩
      | cons change cascade =>
          obtain ⟨group, direction⟩ := poised.groups change List.mem_cons_self
          obtain ⟨put, first⟩ := poised.exists_oneWay poised.pending
          rw [direction] at first
          obtain ⟨moved, after, fewer⟩ := poised.step_cascade
          obtain ⟨rounds, later, others, ended, groups⟩ :=
            ih _ (by rw [← left, List.length_append, List.length_cons]; omega) after rfl
          refine ⟨_, later, first.trans others, ended, fun round member => ?_⟩
          rcases List.mem_cons.1 member with rfl | member
          · exact group
          · rw [← Graph.isGroup_of_frame_eq wave.step_frame]
            exact groups round member

end

/-! ## Cascades -/

/-- The rounds from one changed test to the next. -/
structure Cascade (graph : Graph) (leaf : Change) (rounds : List Round) : Prop where
  starts : ∃ first later, rounds = first :: later ∧ first.taken = leaf ∧
    ∀ round ∈ later, graph.isGroup round.taken.node = true
  direction : ∀ round ∈ rounds, round.taken.rising = leaf.rising ∧
    (∀ turn ∈ round.turns, turn.rising = leaf.rising) ∧
    ∀ change ∈ round.put, change.rising = leaf.rising
  turnsOnce : ((rounds.flatMap Round.turns).map Change.node).Nodup
  putOnce : ((rounds.flatMap Round.put).map Change.node).Nodup
  groups : ∀ round ∈ rounds, ∀ change ∈ round.put, graph.isGroup change.node = true
  length_le : rounds.length ≤ 1 + graph.groupCount

section

variable {wave later : Wave} {rising : Bool} {rounds : List Round} {leaves : List Change}
  {leaf : Change}

/-- Rounds in one direction put each group on the stack once at most. -/
theorem OneWay.put_nodup (oneWay : OneWay wave rising rounds later) :
    ((rounds.flatMap Round.put).map Change.node).Nodup := by
  rw [(oneWay.passed.put_perm.map Change.node).nodup_iff]
  exact oneWay.climbs.once.sublist (List.filter_sublist.map Change.node)

theorem OneWay.mem_put (oneWay : OneWay wave rising rounds later) {round : Round}
    (member : round ∈ rounds) {change : Change} (put : change ∈ round.put) :
    change ∈ round.turns ∧ wave.graph.isGroup change.node = true := by
  rw [oneWay.passed.put_eq round member, List.mem_reverse] at put
  exact List.mem_filter.1 put

theorem OneWay.turns_rising (oneWay : OneWay wave rising rounds later) {round : Round}
    (member : round ∈ rounds) {turn : Change} (turns : turn ∈ round.turns) :
    turn.rising = rising :=
  oneWay.climbs.direction turn (List.mem_flatMap.2 ⟨round, member, turns⟩)

/-- Rounds that use up one change that waits are no more than this one and the groups. -/
theorem OneWay.length_le (oneWay : OneWay wave rising rounds later)
    (fewer : wave.pending.length = later.pending.length + 1) :
    rounds.length ≤ 1 + wave.graph.groupCount := by
  have most : (rounds.flatMap Round.put).length ≤ wave.graph.groupCount := by
    rw [← List.length_map Change.node]
    refine Graph.length_le_groupCount oneWay.put_nodup fun id member => ?_
    obtain ⟨change, put, rfl⟩ := List.mem_map.1 member
    obtain ⟨round, known, put⟩ := List.mem_flatMap.1 put
    exact (oneWay.mem_put known put).2
  have counted := oneWay.passed.length_pending
  omega

/-- The next test that waits is passed on in a cascade. -/
theorem Poised.cascade (poised : wave.Poised rising [] (leaf :: leaves)) :
    ∃ rounds later, Rounds wave rounds later ∧ later.Poised leaf.rising [] leaves ∧
      Cascade wave.graph leaf rounds := by
  obtain ⟨put, first⟩ := poised.exists_oneWay poised.pending
  obtain ⟨moved, after, _⟩ := poised.step_leaf
  obtain ⟨rounds, later, others, ended, groups⟩ := after.oneWay
  have oneWay := first.trans others
  refine ⟨_, later, oneWay.passed, ended, ?_⟩
  refine ⟨⟨_, rounds, rfl, rfl, ?_⟩, fun round member => ⟨oneWay.taken round member, ?_, ?_⟩,
    oneWay.climbs.once, oneWay.put_nodup, ?_, oneWay.length_le ?_⟩
  · rw [← Graph.isGroup_of_frame_eq wave.step_frame]
    exact groups
  · intro turn turns
    exact oneWay.turns_rising member turns
  · intro change put
    exact oneWay.turns_rising member (oneWay.mem_put member put).1
  · intro round member change put
    exact (oneWay.mem_put member put).2
  · rw [poised.pending, ended.pending]
    rfl

theorem Cascade.of_frame_eq {graph other : Graph} (same : graph.frame = other.frame)
    (cascade : Cascade graph leaf rounds) : Cascade other leaf rounds where
  starts := by
    rw [← Graph.isGroup_of_frame_eq same]
    exact cascade.starts
  direction := cascade.direction
  turnsOnce := cascade.turnsOnce
  putOnce := cascade.putOnce
  groups := by
    rw [← Graph.isGroup_of_frame_eq same]
    exact cascade.groups
  length_le := by
    rw [← Graph.groupCount_of_frame_eq same]
    exact cascade.length_le

end

/-! ## Whole waves -/

/-- Cascades that pass all changes on, one for each of them. -/
structure Settles (start : Wave) (cascades : List (List Round)) (last : Wave) : Prop where
  passed : Rounds start cascades.flatten last
  empty : last.pending = []
  each : List.Forall₂ (Cascade start.graph) start.pending cascades

namespace Settles

variable {start last : Wave} {cascades : List (List Round)}

/-- Altogether there are no more rounds than the groups and one allow for each changed test. -/
theorem length_le (settles : start.Settles cascades last) :
    cascades.flatten.length ≤ start.pending.length * (1 + start.graph.groupCount) := by
  have bounded {leaves : List Change} {parts : List (List Round)}
      (each : List.Forall₂ (Cascade start.graph) leaves parts) :
      parts.flatten.length ≤ leaves.length * (1 + start.graph.groupCount) := by
    induction each with
    | nil => exact Nat.zero_le _
    | cons cascade _ ih =>
        have here := cascade.length_le
        rw [List.flatten_cons, List.length_append, List.length_cons, Nat.succ_mul]
        omega
  exact bounded settles.each

/-- A node turns no more often than tests changed. -/
theorem count_turns_le (settles : start.Settles cascades last) (id : NodeId) :
    ((cascades.flatten.flatMap Round.turns).map Change.node).count id ≤ start.pending.length := by
  have bounded {leaves : List Change} {parts : List (List Round)}
      (each : List.Forall₂ (Cascade start.graph) leaves parts) :
      ((parts.flatten.flatMap Round.turns).map Change.node).count id ≤ leaves.length := by
    induction each with
    | nil => exact Nat.zero_le _
    | cons cascade _ ih =>
        have here := List.nodup_iff_count_le_one.1 cascade.turnsOnce id
        rw [List.flatten_cons, List.flatMap_append, List.map_append, List.count_append,
          List.length_cons]
        omega
  exact bounded settles.each

end Settles

/-- Between two cascades all that waits are tests, so that one cascade follows the other. -/
theorem Poised.settles (leaves : List Change) {wave : Wave} {rising : Bool}
    (poised : wave.Poised rising [] leaves) : ∃ cascades last, wave.Settles cascades last := by
  have pending : wave.pending = leaves := poised.pending
  induction leaves generalizing wave rising with
  | nil => exact ⟨[], wave, .done wave, pending, by rw [pending]; exact .nil⟩
  | cons leaf leaves ih =>
      obtain ⟨rounds, later, passed, after, cascade⟩ := poised.cascade
      obtain ⟨cascades, last, others⟩ := ih after after.pending
      have each := others.each
      rw [show later.pending = leaves from after.pending] at each
      refine ⟨rounds :: cascades, last, passed.append others.passed, others.empty, ?_⟩
      rw [pending]
      exact .cons cascade (each.imp fun _ _ next => next.of_frame_eq passed.frame_eq)

end Wave

end Tripwire
