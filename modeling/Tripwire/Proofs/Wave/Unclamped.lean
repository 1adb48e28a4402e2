import Tripwire.Proofs.Wave.Overwriting

/-!
# Steps that are never clamped

A node that is told of a child's change moves its count by one, within the bounds of none and all of
its children. While a wave passes changes on, counts lag behind the statuses below them, yet they
never lag by more than the steps that are still due. So each step finds room, and the bounds do not
come into play.
-/

namespace Tripwire

namespace Node

/-- Takes in that one child edge rose or fell, by plain counting. A group that has no room for the
step takes none. -/
def advance? (node : Node) (rising : Bool) : Option Node :=
  match node.kind with
  | .test _ => some node
  | .group junction children holding =>
      let move (count : Nat) : Node :=
        { node with
          kind := .group junction children count
          status := junction.status count children.length }
      if rising then if holding < children.length then some (move (holding + 1)) else none
      else if 0 < holding then some (move (holding - 1)) else none
  | .root _ => some { node with status := rising }

/-- A group of which not all children count yet may rise, and one of which some count may fall. -/
def HasRoom (node : Node) (rising : Bool) : Prop :=
  ∀ junction children holding, node.kind = .group junction children holding →
    (rising = true → holding < children.length) ∧ (rising = false → 0 < holding)

/-- Where there is room, bounding the count changes nothing. -/
theorem HasRoom.advance?_eq {node : Node} {rising : Bool} (room : node.HasRoom rising) :
    node.advance? rising = some (node.shift rising) := by
  obtain ⟨kind, status, parents⟩ := node
  cases kind with
  | test predicate => rfl
  | root root => rfl
  | group junction children holding =>
      obtain ⟨rise, fall⟩ := room junction children holding rfl
      cases rising with
      | true =>
          have bounded : min (holding + 1) children.length = holding + 1 :=
            Nat.min_eq_left (rise rfl)
          simp only [advance?, shift, if_true, rise rfl, bounded]
      | false => simp only [advance?, shift, Bool.false_eq_true, if_false, if_true, fall rfl]

end Node

namespace Wave

/-- A node as it is told of a child's change. -/
structure Call where
  node : Node
  rising : Bool
deriving DecidableEq

/-- The nodes told as a change is passed on along edges, each as it then is. -/
def callsAlong (rising : Bool) (wave : Wave) : List NodeId → List Call
  | [] => []
  | parent :: due =>
      ((wave.graph.node? parent).map (⟨·, rising⟩ : Node → Call)).toList ++
        callsAlong rising (wave.deliver rising parent) due

/-- The nodes told in one step. -/
def callsOfStep (wave : Wave) : List Call :=
  match wave.pending with
  | [] => []
  | change :: rest =>
      callsAlong change.rising { wave with pending := rest } (wave.parents change.node)

/-- The nodes told in at most so many steps. -/
def callsOfRun : Nat → Wave → List Call
  | 0, _ => []
  | bound + 1, wave =>
      if wave.pending.isEmpty then [] else wave.callsOfStep ++ callsOfRun bound wave.step

section

variable {wave : Wave} {rising : Bool} {cascade leaves : List Change}

theorem callsOfStep_eq {change : Change} {rest : List Change}
    (next : wave.pending = change :: rest) :
    wave.callsOfStep = callsAlong change.rising { wave with pending := rest }
      (wave.graph.parents change.node) := by
  simp only [callsOfStep, next, parents_eq]

/-- Every parent that is due has room when its turn comes. -/
theorem Stacked.hasRoom (due : List NodeId) {wave : Wave} {cascade : List Change}
    (stacked : wave.Stacked rising cascade leaves)
    (told : wave.graph.Told wave.known rising due) :
    ∀ call ∈ callsAlong rising wave due, call.node.HasRoom call.rising := by
  induction due generalizing wave cascade with
  | nil =>
      intro call member
      cases member
  | cons parent due ih =>
      intro call member
      rcases List.mem_append.1 member with first | later
      · obtain ⟨⟨kind, status, parents⟩, found, rfl⟩ :=
          Option.map_eq_some_iff.1 (Option.mem_toList.1 first)
        rintro junction children holding rfl
        exact told.room List.mem_cons_self found
      · obtain ⟨_, nextStacked, nextTold, _⟩ := stacked.deliver told
        exact ih nextStacked nextTold call later

/-- The next change is in the direction of a cascade, its own or the one that it starts. -/
theorem Poised.pop (poised : wave.Poised rising cascade leaves) {change : Change}
    {rest : List Change} (next : wave.pending = change :: rest) :
    ∃ others tests,
      ({ wave with pending := rest } : Wave).Stacked change.rising others tests := by
  have pending := poised.pending
  rw [next] at pending
  cases cascade with
  | cons first cascade =>
      obtain ⟨rfl, rfl⟩ := List.cons.inj pending
      rw [(poised.groups change List.mem_cons_self).2]
      exact ⟨cascade, leaves, poised.toStacked.pop_cascade⟩
  | nil =>
      subst pending
      exact ⟨[], rest, poised.toStacked.pop_leaf⟩

theorem Poised.hasRoom_of_step (poised : wave.Poised rising cascade leaves) :
    ∀ call ∈ wave.callsOfStep, call.node.HasRoom call.rising := by
  intro call member
  cases next : wave.pending with
  | nil =>
      rw [callsOfStep, next] at member
      cases member
  | cons change rest =>
      rw [callsOfStep_eq next] at member
      obtain ⟨others, tests, stacked⟩ := poised.pop next
      exact stacked.hasRoom _ (poised.told next) call member

/-- Every node that a wave tells has room, however many steps are made. -/
theorem Poised.hasRoom (bound : Nat) {wave : Wave} {rising : Bool} {cascade leaves : List Change}
    (poised : wave.Poised rising cascade leaves) :
    ∀ call ∈ wave.callsOfRun bound, call.node.HasRoom call.rising := by
  induction bound generalizing wave rising cascade leaves with
  | zero =>
      intro call member
      cases member
  | succ bound ih =>
      intro call member
      rw [callsOfRun] at member
      split at member
      case isTrue => cases member
      case isFalse waiting =>
        rcases List.mem_append.1 member with first | later
        · exact poised.hasRoom_of_step call first
        · have some_wait : wave.pending ≠ [] := fun none_waits => waiting (by simp [none_waits])
          obtain ⟨_, _, _, after, _⟩ := poised.step some_wait
          exact ih after call later

end

end Wave

/-- The nodes told while all changes are passed on. -/
def Graph.callsOfSettle (graph : Graph) (changes : List Change) : List Wave.Call :=
  (Wave.ofChanges graph changes).callsOfRun (changes.length * (1 + graph.groupCount))

end Tripwire
