import Tripwire.Graph

/-!
# Waves of changes

Nodes whose status changed pass the change on to their parents, the latest change first. A
parent that changes by it is itself passed on, unless it is a root: of roots the wave keeps
the status from before their first change, so that in the end only those are reported that
differ from it.
-/

namespace Tripwire

/-- A node's change to a status. -/
structure Change where
  node : NodeId
  rising : Bool
deriving DecidableEq, Repr

/-- A root whose status differs from before. -/
structure Transition where
  root : Root
  rising : Bool
deriving DecidableEq

/-- Changes on their way up: those still to pass on, the next one first, and the roots that
changed with their status before, the latest first. -/
structure Wave where
  graph : Graph
  pending : List Change
  touched : List (NodeId × Bool)

namespace Wave

/-- The wave before anything is passed on. -/
def ofChanges (graph : Graph) (changes : List Change) : Wave :=
  ⟨graph, changes, []⟩

/-- Remembers the status from before a root's first change. -/
def touch (wave : Wave) (root : NodeId) (before : Bool) : Wave :=
  if wave.touched.any (·.1 == root) then wave
  else { wave with touched := (root, before) :: wave.touched }

/-- Passes a change on along one edge. -/
def deliver (rising : Bool) (wave : Wave) (parent : NodeId) : Wave :=
  match wave.graph.node? parent with
  | none => wave
  | some node =>
      let moved := node.shift rising
      let next := { wave with graph := wave.graph.modify parent fun _ => moved }
      if moved.status = node.status then next
      else if node.isRoot then next.touch parent node.status
      else { next with pending := ⟨parent, moved.status⟩ :: next.pending }

/-- The parents of a node, once for each edge. -/
def parents (wave : Wave) (id : NodeId) : List NodeId :=
  match wave.graph.node? id with
  | some node => node.parents
  | none => []

/-- Passes the next change on along all edges. -/
def step (wave : Wave) : Wave :=
  match wave.pending with
  | [] => wave
  | change :: rest =>
      (wave.parents change.node).foldl (deliver change.rising) { wave with pending := rest }

/-- Passes on at most so many changes. -/
def run : Nat → Wave → Wave
  | 0, wave => wave
  | bound + 1, wave =>
      if wave.pending.isEmpty then wave else run bound wave.step

/-- The roots that differ from before, in the order of their first changes. -/
def transitions (wave : Wave) : List Transition :=
  wave.touched.reverse.filterMap fun (id, before) =>
    match wave.graph.node? id with
    | none => none
    | some node =>
        if node.status = before then none
        else node.root?.map fun root => ⟨root, node.status⟩

end Wave

namespace Graph

/-- Passes on all changes. Each first change moves any group at most once, all in its own
direction, which bounds how many changes there are in all. -/
def settle (graph : Graph) (changes : List Change) : Wave :=
  (Wave.ofChanges graph changes).run (changes.length * (1 + graph.groupCount))

end Graph

end Tripwire
