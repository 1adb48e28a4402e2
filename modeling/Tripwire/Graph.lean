import Tripwire.Action
import Tripwire.Formula
import Tripwire.Sensor

/-!
# The graph of conditions

Tests, groups and the roots of conditions are nodes. A node stands for a formula over earlier
nodes, and a formula has at most one node: a test is found again by its predicate, a group by
its junction and its children in any order. Every node keeps its status and, for each edge
from it upwards, the parent. A group also counts the edges to children that hold, so that a
child's change moves the count by one instead of asking all children again.
-/

namespace Tripwire

/-- The top of a registered condition. -/
structure Root where
  condition : ConditionId
  name : Option String
  child : NodeId
  actions : List Action
deriving DecidableEq

/-- What a node is. -/
inductive Node.Kind where
  | test (predicate : Predicate)
  | group (junction : Junction) (children : List NodeId) (holding : Nat)
  | root (root : Root)
deriving DecidableEq

/-- A node; a parent stands in `parents` once for each edge to it. -/
structure Node where
  kind : Node.Kind
  status : Bool
  parents : List NodeId
deriving DecidableEq

namespace Node

def predicate? (node : Node) : Option Predicate :=
  match node.kind with
  | .test predicate => some predicate
  | _ => none

def root? (node : Node) : Option Root :=
  match node.kind with
  | .root root => some root
  | _ => none

def isRoot (node : Node) : Bool :=
  node.root?.isSome

def isGroup (node : Node) : Bool :=
  match node.kind with
  | .group .. => true
  | _ => false

/-- Whether a node is the group of these children in some order. -/
def isGroupOf (junction : Junction) (children : List NodeId) (node : Node) : Bool :=
  match node.kind with
  | .group other others _ => other == junction && others.isPerm children
  | _ => false

/-- Takes in that one child edge rose or fell. A count stays between none and all. -/
def shift (node : Node) (rising : Bool) : Node :=
  match node.kind with
  | .test _ => node
  | .group junction children holding =>
      let count := if rising then min (holding + 1) children.length else holding - 1
      { node with
        kind := .group junction children count
        status := junction.status count children.length }
  | .root _ => { node with status := rising }

/-- The formula of a node, given those of earlier nodes. -/
def formula? (earlier : Array (Option Formula)) (node : Node) : Option Formula :=
  match node.kind with
  | .test predicate => some (.test predicate)
  | .group junction children _ =>
      (children.mapM fun child => (earlier[child]?).join).map (.group junction)
  | .root root => (earlier[root.child]?).join

end Node

/-- The nodes in the order of their creation. -/
structure Graph where
  nodes : Array Node
deriving DecidableEq

namespace Graph

def empty : Graph := ⟨#[]⟩

def size (graph : Graph) : Nat :=
  graph.nodes.size

def node? (graph : Graph) (id : NodeId) : Option Node :=
  graph.nodes[id]?

/-- The status of a node; what is no node does not hold. -/
def status (graph : Graph) (id : NodeId) : Bool :=
  match graph.node? id with
  | some node => node.status
  | none => false

/-- How many nodes conditions share. -/
def sharedSize (graph : Graph) : Nat :=
  graph.nodes.countP fun node => !node.isRoot

/-- How many nodes are groups. -/
def groupCount (graph : Graph) : Nat :=
  graph.nodes.countP Node.isGroup

/-- Adds a node without parents, which is then the last. -/
def push (graph : Graph) (kind : Node.Kind) (status : Bool) : Graph :=
  ⟨graph.nodes.push ⟨kind, status, []⟩⟩

def modify (graph : Graph) (id : NodeId) (change : Node → Node) : Graph :=
  ⟨graph.nodes.modify id change⟩

/-- Adds an edge from a child to a parent. -/
def addParent (parent : NodeId) (graph : Graph) (child : NodeId) : Graph :=
  graph.modify child fun node => { node with parents := node.parents ++ [parent] }

/-- The node of a test. -/
def findTest? (graph : Graph) (predicate : Predicate) : Option NodeId :=
  graph.nodes.toList.findIdx? fun node => node.predicate? = some predicate

/-- The node of a group. -/
def findGroup? (graph : Graph) (junction : Junction) (children : List NodeId) :
    Option NodeId :=
  graph.nodes.toList.findIdx? (Node.isGroupOf junction children)

/-- The node of a group, added with an edge from each child if there is none yet. -/
def shareGroup (graph : Graph) (junction : Junction) (children : List NodeId) :
    Graph × NodeId :=
  match graph.findGroup? junction children with
  | some id => (graph, id)
  | none =>
      let holding := children.countP graph.status
      let status := junction.status holding children.length
      let extended := graph.push (.group junction children holding) status
      (children.foldl (addParent graph.size) extended, graph.size)

/-- Adds a root, which takes its child's status. -/
def addRoot (graph : Graph) (root : Root) : Graph × NodeId :=
  let extended := graph.push (.root root) (graph.status root.child)
  (addParent graph.size extended root.child, graph.size)

/-- The formulas of all nodes, each made from earlier ones. -/
def formulas (graph : Graph) : Array (Option Formula) :=
  graph.nodes.foldl (fun earlier node => earlier.push (node.formula? earlier)) #[]

/-- The formula that a node stands for; a root stands for that of its child. -/
def formula? (graph : Graph) (id : NodeId) : Option Formula :=
  (graph.formulas[id]?).join

/-- The text of a node's formula. -/
def print (graph : Graph) (id : NodeId) : String :=
  match graph.formula? id with
  | some formula => formula.print
  | none => ""

end Graph

end Tripwire
