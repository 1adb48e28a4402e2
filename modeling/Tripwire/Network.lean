import Tripwire.Graph.Wave

/-!
# Networks

Sensors and the graph above their fields. Wiring a formula adds the nodes that it lacks, each
new test starting from its field's latest value; delivering a value tests the field's watchers
again and lets the changes rise to the roots.
-/

namespace Tripwire

/-- Sensors whose fields are watched by nodes of a graph. -/
structure Network where
  sensors : Sensors
  graph : Graph
deriving DecidableEq

namespace Network

def empty : Network := ⟨.empty, .empty⟩

/-- What a test says of the latest value of its field. -/
def current (network : Network) (predicate : Predicate) : Bool :=
  let value? := (network.sensors.field? predicate.sensor predicate.field).bind Field.value
  (value?.bind predicate.test).getD false

/-- The node of a test, added as a watcher of its field if there is none yet. -/
def wireTest (network : Network) (predicate : Predicate) : Network × NodeId :=
  match network.graph.findTest? predicate with
  | some id => (network, id)
  | none =>
      let id := network.graph.size
      let sensors :=
        network.sensors.modifyField predicate.sensor predicate.field (·.watch id)
      let graph := network.graph.push (.test predicate) (network.current predicate)
      (⟨sensors, graph⟩, id)

mutual

/-- The node of a formula, added with all that it needs. -/
def wire (network : Network) : Formula → Network × NodeId
  | .test predicate => network.wireTest predicate
  | .group junction members =>
      let (wired, children) := wireMembers network members
      let (graph, id) := wired.graph.shareGroup junction children
      ({ wired with graph }, id)

/-- The nodes of members from left to right. -/
def wireMembers (network : Network) : List Formula → Network × List NodeId
  | [] => (network, [])
  | first :: rest =>
      let (wired, child) := wire network first
      let (done, children) := wireMembers wired rest
      (done, child :: children)

end

/-- The watchers of a field tested so far; changes and errors are latest first. -/
structure Examination where
  graph : Graph
  comparisons : Nat
  changes : List Change
  errors : List Error

/-- Tests one watcher of a field. A watcher that says nothing of the value keeps its status. -/
def examine (sensor : SensorId) (field : String) (value : Value)
    (progress : Examination) (id : NodeId) : Examination :=
  match progress.graph.node? id with
  | none => progress
  | some node =>
      match node.predicate? with
      | none => progress
      | some predicate =>
          match predicate.test value with
          | none =>
              let error := .typeMismatch sensor field predicate.operator
                predicate.literal.type value.type
              { progress with errors := error :: progress.errors }
          | some status =>
              let counted := { progress with comparisons := progress.comparisons + 1 }
              if status = node.status then counted
              else
                { counted with
                  graph := counted.graph.modify id fun node => { node with status }
                  changes := ⟨id, status⟩ :: counted.changes }

/-- What a delivery did. -/
structure Effect where
  comparisons : Nat
  changed : Nat
  transitions : List Transition
  errors : List Error
deriving DecidableEq

/-- Delivers a value to a field of a registered sensor. A field that is not declared is an
error that leaves everything as it was; a value of another type is kept like any other. -/
def deliver (network : Network) (sensor : SensorId) (field : String) (value : Value) :
    Network × Effect :=
  match network.sensors.field? sensor field with
  | none => (network, ⟨0, 0, [], [.unknownField sensor field]⟩)
  | some declared =>
      let examination := declared.watchers.foldl (examine sensor field value)
        ⟨network.graph, 0, [], []⟩
      let sensors := network.sensors.modifyField sensor field
        fun field => { field with value := some value }
      let wave := examination.graph.settle examination.changes
      (⟨sensors, wave.graph⟩,
        { comparisons := examination.comparisons
          changed := examination.changes.length
          transitions := wave.transitions
          errors := examination.errors.reverse })

end Network

end Tripwire
