import Tripwire.Proofs.Engine.Runs
import Tripwire.Proofs.Network.Examination
import Tripwire.Proofs.Wave.Rounds

/-!
# Changes that reach the roots

Whatever was asked of an engine before, the changed tests of an update are passed on in as many
cascades, of which none has more rounds than there are groups and the test itself. So the loop that
passes them on ends by itself, within a bound that is known beforehand.
-/

namespace Tripwire

/-- Nothing is overwritten. -/
theorem Graph.Overwritten.refl (graph : Graph) : graph.Overwritten graph [] where
  frame := rfl
  inner _ := rfl
  listed change := by
    refine iff_of_false List.not_mem_nil fun ⟨_, now, earlier⟩ => ?_
    exact Bool.eq_not.1 earlier now
  distinct := List.nodup_nil

namespace Network

variable {network : Network}

/-- The wave of a delivery before any of the changed tests is passed on. -/
def waveOf (network : Network) (sensor : SensorId) (field : String) (value : Value) : Wave :=
  let examination := network.examination sensor field value
  .ofChanges examination.graph examination.changes

theorem waveOf_of_undeclared {sensor : SensorId} {field : String}
    (undeclared : network.sensors.field? sensor field = none) (value : Value) :
    network.waveOf sensor field value = .ofChanges network.graph [] := by
  rw [waveOf, examination, undeclared]

/-- What a delivery passes on are the tests that it overwrites. -/
theorem Sound.overwritten_waveOf (sound : network.Sound) (sensor : SensorId) (field : String)
    (value : Value) :
    network.graph.Overwritten (network.waveOf sensor field value).graph
      (network.waveOf sensor field value).pending := by
  cases found : network.sensors.field? sensor field with
  | none =>
      rw [waveOf_of_undeclared found]
      exact Graph.Overwritten.refl network.graph
  | some declared => exact sound.overwritten_examination found value

/-- Cascades that pass all changes on lead to the graph of the delivery. -/
theorem deliver_of_settles {sensor : SensorId} {field : String} {value : Value}
    {cascades : List (List Wave.Round)} {last : Wave}
    (settles : (network.waveOf sensor field value).Settles cascades last) :
    (network.deliver sensor field value).1.graph = last.graph ∧
      (network.deliver sensor field value).2.changed =
        (network.waveOf sensor field value).pending.length := by
  have settled := settles.passed.run_eq settles.empty settles.length_le
  cases found : network.sensors.field? sensor field with
  | none =>
      rw [waveOf_of_undeclared found] at settled ⊢
      have still : last = .ofChanges network.graph [] := by
        simpa [Wave.ofChanges, Wave.run] using settled.symm
      rw [deliver_of_undeclared found, still]
      exact ⟨rfl, rfl⟩
  | some declared =>
      rw [deliver_of_declared found, ← settled]
      exact ⟨rfl, rfl⟩

end Network

namespace Engine

variable {engine : Engine}

/-- A delivery whose changed tests are passed on in one cascade each. -/
structure Propagates (engine : Engine) (start : Wave) (delivery : Delivery)
    (cascades : List (List Wave.Round)) (last : Wave) : Prop where
  flipped : engine.graph.Overwritten start.graph start.pending
  counted : delivery.outcome.changed = start.pending.length
  settles : start.Settles cascades last
  reached : delivery.engine.graph = last.graph
  ends : ∀ {rounds later}, Wave.Rounds start rounds later →
    ∃ remaining, cascades.flatten = rounds ++ remaining
  bounded : cascades.flatten.length ≤
    delivery.outcome.changed * (1 + engine.graph.groupCount)
  turns_le : ∀ id, ((cascades.flatten.flatMap Wave.Round.turns).map Change.node).count id ≤
    delivery.outcome.changed

/-- Whatever was asked of an engine before, passing on the changes of an update comes to an end:
there is one cascade for each changed test, in its direction, which puts each group on the stack
once at most and turns each root once at most. -/
theorem Reachable.propagates (reached : Reachable engine) {sensor : SensorId}
    (registered : engine.sensors.contains sensor = true) (field : String) (value : Value) :
    ∃ delivery cascades last, engine.update sensor field value = .ok delivery ∧
      Propagates engine (engine.waveOf sensor field value) delivery cascades last := by
  obtain ⟨log, recorded⟩ := reached.recorded
  have sound := recorded.sound.network
  have flipped := sound.overwritten_waveOf sensor field value
  have poised : (engine.waveOf sensor field value).Poised false [] _ :=
    flipped.poised sound.linked.toPaired sound.settled
  obtain ⟨cascades, last, settles⟩ := poised.settles
  obtain ⟨graph, changed⟩ := Network.deliver_of_settles settles
  have groups := Graph.groupCount_of_frame_eq flipped.frame
  refine ⟨engine.deliver sensor field value, cascades, last,
    update_eq_ok.2 ⟨registered, rfl⟩, flipped, changed, settles, graph, ?_, ?_, ?_⟩
  · intro rounds later passed
    exact settles.passed.eq_append settles.empty passed
  · have most := settles.length_le
    rw [groups, ← changed] at most
    exact most
  · intro id
    have most := settles.count_turns_le id
    rw [← changed] at most
    exact most

/-- Two tests change, and between them the group above turns false and true again. All four rounds
that the bound allows are made, and nothing is reported in the end. -/
theorem propagates_seesaw :
    let engine := empty.handleAll
      [.addSensor 1 none [("t", .unsigned)],
        .register ⟨none, none, "[1]|(>(t,6),<(t,3))", []⟩,
        .update 1 "t" (.unsigned 1)]
    let start := engine.waveOf 1 "t" (.unsigned 9)
    Reachable engine ∧ engine.sensors.contains 1 = true ∧ engine.graph.groupCount = 1 ∧
      start.pending = [⟨1, false⟩, ⟨0, true⟩] ∧
      (start.run 1).pending = [⟨2, false⟩, ⟨0, true⟩] ∧
      (start.run 3).pending = [⟨2, true⟩] ∧ (start.run 4).pending = [] ∧
      ∃ delivery cascades last, engine.update 1 "t" (.unsigned 9) = .ok delivery ∧
        Propagates engine start delivery cascades last := by
  intro engine start
  have reached : Reachable engine := Reachable.empty.handleAll _
  have registered : engine.sensors.contains 1 = true := by decide +kernel
  refine ⟨reached, registered, by decide +kernel, by decide +kernel, by decide +kernel,
    by decide +kernel, by decide +kernel, ?_⟩
  exact reached.propagates registered "t" (.unsigned 9)

end Engine

end Tripwire
