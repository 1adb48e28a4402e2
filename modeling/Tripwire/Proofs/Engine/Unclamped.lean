import Tripwire.Proofs.Engine.Runs
import Tripwire.Proofs.Wave.Unclamped

/-!
# Counts stay within their bounds

Whatever was asked of an engine before, a delivery finds its graph settled and overwrites tests of
one field only. Thus no node that is told of a change on the way to the roots needs its bounds.
-/

namespace Tripwire

/-- The nodes told while a delivery is passed on. -/
def Network.callsOfDeliver (network : Network) (sensor : SensorId) (field : String)
    (value : Value) : List Wave.Call :=
  match network.sensors.field? sensor field with
  | none => []
  | some declared =>
      let examination := declared.watchers.foldl (examine sensor field value)
        ⟨network.graph, 0, [], []⟩
      examination.graph.callsOfSettle examination.changes

theorem Network.Sound.hasRoom {network : Network} (sound : network.Sound) (sensor : SensorId)
    (field : String) (value : Value) :
    ∀ call ∈ network.callsOfDeliver sensor field value, call.node.HasRoom call.rising := by
  intro call member
  unfold callsOfDeliver at member
  split at member
  case h_1 => cases member
  case h_2 declared found =>
    simp only [sound.watched found] at member
    have overwritten := (network.examined sensor field value).overwritten
      fun _ => Graph.exists_test_of_mem_testsOn
    exact (overwritten.poised sound.linked.toPaired sound.settled).hasRoom _ call member

namespace Engine

variable {engine : Engine} {log : List Registration}

/-- The nodes told while deliveries to one sensor are passed on in turn. -/
def callsOfPayload (engine : Engine) (sensor : SensorId) : List (String × Value) → List Wave.Call
  | [] => []
  | item :: rest =>
      engine.callsOfDeliver sensor item.1 item.2 ++
        (engine.deliver sensor item.1 item.2).engine.callsOfPayload sensor rest

/-- The nodes told while a request is met. Registering passes no changes on. -/
def calls (engine : Engine) : Request → List Wave.Call
  | .update sensor field value =>
      match engine.update sensor field value with
      | .ok _ => engine.callsOfDeliver sensor field value
      | .error _ => []
  | .updateAll sensor payload =>
      match engine.updateAll sensor payload with
      | .ok _ => engine.callsOfPayload sensor payload
      | .error _ => []
  | _ => []

theorem Sound.hasRoom_of_payload (sensor : SensorId) (payload : List (String × Value))
    {engine : Engine} (sound : engine.Sound log) :
    ∀ call ∈ engine.callsOfPayload sensor payload, call.node.HasRoom call.rising := by
  induction payload generalizing engine with
  | nil =>
      intro call member
      cases member
  | cons item rest ih =>
      intro call member
      rcases List.mem_append.1 member with first | later
      · exact sound.network.hasRoom sensor item.1 item.2 call first
      · exact ih (sound.deliver sensor item.1 item.2).1 call later

theorem Sound.hasRoom (sound : engine.Sound log) (request : Request) :
    ∀ call ∈ engine.calls request, call.node.HasRoom call.rising := by
  intro call member
  unfold calls at member
  split at member
  case h_1 sensor field value =>
    split at member
    case h_1 => exact sound.network.hasRoom sensor field value call member
    case h_2 => cases member
  case h_2 sensor payload =>
    split at member
    case h_1 => exact sound.hasRoom_of_payload sensor payload call member
    case h_2 => cases member
  case h_3 => cases member

/-- Each node that is told of a change has room for it, so that plain counting tells the same as
counting within bounds. -/
theorem Reachable.unclamped (reached : Reachable engine) (request : Request) :
    ∀ call ∈ engine.calls request,
      call.node.HasRoom call.rising ∧
        call.node.advance? call.rising = some (call.node.shift call.rising) := by
  intro call member
  obtain ⟨log, recorded⟩ := reached.recorded
  have room := recorded.sound.hasRoom request call member
  exact ⟨room, room.advance?_eq⟩

/-- Told that one test has turned true, a group still counts both edges to the other, which has
turned false. -/
theorem unclamped_lagging :
    let engine := empty.handleAll
      [.addSensor 1 none [("t", .unsigned)],
        .register ⟨none, none, "[1]|(<(t,3),>(t,6),<(t,3))", []⟩,
        .update 1 "t" (.unsigned 1)]
    let request := Request.update 1 "t" (.unsigned 9)
    Reachable engine ∧
      (engine.calls request).map (fun call => (call.node.kind, call.rising)) =
        [(.group .any [0, 1, 0] 2, true), (.group .any [0, 1, 0] 3, false),
          (.group .any [0, 1, 0] 2, false)] ∧
      ∀ call ∈ engine.calls request,
        call.node.HasRoom call.rising ∧
          call.node.advance? call.rising = some (call.node.shift call.rising) := by
  intro engine request
  have reached : Reachable engine := Reachable.empty.handleAll _
  refine ⟨reached, by decide +kernel, ?_⟩
  exact reached.unclamped request

end Engine

end Tripwire
