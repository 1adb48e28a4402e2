import Tripwire.Engine

/-!
# Workers

Producers queue updates, and a worker applies them to its engine one at a time in the order in
which they were queued, handing each condition that fires to a dispatcher before it takes the
next update. A queue holds a bounded number of updates, at least one; producers wait for room.
-/

namespace Tripwire

/-- A value to deliver. -/
structure FieldUpdate where
  sensor : SensorId
  field : String
  value : Value
deriving DecidableEq

/-- Hands on what a condition asks for, or fails to. -/
abbrev Dispatcher := Fired → Except Error Unit

/-- What a worker has done so far. Natural numbers count as 64 bits do for as long as none of them
reaches 2 ^ 64. -/
structure Worker.Stats where
  applied : Nat
  rejected : Nat
  fired : Nat
  failures : Nat
deriving DecidableEq, Repr

/-- A worker with its queue, the next update first, and the dispatches it attempted, the first
one first. -/
structure Worker where
  engine : Engine
  capacity : Nat
  isOpen : Bool
  queue : List FieldUpdate
  stats : Worker.Stats
  attempted : List Fired
deriving DecidableEq

namespace Worker

def ofEngine (engine : Engine) (capacity : Nat) : Worker :=
  ⟨engine, capacity, true, [], ⟨0, 0, 0, 0⟩, []⟩

/-- Whether a producer may queue an update without waiting. -/
def hasRoom (worker : Worker) : Bool :=
  worker.queue.length < max worker.capacity 1

/-- Queues an update, unless the queue is closed. -/
def submit (worker : Worker) (update : FieldUpdate) : Except Error Worker :=
  if worker.isOpen then .ok { worker with queue := worker.queue ++ [update] }
  else .error .queueClosed

/-- Lets no more updates in. -/
def close (worker : Worker) : Worker :=
  { worker with isOpen := false }

/-- Hands a fired condition to the dispatcher. -/
def dispatch (dispatcher : Dispatcher) (worker : Worker) (fired : Fired) : Worker :=
  let failures :=
    match dispatcher fired with
    | .ok _ => 0
    | .error _ => 1
  { worker with
    stats :=
      { worker.stats with
        fired := worker.stats.fired + 1
        failures := worker.stats.failures + failures }
    attempted := worker.attempted ++ [fired] }

/-- Applies an update and dispatches what it fires. An unknown sensor's is rejected. -/
def apply (dispatcher : Dispatcher) (worker : Worker) (update : FieldUpdate) : Worker :=
  match worker.engine.update update.sensor update.field update.value with
  | .error _ =>
      let stats := worker.stats
      { worker with stats := { stats with rejected := stats.rejected + 1 } }
  | .ok delivery =>
      let stats := worker.stats
      let applied :=
        { worker with
          engine := delivery.engine
          stats := { stats with applied := stats.applied + 1 } }
      delivery.outcome.fired.foldl (dispatch dispatcher) applied

/-- Takes the next update off the queue and applies it. -/
def take (dispatcher : Dispatcher) (worker : Worker) : Worker :=
  match worker.queue with
  | [] => worker
  | next :: rest => apply dispatcher { worker with queue := rest } next

/-- A step of a schedule: a producer queues its next update, or the worker takes one. -/
inductive Turn where
  | submit
  | take
deriving DecidableEq, Repr

/-- The worker and the updates that producers still hold after a turn, if the turn is
possible: a producer needs room, and the worker something to take. -/
def turn? (dispatcher : Dispatcher) (state : Worker × List FieldUpdate) :
    Turn → Option (Worker × List FieldUpdate)
  | .submit =>
      match state.2 with
      | [] => none
      | next :: rest =>
          if state.1.hasRoom then
            match state.1.submit next with
            | .ok queued => some (queued, rest)
            | .error _ => none
          else none
  | .take =>
      if state.1.queue.isEmpty then none else some (state.1.take dispatcher, state.2)

/-- The worker and the updates still held after a schedule, if all its turns are possible. -/
def follow? (dispatcher : Dispatcher) (state : Worker × List FieldUpdate)
    (schedule : List Turn) : Option (Worker × List FieldUpdate) :=
  schedule.foldlM (turn? dispatcher) state

/-- Queues one update and applies it. -/
def process (dispatcher : Dispatcher) (worker : Worker) (update : FieldUpdate) : Worker :=
  match worker.submit update with
  | .ok queued => queued.take dispatcher
  | .error _ => worker

/-- A worker that was given updates and then closed, with its queue drained. -/
def run (dispatcher : Dispatcher) (engine : Engine) (capacity : Nat)
    (updates : List FieldUpdate) : Worker :=
  (updates.foldl (process dispatcher) (ofEngine engine capacity)).close

/-- The dispatches that did not fail, the first one first. -/
def delivered (dispatcher : Dispatcher) (worker : Worker) : List Fired :=
  worker.attempted.filter fun fired => (dispatcher fired).isOk

end Worker

end Tripwire
