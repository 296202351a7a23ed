import NexusLab.Sim.Program

/-! # The reference scheduler

What the kernel is for, without a heap and without tombstones: the live events are a plain
collection, a cancelled event leaves it at once, and the next event is the least one in
(timestamp, priority, identifier). -/

namespace NexusLab.Sim

open Foundation

structure Reference where
  now : SimTimeNs := 0
  eventIds : IdGenerator := {}
  live : List Event := []
  rng : DeterministicRng
  currentEvent : Option Event := none
  stopReason : Option StopReason := none
  lifecycle : Lifecycle := .created
  dispatchedEvents : Nat := 0
  cancelledEvents : Nat := 0

/-- The least of a list of events, the first of them when several are least. -/
def leastEvent : List Event → Option Event
  | [] => none
  | event :: rest =>
    match leastEvent rest with
    | none => some event
    | some other => if laterEvent event other then some other else some event

namespace Reference

def schedule (specification : EventSpec) : Action Reference EventId := fun r =>
  if r.lifecycle = .finished then
    .error (.logicError "cannot schedule on a finished simulation") r
  else if specification.timestamp < r.now then
    .error (.invalidArgument "cannot schedule an event in the simulated past") r
  else match r.eventIds.next "event ID sequence exhausted" with
    | .error e => .error e r
    | .ok (value, eventIds) =>
      .ok ⟨value⟩ { r with
        eventIds
        live := r.live ++ [⟨specification.timestamp, specification.priority, ⟨value⟩,
          r.currentEvent.map Event.id, specification.payload⟩] }

def cancel (id : EventId) : Action Reference Bool := fun r =>
  if r.lifecycle ≠ .finished ∧ id ∈ r.live.map Event.id then
    .ok true { r with
      live := r.live.filter fun event => event.id ≠ id
      cancelledEvents := r.cancelledEvents + 1 }
  else .ok false r

def stop (reason : StopReason) : Action Reference Unit := fun r =>
  if r.lifecycle ≠ .running then
    .error (.logicError "simulation can only be stopped while running") r
  else if r.currentEvent = none then
    .error (.logicError "simulation can only be stopped during event dispatch") r
  else if r.stopReason = none then .ok () { r with stopReason := some reason }
  else .ok () r

/-- Reads the event being dispatched. -/
def aboutCurrent {α : Type} (read : Event → α) : Action Reference α := fun r =>
  match r.currentEvent with
  | none => .error (.logicError "no event is currently being dispatched") r
  | some event => .ok (read event) r

def currentEventId : Action Reference EventId := aboutCurrent Event.id

def currentCause : Action Reference (Option EventId) := aboutCurrent Event.cause

def randomU64 : Action Reference Nat := fun r =>
  .ok r.rng.nextU64.1 { r with rng := r.rng.nextU64.2 }

def randomBelow (upperExclusive : UInt64) : Action Reference Nat := fun r =>
  match r.rng.uniformBelow upperExclusive with
  | .error e => .error e r
  | .ok (value, rng) => .ok value { r with rng }

def operations : Operations Reference where
  schedule := schedule
  cancel := cancel
  stop := stop
  now := now
  currentEventId := currentEventId
  cause := currentCause
  randomU64 := randomU64
  randomBelow := randomBelow

def beginRun : Action Reference Unit := fun r =>
  if r.lifecycle ≠ .created then .error (.logicError "simulation can only be run once") r
  else .ok () { r with lifecycle := .running }

/-- Takes the least live event and makes it the current one. -/
def startNext : Action Reference (Option Event) := fun r =>
  match leastEvent r.live with
  | none => .ok none r
  | some event =>
    .ok (some event) { r with
      live := r.live.filter fun other => other.id ≠ event.id
      currentEvent := some event
      now := event.timestamp
      dispatchedEvents := r.dispatchedEvents + 1 }

def endDispatch : Action Reference Unit := modify fun r => { r with currentEvent := none }

/-- The result of a run; a reference run has no trace. -/
def resultOf (status : SimulationStatus) (error : Option String) (r : Reference) :
    SimulationResult where
  status := status
  stopReason := r.stopReason
  finalTime := r.now
  dispatchedEvents := r.dispatchedEvents
  cancelledEvents := r.cancelledEvents
  pendingEvents := r.live.length
  rngDrawCount := r.rng.drawCount
  traceHash := none
  error := error

def finish (status : SimulationStatus) (error : Option String) :
    Action Reference SimulationResult := fun r =>
  .ok (resultOf status error r) { r with lifecycle := .finished, currentEvent := none }

section Run

variable {δ : Type} (handler : δ → EventPayload → Program δ)

def hostedLoop : Nat → Action (Host Reference δ) (Option SimulationResult)
  | 0 => pure none
  | rounds + 1 => do
    let stopped ← reads fun h => h.scheduler.stopReason.isSome
    if stopped then some <$> zoom Host.schedulerLens (finish .stopped none)
    else
      let next ← zoom Host.schedulerLens startNext
      match next with
      | none => some <$> zoom Host.schedulerLens (finish .completed none)
      | some event =>
        Host.dispatch operations currentEvent handler event.payload
        zoom Host.schedulerLens endDispatch
        hostedLoop rounds

def hostedRun (setup : Program Unit) (rounds : Nat) :
    Action (Host Reference δ) (Option SimulationResult) := do
  let _ ← attempt (Host.interpret operations setup)
  zoom Host.schedulerLens beginRun
  catching (hostedLoop handler rounds)
    (fun e => some <$> zoom Host.schedulerLens (finish .failed (some e.what)))

end Run

end Reference

end NexusLab.Sim
