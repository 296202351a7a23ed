import NexusLab.Sim.EventQueue
import NexusLab.Sim.Random
import NexusLab.Sim.Trace
import NexusLab.Telemetry.Session
import Mathlib.Data.Finset.Card

/-! # The simulation kernel

The kernel schedules events, cancels them lazily (a cancelled event stays in the queue and is
dropped when it comes up) and dispatches them to the component it drives.  Its state is split in
two: `Simulation` is what the program computes with, `Instrumentation` collects everything that
is only observed (the trace, the telemetry session and what telemetry remembers).  A throw of the
instrumentation carries the origin `telemetry`. -/

namespace NexusLab.Sim

open Foundation Telemetry

/-! ## State -/

inductive SimulationStatus where
  | completed
  | stopped
  | failed
deriving DecidableEq

def SimulationStatus.value : SimulationStatus → Nat
  | .completed => 0
  | .stopped => 1
  | .failed => 2

structure SimulationResult where
  status : SimulationStatus
  stopReason : Option StopReason
  finalTime : SimTimeNs
  dispatchedEvents : Nat
  cancelledEvents : Nat
  pendingEvents : Nat
  rngDrawCount : Nat
  traceHash : Option UInt64
  error : Option String
deriving DecidableEq

inductive Lifecycle where
  | created
  | running
  | finished
deriving DecidableEq

structure Simulation where
  now : SimTimeNs := 0
  eventIds : IdGenerator := {}
  eventQueue : EventQueue := .empty
  rng : DeterministicRng
  pendingIds : Finset EventId := ∅
  cancelledIds : Finset EventId := ∅
  currentEvent : Option Event := none
  stopReason : Option StopReason := none
  lifecycle : Lifecycle := .created
  -- words in the source, unchecked: an event is counted once and has used up one of the 2 ^ 64
  -- identifiers, so that a counter could wrap at the last event of all, if ever
  dispatchedEvents : Nat := 0
  cancelledEvents : Nat := 0

structure EventTraceMetadata where
  timestamp : SimTimeNs
  priority : EventPriority
  id : EventId
  cause : Option EventId
  payloadKind : EventPayloadKind
deriving DecidableEq

def eventTraceMetadata (event : Event) : EventTraceMetadata :=
  ⟨event.timestamp, event.priority, event.id, event.cause, payloadKind event.payload⟩

/-- Everything that is only observed.  `threw` is not in the source: it records that some throw
came from here. -/
structure Instrumentation where
  trace : TraceLog
  traceMetadata : OrderedMap EventId EventTraceMetadata := .empty
  session : TelemetrySession
  telemetryFailed : Bool := false
  reportedBusyTimeNs : OrderedMap Topology.DirectedLinkId Nat := .empty
  threw : Bool := false

structure Kernel where
  sim : Simulation
  probe : Instrumentation

namespace Kernel

def probeLens : Lens Kernel Instrumentation where
  get := probe
  set p k := { k with probe := p }
  get_set _ _ := rfl
  set_get _ := rfl
  set_set _ _ _ := rfl

def modifySim (f : Simulation → Simulation) : Action Kernel Unit :=
  modify fun k => { k with sim := f k.sim }

end Kernel

/-! ## Instrumentation -/

namespace Instrumentation

def sessionLens : Lens Instrumentation TelemetrySession where
  get := session
  set s p := { p with session := s }
  get_set _ _ := rfl
  set_get _ := rfl
  set_set _ _ _ := rfl

/-- Runs `m` so that its throws are known to come from the instrumentation. -/
def attributed (m : Action Instrumentation Unit) : Action Instrumentation Unit := fun p =>
  match m p with
  | .ok _ p' => .ok () { p' with threw := p.threw }
  | .error e p' => .error { e with origin := .telemetry } { p' with threw := true }

/-- `TelemetrySink::record`. -/
def record (timestamp : SimTimeNs) (correlation : Correlation)
    (observation : TelemetryObservation) : Action Instrumentation Unit :=
  zoom sessionLens (TelemetrySession.record timestamp correlation observation)

end Instrumentation

namespace Kernel

/-- Lets the instrumentation look at the kernel. -/
def instrument (m : Kernel → Action Instrumentation Unit) : Action Kernel Unit := fun k =>
  zoom probeLens (Instrumentation.attributed (m k)) k

/-- An instrumentation step that only telemetry takes. -/
def observe (m : Kernel → Action Instrumentation Unit) : Action Kernel Unit :=
  instrument fun k => runIf (k.probe.session.enabled = true) (m k)

/-- The event a report is about. -/
def eventCorrelation (k : Kernel) : Except Error Correlation :=
  match k.sim.currentEvent with
  | none => .error (.logicError "no event is currently being dispatched")
  | some event => .ok { event := some event.id, cause := event.cause }

def pendingEvents (k : Kernel) : Nat := k.sim.pendingIds.card - k.sim.cancelledIds.card

/-- A report of the kernel, which also remembers that telemetry has failed. -/
def emit (report : Kernel → Action Instrumentation Unit) : Action Kernel Unit :=
  observe fun k => catching (report k) fun e => do
    modify fun p => { p with telemetryFailed := true }
    throw e

def emitSimulationObservation (transition : SimulationTransition) (event cause : Option EventId) :
    Action Kernel Unit :=
  emit fun k => Instrumentation.record k.sim.now { event, cause }
    (.simulation ⟨transition, k.pendingEvents⟩)

def emitMetric (observation : Kernel → Except Error TelemetryObservation) : Action Kernel Unit :=
  emit fun k => do
    let correlation : Correlation :=
      { event := k.sim.currentEvent.map Event.id, cause := k.sim.currentEvent.bind Event.cause }
    Instrumentation.record k.sim.now correlation (← fromExcept (observation k))

/-- A counter without labels. -/
def plainCounter (metric : MetricId) (amount : Nat) : TelemetryObservation :=
  .counter ⟨metric, .none, amount⟩

def emitTerminalTelemetry (status : SimulationStatus) : Action Kernel Unit := do
  let k ← get
  -- a failed telemetry gets no closing records
  runIf (k.probe.telemetryFailed = false) do
    let transition := match status with
      | .completed => SimulationTransition.runSucceeded
      | .stopped => SimulationTransition.runStopped
      | .failed => SimulationTransition.runFailed
    emitSimulationObservation transition (k.sim.currentEvent.map Event.id)
      (k.sim.currentEvent.bind Event.cause)
    emitMetric fun k => .ok (.gauge ⟨.simulationFinalTimeNs, .none, k.sim.now⟩)
    emitMetric fun k => .ok (plainCounter .simulationRngDraws k.sim.rng.drawCount)
    emitMetric fun _ => do
      let labels ← MetricLabels.ofList [⟨.outcome, status.value⟩]
      return .counter ⟨.simulationTerminalTotal, labels, 1⟩

def recordEvent (action : TraceAction) (metadata : EventTraceMetadata)
    (stopReason : Option StopReason) : Action Kernel Unit :=
  instrument fun k => modify fun p => { p with
    trace := p.trace.append ⟨action, k.sim.now, some metadata.id, metadata.cause,
      some metadata.timestamp, some metadata.priority, some metadata.payloadKind, stopReason,
      none⟩ }

def recordTerminal (action : TraceAction) (error : Option String) : Action Kernel Unit :=
  instrument fun k =>
    let metadata := k.sim.currentEvent.map eventTraceMetadata
    modify fun p => { p with
      trace := p.trace.append ⟨action, k.sim.now, metadata.map EventTraceMetadata.id,
        metadata.bind EventTraceMetadata.cause, metadata.map EventTraceMetadata.timestamp,
        metadata.map EventTraceMetadata.priority, metadata.map EventTraceMetadata.payloadKind,
        none, error⟩ }

/-- Whether metadata is kept for pending events. -/
def keepsMetadata (p : Instrumentation) : Bool := p.trace.enabled || p.session.enabled

def insertMetadata (event : Event) : Action Kernel Unit :=
  instrument fun k => runIf (keepsMetadata k.probe = true) do
    throwIf ((← get).traceMetadata.contains event.id = true)
      (.logicError "duplicate event trace metadata")
    modify fun p => { p with
      traceMetadata := p.traceMetadata.insert event.id (eventTraceMetadata event) }

def eraseMetadata (id : EventId) : Action Kernel Unit :=
  instrument fun _ => modify fun p => { p with traceMetadata := p.traceMetadata.erase id }

/-! ## Scheduling, cancelling, stopping -/

def nextEventId : Action Kernel EventId := do
  let drawn ← fromExcept ((← get).sim.eventIds.next "event ID sequence exhausted")
  modifySim fun sim => { sim with eventIds := drawn.2 }
  return ⟨drawn.1⟩

def schedule (specification : EventSpec) : Action Kernel EventId := do
  throwIf ((← get).sim.lifecycle = .finished)
    (.logicError "cannot schedule on a finished simulation")
  throwIf (specification.timestamp < (← get).sim.now)
    (.invalidArgument "cannot schedule an event in the simulated past")
  let id ← nextEventId
  let cause := (← get).sim.currentEvent.map Event.id
  let event : Event :=
    ⟨specification.timestamp, specification.priority, id, cause, specification.payload⟩
  -- defensive: a fresh identifier is never pending
  throwIf (id ∈ (← get).sim.pendingIds) (.logicError "duplicate pending event ID")
  modifySim fun sim => { sim with pendingIds := insert id sim.pendingIds }
  -- the identifier is taken back if the tables refuse the event
  catching
    (do
      insertMetadata event
      modifySim fun sim => { sim with eventQueue := sim.eventQueue.push event })
    (fun e => do
      modifySim fun sim => { sim with pendingIds := sim.pendingIds.erase id }
      eraseMetadata id
      throw e)
  -- the event stands even if the trace refuses its record
  recordEvent .scheduled (eventTraceMetadata event) none
  emitSimulationObservation .eventScheduled (some id) cause
  return id

/-- The metadata a cancellation reports. -/
def cancelMetadata (id : EventId) (p : Instrumentation) : Option EventTraceMetadata :=
  if keepsMetadata p then p.traceMetadata.find? id else none

def requireMetadata (id : EventId) : Action Kernel Unit :=
  instrument fun k => throwIf (keepsMetadata k.probe = true ∧ cancelMetadata id k.probe = none)
    (.logicError "missing event trace metadata")

def cancel (id : EventId) : Action Kernel Bool := do
  if (← get).sim.lifecycle = .finished ∨ id ∉ (← get).sim.pendingIds then return false
  else
    requireMetadata id
    if id ∈ (← get).sim.cancelledIds then return false
    else
      modifySim fun sim => { sim with
        cancelledIds := insert id sim.cancelledIds
        cancelledEvents := sim.cancelledEvents + 1 }
      reportCancelled id
      return true
where
  /-- What the instrumentation is told about a cancelled event. -/
  reportCancelled (id : EventId) : Action Kernel Unit := do
    let metadata := cancelMetadata id (← get).probe
    emitSimulationObservation .eventCancelled (some id) (metadata.bind EventTraceMetadata.cause)
    emitMetric fun _ => .ok (plainCounter .simulationCancelledEvents 1)
    match metadata with
    | some metadata => recordEvent .cancelled metadata none
    | none => pure ()

def stop (reason : StopReason) : Action Kernel Unit := do
  throwIf ((← get).sim.lifecycle ≠ .running)
    (.logicError "simulation can only be stopped while running")
  let event ← getOrThrow (← get).sim.currentEvent
    (.logicError "simulation can only be stopped during event dispatch")
  runIf ((← get).sim.stopReason = none) do
    recordEvent .stopRequested (eventTraceMetadata event) (some reason)
    modifySim fun sim => { sim with stopReason := some reason }
    emitSimulationObservation .stopRequested (some event.id) event.cause

def currentEventId : Action Kernel EventId := do
  let event ← getOrThrow (← get).sim.currentEvent
    (.logicError "no event is currently being dispatched")
  return event.id

def currentCause : Action Kernel (Option EventId) := do
  let event ← getOrThrow (← get).sim.currentEvent
    (.logicError "no event is currently being dispatched")
  return event.cause

def randomU64 : Action Kernel Nat := do
  let drawn := (← get).sim.rng.nextU64
  modifySim fun sim => { sim with rng := drawn.2 }
  return drawn.1

def randomBelow (upperExclusive : UInt64) : Action Kernel Nat := do
  let drawn ← fromExcept ((← get).sim.rng.uniformBelow upperExclusive)
  modifySim fun sim => { sim with rng := drawn.2 }
  return drawn.1

/-! ## Running -/

def beginRun : Action Kernel Unit := do
  throwIf ((← get).sim.lifecycle ≠ .created) (.logicError "simulation can only be run once")
  modifySim fun sim => { sim with lifecycle := .running }

/-- Takes the next event off the queue, forgetting it is pending. -/
def popEvent (event : Event) (rest : EventQueue) (sim : Simulation) : Simulation :=
  { sim with
    eventQueue := rest
    pendingIds := sim.pendingIds.erase event.id
    cancelledIds := sim.cancelledIds.erase event.id }

/-- Pops until an event comes up that is not cancelled.  One more round than there are events
always suffices. -/
def popDispatchable : Nat → Action Kernel (Option Event)
  | 0 => pure none
  | rounds + 1 => do
    let k ← get
    match k.sim.eventQueue.pop with
    | none => pure none
    | some (next, rest) => do
      modifySim (popEvent next rest)
      eraseMetadata next.id
      if next.id ∈ k.sim.cancelledIds then popDispatchable rounds else pure (some next)

def nextDispatchableEvent : Action Kernel (Option Event) := do
  popDispatchable ((← get).sim.eventQueue.size + 1)

/-- What happens between taking an event and handing it to the dispatcher. -/
def beginDispatch (event : Event) : Action Kernel Unit := do
  modifySim fun sim => { sim with
    currentEvent := some event
    now := event.timestamp
    dispatchedEvents := sim.dispatchedEvents + 1 }
  emitSimulationObservation .eventDispatched (some event.id) event.cause
  emitMetric fun _ => .ok (plainCounter .simulationDispatchedEvents 1)
  recordEvent .dispatched (eventTraceMetadata event) none

/-- Takes the next event and makes it the current one. -/
def startNext : Action Kernel (Option Event) := do
  let next ← nextDispatchableEvent
  match next with
  | none => return none
  | some event =>
    beginDispatch event
    return some event

def endDispatch : Action Kernel Unit := modifySim fun sim => { sim with currentEvent := none }

/-- A stopped run has its record already, from the request. -/
def recordStatus (status : SimulationStatus) (error : Option String) : Action Kernel Unit :=
  match status with
  | .completed => recordTerminal .completed none
  | .failed => recordTerminal .failed error
  | .stopped => pure ()

def finish (status : SimulationStatus) (error : Option String) :
    Action Kernel SimulationResult := do
  emitTerminalTelemetry status
  recordStatus status error
  -- finished only if the trace has taken the status
  modifySim fun sim => { sim with lifecycle := .finished, currentEvent := none }
  let k ← get
  return {
    status
    stopReason := k.sim.stopReason
    finalTime := k.sim.now
    dispatchedEvents := k.sim.dispatchedEvents
    cancelledEvents := k.sim.cancelledEvents
    pendingEvents := k.pendingEvents
    rngDrawCount := k.sim.rng.drawCount
    traceHash := k.probe.trace.reportedHash
    error }

def fail (error : String) : Action Kernel SimulationResult :=
  catching (finish .failed (some error)) fun e => do
    instrument fun _ => modify fun p => { p with telemetryFailed := true }
    finish .failed (some e.what)

end Kernel

section Run

variable {σ : Type} (kernel : Lens σ Kernel) (dispatcher : EventPayload → Action σ Unit)

/-- The dispatch loop; `none` when the rounds run out first. -/
def runLoop : Nat → Action σ (Option SimulationResult)
  | 0 => pure none
  | rounds + 1 => do
    -- a stop takes effect between two events
    let stopped ← reads fun s => (kernel.get s).sim.stopReason.isSome
    if stopped then
      some <$> zoom kernel (Kernel.finish .stopped none)
    else
      let next ← zoom kernel Kernel.startNext
      match next with
      | none => some <$> zoom kernel (Kernel.finish .completed none)
      | some event =>
        -- a throw of the handler leaves the loop, with the event still current
        dispatcher event.payload
        zoom kernel Kernel.endDispatch
        runLoop rounds

/-- `Simulation::run`: every throw of a handler ends the run as failed. -/
def run (rounds : Nat) : Action σ (Option SimulationResult) := do
  zoom kernel Kernel.beginRun
  catching
    (do
      zoom kernel (Kernel.emitSimulationObservation .runStarted none none)
      runLoop kernel dispatcher rounds)
    (fun e => some <$> zoom kernel (Kernel.fail e.what))

end Run

end NexusLab.Sim
