import NexusLab.Sim.Event
import NexusLab.Telemetry.Metrics

/-! # Telemetry observations

What the components report: metric values, lifecycle transitions and decisions, each with the
entities it is about. -/

namespace NexusLab.Telemetry

structure TelemetryRecordIdTag
structure RoutingDecisionIdTag
structure PlacementDecisionIdTag
structure FailureIdTag

abbrev TelemetryRecordId := StrongId TelemetryRecordIdTag
abbrev RoutingDecisionId := StrongId RoutingDecisionIdTag
abbrev PlacementDecisionId := StrongId PlacementDecisionIdTag
abbrev FailureId := StrongId FailureIdTag

structure Correlation where
  gpu : Option Topology.GpuId := none
  nic : Option Topology.NicId := none
  switchEntity : Option Topology.SwitchId := none
  port : Option Topology.PortId := none
  rack : Option Topology.RackId := none
  link : Option Topology.DirectedLinkId := none
  event : Option EventId := none
  cause : Option EventId := none
  job : Option JobId := none
  collective : Option CollectiveId := none
  transfer : Option TransferId := none
  chunk : Option ChunkId := none
  routingDecision : Option RoutingDecisionId := none
  placementDecision : Option PlacementDecisionId := none
  failure : Option FailureId := none
deriving DecidableEq

def correlationEdgeCount (c : Correlation) : Nat :=
  [c.gpu.isSome, c.nic.isSome, c.switchEntity.isSome, c.port.isSome, c.rack.isSome, c.link.isSome,
    c.event.isSome, c.cause.isSome, c.job.isSome, c.collective.isSome, c.transfer.isSome,
    c.chunk.isSome, c.routingDecision.isSome, c.placementDecision.isSome,
    c.failure.isSome].count true

structure CounterObservation where
  metric : MetricId
  labels : MetricLabels
  amount : Nat
deriving DecidableEq

structure GaugeObservation where
  metric : MetricId
  labels : MetricLabels
  value : Nat
deriving DecidableEq

structure HistogramObservation where
  metric : MetricId
  labels : MetricLabels
  value : Nat
deriving DecidableEq

inductive SimulationTransition where
  | runStarted
  | eventScheduled
  | eventDispatched
  | eventCancelled
  | stopRequested
  | runSucceeded
  | runFailed
  | runStopped
deriving DecidableEq

structure SimulationObservation where
  transition : SimulationTransition
  pendingEvents : Nat
deriving DecidableEq

inductive JobTransition where
  | arrived
  | waiting
  | admitted
  | computeStarted
  | computeCompleted
  | collectiveStarted
  | collectiveCompleted
  | stepCompleted
  | succeeded
  | failed
  | cancelled
  | synchronizationStarted
  | stragglerStarted
deriving DecidableEq

structure JobObservation where
  transition : JobTransition
  step : Nat
  bucket : Nat
  worker : Nat
  allocatedWorkers : Nat
deriving DecidableEq

inductive CollectiveTransition where
  | submitted
  | phaseStarted
  | roundStarted
  | roundCompleted
  | transferIssued
  | succeeded
  | failed
  | cancelled
deriving DecidableEq

structure CollectiveObservation where
  transition : CollectiveTransition
  phase : Collective.Phase
  round : Nat
  bytes : Nat
deriving DecidableEq

inductive TransferTransition where
  | submitted
  | chunkQueued
  | chunkServiceStarted
  | chunkSerialized
  | chunkDelivered
  | chunkDropped
  | succeeded
  | failed
deriving DecidableEq

inductive TransferReason where
  | none
  | bufferFull
  | resourceDown
deriving DecidableEq

structure TransferObservation where
  transition : TransferTransition
  bytes : Nat
  hop : Nat
  reason : TransferReason
deriving DecidableEq

inductive QueueTransition where
  | enqueued
  | serviceStarted
  | serviceCompleted
  | marked
  | dropped
deriving DecidableEq

structure QueueObservation where
  transition : QueueTransition
  chunkBytes : Nat
  waitingBytes : Nat
  waitingChunks : Nat
deriving DecidableEq

inductive RoutingDecisionOutcome where
  | selected
  | noRoute
  | rejected
deriving DecidableEq

def RoutingDecisionOutcome.value : RoutingDecisionOutcome → Nat
  | .selected => 1
  | .noRoute => 2
  | .rejected => 3

structure RoutingDecisionObservation where
  decision : RoutingDecisionId
  policy : String
  policyVersion : Nat
  operationalRevision : Nat
  candidateCount : Nat
  selectedPath : List Topology.DirectedLinkId
  score : Nat
  reason : String
  transfer : Option TransferId
  outcome : RoutingDecisionOutcome
deriving DecidableEq

inductive PlacementDecisionOutcome where
  | placed
  | waiting
  | rejected
deriving DecidableEq

def PlacementDecisionOutcome.value : PlacementDecisionOutcome → Nat
  | .placed => 1
  | .waiting => 2
  | .rejected => 3

structure PlacementDecisionObservation where
  decision : PlacementDecisionId
  policy : String
  policyVersion : Nat
  priority : Nat
  requestedWorkers : Nat
  selectedWorkers : List Topology.GpuId
  rackCount : Nat
  nicCount : Nat
  crossRackRingEdges : Nat
  reason : String
  outcome : PlacementDecisionOutcome
deriving DecidableEq

inductive FailureTransition where
  | scheduled
  | detected
  | applied
  | recoveryStarted
  | recovered
deriving DecidableEq

inductive FailureResourceKind where
  | link
  | port
  | switch
  | gpu
  | nic
deriving DecidableEq

structure FailureObservation where
  failure : FailureId
  transition : FailureTransition
  resourceKind : FailureResourceKind
  resourceId : Nat
  affectedBytes : Nat
deriving DecidableEq

inductive TelemetryObservation where
  | counter (value : CounterObservation)
  | gauge (value : GaugeObservation)
  | histogram (value : HistogramObservation)
  | simulation (value : SimulationObservation)
  | job (value : JobObservation)
  | collective (value : CollectiveObservation)
  | transfer (value : TransferObservation)
  | queue (value : QueueObservation)
  | routingDecision (value : RoutingDecisionObservation)
  | placementDecision (value : PlacementDecisionObservation)
  | failure (value : FailureObservation)
deriving DecidableEq

def isDecisionObservation : TelemetryObservation → Bool
  | .routingDecision _ => true
  | .placementDecision _ => true
  | _ => false

structure TelemetryRecord where
  correlation : Correlation
  observation : TelemetryObservation
  id : TelemetryRecordId
  timestamp : SimTimeNs
deriving DecidableEq

structure MetricSample where
  metric : MetricId
  labels : MetricLabels
  kind : MetricKind
  value : Nat
  timestamp : SimTimeNs
deriving DecidableEq

def isSampledMetricKind (kind : MetricKind) : Bool := kind = .counter || kind = .gauge

end NexusLab.Telemetry
