import NexusLab.Foundation.JsonText
import NexusLab.Sim.TraceHash
import NexusLab.Telemetry.Session

/-! # Telemetry as JSON lines

The records file of a run: a header line, a line for every record and every sample, and a footer
line with the number of lines and a digest of everything before it.  Each `append` function gives
the text that the source's function of that name appends to its output, a character for each
byte. -/

namespace NexusLab.Telemetry

open Foundation

def telemetrySchemaVersion : Nat := 1
def telemetryCatalogVersion : Nat := 1
def version : String := "0.1.0"

inductive TelemetryRunOutcome where
  | completed
  | stopped
  | failed
deriving DecidableEq

structure TelemetryRunMetadata where
  seed : Nat := 0
  scenarioDigest : UInt64 := 0
  routingPolicy : String
  routingPolicyVersion : Nat := 1
  schedulingPolicy : Option String := none
  schedulingPolicyVersion : Nat := 1
  outcome : TelemetryRunOutcome := .completed
  finalTime : SimTimeNs
  synthetic : Bool := true
  complete : Bool := true
deriving DecidableEq

/-! ## Scalars -/

def appendU64 (value : Nat) : List Char := decimal value

def appendBool (value : Bool) : List Char := if value then "true".toList else "false".toList

def appendString (value : String) : List Char := quoted value

/-- Sixteen hexadecimal digits. -/
def hexU64 (value : UInt64) : String :=
  let digits := Nat.toDigits 16 value.toNat
  String.ofList (List.replicate (16 - digits.length) '0' ++ digits)

def hashText (hash : UInt64) (text : List Char) : UInt64 :=
  text.foldl (fun hash character => Sim.hashByte hash (UInt8.ofNat character.toNat)) hash

def fnv1a64 (content : String) : UInt64 := hashText Sim.fnvOffsetBasis content.toList

/-! ## Names -/

def modeName : TelemetryMode → String
  | .off => "off"
  | .summary => "summary"
  | .sampled => "sampled"
  | .full => "full"

def kindName : MetricKind → String
  | .counter => "counter"
  | .gauge => "gauge"
  | .histogram => "histogram"
  | .derivedSummary => "derived_summary"

def phaseName : Collective.Phase → String
  | .reduceScatter => "reduce_scatter"
  | .allGather => "all_gather"
  | .succeeded => "succeeded"
  | .failed => "failed"
  | .cancelled => "cancelled"

def labelName : MetricLabel → String
  | .job => "job"
  | .collective => "collective"
  | .link => "link"
  | .direction => "direction"
  | .policy => "policy"
  | .outcome => "outcome"
  | .reason => "reason"
  | .failure => "failure"
  | .resource => "resource"

inductive TelemetryRecordKind where
  | counter
  | gauge
  | histogram
  | simulation
  | job
  | collective
  | transfer
  | queue
  | failure
  | routingDecision
  | placementDecision
deriving DecidableEq

def recordKind : TelemetryObservation → TelemetryRecordKind
  | .counter _ => .counter
  | .gauge _ => .gauge
  | .histogram _ => .histogram
  | .simulation _ => .simulation
  | .job _ => .job
  | .collective _ => .collective
  | .transfer _ => .transfer
  | .queue _ => .queue
  | .failure _ => .failure
  | .routingDecision _ => .routingDecision
  | .placementDecision _ => .placementDecision

def recordKindName : TelemetryRecordKind → String
  | .counter => "counter"
  | .gauge => "gauge"
  | .histogram => "histogram"
  | .simulation => "simulation"
  | .job => "job"
  | .collective => "collective"
  | .transfer => "transfer"
  | .queue => "queue"
  | .failure => "failure"
  | .routingDecision => "routing_decision"
  | .placementDecision => "placement_decision"

def simulationTransitionName : SimulationTransition → String
  | .runStarted => "run_started"
  | .eventScheduled => "event_scheduled"
  | .eventDispatched => "event_dispatched"
  | .eventCancelled => "event_cancelled"
  | .stopRequested => "stop_requested"
  | .runSucceeded => "run_succeeded"
  | .runFailed => "run_failed"
  | .runStopped => "run_stopped"

def jobTransitionName : JobTransition → String
  | .arrived => "arrived"
  | .waiting => "waiting"
  | .admitted => "admitted"
  | .computeStarted => "compute_started"
  | .computeCompleted => "compute_completed"
  | .collectiveStarted => "collective_started"
  | .collectiveCompleted => "collective_completed"
  | .stepCompleted => "step_completed"
  | .succeeded => "succeeded"
  | .failed => "failed"
  | .cancelled => "cancelled"
  | .synchronizationStarted => "synchronization_started"
  | .stragglerStarted => "straggler_started"

def collectiveTransitionName : CollectiveTransition → String
  | .submitted => "submitted"
  | .phaseStarted => "phase_started"
  | .roundStarted => "round_started"
  | .roundCompleted => "round_completed"
  | .transferIssued => "transfer_issued"
  | .succeeded => "succeeded"
  | .failed => "failed"
  | .cancelled => "cancelled"

def transferTransitionName : TransferTransition → String
  | .submitted => "submitted"
  | .chunkQueued => "chunk_queued"
  | .chunkServiceStarted => "chunk_service_started"
  | .chunkSerialized => "chunk_serialized"
  | .chunkDelivered => "chunk_delivered"
  | .chunkDropped => "chunk_dropped"
  | .succeeded => "succeeded"
  | .failed => "failed"

def transferReasonName : TransferReason → String
  | .none => "none"
  | .bufferFull => "buffer_full"
  | .resourceDown => "resource_down"

def queueTransitionName : QueueTransition → String
  | .enqueued => "enqueued"
  | .serviceStarted => "service_started"
  | .serviceCompleted => "service_completed"
  | .marked => "marked"
  | .dropped => "dropped"

def routingOutcomeName : RoutingDecisionOutcome → String
  | .selected => "selected"
  | .noRoute => "no_route"
  | .rejected => "rejected"

def placementOutcomeName : PlacementDecisionOutcome → String
  | .placed => "placed"
  | .waiting => "waiting"
  | .rejected => "rejected"

def failureTransitionName : FailureTransition → String
  | .scheduled => "scheduled"
  | .detected => "detected"
  | .applied => "applied"
  | .recoveryStarted => "recovery_started"
  | .recovered => "recovered"

def failureResourceName : FailureResourceKind → String
  | .link => "link"
  | .port => "port"
  | .switch => "switch"
  | .gpu => "gpu"
  | .nic => "nic"

def runOutcomeName : TelemetryRunOutcome → String
  | .completed => "completed"
  | .stopped => "stopped"
  | .failed => "failed"

/-! ## Arrays -/

def appendLabel (label : MetricLabelValue) : List Char :=
  "\x7b\"name\":".toList ++ appendString (labelName label.label) ++
    ",\"value\":".toList ++ appendU64 label.value ++
    "\x7d".toList

def appendLabels (labels : MetricLabels) : List Char :=
  "[".toList ++ Json.separated (labels.values.map appendLabel) ++ "]".toList

def appendIdArray {Tag : Type} (values : List (StrongId Tag)) : List Char :=
  "[".toList ++ Json.separated (values.map fun id => appendU64 id.value) ++ "]".toList

def appendDirectedLink (value : Topology.DirectedLinkId) : List Char :=
  "\x7b\"link\":".toList ++ appendU64 value.link.value ++
    ",\"direction\":".toList ++ appendU64 value.direction.value ++
    "\x7d".toList

def appendDirectedLinkArray (values : List Topology.DirectedLinkId) : List Char :=
  "[".toList ++ Json.separated (values.map appendDirectedLink) ++ "]".toList

/-! ## The header -/

def appendLimits (limits : TelemetryLimits) : List Char :=
  "\x7b\"metric_series\":".toList ++ appendU64 limits.metricSeries ++
    ",\"decision_records\":".toList ++ appendU64 limits.decisionRecords ++
    ",\"domain_records\":".toList ++ appendU64 limits.domainRecords ++
    ",\"samples\":".toList ++ appendU64 limits.samples ++
    ",\"histogram_boundaries\":".toList ++ appendU64 limits.histogramBoundaries ++
    ",\"correlation_edges\":".toList ++ appendU64 limits.correlationEdges ++
    ",\"serialized_bytes\":".toList ++ appendU64 limits.serializedBytes ++
    "\x7d".toList

def appendConfiguration (configuration : TelemetryConfiguration) : List Char :=
  "\x7b\"mode\":".toList ++ appendString (modeName configuration.mode) ++
    ",\"sample_interval_ns\":".toList ++ appendU64 configuration.sampleIntervalNs ++
    ",\"catalog_version\":".toList ++ appendU64 telemetryCatalogVersion ++
    ",\"limits\":".toList ++ appendLimits configuration.limits ++
    "\x7d".toList

def appendRoutingPolicy (metadata : TelemetryRunMetadata) : List Char :=
  "\x7b\"name\":".toList ++ appendString metadata.routingPolicy ++
    ",\"version\":".toList ++ appendU64 metadata.routingPolicyVersion ++
    "\x7d".toList

def appendSchedulingPolicy (metadata : TelemetryRunMetadata) : List Char :=
  match metadata.schedulingPolicy with
  | some name =>
    "\x7b\"name\":".toList ++ appendString name ++
      ",\"version\":".toList ++ appendU64 metadata.schedulingPolicyVersion ++
      "\x7d".toList
  | none => "null".toList

def appendTerminal (metadata : TelemetryRunMetadata) : List Char :=
  "\x7b\"status\":".toList ++ appendString (runOutcomeName metadata.outcome) ++
    ",\"complete\":".toList ++ appendBool metadata.complete ++
    ",\"final_time_ns\":".toList ++ appendU64 metadata.finalTime ++
    "\x7d".toList

def appendCommonMetadata (schema : String) (snapshot : TelemetrySnapshot)
    (metadata : TelemetryRunMetadata) : List Char :=
  "\"schema\":".toList ++ appendString schema ++
    ",\"schema_version\":".toList ++ appendU64 telemetrySchemaVersion ++
    ",\"simulator_version\":".toList ++ appendString version ++
    ",\"synthetic\":".toList ++ appendBool metadata.synthetic ++
    ",\"seed\":".toList ++ appendU64 metadata.seed ++
    ",\"scenario_digest_fnv1a64\":".toList ++ appendString (hexU64 metadata.scenarioDigest) ++
    ",\"routing_policy\":".toList ++ appendRoutingPolicy metadata ++
    ",\"scheduling_policy\":".toList ++ appendSchedulingPolicy metadata ++
    ",\"telemetry\":".toList ++ appendConfiguration snapshot.configuration ++
    ",\"terminal\":".toList ++ appendTerminal metadata

/-! ## Records -/

/-- One optional field; the flag says that no field has been appended yet. -/
def appendCorrelationField (output : List Char × Bool) (name : String)
    (value : Option (List Char)) : List Char × Bool :=
  match value with
  | none => output
  | some text =>
    (output.1 ++ (if output.2 then [] else [',']) ++ appendString name ++ ':' :: text, false)

def idField {Tag : Type} (value : Option (StrongId Tag)) : Option (List Char) :=
  value.map fun id => appendU64 id.value

def appendCorrelation (correlation : Correlation) : List Char :=
  let output := (['\x7b'], true)
  let output := appendCorrelationField output "gpu" (idField correlation.gpu)
  let output := appendCorrelationField output "nic" (idField correlation.nic)
  let output := appendCorrelationField output "switch" (idField correlation.switchEntity)
  let output := appendCorrelationField output "port" (idField correlation.port)
  let output := appendCorrelationField output "rack" (idField correlation.rack)
  let output := appendCorrelationField output "link" (correlation.link.map appendDirectedLink)
  let output := appendCorrelationField output "event" (idField correlation.event)
  let output := appendCorrelationField output "cause" (idField correlation.cause)
  let output := appendCorrelationField output "job" (idField correlation.job)
  let output := appendCorrelationField output "collective" (idField correlation.collective)
  let output := appendCorrelationField output "transfer" (idField correlation.transfer)
  let output := appendCorrelationField output "chunk" (idField correlation.chunk)
  let output := appendCorrelationField output "routing_decision"
    (idField correlation.routingDecision)
  let output := appendCorrelationField output "placement_decision"
    (idField correlation.placementDecision)
  let output := appendCorrelationField output "failure" (idField correlation.failure)
  output.1 ++ ['\x7d']

/-- The transfer that a routing decision is about, if there is one. -/
def appendTransfer (value : Option TransferId) : List Char :=
  match value with
  | some id => appendU64 id.value
  | none => "null".toList

def appendObservation : TelemetryObservation → List Char
  | .counter value =>
    "\x7b\"metric_id\":".toList ++ appendU64 value.metric.value ++
      ",\"labels\":".toList ++ appendLabels value.labels ++
      ",\"amount\":".toList ++ appendU64 value.amount ++
      "\x7d".toList
  | .gauge value =>
    "\x7b\"metric_id\":".toList ++ appendU64 value.metric.value ++
      ",\"labels\":".toList ++ appendLabels value.labels ++
      ",\"value\":".toList ++ appendU64 value.value ++
      "\x7d".toList
  | .histogram value =>
    "\x7b\"metric_id\":".toList ++ appendU64 value.metric.value ++
      ",\"labels\":".toList ++ appendLabels value.labels ++
      ",\"value\":".toList ++ appendU64 value.value ++
      "\x7d".toList
  | .simulation value =>
    "\x7b\"transition\":".toList ++ appendString (simulationTransitionName value.transition) ++
      ",\"pending_events\":".toList ++ appendU64 value.pendingEvents ++
      "\x7d".toList
  | .job value =>
    "\x7b\"transition\":".toList ++ appendString (jobTransitionName value.transition) ++
      ",\"step\":".toList ++ appendU64 value.step ++
      ",\"bucket\":".toList ++ appendU64 value.bucket ++
      ",\"worker\":".toList ++ appendU64 value.worker ++
      ",\"allocated_workers\":".toList ++ appendU64 value.allocatedWorkers ++
      "\x7d".toList
  | .collective value =>
    "\x7b\"transition\":".toList ++ appendString (collectiveTransitionName value.transition) ++
      ",\"phase\":".toList ++ appendString (phaseName value.phase) ++
      ",\"round\":".toList ++ appendU64 value.round ++
      ",\"bytes\":".toList ++ appendU64 value.bytes ++
      "\x7d".toList
  | .transfer value =>
    "\x7b\"transition\":".toList ++ appendString (transferTransitionName value.transition) ++
      ",\"bytes\":".toList ++ appendU64 value.bytes ++
      ",\"hop\":".toList ++ appendU64 value.hop ++
      ",\"reason\":".toList ++ appendString (transferReasonName value.reason) ++
      "\x7d".toList
  | .queue value =>
    "\x7b\"transition\":".toList ++ appendString (queueTransitionName value.transition) ++
      ",\"chunk_bytes\":".toList ++ appendU64 value.chunkBytes ++
      ",\"waiting_bytes\":".toList ++ appendU64 value.waitingBytes ++
      ",\"waiting_chunks\":".toList ++ appendU64 value.waitingChunks ++
      "\x7d".toList
  | .routingDecision value =>
    "\x7b\"decision\":".toList ++ appendU64 value.decision.value ++
      ",\"policy\":".toList ++ appendString value.policy ++
      ",\"policy_version\":".toList ++ appendU64 value.policyVersion ++
      ",\"operational_revision\":".toList ++ appendU64 value.operationalRevision ++
      ",\"candidate_count\":".toList ++ appendU64 value.candidateCount ++
      ",\"selected_path\":".toList ++ appendDirectedLinkArray value.selectedPath ++
      ",\"score\":".toList ++ appendU64 value.score ++
      ",\"reason\":".toList ++ appendString value.reason ++
      ",\"transfer\":".toList ++ appendTransfer value.transfer ++
      ",\"outcome\":".toList ++ appendString (routingOutcomeName value.outcome) ++
      "\x7d".toList
  | .placementDecision value =>
    "\x7b\"decision\":".toList ++ appendU64 value.decision.value ++
      ",\"policy\":".toList ++ appendString value.policy ++
      ",\"policy_version\":".toList ++ appendU64 value.policyVersion ++
      ",\"priority\":".toList ++ appendU64 value.priority ++
      ",\"requested_workers\":".toList ++ appendU64 value.requestedWorkers ++
      ",\"selected_workers\":".toList ++ appendIdArray value.selectedWorkers ++
      ",\"rack_count\":".toList ++ appendU64 value.rackCount ++
      ",\"nic_count\":".toList ++ appendU64 value.nicCount ++
      ",\"cross_rack_ring_edges\":".toList ++ appendU64 value.crossRackRingEdges ++
      ",\"reason\":".toList ++ appendString value.reason ++
      ",\"outcome\":".toList ++ appendString (placementOutcomeName value.outcome) ++
      "\x7d".toList
  | .failure value =>
    "\x7b\"failure\":".toList ++ appendU64 value.failure.value ++
      ",\"transition\":".toList ++ appendString (failureTransitionName value.transition) ++
      ",\"resource_kind\":".toList ++ appendString (failureResourceName value.resourceKind) ++
      ",\"resource_id\":".toList ++ appendU64 value.resourceId ++
      ",\"affected_bytes\":".toList ++ appendU64 value.affectedBytes ++
      "\x7d".toList

def recordLine (record : TelemetryRecord) : List Char :=
  "\x7b\"type\":\"record\",\"record_id\":".toList ++ appendU64 record.id.value ++
    ",\"timestamp_ns\":".toList ++ appendU64 record.timestamp ++
    ",\"kind\":".toList ++ appendString (recordKindName (recordKind record.observation)) ++
    ",\"correlation\":".toList ++ appendCorrelation record.correlation ++
    ",\"observation\":".toList ++ appendObservation record.observation ++
    "\x7d\n".toList

def sampleLine (sample : MetricSample) : List Char :=
  "\x7b\"type\":\"sample\",\"timestamp_ns\":".toList ++ appendU64 sample.timestamp ++
    ",\"metric_id\":".toList ++ appendU64 sample.metric.value ++
    ",\"labels\":".toList ++ appendLabels sample.labels ++
    ",\"kind\":".toList ++ appendString (kindName sample.kind) ++
    ",\"value\":".toList ++ appendU64 sample.value ++
    "\x7d\n".toList

def headerLine (snapshot : TelemetrySnapshot) (metadata : TelemetryRunMetadata) : List Char :=
  "\x7b\"type\":\"header\",".toList ++
    appendCommonMetadata "nexuslab.telemetry.records" snapshot metadata ++
    "\x7d\n".toList

def footerLine (snapshot : TelemetrySnapshot) (metadata : TelemetryRunMetadata)
    (digest : UInt64) : List Char :=
  "\x7b\"type\":\"footer\",\"record_count\":".toList ++ appendU64 snapshot.records.length ++
    ",\"sample_count\":".toList ++ appendU64 snapshot.samples.length ++
    ",\"complete\":".toList ++ appendBool metadata.complete ++
    ",\"content_digest_fnv1a64\":".toList ++ appendString (hexU64 digest) ++
    "\x7d\n".toList

/-! ## The file -/

def validateSerialization (snapshot : TelemetrySnapshot) (metadata : TelemetryRunMetadata) :
    Except Error Unit := do
  validateConfiguration snapshot.configuration
  if snapshot.finalized = false then
    throw (.logicError "telemetry must be finalized before serialization")
  if metadata.routingPolicy = "" then
    throw (.invalidArgument "telemetry routing policy metadata is required")
  if snapshot.records.getLast?.any (·.timestamp > metadata.finalTime) then
    throw (.invalidArgument "telemetry record exceeds run final time")

def enforceSerializedLimit (snapshot : TelemetrySnapshot) (output : List Char) :
    Except Error Unit :=
  if output.length > snapshot.configuration.limits.serializedBytes then
    throw (.lengthError "telemetry serialized byte limit exceeded")
  else pure ()

/-- The output so far and its digest, with one more line. -/
def appendLine (output : List Char × UInt64) (line : List Char) : List Char × UInt64 :=
  (output.1 ++ line, hashText output.2 line)

def serializeRecordsJsonl (snapshot : TelemetrySnapshot) (metadata : TelemetryRunMetadata) :
    Except Error String := do
  validateSerialization snapshot metadata
  let header := headerLine snapshot metadata
  let output := (header, hashText Sim.fnvOffsetBasis header)
  let output := (snapshot.records.map recordLine).foldl appendLine output
  let output := (snapshot.samples.map sampleLine).foldl appendLine output
  let text := output.1 ++ footerLine snapshot metadata output.2
  enforceSerializedLimit snapshot text
  return String.ofList text

end NexusLab.Telemetry
