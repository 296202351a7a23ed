import NexusLab.Foundation.Exec
import NexusLab.Foundation.OrderedMap
import NexusLab.Basic
import Mathlib.Data.List.Lex
import Mathlib.Data.Prod.Lex

/-! # The metric catalogue and the metric registry

A metric is a counter, a gauge or a histogram with a fixed set of labels; the catalogue is static
and the registry holds one state for every metric and label combination it has seen. -/

namespace NexusLab.Telemetry

open Foundation

/-! ## Configuration -/

inductive TelemetryMode where
  | off
  | summary
  | sampled
  | full
deriving DecidableEq

structure TelemetryLimits where
  metricSeries : Nat := 100000
  decisionRecords : Nat := 100000
  domainRecords : Nat := 1000000
  samples : Nat := 1000000
  histogramBoundaries : Nat := 64
  correlationEdges : Nat := 4000000
  serializedBytes : Nat := 1073741824
deriving DecidableEq

structure TelemetryConfiguration where
  mode : TelemetryMode := .summary
  sampleIntervalNs : Nat := 1000000
  limits : TelemetryLimits := {}
deriving DecidableEq

/-! ## Kinds, units and labels -/

inductive MetricKind where
  | counter
  | gauge
  | histogram
  | derivedSummary
deriving DecidableEq

inductive MetricUnit where
  | count
  | bytes
  | chunks
  | nanoseconds
  | bitsPerSecond
  | ratioPartsPerMillion
deriving DecidableEq

inductive MetricLabel where
  | job
  | collective
  | link
  | direction
  | policy
  | outcome
  | reason
  | failure
  | resource
deriving DecidableEq

def MetricLabel.value : MetricLabel → Nat
  | .job => 1
  | .collective => 2
  | .link => 3
  | .direction => 4
  | .policy => 5
  | .outcome => 6
  | .reason => 7
  | .failure => 8
  | .resource => 9

theorem MetricLabel.value_injective : Function.Injective MetricLabel.value := by
  intro a b same
  cases a <;> cases b <;> first | rfl | cases same

/-- The metric label of a policy's name; a name the catalogue does not know is an extension. -/
def policyLabelValue (policy : String) : Nat :=
  if policy = "ecmp" then 1
  else if policy = "shortest-path" then 2
  else if policy = "least-loaded" then 3
  else if policy = "queue-aware" then 4
  else if policy = "first-fit" then 10
  else if policy = "random" then 11
  else if policy = "rack-local" then 12
  else if policy = "compact" then 13
  else 1000

abbrev MetricLabelMask := BitVec 32

def labelMask (label : MetricLabel) : MetricLabelMask := 1 <<< (label.value - 1)

structure MetricLabelValue where
  label : MetricLabel
  value : Nat
deriving DecidableEq

def MetricLabelValue.key (v : MetricLabelValue) : ℕ ×ₗ ℕ := toLex (v.label.value, v.value)

theorem MetricLabelValue.key_injective : Function.Injective MetricLabelValue.key := by
  rintro ⟨l, v⟩ ⟨l', v'⟩ same
  have pair : (l.value, v) = (l'.value, v') := toLex.injective same
  obtain ⟨labels, values⟩ := Prod.mk.inj pair
  rw [MetricLabel.value_injective labels, values]

instance : LinearOrder MetricLabelValue :=
  LinearOrder.lift' MetricLabelValue.key MetricLabelValue.key_injective

/-- At most four labels in increasing order, each label once, so that the same labels given in
another order are the same value. -/
structure MetricLabels where
  values : List MetricLabelValue
  short : values.length ≤ 4
  increasing : values.Pairwise (fun a b => a.label.value < b.label.value)
deriving DecidableEq

namespace MetricLabels

def none : MetricLabels := ⟨[], by decide, List.Pairwise.nil⟩

def ofList (values : List MetricLabelValue) : Except Error MetricLabels :=
  if 4 < values.length then .error (.lengthError "telemetry metric label limit exceeded")
  else
    let ordered := values.insertionSort (· ≤ ·)
    if h : ordered.length ≤ 4 ∧ ordered.Pairwise (fun a b => a.label.value < b.label.value) then
      .ok ⟨ordered, h.1, h.2⟩
    else .error (.invalidArgument "duplicate telemetry metric label")

def mask (labels : MetricLabels) : MetricLabelMask :=
  labels.values.foldl (fun result value => result ||| labelMask value.label) 0

theorem values_injective : Function.Injective MetricLabels.values := by
  rintro ⟨a, _, _⟩ ⟨b, _, _⟩ same
  cases same
  rfl

end MetricLabels

/-! ## The catalogue -/

inductive MetricId where
  | simulationDispatchedEvents
  | simulationCancelledEvents
  | simulationFinalTimeNs
  | simulationRngDraws
  | simulationTerminalTotal
  | jobCompletionTimeNs
  | jobSchedulingWaitNs
  | jobComputeGpuNs
  | jobCommunicationNs
  | jobSynchronizationWaitNs
  | jobStragglerDelayNs
  | jobGpuIdleNs
  | jobCompletedSteps
  | jobTerminalTotal
  | collectiveDurationNs
  | collectivePlannedBytes
  | collectiveIssuedFabricBytes
  | collectiveIssuedLocalBytes
  | collectiveDeliveredBytes
  | linkAcceptedBytes
  | linkAcceptedChunks
  | linkSerializedBytes
  | linkSerializedChunks
  | linkMarkedBytes
  | linkMarkedChunks
  | linkDroppedBufferFullBytes
  | linkDroppedBufferFullChunks
  | linkDroppedDownBytes
  | linkDroppedDownChunks
  | linkQueueWaitingBytes
  | linkQueueWaitingChunks
  | linkMaximumWaitingBytes
  | linkSerializerBusyNs
  | linkUtilizationPpm
  | transferTerminalTotal
  | routingDecisionTotal
  | placementDecisionTotal
  | placementCrossRackRingEdges
  | placementRackCount
  | placementNicCount
  | failureStateTransitionTotal
  | failureAffectedJobs
  | failureAffectedTrafficBytes
  | failureDetectionTimeNs
  | failureRecoveryTimeNs
deriving DecidableEq

def MetricId.value : MetricId → Nat
  | .simulationDispatchedEvents => 1
  | .simulationCancelledEvents => 2
  | .simulationFinalTimeNs => 3
  | .simulationRngDraws => 4
  | .simulationTerminalTotal => 5
  | .jobCompletionTimeNs => 10
  | .jobSchedulingWaitNs => 11
  | .jobComputeGpuNs => 12
  | .jobCommunicationNs => 13
  | .jobSynchronizationWaitNs => 14
  | .jobStragglerDelayNs => 15
  | .jobGpuIdleNs => 16
  | .jobCompletedSteps => 17
  | .jobTerminalTotal => 18
  | .collectiveDurationNs => 30
  | .collectivePlannedBytes => 31
  | .collectiveIssuedFabricBytes => 32
  | .collectiveIssuedLocalBytes => 33
  | .collectiveDeliveredBytes => 34
  | .linkAcceptedBytes => 50
  | .linkAcceptedChunks => 51
  | .linkSerializedBytes => 52
  | .linkSerializedChunks => 53
  | .linkMarkedBytes => 54
  | .linkMarkedChunks => 55
  | .linkDroppedBufferFullBytes => 56
  | .linkDroppedBufferFullChunks => 57
  | .linkDroppedDownBytes => 58
  | .linkDroppedDownChunks => 59
  | .linkQueueWaitingBytes => 60
  | .linkQueueWaitingChunks => 61
  | .linkMaximumWaitingBytes => 62
  | .linkSerializerBusyNs => 63
  | .linkUtilizationPpm => 64
  | .transferTerminalTotal => 70
  | .routingDecisionTotal => 80
  | .placementDecisionTotal => 81
  | .placementCrossRackRingEdges => 82
  | .placementRackCount => 83
  | .placementNicCount => 84
  | .failureStateTransitionTotal => 100
  | .failureAffectedJobs => 101
  | .failureAffectedTrafficBytes => 102
  | .failureDetectionTimeNs => 103
  | .failureRecoveryTimeNs => 104

theorem MetricId.value_injective : Function.Injective MetricId.value := by
  intro a b same
  cases a <;> cases b <;> first | rfl | exact absurd same (by decide)

structure MetricDefinition where
  id : MetricId
  name : String
  description : String
  kind : MetricKind
  unit : MetricUnit
  requiredLabels : MetricLabelMask := 0
  allowedLabels : MetricLabelMask := 0
  histogramBoundaries : List Nat := []
deriving DecidableEq

def outcomeLabel : MetricLabelMask := labelMask .outcome
def linkLabels : MetricLabelMask := labelMask .link ||| labelMask .direction
def policyOutcomeLabels : MetricLabelMask := labelMask .policy ||| labelMask .outcome
def failureLabels : MetricLabelMask := labelMask .failure ||| labelMask .resource

def latencyBoundaries : List Nat :=
  [1000, 10000, 100000, 1000000, 10000000, 100000000, 1000000000, 10000000000, 60000000000]

def countBoundaries : List Nat :=
  [0, 1, 2, 4, 8, 16, 32, 64, 128, 256, 512, 1024, 2048, 8192]

def metricCatalog : List MetricDefinition :=
  [
    ⟨.simulationDispatchedEvents, "simulation_dispatched_events_total",
      "Events dispatched by the simulation kernel",
      .counter, .count, 0, 0, []⟩,
    ⟨.simulationCancelledEvents, "simulation_cancelled_events_total",
      "Events cancelled by the simulation kernel",
      .counter, .count, 0, 0, []⟩,
    ⟨.simulationFinalTimeNs, "simulation_final_time_ns",
      "Final simulated timestamp",
      .gauge, .nanoseconds, 0, 0, []⟩,
    ⟨.simulationRngDraws, "simulation_rng_draws_total",
      "Deterministic random-number draws",
      .counter, .count, 0, 0, []⟩,
    ⟨.simulationTerminalTotal, "simulation_terminal_total",
      "Terminal simulation outcomes",
      .counter, .count, outcomeLabel, outcomeLabel, []⟩,
    ⟨.jobCompletionTimeNs, "job_completion_time_ns",
      "Terminal job elapsed time",
      .histogram, .nanoseconds, 0, 0, latencyBoundaries⟩,
    ⟨.jobSchedulingWaitNs, "job_scheduling_wait_ns",
      "Arrival-to-allocation scheduling wait",
      .histogram, .nanoseconds, 0, 0, latencyBoundaries⟩,
    ⟨.jobComputeGpuNs, "job_compute_gpu_ns",
      "Allocated GPU compute resource time",
      .counter, .nanoseconds, 0, 0, []⟩,
    ⟨.jobCommunicationNs, "job_communication_ns",
      "Job critical-path communication time",
      .counter, .nanoseconds, 0, 0, []⟩,
    ⟨.jobSynchronizationWaitNs, "job_synchronization_wait_ns",
      "Job critical-path synchronization wait",
      .counter, .nanoseconds, 0, 0, []⟩,
    ⟨.jobStragglerDelayNs, "job_straggler_delay_ns",
      "Configured worker straggler delay",
      .counter, .nanoseconds, 0, 0, []⟩,
    ⟨.jobGpuIdleNs, "job_gpu_idle_ns",
      "Allocated idle GPU resource time",
      .counter, .nanoseconds, 0, 0, []⟩,
    ⟨.jobCompletedSteps, "job_completed_steps",
      "Completed training steps",
      .counter, .count, 0, 0, []⟩,
    ⟨.jobTerminalTotal, "job_terminal_total",
      "Terminal job outcomes",
      .counter, .count, outcomeLabel, outcomeLabel, []⟩,
    ⟨.collectiveDurationNs, "collective_duration_ns",
      "Terminal collective duration",
      .histogram, .nanoseconds, 0, 0, latencyBoundaries⟩,
    ⟨.collectivePlannedBytes, "collective_planned_bytes_total",
      "Logical collective bytes planned",
      .counter, .bytes, 0, 0, []⟩,
    ⟨.collectiveIssuedFabricBytes, "collective_issued_fabric_bytes_total",
      "Collective bytes issued to the fabric",
      .counter, .bytes, 0, 0, []⟩,
    ⟨.collectiveIssuedLocalBytes, "collective_issued_local_bytes_total",
      "Collective bytes issued locally",
      .counter, .bytes, 0, 0, []⟩,
    ⟨.collectiveDeliveredBytes, "collective_delivered_bytes_total",
      "Collective bytes delivered",
      .counter, .bytes, 0, 0, []⟩,
    ⟨.linkAcceptedBytes, "link_accepted_bytes_total",
      "Bytes accepted by a link queue",
      .counter, .bytes, linkLabels, linkLabels, []⟩,
    ⟨.linkAcceptedChunks, "link_accepted_chunks_total",
      "Chunks accepted by a link queue",
      .counter, .chunks, linkLabels, linkLabels, []⟩,
    ⟨.linkSerializedBytes, "link_serialized_bytes_total",
      "Bytes fully serialized",
      .counter, .bytes, linkLabels, linkLabels, []⟩,
    ⟨.linkSerializedChunks, "link_serialized_chunks_total",
      "Chunks fully serialized",
      .counter, .chunks, linkLabels, linkLabels, []⟩,
    ⟨.linkMarkedBytes, "link_marked_bytes_total",
      "Bytes congestion marked at a link",
      .counter, .bytes, linkLabels, linkLabels, []⟩,
    ⟨.linkMarkedChunks, "link_marked_chunks_total",
      "Chunks congestion marked at a link",
      .counter, .chunks, linkLabels, linkLabels, []⟩,
    ⟨.linkDroppedBufferFullBytes, "link_dropped_buffer_full_bytes_total",
      "Bytes dropped because the waiting buffer was full",
      .counter, .bytes, linkLabels, linkLabels, []⟩,
    ⟨.linkDroppedBufferFullChunks, "link_dropped_buffer_full_chunks_total",
      "Chunks dropped because the waiting buffer was full",
      .counter, .chunks, linkLabels, linkLabels, []⟩,
    ⟨.linkDroppedDownBytes, "link_dropped_down_bytes_total",
      "Bytes dropped because a resource was down",
      .counter, .bytes, linkLabels, linkLabels, []⟩,
    ⟨.linkDroppedDownChunks, "link_dropped_down_chunks_total",
      "Chunks dropped because a resource was down",
      .counter, .chunks, linkLabels, linkLabels, []⟩,
    ⟨.linkQueueWaitingBytes, "link_queue_waiting_bytes",
      "Current waiting queue bytes",
      .gauge, .bytes, linkLabels, linkLabels, []⟩,
    ⟨.linkQueueWaitingChunks, "link_queue_waiting_chunks",
      "Current waiting queue chunks",
      .gauge, .chunks, linkLabels, linkLabels, []⟩,
    ⟨.linkMaximumWaitingBytes, "link_maximum_waiting_bytes",
      "Maximum observed waiting queue bytes",
      .gauge, .bytes, linkLabels, linkLabels, []⟩,
    ⟨.linkSerializerBusyNs, "link_serializer_busy_ns_total",
      "Elapsed link serializer busy time",
      .counter, .nanoseconds, linkLabels, linkLabels, []⟩,
    ⟨.linkUtilizationPpm, "link_utilization_ratio_ppm",
      "Link serializer utilization in parts per million",
      .derivedSummary, .ratioPartsPerMillion, linkLabels, linkLabels, []⟩,
    ⟨.transferTerminalTotal, "transfer_terminal_total",
      "Terminal transfer outcomes",
      .counter, .count, outcomeLabel, outcomeLabel, []⟩,
    ⟨.routingDecisionTotal, "routing_decision_total",
      "Routing decisions",
      .counter, .count, policyOutcomeLabels, policyOutcomeLabels, []⟩,
    ⟨.placementDecisionTotal, "placement_decision_total",
      "Placement decisions",
      .counter, .count, policyOutcomeLabels, policyOutcomeLabels, []⟩,
    ⟨.placementCrossRackRingEdges, "placement_cross_rack_ring_edges",
      "Cross-rack edges in the selected rank ring",
      .histogram, .count, 0, 0, countBoundaries⟩,
    ⟨.placementRackCount, "placement_rack_count",
      "Racks used by a placement",
      .histogram, .count, 0, 0, countBoundaries⟩,
    ⟨.placementNicCount, "placement_nic_count",
      "NICs used by a placement",
      .histogram, .count, 0, 0, countBoundaries⟩,
    ⟨.failureStateTransitionTotal, "failure_state_transition_total",
      "Failure resource-state transitions",
      .counter, .count, failureLabels, failureLabels, []⟩,
    ⟨.failureAffectedJobs, "failure_affected_jobs_total",
      "Jobs affected by failures",
      .counter, .count, (labelMask .failure), failureLabels, []⟩,
    ⟨.failureAffectedTrafficBytes, "failure_affected_traffic_bytes_total",
      "Traffic bytes affected by failures",
      .counter, .bytes, (labelMask .failure), failureLabels, []⟩,
    ⟨.failureDetectionTimeNs, "failure_detection_time_ns",
      "Failure detection latency",
      .histogram, .nanoseconds, 0, (labelMask .resource), latencyBoundaries⟩,
    ⟨.failureRecoveryTimeNs, "failure_recovery_time_ns",
      "Failure recovery latency",
      .histogram, .nanoseconds, 0, (labelMask .resource), latencyBoundaries⟩]

def metricDefinition (id : MetricId) : Except Error MetricDefinition :=
  match metricCatalog.find? (fun definition => definition.id = id) with
  | some definition => .ok definition
  | none => .error (.invalidArgument "unknown telemetry metric identifier")

def knownLabelMask : MetricLabelMask :=
  labelMask .job ||| labelMask .collective ||| labelMask .link ||| labelMask .direction |||
    labelMask .policy ||| labelMask .outcome ||| labelMask .reason ||| labelMask .failure |||
    labelMask .resource

def validExternalName (name : String) : Bool :=
  let characters := name.toList
  characters ≠ [] && characters.head? ≠ some '_' && characters.getLast? ≠ some '_' &&
    characters.all fun c => ('a' ≤ c && c ≤ 'z') || ('0' ≤ c && c ≤ '9') || c = '_'

def validateDefinition (maximumHistogramBoundaries : Nat) (earlier : List MetricDefinition)
    (definition : MetricDefinition) : Except Error Unit :=
  if validExternalName definition.name = false ∨ definition.description = "" then
    .error (.invalidArgument "invalid telemetry metric definition text")
  -- what is required is allowed, and what is allowed is known
  else if definition.requiredLabels &&& ~~~definition.allowedLabels ≠ 0 ∨
      definition.allowedLabels &&& ~~~knownLabelMask ≠ 0 then
    .error (.invalidArgument "invalid telemetry metric label mask")
  else if ¬ (definition.kind = .histogram ↔ definition.histogramBoundaries ≠ []) then
    .error (.invalidArgument "telemetry histogram boundaries do not match metric kind")
  else if definition.histogramBoundaries.length > maximumHistogramBoundaries ∨
      ¬ definition.histogramBoundaries.Pairwise (· < ·) then
    .error (.invalidArgument "invalid telemetry histogram boundaries")
  else if earlier.any (fun prior => prior.id = definition.id || prior.name = definition.name) then
    .error (.invalidArgument "duplicate telemetry metric definition")
  else .ok ()

def validateMetricCatalog (catalog : List MetricDefinition) (maximumHistogramBoundaries : Nat) :
    Except Error Unit :=
  let rec check (earlier : List MetricDefinition) : List MetricDefinition → Except Error Unit
    | [] => .ok ()
    | definition :: rest =>
      match validateDefinition maximumHistogramBoundaries earlier definition with
      | .error e => .error e
      | .ok () => check (earlier ++ [definition]) rest
  if catalog = [] then .error (.invalidArgument "telemetry metric catalog must be nonempty")
  else check [] catalog

def validateConfiguration (configuration : TelemetryConfiguration) : Except Error Unit :=
  if configuration.sampleIntervalNs = 0 ∨ configuration.limits.metricSeries = 0 ∨
      configuration.limits.decisionRecords = 0 ∨ configuration.limits.domainRecords = 0 ∨
      configuration.limits.samples = 0 ∨ configuration.limits.histogramBoundaries = 0 ∨
      configuration.limits.correlationEdges = 0 ∨ configuration.limits.serializedBytes = 0 then
    .error (.invalidArgument "telemetry limits and sample interval must be positive")
  else validateMetricCatalog metricCatalog configuration.limits.histogramBoundaries

/-! ## Series -/

structure MetricSeriesKey where
  metric : MetricId
  labels : MetricLabels
deriving DecidableEq

def MetricSeriesKey.key (k : MetricSeriesKey) : ℕ ×ₗ List MetricLabelValue :=
  toLex (k.metric.value, k.labels.values)

theorem MetricSeriesKey.key_injective : Function.Injective MetricSeriesKey.key := by
  rintro ⟨m, l⟩ ⟨m', l'⟩ same
  have pair : (m.value, l.values) = (m'.value, l'.values) := toLex.injective same
  obtain ⟨metrics, labels⟩ := Prod.mk.inj pair
  rw [MetricId.value_injective metrics, MetricLabels.values_injective labels]

instance : LinearOrder MetricSeriesKey :=
  LinearOrder.lift' MetricSeriesKey.key MetricSeriesKey.key_injective

structure MetricSeriesState where
  kind : MetricKind
  scalar : Nat := 0
  histogramBuckets : List Nat := []
  histogramCount : Nat := 0
  histogramSum : Nat := 0
deriving DecidableEq

structure MetricSeriesSnapshot where
  metric : MetricId
  labels : MetricLabels
  kind : MetricKind
  scalar : Nat
  histogramBuckets : List Nat
  histogramCount : Nat
  histogramSum : Nat
deriving DecidableEq

def validateLabels (definition : MetricDefinition) (labels : MetricLabels) : Except Error Unit :=
  if labels.mask &&& definition.requiredLabels ≠ definition.requiredLabels then
    .error (.invalidArgument "telemetry metric is missing a required label")
  else if labels.mask &&& ~~~definition.allowedLabels ≠ 0 then
    .error (.invalidArgument "telemetry metric received an unsupported label")
  else .ok ()

def checkedAdd (what : String) (left right : Nat) : Except Error Nat :=
  if right > maxU64 - left then .error (.overflowError what) else .ok (left + right)

/-- `std::lower_bound`: the index of the first boundary that is not below the value. -/
def histogramBucket (boundaries : List Nat) (value : Nat) : Nat :=
  boundaries.findIdx (value ≤ ·)

/-! ## The registry -/

structure MetricRegistry where
  maximumSeries : Nat
  series : OrderedMap MetricSeriesKey MetricSeriesState := .empty

namespace MetricRegistry

def create (maximumSeries maximumHistogramBoundaries : Nat) : Except Error MetricRegistry :=
  if maximumSeries = 0 ∨ maximumHistogramBoundaries = 0 then
    .error (.invalidArgument "telemetry metric catalog limits must be positive")
  else (validateMetricCatalog metricCatalog maximumHistogramBoundaries).map fun _ =>
    { maximumSeries }

def validateSeries (r : MetricRegistry) (metric : MetricId) (labels : MetricLabels)
    (expected : MetricKind) : Except Error (Option MetricSeriesState) := do
  let definition ← metricDefinition metric
  validateLabels definition labels
  if definition.kind ≠ expected then
    .error (.invalidArgument "telemetry metric operation does not match metric kind")
  else match r.series.find? ⟨metric, labels⟩ with
    | some state => .ok (some state)
    | none =>
      if r.series.size ≥ r.maximumSeries then
        .error (.lengthError "telemetry metric series limit exceeded")
      else .ok none

/-- The state of a series, which is created when it is missing. -/
def requireSeries (metric : MetricId) (labels : MetricLabels) (expected : MetricKind) :
    Action MetricRegistry MetricSeriesState := do
  let found ← fromExcept ((← get).validateSeries metric labels expected)
  match found with
  | some state => return state
  | none =>
    let definition ← fromExcept (metricDefinition metric)
    let buckets := match expected with
      | .histogram => List.replicate (definition.histogramBoundaries.length + 1) 0
      | _ => []
    let state : MetricSeriesState := { kind := expected, histogramBuckets := buckets }
    modify fun r => { r with series := r.series.insert ⟨metric, labels⟩ state }
    return state

def store (metric : MetricId) (labels : MetricLabels) (state : MetricSeriesState) :
    Action MetricRegistry Unit :=
  modify fun r => { r with series := r.series.insert ⟨metric, labels⟩ state }

def valueOverflow : String := "telemetry metric value overflow"

def increment (metric : MetricId) (labels : MetricLabels) (amount : Nat) :
    Action MetricRegistry Unit := do
  let state ← requireSeries metric labels .counter
  let scalar ← fromExcept (checkedAdd valueOverflow state.scalar amount)
  store metric labels { state with scalar }

def setGauge (metric : MetricId) (labels : MetricLabels) (value : Nat) :
    Action MetricRegistry Unit := do
  let state ← requireSeries metric labels .gauge
  store metric labels { state with scalar := value }

/-- A histogram's state after one more value, with every addition checked before any is kept. -/
def observedState (definition : MetricDefinition) (state : MetricSeriesState) (value : Nat) :
    Except Error MetricSeriesState := do
  let bucket := histogramBucket definition.histogramBoundaries value
  let nextBucket ← checkedAdd valueOverflow (state.histogramBuckets.getD bucket 0) 1
  let nextCount ← checkedAdd valueOverflow state.histogramCount 1
  let nextSum ← checkedAdd valueOverflow state.histogramSum value
  return { state with
    histogramBuckets := state.histogramBuckets.set bucket nextBucket
    histogramCount := nextCount
    histogramSum := nextSum }

def observe (metric : MetricId) (labels : MetricLabels) (value : Nat) :
    Action MetricRegistry Unit := do
  let state ← requireSeries metric labels .histogram
  let definition ← fromExcept (metricDefinition metric)
  let next ← fromExcept (observedState definition state value)
  store metric labels next

def validateIncrement (r : MetricRegistry) (metric : MetricId) (labels : MetricLabels)
    (amount : Nat) : Except Error Unit := do
  match ← r.validateSeries metric labels .counter with
  | some state => (checkedAdd valueOverflow state.scalar amount).map fun _ => ()
  | none => .ok ()

def validateSetGauge (r : MetricRegistry) (metric : MetricId) (labels : MetricLabels) :
    Except Error Unit :=
  (r.validateSeries metric labels .gauge).map fun _ => ()

def validateObserve (r : MetricRegistry) (metric : MetricId) (labels : MetricLabels)
    (value : Nat) : Except Error Unit := do
  match ← r.validateSeries metric labels .histogram with
  | none => .ok ()
  | some state =>
    let definition ← metricDefinition metric
    (observedState definition state value).map fun _ => ()

def snapshotOf (key : MetricSeriesKey) (state : MetricSeriesState) : MetricSeriesSnapshot :=
  ⟨key.metric, key.labels, state.kind, state.scalar, state.histogramBuckets,
    state.histogramCount, state.histogramSum⟩

def find (r : MetricRegistry) (metric : MetricId) (labels : MetricLabels) :
    Option MetricSeriesSnapshot :=
  (r.series.find? ⟨metric, labels⟩).map (snapshotOf ⟨metric, labels⟩)

def snapshots (r : MetricRegistry) : List MetricSeriesSnapshot :=
  r.series.entries.map fun entry => snapshotOf entry.1 entry.2

def size (r : MetricRegistry) : Nat := r.series.size

end MetricRegistry

end NexusLab.Telemetry
