import NexusLab.Telemetry.Serialization
import NexusLab.Telemetry.SummarySpec

/-! # What a records file determines

Every line of a records file is the text of a JSON value, so that a file has as many lines as it has
records and samples, and two more.  The values determine the records and the samples, and the
digest in the footer is the digest of everything before it. -/

namespace NexusLab.Telemetry

open Foundation
open Foundation.Json

/-! ## Values -/

@[simp] theorem render_number (value : Nat) : render (.number value) = appendU64 value := rfl

@[simp] theorem render_string (value : String) : render (.string value) = appendString value := rfl

@[simp] theorem render_bool (value : Bool) : render (.bool value) = appendBool value := by
  cases value <;> decide

/-- A list of values between brackets. -/
theorem render_array (items : List Json) :
    render (.array items) = "[".toList ++ separated (items.map render) ++ "]".toList := by
  rw [render, renderItems_true]
  rfl

def labelJson (label : MetricLabelValue) : Json :=
  .object [("name", .string (labelName label.label)), ("value", .number label.value)]

@[simp] theorem render_label (label : MetricLabelValue) :
    (labelJson label).render = appendLabel label := by
  unfold appendLabel
  simp (disch := decide) [labelJson, quoted_of_plain]

def labelsJson (labels : MetricLabels) : Json := .array (labels.values.map labelJson)

@[simp] theorem render_labels (labels : MetricLabels) :
    (labelsJson labels).render = appendLabels labels := by
  unfold appendLabels labelsJson
  rw [render_array, List.map_map]
  congr 3
  exact List.map_congr_left fun value _ => render_label value

def idArrayJson {Tag : Type} (values : List (StrongId Tag)) : Json := .array (values.map fun id => .number id.value)

@[simp] theorem render_idArray {Tag : Type} (values : List (StrongId Tag)) :
    (idArrayJson values).render = appendIdArray values := by
  unfold appendIdArray idArrayJson
  rw [render_array, List.map_map]
  rfl

def directedLinkJson (value : Topology.DirectedLinkId) : Json :=
  .object [("link", .number value.link.value), ("direction", .number value.direction.value)]

@[simp] theorem render_directedLink (value : Topology.DirectedLinkId) :
    (directedLinkJson value).render = appendDirectedLink value := by
  unfold appendDirectedLink
  simp (disch := decide) [directedLinkJson, quoted_of_plain]

def directedLinkArrayJson (values : List Topology.DirectedLinkId) : Json := .array (values.map directedLinkJson)

@[simp] theorem render_directedLinkArray (values : List Topology.DirectedLinkId) :
    (directedLinkArrayJson values).render = appendDirectedLinkArray values := by
  unfold appendDirectedLinkArray directedLinkArrayJson
  rw [render_array, List.map_map]
  congr 3
  exact List.map_congr_left fun value _ => render_directedLink value

/-! ## The header -/

def limitsJson (limits : TelemetryLimits) : Json :=
  .object [("metric_series", .number limits.metricSeries),
    ("decision_records", .number limits.decisionRecords),
    ("domain_records", .number limits.domainRecords), ("samples", .number limits.samples),
    ("histogram_boundaries", .number limits.histogramBoundaries),
    ("correlation_edges", .number limits.correlationEdges),
    ("serialized_bytes", .number limits.serializedBytes)]

@[simp] theorem render_limits (limits : TelemetryLimits) :
    (limitsJson limits).render = appendLimits limits := by
  unfold appendLimits
  simp (disch := decide) [limitsJson, quoted_of_plain]

def configurationJson (configuration : TelemetryConfiguration) : Json :=
  .object [("mode", .string (modeName configuration.mode)),
    ("sample_interval_ns", .number configuration.sampleIntervalNs),
    ("catalog_version", .number telemetryCatalogVersion),
    ("limits", limitsJson configuration.limits)]

@[simp] theorem render_configuration (configuration : TelemetryConfiguration) :
    (configurationJson configuration).render = appendConfiguration configuration := by
  unfold appendConfiguration
  simp (disch := decide) [configurationJson, quoted_of_plain]

def routingPolicyJson (metadata : TelemetryRunMetadata) : Json :=
  .object [("name", .string metadata.routingPolicy),
    ("version", .number metadata.routingPolicyVersion)]

@[simp] theorem render_routingPolicy (metadata : TelemetryRunMetadata) :
    (routingPolicyJson metadata).render = appendRoutingPolicy metadata := by
  unfold appendRoutingPolicy
  simp (disch := decide) [routingPolicyJson, quoted_of_plain]

def schedulingPolicyJson (metadata : TelemetryRunMetadata) : Json :=
  match metadata.schedulingPolicy with
  | some name =>
    .object [("name", .string name), ("version", .number metadata.schedulingPolicyVersion)]
  | none => .null

@[simp] theorem render_schedulingPolicy (metadata : TelemetryRunMetadata) :
    (schedulingPolicyJson metadata).render = appendSchedulingPolicy metadata := by
  unfold appendSchedulingPolicy schedulingPolicyJson
  cases metadata.schedulingPolicy with
  | none => rfl
  | some name => simp (disch := decide) [quoted_of_plain]

def terminalJson (metadata : TelemetryRunMetadata) : Json :=
  .object [("status", .string (runOutcomeName metadata.outcome)),
    ("complete", .bool metadata.complete), ("final_time_ns", .number metadata.finalTime)]

@[simp] theorem render_terminal (metadata : TelemetryRunMetadata) :
    (terminalJson metadata).render = appendTerminal metadata := by
  unfold appendTerminal
  simp (disch := decide) [terminalJson, quoted_of_plain]

def headerJson (snapshot : TelemetrySnapshot) (metadata : TelemetryRunMetadata) : Json :=
  .object [("type", .string "header"), ("schema", .string "nexuslab.telemetry.records"),
    ("schema_version", .number telemetrySchemaVersion), ("simulator_version", .string version),
    ("synthetic", .bool metadata.synthetic), ("seed", .number metadata.seed),
    ("scenario_digest_fnv1a64", .string (hexU64 metadata.scenarioDigest)),
    ("routing_policy", routingPolicyJson metadata),
    ("scheduling_policy", schedulingPolicyJson metadata),
    ("telemetry", configurationJson snapshot.configuration), ("terminal", terminalJson metadata)]

theorem appendString_of_plain {text : String} (plain : isPlain text = true) :
    appendString text = '"' :: (text.toList ++ ['"']) := quoted_of_plain plain

set_option maxRecDepth 2000 in
theorem line_header (snapshot : TelemetrySnapshot) (metadata : TelemetryRunMetadata) :
    (headerJson snapshot metadata).line = headerLine snapshot metadata := by
  unfold headerLine appendCommonMetadata
  simp (disch := decide) [line, headerJson, quoted_of_plain, appendString_of_plain]

/-! ## Correlations -/

def idMember {Tag : Type} (value : Option (StrongId Tag)) : Option Json :=
  value.map fun id => .number id.value

/-- The fields of a correlation under their names, in the order in which they are written. -/
def correlationMembers (correlation : Correlation) : List (String × Option Json) :=
  [("gpu", idMember correlation.gpu),
    ("nic", idMember correlation.nic),
    ("switch", idMember correlation.switchEntity),
    ("port", idMember correlation.port),
    ("rack", idMember correlation.rack),
    ("link", correlation.link.map directedLinkJson),
    ("event", idMember correlation.event),
    ("cause", idMember correlation.cause),
    ("job", idMember correlation.job),
    ("collective", idMember correlation.collective),
    ("transfer", idMember correlation.transfer),
    ("chunk", idMember correlation.chunk),
    ("routing_decision", idMember correlation.routingDecision),
    ("placement_decision", idMember correlation.placementDecision),
    ("failure", idMember correlation.failure)]

def correlationJson (correlation : Correlation) : Json :=
  .object (present (correlationMembers correlation))

def appendMember (output : List Char × Bool) (member : String × Option Json) : List Char × Bool :=
  appendCorrelationField output member.1 (member.2.map render)

-- The flag says that nothing has been written yet, in the loop and in the text of an object.
theorem foldl_appendMember (members : List (String × Option Json)) :
    ∀ output : List Char × Bool, (members.foldl appendMember output).1 =
      output.1 ++ renderMembers output.2 (present members) := by
  induction members with
  | nil =>
    intro output
    simp [present]
  | cons member members ih =>
    intro output
    obtain ⟨name, value⟩ := member
    rw [List.foldl_cons, ih]
    cases value with
    | none => rfl
    | some value =>
      have shape : present ((name, some value) :: members) = (name, value) :: present members := rfl
      obtain ⟨text, first⟩ := output
      rw [shape]
      cases first <;> simp [appendMember, appendCorrelationField, appendString]

@[simp] theorem render_correlation (correlation : Correlation) :
    (correlationJson correlation).render = appendCorrelation correlation := by
  have links : render ∘ directedLinkJson = appendDirectedLink := funext render_directedLink
  have ids : ∀ {Tag : Type} (value : Option (StrongId Tag)),
      (idMember value).map render = idField value := fun value => Option.map_map ..
  have loop := foldl_appendMember (correlationMembers correlation) (['\x7b'], true)
  simp only [correlationMembers, List.foldl_cons, List.foldl_nil, appendMember, ids,
    Option.map_map, links] at loop
  unfold appendCorrelation correlationJson
  rw [render_object]
  exact (congrArg (· ++ ['\x7d']) loop).symm

/-! ## Observations -/

def transferJson (value : Option TransferId) : Json :=
  match value with
  | some id => .number id.value
  | none => .null

@[simp] theorem render_transfer (value : Option TransferId) :
    (transferJson value).render = appendTransfer value := by
  cases value with
  | none => rfl
  | some id => rfl

def observationJson : TelemetryObservation → Json
  | .counter value =>
    .object [("metric_id", .number value.metric.value), ("labels", labelsJson value.labels),
      ("amount", .number value.amount)]
  | .gauge value =>
    .object [("metric_id", .number value.metric.value), ("labels", labelsJson value.labels),
      ("value", .number value.value)]
  | .histogram value =>
    .object [("metric_id", .number value.metric.value), ("labels", labelsJson value.labels),
      ("value", .number value.value)]
  | .simulation value =>
    .object [("transition", .string (simulationTransitionName value.transition)),
      ("pending_events", .number value.pendingEvents)]
  | .job value =>
    .object [("transition", .string (jobTransitionName value.transition)),
      ("step", .number value.step), ("bucket", .number value.bucket),
      ("worker", .number value.worker), ("allocated_workers", .number value.allocatedWorkers)]
  | .collective value =>
    .object [("transition", .string (collectiveTransitionName value.transition)),
      ("phase", .string (phaseName value.phase)), ("round", .number value.round),
      ("bytes", .number value.bytes)]
  | .transfer value =>
    .object [("transition", .string (transferTransitionName value.transition)),
      ("bytes", .number value.bytes), ("hop", .number value.hop),
      ("reason", .string (transferReasonName value.reason))]
  | .queue value =>
    .object [("transition", .string (queueTransitionName value.transition)),
      ("chunk_bytes", .number value.chunkBytes), ("waiting_bytes", .number value.waitingBytes),
      ("waiting_chunks", .number value.waitingChunks)]
  | .routingDecision value =>
    .object [("decision", .number value.decision.value), ("policy", .string value.policy),
      ("policy_version", .number value.policyVersion),
      ("operational_revision", .number value.operationalRevision),
      ("candidate_count", .number value.candidateCount),
      ("selected_path", directedLinkArrayJson value.selectedPath), ("score", .number value.score),
      ("reason", .string value.reason), ("transfer", transferJson value.transfer),
      ("outcome", .string (routingOutcomeName value.outcome))]
  | .placementDecision value =>
    .object [("decision", .number value.decision.value), ("policy", .string value.policy),
      ("policy_version", .number value.policyVersion), ("priority", .number value.priority),
      ("requested_workers", .number value.requestedWorkers),
      ("selected_workers", idArrayJson value.selectedWorkers),
      ("rack_count", .number value.rackCount), ("nic_count", .number value.nicCount),
      ("cross_rack_ring_edges", .number value.crossRackRingEdges), ("reason", .string value.reason),
      ("outcome", .string (placementOutcomeName value.outcome))]
  | .failure value =>
    .object [("failure", .number value.failure.value),
      ("transition", .string (failureTransitionName value.transition)),
      ("resource_kind", .string (failureResourceName value.resourceKind)),
      ("resource_id", .number value.resourceId), ("affected_bytes", .number value.affectedBytes)]

set_option maxRecDepth 2000 in
@[simp] theorem render_observation (observation : TelemetryObservation) :
    (observationJson observation).render = appendObservation observation := by
  unfold appendObservation
  cases observation <;> simp (disch := decide) [observationJson, quoted_of_plain]

/-! ## Lines -/

def recordJson (record : TelemetryRecord) : Json :=
  .object [("type", .string "record"), ("record_id", .number record.id.value),
    ("timestamp_ns", .number record.timestamp),
    ("kind", .string (recordKindName (recordKind record.observation))),
    ("correlation", correlationJson record.correlation),
    ("observation", observationJson record.observation)]

theorem line_record (record : TelemetryRecord) : (recordJson record).line = recordLine record := by
  have correlation := render_correlation record.correlation
  have observation := render_observation record.observation
  unfold recordLine
  simp (disch := decide) [line, recordJson, quoted_of_plain, appendString_of_plain, correlation,
    observation]

def sampleJson (sample : MetricSample) : Json :=
  .object [("type", .string "sample"), ("timestamp_ns", .number sample.timestamp),
    ("metric_id", .number sample.metric.value), ("labels", labelsJson sample.labels),
    ("kind", .string (kindName sample.kind)), ("value", .number sample.value)]

theorem line_sample (sample : MetricSample) : (sampleJson sample).line = sampleLine sample := by
  unfold sampleLine
  simp (disch := decide) [line, sampleJson, quoted_of_plain, appendString_of_plain]

def footerJson (snapshot : TelemetrySnapshot) (metadata : TelemetryRunMetadata)
    (digest : UInt64) : Json :=
  .object [("type", .string "footer"), ("record_count", .number snapshot.records.length),
    ("sample_count", .number snapshot.samples.length), ("complete", .bool metadata.complete),
    ("content_digest_fnv1a64", .string (hexU64 digest))]

theorem line_footer (snapshot : TelemetrySnapshot) (metadata : TelemetryRunMetadata)
    (digest : UInt64) :
    (footerJson snapshot metadata digest).line = footerLine snapshot metadata digest := by
  unfold footerLine
  simp (disch := decide) [line, footerJson, quoted_of_plain, appendString_of_plain]

/-! ## Names -/

theorem kindName_injective : Function.Injective kindName := by
  intro a b same
  cases a <;> cases b <;> first | rfl | exact absurd same (by decide)

theorem phaseName_injective : Function.Injective phaseName := by
  intro a b same
  cases a <;> cases b <;> first | rfl | exact absurd same (by decide)

theorem labelName_injective : Function.Injective labelName := by
  intro a b same
  cases a <;> cases b <;> first | rfl | exact absurd same (by decide)

theorem recordKindName_injective : Function.Injective recordKindName := by
  intro a b same
  cases a <;> cases b <;> first | rfl | exact absurd same (by decide)

theorem simulationTransitionName_injective : Function.Injective simulationTransitionName := by
  intro a b same
  cases a <;> cases b <;> first | rfl | exact absurd same (by decide)

theorem jobTransitionName_injective : Function.Injective jobTransitionName := by
  intro a b same
  cases a <;> cases b <;> first | rfl | exact absurd same (by decide)

theorem collectiveTransitionName_injective : Function.Injective collectiveTransitionName := by
  intro a b same
  cases a <;> cases b <;> first | rfl | exact absurd same (by decide)

theorem transferTransitionName_injective : Function.Injective transferTransitionName := by
  intro a b same
  cases a <;> cases b <;> first | rfl | exact absurd same (by decide)

theorem transferReasonName_injective : Function.Injective transferReasonName := by
  intro a b same
  cases a <;> cases b <;> first | rfl | exact absurd same (by decide)

theorem queueTransitionName_injective : Function.Injective queueTransitionName := by
  intro a b same
  cases a <;> cases b <;> first | rfl | exact absurd same (by decide)

theorem routingOutcomeName_injective : Function.Injective routingOutcomeName := by
  intro a b same
  cases a <;> cases b <;> first | rfl | exact absurd same (by decide)

theorem placementOutcomeName_injective : Function.Injective placementOutcomeName := by
  intro a b same
  cases a <;> cases b <;> first | rfl | exact absurd same (by decide)

theorem failureTransitionName_injective : Function.Injective failureTransitionName := by
  intro a b same
  cases a <;> cases b <;> first | rfl | exact absurd same (by decide)

theorem failureResourceName_injective : Function.Injective failureResourceName := by
  intro a b same
  cases a <;> cases b <;> first | rfl | exact absurd same (by decide)

/-! ## Reading a record back -/

theorem labelJson_injective : Function.Injective labelJson := by
  rintro ⟨label, value⟩ ⟨label', value'⟩ same
  simp only [labelJson, object.injEq, List.cons.injEq, Prod.mk.injEq, string.injEq, number.injEq,
    true_and, and_true] at same
  rw [labelName_injective same.1, same.2]

theorem labelsJson_injective : Function.Injective labelsJson := by
  intro a b same
  exact MetricLabels.values_injective (labelJson_injective.list_map (array.inj same))

theorem idArrayJson_injective {Tag : Type} :
    Function.Injective (idArrayJson : List (StrongId Tag) → Json) := by
  intro a b same
  refine Function.Injective.list_map ?_ (array.inj same)
  exact fun id id' numbers => StrongId.value_injective (number.inj numbers)

theorem directedLinkJson_injective : Function.Injective directedLinkJson := by
  intro a b same
  simp only [directedLinkJson, object.injEq, List.cons.injEq, Prod.mk.injEq, number.injEq,
    true_and, and_true] at same
  apply Topology.DirectedLinkId.key_injective
  rw [Topology.DirectedLinkId.key, Topology.DirectedLinkId.key, same.1, same.2]

theorem directedLinkArrayJson_injective : Function.Injective directedLinkArrayJson := by
  intro a b same
  exact directedLinkJson_injective.list_map (array.inj same)

theorem transferJson_injective : Function.Injective transferJson := by
  intro a b same
  cases a with
  | none =>
    cases b with
    | none => rfl
    | some id' => cases same
  | some id =>
    cases b with
    | none => cases same
    | some id' => rw [StrongId.value_injective (number.inj same)]

theorem idMember_injective {Tag : Type} :
    Function.Injective (idMember : Option (StrongId Tag) → Option Json) := by
  refine Option.map_injective ?_
  exact fun id id' numbers => StrongId.value_injective (number.inj numbers)

theorem correlationJson_injective : Function.Injective correlationJson := by
  intro a b same
  have distinct : ((correlationMembers a).map Prod.fst).Nodup := by simp [correlationMembers]
  have names : (correlationMembers a).map Prod.fst = (correlationMembers b).map Prod.fst := rfl
  have members := present_inj distinct names (object.inj same)
  simp only [correlationMembers, List.cons.injEq, Prod.mk.injEq, true_and, and_true] at members
  obtain ⟨gpu, nic, switchEntity, port, rack, link, event, cause, job, collective, transfer, chunk,
    routingDecision, placementDecision, failure⟩ := members
  cases a
  cases b
  simp only [Correlation.mk.injEq]
  exact ⟨idMember_injective gpu, idMember_injective nic, idMember_injective switchEntity,
    idMember_injective port, idMember_injective rack,
    Option.map_injective directedLinkJson_injective link, idMember_injective event,
    idMember_injective cause, idMember_injective job, idMember_injective collective,
    idMember_injective transfer, idMember_injective chunk, idMember_injective routingDecision,
    idMember_injective placementDecision, idMember_injective failure⟩

theorem counter_inj {a b : CounterObservation}
    (same : observationJson (.counter a) = observationJson (.counter b)) : a = b := by
  simp only [observationJson, object.injEq, List.cons.injEq, Prod.mk.injEq, number.injEq,
    true_and, and_true] at same
  obtain ⟨metric, labels, amount⟩ := same
  cases a
  cases b
  simp only [CounterObservation.mk.injEq]
  exact ⟨MetricId.value_injective metric, labelsJson_injective labels, amount⟩

theorem gauge_inj {a b : GaugeObservation}
    (same : observationJson (.gauge a) = observationJson (.gauge b)) : a = b := by
  simp only [observationJson, object.injEq, List.cons.injEq, Prod.mk.injEq, number.injEq,
    true_and, and_true] at same
  obtain ⟨metric, labels, value⟩ := same
  cases a
  cases b
  simp only [GaugeObservation.mk.injEq]
  exact ⟨MetricId.value_injective metric, labelsJson_injective labels, value⟩

theorem histogram_inj {a b : HistogramObservation}
    (same : observationJson (.histogram a) = observationJson (.histogram b)) : a = b := by
  simp only [observationJson, object.injEq, List.cons.injEq, Prod.mk.injEq, number.injEq,
    true_and, and_true] at same
  obtain ⟨metric, labels, value⟩ := same
  cases a
  cases b
  simp only [HistogramObservation.mk.injEq]
  exact ⟨MetricId.value_injective metric, labelsJson_injective labels, value⟩

theorem simulation_inj {a b : SimulationObservation}
    (same : observationJson (.simulation a) = observationJson (.simulation b)) : a = b := by
  simp only [observationJson, object.injEq, List.cons.injEq, Prod.mk.injEq, number.injEq,
    string.injEq, true_and, and_true] at same
  obtain ⟨transition, pendingEvents⟩ := same
  cases a
  cases b
  simp only [SimulationObservation.mk.injEq]
  exact ⟨simulationTransitionName_injective transition, pendingEvents⟩

theorem job_inj {a b : JobObservation}
    (same : observationJson (.job a) = observationJson (.job b)) : a = b := by
  simp only [observationJson, object.injEq, List.cons.injEq, Prod.mk.injEq, number.injEq,
    string.injEq, true_and, and_true] at same
  obtain ⟨transition, step, bucket, worker, allocatedWorkers⟩ := same
  cases a
  cases b
  simp only [JobObservation.mk.injEq]
  exact ⟨jobTransitionName_injective transition, step, bucket, worker, allocatedWorkers⟩

theorem collective_inj {a b : CollectiveObservation}
    (same : observationJson (.collective a) = observationJson (.collective b)) : a = b := by
  simp only [observationJson, object.injEq, List.cons.injEq, Prod.mk.injEq, number.injEq,
    string.injEq, true_and, and_true] at same
  obtain ⟨transition, phase, round, bytes⟩ := same
  cases a
  cases b
  simp only [CollectiveObservation.mk.injEq]
  exact ⟨collectiveTransitionName_injective transition, phaseName_injective phase, round, bytes⟩

theorem transfer_inj {a b : TransferObservation}
    (same : observationJson (.transfer a) = observationJson (.transfer b)) : a = b := by
  simp only [observationJson, object.injEq, List.cons.injEq, Prod.mk.injEq, number.injEq,
    string.injEq, true_and, and_true] at same
  obtain ⟨transition, bytes, hop, reason⟩ := same
  cases a
  cases b
  simp only [TransferObservation.mk.injEq]
  exact ⟨transferTransitionName_injective transition, bytes, hop,
    transferReasonName_injective reason⟩

theorem queue_inj {a b : QueueObservation}
    (same : observationJson (.queue a) = observationJson (.queue b)) : a = b := by
  simp only [observationJson, object.injEq, List.cons.injEq, Prod.mk.injEq, number.injEq,
    string.injEq, true_and, and_true] at same
  obtain ⟨transition, chunkBytes, waitingBytes, waitingChunks⟩ := same
  cases a
  cases b
  simp only [QueueObservation.mk.injEq]
  exact ⟨queueTransitionName_injective transition, chunkBytes, waitingBytes, waitingChunks⟩

theorem routingDecision_inj {a b : RoutingDecisionObservation}
    (same : observationJson (.routingDecision a) = observationJson (.routingDecision b)) : a = b := by
  simp only [observationJson, object.injEq, List.cons.injEq, Prod.mk.injEq, number.injEq,
    string.injEq, true_and, and_true] at same
  obtain ⟨decision, policy, policyVersion, operationalRevision, candidateCount, selectedPath,
    score, reason, transfer, outcome⟩ := same
  cases a
  cases b
  simp only [RoutingDecisionObservation.mk.injEq]
  exact ⟨StrongId.value_injective decision, policy, policyVersion, operationalRevision,
    candidateCount, directedLinkArrayJson_injective selectedPath, score, reason,
    transferJson_injective transfer, routingOutcomeName_injective outcome⟩

theorem placementDecision_inj {a b : PlacementDecisionObservation}
    (same : observationJson (.placementDecision a) = observationJson (.placementDecision b)) : a = b := by
  simp only [observationJson, object.injEq, List.cons.injEq, Prod.mk.injEq, number.injEq,
    string.injEq, true_and, and_true] at same
  obtain ⟨decision, policy, policyVersion, priority, requestedWorkers, selectedWorkers, rackCount,
    nicCount, crossRackRingEdges, reason, outcome⟩ := same
  cases a
  cases b
  simp only [PlacementDecisionObservation.mk.injEq]
  exact ⟨StrongId.value_injective decision, policy, policyVersion, priority, requestedWorkers,
    idArrayJson_injective selectedWorkers, rackCount, nicCount, crossRackRingEdges, reason,
    placementOutcomeName_injective outcome⟩

theorem failure_inj {a b : FailureObservation}
    (same : observationJson (.failure a) = observationJson (.failure b)) : a = b := by
  simp only [observationJson, object.injEq, List.cons.injEq, Prod.mk.injEq, number.injEq,
    string.injEq, true_and, and_true] at same
  obtain ⟨failure, transition, resourceKind, resourceId, affectedBytes⟩ := same
  cases a
  cases b
  simp only [FailureObservation.mk.injEq]
  exact ⟨StrongId.value_injective failure, failureTransitionName_injective transition,
    failureResourceName_injective resourceKind, resourceId, affectedBytes⟩

/-- The kind of a record says which observation its value stands for. -/
theorem observationJson_inj {a b : TelemetryObservation} (kinds : recordKind a = recordKind b)
    (same : observationJson a = observationJson b) : a = b := by
  cases a with
  | counter value =>
    cases b with
    | counter value' => rw [counter_inj same]
    | _ => cases kinds
  | gauge value =>
    cases b with
    | gauge value' => rw [gauge_inj same]
    | _ => cases kinds
  | histogram value =>
    cases b with
    | histogram value' => rw [histogram_inj same]
    | _ => cases kinds
  | simulation value =>
    cases b with
    | simulation value' => rw [simulation_inj same]
    | _ => cases kinds
  | job value =>
    cases b with
    | job value' => rw [job_inj same]
    | _ => cases kinds
  | collective value =>
    cases b with
    | collective value' => rw [collective_inj same]
    | _ => cases kinds
  | transfer value =>
    cases b with
    | transfer value' => rw [transfer_inj same]
    | _ => cases kinds
  | queue value =>
    cases b with
    | queue value' => rw [queue_inj same]
    | _ => cases kinds
  | routingDecision value =>
    cases b with
    | routingDecision value' => rw [routingDecision_inj same]
    | _ => cases kinds
  | placementDecision value =>
    cases b with
    | placementDecision value' => rw [placementDecision_inj same]
    | _ => cases kinds
  | failure value =>
    cases b with
    | failure value' => rw [failure_inj same]
    | _ => cases kinds

theorem recordJson_injective : Function.Injective recordJson := by
  intro a b same
  simp only [recordJson, object.injEq, List.cons.injEq, Prod.mk.injEq, number.injEq, string.injEq,
    true_and, and_true] at same
  obtain ⟨id, timestamp, kind, correlation, observation⟩ := same
  cases a
  cases b
  simp only [TelemetryRecord.mk.injEq]
  exact ⟨correlationJson_injective correlation,
    observationJson_inj (recordKindName_injective kind) observation,
    StrongId.value_injective id, timestamp⟩

theorem sampleJson_injective : Function.Injective sampleJson := by
  intro a b same
  simp only [sampleJson, object.injEq, List.cons.injEq, Prod.mk.injEq, number.injEq, string.injEq,
    true_and, and_true] at same
  obtain ⟨timestamp, metric, labels, kind, value⟩ := same
  cases a
  cases b
  simp only [MetricSample.mk.injEq]
  exact ⟨MetricId.value_injective metric, labelsJson_injective labels, kindName_injective kind,
    value, timestamp⟩

/-! ## The file -/

theorem hashText_append (hash : UInt64) (s t : List Char) :
    hashText hash (s ++ t) = hashText (hashText hash s) t := by
  simp [hashText]

/-- The digest that is carried along is the digest of the output so far. -/
theorem foldl_appendLine (lines : List (List Char)) :
    ∀ output : List Char, lines.foldl appendLine (output, hashText Sim.fnvOffsetBasis output) =
      (output ++ lines.flatten, hashText Sim.fnvOffsetBasis (output ++ lines.flatten)) := by
  induction lines with
  | nil =>
    intro output
    simp
  | cons line lines ih =>
    intro output
    rw [List.foldl_cons, appendLine, ← hashText_append, ih, List.flatten_cons, List.append_assoc]

/-- Everything before the footer. -/
def contentText (snapshot : TelemetrySnapshot) (metadata : TelemetryRunMetadata) : List Char :=
  headerLine snapshot metadata ++ (snapshot.records.flatMap recordLine ++
    snapshot.samples.flatMap sampleLine)

def contentDigest (snapshot : TelemetrySnapshot) (metadata : TelemetryRunMetadata) : UInt64 :=
  fnv1a64 (String.ofList (contentText snapshot metadata))

theorem serializeRecordsJsonl_ok {snapshot : TelemetrySnapshot} {metadata : TelemetryRunMetadata}
    {output : String} (accepted : serializeRecordsJsonl snapshot metadata = .ok output) :
    output.toList = contentText snapshot metadata ++
      footerLine snapshot metadata (contentDigest snapshot metadata) := by
  unfold serializeRecordsJsonl at accepted
  cases valid : validateSerialization snapshot metadata with
  | error e =>
    rw [valid] at accepted
    cases accepted
  | ok _ =>
    rw [valid] at accepted
    simp only [bind, Except.bind, pure, Except.pure, foldl_appendLine] at accepted
    split at accepted
    · cases accepted
    · rw [← Except.ok.inj accepted, String.toList_ofList, contentDigest, fnv1a64,
        String.toList_ofList]
      simp only [contentText, List.flatMap_def, List.append_assoc]

/-- A finalized snapshot is written when it fits. -/
theorem serializeRecordsJsonl_of_fits {snapshot : TelemetrySnapshot}
    {metadata : TelemetryRunMetadata} (valid : validateSerialization snapshot metadata = .ok ())
    (fits : (contentText snapshot metadata ++
      footerLine snapshot metadata (contentDigest snapshot metadata)).length ≤
        snapshot.configuration.limits.serializedBytes) :
    ∃ output, serializeRecordsJsonl snapshot metadata = .ok output := by
  unfold serializeRecordsJsonl
  rw [valid]
  simp only [bind, Except.bind, pure, Except.pure, foldl_appendLine]
  simp only [contentText, contentDigest, fnv1a64, String.toList_ofList, List.flatMap_def,
    List.append_assoc] at fits ⊢
  rw [enforceSerializedLimit, if_neg (Nat.not_lt.mpr fits)]
  exact ⟨_, rfl⟩

/-- What stands on the lines before the footer. -/
def contentJson (snapshot : TelemetrySnapshot) (metadata : TelemetryRunMetadata) : List Json :=
  headerJson snapshot metadata :: (snapshot.records.map recordJson ++
    snapshot.samples.map sampleJson)

/-- What a line holds. -/
def lineType : Json → String
  | .object ((_, .string name) :: _) => name
  | _ => ""

theorem fileJson_inj {a b : TelemetrySnapshot} {metadata metadata' : TelemetryRunMetadata}
    {digest digest' : UInt64}
    (same : contentJson a metadata ++ [footerJson a metadata digest] =
      contentJson b metadata' ++ [footerJson b metadata' digest']) :
    a.records = b.records ∧ a.samples = b.samples := by
  -- the first member of a line says whether it holds a record or a sample
  have records : ∀ (c : TelemetrySnapshot) metadata digest,
      (contentJson c metadata ++ [footerJson c metadata digest]).filter
        (fun value => lineType value = "record") = c.records.map recordJson := by
    intro c metadata digest
    simp [contentJson, List.filter_map, Function.comp_def, lineType, headerJson, recordJson,
      sampleJson, footerJson]
  have samples : ∀ (c : TelemetrySnapshot) metadata digest,
      (contentJson c metadata ++ [footerJson c metadata digest]).filter
        (fun value => lineType value = "sample") = c.samples.map sampleJson := by
    intro c metadata digest
    simp [contentJson, List.filter_map, Function.comp_def, lineType, headerJson, recordJson,
      sampleJson, footerJson]
  constructor
  · have kept := congrArg (List.filter fun value => lineType value = "record") same
    rw [records, records] at kept
    exact recordJson_injective.list_map kept
  · have kept := congrArg (List.filter fun value => lineType value = "sample") same
    rw [samples, samples] at kept
    exact sampleJson_injective.list_map kept

/-- A text of so many lines, none of which holds a line break. -/
def HasLines (text : List Char) (lines : List (List Char)) : Prop :=
  text = lines.flatMap (· ++ ['\n']) ∧ ∀ line ∈ lines, '\n' ∉ line

theorem HasLines.snoc {text : List Char} {lines : List (List Char)} (has : HasLines text lines)
    {last : List Char} (single : '\n' ∉ last) :
    HasLines (text ++ (last ++ ['\n'])) (lines ++ [last]) := by
  refine ⟨by simp [has.1], ?_⟩
  intro line member
  rcases List.mem_append.mp member with earlier | isLast
  · exact has.2 line earlier
  · exact List.mem_singleton.mp isLast ▸ single

theorem hasLines_render (values : List Json) :
    HasLines (values.flatMap line) (values.map render) := by
  refine ⟨by rw [List.flatMap_map]; rfl, ?_⟩
  intro text member
  obtain ⟨value, _, rfl⟩ := List.mem_map.mp member
  exact newline_notMem_render value

theorem content_eq (snapshot : TelemetrySnapshot) (metadata : TelemetryRunMetadata) :
    (contentJson snapshot metadata).flatMap line = contentText snapshot metadata := by
  have records : (snapshot.records.map recordJson).flatMap line =
      snapshot.records.flatMap recordLine := by
    rw [List.flatMap_map]
    exact List.flatMap_congr fun record _ => line_record record
  have samples : (snapshot.samples.map sampleJson).flatMap line =
      snapshot.samples.flatMap sampleLine := by
    rw [List.flatMap_map]
    exact List.flatMap_congr fun sample _ => line_sample sample
  simp only [contentJson, List.flatMap_cons, List.flatMap_append, records, samples, line_header,
    contentText]

/-- A file is the text of its values, one on each line. -/
theorem file_eq {snapshot : TelemetrySnapshot} {metadata : TelemetryRunMetadata} {output : String}
    (accepted : serializeRecordsJsonl snapshot metadata = .ok output) :
    output.toList =
      (contentJson snapshot metadata ++
        [footerJson snapshot metadata (contentDigest snapshot metadata)]).flatMap line := by
  rw [serializeRecordsJsonl_ok accepted, List.flatMap_append, content_eq, List.flatMap_singleton,
    line_footer]

/-- A records file has a line for every record and every sample and two more, and no other line
break; its footer holds the digest of everything before the footer; and different records or
samples make a different file. -/
theorem records_jsonl_encoding :
    (∀ snapshot metadata output, serializeRecordsJsonl snapshot metadata = .ok output →
      ∃ lines footer content, HasLines output.toList (lines ++ [footer]) ∧
        (lines ++ [footer]).length = snapshot.records.length + snapshot.samples.length + 2 ∧
        HasLines content.toList lines ∧
        footer ++ ['\n'] = footerLine snapshot metadata (fnv1a64 content)) ∧
    (∀ a b metadata outputA outputB, a.configuration = b.configuration →
      serializeRecordsJsonl a metadata = .ok outputA →
      serializeRecordsJsonl b metadata = .ok outputB →
      (a.records, a.samples) ≠ (b.records, b.samples) → outputA ≠ outputB) := by
  constructor
  · intro snapshot metadata output accepted
    let digest := contentDigest snapshot metadata
    have before : HasLines (contentText snapshot metadata)
        ((contentJson snapshot metadata).map render) :=
      content_eq snapshot metadata ▸ hasLines_render _
    have all := before.snoc (newline_notMem_render (footerJson snapshot metadata digest))
    refine ⟨(contentJson snapshot metadata).map render, _,
      String.ofList (contentText snapshot metadata), ?_, ?_, ?_,
      line_footer snapshot metadata digest⟩
    · rw [serializeRecordsJsonl_ok accepted, ← line_footer]
      exact all
    · simp [contentJson]
      omega
    · rw [String.toList_ofList]
      exact before
  · intro a b metadata outputA outputB _ acceptedA acceptedB differ same
    apply differ
    have texts := congrArg String.toList same
    rw [file_eq acceptedA, file_eq acceptedB] at texts
    obtain ⟨records, samples⟩ := fileJson_inj (lines_injective texts)
    rw [records, samples]

/-- A run with a correlated decision whose reason has to be escaped, and with two samples. -/
def routedSnapshot (reason : String) : TelemetrySnapshot where
  configuration := {}
  metrics := []
  jobAttributions := []
  records := [⟨{}, .simulation ⟨.runStarted, 0⟩, ⟨0⟩, 0⟩,
    ⟨{ event := some ⟨2⟩, collective := some ⟨0⟩, transfer := some ⟨1⟩, routingDecision := some ⟨0⟩ },
      .routingDecision ⟨⟨0⟩, "ecmp", 1, 0, 2, [⟨⟨3⟩, .aToB⟩, ⟨⟨5⟩, .bToA⟩], 0, reason, some ⟨1⟩,
        .selected⟩, ⟨1⟩, 5⟩,
    ⟨{ link := some ⟨⟨3⟩, .aToB⟩, transfer := some ⟨1⟩, chunk := some ⟨4⟩ },
      .queue ⟨.enqueued, 64, 64, 1⟩, ⟨2⟩, 5⟩]
  samples := [⟨.linkQueueWaitingBytes,
      ⟨[⟨.link, 3⟩, ⟨.direction, 1⟩], by decide, by decide⟩, .gauge, 64, 10⟩,
    ⟨.simulationDispatchedEvents, .none, .counter, 3, 10⟩]
  retainedCorrelationEdges := 7
  finalized := true

def routedMetadata : TelemetryRunMetadata := { routingPolicy := "ecmp", finalTime := 20 }

theorem length_hexU64 (value : UInt64) : (hexU64 value).length = 16 := by
  have short : (Nat.toDigits 16 value.toNat).length ≤ 16 :=
    (Nat.length_toDigits_le_iff (by decide) (by decide)).mpr value.toNat_lt
  rw [hexU64, String.length_ofList, List.length_append, List.length_replicate]
  omega

theorem length_footerLine_le (reason : String) (digest : UInt64) :
    (footerLine (routedSnapshot reason) routedMetadata digest).length ≤ 1000 := by
  have quotedDigest := length_quoted_le (hexU64 digest)
  rw [length_hexU64] at quotedDigest
  have literals : "\x7b\"type\":\"footer\",\"record_count\":".toList.length +
      (appendU64 3).length + (",\"sample_count\":".toList.length + (appendU64 2).length +
      (",\"complete\":".toList.length + (appendBool true).length +
      (",\"content_digest_fnv1a64\":".toList.length + "\x7d\n".toList.length))) ≤ 800 := by
    decide +kernel
  have complete : routedMetadata.complete = true := rfl
  have records : (routedSnapshot reason).records.length = 3 := rfl
  have samples : (routedSnapshot reason).samples.length = 2 := rfl
  unfold footerLine
  simp only [List.length_append, records, samples, complete, appendString] at literals ⊢
  omega

/-- A short content is accepted. -/
theorem serialize_routed (reason : String)
    (short : (contentText (routedSnapshot reason) routedMetadata).length ≤ 10000) :
    ∃ output, serializeRecordsJsonl (routedSnapshot reason) routedMetadata = .ok output := by
  have configured : validateConfiguration {} = .ok () := by
    unfold validateConfiguration
    rw [if_neg (by decide)]
    exact validateMetricCatalog_default
  have valid : validateSerialization (routedSnapshot reason) routedMetadata = .ok () := by
    unfold validateSerialization
    rw [show (routedSnapshot reason).configuration = {} from rfl, configured]
    rfl
  have footer := length_footerLine_le reason (contentDigest (routedSnapshot reason) routedMetadata)
  have limit : (routedSnapshot reason).configuration.limits.serializedBytes = 1073741824 := rfl
  exact serializeRecordsJsonl_of_fits valid (by rw [List.length_append, limit]; omega)

def reasonOverLines : String := "\"a\"\nthen b"
def reasonOnLine : String := "\"a\" then b"

theorem records_jsonl_encoding_routed :
    ∃ output output',
      serializeRecordsJsonl (routedSnapshot reasonOverLines) routedMetadata = .ok output ∧
      serializeRecordsJsonl (routedSnapshot reasonOnLine) routedMetadata = .ok output' ∧
      output ≠ output' ∧ ∃ lines, HasLines output.toList lines ∧ lines.length = 7 := by
  obtain ⟨readable, injective⟩ := records_jsonl_encoding
  obtain ⟨output, accepted⟩ := serialize_routed reasonOverLines (by decide +kernel)
  obtain ⟨output', accepted'⟩ := serialize_routed reasonOnLine (by decide +kernel)
  -- the line break of the reason is written as two characters, and makes no line
  obtain ⟨lines, footer, _, has, count, _, _⟩ :=
    readable (routedSnapshot reasonOverLines) routedMetadata output accepted
  have differ : ((routedSnapshot reasonOverLines).records, (routedSnapshot reasonOverLines).samples) ≠
      ((routedSnapshot reasonOnLine).records, (routedSnapshot reasonOnLine).samples) := by
    decide +kernel
  exact ⟨output, output', accepted, accepted', injective (routedSnapshot reasonOverLines)
    (routedSnapshot reasonOnLine) routedMetadata output output' rfl accepted accepted' differ,
    lines ++ [footer], has, count⟩

end NexusLab.Telemetry
