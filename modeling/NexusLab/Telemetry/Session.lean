import NexusLab.Telemetry.Summary

/-! # The telemetry session

A session validates every observation, emits the samples whose boundaries the observation's
timestamp has passed, folds the observation into the summary and, depending on the mode, retains
it as a record. -/

namespace NexusLab.Telemetry

open Foundation

structure TelemetrySession where
  configuration : TelemetryConfiguration
  summary : Option SummaryBuilder := none
  records : List TelemetryRecord := []
  samples : List MetricSample := []
  lastTimestamp : Option SimTimeNs := none
  nextSampleTimestamp : Option SimTimeNs
  retainedEdges : Nat := 0
  retainedDecisions : Nat := 0
  retainedDomainRecords : Nat := 0
  nextRecordId : Nat := 0
  recordIdsExhausted : Bool := false
  isFinalized : Bool := false

structure TelemetrySnapshot where
  configuration : TelemetryConfiguration
  metrics : List MetricSeriesSnapshot
  jobAttributions : List JobAttributionSnapshot
  records : List TelemetryRecord
  samples : List MetricSample
  retainedCorrelationEdges : Nat
  finalized : Bool
deriving DecidableEq

namespace TelemetrySession

def create (configuration : TelemetryConfiguration) : Except Error TelemetrySession := do
  validateConfiguration configuration
  let session : TelemetrySession :=
    { configuration, nextSampleTimestamp := some configuration.sampleIntervalNs }
  if configuration.mode = .off then return session
  else
    let summary ← SummaryBuilder.create configuration.limits.metricSeries
      configuration.limits.histogramBoundaries
    return { session with summary := some summary }

def enabled (s : TelemetrySession) : Bool := s.configuration.mode ≠ .off

def retainsSamples (s : TelemetrySession) : Bool :=
  s.configuration.mode = .sampled || s.configuration.mode = .full

/-- The summary is dereferenced only in the modes that create one. -/
def requireSummary : Action TelemetrySession SummaryBuilder := do
  getOrThrow (← get).summary (.logicError "telemetry session has no summary")

def onSummary (m : Action SummaryBuilder Unit) : Action TelemetrySession Unit := do
  let summary ← requireSummary
  match m summary with
  | .ok _ next => modify fun s => { s with summary := some next }
  | .error e next =>
    modify fun s => { s with summary := some next }
    throw e

def checkedAddSize (left right : Nat) : Except Error Nat :=
  checkedAdd "telemetry correlation edge overflow" left right

/-! ## Samples -/

/-- Moves the next boundary past the interval that starts at `current`. -/
def advanceSampleTimestamp (s : TelemetrySession) (current : SimTimeNs) : TelemetrySession :=
  if s.configuration.sampleIntervalNs > maxU64 - current then
    { s with nextSampleTimestamp := none }
  else { s with nextSampleTimestamp := some (current + s.configuration.sampleIntervalNs) }

def skipEmptySampleBoundaries (s : TelemetrySession) (timestamp : SimTimeNs) (inclusive : Bool) :
    TelemetrySession :=
  match s.nextSampleTimestamp with
  | none => s
  | some first =>
    -- nothing is earlier than time zero
    if inclusive = false ∧ timestamp = 0 then s
    else
      let lastEligible := if inclusive then timestamp else timestamp - 1
      if first > lastEligible then s
      else
        -- all due boundaries in one step
        let completeIntervals := (lastEligible - first) / s.configuration.sampleIntervalNs
        let lastBoundary := first + completeIntervals * s.configuration.sampleIntervalNs
        -- there is no boundary after this one
        if s.configuration.sampleIntervalNs > maxU64 - lastBoundary then
          { s with nextSampleTimestamp := none }
        else
          { s with nextSampleTimestamp := some (lastBoundary + s.configuration.sampleIntervalNs) }

/-- One sample of every counter and gauge. -/
def sampleFrame (snapshots : List MetricSeriesSnapshot) (timestamp : SimTimeNs) :
    List MetricSample :=
  (snapshots.filter fun snapshot => isSampledMetricKind snapshot.kind).map
    fun snapshot => ⟨snapshot.metric, snapshot.labels, snapshot.kind, snapshot.scalar, timestamp⟩

def appendSampleFrame (timestamp : SimTimeNs) : Action TelemetrySession Unit := do
  let frame := sampleFrame (← requireSummary).metricSnapshots timestamp
  let s ← get
  throwIf (frame.length > U64.sub s.configuration.limits.samples s.samples.length)
    (.lengthError "telemetry sample limit exceeded")
  modify fun s => { s with samples := s.samples ++ frame }

/-- Whether a boundary lies before the timestamp, or on it when it counts. -/
def sampleDue (next timestamp : SimTimeNs) (inclusive : Bool) : Bool :=
  next < timestamp || (inclusive && next = timestamp)

/-- Emits the due frames, one boundary after another.  A positive interval passes `timestamp`
after at most `timestamp + 1` boundaries, which is the fuel the caller gives. -/
def emitFrames (timestamp : SimTimeNs) (inclusive : Bool) : Nat → Action TelemetrySession Unit
  | 0 => pure ()
  | fuel + 1 => do
    match (← get).nextSampleTimestamp with
    | none => pure ()
    | some next =>
      runIf (sampleDue next timestamp inclusive = true) do
        appendSampleFrame next
        modify fun s => s.advanceSampleTimestamp next
        emitFrames timestamp inclusive fuel

def emitSamplesUntil (timestamp : SimTimeNs) (inclusive : Bool) :
    Action TelemetrySession Unit := do
  runIf ((← get).retainsSamples = true) do
    let snapshots := (← requireSummary).metricSnapshots
    if snapshots.any (fun snapshot => isSampledMetricKind snapshot.kind) then
      emitFrames timestamp inclusive (timestamp + 1)
    else modify fun s => s.skipEmptySampleBoundaries timestamp inclusive

/-! ## Records -/

/-- Whether the mode keeps the observation as a record. -/
def retains (s : TelemetrySession) (observation : TelemetryObservation) : Bool :=
  s.configuration.mode = .full ||
    (s.configuration.mode = .sampled && isDecisionObservation observation)

/-- The edge count after retaining one more record, if every limit allows it. -/
def admitRecord (s : TelemetrySession) (correlation : Correlation)
    (observation : TelemetryObservation) : Except Error Nat :=
  -- decisions and domain records have limits of their own
  if isDecisionObservation observation = true ∧
      s.retainedDecisions ≥ s.configuration.limits.decisionRecords then
    .error (.lengthError "telemetry decision record limit exceeded")
  else if isDecisionObservation observation = false ∧
      s.retainedDomainRecords ≥ s.configuration.limits.domainRecords then
    .error (.lengthError "telemetry domain record limit exceeded")
  else do
    let edges ← checkedAddSize s.retainedEdges (correlationEdgeCount correlation)
    if edges > s.configuration.limits.correlationEdges then
      .error (.lengthError "telemetry correlation edge limit exceeded")
    else if s.recordIdsExhausted then
      .error (.overflowError "telemetry record ID sequence exhausted")
    else .ok edges

def retain (timestamp : SimTimeNs) (correlation : Correlation)
    (observation : TelemetryObservation) (edges : Nat) (s : TelemetrySession) :
    TelemetrySession :=
  let record : TelemetryRecord := ⟨correlation, observation, ⟨s.nextRecordId⟩, timestamp⟩
  let s := { s with records := s.records ++ [record], retainedEdges := edges }
  let s := if isDecisionObservation observation then
      { s with retainedDecisions := s.retainedDecisions + 1 }
    else { s with retainedDomainRecords := s.retainedDomainRecords + 1 }
  if s.nextRecordId = maxU64 then { s with recordIdsExhausted := true }
  else { s with nextRecordId := s.nextRecordId + 1 }

def record (timestamp : SimTimeNs) (correlation : Correlation)
    (observation : TelemetryObservation) : Action TelemetrySession Unit := do
  runIf ((← get).configuration.mode ≠ .off) do
    let s ← get
    throwIf (s.isFinalized = true) (.logicError "cannot record telemetry after finalization")
    throwIf (s.lastTimestamp.any (timestamp < ·) = true)
      (.invalidArgument "telemetry observation timestamp regressed")
    -- the limits of the records, before anything is stored
    let edges ← if s.retains observation then fromExcept (s.admitRecord correlation observation)
      else pure s.retainedEdges
    fromExcept ((← requireSummary).validate timestamp correlation observation)
    -- the boundaries before this observation; they stay when the limit throws
    emitSamplesUntil timestamp false
    onSummary (SummaryBuilder.consume timestamp correlation observation)
    runIf (s.retains observation = true) (modify (retain timestamp correlation observation edges))
    modify fun s => { s with lastTimestamp := some timestamp }

def finalize (timestamp : SimTimeNs) : Action TelemetrySession Unit := do
  let s ← get
  throwIf (s.isFinalized = true) (.logicError "telemetry session is already finalized")
  throwIf (s.configuration.mode ≠ .off ∧ s.lastTimestamp.any (timestamp < ·) = true)
    (.invalidArgument "telemetry final timestamp regressed")
  emitSamplesUntil timestamp true
  runIf (s.summary.isSome = true) (onSummary (SummaryBuilder.finalize timestamp))
  modify fun s => { s with lastTimestamp := some timestamp, isFinalized := true }

def metricSnapshots (s : TelemetrySession) : List MetricSeriesSnapshot :=
  match s.summary with
  | some summary => summary.metricSnapshots
  | none => []

def jobAttributions (s : TelemetrySession) : List JobAttributionSnapshot :=
  match s.summary with
  | some summary => summary.jobAttributions
  | none => []

def snapshot (s : TelemetrySession) : TelemetrySnapshot where
  configuration := s.configuration
  metrics := s.metricSnapshots
  jobAttributions := s.jobAttributions
  records := s.records
  samples := s.samples
  retainedCorrelationEdges := s.retainedEdges
  finalized := s.isFinalized

end TelemetrySession

end NexusLab.Telemetry
