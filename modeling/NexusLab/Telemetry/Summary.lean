import NexusLab.Telemetry.Records

/-! # Summaries: metrics and job attribution

The summary folds observations into the metric registry and attributes the lifetime of every job
to one phase at a time. -/

namespace NexusLab.Telemetry

open Foundation

structure JobAttributionSnapshot where
  job : JobId
  schedulingWaitNs : Nat := 0
  computeNs : Nat := 0
  communicationNs : Nat := 0
  synchronizationWaitNs : Nat := 0
  stragglerDelayNs : Nat := 0
  terminalOtherNs : Nat := 0
  terminal : Bool := false
deriving DecidableEq

def durationOverflow : String := "telemetry attribution duration overflow"

inductive JobPhase where
  | schedulingWait
  | compute
  | communication
  | synchronizationWait
  | stragglerDelay
  | terminalOther
  | terminal
deriving DecidableEq

structure JobState where
  snapshot : JobAttributionSnapshot
  lastTransition : SimTimeNs
  phase : JobPhase := .schedulingWait
deriving DecidableEq

def terminalTransition : JobTransition → Bool
  | .succeeded => true
  | .failed => true
  | .cancelled => true
  | _ => false

def nextPhase (current : JobPhase) (transition : JobTransition) (collectiveActive : Bool) :
    JobPhase :=
  match transition with
  | .waiting => .schedulingWait
  | .admitted | .collectiveCompleted | .stepCompleted =>
    if current = .compute ∨ current = .stragglerDelay then current else .terminalOther
  | .computeStarted => .compute
  | .stragglerStarted => .stragglerDelay
  | .synchronizationStarted => .synchronizationWait
  | .computeCompleted => if collectiveActive then .communication else .synchronizationWait
  | .collectiveStarted =>
    if current = .compute ∨ current = .stragglerDelay then current else .communication
  | .succeeded | .failed | .cancelled => .terminal
  | .arrived => .schedulingWait

def addInterval (s : JobAttributionSnapshot) (phase : JobPhase) (duration : Nat) :
    Except Error JobAttributionSnapshot :=
  match phase with
  | .schedulingWait =>
    (checkedAdd durationOverflow s.schedulingWaitNs duration).map
      fun total => { s with schedulingWaitNs := total }
  | .compute =>
    (checkedAdd durationOverflow s.computeNs duration).map
      fun total => { s with computeNs := total }
  | .communication =>
    (checkedAdd durationOverflow s.communicationNs duration).map
      fun total => { s with communicationNs := total }
  | .synchronizationWait =>
    (checkedAdd durationOverflow s.synchronizationWaitNs duration).map
      fun total => { s with synchronizationWaitNs := total }
  | .stragglerDelay =>
    (checkedAdd durationOverflow s.stragglerDelayNs duration).map
      fun total => { s with stragglerDelayNs := total }
  | .terminalOther =>
    (checkedAdd durationOverflow s.terminalOtherNs duration).map
      fun total => { s with terminalOtherNs := total }
  -- time does not pass for a job that has ended
  | .terminal => .ok s

/-- The state of a job after one transition; the first one must be its arrival or its end. -/
def jobTransition (current : Option JobState) (job : JobId) (timestamp : SimTimeNs)
    (transition : JobTransition) (collectiveActive : Bool) : Except Error JobState :=
  match current with
  | none =>
    if transition ≠ .arrived ∧ terminalTransition transition = false then
      .error (.logicError "job attribution must begin with arrival or termination")
    -- a job that ends before it arrives is terminal at once
    else if terminalTransition transition then
      .ok { snapshot := { job, terminal := true }, lastTransition := timestamp, phase := .terminal }
    else .ok { snapshot := { job }, lastTransition := timestamp }
  | some state =>
    if state.snapshot.terminal then
      .error (.logicError "job attribution received a transition after termination")
    else if transition = .arrived then
      .error (.logicError "job attribution received duplicate arrival")
    -- the time of the job itself, which may lie behind that of the session
    else if timestamp < state.lastTransition then
      .error (.invalidArgument "job attribution timestamp regressed")
    else do
      -- the time since the last transition belongs to the phase that ends now
      let snapshot ← addInterval state.snapshot state.phase (timestamp - state.lastTransition)
      let phase := nextPhase state.phase transition collectiveActive
      return { snapshot := { snapshot with terminal := phase = .terminal }
               lastTransition := timestamp
               phase }

structure SummaryBuilder where
  metrics : MetricRegistry
  jobs : OrderedMap JobId JobState := .empty
  lastTimestamp : Option SimTimeNs := none
  maximumMetricSeries : Nat
  finalized : Bool := false

def validateMetricObservation (metrics : MetricRegistry) :
    TelemetryObservation → Except Error Unit
  | .counter value => metrics.validateIncrement value.metric value.labels value.amount
  | .gauge value => metrics.validateSetGauge value.metric value.labels
  | .histogram value => metrics.validateObserve value.metric value.labels value.value
  | _ => .ok ()

def applyMetricObservation : TelemetryObservation → Action MetricRegistry Unit
  | .counter value => MetricRegistry.increment value.metric value.labels value.amount
  | .gauge value => MetricRegistry.setGauge value.metric value.labels value.value
  | .histogram value => MetricRegistry.observe value.metric value.labels value.value
  | _ => pure ()

namespace SummaryBuilder

def create (maximumMetricSeries maximumHistogramBoundaries : Nat) :
    Except Error SummaryBuilder :=
  (MetricRegistry.create maximumMetricSeries maximumHistogramBoundaries).map
    fun metrics => { metrics, maximumMetricSeries }

def metricsLens : Lens SummaryBuilder MetricRegistry where
  get := metrics
  set m s := { s with metrics := m }
  get_set _ _ := rfl
  set_get _ := rfl
  set_set _ _ _ := rfl

/-- The counters a finished job adds to. -/
def terminalMetrics (state : JobState) : List (MetricId × Nat) :=
  [(.jobCommunicationNs, state.snapshot.communicationNs),
   (.jobSynchronizationWaitNs, state.snapshot.synchronizationWaitNs),
   (.jobStragglerDelayNs, state.snapshot.stragglerDelayNs)]

def validateTerminalMetrics (b : SummaryBuilder) (state : JobState) : Except Error Unit := do
  let missing := ((terminalMetrics state).filter fun entry =>
    (b.metrics.find entry.1 .none).isNone).length
  (terminalMetrics state).forM fun entry => b.metrics.validateIncrement entry.1 .none entry.2
  if missing > U64.sub b.maximumMetricSeries b.metrics.size then
    .error (.lengthError "telemetry metric series limit exceeded")
  else .ok ()

def applyTerminalMetrics (state : JobState) : Action SummaryBuilder Unit :=
  zoom metricsLens ((terminalMetrics state).forM fun entry =>
    MetricRegistry.increment entry.1 .none entry.2)

def validate (b : SummaryBuilder) (timestamp : SimTimeNs) (correlation : Correlation)
    (observation : TelemetryObservation) : Except Error Unit :=
  if b.finalized then .error (.logicError "cannot add to a finalized telemetry summary")
  else if b.lastTimestamp.any (timestamp < ·) then
    .error (.invalidArgument "telemetry summary timestamp regressed")
  else do
    validateMetricObservation b.metrics observation
    match observation with
    | .job value =>
      match correlation.job with
      | none => .error (.invalidArgument "job telemetry observation requires job correlation")
      | some job =>
        -- tried out here, and done again when it is consumed
        let next ← jobTransition (b.jobs.find? job) job timestamp value.transition
          correlation.collective.isSome
        if next.snapshot.terminal then b.validateTerminalMetrics next else .ok ()
    | _ => .ok ()

def consume (timestamp : SimTimeNs) (correlation : Correlation)
    (observation : TelemetryObservation) : Action SummaryBuilder Unit := do
  -- nothing changes unless everything passes
  fromExcept ((← get).validate timestamp correlation observation)
  zoom metricsLens (applyMetricObservation observation)
  match observation with
  | .job value =>
    let job ← getOrThrow correlation.job
      (.logicError "validated job telemetry lost its correlation")
    let next ← fromExcept (jobTransition ((← get).jobs.find? job) job timestamp value.transition
      correlation.collective.isSome)
    -- the durations are only known at the end
    runIf (next.snapshot.terminal = true) (applyTerminalMetrics next)
    modify fun b => { b with jobs := b.jobs.insert job next }
  | _ => pure ()
  modify fun b => { b with lastTimestamp := some timestamp }

/-- Closes the open interval of one job. -/
def finalizeJob (timestamp : SimTimeNs) (entry : JobId × JobState) :
    Action SummaryBuilder Unit :=
  runIf (entry.2.snapshot.terminal = false) do
    let snapshot ← fromExcept (addInterval entry.2.snapshot entry.2.phase
      (U64.sub timestamp entry.2.lastTransition))
    modify fun b => { b with
      jobs := b.jobs.insert entry.1 { entry.2 with snapshot, lastTransition := timestamp } }

def finalize (timestamp : SimTimeNs) : Action SummaryBuilder Unit := do
  throwIf ((← get).finalized = true) (.logicError "telemetry summary is already finalized")
  throwIf ((← get).lastTimestamp.any (timestamp < ·) = true)
    (.invalidArgument "telemetry summary final timestamp regressed")
  (← get).jobs.entries.forM (finalizeJob timestamp)
  modify fun b => { b with lastTimestamp := some timestamp, finalized := true }

def metricSnapshots (b : SummaryBuilder) : List MetricSeriesSnapshot := b.metrics.snapshots

def jobAttributions (b : SummaryBuilder) : List JobAttributionSnapshot :=
  b.jobs.values.map JobState.snapshot

end SummaryBuilder

end NexusLab.Telemetry
