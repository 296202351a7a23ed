import NexusLab.Sim.Calls
import NexusLab.Workload.Model

/-! # The workload engine

Jobs arrive, are placed on GPUs or wait for them, and then train: in every step each worker computes,
and the gradient goes bucket by bucket through the executor of collectives.  The engine hears of
events and of ended collectives, and it keeps the books of every job. -/

namespace NexusLab.Workload

open Foundation Sim Telemetry Collective NexusLab.Topology

/-! ## State -/

structure CollectiveRequest where
  participants : List GpuId
  bytes : Transport.ByteCount
  chunkBytes : Transport.ByteCount
deriving DecidableEq

/-- What runs collectives.  The rest of the program, `X`, has the simulation and the graph; the
executor reaches the simulation through the calls of its context only. -/
structure CollectiveExecutor (X : Type) where
  kernel : Lens X Kernel
  graph : X → TopologyGraph
  submit : CollectiveRequest → Action X CollectiveId
  cancel : CollectiveId → Action X Unit
  submit_calls : ∀ request, ThroughCalls kernel (submit request)
  cancel_calls : ∀ id, ThroughCalls kernel (cancel id)

/-- The engine's private record of a job. -/
structure Record where
  id : JobId
  spec : JobSpec
  state : JobState := .scheduled
  step : Nat := 0
  buckets : Nat := 0
  completedBuckets : Nat := 0
  computeComplete : Nat := 0
  stepStarted : SimTimeNs := 0
  computeGpuNs : Nat := 0
  finished : Option SimTimeNs := none
  arrivalEvent : Option EventId := none
  activeCollective : Option CollectiveId := none
  ready : List Nat := []
  events : List (Option EventId) := []
  reason : String := ""
  assigned : Bool := false
  allocatedAt : Option SimTimeNs := none

structure WorkloadEngine where
  limits : WorkloadLimits := {}
  scheduling : Option Scheduling.Configuration := none
  inventory : Option Scheduling.ResourceInventory := none
  policy : Option Scheduling.SchedulingPolicy := none
  admissionPending : Bool := false
  allocationEntries : Nat := 0
  placements : List Scheduling.PlacementDecision := []
  workerEntries : Nat := 0
  eventEntries : Nat := 0
  jobs : OrderedMap JobId Record := .empty
  assignments : OrderedMap GpuId JobId := .empty
  collectives : OrderedMap CollectiveId JobId := .empty
  completed : List JobSnapshot := []
  timeline : List JobTimeline := []

namespace WorkloadEngine

def create (graph : TopologyGraph) (limits : WorkloadLimits := {})
    (scheduling : Option Scheduling.Configuration := none)
    (policy : Option Scheduling.SchedulingPolicy := none) : Except Error WorkloadEngine := do
  let engine : WorkloadEngine ← match scheduling with
    | some configuration =>
      if configuration.decisionEntries = 0 ∨ configuration.allocationEntries = 0 ∨
          configuration.policy = "" ∨ configuration.policy.length > 256 then
        throw (.invalidArgument "invalid scheduling configuration")
      else
        let inventory ← Scheduling.ResourceInventory.create graph
        -- a custom policy stands in for the configured one, which is not looked up then
        let policy ← match policy with
          | some policy => pure policy
          | none => Scheduling.makePolicy configuration.policy configuration.seed
        pure { limits, scheduling, inventory := some inventory, policy := some policy }
    | none =>
      if policy.isSome then
        throw (.invalidArgument "custom policy requires scheduler configuration")
      else pure { limits }
  if limits.workerEntries = 0 ∨ limits.computeEventEntries = 0 ∨ limits.jobs = 0 ∨
      limits.workersPerJob = 0 ∨ limits.workersPerJob > 8192 ∨ limits.stepsPerJob = 0 ∨
      limits.bucketsPerStep = 0 ∨ limits.computeEventsPerJob = 0 ∨ limits.timelineEntries = 0 then
    throw (.invalidArgument "invalid workload limits")
  else return engine

end WorkloadEngine

/-- The engine with the rest of the program. -/
structure Working (X : Type) where
  engine : WorkloadEngine
  outside : X

namespace Working

variable {X : Type}

def outsideLens : Lens (Working X) X where
  get := outside
  set x w := { w with outside := x }
  get_set _ _ := rfl
  set_get _ := rfl
  set_set _ _ _ := rfl

end Working

/-- How many compute events a worker has in a step. -/
def Record.eventsPerWorker (record : Record) : Nat :=
  if record.spec.overlap then record.buckets else 1

/-- One more worker is ready with the bucket, or with all of them. -/
def Record.readied (record : Record) (bucket : Nat) : Record :=
  { record with
    ready := if record.spec.overlap then record.ready.modify bucket (· + 1)
      else record.ready.map (· + 1) }

/-! ## Inspection -/

/-- The GPU time a job has computed: what is on its books, and its part of the current step. -/
def Record.inspectCompute (record : Record) (now : SimTimeNs) : Except Error Nat :=
  if record.assigned = true ∧ record.state.terminal = false then
    if now < record.stepStarted then
      .error (.invalidArgument "snapshot precedes current step")
    else
      record.spec.compute.foldlM
        (fun compute duration => checkedSum compute (min duration (now - record.stepStarted)))
        record.computeGpuNs
  else .ok record.computeGpuNs

/-- The GPU time that a job has been given until `end_`. -/
def Record.inspectAllocated (record : Record) (end_ : SimTimeNs) : Except Error Nat :=
  match record.allocatedAt with
  | some allocatedAt => checkedProduct (U64.sub end_ allocatedAt) record.spec.workers.length
  | none => .ok 0

/-- What the accounting says of a job at a time. -/
def Record.inspect (record : Record) (now : SimTimeNs) : Except Error JobSnapshot :=
  let end_ := record.finished.getD now
  let base : JobSnapshot :=
    { id := record.id
      state := record.state
      completedSteps := record.step
      arrival := record.spec.arrival
      finished := record.finished
      computeGpuNs := 0
      idleGpuNs := 0
      elapsedNs := 0
      reason := record.reason
      allocatedAt := record.allocatedAt
      waitingNs := 0 }
  -- before its arrival, or if it ended before that, a job has no account
  if end_ < record.spec.arrival then .ok base
  else do
    let elapsed := end_ - record.spec.arrival
    let compute ← record.inspectCompute now
    -- without an allocation the job has waited to its end
    let waitEnd := record.allocatedAt.getD end_
    let waiting := U64.sub waitEnd record.spec.arrival
    let allocated ← record.inspectAllocated end_
    if compute > allocated then .error (.logicError "GPU compute exceeds allocated time")
    else
      return { base with
        computeGpuNs := compute
        idleGpuNs := allocated - compute
        elapsedNs := elapsed
        waitingNs := waiting }

namespace WorkloadEngine

section Engine

variable {X : Type} (executor : CollectiveExecutor X)

def onOutside {α : Type} (m : Action X α) : Action (Working X) α := zoom Working.outsideLens m

/-- A call of the simulation. -/
def onKernel {α : Type} (m : Action Kernel α) : Action (Working X) α :=
  onOutside (zoom executor.kernel m)

def now : Action (Working X) SimTimeNs := reads fun w => (executor.kernel.get w.outside).sim.now

def modifyEngine (f : WorkloadEngine → WorkloadEngine) : Action (Working X) Unit :=
  modify fun w => { w with engine := f w.engine }

/-- `jobs_.at`. -/
def jobAt (job : JobId) : Action (Working X) Record := do
  getOrThrow ((← get).engine.jobs.find? job) (.outOfRange "map::at")

/-- A write through a reference to the record of a job. -/
def modifyJob (job : JobId) (f : Record → Record) : Action (Working X) Unit :=
  modifyEngine fun engine => { engine with jobs := engine.jobs.adjust job f }

/-! ## Reports -/

def trace (job : JobId) (action : String) : Action (Working X) Unit := do
  let record ← jobAt job
  let time ← now executor
  throwIf ((← get).engine.timeline.length = (← get).engine.limits.timelineEntries)
    (.lengthError "workload timeline limit exceeded")
  modifyEngine fun engine => { engine with
    timeline := engine.timeline ++ [⟨record.id, time, record.state, record.step,
      record.completedBuckets, action, record.activeCollective⟩] }

def emitJob (job : JobId) (transition : JobTransition) (worker : Nat := 0) :
    Action (Working X) Unit := do
  let record ← jobAt job
  onKernel executor (Kernel.observe fun k => do
    let correlation ← fromExcept k.eventCorrelation
    let correlation := { correlation with
      job := some record.id, collective := record.activeCollective }
    let allocated := if record.assigned then record.spec.workers.length else 0
    Instrumentation.record k.sim.now correlation
      (.job ⟨transition, record.step, record.completedBuckets, worker, allocated⟩))

def emitTerminalMetrics (snapshot : JobSnapshot) : Action (Working X) Unit :=
  onKernel executor (Kernel.observe fun k => do
    let correlation ← fromExcept k.eventCorrelation
    let correlation := { correlation with job := some snapshot.id }
    let record := Instrumentation.record k.sim.now correlation
    record (.histogram ⟨.jobCompletionTimeNs, .none, snapshot.elapsedNs⟩)
    record (.histogram ⟨.jobSchedulingWaitNs, .none, snapshot.waitingNs⟩)
    record (.counter ⟨.jobComputeGpuNs, .none, snapshot.computeGpuNs⟩)
    record (.counter ⟨.jobGpuIdleNs, .none, snapshot.idleGpuNs⟩)
    record (.counter ⟨.jobCompletedSteps, .none, snapshot.completedSteps⟩)
    let labels ← fromExcept (MetricLabels.ofList [⟨.outcome, snapshot.state.value⟩])
    record (.counter ⟨.jobTerminalTotal, labels, 1⟩))

def placementOutcome : Scheduling.PlacementOutcome → PlacementDecisionOutcome
  | .placed => .placed
  | .waiting => .waiting
  | .rejected => .rejected

def emitPlacement (decision : Scheduling.PlacementDecision) (id : PlacementDecisionId) :
    Action (Working X) Unit :=
  onKernel executor (Kernel.observe fun k => do
    let outcome := placementOutcome decision.outcome
    let correlation ← fromExcept k.eventCorrelation
    let correlation := { correlation with
      job := some decision.job, placementDecision := some id }
    let record := Instrumentation.record k.sim.now correlation
    record (.placementDecision
      ⟨id, decision.policy, decision.version, decision.priority, decision.requestedWorkers,
        decision.workers, decision.locality.racks, decision.locality.nics,
        decision.locality.crossRackRingEdges, decision.reason, outcome⟩)
    let labels ← fromExcept (MetricLabels.ofList
      [⟨.policy, policyLabelValue decision.policy⟩, ⟨.outcome, outcome.value⟩])
    record (.counter ⟨.placementDecisionTotal, labels, 1⟩)
    runIf (decision.outcome = .placed) do
      record (.histogram ⟨.placementCrossRackRingEdges, .none,
        decision.locality.crossRackRingEdges⟩)
      record (.histogram ⟨.placementRackCount, .none, decision.locality.racks⟩)
      record (.histogram ⟨.placementNicCount, .none, decision.locality.nics⟩))

/-! ## The end of a job -/

/-- Takes back the pending events of a job, and its collective. -/
def withdraw (job : JobId) : Action (Working X) Unit := do
  let record ← jobAt job
  record.events.forM fun event =>
    match event with
    -- cancelling reports an event that is gone by false, and that is ignored
    | some id => do let _ ← onKernel executor (Kernel.cancel id)
    | none => pure ()
  match record.arrivalEvent with
  | some id =>
    let _ ← onKernel executor (Kernel.cancel id)
    modifyJob job fun record => { record with arrivalEvent := none }
  | none => pure ()
  match record.activeCollective with
  -- the result of the collective is still to come and finds the job ended
  | some id => onOutside (executor.cancel id)
  | none => pure ()

/-- Gives the GPUs of a job back. -/
def releaseWorkers (job : JobId) : Action (Working X) Unit := do
  let record ← jobAt job
  runIf (record.assigned = true) do
    modifyEngine fun engine => { engine with
      assignments := record.spec.workers.foldl OrderedMap.erase engine.assignments }
  modifyEngine fun engine =>
    match engine.inventory with
    | some inventory => { engine with
        inventory := some (inventory.release record.id), admissionPending := true }
    | none => engine

def terminalTransition : JobState → JobTransition
  | .succeeded => .succeeded
  | .cancelled => .cancelled
  | _ => .failed

def finish (job : JobId) (state : JobState) (reason : String) : Action (Working X) Unit := do
  let record ← jobAt job
  runIf (record.state.terminal = false) do
    let time ← now executor
    -- a step that is cut short counts for the time that it ran
    runIf (state ≠ .succeeded ∧ record.assigned = true) do
      let snapshot ← fromExcept (record.inspect time)
      modifyJob job fun record => { record with computeGpuNs := snapshot.computeGpuNs }
    withdraw executor job
    releaseWorkers job
    modifyJob job fun record => { record with state, reason, finished := some time }
    trace executor job "job_terminal"
    -- the result is inspected after the end is set
    let snapshot ← fromExcept ((← jobAt job).inspect time)
    modifyEngine fun engine => { engine with completed := engine.completed ++ [snapshot] }
    emitJob executor job (terminalTransition state)
    emitTerminalMetrics executor snapshot

/-! ## A step of training -/

/-- When a worker has the gradient of its `index`-th event ready, after the start of the step. -/
def computeOffset (duration eventsPerWorker index : Nat) : Except Error Nat := do
  let fraction := index + 1
  let whole ← checkedProduct (duration / eventsPerWorker) fraction
  let rest ← checkedProduct (duration % eventsPerWorker) fraction
  checkedSum whole (U64.sub (U64.add rest eventsPerWorker) 1 / eventsPerWorker)

/-- Schedules one compute event of a step. -/
def scheduleCompute (job : JobId) (worker index : Nat) : Action (Working X) Unit := do
  let record ← jobAt job
  let duration ← getOrThrow record.spec.compute[worker]?
    (.undefinedBehavior "compute duration out of range")
  let offset ← fromExcept (computeOffset duration record.eventsPerWorker index)
  let time ← getOrThrow (checkedAdd (← now executor) offset)
    (.overflowError "compute event time overflow")
  let bucket := if record.spec.overlap then index else record.buckets - 1
  let id ← onKernel executor (Kernel.schedule
    ⟨time, .normal, .workload ⟨record.id, .computeReady, worker, record.step, bucket⟩⟩)
  modifyJob job fun record => { record with
    events := record.events.set (worker * record.eventsPerWorker + index) (some id) }

def startStep (job : JobId) : Action (Working X) Unit := do
  let time ← now executor
  modifyJob job fun record => { record with
    state := .computing
    stepStarted := time
    completedBuckets := 0
    computeComplete := 0
    ready := List.replicate record.buckets 0
    events := List.replicate (record.spec.workers.length * record.eventsPerWorker) none }
  let record ← jobAt job
  -- worker by worker, and for each its buckets in order
  (List.range record.spec.workers.length).forM fun worker =>
    (List.range record.eventsPerWorker).forM fun index => scheduleCompute executor job worker index
  trace executor job "step_compute_started"
  emitJob executor job .computeStarted

def startCollective (job : JobId) : Action (Working X) Unit := do
  let record ← jobAt job
  -- one collective at a time, in the order of the buckets
  runIf (record.activeCollective = none) do
    let ready ← getOrThrow record.ready[record.completedBuckets]?
      (.undefinedBehavior "bucket out of range")
    -- the bucket waits for its last worker
    runIf (ready = record.spec.workers.length) do
      let consumed ← fromExcept (checkedProduct record.completedBuckets record.spec.bucketBytes)
      -- what is left of the gradient, if this is the last bucket
      let bytes := min record.spec.bucketBytes (U64.sub record.spec.gradientBytes consumed)
      let id ← onOutside (executor.submit ⟨record.spec.workers, bytes, record.spec.chunkBytes⟩)
      modifyJob job fun record => { record with activeCollective := some id }
      modifyEngine fun engine => { engine with
        collectives := engine.collectives.emplace id record.id }
      modifyJob job fun record => { record with
        state := if record.computeComplete = record.spec.workers.length then .communicating
          else .overlapping }
      trace executor job "bucket_collective_started"
      emitJob executor job .collectiveStarted

def computeReady (job : JobId) (event : WorkloadEvent) : Action (Working X) Unit := do
  let record ← jobAt job
  throwIf (record.state = .scheduled ∨ record.state = .waiting ∨ event.step ≠ record.step ∨
      event.worker ≥ record.spec.workers.length ∨ event.bucket ≥ record.buckets)
    (.logicError "stale workload compute event")
  -- the events of a worker stand in a row
  let index := event.worker * record.eventsPerWorker + if record.spec.overlap then event.bucket else 0
  let pending ← getOrThrow record.events[index]? (.undefinedBehavior "compute event out of range")
  throwIf (pending = none) (.logicError "unexpected compute completion")
  let current ← onKernel executor Kernel.currentEventId
  throwIf (pending ≠ some current) (.logicError "unexpected compute completion")
  modifyJob job fun record =>
    { record with events := record.events.set index none }.readied event.bucket
  -- the worker is through with its step
  runIf (event.bucket = record.buckets - 1) do
    modifyJob job fun record => { record with computeComplete := record.computeComplete + 1 }
    -- once the first of several workers is through, the others are its stragglers
    runIf ((← jobAt job).computeComplete = 1 ∧ record.spec.workers.length > 1) do
      emitJob executor job .stragglerStarted event.worker
  -- all workers are through; only a running collective is left to wait for
  runIf ((← jobAt job).computeComplete = record.spec.workers.length) do
    runIf (record.activeCollective.isSome = true) do
      modifyJob job fun record => { record with state := .communicating }
    trace executor job "step_compute_finished"
    emitJob executor job .computeCompleted event.worker
  startCollective executor job

/-- The step is over: its compute time is on the books. -/
def completeStep (job : JobId) : Action (Working X) Unit := do
  (← jobAt job).spec.compute.forM fun duration => do
    let total ← fromExcept (checkedSum (← jobAt job).computeGpuNs duration)
    modifyJob job fun record => { record with computeGpuNs := total }
  emitJob executor job .stepCompleted
  modifyJob job fun record => { record with step := record.step + 1 }
  let record ← jobAt job
  if record.step = record.spec.steps then
    finish executor job .succeeded "all training steps completed"
  else startStep executor job

/-- A collective of a running job has succeeded. -/
def completeBucket (job : JobId) : Action (Working X) Unit := do
  trace executor job "bucket_collective_completed"
  emitJob executor job .collectiveCompleted
  modifyJob job fun record => { record with
    activeCollective := none, completedBuckets := record.completedBuckets + 1 }
  let record ← jobAt job
  if record.completedBuckets = record.buckets then completeStep executor job
  else do
    modifyJob job fun record => { record with
      state := if record.computeComplete = record.spec.workers.length then .communicating
        else .computing }
    startCollective executor job

/-! ## Admission -/

/-- The GPUs are the job's from now on. -/
def assign (job : JobId) (workers : List GpuId) : Action (Working X) Unit := do
  let record ← jobAt job
  modifyEngine fun engine => { engine with
    assignments := workers.foldl (fun assignments gpu => assignments.emplace gpu record.id)
      engine.assignments }
  let time ← now executor
  modifyJob job fun record => { record with
    spec := { record.spec with workers }, assigned := true, allocatedAt := some time }

def arrive (job : JobId) : Action (Working X) Unit := do
  emitJob executor job .arrived
  let record ← jobAt job
  let engine := (← get).engine
  -- with a scheduler the job waits for an admission pass
  if engine.inventory.isSome then do
    modifyJob job fun record => { record with state := .waiting }
    trace executor job "job_waiting"
    emitJob executor job .waiting
    modifyEngine fun engine => { engine with admissionPending := true }
  -- a pinned job does not wait: a GPU that is taken fails it
  else if record.spec.workers.any engine.assignments.contains then
    finish executor job .failed "GPU assignment conflict"
  else do
    assign executor job record.spec.workers
    emitJob executor job .admitted
    startStep executor job

/-- What the engine asks of the answer of a policy. -/
def checkPlacement (record : Record) (placement : Scheduling.Placement) : Except Error Unit :=
  if placement.reason = "" ∨ placement.reason.length > 256 ∨
      (placement.outcome ≠ .placed ∧ placement.workers ≠ []) then
    .error (.logicError "invalid scheduling policy result")
  else if placement.outcome = .placed ∧ (placement.workers.length ≠ record.spec.compute.length ∨
      (record.spec.workers ≠ [] ∧ placement.workers ≠ record.spec.workers)) then
    .error (.logicError "policy violated allocation dimensions or pinned order")
  else .ok ()

/-- The allocation of a placement, and the locality of its workers. -/
def allocate (configuration : Scheduling.Configuration) (inventory : Scheduling.ResourceInventory)
    (job : JobId) (placement : Scheduling.Placement) :
    Action (Working X) (Scheduling.ResourceInventory × Scheduling.Locality) := do
  if placement.outcome = .placed then do
    let entries := (← get).engine.allocationEntries
    -- nothing has changed yet when the limit refuses
    throwIf (placement.workers.length > U64.sub configuration.allocationEntries entries)
      (.lengthError "scheduler allocation record limit exceeded")
    let inventory ← fromExcept (inventory.allocate job placement.workers)
    modifyEngine fun engine => { engine with
      inventory := some inventory
      allocationEntries := engine.allocationEntries + placement.workers.length }
    let locality ← fromExcept (Scheduling.locality inventory.gpus placement.workers)
    return (inventory, locality)
  else return (inventory, {})

/-- The engine's request to the policy. -/
def request (record : Record) : Scheduling.JobRequest :=
  ⟨record.id, record.spec.compute.length, record.spec.priority, record.spec.workers⟩

def admitJob (job : JobId) : Action (Working X) Unit := do
  let engine := (← get).engine
  let configuration ← getOrThrow engine.scheduling (.logicError "admission requires scheduler")
  throwIf (engine.placements.length = configuration.decisionEntries)
    (.lengthError "scheduler decision limit exceeded")
  let inventory ← getOrThrow engine.inventory (.undefinedBehavior "no inventory")
  let policy ← getOrThrow engine.policy (.undefinedBehavior "no policy")
  -- taken before the policy is asked, so a rejected placement reports it too
  let before := Scheduling.fragmentation inventory.gpus
  let record ← jobAt job
  let placement ← fromExcept (policy.place (request record) inventory.gpus)
  fromExcept (checkPlacement record placement)
  -- only a placement that was made takes GPUs out of the inventory
  let (inventory, locality) ← allocate configuration inventory record.id placement
  let time ← now executor
  let decision : Scheduling.PlacementDecision :=
    { job := record.id
      timestamp := time
      policy := configuration.policy
      version := 1
      priority := record.spec.priority
      requestedWorkers := record.spec.compute.length
      outcome := placement.outcome
      workers := placement.workers
      reason := placement.reason
      locality
      fragmentationBefore := before
      fragmentationAfter := Scheduling.fragmentation inventory.gpus }
  -- every outcome is a decision, and the job acts on it afterwards
  modifyEngine fun engine => { engine with placements := engine.placements ++ [decision] }
  emitPlacement executor decision ⟨engine.placements.length⟩
  modifyJob job fun record => { record with reason := placement.reason }
  match placement.outcome with
  | .rejected => finish executor job .failed placement.reason
  | .waiting => pure ()
  | .placed =>
    assign executor job placement.workers
    trace executor job "job_allocated"
    emitJob executor job .admitted
    startStep executor job

/-- The order in which waiting jobs are tried. -/
def triedBefore (a b : Record) : Bool :=
  if a.spec.priority ≠ b.spec.priority then a.spec.priority > b.spec.priority
  else if a.spec.arrival ≠ b.spec.arrival then a.spec.arrival < b.spec.arrival
  else a.id < b.id

def waitingJobs (engine : WorkloadEngine) : List Record :=
  (engine.jobs.values.filter fun record => record.state = .waiting).insertionSort
    fun a b => triedBefore a b = true

def dispatchWaiting : Action (Working X) Unit := do
  let engine := (← get).engine
  runIf (engine.admissionPending = true ∧ engine.inventory.isSome = true) do
    modifyEngine fun engine => { engine with admissionPending := false }
    (waitingJobs engine).forM fun record => admitJob executor record.id
    modifyEngine fun engine => { engine with admissionPending := false }

/-! ## Events -/

def gpuState (event : WorkloadEvent) : Action (Working X) Unit := do
  let inventory ← getOrThrow (← get).engine.inventory (.logicError "GPU state without scheduler")
  let (owner, inventory) ← fromExcept
    (inventory.setHealth ⟨event.worker⟩ (event.kind = .gpuUp))
  modifyEngine fun engine => { engine with inventory := some inventory }
  match owner with
  | some job => runIf (event.kind = .gpuDown) do
    let _ ← jobAt job
    finish executor job .failed "allocated GPU failed"
  | none => pure ()
  modifyEngine fun engine => { engine with admissionPending := true }

def handle (event : WorkloadEvent) : Action (Working X) Unit := do
  if event.kind = .gpuDown ∨ event.kind = .gpuUp then gpuState executor event
  else do
    let record ← jobAt event.job
    -- whatever reaches a job after its end is ignored
    runIf (record.state.terminal = false) do
      match event.kind with
      | .arrival =>
        throwIf (record.arrivalEvent = none) (.logicError "unexpected job arrival")
        let current ← onKernel executor Kernel.currentEventId
        throwIf (record.arrivalEvent ≠ some current) (.logicError "unexpected job arrival")
        modifyJob event.job fun record => { record with arrivalEvent := none }
        arrive executor event.job
      | .computeReady => computeReady executor event.job event
      | .cancel => finish executor event.job .cancelled "job cancelled"
      | .workerFailure =>
        throwIf (event.worker ≥ record.spec.compute.length)
          (.invalidArgument "unknown failed worker")
        finish executor event.job .failed "worker failed"
      -- the GPU events are dealt with above
      | _ => throw (.invalidArgument "unknown workload event")

/-- The engine hears of a collective that has ended. -/
def handleResult (completion : CollectiveResult) : Action (Working X) Unit := do
  let job ← getOrThrow ((← get).engine.collectives.find? completion.id)
    (.logicError "unowned collective result")
  let record ← jobAt job
  modifyEngine fun engine => { engine with
    collectives := engine.collectives.erase completion.id }
  if record.state.terminal then
    modifyJob job fun record => { record with activeCollective := none }
  else if completion.outcome ≠ .succeeded then do
    emitJob executor job .collectiveCompleted
    modifyJob job fun record => { record with activeCollective := none }
    finish executor job .failed completion.reason
  else completeBucket executor job

/-! ## Scheduling -/

/-- The worker assignments and durations of a job, with those seen before. -/
def validateWorkers (graph : TopologyGraph) (spec : JobSpec) :
    List GpuId → List SimDurationNs → List GpuId → Nat → Except Error Nat
  | _, [], _, computeTotal => .ok computeTotal
  | workers, duration :: compute, unique, computeTotal =>
    if workers.head?.any (fun gpu => (graph.findGpu gpu).isNone || unique.contains gpu) = true ∨
        duration = 0 then
      .error (.invalidArgument "invalid worker assignment or compute duration")
    else do
      let computeTotal ← checkedSum computeTotal duration
      let whole ← checkedProduct spec.steps duration
      let _ ← checkedSum spec.arrival whole
      validateWorkers graph spec workers.tail compute (workers.head?.toList ++ unique) computeTotal

/-- The number of buckets of an acceptable job. -/
def validate (engine : WorkloadEngine) (graph : TopologyGraph) (spec : JobSpec) :
    Except Error Nat := do
  let workers := if spec.requestedWorkers ≠ 0 then spec.requestedWorkers else spec.workers.length
  if spec.requestedWorkers ≠ 0 ∧ (engine.scheduling.isNone = true ∨ spec.workers ≠ []) then
    throw (.invalidArgument "requested workers require scheduling and exclude pinned workers")
  else if spec.collective ≠ .allReduce ∨ spec.algorithm ≠ .ring ∨ spec.name = "" ∨
      spec.name.length > 256 ∨ workers = 0 ∨ workers > engine.limits.workersPerJob ∨
      spec.compute.length ≠ workers ∨ spec.steps = 0 ∨ spec.steps > engine.limits.stepsPerJob ∨
      spec.gradientBytes = 0 ∨ spec.bucketBytes = 0 ∨ spec.chunkBytes = 0 then
    throw (.invalidArgument "invalid workload job specification")
  else
    -- the last bucket may be a short one
    let buckets := spec.gradientBytes / spec.bucketBytes +
      if spec.gradientBytes % spec.bucketBytes ≠ 0 then 1 else 0
    if buckets > engine.limits.bucketsPerStep then
      throw (.lengthError "workload bucket or compute-event limit exceeded")
    else
      -- with overlap every worker reports each bucket, and without it only the last
      let events ← checkedProduct workers (if spec.overlap then buckets else 1)
      if events > engine.limits.computeEventsPerJob then
        throw (.lengthError "workload bucket or compute-event limit exceeded")
      else
        let computeTotal ← validateWorkers graph spec spec.workers spec.compute [] 0
        -- the compute of all steps fits a word, so the accounts cannot wrap
        let _ ← checkedProduct computeTotal spec.steps
        return buckets

def schedule (specification : JobSpec) : Action (Working X) JobId := do
  let w ← get
  let buckets ← fromExcept (w.engine.validate (executor.graph w.outside) specification)
  let engine := w.engine
  throwIf (engine.jobs.size = engine.limits.jobs) (.lengthError "workload job limit exceeded")
  -- an unpinned job is charged for the workers that it asks for
  let workers := specification.compute.length
  let slots := workers * if specification.overlap then buckets else 1
  throwIf (workers > U64.sub engine.limits.workerEntries engine.workerEntries ∨
      slots > U64.sub engine.limits.computeEventEntries engine.eventEntries)
    (.lengthError "workload global retained-state limit exceeded")
  let id : JobId := ⟨engine.jobs.size⟩
  -- the event comes first: when it is refused, the engine has not changed
  let event ← onKernel executor (Kernel.schedule
    ⟨specification.arrival, .normal, .workload { job := id, kind := .arrival }⟩)
  modifyEngine fun engine => { engine with
    workerEntries := engine.workerEntries + workers
    eventEntries := engine.eventEntries + slots
    jobs := engine.jobs.emplace id
      { id, spec := specification, buckets, arrivalEvent := some event } }
  return id

def scheduleControl (job : JobId) (kind : WorkloadEventKind) (time : SimTimeNs)
    (worker : Nat := 0) : Action (Working X) EventId := do
  let record ← jobAt job
  throwIf ((kind ≠ .cancel ∧ kind ≠ .workerFailure) ∨ worker ≥ record.spec.compute.length)
    (.invalidArgument "invalid workload control event")
  onKernel executor (Kernel.schedule ⟨time, .critical, .workload { job, kind, worker }⟩)

def scheduleGpuState (gpu : GpuId) (healthy : Bool) (time : SimTimeNs) :
    Action (Working X) EventId := do
  let w ← get
  throwIf (w.engine.inventory = none ∨ (executor.graph w.outside).findGpu gpu = none ∨
      gpu.value > maxU32)
    (.invalidArgument "GPU state requires scheduler and known GPU")
  onKernel executor (Kernel.schedule ⟨time, .critical, .workload
    { job := ⟨0⟩, kind := if healthy then .gpuUp else .gpuDown, worker := gpu.value }⟩)

/-! ## Queries -/

def snapshot (engine : WorkloadEngine) (id : JobId) (time : SimTimeNs) :
    Except Error (Option JobSnapshot) :=
  match engine.jobs.find? id with
  | none => .ok none
  | some record => some <$> record.inspect time

def takeCompleted : Action (Working X) (List JobSnapshot) := do
  let w ← get
  modifyEngine fun engine => { engine with completed := [] }
  return w.engine.completed

end Engine

end WorkloadEngine

end NexusLab.Workload
