import NexusLab.Collective.Runtime
import NexusLab.Workload.Engine

/-! # The ring executor

The executor runs each collective round by round: it issues the transfers of a round, waits until
they have all drained, and goes on, unless something has failed by then.  Transfers between GPUs of
one NIC are events of the executor's own; the others go through the router. -/

namespace NexusLab.Collective

open Foundation Sim Telemetry NexusLab.Topology Routing Workload

/-! ## State -/

structure CollectiveConfiguration where
  localBandwidth : Transport.BitsPerSecond := 800000000000
  localLatency : SimDurationNs := 0
  maximumCollectives : Nat := 100000
  maximumParticipantEntries : Nat := 1000000
  maximumTimelineEntries : Nat := 1000000
deriving DecidableEq

structure CollectiveProgress where
  phase : Phase
  round : Nat
  pending : Nat
  issuedFabricBytes : Nat
  issuedLocalBytes : Nat
  deliveredBytes : Nat
  completion : Option CollectiveResult
deriving DecidableEq

/-- The executor's private record of a collective. -/
structure Record where
  request : CollectiveRequest
  result : CollectiveResult
  phase : Phase := .reduceScatter
  round : Nat := 0
  pending : Nat := 0
  failed : Bool := false
  cancelled : Bool := false
  finished : Bool := false
deriving DecidableEq

/-- The phase that a collective ends in. -/
def Record.endPhase (record : Record) : Phase :=
  if record.cancelled then .cancelled else if record.failed then .failed else .succeeded

/-- The record once a round is over: at its next round, or past the last one. -/
def Record.nextRound (record : Record) : Record :=
  let round := U32.add record.round 1
  if round = record.request.participants.length - 1 ∧ record.phase ≠ .allGather then
    { record with phase := .allGather, round := 0 }
  else { record with round }

structure Pending where
  collective : CollectiveId
  bytes : Nat
deriving DecidableEq

structure LocalPending where
  transfer : Pending
  event : LocalCompletionEvent
deriving DecidableEq

structure RingExecutor where
  configuration : CollectiveConfiguration := {}
  participantEntries : Nat := 0
  nextFlow : Nat := 0
  records : OrderedMap CollectiveId Record := .empty
  transfers : OrderedMap TransferId Pending := .empty
  locals : OrderedMap EventId LocalPending := .empty
  completed : List CollectiveResult := []
  timeline : List CollectiveTimeline := []

def RingExecutor.create (configuration : CollectiveConfiguration := {}) :
    Except Error RingExecutor :=
  if configuration.localBandwidth = 0 ∨ configuration.maximumCollectives = 0 ∨
      configuration.maximumParticipantEntries = 0 ∨ configuration.maximumTimelineEntries = 0 then
    .error (.invalidArgument "invalid collective configuration")
  else .ok { configuration }

/-- An executor with the fabric it submits to. -/
structure Ring where
  fabric : Fabric
  executor : RingExecutor

namespace Ring

def fabricLens : Lens Ring Fabric where
  get := fabric
  set f r := { r with fabric := f }
  get_set _ _ := rfl
  set_get _ := rfl
  set_set _ _ _ := rfl

def kernelLens : Lens Ring Kernel where
  get r := r.fabric.network.kernel
  set k r := { r with fabric := { r.fabric with network := { r.fabric.network with kernel := k } } }
  get_set _ _ := rfl
  set_get _ := rfl
  set_set _ _ _ := rfl

def graph (r : Ring) : TopologyGraph := r.fabric.network.graph

def now : Action Ring SimTimeNs := reads fun r => r.fabric.network.now

def modifyExecutor (f : RingExecutor → RingExecutor) : Action Ring Unit :=
  modify fun r => { r with executor := f r.executor }

/-- A read through a reference to the record of a collective. -/
def recordAt (id : CollectiveId) : Action Ring Record := do
  getOrThrow ((← get).executor.records.find? id) (.outOfRange "map::at")

/-- A write through such a reference. -/
def modifyRecord (id : CollectiveId) (f : Record → Record) : Action Ring Unit :=
  modifyExecutor fun e => { e with records := e.records.adjust id f }

/-! ## Reports -/

def emit (id : CollectiveId) (transition : CollectiveTransition)
    (transfer : Option TransferId := none) (bytes : Nat := 0) : Action Ring Unit := do
  let record ← recordAt id
  zoom kernelLens (Kernel.observe fun k => do
    let correlation ← fromExcept k.eventCorrelation
    let correlation := { correlation with collective := some record.result.id, transfer }
    Instrumentation.record k.sim.now correlation
      (.collective ⟨transition, record.phase, record.round, bytes⟩))

def emitCounter (id : CollectiveId) (metric : MetricId) (amount : Nat)
    (transfer : Option TransferId := none) : Action Ring Unit := do
  let record ← recordAt id
  zoom kernelLens (Kernel.observe fun k => do
    let correlation ← fromExcept k.eventCorrelation
    let correlation := { correlation with collective := some record.result.id, transfer }
    Instrumentation.record k.sim.now correlation (.counter ⟨metric, .none, amount⟩))

def emitDuration (id : CollectiveId) : Action Ring Unit := do
  let record ← recordAt id
  zoom kernelLens (Kernel.observe fun k => do
    let correlation ← fromExcept k.eventCorrelation
    let correlation := { correlation with collective := some record.result.id }
    Instrumentation.record k.sim.now correlation (.histogram
      ⟨.collectiveDurationNs, .none, U64.sub k.sim.now record.result.started⟩))

def trace (id : CollectiveId) : Action Ring Unit := do
  let record ← recordAt id
  let executor := (← get).executor
  throwIf (executor.timeline.length = executor.configuration.maximumTimelineEntries)
    (.lengthError "collective timeline limit exceeded")
  let time ← now
  modifyExecutor fun e => { e with
    timeline := e.timeline ++ [⟨record.result.id, time, record.phase, record.round⟩] }

/-! ## The end of a collective -/

def endTransition : Phase → CollectiveTransition
  | .failed => .failed
  | .cancelled => .cancelled
  | _ => .succeeded

def finish (id : CollectiveId) : Action Ring Unit := do
  throwIf ((← recordAt id).finished = true) (.logicError "collective completed twice")
  modifyRecord id fun record => { record with finished := true, phase := record.endPhase }
  let record ← recordAt id
  -- a success has delivered all that was planned
  throwIf (record.phase = .succeeded ∧ record.result.deliveredBytes ≠ record.result.plannedBytes)
    (.logicError "ring byte conservation failure")
  let time ← now
  modifyRecord id fun record => { record with
    result := { record.result with outcome := record.phase, finished := time } }
  trace id
  let record ← recordAt id
  -- published only after the trace has taken it
  modifyExecutor fun e => { e with completed := e.completed ++ [record.result] }
  emit id (endTransition record.phase) none record.result.deliveredBytes
  emitDuration id

/-! ## Rounds -/

/-- A transfer within one NIC. -/
def issueLocal (id : CollectiveId) (transfer : RingTransfer) : Action Ring Unit := do
  let record ← recordAt id
  let configuration := (← get).executor.configuration
  let duration ← getOrThrow (Transport.serializationDelay transfer.bytes configuration.localBandwidth)
    (.overflowError "local collective delay overflow")
  -- serialization over the local bandwidth, then the latency
  let arrival ← getOrThrow
    ((checkedAdd (← now) duration).bind (checkedAdd · configuration.localLatency))
    (.overflowError "local collective arrival overflow")
  let completion : LocalCompletionEvent :=
    ⟨record.result.id, record.round, transfer.source, record.phase⟩
  -- control priority: it comes before arrivals of the same time
  let event ← zoom kernelLens (Kernel.schedule ⟨arrival, .control, .localCompletion completion⟩)
  modifyExecutor fun e => { e with
    locals := e.locals.emplace event ⟨⟨record.result.id, transfer.bytes⟩, completion⟩ }
  modifyRecord id fun record => { record with result := { record.result with
    issuedLocalBytes := U64.add record.result.issuedLocalBytes transfer.bytes } }
  emit id .transferIssued none transfer.bytes
  emitCounter id .collectiveIssuedLocalBytes transfer.bytes
  modifyRecord id fun record => { record with pending := U64.add record.pending 1 }

/-- A transfer between two NICs. -/
def issueFabric (id : CollectiveId) (transfer : RingTransfer) (source destination : NicId) :
    Action Ring Unit := do
  let flow := (← get).executor.nextFlow
  throwIf (flow = maxU64) (.overflowError "collective routing key exhausted")
  -- the key is spent even if there turns out to be no route
  modifyExecutor fun e => { e with nextFlow := flow + 1 }
  let record ← recordAt id
  let submitted ← zoom fabricLens (Fabric.submit
    ⟨flow, ⟨.ofNic source, .ofNic destination⟩, transfer.bytes, record.request.chunkBytes⟩)
  match submitted with
  -- nothing more is issued then, and the round ends with what is pending
  | none => modifyRecord id fun record => { record with
      failed := true
      result := { record.result with reason := "no route for collective round" } }
  | some submitted =>
    modifyExecutor fun e => { e with
      transfers := e.transfers.emplace submitted.id ⟨record.result.id, transfer.bytes⟩ }
    modifyRecord id fun record => { record with result := { record.result with
      issuedFabricBytes := U64.add record.result.issuedFabricBytes transfer.bytes } }
    emit id .transferIssued (some submitted.id) transfer.bytes
    emitCounter id .collectiveIssuedFabricBytes transfer.bytes (some submitted.id)
    -- pending last: a throw above leaves the transfer uncounted
    modifyRecord id fun record => { record with pending := U64.add record.pending 1 }

/-- The NIC of a participant, whose GPU is followed without a check. -/
def nicOf (record : Record) (rank : Nat) : Action Ring NicId := do
  let gpu ← getOrThrow record.request.participants[rank]?
    (.undefinedBehavior "participant out of range")
  let worker ← getOrThrow ((← get).graph.findGpu gpu) (.undefinedBehavior "unknown participant")
  return worker.attachedNic

def issue (id : CollectiveId) (transfer : RingTransfer) : Action Ring Unit := do
  let record ← recordAt id
  let source ← nicOf record transfer.source
  let destination ← nicOf record transfer.destination
  if source = destination then issueLocal id transfer
  else issueFabric id transfer source destination

/-- One transfer of a round, while nothing has failed. -/
def issueNext (id : CollectiveId) (transfer : RingTransfer) : Action Ring Unit := do
  let record ← recordAt id
  runIf (transfer.bytes ≠ 0 ∧ record.failed = false) (issue id transfer)

def startRound (id : CollectiveId) : Action Ring Unit := do
  trace id
  let record ← recordAt id
  runIf (record.round = 0) (emit id .phaseStarted)
  emit id .roundStarted
  let plan ← fromExcept (planRound record.request.participants.length record.request.bytes
    record.phase record.round)
  plan.forM (issueNext id)
  runIf ((← recordAt id).pending = 0) (finish id)

def advance (id : CollectiveId) : Action Ring Unit := do
  let record ← recordAt id
  runIf (record.pending = 0) do
    emit id .roundCompleted
    if record.failed = true ∨ record.cancelled = true then finish id
    else
      modifyRecord id Record.nextRound
      if U32.add record.round 1 = record.request.participants.length - 1 ∧
          record.phase = .allGather then
        finish id
      else startRound id

/-! ## Calls -/

/-- Whether the participants are GPUs of the graph, each of them once. -/
def checkParticipants (graph : TopologyGraph) : List GpuId → List GpuId → Except Error Unit
  | [], _ => .ok ()
  | gpu :: rest, unique =>
    if (graph.findGpu gpu).isNone = true ∨ unique.contains gpu = true then
      .error (.invalidArgument "unknown or duplicate collective GPU")
    else checkParticipants graph rest (gpu :: unique)

def submit (request : CollectiveRequest) : Action Ring CollectiveId := do
  throwIf (request.participants = [] ∨ request.participants.length > 8192 ∨ request.chunkBytes = 0)
    (.invalidArgument "invalid collective participants or chunk size")
  let volume ← fromExcept (plannedVolume request.participants.length request.bytes)
  let ring ← get
  let executor := ring.executor
  throwIf (executor.records.size ≥ executor.configuration.maximumCollectives ∨
      request.participants.length >
        U64.sub executor.configuration.maximumParticipantEntries executor.participantEntries)
    (.lengthError "collective retained-state limit exceeded")
  fromExcept (checkParticipants ring.graph request.participants [])
  -- identifiers are dense, so the next one is the number of records
  let id : CollectiveId := ⟨executor.records.size⟩
  let time ← now
  modifyExecutor fun e => { e with
    records := e.records.emplace id
      { request
        result :=
          { id
            outcome := .reduceScatter
            started := time
            finished := time
            plannedBytes := volume
            issuedFabricBytes := 0
            issuedLocalBytes := 0
            deliveredBytes := 0
            reason := "" } }
    participantEntries := U64.add e.participantEntries request.participants.length }
  emit id .submitted none volume
  emitCounter id .collectivePlannedBytes volume
  -- a ring of one has nothing to send
  if request.participants.length = 1 then finish id else startRound id
  return id

def handleLocalCompletion (event : LocalCompletionEvent) : Action Ring Unit := do
  -- found by its identifier, and then compared with what it says
  let current ← zoom kernelLens Kernel.currentEventId
  let found ← getOrThrow ((← get).executor.locals.find? current)
    (.logicError "unexpected local collective event")
  throwIf (found.event ≠ event) (.logicError "unexpected local collective event")
  let record ← recordAt event.collective
  -- the rounds do not overlap, so an event of another one is stale
  throwIf (record.round ≠ event.round ∨ record.phase ≠ event.phase ∨
      event.rank ≥ record.request.participants.length)
    (.logicError "stale local collective event")
  modifyRecord event.collective fun record => { record with result := { record.result with
    deliveredBytes := U64.add record.result.deliveredBytes found.transfer.bytes } }
  emitCounter event.collective .collectiveDeliveredBytes found.transfer.bytes
  modifyExecutor fun e => { e with locals := e.locals.erase current }
  modifyRecord event.collective fun record => { record with pending := U64.sub record.pending 1 }
  advance event.collective

def handleTransfer (completion : Transport.TransferCompletion) : Action Ring Unit := do
  let found ← getOrThrow ((← get).executor.transfers.find? completion.transfer)
    (.logicError "collective executor received unowned transfer outcome")
  let dropped ← fromExcept
    (Transport.addTraffic completion.droppedBufferFull completion.droppedLinkDown)
  let accounted ← fromExcept (Transport.addTraffic completion.delivered dropped)
  -- every byte was delivered or dropped
  throwIf (accounted.bytes ≠ found.bytes) (.logicError "collective transfer byte mismatch")
  let id := found.collective
  let _ ← recordAt id
  modifyRecord id fun record => { record with result := { record.result with
    deliveredBytes := U64.add record.result.deliveredBytes completion.delivered.bytes } }
  emitCounter id .collectiveDeliveredBytes completion.delivered.bytes (some completion.transfer)
  -- the failure is kept, and ends the collective with its round
  runIf (completion.outcome ≠ .succeeded) (modifyRecord id fun record => { record with
    failed := true
    result := { record.result with reason := "collective fabric transfer failed" } })
  modifyExecutor fun e => { e with transfers := e.transfers.erase completion.transfer }
  modifyRecord id fun record => { record with pending := U64.sub record.pending 1 }
  advance id

def cancel (id : CollectiveId) : Action Ring Unit := do
  let record ← recordAt id
  runIf (record.finished = false) (modifyRecord id fun record => { record with
    cancelled := true
    result := { record.result with reason := "collective cancelled" } })

def takeCompleted : Action Ring (List CollectiveResult) :=
  modifyGet fun r => (r.executor.completed, { r with executor := { r.executor with completed := [] } })

/-! ## Queries -/

def snapshot (executor : RingExecutor) (id : CollectiveId) : Option CollectiveProgress :=
  (executor.records.find? id).map fun record =>
    { phase := record.phase
      round := record.round
      pending := record.pending
      issuedFabricBytes := record.result.issuedFabricBytes
      issuedLocalBytes := record.result.issuedLocalBytes
      deliveredBytes := record.result.deliveredBytes
      completion := if record.finished then some record.result else none }

end Ring

end NexusLab.Collective
