import NexusLab.Topology.Graph
import NexusLab.Transport.Link

/-! # The transport runtime

Chunks travel along routes of directed links.  A chunk waits for its arrival event, is admitted to
the service of its current link, and arrives again one hop further when its transmission has
completed, until the route ends or the chunk is dropped.  Transfers count their chunks' ends. -/

namespace NexusLab.Transport

open Foundation Sim Telemetry NexusLab.Topology

/-! ## State -/

structure RoutedChunk where
  chunk : TransferChunk
  route : List DirectedLinkId
deriving DecidableEq

structure TransferRequest where
  source : NodeId
  destination : NodeId
  bytes : ByteCount
  maximumChunkBytes : ByteCount
  route : List DirectedLinkId
deriving DecidableEq

structure SubmittedChunk where
  id : ChunkId
  bytes : ByteCount
deriving DecidableEq

structure SubmittedTransfer where
  id : TransferId
  chunks : List SubmittedChunk
deriving DecidableEq

inductive ChunkTransitState where
  | registered
  | awaitingArrival
  | admitted
  | delivered
  | droppedBufferFull
  | droppedLinkDown
deriving DecidableEq

inductive TransferOutcome where
  | pending
  | succeeded
  | failed
deriving DecidableEq

def TransferOutcome.value : TransferOutcome → Nat
  | .pending => 1
  | .succeeded => 2
  | .failed => 3

structure TransferCompletion where
  transfer : TransferId
  outcome : TransferOutcome
  timestamp : SimTimeNs
  delivered : TrafficCount
  droppedBufferFull : TrafficCount
  droppedLinkDown : TrafficCount
deriving DecidableEq

structure TransferSnapshot where
  total : TrafficCount
  registered : TrafficCount := {}
  awaitingInitialArrival : TrafficCount := {}
  waiting : TrafficCount := {}
  active : TrafficCount := {}
  propagating : TrafficCount := {}
  delivered : TrafficCount
  droppedBufferFull : TrafficCount
  droppedLinkDown : TrafficCount
  startedAt : Option SimTimeNs
  completion : Option TransferCompletion
deriving DecidableEq

structure TransportLimits where
  maximumChunks : Nat := 1000000
  maximumRouteEntries : Nat := 16000000
  maximumRouteHops : Nat := 1024
deriving DecidableEq

structure ChunkRecord where
  chunk : TransferChunk
  route : List DirectedLinkId
  state : ChunkTransitState := .registered
  hopIndex : Nat := 0
  scheduledArrival : Option EventId := none
deriving DecidableEq

structure TransferRecord where
  chunks : List ChunkId := []
  total : TrafficCount := {}
  delivered : TrafficCount := {}
  droppedBufferFull : TrafficCount := {}
  droppedLinkDown : TrafficCount := {}
  startedAt : Option SimTimeNs := none
  completion : Option TransferCompletion := none
deriving DecidableEq

/-- The runtime's own state.  `terminalFault` is not in the source: it keeps the first throw of
the accounting in `recordTerminal`. -/
structure TransportRuntime where
  limits : TransportLimits := {}
  routeEntries : Nat := 0
  transfers : OrderedMap TransferId TransferRecord := .empty
  completions : List TransferCompletion := []
  transferIds : IdGenerator := {}
  chunkIds : IdGenerator := {}
  services : OrderedMap DirectedLinkId DirectedLinkService := .empty
  chunks : OrderedMap ChunkId ChunkRecord := .empty
  terminalFault : Option Error := none

/-- The runtime with the simulation that drives it and the graph it routes over. -/
structure Network where
  kernel : Kernel
  graph : TopologyGraph
  transport : TransportRuntime

namespace Network

def kernelLens : Lens Network Kernel where
  get := kernel
  set k n := { n with kernel := k }
  get_set _ _ := rfl
  set_get _ := rfl
  set_set _ _ _ := rfl

def now (n : Network) : SimTimeNs := n.kernel.sim.now

/-- Lets the instrumentation look at the network when telemetry is on. -/
def observe (m : Network → Action Instrumentation Unit) : Action Network Unit := fun n =>
  zoom kernelLens (Kernel.observe fun _ => m n) n

def modifyTransport (f : TransportRuntime → TransportRuntime) : Action Network Unit :=
  modify fun n => { n with transport := f n.transport }

def requireChunk (chunk : ChunkId) : Action Network ChunkRecord := do
  getOrThrow ((← get).transport.chunks.find? chunk)
    (.invalidArgument "unknown routed chunk identifier")

def storeChunk (chunk : ChunkId) (record : ChunkRecord) : Action Network Unit :=
  modifyTransport fun t => { t with chunks := t.chunks.insert chunk record }

def requireService (link : DirectedLinkId) : Action Network DirectedLinkService := do
  getOrThrow ((← get).transport.services.find? link)
    (.invalidArgument "unknown directed-link transport service")

/-- Writes back what an operation of a service leaves. -/
def withServing (n : Network) (link : DirectedLinkId) (s : Serving) : Network :=
  { n with
    kernel := s.kernel
    transport := { n.transport with services := n.transport.services.insert link s.service } }

/-- Runs an operation of the service of a link. -/
def onService {α : Type} (link : DirectedLinkId) (m : Action Serving α) : Action Network α := do
  let service ← requireService link
  let n ← get
  match m ⟨service, n.kernel⟩ with
  | .ok a s =>
    set (n.withServing link s)
    return a
  | .error e s =>
    set (n.withServing link s)
    throw e

/-- The statistics of a service up to the current time. -/
def linkStatistics (link : DirectedLinkId) : Action Network LinkStatistics := do
  let service ← requireService link
  fromExcept (service.statisticsAt (← get).now)

end Network

/-! ## Telemetry -/

def linkLabels (link : DirectedLinkId) : Except Error MetricLabels :=
  MetricLabels.ofList [⟨.link, link.link.value⟩, ⟨.direction, link.direction.value⟩]

def counterDelta (before after : Nat) : Except Error Nat :=
  if after < before then .error (.logicError "transport telemetry counter regressed")
  else .ok (after - before)

/-- The counters that report a traffic count, by bytes and by chunks. -/
def trafficMetrics (before after : LinkStatistics) :
    List (MetricId × MetricId × TrafficCount × TrafficCount) :=
  [(.linkAcceptedBytes, .linkAcceptedChunks, before.enqueued, after.enqueued),
    (.linkSerializedBytes, .linkSerializedChunks, before.completed, after.completed),
    (.linkMarkedBytes, .linkMarkedChunks, before.marked, after.marked),
    (.linkDroppedBufferFullBytes, .linkDroppedBufferFullChunks, before.droppedBufferFull,
      after.droppedBufferFull),
    (.linkDroppedDownBytes, .linkDroppedDownChunks, before.droppedLinkDown,
      after.droppedLinkDown)]

namespace Network

def emitTransfer (record : ChunkRecord) (transition : TransferTransition)
    (link : Option DirectedLinkId := none) (reason : TransferReason := .none) :
    Action Network Unit :=
  observe fun n => do
    let correlation ← fromExcept n.kernel.eventCorrelation
    Instrumentation.record n.now
      { correlation with transfer := some record.chunk.transfer, chunk := some record.chunk.id,
                         link }
      (.transfer ⟨transition, record.chunk.bytes, record.hopIndex, reason⟩)

def emitQueue (record : ChunkRecord) (link : DirectedLinkId) (transition : QueueTransition) :
    Action Network Unit :=
  observe fun n => do
    let correlation ← fromExcept n.kernel.eventCorrelation
    let service ← getOrThrow (n.transport.services.find? link)
      (.invalidArgument "unknown directed-link transport service")
    let snapshot := service.queue.snapshot
    Instrumentation.record n.now
      { correlation with transfer := some record.chunk.transfer, chunk := some record.chunk.id,
                         link := some link }
      (.queue ⟨transition, record.chunk.bytes, snapshot.waitingBytes, snapshot.waitingChunks⟩)

/-- One counter of a link, when it moved. -/
def emitDelta (n : Network) (correlation : Correlation) (labels : MetricLabels)
    (metric : MetricId) (amount : Nat) : Action Instrumentation Unit :=
  runIf (amount ≠ 0) (Instrumentation.record n.now correlation (.counter ⟨metric, labels, amount⟩))

def emitLinkMetrics (link : DirectedLinkId) (before after : LinkStatistics) :
    Action Network Unit :=
  observe fun n => do
    let correlation ← fromExcept n.kernel.eventCorrelation
    let correlation := { correlation with link := some link }
    let labels ← fromExcept (linkLabels link)
    (trafficMetrics before after).forM fun (bytesMetric, chunksMetric, earlier, later) => do
      let bytes ← fromExcept (counterDelta earlier.bytes later.bytes)
      let chunks ← fromExcept (counterDelta earlier.chunks later.chunks)
      emitDelta n correlation labels bytesMetric bytes
      emitDelta n correlation labels chunksMetric chunks
    let reported ← getOrThrow ((← get).reportedBusyTimeNs.find? link) (.outOfRange "map::at")
    let elapsed ← fromExcept (counterDelta reported after.busyTime)
    emitDelta n correlation labels .linkSerializerBusyNs elapsed
    modify fun p => { p with
      reportedBusyTimeNs := p.reportedBusyTimeNs.insert link after.busyTime }

def emitQueueGauges (link : DirectedLinkId) (snapshot : QueueSnapshot) : Action Network Unit :=
  observe fun n => do
    let correlation ← fromExcept n.kernel.eventCorrelation
    let correlation := { correlation with link := some link }
    let labels ← fromExcept (linkLabels link)
    let gauge (metric : MetricId) (value : Nat) :=
      Instrumentation.record n.now correlation (.gauge ⟨metric, labels, value⟩)
    gauge .linkQueueWaitingBytes snapshot.waitingBytes
    gauge .linkQueueWaitingChunks snapshot.waitingChunks
    gauge .linkMaximumWaitingBytes snapshot.maximumWaitingBytes

/-- The gauges of a service as it stands. -/
def emitServiceGauges (link : DirectedLinkId) : Action Network Unit := do
  let service ← requireService link
  emitQueueGauges link service.queue.snapshot

end Network

/-! ## Validation -/

def requireFabricArc (graph : TopologyGraph) (link : DirectedLinkId) : Except Error DirectedLink :=
  match graph.findLink link.link with
  | some physical =>
    if physical.kind = .fabric then .ok (physical.directed link.direction)
    else .error (.invalidArgument "transport link must identify a known fabric arc")
  | none => .error (.invalidArgument "transport link must identify a known fabric arc")

def validateCapacity (t : TransportRuntime) (count hops : Nat) : Except Error Unit :=
  if hops > t.limits.maximumRouteHops ∨ count > U64.sub t.limits.maximumChunks t.chunks.size ∨
      (hops ≠ 0 ∧ count > U64.sub t.limits.maximumRouteEntries t.routeEntries / hops) then
    .error (.lengthError "transport retained-state limit exceeded")
  else .ok ()

/-- Whether the timing of every hop stays in range when the chunk never has to wait. -/
def validateTiming (services : OrderedMap DirectedLinkId DirectedLinkService) (bytes : ByteCount) :
    List DirectedLinkId → SimTimeNs → Except Error Unit
  | [], _ => .ok ()
  | link :: route, now =>
    match services.find? link with
    -- also a check that every link is configured
    | none => .error (.invalidArgument "route uses an unconfigured link")
    | some service =>
      match serializationDelay bytes service.queue.configuration.bandwidth with
      | none => .error (.overflowError "serialization delay exceeds simulated-time range")
      | some delay =>
        match (checkedAdd now delay).bind
            (checkedAdd · service.queue.configuration.propagationDelay) with
        | none => .error (.overflowError "route timing exceeds simulated-time range")
        | some propagated => validateTiming services bytes route propagated

/-- Both ports exist and belong to the same node. -/
def portsMeet (graph : TopologyGraph) (left right : PortId) : Bool :=
  match graph.findPort left, graph.findPort right with
  | some a, some b => a.owner = b.owner
  | _, _ => false

/-- The port exists and belongs to the expected node, if one is expected. -/
def portMatches (graph : TopologyGraph) (port : PortId) (expected : Option NodeId) : Bool :=
  match expected with
  | none => true
  | some node => match graph.findPort port with
    | some found => found.owner = node
    | none => false

/-- The arc of a link that transport is configured for. -/
def requireRouteArc (n : Network) (link : DirectedLinkId) : Except Error DirectedLink := do
  let arc ← requireFabricArc n.graph link
  if n.transport.services.contains link then return arc
  else throw (.invalidArgument "routed chunk path uses an unconfigured directed link")

/-- The last arc of a route that goes on from `previous`. -/
def followRoute (n : Network) : DirectedLink → List DirectedLinkId → Except Error DirectedLink
  | previous, [] => .ok previous
  | previous, link :: route => do
    let arc ← requireRouteArc n link
    if portsMeet n.graph previous.destination arc.source then followRoute n arc route
    else throw (.invalidArgument "routed chunk path is not contiguous")

def validateRoute (n : Network) (route : List DirectedLinkId)
    (expectedSource expectedDestination : Option NodeId) : Except Error Unit := do
  -- zero chunks: only the length of the route against the limits
  validateCapacity n.transport 0 route.length
  match route with
  | [] => throw (.invalidArgument "routed chunk path must be nonempty")
  | first :: rest =>
    -- hop indices have 32 bits
    if route.length > maxU32 then
      throw (.overflowError "routed chunk path exceeds hop-index range")
    else
      let firstArc ← requireRouteArc n first
      let last ← followRoute n firstArc rest
      if portMatches n.graph firstArc.source expectedSource = false then
        throw (.invalidArgument "routed transfer source does not match path")
      else if portMatches n.graph last.destination expectedDestination = false then
        throw (.invalidArgument "routed transfer destination does not match path")
      else return ()

namespace Network

/-! ## Submission -/

/-- The stores after a new chunk is registered. -/
def registered (t : TransportRuntime) (routed : RoutedChunk) (total : TrafficCount) :
    TransportRuntime :=
  let id := routed.chunk.id
  let transfer := routed.chunk.transfer
  let existing := (t.transfers.find? transfer).getD {}
  { t with
    chunks := t.chunks.insert id { chunk := routed.chunk, route := routed.route }
    transfers := t.transfers.insert transfer
      { existing with chunks := existing.chunks ++ [id], total }
    routeEntries := U64.add t.routeEntries routed.route.length
    transferIds := t.transferIds.advancePast transfer.value
    chunkIds := t.chunkIds.advancePast id.value }

def registerChunk (routed : RoutedChunk) : Action Network Unit := do
  throwIf (routed.chunk.bytes = 0) (.invalidArgument "routed chunk must contain nonzero bytes")
  throwIf (routed.chunk.hopIndex ≠ 0) (.invalidArgument "new routed chunk must begin at hop zero")
  let n ← get
  fromExcept (validateRoute n routed.route none none)
  fromExcept (validateCapacity n.transport 1 routed.route.length)
  -- a lone chunk sets out later, so only its delays are checked
  fromExcept (validateTiming n.transport.services routed.chunk.bytes routed.route 0)
  throwIf (n.transport.chunks.contains routed.chunk.id = true)
    (.invalidArgument "duplicate routed chunk identifier")
  let existing := n.transport.transfers.find? routed.chunk.transfer
  -- once a chunk of it has set out, a transfer takes no more
  throwIf ((existing.bind TransferRecord.startedAt).isSome = true)
    (.invalidArgument "cannot append chunks to a sealed transfer")
  let total ← fromExcept
    (addTraffic ((existing.map TransferRecord.total).getD {}) ⟨routed.chunk.bytes, 1⟩)
  modifyTransport fun t => registered t routed total

/-- Marks the transfer of a chunk as started, the first time one of its chunks is. -/
def startTransfer (transfer : TransferId) : Action Network Unit := do
  let n ← get
  let record ← getOrThrow (n.transport.transfers.find? transfer) (.outOfRange "map::at")
  runIf (record.startedAt = none) do
    modifyTransport fun t => { t with
      transfers := t.transfers.insert transfer { record with startedAt := some n.now } }
    observe fun n => do
      let correlation ← fromExcept n.kernel.eventCorrelation
      Instrumentation.record n.now { correlation with transfer := some transfer }
        (.transfer ⟨.submitted, record.total.bytes, 0, .none⟩)

def scheduleInitialArrival (chunk : ChunkId) : Action Network EventId := do
  let record ← requireChunk chunk
  throwIf (record.state ≠ .registered)
    (.logicError "routed chunk initial arrival is already scheduled")
  let n ← get
  fromExcept (validateTiming n.transport.services record.chunk.bytes record.route n.now)
  let eventId ← zoom kernelLens (Kernel.schedule ⟨n.now, .normal, .chunkArrival ⟨chunk, 0⟩⟩)
  storeChunk chunk { record with state := .awaitingArrival, scheduledArrival := some eventId }
  startTransfer record.chunk.transfer
  return eventId

def nextTransferId : Action Network TransferId := do
  let drawn ← fromExcept ((← get).transport.transferIds.next "transport ID sequence exhausted")
  modifyTransport fun t => { t with transferIds := drawn.2 }
  return ⟨drawn.1⟩

def nextChunkId : Action Network ChunkId := do
  let drawn ← fromExcept ((← get).transport.chunkIds.next "transport ID sequence exhausted")
  modifyTransport fun t => { t with chunkIds := drawn.2 }
  return ⟨drawn.1⟩

/-- Registers one chunk for each of the given sizes. -/
def registerChunks (transfer : TransferId) (route : List DirectedLinkId) :
    List ByteCount → Action Network (List SubmittedChunk)
  | [] => return []
  | bytes :: sizes => do
    let id ← nextChunkId
    registerChunk ⟨⟨transfer, id, bytes, 0, false⟩, route⟩
    let rest ← registerChunks transfer route sizes
    return ⟨id, bytes⟩ :: rest

/-- The sizes a transfer is cut into: full chunks, then the remainder if there is one. -/
def chunkSizes (bytes maximumChunkBytes : ByteCount) : List ByteCount :=
  List.replicate (bytes / maximumChunkBytes) maximumChunkBytes ++
    if bytes % maximumChunkBytes ≠ 0 then [bytes % maximumChunkBytes] else []

def submitTransfer (request : TransferRequest) : Action Network SubmittedTransfer := do
  throwIf (request.bytes = 0) (.invalidArgument "transfer byte count must be nonzero")
  throwIf (request.maximumChunkBytes = 0)
    (.invalidArgument "maximum chunk byte count must be nonzero")
  let n ← get
  -- all checks come before the first identifier is drawn
  fromExcept (validateRoute n request.route (some request.source) (some request.destination))
  let fullChunks := request.bytes / request.maximumChunkBytes
  let remainder := request.bytes % request.maximumChunkBytes
  let chunkCount := fullChunks + if remainder ≠ 0 then 1 else 0
  throwIf (n.transport.transferIds.canGenerate 1 = false ∨
      n.transport.chunkIds.canGenerate chunkCount = false)
    (.overflowError "transport ID sequence cannot represent submitted transfer")
  throwIf (chunkCount > maxU64) (.overflowError "chunk count exceeds runtime container range")
  fromExcept (validateCapacity n.transport chunkCount request.route.length)
  -- two sizes of chunks at most, so two checks cover all
  runIf (fullChunks ≠ 0) (fromExcept
    (validateTiming n.transport.services request.maximumChunkBytes request.route n.now))
  runIf (remainder ≠ 0) (fromExcept
    (validateTiming n.transport.services remainder request.route n.now))
  -- the checks are through: identifiers, records and first arrivals
  let transfer ← nextTransferId
  let chunks ← registerChunks transfer request.route
    (chunkSizes request.bytes request.maximumChunkBytes)
  chunks.forM fun chunk => do
    let _ ← scheduleInitialArrival chunk.id
  return ⟨transfer, chunks⟩

/-! ## State changes -/

def scheduleLinkStateChange (link : LinkId) (state : OperationalState) (timestamp : SimTimeNs) :
    Action Network EventId := do
  throwIf (((← get).graph.findLink link).map PhysicalLink.kind ≠ some .fabric)
    (.invalidArgument "state change must identify a known fabric link")
  zoom kernelLens (Kernel.schedule ⟨timestamp, .critical, .linkStateChange ⟨link, state⟩⟩)

def schedulePortStateChange (port : PortId) (state : OperationalState) (timestamp : SimTimeNs) :
    Action Network EventId := do
  throwIf ((← get).graph.findPort port = none)
    (.invalidArgument "unknown port state-change target")
  zoom kernelLens (Kernel.schedule ⟨timestamp, .critical, .portStateChange ⟨port, state⟩⟩)

def scheduleSwitchStateChange (networkSwitch : SwitchId) (state : OperationalState)
    (timestamp : SimTimeNs) : Action Network EventId := do
  throwIf ((← get).graph.findSwitch networkSwitch = none)
    (.invalidArgument "unknown switch state-change target")
  zoom kernelLens
    (Kernel.schedule ⟨timestamp, .critical, .switchStateChange ⟨networkSwitch, state⟩⟩)

/-! ## Ends of chunks -/

/-- The counters of a transfer with one more chunk that has come to its end. -/
def settled (transfer : TransferRecord) (record : ChunkRecord) : Except Error TransferRecord :=
  let count : TrafficCount := ⟨record.chunk.bytes, 1⟩
  match record.state with
  | .delivered => do
    let delivered ← addTraffic transfer.delivered count
    return { transfer with delivered }
  | .droppedBufferFull => do
    let droppedBufferFull ← addTraffic transfer.droppedBufferFull count
    return { transfer with droppedBufferFull }
  | .droppedLinkDown => do
    let droppedLinkDown ← addTraffic transfer.droppedLinkDown count
    return { transfer with droppedLinkDown }
  | _ => .error (.logicError "nonterminal chunk cannot finish a transfer")

/-- The completion a transfer has reached, if all its chunks have come to an end. -/
def completionOf (id : TransferId) (now : SimTimeNs) (transfer : TransferRecord) :
    Except Error (Option TransferCompletion) := do
  let drops ← addTraffic transfer.droppedBufferFull transfer.droppedLinkDown
  let terminal ← addTraffic transfer.delivered drops
  if terminal.chunks = transfer.total.chunks then
    if terminal.bytes ≠ transfer.total.bytes then
      .error (.logicError "terminal transfer byte accounting mismatch")
    else
      return some ⟨id, if drops.chunks = 0 then .succeeded else .failed, now, transfer.delivered,
        transfer.droppedBufferFull, transfer.droppedLinkDown⟩
  else return none

/-- Runs the accounting of `recordTerminal`, keeping its first throw. -/
def guarded {α : Type} (m : Action Network α) : Action Network α :=
  catching m fun e => do
    modifyTransport fun t => { t with terminalFault := t.terminalFault <|> some e }
    throw e

/-- Counts the end of a chunk in its transfer; the completion, if this was the last one. -/
def settle (record : ChunkRecord) : Action Network (Option (TransferRecord × TransferCompletion)) := do
  let id := record.chunk.transfer
  let n ← get
  let transfer ← getOrThrow (n.transport.transfers.find? id) (.outOfRange "map::at")
  throwIf (transfer.completion.isSome = true) (.logicError "transfer already completed")
  let transfer ← fromExcept (settled transfer record)
  -- the chunk counts even if the completion cannot be formed
  modifyTransport fun t => { t with transfers := t.transfers.insert id transfer }
  match ← fromExcept (completionOf id n.now transfer) with
  | none => return none
  | some completion =>
    modifyTransport fun t => { t with
      completions := t.completions ++ [completion]
      transfers := t.transfers.insert id { transfer with completion := some completion } }
    return some (transfer, completion)

def emitTransferEnd (transfer : TransferRecord) (completion : TransferCompletion) :
    Action Network Unit :=
  observe fun n => do
    let correlation ← fromExcept n.kernel.eventCorrelation
    let correlation := { correlation with transfer := some completion.transfer }
    let transition : TransferTransition :=
      if completion.outcome = .succeeded then .succeeded else .failed
    let reason : TransferReason :=
      -- a full buffer is named before a link that is down
      if completion.droppedBufferFull.chunks ≠ 0 then .bufferFull
      else if completion.droppedLinkDown.chunks ≠ 0 then .resourceDown
      else .none
    Instrumentation.record n.now correlation
      (.transfer ⟨transition, transfer.total.bytes, 0, reason⟩)
    let labels ← fromExcept (MetricLabels.ofList [⟨.outcome, completion.outcome.value⟩])
    Instrumentation.record n.now correlation (.counter ⟨.transferTerminalTotal, labels, 1⟩)

def recordTerminal (record : ChunkRecord) : Action Network Unit := do
  match ← guarded (settle record) with
  | none => return ()
  | some (transfer, completion) => emitTransferEnd transfer completion

/-! ## Event handlers -/

/-- A chunk finds its link down. -/
def dropOnArrival (chunk : ChunkId) (record : ChunkRecord) (link : DirectedLinkId) :
    Action Network Unit := do
  let before ← linkStatistics link
  onService link (DirectedLinkService.recordLinkDown record.chunk)
  let after ← linkStatistics link
  let record := { record with scheduledArrival := none, state := .droppedLinkDown }
  storeChunk chunk record
  emitQueue record link .dropped
  emitTransfer record .chunkDropped (some link) .resourceDown
  emitLinkMetrics link before after
  emitServiceGauges link
  recordTerminal record

/-- What telemetry is told about an admission. -/
def emitAdmission (record : ChunkRecord) (link : DirectedLinkId) (admission : AdmissionResult) :
    Action Network Unit := do
  if record.state = .droppedBufferFull then
    emitQueue record link .dropped
    emitTransfer record .chunkDropped (some link) .bufferFull
  else
    emitQueue record link .enqueued
    runIf (admission.markedHere = true) (emitQueue record link .marked)
    if admission.disposition = .serviceStarted then
      emitQueue record link .serviceStarted
      emitTransfer record .chunkServiceStarted (some link)
    else emitTransfer record .chunkQueued (some link)

/-- What follows the answer of the service. -/
def finishAdmission (chunk : ChunkId) (record : ChunkRecord) (link : DirectedLinkId)
    (before : LinkStatistics) (admission : AdmissionResult) : Action Network Unit := do
  let after ← linkStatistics link
  let record := { record with
    scheduledArrival := none
    chunk := { record.chunk with marked := record.chunk.marked || admission.markedHere }
    state := if admission.disposition = .droppedBufferFull then .droppedBufferFull
      else .admitted }
  storeChunk chunk record
  emitAdmission record link admission
  emitLinkMetrics link before after
  emitServiceGauges link
  runIf (record.state = .droppedBufferFull) (recordTerminal record)

/-- A chunk finds its link up. -/
def admitOnArrival (chunk : ChunkId) (record : ChunkRecord) (link : DirectedLinkId)
    (hopIndex : Nat) : Action Network Unit := do
  let record := { record with chunk := { record.chunk with hopIndex } }
  storeChunk chunk record
  let before ← linkStatistics link
  let admission ← onService link (DirectedLinkService.admitChunk record.chunk)
  finishAdmission chunk record link before admission

def deliver (chunk : ChunkId) (record : ChunkRecord) : Action Network Unit := do
  let record := { record with scheduledArrival := none, state := .delivered }
  storeChunk chunk record
  emitTransfer record .chunkDelivered
  recordTerminal record

def handleArrival (event : ChunkArrivalEvent) : Action Network Unit := do
  let record ← requireChunk event.chunk
  throwIf (record.state ≠ .awaitingArrival ∨ record.scheduledArrival = none)
    (.logicError "unexpected chunk-arrival event")
  let current ← zoom kernelLens Kernel.currentEventId
  throwIf (record.scheduledArrival ≠ some current ∨ event.hopIndex ≠ record.hopIndex)
    (.logicError "unexpected chunk-arrival event")
  if event.hopIndex = record.route.length then deliver event.chunk record
  else
    let link ← getOrThrow record.route[event.hopIndex]? (.outOfRange "route index")
    let directed ← fromExcept (requireFabricArc (← get).graph link)
    if (← get).graph.isOperational directed = false then dropOnArrival event.chunk record link
    else admitOnArrival event.chunk record link event.hopIndex

/-- The waiting chunk that moved into service. -/
def emitNextStarted (link : DirectedLinkId) (next : Option TransferChunk) :
    Action Network Unit := do
  match next with
  | none => return ()
  | some chunk =>
    let record ← requireChunk chunk.id
    emitQueue record link .serviceStarted
    emitTransfer record .chunkServiceStarted (some link)

/-- What follows the answer of the service: the chunk propagates to its next hop. -/
def propagate (chunk : ChunkId) (record : ChunkRecord) (link : DirectedLinkId)
    (before : LinkStatistics) (arrivalTime : SimTimeNs) (transition : ServiceTransition) :
    Action Network Unit := do
  let after ← linkStatistics link
  throwIf (transition.completed.id ≠ record.chunk.id)
    (.logicError "completed service chunk does not match routed chunk")
  -- the service may have marked it
  let record := { record with chunk := transition.completed }
  storeChunk chunk record
  emitQueue record link .serviceCompleted
  emitTransfer record .chunkSerialized (some link)
  -- the next transmission has already started in the service
  emitNextStarted link transition.nextStarted
  emitLinkMetrics link before after
  emitServiceGauges link
  -- the arrival is for the hop to come
  let record := { record with hopIndex := U32.add record.hopIndex 1 }
  storeChunk chunk record
  let arrival ← zoom kernelLens (Kernel.schedule
    ⟨arrivalTime, .normal, .chunkArrival ⟨record.chunk.id, record.hopIndex⟩⟩)
  storeChunk chunk { record with state := .awaitingArrival, scheduledArrival := some arrival }

def handleCompletion (event : TransmissionCompleteEvent) : Action Network Unit := do
  let link : DirectedLinkId := ⟨event.link, event.direction⟩
  let record ← requireChunk event.chunk
  throwIf (record.state ≠ .admitted ∨ event.hopIndex ≠ record.hopIndex ∨
      record.route[event.hopIndex]? ≠ some link)
    (.logicError "unexpected routed transmission-completion event")
  let service ← requireService link
  let before ← linkStatistics link
  let arrivalTime ← getOrThrow
    (checkedAdd (← get).now service.queue.configuration.propagationDelay)
    (.overflowError "propagation arrival exceeds simulated-time range")
  let transition ← onService link (DirectedLinkService.handleCompletion event)
  propagate event.chunk record link before arrivalTime transition

/-- A chunk that a failing link gave up. -/
def markDroppedLinkDown (link : DirectedLinkId) (chunk : TransferChunk) : Action Network Unit := do
  let record ← requireChunk chunk.id
  throwIf (record.state ≠ .admitted ∨ record.hopIndex ≠ chunk.hopIndex ∨
      record.route[record.hopIndex]? ≠ some link)
    (.logicError "drained service chunk does not match routed chunk state")
  let record := { record with chunk, state := .droppedLinkDown }
  storeChunk chunk.id record
  emitQueue record link .dropped
  emitTransfer record .chunkDropped (some link) .resourceDown
  recordTerminal record

/-- Marks what a failing link gave up. -/
def dropDrained (link : DirectedLinkId) (before : LinkStatistics) (drained : QueueDrain) :
    Action Network Unit := do
  let after ← linkStatistics link
  (drained.active.toList ++ drained.waiting).forM (markDroppedLinkDown link)
  emitLinkMetrics link before after
  emitServiceGauges link

/-- Empties the service of a link that went down. -/
def reconcileLink (link : DirectedLinkId) : Action Network Unit := do
  let before ← linkStatistics link
  let drained ← onService link DirectedLinkService.reconcileDown
  dropDrained link before drained

def handleLinkStateChange (event : LinkStateChangeEvent) : Action Network Unit := do
  let n ← get
  throwIf ((n.graph.findLink event.link).map PhysicalLink.kind ≠ some .fabric)
    (.invalidArgument "state change must identify a known fabric link")
  let changed := n.graph.setLinkState event.link event.state
  set { n with graph := changed.2 }
  throwIf (changed.1 = false) (.logicError "known fabric link state could not be changed")
  runIf (event.state = .down) do
    [LinkDirection.aToB, LinkDirection.bToA].forM fun direction => do
      let directed : DirectedLinkId := ⟨event.link, direction⟩
      runIf ((← get).transport.services.contains directed = true) (reconcileLink directed)

def reconcileUnavailable : Action Network Unit := do
  (← get).transport.services.keys.forM fun link => do
    let arc ← fromExcept (requireFabricArc (← get).graph link)
    runIf ((← get).graph.isOperational arc = false) (reconcileLink link)

def handlePortStateChange (event : PortStateChangeEvent) : Action Network Unit := do
  let n ← get
  let changed := n.graph.setPortState event.port event.state
  set { n with graph := changed.2 }
  throwIf (changed.1 = false) (.invalidArgument "unknown port state-change target")
  reconcileUnavailable

def handleSwitchStateChange (event : SwitchStateChangeEvent) : Action Network Unit := do
  let n ← get
  let changed := n.graph.setSwitchState event.networkSwitch event.state
  set { n with graph := changed.2 }
  throwIf (changed.1 = false) (.invalidArgument "unknown switch state-change target")
  reconcileUnavailable

/-! ## Queries -/

/-- Adds one chunk to the category it is in. -/
def countChunk (t : TransportRuntime) (snapshot : TransferSnapshot) (chunk : ChunkId) :
    Except Error TransferSnapshot :=
  match t.chunks.find? chunk with
  | none => .error (.outOfRange "map::at")
  | some record =>
    let count : TrafficCount := ⟨record.chunk.bytes, 1⟩
    match record.state with
    | .registered => do
      return { snapshot with registered := ← addTraffic snapshot.registered count }
    | .awaitingArrival =>
      -- before its first hop it has not been on a link
      if record.hopIndex = 0 then do
        return { snapshot with
          awaitingInitialArrival := ← addTraffic snapshot.awaitingInitialArrival count }
      else do
        return { snapshot with propagating := ← addTraffic snapshot.propagating count }
    | .admitted =>
      match record.route[record.hopIndex]?.bind t.services.find? with
      | none => .error (.outOfRange "map::at")
      | some service =>
        -- in its service it is transmitted or in line
        if service.queue.active.map TransferChunk.id = some chunk then do
          return { snapshot with active := ← addTraffic snapshot.active count }
        else do
          return { snapshot with waiting := ← addTraffic snapshot.waiting count }
    -- the ends are counted in the transfer itself
    | _ => .ok snapshot

def transferSnapshot (t : TransportRuntime) (id : TransferId) :
    Except Error (Option TransferSnapshot) :=
  match t.transfers.find? id with
  | none => .ok none
  | some transfer =>
    some <$> transfer.chunks.foldlM (countChunk t)
      { total := transfer.total
        delivered := transfer.delivered
        droppedBufferFull := transfer.droppedBufferFull
        droppedLinkDown := transfer.droppedLinkDown
        startedAt := transfer.startedAt
        completion := transfer.completion }

def takeCompletedTransfers : Action Network (List TransferCompletion) :=
  modifyGet fun n =>
    (n.transport.completions, { n with transport := { n.transport with completions := [] } })

end Network

/-! ## Construction -/

namespace TransportRuntime

/-- Adds the service of one configuration. -/
def configure (graph : TopologyGraph)
    (services : OrderedMap DirectedLinkId DirectedLinkService)
    (configuration : DirectedLinkConfiguration) :
    Except Error (OrderedMap DirectedLinkId DirectedLinkService) := do
  let _ ← requireFabricArc graph configuration.link
  if services.contains configuration.link then
    throw (.invalidArgument "duplicate directed-link transport configuration")
  else
    let service ← DirectedLinkService.create configuration
    return services.insert configuration.link service

def create (graph : TopologyGraph) (configurations : List DirectedLinkConfiguration)
    (limits : TransportLimits := {}) : Except Error TransportRuntime :=
  if limits.maximumChunks = 0 ∨ limits.maximumRouteEntries = 0 ∨ limits.maximumRouteHops = 0 then
    .error (.invalidArgument "transport limits must be positive")
  else do
    let services ← configurations.foldlM (configure graph) .empty
    return { limits, services }

end TransportRuntime

end NexusLab.Transport
