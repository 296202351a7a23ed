import NexusLab.Sim.KernelSpec

/-! # One direction of a link

Serialization timing, the FIFO queue of a directed link and the service that drives it: the
chunk in service has one transmission-completion event pending, and the waiting buffer drops what
does not fit. -/

namespace NexusLab.Transport

open Foundation Sim

abbrev ByteCount := Nat
abbrev BitsPerSecond := Nat

/-! ## Serialization delay -/

def bitNanosecondsPerByte : Nat := 8000000000

structure DivisionResult where
  quotient : Nat
  remainder : Nat
deriving DecidableEq

structure FractionProduct where
  numerator : Nat
  multiplier : Nat
  denominator : Nat
deriving DecidableEq

/-- One binary digit of the multiplier: double, then add the numerator if the digit is set. -/
def multiplyFractionStep (product : FractionProduct) (result : DivisionResult) (bit : Nat) :
    DivisionResult :=
  let quotient := U64.mul result.quotient 2
  let toDenominator := U64.sub product.denominator result.remainder
  let doubled : DivisionResult :=
    -- doubled, the remainder passes the denominator
    if result.remainder ≥ toDenominator then
      ⟨U64.add quotient 1, U64.sub result.remainder toDenominator⟩
    else ⟨quotient, U64.mul result.remainder 2⟩
  if product.multiplier.testBit bit = false then doubled
  else
    let complement := U64.sub product.denominator product.numerator
    -- and so it may with the numerator added
    if doubled.remainder ≥ complement then
      ⟨U64.add doubled.quotient 1, U64.sub doubled.remainder complement⟩
    else ⟨doubled.quotient, U64.add doubled.remainder product.numerator⟩

/-- Long division of `numerator * multiplier` by the denominator, from bit 63 down. -/
def multiplyFraction (product : FractionProduct) : DivisionResult :=
  (List.range 64).reverse.foldl (multiplyFractionStep product) ⟨0, 0⟩

def serializationDelay (bytes : ByteCount) (bandwidth : BitsPerSecond) : Option SimDurationNs :=
  if bytes = 0 ∨ bandwidth = 0 then none
  else
    let wholeSeconds := bytes / bandwidth
    -- the seconds alone are out of range
    if wholeSeconds > maxU64 / bitNanosecondsPerByte then none
    else
      let nanoseconds := wholeSeconds * bitNanosecondsPerByte
      let fractional := multiplyFraction ⟨bytes % bandwidth, bitNanosecondsPerByte, bandwidth⟩
      if fractional.quotient > maxU64 - nanoseconds then none
      else
        let nanoseconds := nanoseconds + fractional.quotient
        -- rounded up to the next nanosecond
        if fractional.remainder ≠ 0 then
          if nanoseconds = maxU64 then none else some (nanoseconds + 1)
        else some nanoseconds

/-! ## Traffic counters -/

structure TrafficCount where
  bytes : Nat := 0
  chunks : Nat := 0
deriving DecidableEq

def addTraffic (left right : TrafficCount) : Except Error TrafficCount :=
  if right.bytes > maxU64 - left.bytes ∨ right.chunks > maxU64 - left.chunks then
    .error (.overflowError "transport counter overflow")
  else .ok ⟨left.bytes + right.bytes, left.chunks + right.chunks⟩

theorem addTraffic_ok {left right total : TrafficCount} (ok : addTraffic left right = .ok total) :
    total = ⟨left.bytes + right.bytes, left.chunks + right.chunks⟩ := by
  unfold addTraffic at ok
  split at ok
  · cases ok
  · exact (Except.ok.inj ok).symm

theorem addTraffic_error {left right : TrafficCount} {e : Error}
    (thrown : addTraffic left right = .error e) : Kernel.Excused e := by
  unfold addTraffic at thrown
  split at thrown
  · cases thrown
    exact Kernel.excused_overflow _
  · cases thrown

structure LinkStatistics where
  enqueued : TrafficCount := {}
  started : TrafficCount := {}
  completed : TrafficCount := {}
  marked : TrafficCount := {}
  droppedBufferFull : TrafficCount := {}
  droppedLinkDown : TrafficCount := {}
  busyTime : SimDurationNs := 0
deriving DecidableEq

/-! ## The queue -/

structure DirectedLinkConfiguration where
  link : Topology.DirectedLinkId
  bandwidth : BitsPerSecond
  propagationDelay : SimDurationNs
  waitingBufferCapacity : ByteCount
  markingThreshold : Option ByteCount
deriving DecidableEq

def validateConfiguration (configuration : DirectedLinkConfiguration) : Except Error Unit :=
  if configuration.bandwidth = 0 then
    .error (.invalidArgument "directed-link bandwidth must be nonzero")
  else match configuration.markingThreshold with
    | none => .ok ()
    | some threshold =>
      if threshold = 0 then
        .error (.invalidArgument "marking threshold must be nonzero when enabled")
      else if threshold > configuration.waitingBufferCapacity then
        .error (.invalidArgument "marking threshold exceeds waiting-buffer capacity")
      else .ok ()

structure TransferChunk where
  transfer : TransferId
  id : ChunkId
  bytes : ByteCount
  hopIndex : Nat
  marked : Bool := false
deriving DecidableEq

inductive AdmissionDisposition where
  | serviceStarted
  | queued
  | droppedBufferFull
deriving DecidableEq

structure AdmissionResult where
  disposition : AdmissionDisposition
  markedHere : Bool
deriving DecidableEq

structure ServiceTransition where
  completed : TransferChunk
  nextStarted : Option TransferChunk
deriving DecidableEq

structure QueueSnapshot where
  waitingBytes : ByteCount
  waitingChunks : Nat
  maximumWaitingBytes : ByteCount
  maximumWaitingChunks : Nat
  busy : Bool
deriving DecidableEq

structure QueueDrain where
  active : Option TransferChunk
  waiting : List TransferChunk
deriving DecidableEq

structure DirectedLinkQueue where
  configuration : DirectedLinkConfiguration
  active : Option TransferChunk := none
  waiting : List TransferChunk := []
  waitingBytes : Nat := 0
  maximumWaitingBytes : Nat := 0
  maximumWaitingChunks : Nat := 0
deriving DecidableEq

namespace DirectedLinkQueue

def create (configuration : DirectedLinkConfiguration) : Except Error DirectedLinkQueue :=
  (validateConfiguration configuration).map fun _ => { configuration }

def nextWaiting (q : DirectedLinkQueue) : Option TransferChunk := q.waiting.head?

def snapshot (q : DirectedLinkQueue) : QueueSnapshot :=
  ⟨q.waitingBytes, q.waiting.length, q.maximumWaitingBytes, q.maximumWaitingChunks,
    q.active.isSome⟩

/-- Whether the waiting buffer has no room left for so many bytes. -/
def overflows (q : DirectedLinkQueue) (bytes : ByteCount) : Bool :=
  bytes > U64.sub q.configuration.waitingBufferCapacity q.waitingBytes

/-- Whether admitting so many waiting bytes reaches the marking threshold. -/
def marks (q : DirectedLinkQueue) (waitingBytes : ByteCount) : Bool :=
  match q.configuration.markingThreshold with
  | some threshold => waitingBytes ≥ threshold
  | none => false

def admitChunk (chunk : TransferChunk) : Action DirectedLinkQueue AdmissionResult := do
  throwIf (chunk.bytes = 0) (.invalidArgument "transfer chunk must contain nonzero bytes")
  let q ← get
  -- an idle link never drops or marks
  if q.active = none then
    set { q with active := some chunk }
    return ⟨.serviceStarted, false⟩
  else if q.overflows chunk.bytes then
    return ⟨.droppedBufferFull, false⟩
  else
    let waitingBytes := U64.add q.waitingBytes chunk.bytes
    -- the threshold is met with this chunk included
    let markedHere := q.marks waitingBytes
    -- a mark from an earlier link stays
    let waiting := q.waiting ++ [{ chunk with marked := chunk.marked || markedHere }]
    set { q with
      waiting
      waitingBytes
      maximumWaitingBytes := max q.maximumWaitingBytes waitingBytes
      maximumWaitingChunks := max q.maximumWaitingChunks waiting.length }
    return ⟨.queued, markedHere⟩

def completeService (q : DirectedLinkQueue) : Option ServiceTransition × DirectedLinkQueue :=
  match q.active with
  | none => (none, q)
  | some completed =>
    match q.waiting with
    | [] => (some ⟨completed, none⟩, { q with active := none })
    | next :: rest =>
      (some ⟨completed, some next⟩,
        { q with
          active := some next
          waiting := rest
          waitingBytes := U64.sub q.waitingBytes next.bytes })

def drain (q : DirectedLinkQueue) : QueueDrain × DirectedLinkQueue :=
  (⟨q.active, q.waiting⟩, { q with active := none, waiting := [], waitingBytes := 0 })

end DirectedLinkQueue

/-! ## The service -/

structure DirectedLinkService where
  queue : DirectedLinkQueue
  scheduledCompletion : Option EventId := none
  statistics : LinkStatistics := {}
  busySince : Option SimTimeNs := none
deriving DecidableEq

/-- When a chunk that starts now is serialized, provided that it also arrives in time. -/
def completionTime (chunk : TransferChunk) (configuration : DirectedLinkConfiguration)
    (now : SimTimeNs) : Except Error SimTimeNs :=
  match serializationDelay chunk.bytes configuration.bandwidth with
  | none => .error (.overflowError "serialization delay exceeds simulated-time range")
  | some delay =>
    match checkedAdd now delay with
    | none => .error (.overflowError "serialization completion exceeds simulated-time range")
    | some time =>
      match checkedAdd time configuration.propagationDelay with
      | none => .error (.overflowError "propagation arrival exceeds simulated-time range")
      | some _ => .ok time

theorem completionTime_ok {chunk : TransferChunk} {configuration : DirectedLinkConfiguration}
    {now time : SimTimeNs} (ok : completionTime chunk configuration now = .ok time) :
    now ≤ time := by
  unfold completionTime at ok
  split at ok
  · cases ok
  · rename_i delay _
    split at ok
    · cases ok
    · rename_i end_ added
      split at ok
      · cases ok
      · cases ok
        rw [checkedAdd_eq_some added]
        exact Nat.le_add_right _ _

theorem completionTime_error {chunk : TransferChunk} {configuration : DirectedLinkConfiguration}
    {now : SimTimeNs} {e : Error} (thrown : completionTime chunk configuration now = .error e) :
    Kernel.Excused e := by
  unfold completionTime at thrown
  split at thrown
  · cases thrown; exact Kernel.excused_overflow _
  · split at thrown
    · cases thrown; exact Kernel.excused_overflow _
    · split at thrown <;> cases thrown
      exact Kernel.excused_overflow _

/-- A service together with the kernel it schedules on. -/
structure Serving where
  service : DirectedLinkService
  kernel : Kernel

namespace Serving

def kernelLens : Lens Serving Kernel where
  get := kernel
  set k s := { s with kernel := k }
  get_set _ _ := rfl
  set_get _ := rfl
  set_set _ _ _ := rfl

def queueLens : Lens Serving DirectedLinkQueue where
  get s := s.service.queue
  set q s := { s with service := { s.service with queue := q } }
  get_set _ _ := rfl
  set_get _ := rfl
  set_set _ _ _ := rfl

end Serving

namespace DirectedLinkService

def create (configuration : DirectedLinkConfiguration) : Except Error DirectedLinkService :=
  (DirectedLinkQueue.create configuration).map fun queue => { queue }

/-- The statistics with the service in progress counted as busy until now. -/
def statisticsAt (service : DirectedLinkService) (now : SimTimeNs) : Except Error LinkStatistics :=
  match service.busySince with
  | none => .ok service.statistics
  | some since =>
    match checkedDifference now since with
    | none => .error (.invalidArgument "statistics time precedes active service")
    | some elapsed =>
      match checkedAdd service.statistics.busyTime elapsed with
      | none => .error (.overflowError "serializer busy time overflow")
      | some total => .ok { service.statistics with busyTime := total }

def modifyService (f : DirectedLinkService → DirectedLinkService) : Action Serving Unit :=
  modify fun s => { s with service := f s.service }

def scheduleCompletion (chunk : TransferChunk) : Action Serving EventId := do
  let s ← get
  let configuration := s.service.queue.configuration
  let time ← fromExcept (completionTime chunk configuration s.kernel.sim.now)
  zoom Serving.kernelLens (Kernel.schedule
    ⟨time, .control, .transmissionComplete ⟨configuration.link.link, chunk.id, chunk.hopIndex,
      configuration.link.direction⟩⟩)

/-- The counters after an admission, computed before the queue admits. -/
def admissionStatistics (service : DirectedLinkService) (chunk : TransferChunk) :
    Except Error LinkStatistics := do
  let count : TrafficCount := ⟨chunk.bytes, 1⟩
  let queue := service.queue
  let idle := queue.active.isNone
  -- a chunk that is dropped is not enqueued
  if idle = false ∧ queue.overflows chunk.bytes = true then
    let droppedBufferFull ← addTraffic service.statistics.droppedBufferFull count
    return { service.statistics with droppedBufferFull }
  else
    let enqueued ← addTraffic service.statistics.enqueued count
    -- into service at once
    if idle = true then
      let started ← addTraffic service.statistics.started count
      return { service.statistics with enqueued, started }
    else if queue.marks (U64.add queue.waitingBytes chunk.bytes) = true then
      let marked ← addTraffic service.statistics.marked count
      return { service.statistics with enqueued, marked }
    else return { service.statistics with enqueued }

def admitChunk (chunk : TransferChunk) : Action Serving AdmissionResult := do
  throwIf (chunk.bytes = 0) (.invalidArgument "transfer chunk must contain nonzero bytes")
  let s ← get
  let now := s.kernel.sim.now
  -- a chunk that waits is checked as if it were served now
  let _ ← fromExcept (completionTime chunk s.service.queue.configuration now)
  -- the counters, before the queue has changed
  let next ← fromExcept (s.service.admissionStatistics chunk)
  if s.service.queue.active = none then
    -- the event comes first: when it is refused, the queue has not changed
    let completion ← scheduleCompletion chunk
    let result ← zoom Serving.queueLens (DirectedLinkQueue.admitChunk chunk)
    modifyService fun service => { service with
      statistics := next, scheduledCompletion := some completion, busySince := some now }
    return result
  else
    let result ← zoom Serving.queueLens (DirectedLinkQueue.admitChunk chunk)
    modifyService fun service => { service with statistics := next }
    return result

/-- Schedules the completion of the chunk that is next in line, if there is one. -/
def startWaiting (statistics : LinkStatistics) :
    Action Serving (LinkStatistics × Option EventId) := do
  match (← get).service.queue.nextWaiting with
  | none => return (statistics, none)
  | some waiting =>
    let started ← fromExcept (addTraffic statistics.started ⟨waiting.bytes, 1⟩)
    let completion ← scheduleCompletion waiting
    return ({ statistics with started }, some completion)

def handleCompletion (event : TransmissionCompleteEvent) : Action Serving ServiceTransition := do
  let s ← get
  throwIf (s.service.scheduledCompletion = none)
    (.logicError "unexpected transmission-completion event")
  let current ← zoom Serving.kernelLens Kernel.currentEventId
  -- an event that was cancelled or belongs to another service
  throwIf (s.service.scheduledCompletion ≠ some current)
    (.logicError "unexpected transmission-completion event")
  let configuration := s.service.queue.configuration
  let active ← getOrThrow s.service.queue.active
    (.logicError "transmission-completion event does not match active service")
  throwIf (event.link ≠ configuration.link.link ∨ event.direction ≠ configuration.link.direction ∨
      event.chunk ≠ active.id ∨ event.hopIndex ≠ active.hopIndex)
    (.logicError "transmission-completion event does not match active service")
  -- busy time up to now; everything that can overflow comes before the queue moves
  let next ← fromExcept (s.service.statisticsAt s.kernel.sim.now)
  let completed ← fromExcept (addTraffic next.completed ⟨active.bytes, 1⟩)
  -- the next completion is scheduled while the old state still stands
  let (next, completion) ← startWaiting { next with completed }
  let (transition, queue) := (← get).service.queue.completeService
  modifyService fun service => { service with queue }
  let transition ← getOrThrow transition
    (.logicError "active service disappeared before completion")
  modifyService fun service => { service with
    statistics := next
    scheduledCompletion := completion
    -- busy again from now on if a chunk was in line
    busySince := completion.map fun _ => s.kernel.sim.now }
  return transition

def recordLinkDown (chunk : TransferChunk) : Action Serving Unit := do
  let droppedLinkDown ← fromExcept
    (addTraffic (← get).service.statistics.droppedLinkDown ⟨chunk.bytes, 1⟩)
  modifyService fun service =>
    { service with statistics := { service.statistics with droppedLinkDown } }

/-- The traffic a queue holds. -/
def heldTraffic (service : DirectedLinkService) : Except Error TrafficCount :=
  let waiting : TrafficCount := ⟨service.queue.waitingBytes, service.queue.waiting.length⟩
  match service.queue.active with
  | none => .ok waiting
  | some active => addTraffic waiting ⟨active.bytes, 1⟩

def cancelCompletion (id : EventId) : Action Serving Unit := do
  let cancelled ← zoom Serving.kernelLens (Kernel.cancel id)
  throwIf (cancelled = false)
    (.logicError "active transmission completion could not be cancelled")

def reconcileDown : Action Serving QueueDrain := do
  let s ← get
  let next ← fromExcept (s.service.statisticsAt s.kernel.sim.now)
  let dropped ← fromExcept s.service.heldTraffic
  let droppedLinkDown ← fromExcept (addTraffic next.droppedLinkDown dropped)
  -- the cancellation is the last step that may throw
  match s.service.scheduledCompletion with
  | some completion => cancelCompletion completion
  | none => pure ()
  modifyService fun service => { service with
    queue := service.queue.drain.2
    scheduledCompletion := none
    busySince := none
    statistics := { next with droppedLinkDown } }
  return s.service.queue.drain.1

end DirectedLinkService

end NexusLab.Transport
