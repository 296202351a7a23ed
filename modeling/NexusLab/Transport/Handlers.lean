import NexusLab.Transport.Joint

/-! # The handlers keep the joint invariant

Each handler is given the invariant with its event awaiting and gives it back with nothing
awaiting; it throws for telemetry, simulated time and counters only.  The accounting of
`recordTerminal` does not throw at all. -/

namespace NexusLab.Transport

open Foundation Sim NexusLab.Topology

namespace Network

variable {n : Network} {taken : List TransferCompletion} {event : Event} {link : DirectedLinkId}
  {service : DirectedLinkService} {chunk : ChunkId} {record : ChunkRecord}

/-! ## Contracts of the building blocks -/

/-- The network after the instrumentation has looked at it. -/
def probed (n : Network) (probe : Instrumentation) : Network :=
  { n with kernel := { n.kernel with probe } }

/-- Every throw the environment is to blame for is accepted, the accounting being innocent. -/
def Tolerates (n : Network) (E : Error → Network → Prop) : Prop :=
  ∀ e n', Kernel.Excused e → n'.transport.terminalFault = n.transport.terminalFault → E e n'

theorem wp_observe_telemetry {m : Network → Action Instrumentation Unit}
    {Q : Unit → Network → Prop} {E : Error → Network → Prop}
    (returns : ∀ probe, Q () (n.probed probe))
    (throws : ∀ e probe, e.origin = .telemetry → E e (n.probed probe)) :
    wp (observe m) Q E n := by
  have step : wp (zoom kernelLens (Kernel.observe fun _ => m n)) Q E n := by
    rw [wp_zoom]
    apply Kernel.wp_observe
    · intro probe _
      exact returns probe
    · intro e probe origin _
      exact throws e probe origin
  exact step

theorem wp_observe {m : Network → Action Instrumentation Unit} {Q : Unit → Network → Prop}
    {E : Error → Network → Prop} (returns : ∀ probe, Q () (n.probed probe))
    (throws : n.Tolerates E) : wp (observe m) Q E n :=
  wp_observe_telemetry returns fun e _ origin => throws e _ (.inl origin) rfl

theorem wp_onService {α : Type} {m : Action Serving α} {Q : α → Network → Prop}
    {E : Error → Network → Prop} (found : n.transport.services.find? link = some service)
    (h : wp m (fun a s => Q a (n.withServing link s)) (fun e s => E e (n.withServing link s))
      ⟨service, n.kernel⟩) : wp (onService link m) Q E n := by
  simp only [onService, requireService, wp_bind, wp_get, wp_getOrThrow, found, Option.some.injEq]
  refine ⟨?_, fun absent => by simp at absent⟩
  intro same isSame
  subst isSame
  unfold wp at h
  split at h
  · rename_i result
    simp only [result, wp_bind, wp_set, wp_pure]
    exact h
  · rename_i result
    simp only [result, wp_bind, wp_set, wp_throw]
    exact h

theorem wp_requireChunk {Q : ChunkRecord → Network → Prop} {E : Error → Network → Prop}
    (found : n.transport.chunks.find? chunk = some record) (returns : Q record n) :
    wp (requireChunk chunk) Q E n := by
  simpa [requireChunk, found] using returns

theorem wp_requireService {Q : DirectedLinkService → Network → Prop} {E : Error → Network → Prop}
    (found : n.transport.services.find? link = some service) (returns : Q service n) :
    wp (requireService link) Q E n := by
  simpa [requireService, found] using returns

theorem wp_linkStatistics {Q : LinkStatistics → Network → Prop} {E : Error → Network → Prop}
    (found : n.transport.services.find? link = some service)
    (past : service.BusySince n.kernel.sim.now) (returns : ∀ statistics, Q statistics n)
    (throws : n.Tolerates E) : wp (linkStatistics link) Q E n := by
  simp only [linkStatistics, wp_bind, wp_get]
  apply wp_requireService found
  apply DirectedLinkService.wp_statisticsAt past returns
  intro e excused
  exact throws e n excused rfl

theorem wp_emitServiceGauges {Q : Unit → Network → Prop} {E : Error → Network → Prop}
    (found : n.transport.services.find? link = some service)
    (returns : ∀ probe, Q () (n.probed probe)) (throws : n.Tolerates E) :
    wp (emitServiceGauges link) Q E n := by
  simp only [emitServiceGauges, wp_bind]
  apply wp_requireService found
  exact wp_observe returns throws

@[simp] theorem wp_storeChunk {Q : Unit → Network → Prop} {E : Error → Network → Prop} :
    wp (storeChunk chunk record) Q E n ↔
      Q () { n with transport := { n.transport with
        chunks := n.transport.chunks.insert chunk record } } := Iff.rfl

/-- The books of a network. -/
def Booked (taken : List TransferCompletion) (n : Network) : Prop :=
  Accounts n.transport.chunks n.transport.transfers (taken ++ n.transport.completions)

/-- A network that differs in the transfers and completions only. -/
def rebooked (n : Network) (probe : Instrumentation)
    (transfers : OrderedMap TransferId TransferRecord) (completions : List TransferCompletion) :
    Network :=
  { n with
    kernel := { n.kernel with probe }
    transport := { n.transport with transfers, completions } }

/-- The end of a chunk is booked without a throw; only telemetry can fail afterwards. -/
theorem wp_recordTerminal {chunks : OrderedMap ChunkId ChunkRecord} {record' : ChunkRecord}
    {Q : Unit → Network → Prop} {E : Error → Network → Prop}
    (accounts : Accounts chunks n.transport.transfers (taken ++ n.transport.completions))
    (stored : n.transport.chunks = chunks.insert chunk record')
    (found : chunks.find? chunk = some record)
    (owner : record'.chunk.transfer = record.chunk.transfer)
    (bytes : record'.chunk.bytes = record.chunk.bytes) (moved : record.state ≠ .registered)
    (before : record.state.terminal = false) (after : record'.state.terminal = true)
    (returns : ∀ probe transfers completions,
      Booked taken (n.rebooked probe transfers completions) →
      Grows TransferRecord.Becomes n.transport.transfers transfers →
      (∃ added, completions = n.transport.completions ++ added) →
      Q () (n.rebooked probe transfers completions))
    (throws : n.Tolerates E) : wp (recordTerminal record') Q E n := by
  obtain ⟨transfer, isTransfer, _, _⟩ := accounts.transfer_of found
  have settling := accounts.settling found isTransfer owner bytes moved before after
  -- the books with the end of the chunk settled
  have books := accounts.settle settling isTransfer n.now
  have becomes : ∀ old, n.transport.transfers.find? record.chunk.transfer = some old →
      ∀ completion, old.Becomes { credited transfer record' with completion } := by
    intro old isOld completion
    rw [isTransfer] at isOld
    cases isOld
    refine ⟨fun _ => ⟨rfl, rfl, rfl⟩, ?_⟩
    intro x done
    rw [settling.incomplete] at done
    cases done
  simp only [recordTerminal, guarded, settle, wp_bind, wp_catching, wp_get, wp_getOrThrow, owner,
    isTransfer, wp_throwIf, wp_fromExcept, modifyTransport, wp_modify]
  refine ⟨?_, fun absent => by simp at absent⟩
  intro same isSame
  cases isSame
  refine ⟨fun done => by simp [settling.incomplete] at done, fun _ => ⟨?_, ?_⟩⟩
  · intro counted isCounted
    rw [settling.settled_eq] at isCounted
    cases isCounted
    refine ⟨?_, ?_⟩
    · intro completion isCompletion
      rw [settling.completionOf_eq] at isCompletion
      cases isCompletion
      -- the last chunk to end completes its transfer
      cases isLast : Settling.last chunks transfer chunk record' with
      | false =>
        simp only [Bool.false_eq_true, if_false, wp_pure]
        have result := returns n.kernel.probe (n.transport.transfers.insert record.chunk.transfer
          (credited transfer record')) n.transport.completions
        apply result
        · simp only [isLast, Bool.false_eq_true, if_false, List.append_nil] at books
          unfold Booked rebooked
          simp only [stored]
          rw [credited_incomplete settling.incomplete] at books
          exact books
        · apply Grows.insert TransferRecord.Becomes.refl
          intro old isOld
          have step := becomes old isOld (credited transfer record').completion
          exact step
        · exact ⟨[], by simp⟩
      | true =>
        simp only [if_true, wp_bind, wp_modify, wp_pure]
        apply wp_observe
        · intro probe
          simp only [OrderedMap.insert_insert]
          have result := returns probe (n.transport.transfers.insert record.chunk.transfer
            { credited transfer record' with
              completion := some (Settling.completionWith record.chunk.transfer n.now transfer
                record') }) (n.transport.completions ++
              [Settling.completionWith record.chunk.transfer n.now transfer record'])
          apply result
          · simp only [isLast, if_true, List.append_assoc] at books
            unfold Booked rebooked
            simp only [stored]
            exact books
          · apply Grows.insert TransferRecord.Becomes.refl
            intro old isOld
            exact becomes old isOld _
          · exact ⟨_, rfl⟩
        · intro e n' excused fault
          exact throws e n' excused fault
    · intro e thrown
      rw [settling.completionOf_eq] at thrown
      cases thrown
  · intro e thrown
    rw [settling.settled_eq] at thrown
    cases thrown

/-- The invariant holds afterwards, and nothing was undone. -/
structure Kept (awaiting : Option Event) (taken : List TransferCompletion) (n n' : Network) :
    Prop where
  inv : Invariant awaiting taken n'
  advances : Advances n n'

/-- The event has been handled: nothing awaits any more. -/
abbrev Handled (taken : List TransferCompletion) (n n' : Network) : Prop := Kept none taken n n'

theorem Kept.trans {awaiting : Option Event} {a b c : Network} (ab : Kept awaiting taken a b)
    (bc : Kept awaiting taken b c) : Kept awaiting taken a c :=
  ⟨bc.inv, ab.advances.trans bc.advances⟩

/-! ## Arrivals -/

/-- The chunk whose arrival is being handled. -/
structure Arriving (taken : List TransferCompletion) (n : Network) (event : Event) (chunk : ChunkId)
    (record : ChunkRecord) : Prop where
  inv : Invariant (some event) taken n
  payload : event.payload = .chunkArrival ⟨chunk, record.hopIndex⟩
  found : n.transport.chunks.find? chunk = some record
  state : record.state = .awaitingArrival
  arrival : record.scheduledArrival = some event.id
  single : arrivals (outstanding n.kernel.sim (some event)) chunk = {event}
  apart : holders (heldBy n.transport.services) chunk = ∅

/-- The arriving chunk is to enter a link. -/
structure Entering (taken : List TransferCompletion) (n : Network) (event : Event) (chunk : ChunkId)
    (record : ChunkRecord) (link : DirectedLinkId) (service : DirectedLinkService)
    (arc : DirectedLink) : Prop where
  arriving : Arriving taken n event chunk record
  hop : record.route[record.hopIndex]? = some link
  isService : n.transport.services.find? link = some service
  isArc : requireFabricArc n.graph link = .ok arc

/-- What a handler leaves behind: the given simulation, chunks and services, the books of the
transfers in some state, and everything else as it was. -/
structure Leaves (n : Network) (sim : Simulation) (chunks : OrderedMap ChunkId ChunkRecord)
    (services : OrderedMap DirectedLinkId DirectedLinkService) (n' : Network) : Prop where
  sim : n'.kernel.sim = sim
  graph : n'.graph = n.graph
  transport : ∃ transfers completions,
    n'.transport = { n.transport with chunks, services, transfers, completions }

/-- The record of a chunk once the service has answered. -/
def answered (record : ChunkRecord) (admission : AdmissionResult) : ChunkRecord :=
  { record with
    scheduledArrival := none
    chunk := { record.chunk with marked := record.chunk.marked || admission.markedHere }
    state := if admission.disposition = .droppedBufferFull then .droppedBufferFull else .admitted }

/-- The record of a chunk at the link it is to enter. -/
def entering (record : ChunkRecord) : ChunkRecord :=
  { record with chunk := { record.chunk with hopIndex := record.hopIndex } }

/-- Everything that can become of a chunk that arrives. -/
inductive Arrives (taken : List TransferCompletion) (n : Network) (event : Event) :
    Network → Prop where
  | delivered {n' : Network} {chunk : ChunkId} {record : ChunkRecord} :
      Arriving taken n event chunk record → record.hopIndex = record.route.length →
      Leaves n n.kernel.sim (n.transport.chunks.insert chunk
        { record with scheduledArrival := none, state := .delivered }) n.transport.services n' →
      Arrives taken n event n'
  | blocked {n' : Network} {chunk : ChunkId} {record : ChunkRecord} {link : DirectedLinkId}
      {service : DirectedLinkService} {arc : DirectedLink} (statistics : LinkStatistics) :
      Entering taken n event chunk record link service arc → n.graph.isOperational arc = false →
      Leaves n n.kernel.sim (n.transport.chunks.insert chunk
        { record with scheduledArrival := none, state := .droppedLinkDown })
        (n.transport.services.insert link { service with statistics }) n' →
      Arrives taken n event n'
  | started {n' : Network} {chunk : ChunkId} {record : ChunkRecord} {link : DirectedLinkId}
      {service : DirectedLinkService} {arc : DirectedLink} (time : SimTimeNs) :
      Entering taken n event chunk record link service arc → n.graph.isOperational arc = true →
      service.queue.active = none → n.kernel.sim.eventIds.exhausted = false →
      completionTime (entering record).chunk service.queue.configuration n.kernel.sim.now =
        .ok time →
      Leaves n (n.kernel.sim.scheduled (DirectedLinkService.completionSpec
          service.queue.configuration (entering record).chunk time))
        (n.transport.chunks.insert chunk (answered (entering record) ⟨.serviceStarted, false⟩))
        (n.transport.services.insert link { service with
          queue := { service.queue with active := some (entering record).chunk }
          statistics := DirectedLinkService.countAdmission service.statistics
            (entering record).chunk ⟨.serviceStarted, false⟩
          scheduledCompletion := some (n.kernel.sim.eventFor (DirectedLinkService.completionSpec
            service.queue.configuration (entering record).chunk time)).id
          busySince := some n.kernel.sim.now }) n' →
      Arrives taken n event n'
  | queued {n' : Network} {chunk : ChunkId} {record : ChunkRecord} {link : DirectedLinkId}
      {service : DirectedLinkService} {arc : DirectedLink} :
      Entering taken n event chunk record link service arc → n.graph.isOperational arc = true →
      service.queue.active ≠ none → service.queue.overflows record.chunk.bytes = false →
      Leaves n n.kernel.sim (n.transport.chunks.insert chunk (answered (entering record)
          ⟨.queued, service.queue.marksNext (entering record).chunk⟩))
        (n.transport.services.insert link { service with
          queue := service.queue.enqueued (entering record).chunk
          statistics := DirectedLinkService.countAdmission service.statistics
            (entering record).chunk
            ⟨.queued, service.queue.marksNext (entering record).chunk⟩ }) n' →
      Arrives taken n event n'
  | rejected {n' : Network} {chunk : ChunkId} {record : ChunkRecord} {link : DirectedLinkId}
      {service : DirectedLinkService} {arc : DirectedLink} :
      Entering taken n event chunk record link service arc → n.graph.isOperational arc = true →
      service.queue.active ≠ none → service.queue.overflows record.chunk.bytes = true →
      Leaves n n.kernel.sim (n.transport.chunks.insert chunk
          (answered (entering record) ⟨.droppedBufferFull, false⟩))
        (n.transport.services.insert link { service with
          statistics := DirectedLinkService.countAdmission service.statistics
            (entering record).chunk ⟨.droppedBufferFull, false⟩ }) n' →
      Arrives taken n event n'

namespace Arriving

variable (arriving : Arriving taken n event chunk record)

include arriving

theorem current : n.kernel.sim.currentEvent = some event :=
  (arriving.inv.current event rfl).1

theorem opened : n.kernel.sim.lifecycle ≠ .finished :=
  (arriving.inv.current event rfl).2

theorem handled : outstanding n.kernel.sim none =
    outstanding n.kernel.sim (some event) \ {event} :=
  outstanding_handled arriving.inv.valid arriving.current

theorem not_transmission (link : DirectedLinkId) : ¬ TransmissionOn link event.payload :=
  not_both ⟨_, arriving.payload⟩

theorem moved : record.state ≠ .registered := by simp [arriving.state]

theorem still_open : record.state.terminal = false := by
  simp [arriving.state, ChunkTransitState.terminal]

/-- The chunk comes to its end. -/
theorem ended {n' : Network} {record' : ChunkRecord}
    (sim : n'.kernel.sim = n.kernel.sim) (graph : n'.graph = n.graph)
    (chunks : n'.transport.chunks = n.transport.chunks.insert chunk record')
    (services : Restated n.transport.services n'.transport.services)
    (transferIds : n'.transport.transferIds = n.transport.transferIds)
    (chunkIds : n'.transport.chunkIds = n.transport.chunkIds)
    (booked : Booked taken n') (fault : n'.transport.terminalFault = n.transport.terminalFault)
    (becomes : record.Becomes record') (id : record'.chunk.id = chunk)
    (hop : record'.hopIndex = record.hopIndex) (terminal : record'.state.terminal = true)
    (cleared : record'.scheduledArrival = none) : Invariant none taken n' := by
  have inv := arriving.inv
  constructor
  · rw [sim]
    exact inv.valid
  · simp
  · rw [sim, chunks, services.heldBy_eq, arriving.handled]
    exact inv.placement.finish ⟨_, arriving.payload⟩ arriving.single arriving.apart terminal cleared
  · rw [sim, arriving.handled]
    exact services.running (inv.running.erase_event arriving.not_transmission)
  · rw [chunks]
    apply routed_insert inv.routed services.sameLinks
    have routed := inv.routed chunk record arriving.found
    exact routed.becomes becomes id (hop ▸ routed.hop)
  · rw [graph]
    exact arcs_sameLinks inv.arcs services.sameLinks
  · exact booked
  · rw [chunks, transferIds, chunkIds]
    exact inv.issued.insert arriving.found becomes.transfer
  · rw [fault]
    exact inv.faultless

theorem advances {n' : Network} {record' : ChunkRecord}
    (sim : SimAdvances n.kernel.sim n'.kernel.sim)
    (chunks : n'.transport.chunks = n.transport.chunks.insert chunk record')
    (becomes : record.Becomes record')
    (transfers : Grows TransferRecord.Becomes n.transport.transfers n'.transport.transfers)
    (links : SameLinks n.transport.services n'.transport.services)
    (completions : ∃ added, n'.transport.completions = n.transport.completions ++ added) :
    Advances n n' where
  sim := sim
  chunks := by
    rw [chunks]
    apply Grows.insert ChunkRecord.Becomes.refl
    intro found isFound
    rw [arriving.found] at isFound
    cases isFound
    exact becomes
  transfers := transfers
  links := links
  completions := completions

/-- Whatever happens to a chunk that is still open is allowed. -/
theorem becomes {record' : ChunkRecord} (transfer : record'.chunk.transfer = record.chunk.transfer)
    (bytes : record'.chunk.bytes = record.chunk.bytes) (route : record'.route = record.route)
    (moved : record'.state ≠ .registered) : record.Becomes record' where
  transfer := transfer
  bytes := bytes
  route := route
  absorbing terminal := by simp [arriving.still_open] at terminal
  submitted _ := moved

theorem wp_deliver {Q : Unit → Network → Prop} {E : Error → Network → Prop}
    (last : record.hopIndex = record.route.length)
    (returns : ∀ n', Handled taken n n' → Arrives taken n event n' → Q () n')
    (throws : n.Tolerates E) :
    wp (deliver chunk record) Q E n := by
  simp only [deliver, wp_bind, wp_storeChunk]
  refine wp_observe (fun probe => ?_) throws
  refine wp_recordTerminal arriving.inv.accounts rfl arriving.found rfl rfl arriving.moved
    arriving.still_open rfl ?_ throws
  intro probe' transfers completions booked grows added
  have becomes : record.Becomes { record with scheduledArrival := none, state := .delivered } :=
    arriving.becomes rfl rfl rfl (by simp)
  refine returns _ ⟨?_, ?_⟩ (.delivered arriving last ⟨rfl, rfl, transfers, completions, rfl⟩)
  · exact arriving.ended rfl rfl rfl (.refl _) rfl rfl booked rfl becomes
      (arriving.inv.routed chunk record arriving.found).id rfl rfl rfl
  · exact arriving.advances (.refl _) rfl becomes grows (.refl _) added

/-- The service of the link the chunk is to enter. -/
theorem service_found (hop : record.route[record.hopIndex]? = some link) :
    ∃ service, n.transport.services.find? link = some service ∧
      Runs (transmissions (outstanding n.kernel.sim (some event)) link) n.kernel.sim.now link
        (some service) := by
  obtain ⟨service, found⟩ := (arriving.inv.routed chunk record arriving.found).configured link
    (List.mem_of_getElem? hop)
  have runs := arriving.inv.running link
  rw [found] at runs
  exact ⟨service, found, runs⟩

theorem wp_dropOnArrival {Q : Unit → Network → Prop} {E : Error → Network → Prop}
    (hop : record.route[record.hopIndex]? = some link) {arc : DirectedLink}
    (isArc : requireFabricArc n.graph link = .ok arc) (down : n.graph.isOperational arc = false)
    (returns : ∀ n', Handled taken n n' → Arrives taken n event n' → Q () n')
    (throws : n.Tolerates E) : wp (dropOnArrival chunk record link) Q E n := by
  obtain ⟨service, found, runs⟩ := arriving.service_found hop
  have enters : Entering taken n event chunk record link service arc :=
    ⟨arriving, hop, found, isArc⟩
  simp only [dropOnArrival, wp_bind]
  refine wp_linkStatistics found runs.past (fun before => ?_) throws
  refine wp_onService found (DirectedLinkService.wp_recordLinkDown (fun statistics => ?_) ?_)
  · refine wp_linkStatistics (OrderedMap.find?_insert_self _ _ _) runs.past (fun after => ?_) throws
    rw [wp_storeChunk]
    refine wp_observe (fun probe₁ => ?_) throws
    refine wp_observe (fun probe₂ => ?_) throws
    refine wp_observe (fun probe₃ => ?_) throws
    refine wp_emitServiceGauges (OrderedMap.find?_insert_self _ _ _) (fun probe₄ => ?_) throws
    refine wp_recordTerminal arriving.inv.accounts rfl arriving.found rfl rfl arriving.moved
      arriving.still_open rfl ?_ throws
    intro probe' transfers completions booked grows added
    have becomes : record.Becomes
        { record with scheduledArrival := none, state := .droppedLinkDown } :=
      arriving.becomes rfl rfl rfl (by simp)
    refine returns _ ⟨?_, ?_⟩
      (.blocked statistics enters down ⟨rfl, rfl, transfers, completions, rfl⟩)
    · exact arriving.ended rfl rfl rfl (.insert found statistics) rfl rfl booked rfl becomes
        (arriving.inv.routed chunk record arriving.found).id rfl rfl rfl
    · exact arriving.advances (.refl _) rfl becomes grows (.insert found) added
  · intro e s excused
    exact throws e _ excused rfl

/-- The chunk joins the queue of its link. -/
theorem joined {n' : Network} {record' : ChunkRecord} {copy : TransferChunk}
    (valid : n'.kernel.sim.Valid)
    (arrivals_same : ∀ other, arrivals (outstanding n'.kernel.sim none) other =
      arrivals (outstanding n.kernel.sim none) other)
    (graph : n'.graph = n.graph)
    (chunks : n'.transport.chunks = n.transport.chunks.insert chunk record')
    (links : SameLinks n.transport.services n'.transport.services)
    (held : heldBy n'.transport.services = Function.update (heldBy n.transport.services) link
      (heldBy n.transport.services link ++ [copy]))
    (running : Running (outstanding n'.kernel.sim none) n'.kernel.sim.now n'.transport.services)
    (transfers : n'.transport.transfers = n.transport.transfers)
    (completions : n'.transport.completions = n.transport.completions)
    (transferIds : n'.transport.transferIds = n.transport.transferIds)
    (chunkIds : n'.transport.chunkIds = n.transport.chunkIds)
    (fault : n'.transport.terminalFault = n.transport.terminalFault)
    (becomes : record.Becomes record') (hop : record'.hopIndex = record.hopIndex)
    (state : record'.state = .admitted) (cleared : record'.scheduledArrival = none)
    (onRoute : record.route[record.hopIndex]? = some link)
    (id : record'.chunk.id = chunk) (same : Matches record' copy) : Invariant none taken n' := by
  have inv := arriving.inv
  constructor
  · exact valid
  · simp
  · rw [chunks, held]
    apply Placement.of_arrivals_eq _ arrivals_same
    rw [arriving.handled]
    apply inv.placement.admitted_to ⟨_, arriving.payload⟩ arriving.single arriving.apart state cleared
      _ same (same.id.trans id)
    rw [hop, becomes.route]
    exact onRoute
  · exact running
  · rw [chunks]
    apply routed_insert inv.routed links
    have routed := inv.routed chunk record arriving.found
    exact routed.becomes becomes id (hop ▸ routed.hop)
  · rw [graph]
    exact arcs_sameLinks inv.arcs links
  · rw [chunks, transfers, completions]
    exact inv.accounts.move_on arriving.found arriving.moved becomes.transfer becomes.bytes
      arriving.still_open (by simp [state, ChunkTransitState.terminal])
  · rw [chunks, transferIds, chunkIds]
    exact inv.issued.insert arriving.found becomes.transfer
  · rw [fault]
    exact inv.faultless

end Arriving

theorem wp_emitAdmission {admission : AdmissionResult} {Q : Unit → Network → Prop}
    {E : Error → Network → Prop} (returns : ∀ probe, Q () (n.probed probe))
    (throws : n.Tolerates E) : wp (emitAdmission record link admission) Q E n := by
  simp only [emitAdmission, wp_ite, wp_bind, wp_runIf]
  constructor
  · intro _
    exact wp_observe (fun _ => wp_observe returns throws) throws
  · intro _
    refine wp_observe (fun probe => ⟨fun _ => ?_, fun _ => ?_⟩) throws
    · refine wp_observe (fun probe => ⟨fun _ => ?_, fun _ => ?_⟩) throws
      · exact wp_observe (fun _ => wp_observe returns throws) throws
      · exact wp_observe returns throws
    · refine ⟨fun _ => ?_, fun _ => ?_⟩
      · exact wp_observe (fun _ => wp_observe returns throws) throws
      · exact wp_observe returns throws

theorem wp_finishAdmission {before : LinkStatistics} {admission : AdmissionResult}
    {Q : Unit → Network → Prop} {E : Error → Network → Prop}
    (found : n.transport.services.find? link = some service)
    (past : service.BusySince n.kernel.sim.now)
    (rest : ∀ probe, wp (runIf ((answered record admission).state = .droppedBufferFull)
        (recordTerminal (answered record admission))) Q E
      (Network.probed { n with transport := { n.transport with
        chunks := n.transport.chunks.insert chunk (answered record admission) } } probe))
    (throws : n.Tolerates E) : wp (finishAdmission chunk record link before admission) Q E n := by
  simp only [finishAdmission, wp_bind]
  refine wp_linkStatistics found past (fun after => ?_) throws
  rw [wp_storeChunk]
  refine wp_emitAdmission (fun probe₁ => ?_) throws
  refine wp_observe (fun probe₂ => ?_) throws
  exact wp_emitServiceGauges found (fun probe₃ => rest probe₃) throws

namespace Arriving

variable (arriving : Arriving taken n event chunk record)

include arriving

/-- The chunk goes into service on an idle link. -/
theorem started (copy : TransferChunk) (statistics : LinkStatistics)
    (hop : record.route[record.hopIndex]? = some link)
    (found : n.transport.services.find? link = some service)
    (idle : service.queue.active = none) {time : SimTimeNs} {probe : Instrumentation}
    {record' : ChunkRecord}
    (future : n.kernel.sim.now ≤ time) (remaining : n.kernel.sim.eventIds.exhausted = false)
    (becomes : record.Becomes record') (sameHop : record'.hopIndex = record.hopIndex)
    (state : record'.state = .admitted) (cleared : record'.scheduledArrival = none)
    (id : record'.chunk.id = chunk) (same : Matches record' copy)
    {specification : EventSpec} (isSpecification : specification =
      DirectedLinkService.completionSpec service.queue.configuration copy time) {n' : Network}
    (kernel : n'.kernel = ⟨n.kernel.sim.scheduled specification, probe⟩)
    (graph : n'.graph = n.graph)
    (transport : n'.transport = { n.transport with
      chunks := n.transport.chunks.insert chunk record'
      services := n.transport.services.insert link { service with
        queue := { service.queue with active := some copy }
        statistics
        scheduledCompletion := some (n.kernel.sim.eventFor specification).id
        busySince := some n.kernel.sim.now } }) :
    Handled taken n n' := by
  have inv := arriving.inv
  have runs := inv.running link
  rw [found] at runs
  -- on an idle link nothing waits and nothing is transmitted
  obtain ⟨waiting, _, silent⟩ := runs.of_idle idle
  have configured := runs.configured
  have transmission : (n.kernel.sim.eventFor specification).payload =
      .transmissionComplete ⟨link.link, copy.id, copy.hopIndex, link.direction⟩ := by
    rw [← configured, isSpecification]
    rfl
  have on_link : TransmissionOn link (n.kernel.sim.eventFor specification).payload :=
    ⟨_, _, transmission⟩
  have events : outstanding n'.kernel.sim none =
      insert (n.kernel.sim.eventFor specification) (outstanding n.kernel.sim none) := by
    rw [kernel]
    exact outstanding_scheduled inv.valid remaining specification
  have sim : SimAdvances n.kernel.sim n'.kernel.sim := by
    rw [kernel]
    apply SimAdvances.scheduled inv.valid remaining
    rw [isSpecification]
    rfl
  constructor
  · refine arriving.joined ?_ ?_ graph (by rw [transport]) ?_ ?_ ?_ (by rw [transport])
      (by rw [transport]) (by rw [transport]) (by rw [transport]) (by rw [transport]) becomes sameHop
      state cleared hop id same
    · rw [kernel]
      apply inv.valid.scheduled remaining
      rw [isSpecification]
      exact future
    · intro other
      rw [events]
      exact concerning_insert_of_not fun arrival => not_both arrival on_link
    · rw [transport]
      exact .insert found
    · rw [transport, heldBy_insert]
      simp [heldBy, found, DirectedLinkQueue.held, idle, waiting]
    · rw [events, transport, sim.now]
      apply inv.running.update link
      · intro other differs
        rw [transmissions, concerning_insert_of_not
          fun onOther => differs (transmissionOn_inj onOther on_link), arriving.handled,
          concerning_diff_of_not (arriving.not_transmission other)]
        rfl
      · refine Runs.busy _ copy n.kernel.sim.now configured rfl rfl rfl (le_refl _) transmission ?_
        rw [transmissions, concerning_insert on_link, arriving.handled,
          concerning_diff_of_not (arriving.not_transmission link)]
        rw [transmissions] at silent
        rw [silent]
        simp
  · exact arriving.advances sim (by rw [transport]) becomes
      (by rw [transport]; exact .refl .refl _) (by rw [transport]; exact .insert found)
      ⟨[], by simp [transport]⟩

/-- The chunk waits behind the one in service. -/
theorem queued (statistics : LinkStatistics) (hop : record.route[record.hopIndex]? = some link)
    (found : n.transport.services.find? link = some service)
    {u : DirectedLinkQueue} {probe : Instrumentation} {copy : TransferChunk}
    {record' : ChunkRecord}
    (configuration : u.configuration = service.queue.configuration)
    (active : u.active = service.queue.active) (busy : service.queue.active ≠ none)
    (waiting : u.waiting = service.queue.waiting ++ [copy])
    (becomes : record.Becomes record') (sameHop : record'.hopIndex = record.hopIndex)
    (state : record'.state = .admitted) (cleared : record'.scheduledArrival = none)
    (id : record'.chunk.id = chunk) (same : Matches record' copy) {n' : Network}
    (kernel : n'.kernel = ⟨n.kernel.sim, probe⟩) (graph : n'.graph = n.graph)
    (transport : n'.transport = { n.transport with
      chunks := n.transport.chunks.insert chunk record'
      services := n.transport.services.insert link { service with queue := u, statistics } }) :
    Handled taken n n' := by
  have inv := arriving.inv
  have runs := inv.running link
  rw [found] at runs
  constructor
  · refine arriving.joined ?_ ?_ graph (by rw [transport]) ?_ ?_ ?_ (by rw [transport])
      (by rw [transport]) (by rw [transport]) (by rw [transport]) (by rw [transport]) becomes sameHop
      state cleared hop id same
    · rw [kernel]
      exact inv.valid
    · intro other
      rw [kernel]
    · rw [transport]
      exact .insert found
    · rw [transport, heldBy_insert]
      simp [heldBy, found, DirectedLinkQueue.held, active, waiting]
    · rw [kernel, transport, arriving.handled]
      apply (inv.running.erase_event arriving.not_transmission).update link (fun _ _ => rfl)
      have silent : transmissions (outstanding n.kernel.sim (some event) \ {event}) link =
          transmissions (outstanding n.kernel.sim (some event)) link :=
        concerning_diff_of_not (arriving.not_transmission link)
      rw [silent]
      cases runs with
      | idle _ inactive => exact absurd inactive busy
      | busy scheduled serving since configured inService completion begun past payload single =>
        exact .busy scheduled serving since (configuration ▸ configured)
          (active.trans inService) completion begun past payload single
  · exact arriving.advances (by rw [kernel]; exact .refl _) (by rw [transport]) becomes
      (by rw [transport]; exact .refl .refl _) (by rw [transport]; exact .insert found)
      ⟨[], by simp [transport]⟩

theorem wp_admitOnArrival {Q : Unit → Network → Prop} {E : Error → Network → Prop}
    (hop : record.route[record.hopIndex]? = some link) {arc : DirectedLink}
    (isArc : requireFabricArc n.graph link = .ok arc) (up : n.graph.isOperational arc = true)
    (returns : ∀ n', Handled taken n n' → Arrives taken n event n' → Q () n')
    (throws : n.Tolerates E) : wp (admitOnArrival chunk record link record.hopIndex) Q E n := by
  obtain ⟨service, found, runs⟩ := arriving.service_found hop
  have inv := arriving.inv
  have enters : Entering taken n event chunk record link service arc :=
    ⟨arriving, hop, found, isArc⟩
  have id := (inv.routed chunk record arriving.found).id
  have bytes := (inv.routed chunk record arriving.found).bytes
  have becomes : ∀ admission, record.Becomes (answered (entering record) admission) := by
    intro admission
    refine arriving.becomes rfl rfl rfl ?_
    simp only [answered]
    split <;> simp
  let counted := DirectedLinkService.countAdmission service.statistics (entering record).chunk
  simp only [admitOnArrival, wp_bind, wp_storeChunk]
  refine wp_linkStatistics found runs.past (fun before => ?_) throws
  refine wp_onService found (DirectedLinkService.wp_admitChunk bytes inv.valid arriving.opened ?_ ?_ ?_ ?_)
  -- the link is idle, and the chunk goes into service
  · intro idle time probe inTime remaining
    refine wp_finishAdmission (OrderedMap.find?_insert_self _ _ _) ?_ (fun probe => ?_) throws
    · intro since begun
      cases begun
      exact le_refl _
    · rw [wp_runIf]
      refine ⟨fun dropped => by simp [answered] at dropped, fun _ => ?_⟩
      refine returns _ (arriving.started (entering record).chunk
        (counted ⟨.serviceStarted, false⟩) hop found idle (completionTime_ok inTime) remaining
        (becomes ⟨.serviceStarted, false⟩) rfl rfl rfl id
        ⟨rfl, rfl, rfl, rfl⟩ rfl rfl rfl ?_)
        (.started time enters up idle remaining inTime
          ⟨rfl, rfl, n.transport.transfers, n.transport.completions, ?_⟩)
      all_goals
        simp only [probed, withServing, OrderedMap.insert_insert]
        rfl
  -- the chunk waits
  · intro busy fits
    refine wp_finishAdmission (OrderedMap.find?_insert_self _ _ _) runs.past (fun probe => ?_) throws
    rw [wp_runIf]
    refine ⟨fun dropped => by simp [answered] at dropped, fun _ => ?_⟩
    refine returns _ (arriving.queued
      (counted ⟨.queued, service.queue.marksNext (entering record).chunk⟩) hop found
      (u := service.queue.enqueued (entering record).chunk) rfl rfl busy rfl
      (becomes ⟨.queued, service.queue.marksNext (entering record).chunk⟩) rfl rfl rfl id
      ⟨rfl, rfl, rfl, rfl⟩ rfl rfl ?_)
      (.queued enters up busy fits
        ⟨rfl, rfl, n.transport.transfers, n.transport.completions, ?_⟩)
    all_goals
      simp only [probed, withServing, OrderedMap.insert_insert]
      rfl
  -- there is no room for it, and it ends here
  · intro busy full
    refine wp_finishAdmission (OrderedMap.find?_insert_self _ _ _) runs.past (fun probe => ?_) throws
    rw [wp_runIf]
    refine ⟨fun _ => ?_, fun kept => by simp [answered] at kept⟩
    refine wp_recordTerminal inv.accounts (OrderedMap.insert_insert _ _ _ _) arriving.found rfl rfl
      arriving.moved arriving.still_open rfl ?_ throws
    intro probe' transfers completions booked grows added
    have stored := OrderedMap.insert_insert n.transport.chunks chunk (entering record)
      (answered (entering record) ⟨.droppedBufferFull, false⟩)
    refine returns _ ⟨?_, ?_⟩
      (.rejected enters up busy full ⟨rfl, rfl, transfers, completions, ?_⟩)
    · exact arriving.ended rfl rfl stored (.insert found (counted ⟨.droppedBufferFull, false⟩))
        rfl rfl booked rfl (becomes _) id rfl rfl rfl
    · exact arriving.advances (.refl _) stored (becomes _) grows (.insert found) added
    · simp only [rebooked, probed, withServing, OrderedMap.insert_insert]
      rfl
  · intro e s excused
    exact throws e _ excused rfl

end Arriving

theorem wp_handleArrival {arrival : ChunkArrivalEvent} {Q : Unit → Network → Prop}
    {E : Error → Network → Prop} (inv : Invariant (some event) taken n)
    (payload : event.payload = .chunkArrival arrival)
    (returns : ∀ n', Handled taken n n' → Arrives taken n event n' → Q () n')
    (throws : n.Tolerates E) : wp (handleArrival arrival) Q E n := by
  have member : event ∈ outstanding n.kernel.sim (some event) := .inr rfl
  obtain ⟨record, found, state, expected, sameHop, single, apart⟩ :=
    inv.placement.arriving member payload
  obtain ⟨chunk, hopIndex⟩ := arrival
  simp only at found sameHop single apart
  subst sameHop
  have arriving : Arriving taken n event chunk record :=
    ⟨inv, payload, found, state, expected, single, apart⟩
  have routed := inv.routed chunk record found
  simp only [handleArrival, wp_bind]
  apply wp_requireChunk found
  rw [wp_throwIf]
  refine ⟨fun unexpected => by simp [state, expected] at unexpected, fun _ => ?_⟩
  rw [wp_zoom]
  apply Kernel.wp_currentEventId arriving.current
  rw [wp_throwIf]
  refine ⟨fun unexpected => by simp [expected] at unexpected, fun _ => ?_⟩
  rw [wp_ite]
  constructor
  · intro last
    exact arriving.wp_deliver last returns throws
  · intro onTheWay
    have inRange : record.hopIndex < record.route.length := lt_of_le_of_ne routed.hop onTheWay
    have hop : record.route[record.hopIndex]? = some record.route[record.hopIndex] :=
      List.getElem?_eq_getElem inRange
    obtain ⟨service, isService⟩ := routed.configured _ (List.mem_of_getElem? hop)
    obtain ⟨arc, isArc⟩ := inv.arcs _ _ isService
    simp only [wp_bind, wp_getOrThrow, hop, wp_get, wp_fromExcept, wp_ite, Option.some.injEq]
    refine ⟨?_, fun absent => by simp at absent⟩
    intro link isLink
    subst isLink
    refine ⟨fun directed isDirected => ⟨fun down => ?_, fun up => ?_⟩, fun e thrown => ?_⟩
    · exact arriving.wp_dropOnArrival hop isDirected down returns throws
    · exact arriving.wp_admitOnArrival hop isDirected (Bool.eq_true_of_not_eq_false up) returns
        throws
    · have impossible : requireFabricArc n.graph record.route[record.hopIndex] = .error e := thrown
      rw [isArc] at impossible
      cases impossible

/-! ## Completed transmissions -/

/-- The chunk whose transmission has completed, at the head of the queue of its link. -/
structure Completing (taken : List TransferCompletion) (n : Network) (event : Event)
    (link : DirectedLinkId) (service : DirectedLinkService) (active : TransferChunk)
    (record : ChunkRecord) : Prop where
  inv : Invariant (some event) taken n
  payload : event.payload =
    .transmissionComplete ⟨link.link, active.id, active.hopIndex, link.direction⟩
  isService : n.transport.services.find? link = some service
  configured : service.queue.configuration.link = link
  inService : service.queue.active = some active
  expected : service.scheduledCompletion = some event.id
  past : service.BusySince n.kernel.sim.now
  single : transmissions (outstanding n.kernel.sim (some event)) link = {event}
  found : n.transport.chunks.find? active.id = some record
  state : record.state = .admitted
  onRoute : record.route[record.hopIndex]? = some link
  same : Matches record active

/-- The record of a chunk that is under way to its next hop. -/
def departing (record : ChunkRecord) (active : TransferChunk) (arrival : EventId) : ChunkRecord :=
  { record with
    chunk := active
    hopIndex := U32.add record.hopIndex 1
    state := .awaitingArrival
    scheduledArrival := some arrival }

/-- The arrival of a chunk at its next hop. -/
def arrivalSpec (record : ChunkRecord) (active : TransferChunk) (time : SimTimeNs) : EventSpec :=
  ⟨time, .normal, .chunkArrival ⟨active.id, U32.add record.hopIndex 1⟩⟩

/-- Everything that a completed transmission can do. -/
inductive Completes (taken : List TransferCompletion) (n : Network) (event : Event) :
    Network → Prop where
  | idled {n' : Network} {link : DirectedLinkId} {service : DirectedLinkService}
      {active : TransferChunk} {record : ChunkRecord} (statistics : LinkStatistics)
      (arrival : SimTimeNs) :
      Completing taken n event link service active record → service.queue.waiting = [] →
      checkedAdd n.kernel.sim.now service.queue.configuration.propagationDelay = some arrival →
      n.kernel.sim.eventIds.exhausted = false →
      Leaves n (n.kernel.sim.scheduled (arrivalSpec record active arrival))
        (n.transport.chunks.insert active.id (departing record active
          (n.kernel.sim.eventFor (arrivalSpec record active arrival)).id))
        (n.transport.services.insert link { service with
          queue := { service.queue with active := none, waiting := [] }
          statistics
          scheduledCompletion := none
          busySince := none }) n' →
      Completes taken n event n'
  | advanced {n' : Network} {link : DirectedLinkId} {service : DirectedLinkService}
      {active next : TransferChunk} {rest : List TransferChunk} {record : ChunkRecord}
      (statistics : LinkStatistics) (arrival time : SimTimeNs) (sim₁ : Simulation) :
      Completing taken n event link service active record → service.queue.waiting = next :: rest →
      checkedAdd n.kernel.sim.now service.queue.configuration.propagationDelay = some arrival →
      n.kernel.sim.eventIds.exhausted = false →
      completionTime next service.queue.configuration n.kernel.sim.now = .ok time →
      sim₁ = n.kernel.sim.scheduled (DirectedLinkService.completionSpec
        service.queue.configuration next time) →
      sim₁.eventIds.exhausted = false →
      Leaves n (sim₁.scheduled (arrivalSpec record active arrival))
        (n.transport.chunks.insert active.id (departing record active
          (sim₁.eventFor (arrivalSpec record active arrival)).id))
        (n.transport.services.insert link { service with
          queue := service.queue.advanced next rest
          statistics
          scheduledCompletion := some (n.kernel.sim.eventFor (DirectedLinkService.completionSpec
            service.queue.configuration next time)).id
          busySince := some n.kernel.sim.now }) n' →
      Completes taken n event n'

/-- The chunk in service is at the head of the queue, so its record says that it was admitted. -/
theorem completing (inv : Invariant (some event) taken n) {completion : TransmissionCompleteEvent}
    (payload : event.payload = .transmissionComplete completion) :
    ∃ service active record, completion = ⟨completion.link, active.id, active.hopIndex,
        completion.direction⟩ ∧
      Completing taken n event ⟨completion.link, completion.direction⟩ service active record := by
  obtain ⟨physical, chunk, hopIndex, direction⟩ := completion
  have member : event ∈ outstanding n.kernel.sim (some event) := .inr rfl
  have on_link : event.payload = .transmissionComplete
      ⟨(⟨physical, direction⟩ : DirectedLinkId).link, chunk, hopIndex,
        (⟨physical, direction⟩ : DirectedLinkId).direction⟩ := payload
  obtain ⟨service, active, since, isService, configured, inService, expected, begun, past, rfl, rfl,
    single⟩ := inv.running.transmitting member on_link
  have held : active ∈ heldBy n.transport.services ⟨physical, direction⟩ := by
    simp [heldBy, isService, DirectedLinkQueue.held, inService]
  obtain ⟨record, found, state, _, _, onRoute, _, same⟩ := inv.placement.holding held
  refine ⟨service, active, record, rfl, inv, payload, isService, configured, inService, expected,
    ?_, single, found, state, onRoute, same⟩
  intro other isOther
  rw [begun] at isOther
  cases isOther
  exact past

namespace Completing

variable {active : TransferChunk} (completing : Completing taken n event link service active record)

include completing

theorem current : n.kernel.sim.currentEvent = some event :=
  (completing.inv.current event rfl).1

theorem opened : n.kernel.sim.lifecycle ≠ .finished :=
  (completing.inv.current event rfl).2

theorem handled : outstanding n.kernel.sim none =
    outstanding n.kernel.sim (some event) \ {event} :=
  outstanding_handled completing.inv.valid completing.current

theorem on_link : TransmissionOn link event.payload := ⟨_, _, completing.payload⟩

theorem held : heldBy n.transport.services link = active :: service.queue.waiting := by
  simp [heldBy, completing.isService, DirectedLinkQueue.held, completing.inService]

theorem nextHop : U32.add record.hopIndex 1 = record.hopIndex + 1 ∧
    record.hopIndex + 1 ≤ record.route.length := by
  have routed := completing.inv.routed _ _ completing.found
  have inRange : record.hopIndex < record.route.length := by
    by_contra outside
    have onRoute := completing.onRoute
    rw [List.getElem?_eq_none (by omega)] at onRoute
    cases onRoute
  have length := routed.length
  refine ⟨U32.add_eq ?_, inRange⟩
  unfold maxU32 at length
  omega

/-- The chunk is under way to its next hop, and the service has moved on. -/
theorem departed {sim₁ : Simulation}
    {services₁ : OrderedMap DirectedLinkId DirectedLinkService} (valid : sim₁.Valid)
    (advances : SimAdvances n.kernel.sim sim₁)
    (arrivals_same : ∀ other, arrivals (outstanding sim₁ none) other =
      arrivals (outstanding n.kernel.sim (some event)) other)
    (running : Running (outstanding sim₁ none) sim₁.now services₁)
    (held : heldBy services₁ = Function.update (heldBy n.transport.services) link
      service.queue.waiting)
    (links : SameLinks n.transport.services services₁)
    (remaining : sim₁.eventIds.exhausted = false) {time : SimTimeNs} (future : sim₁.now ≤ time)
    {specification : EventSpec}
    (isSpecification : specification =
      ⟨time, .normal, .chunkArrival ⟨active.id, U32.add record.hopIndex 1⟩⟩)
    {n' : Network} (sim : n'.kernel.sim = sim₁.scheduled specification)
    (graph : n'.graph = n.graph)
    (transport : n'.transport = { n.transport with
      services := services₁
      chunks := n.transport.chunks.insert active.id { record with
        chunk := active
        hopIndex := U32.add record.hopIndex 1
        state := .awaitingArrival
        scheduledArrival := some (sim₁.eventFor specification).id } }) :
    Handled taken n n' := by
  have inv := completing.inv
  have moved : record.state ≠ .registered := by simp [completing.state]
  have still_open : record.state.terminal = false := by
    simp [completing.state, ChunkTransitState.terminal]
  have becomes : ∀ id, record.Becomes { record with
      chunk := active
      hopIndex := U32.add record.hopIndex 1
      state := .awaitingArrival
      scheduledArrival := id } := by
    intro id
    refine ⟨completing.same.transfer, completing.same.bytes, rfl, ?_, by simp⟩
    intro terminal
    simp [still_open] at terminal
  have arrival : (sim₁.eventFor specification).payload =
      .chunkArrival ⟨active.id, U32.add record.hopIndex 1⟩ := by
    rw [isSpecification]
    rfl
  have events : outstanding n'.kernel.sim none =
      insert (sim₁.eventFor specification) (outstanding sim₁ none) := by
    rw [sim]
    exact outstanding_scheduled valid remaining specification
  constructor
  · constructor
    · rw [sim]
      apply valid.scheduled remaining
      rw [isSpecification]
      exact future
    · simp
    · rw [events, transport]
      simp only [held]
      -- the chunk leaves the service and is in flight again
      refine Placement.of_arrivals_eq
        (inv.placement.moveOn completing.held arrival rfl rfl) fun other => ?_
      exact concerning_insert_congr (arrivals_same other)
    · rw [events, transport]
      have now : n'.kernel.sim.now = sim₁.now := by rw [sim]; rfl
      rw [now]
      exact running.insert_event fun _ => not_both ⟨_, arrival⟩
    · rw [transport]
      apply routed_insert inv.routed links
      -- there is a next hop, so the index does not wrap
      obtain ⟨exact_hop, inRange⟩ := completing.nextHop
      refine (inv.routed _ _ completing.found).becomes (becomes _) rfl ?_
      rw [exact_hop]
      exact inRange
    · rw [transport, graph]
      exact arcs_sameLinks inv.arcs links
    · rw [transport]
      exact inv.accounts.move_on completing.found moved completing.same.transfer
        completing.same.bytes still_open rfl
    · rw [transport]
      exact inv.issued.insert completing.found completing.same.transfer
    · rw [transport]
      exact inv.faultless
  · constructor
    · rw [sim]
      apply advances.trans (.scheduled valid remaining _)
      rw [isSpecification]
      rfl
    · rw [transport]
      apply Grows.insert ChunkRecord.Becomes.refl
      intro found isFound
      rw [completing.found] at isFound
      cases isFound
      exact becomes _
    · rw [transport]
      exact .refl .refl _
    · rw [transport]
      exact links
    · exact ⟨[], by simp [transport]⟩

end Completing

theorem wp_emitNextStarted {next : Option TransferChunk} {Q : Unit → Network → Prop}
    {E : Error → Network → Prop}
    (known : ∀ chunk, next = some chunk → ∃ record, n.transport.chunks.find? chunk.id = some record)
    (returns : ∀ probe, Q () (n.probed probe)) (throws : n.Tolerates E) :
    wp (emitNextStarted link next) Q E n := by
  unfold emitNextStarted
  cases next with
  | none => exact returns n.kernel.probe
  | some chunk =>
    obtain ⟨record, found⟩ := known chunk rfl
    simp only [wp_bind]
    apply wp_requireChunk found
    exact wp_observe (fun _ => wp_observe returns throws) throws

/-- The chunk leaves for its next hop; `n` is the network after the service has answered. -/
theorem wp_propagate {active : TransferChunk} {transition : ServiceTransition}
    {before : LinkStatistics} {arrivalTime : SimTimeNs} {Q : Unit → Network → Prop}
    {E : Error → Network → Prop}
    (found : n.transport.services.find? link = some service)
    (past : service.BusySince n.kernel.sim.now)
    (completed : transition.completed = active) (id : active.id = record.chunk.id)
    (known : ∀ next, transition.nextStarted = some next →
      ∃ record, n.transport.chunks.find? next.id = some record)
    (valid : n.kernel.sim.Valid) (opened : n.kernel.sim.lifecycle ≠ .finished)
    (future : n.kernel.sim.now ≤ arrivalTime)
    (returns : ∀ specification probe, n.kernel.sim.eventIds.exhausted = false →
      specification = (⟨arrivalTime, .normal,
        .chunkArrival ⟨active.id, U32.add record.hopIndex 1⟩⟩ : EventSpec) →
      Q () { n with
        kernel := ⟨n.kernel.sim.scheduled specification, probe⟩
        transport := { n.transport with
          chunks := n.transport.chunks.insert chunk { record with
            chunk := active
            hopIndex := U32.add record.hopIndex 1
            state := .awaitingArrival
            scheduledArrival := some (n.kernel.sim.eventFor specification).id } } })
    (throws : n.Tolerates E) :
    wp (propagate chunk record link before arrivalTime transition) Q E n := by
  subst completed
  simp only [propagate, wp_bind]
  refine wp_linkStatistics found past (fun after => ?_) throws
  rw [wp_throwIf]
  refine ⟨fun differs => absurd id differs, fun _ => ?_⟩
  rw [wp_storeChunk]
  refine wp_observe (fun probe₁ => ?_) throws
  refine wp_observe (fun probe₂ => ?_) throws
  refine wp_emitNextStarted ?_ (fun probe₃ => ?_) throws
  · intro next isNext
    obtain ⟨other, isOther⟩ := known next isNext
    exact (Grows.insert (fun _ => trivial) (fun _ _ => trivial) :
      Grows (fun _ _ => True) _ _) next.id other isOther |>.imp fun _ h => h.1
  · refine wp_observe (fun probe₄ => ?_) throws
    refine wp_emitServiceGauges found (fun probe₅ => ?_) throws
    rw [wp_storeChunk, wp_zoom]
    refine Kernel.wp_schedule valid opened future (fun remaining probe => ?_) ?_
    · rw [wp_storeChunk]
      have result := returns _ probe remaining rfl
      simp only [kernelLens, probed, OrderedMap.insert_insert]
      exact result
    · intro e k excused
      exact throws e _ excused rfl

theorem wp_handleCompletion {completion : TransmissionCompleteEvent} {Q : Unit → Network → Prop}
    {E : Error → Network → Prop} (inv : Invariant (some event) taken n)
    (payload : event.payload = .transmissionComplete completion)
    (returns : ∀ n', Handled taken n n' → Completes taken n event n' → Q () n')
    (throws : n.Tolerates E) : wp (handleCompletion completion) Q E n := by
  obtain ⟨service, active, record, shape, completing⟩ := completing inv payload
  have id : active.id = record.chunk.id := completing.same.id
  have on_link := completing.on_link
  obtain ⟨physical, chunk, hopIndex, direction⟩ := completion
  cases shape
  simp only [handleCompletion, wp_bind]
  apply wp_requireChunk completing.found
  -- the record agrees with the event, so the source does not throw here
  rw [wp_throwIf]
  refine ⟨fun unexpected => ?_, fun _ => ?_⟩
  · have hop := completing.same.hop
    simp [completing.state, hop, completing.onRoute] at unexpected
  apply wp_requireService completing.isService
  refine wp_linkStatistics completing.isService completing.past (fun before => ?_) throws
  simp only [wp_get, wp_getOrThrow]
  refine ⟨fun arrivalTime inTime => ?_, fun _ => throws _ _ (Kernel.excused_overflow _) rfl⟩
  -- the arrival is scheduled for now or later
  have future : n.kernel.sim.now ≤ arrivalTime := by
    rw [checkedAdd_eq_some inTime]
    exact Nat.le_add_right _ _
  refine wp_onService completing.isService (DirectedLinkService.wp_handleCompletion inv.valid
    completing.opened completing.current completing.expected completing.inService
    (by rw [completing.configured]) completing.past ?_ ?_ ?_)
  · -- nobody waits: the link falls idle
    intro waiting statistics
    refine wp_propagate (OrderedMap.find?_insert_self _ _ _) (by intro since idle; cases idle) rfl id
      (by simp) inv.valid completing.opened future ?_ throws
    intro specification probe remaining isSpecification
    refine returns _ (completing.departed inv.valid (.refl _) ?_ ?_ ?_
      (.insert completing.isService) remaining future isSpecification rfl rfl rfl) ?_
    · intro other
      rw [completing.handled]
      exact concerning_diff_of_not fun arrival => not_both arrival on_link
    · apply inv.running.update
      · intro other differs
        rw [completing.handled]
        exact concerning_diff_of_not fun onOther => differs (transmissionOn_inj onOther on_link)
      · refine .idle completing.configured rfl rfl rfl rfl ?_
        rw [completing.handled, transmissions, concerning_diff]
        have single := completing.single
        rw [transmissions] at single
        simp [single]
    · rw [heldBy_insert, waiting]
      rfl
    · subst isSpecification
      exact .idled statistics arrivalTime completing waiting inTime remaining
        ⟨rfl, rfl, _, _, rfl⟩
  · -- the next chunk in line goes into service
    intro next rest waiting time statistics probe isTime remaining
    have later : n.kernel.sim.now ≤ time := completionTime_ok isTime
    have valid : (n.kernel.sim.scheduled (DirectedLinkService.completionSpec
        service.queue.configuration next time)).Valid := inv.valid.scheduled remaining later
    have transmission : (n.kernel.sim.eventFor (DirectedLinkService.completionSpec
        service.queue.configuration next time)).payload =
        .transmissionComplete ⟨physical, next.id, next.hopIndex, direction⟩ := by
      rw [DirectedLinkService.completionSpec, completing.configured]
      rfl
    have next_on_link : TransmissionOn ⟨physical, direction⟩ (n.kernel.sim.eventFor
        (DirectedLinkService.completionSpec service.queue.configuration next time)).payload :=
      ⟨_, _, transmission⟩
    have events : outstanding (n.kernel.sim.scheduled (DirectedLinkService.completionSpec
        service.queue.configuration next time)) none = insert (n.kernel.sim.eventFor
        (DirectedLinkService.completionSpec service.queue.configuration next time))
          (outstanding n.kernel.sim none) := outstanding_scheduled inv.valid remaining _
    refine wp_propagate (OrderedMap.find?_insert_self _ _ _)
      (by intro since begun; cases begun; exact le_refl _) rfl id ?_ valid completing.opened future
      ?_ throws
    · intro other isOther
      cases isOther
      have held : next ∈ heldBy n.transport.services ⟨physical, direction⟩ := by
        have inLine : service.queue.waiting = next :: rest := waiting
        simp [completing.held, inLine]
      obtain ⟨record, found, _⟩ := inv.placement.holding held
      exact ⟨record, found⟩
    · intro specification probe' remaining' isSpecification
      refine returns _ (completing.departed valid (.scheduled inv.valid remaining rfl) ?_ ?_ ?_
        (.insert completing.isService) remaining' future isSpecification rfl rfl rfl) ?_
      · intro other
        rw [events, arrivals, concerning_insert_of_not fun arrival => not_both arrival next_on_link,
          completing.handled, concerning_diff_of_not fun arrival => not_both arrival on_link]
        rfl
      · rw [events]
        apply inv.running.update
        · intro other differs
          rw [transmissions, concerning_insert_of_not
            fun onOther => differs (transmissionOn_inj onOther next_on_link), completing.handled,
            concerning_diff_of_not fun onOther => differs (transmissionOn_inj onOther on_link)]
          rfl
        · refine .busy _ next n.kernel.sim.now completing.configured rfl rfl rfl (le_refl _)
            transmission ?_
          rw [transmissions, concerning_insert next_on_link, completing.handled, concerning_diff]
          have single := completing.single
          rw [transmissions] at single
          simp [single]
      · rw [heldBy_insert, waiting]
        rfl
      · subst isSpecification
        exact .advanced statistics arrivalTime time _ completing waiting inTime remaining isTime rfl
          remaining' ⟨rfl, rfl, _, _, rfl⟩
  · intro e s excused
    exact throws e _ excused rfl

end Network

end NexusLab.Transport
