import NexusLab.Transport.Drive

/-! # Transfers are conserved

A snapshot recounts a transfer from the chunk records and the link queues, a completion comes from
counters that are kept as chunks end.  In every reachable state the two agree: the eight categories
of the snapshot add up to the transfer, and the completion is there when every chunk has ended. -/

namespace NexusLab.Transport

open Foundation Sim NexusLab.Topology

/-- Everything a snapshot accounts for. -/
def TransferSnapshot.accounted (s : TransferSnapshot) : TrafficCount :=
  s.registered + s.awaitingInitialArrival + s.waiting + s.active + s.propagating + s.delivered +
    s.droppedBufferFull + s.droppedLinkDown

/-- The parts of a snapshot that are copied from the transfer. -/
structure TransferSnapshot.Copies (s : TransferSnapshot) (transfer : TransferRecord) : Prop where
  total : s.total = transfer.total
  delivered : s.delivered = transfer.delivered
  droppedBufferFull : s.droppedBufferFull = transfer.droppedBufferFull
  droppedLinkDown : s.droppedLinkDown = transfer.droppedLinkDown
  startedAt : s.startedAt = transfer.startedAt
  completion : s.completion = transfer.completion

/-! ## Counting -/

section Counting

variable {t : TransportRuntime} {s : TransferSnapshot} {transfer : TransferRecord} {chunk : ChunkId}
  {record : ChunkRecord}

/-- Adding a chunk to a category is in range when the whole account with that chunk is. -/
theorem count_into {weight : TrafficCount} (category : TrafficCount)
    (store : TrafficCount → TransferSnapshot) (copies : ∀ v, (store v).Copies transfer)
    (moves : ∀ v, (store v).accounted + category = s.accounted + v)
    (fits : (s.accounted + weight).Fits) :
    ∃ s', (do return store (← addTraffic category weight)) = (.ok s' : Except Error _) ∧
      s'.Copies transfer ∧ s'.accounted = s.accounted + weight := by
  have rest := moves 0
  have whole := moves (category + weight)
  simp only [TrafficCount.ext_iff, TrafficCount.add_bytes, TrafficCount.add_chunks,
    TrafficCount.zero_bytes, TrafficCount.zero_chunks] at rest whole
  have small : (category + weight).Fits := by
    obtain ⟨bytes, chunks⟩ := fits
    simp only [TrafficCount.add_bytes, TrafficCount.add_chunks] at bytes chunks
    constructor
    · rw [TrafficCount.add_bytes]
      omega
    · rw [TrafficCount.add_chunks]
      omega
  refine ⟨store (category + weight), by rw [addTraffic_of_fits small]; rfl, copies _, ?_⟩
  ext
  · rw [TrafficCount.add_bytes]
    omega
  · rw [TrafficCount.add_chunks]
    omega

/-- Each chunk is counted once: in the category of its state, or already by the transfer. -/
theorem countChunk_eq (found : t.chunks.find? chunk = some record)
    (served : record.state = .admitted →
      ∃ service, record.route[record.hopIndex]?.bind t.services.find? = some service)
    (copies : s.Copies transfer)
    (fits : (s.accounted + share t.chunks ChunkTransitState.open chunk).Fits) :
    ∃ s', Network.countChunk t s chunk = .ok s' ∧ s'.Copies transfer ∧
      s'.accounted = s.accounted + share t.chunks ChunkTransitState.open chunk := by
  obtain ⟨total, delivered, full, down, startedAt, completion⟩ := copies
  have weight : record.state.terminal = false →
      share t.chunks ChunkTransitState.open chunk = ⟨record.chunk.bytes, 1⟩ := by
    intro still_open
    simp [share, found, ChunkTransitState.open, still_open, ChunkRecord.weight]
  unfold Network.countChunk
  simp only [found]
  cases state : record.state with
  | registered =>
    rw [weight (by simp [state, ChunkTransitState.terminal])] at fits ⊢
    refine count_into s.registered (fun v => { s with registered := v })
      (fun _ => ⟨total, delivered, full, down, startedAt, completion⟩) (fun v => ?_) fits
    ext <;> simp only [TransferSnapshot.accounted, TrafficCount.add_bytes, TrafficCount.add_chunks]
      <;> omega
  | awaitingArrival =>
    rw [weight (by simp [state, ChunkTransitState.terminal])] at fits ⊢
    by_cases first : record.hopIndex = 0
    · simp only [first, if_true]
      refine count_into s.awaitingInitialArrival (fun v => { s with awaitingInitialArrival := v })
        (fun _ => ⟨total, delivered, full, down, startedAt, completion⟩) (fun v => ?_) fits
      ext <;> simp only [TransferSnapshot.accounted, TrafficCount.add_bytes, TrafficCount.add_chunks]
        <;> omega
    · simp only [first, if_false]
      refine count_into s.propagating (fun v => { s with propagating := v })
        (fun _ => ⟨total, delivered, full, down, startedAt, completion⟩) (fun v => ?_) fits
      ext <;> simp only [TransferSnapshot.accounted, TrafficCount.add_bytes, TrafficCount.add_chunks]
        <;> omega
  | admitted =>
    rw [weight (by simp [state, ChunkTransitState.terminal])] at fits ⊢
    obtain ⟨service, isService⟩ := served state
    simp only [isService]
    by_cases inService : service.queue.active.map TransferChunk.id = some chunk
    · simp only [inService, if_true]
      refine count_into s.active (fun v => { s with active := v })
        (fun _ => ⟨total, delivered, full, down, startedAt, completion⟩) (fun v => ?_) fits
      ext <;> simp only [TransferSnapshot.accounted, TrafficCount.add_bytes, TrafficCount.add_chunks]
        <;> omega
    · simp only [inService, if_false]
      refine count_into s.waiting (fun v => { s with waiting := v })
        (fun _ => ⟨total, delivered, full, down, startedAt, completion⟩) (fun v => ?_) fits
      ext <;> simp only [TransferSnapshot.accounted, TrafficCount.add_bytes, TrafficCount.add_chunks]
        <;> omega
  | delivered | droppedBufferFull | droppedLinkDown =>
    refine ⟨s, rfl, ⟨total, delivered, full, down, startedAt, completion⟩, ?_⟩
    simp [share, found, state, ChunkTransitState.open, ChunkTransitState.terminal]

/-- The chunks of a list are counted one after the other. -/
theorem foldlM_countChunk (ids : List ChunkId)
    (known : ∀ chunk ∈ ids, ∃ record, t.chunks.find? chunk = some record ∧
      (record.state = .admitted →
        ∃ service, record.route[record.hopIndex]?.bind t.services.find? = some service))
    (copies : s.Copies transfer)
    (fits : (s.accounted + tally t.chunks ChunkTransitState.open ids).Fits) :
    ∃ s', ids.foldlM (Network.countChunk t) s = .ok s' ∧ s'.Copies transfer ∧
      s'.accounted = s.accounted + tally t.chunks ChunkTransitState.open ids := by
  induction ids generalizing s with
  | nil => exact ⟨s, rfl, copies, by simp⟩
  | cons chunk ids ih =>
    rw [tally_cons, ← add_assoc] at fits
    obtain ⟨record, found, served⟩ := known chunk (by simp)
    obtain ⟨s₁, counted, copies₁, accounted₁⟩ :=
      countChunk_eq found served copies fits.of_add_left
    rw [← accounted₁] at fits
    obtain ⟨s₂, rest, copies₂, accounted₂⟩ :=
      ih (fun other member => known other (by simp [member])) copies₁ fits
    refine ⟨s₂, ?_, copies₂, ?_⟩
    · rw [List.foldlM_cons, counted]
      exact rest
    · rw [accounted₂, accounted₁, tally_cons, add_assoc]

end Counting

/-! ## Conservation -/

/-- A chunk has been dropped. -/
def ChunkTransitState.dropped (state : ChunkTransitState) : Bool :=
  state = .droppedBufferFull ∨ state = .droppedLinkDown

/-- The books of one transfer are in order. -/
structure Conserved (t : TransportRuntime) (id : TransferId) (transfer : TransferRecord) : Prop where
  total : transfer.total = tally t.chunks (fun _ => true) transfer.chunks
  snapshot : ∃ s, Network.transferSnapshot t id = .ok (some s) ∧ s.Copies transfer ∧
    s.accounted.bytes = transfer.total.bytes ∧ s.accounted.chunks = transfer.total.chunks
  known : ∀ chunk ∈ transfer.chunks, ∃ record, t.chunks.find? chunk = some record
  completed : transfer.completion.isSome = true ↔ ∀ chunk ∈ transfer.chunks, ∀ record,
    t.chunks.find? chunk = some record → record.state.terminal = true
  succeeded : ∀ completion, transfer.completion = some completion →
    (completion.outcome = .succeeded ↔ ∀ chunk ∈ transfer.chunks, ∀ record,
      t.chunks.find? chunk = some record → record.state.dropped = false) ∧
    (completion.outcome = .failed ↔ ∃ chunk ∈ transfer.chunks, ∃ record,
      t.chunks.find? chunk = some record ∧ record.state.dropped = true)

section Conservation

variable {n : Network} {awaiting : Option Event} {taken : List TransferCompletion}
  {id : TransferId} {transfer : TransferRecord}

/-- The service that an admitted chunk is in is there to be asked. -/
theorem served_of_admitted (inv : Invariant awaiting taken n) {chunk : ChunkId}
    {record : ChunkRecord} (found : n.transport.chunks.find? chunk = some record)
    (state : record.state = .admitted) :
    ∃ service, record.route[record.hopIndex]?.bind n.transport.services.find? = some service := by
  have placed := inv.placement.placed chunk
  rw [found] at placed
  obtain ⟨link, copy, onRoute, _, _⟩ := placed.of_admitted state
  obtain ⟨service, isService⟩ :=
    (inv.routed chunk record found).configured link (List.mem_of_getElem? onRoute)
  exact ⟨service, by simp [onRoute, isService]⟩

theorem transferSnapshot_eq (inv : Invariant awaiting taken n)
    (found : n.transport.transfers.find? id = some transfer) :
    ∃ s, Network.transferSnapshot n.transport id = .ok (some s) ∧ s.Copies transfer ∧
      s.accounted = transfer.total := by
  have balanced := inv.accounts.balanced id transfer found
  have whole := balanced.total_eq
  have known : ∀ chunk ∈ transfer.chunks, ∃ record,
      n.transport.chunks.find? chunk = some record ∧ (record.state = .admitted →
        ∃ service, record.route[record.hopIndex]?.bind n.transport.services.find? =
          some service) := by
    intro chunk member
    obtain ⟨record, isRecord, _⟩ := (balanced.members chunk).mp member
    exact ⟨record, isRecord, served_of_admitted inv isRecord⟩
  -- the fold starts from the three ends, which the transfer has counted itself
  have start : ({ total := transfer.total
                  delivered := transfer.delivered
                  droppedBufferFull := transfer.droppedBufferFull
                  droppedLinkDown := transfer.droppedLinkDown
                  startedAt := transfer.startedAt
                  completion := transfer.completion } : TransferSnapshot).accounted =
      transfer.delivered + (transfer.droppedBufferFull + transfer.droppedLinkDown) := by
    show 0 + 0 + 0 + 0 + 0 + transfer.delivered + transfer.droppedBufferFull +
      transfer.droppedLinkDown = _
    simp [add_assoc]
  have fits := balanced.fits
  rw [whole, ← start] at fits
  obtain ⟨s, counted, copies, accounted⟩ :=
    foldlM_countChunk transfer.chunks known ⟨rfl, rfl, rfl, rfl, rfl, rfl⟩ fits
  refine ⟨s, ?_, copies, ?_⟩
  · unfold Network.transferSnapshot
    simp only [found, counted]
    rfl
  · rw [accounted, start, ← whole]

theorem Invariant.conserved (inv : Invariant awaiting taken n)
    (found : n.transport.transfers.find? id = some transfer) :
    Conserved n.transport id transfer := by
  have balanced := inv.accounts.balanced id transfer found
  have known : ∀ chunk ∈ transfer.chunks, ∃ record,
      n.transport.chunks.find? chunk = some record := by
    intro chunk member
    obtain ⟨record, isRecord, _⟩ := (balanced.members chunk).mp member
    exact ⟨record, isRecord⟩
  constructor
  · exact balanced.total
  · obtain ⟨s, isSnapshot, copies, accounted⟩ := transferSnapshot_eq inv found
    exact ⟨s, isSnapshot, copies, by rw [accounted], by rw [accounted]⟩
  · exact known
  · rw [balanced.completed]
    have nonempty := inv.accounts.nonempty id transfer found
    simp [nonempty]
  · intro completion done
    obtain ⟨_, _, _, _, outcome⟩ := balanced.completion completion done
    have ended := (balanced.completed.mp (by simp [done])).2
    -- a chunk that has ended is delivered or dropped
    have delivered_iff : (∀ chunk ∈ transfer.chunks,
          (n.transport.chunks.find? chunk).map ChunkRecord.state = some .delivered) ↔
        ∀ chunk ∈ transfer.chunks, ∀ record, n.transport.chunks.find? chunk = some record →
          record.state.dropped = false := by
      constructor
      · intro h chunk member record isRecord
        have delivered := h chunk member
        simp only [isRecord, Option.map_some, Option.some.injEq] at delivered
        simp [delivered, ChunkTransitState.dropped]
      · intro h chunk member
        obtain ⟨record, isRecord⟩ := known chunk member
        have terminal := ended chunk member record isRecord
        have kept := h chunk member record isRecord
        cases state : record.state <;>
          simp_all [ChunkTransitState.terminal, ChunkTransitState.dropped]
    rw [outcome]
    by_cases all : ∀ chunk ∈ transfer.chunks,
        (n.transport.chunks.find? chunk).map ChunkRecord.state = some .delivered
    · have none_dropped := delivered_iff.mp all
      rw [if_pos all]
      refine ⟨⟨fun _ => none_dropped, fun _ => rfl⟩, ⟨fun h => (by cases h), ?_⟩⟩
      intro h
      obtain ⟨chunk, member, record, isRecord, dropped⟩ := h
      simp [none_dropped chunk member record isRecord] at dropped
    · rw [if_neg all]
      have some_dropped := fun h => all (delivered_iff.mpr h)
      refine ⟨⟨fun h => (by cases h), fun h => absurd h some_dropped⟩, ⟨fun _ => ?_, fun _ => rfl⟩⟩
      by_contra none_dropped
      apply some_dropped
      intro chunk member record isRecord
      by_contra dropped
      exact none_dropped ⟨chunk, member, record, isRecord, by simpa using dropped⟩

end Conservation

/-- Along any run, chunks change as they may. -/
theorem grows_of_steps {d d' : Drive} (reachable : Reachable d)
    (steps : Relation.ReflTransGen Step d d') :
    Grows ChunkRecord.Becomes d.network.transport.chunks d'.network.transport.chunks := by
  obtain ⟨start, initial, before⟩ := reachable
  induction steps with
  | refl => exact .refl .refl _
  | tail between step ih =>
    have inv := Reachable.invariant ⟨start, initial, before.trans between⟩
    exact ih.trans (fun _ _ _ => .trans) (step.follows inv).chunks

/-! ## Transfers stay -/

section Transfers

variable {n : Network} {awaiting : Option Event} {taken : List TransferCompletion} {event : Event}

/-- Transfers change as they may. -/
abbrev TransfersGrow (n n' : Network) : Prop :=
  Grows TransferRecord.Becomes n.transport.transfers n'.transport.transfers

theorem TransfersGrow.of_eq {n' : Network} (same : n'.transport = n.transport) :
    TransfersGrow n n' := by
  unfold TransfersGrow
  rw [same]
  exact .refl .refl _

/-- What the kernel does by itself leaves the runtime alone. -/
theorem wp_kernel_transfers {α : Type} (m : Action Kernel α) :
    wp (zoom Network.kernelLens m) (fun _ n' => TransfersGrow n n') (fun _ n' => TransfersGrow n n')
      n := by
  rw [wp_zoom]
  exact wp_intro (fun _ _ _ => .of_eq rfl) (fun _ _ _ => .of_eq rfl)

theorem wp_call_transfers (inv : Invariant awaiting taken n) (call : Call) :
    wp call.run (fun _ n' => TransfersGrow n n')
      (fun e n' => e.origin = .telemetry ∨ TransfersGrow n n') n := by
  have survives : Network.Survives awaiting taken n
      (fun e n' => e.origin = .telemetry ∨ TransfersGrow n n') :=
    fun e n' h => h.imp_right fun called => called.advances.transfers
  have kernel : ∀ {α : Type} (m : Action Kernel α), wp (zoom Network.kernelLens m)
      (fun _ n' => TransfersGrow n n') (fun e n' => e.origin = .telemetry ∨ TransfersGrow n n') n :=
    fun m => wp_mono (wp_kernel_transfers m) (fun _ _ h => h) (fun _ _ h => .inr h)
  have unchanged : TransfersGrow n n := .of_eq rfl
  cases call with
  | registerChunk routed =>
    exact Network.wp_registerChunk inv (fun _ _ _ _ called => called.advances.transfers) survives
  | submitTransfer request =>
    simp only [Call.run, wp_bind, wp_pure]
    exact Network.wp_submitTransfer inv (fun _ _ called _ _ => called.advances.transfers) survives
  | scheduleInitialArrival chunk =>
    simp only [Call.run, wp_bind, wp_pure]
    exact Network.wp_scheduleInitialArrival inv (fun _ _ h => h.1.advances.transfers) survives
  | scheduleLinkStateChange link state timestamp =>
    simp only [Call.run, Network.scheduleLinkStateChange, wp_bind, wp_get, wp_throwIf, wp_pure]
    exact ⟨fun _ => .inr unchanged, fun _ => kernel _⟩
  | schedulePortStateChange port state timestamp =>
    simp only [Call.run, Network.schedulePortStateChange, wp_bind, wp_get, wp_throwIf, wp_pure]
    exact ⟨fun _ => .inr unchanged, fun _ => kernel _⟩
  | scheduleSwitchStateChange networkSwitch state timestamp =>
    simp only [Call.run, Network.scheduleSwitchStateChange, wp_bind, wp_get, wp_throwIf, wp_pure]
    exact ⟨fun _ => .inr unchanged, fun _ => kernel _⟩
  | schedule specification =>
    simp only [Call.run, wp_bind, wp_pure]
    exact kernel _
  | cancel id =>
    simp only [Call.run, wp_bind, wp_pure]
    exact kernel _
  | stop reason => exact kernel _

theorem wp_dispatch_transfers (inv : Invariant (some event) taken n) :
    wp (Network.dispatch event.payload) (fun _ n' => TransfersGrow n n')
      (fun e n' => Kernel.Excused e ∨ TransfersGrow n n') n := by
  have throws : n.Tolerates (fun e n' => Kernel.Excused e ∨ TransfersGrow n n') :=
    fun e n' excused _ => .inl excused
  have refused : ∀ unknown, n.Refuses unknown (fun e n' => Kernel.Excused e ∨ TransfersGrow n n') :=
    fun _ _ _ => .inr (.of_eq rfl)
  cases payload : event.payload with
  | chunkArrival arrival =>
    exact Network.wp_handleArrival inv payload (fun _ handled _ => handled.advances.transfers) throws
  | transmissionComplete completion =>
    exact Network.wp_handleCompletion inv payload (fun _ handled _ => handled.advances.transfers)
      throws
  | linkStateChange change =>
    exact Network.wp_handleLinkStateChange inv payload
      (fun _ handled _ _ => handled.advances.transfers) (refused _) throws
  | portStateChange change =>
    exact Network.wp_handlePortStateChange inv payload
      (fun _ handled _ => handled.advances.transfers) (refused _) throws
  | switchStateChange change =>
    exact Network.wp_handleSwitchStateChange inv payload
      (fun _ handled _ => handled.advances.transfers) (refused _) throws
  | noOp token => exact .of_eq rfl
  | workload event => exact .of_eq rfl
  | localCompletion event => exact .of_eq rfl

/-- No step loses a transfer, or changes what has been submitted. -/
theorem Step.transfers {d d' : Drive} (step : Step d d')
    (inv : Invariant d.awaiting d.taken d.network) : TransfersGrow d.network d'.network := by
  cases step with
  | returned call allowed ok =>
    have grows := wp_of_ok (wp_call_transfers inv call) ok
    exact grows
  | threw call allowed thrown notTelemetry =>
    have grows := wp_of_error (wp_call_transfers inv call) thrown
    exact grows.resolve_left notTelemetry
  | took ok =>
    cases ok
    exact .refl .refl _
  | observed probe => exact .of_eq rfl
  | handled isAwaited ok =>
    rw [isAwaited] at inv
    have grows := wp_of_ok (wp_dispatch_transfers inv) ok
    exact grows
  | failed isAwaited thrown notExcused =>
    rw [isAwaited] at inv
    have grows := wp_of_error (wp_dispatch_transfers inv) thrown
    exact grows.resolve_left notExcused
  | began ok | started _ _ ok | drained _ ok | ended _ ok | finished _ _ _ ok =>
    have grows := wp_of_ok (wp_kernel_transfers _) ok
    exact grows

/-- A submission stays a submission. -/
theorem Network.Submitted.step {d d' : Drive} {id : TransferId} {bytes : ByteCount}
    (submitted : Network.Submitted d.network id bytes) (step : Step d d')
    (inv : Invariant d.awaiting d.taken d.network) :
    Network.Submitted d'.network id bytes := by
  obtain ⟨transfer, found, isBytes, started, onTheWay⟩ := submitted.sealed
  obtain ⟨transfer', found', becomes⟩ := step.transfers inv id transfer found
  obtain ⟨startedAt, chunks, total⟩ := becomes.started started
  refine ⟨transfer', found', total ▸ isBytes, startedAt ▸ started, ?_⟩
  intro chunk member record' isRecord'
  rw [chunks] at member
  obtain ⟨record, isRecord, _⟩ :=
    ((inv.accounts.balanced id transfer found).members chunk).mp member
  obtain ⟨after, isAfter, changes⟩ := (step.follows inv).chunks chunk record isRecord
  rw [isRecord'] at isAfter
  cases isAfter
  exact changes.submitted (onTheWay chunk member record isRecord)

/-- Where no event is to come, every chunk that has set out has arrived somewhere for good. -/
theorem Invariant.ended_of_quiet (inv : Invariant awaiting taken n)
    (quiet : outstanding n.kernel.sim awaiting = ∅) {chunk : ChunkId} {record : ChunkRecord}
    (found : n.transport.chunks.find? chunk = some record) (moved : record.state ≠ .registered) :
    record.state.terminal = true := by
  have placed := inv.placement.placed chunk
  rw [found, quiet] at placed
  have nothing : ∀ about, concerning about (∅ : Set Event) = ∅ := by
    intro about
    ext event
    simp [concerning]
  by_contra going
  cases state : record.state with
  | registered => exact moved state
  | awaitingArrival =>
    obtain ⟨event, single, _⟩ := placed.of_awaiting state
    rw [show arrivals ∅ chunk = ∅ from nothing _] at single
    exact Set.notMem_empty event (single ▸ Set.mem_singleton event)
  | admitted =>
    -- a chunk in a queue has a link that serves it, or one ahead of it
    obtain ⟨link, copy, _, single, _⟩ := placed.of_admitted state
    have held : copy ∈ heldBy n.transport.services link := by
      have member : (link, copy) ∈ holders (heldBy n.transport.services) chunk := by
        rw [single]
        exact Set.mem_singleton _
      exact member.1
    have runs := inv.running link
    rw [quiet, show transmissions ∅ link = ∅ from nothing _] at runs
    unfold heldBy at held
    cases isService : n.transport.services.find? link with
    | none => simp [isService] at held
    | some service =>
      rw [isService] at runs held
      cases runs with
      | idle _ idle waiting =>
        simp [DirectedLinkQueue.held, idle, waiting] at held
      | busy event _ _ _ _ _ _ _ _ single =>
        exact Set.notMem_empty event (single ▸ Set.mem_singleton event)
  | delivered | droppedBufferFull | droppedLinkDown =>
    simp [state, ChunkTransitState.terminal] at going

end Transfers

/-- In every reachable state every transfer is accounted for, every chunk that has ended stays as it
ended, no completion is handed out twice, and the accounting of an end has never thrown, not even
in a handler that failed. -/
theorem transfer_conservation (d : Drive) (reachable : Reachable d) :
    (∀ id transfer, d.network.transport.transfers.find? id = some transfer →
      Conserved d.network.transport id transfer) ∧
    (∀ d', Relation.ReflTransGen Step d d' → ∀ chunk record,
      d.network.transport.chunks.find? chunk = some record → record.state.terminal = true →
      ∃ record', d'.network.transport.chunks.find? chunk = some record' ∧
        record'.state = record.state) ∧
    (d.taken.map TransferCompletion.transfer).Nodup ∧
    d.network.transport.terminalFault = none ∧
    ∀ event e n, d.awaiting = some event →
      Network.dispatch event.payload d.network = .error e n → n.transport.terminalFault = none := by
  have inv := reachable.invariant
  refine ⟨fun id transfer found => inv.conserved found, ?_, ?_, inv.faultless, ?_⟩
  · intro d' steps chunk record found terminal
    obtain ⟨record', found', becomes⟩ := grows_of_steps reachable steps chunk record found
    exact ⟨record', found', becomes.absorbing terminal⟩
  · have once := inv.accounts.once
    rw [List.map_append] at once
    exact (List.nodup_append.mp once).1
  · intro event e n isAwaited thrown
    rw [isAwaited] at inv
    exact (wp_of_error (wp_dispatch inv) thrown).1

theorem joinedCall_runs : (match joinedCall.run joinedDrive.network with
    | .ok _ n => (n.transport.transfers.find? ⟨0⟩).map TransferRecord.total == some ⟨100, 2⟩
    | .error _ _ => false) = true := by decide +kernel

theorem transfer_conservation_two_chunks :
    ∃ d, Reachable d ∧ ∃ transfer, d.network.transport.transfers.find? ⟨0⟩ = some transfer ∧
      transfer.total = ⟨100, 2⟩ ∧ Conserved d.network.transport ⟨0⟩ transfer := by
  have runs := joinedCall_runs
  split at runs
  · rename_i n ok
    have reach : Reachable { joinedDrive with network := n } :=
      ⟨joinedDrive, joinedDrive_initial, .single (.returned joinedCall trivial ok)⟩
    simp only [beq_iff_eq, Option.map_eq_some_iff] at runs
    obtain ⟨transfer, found, total⟩ := runs
    exact ⟨_, reach, transfer, found, total, (transfer_conservation _ reach).1 _ _ found⟩
  · cases runs

end NexusLab.Transport
