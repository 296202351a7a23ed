import NexusLab.Transport.Failures

/-! # Submissions keep the joint invariant

Registering chunks and scheduling their first arrival may be refused for many reasons.  Unlike a
handler, a refused call changes nothing that matters: the invariant holds whether it returns or
throws, unless telemetry threw after the event was scheduled.  A transfer that was submitted as a
whole is `Submitted`, which is what its owner may rely on from then on. -/

namespace NexusLab.Transport

open Foundation Sim NexusLab.Topology

/-! ## Routes -/

theorem requireRouteArc_ok {n : Network} {link : DirectedLinkId} {arc : DirectedLink}
    (ok : requireRouteArc n link = .ok arc) :
    ∃ service, n.transport.services.find? link = some service := by
  unfold requireRouteArc at ok
  cases isArc : requireFabricArc n.graph link with
  | error e =>
    rw [isArc] at ok
    cases ok
  | ok found =>
    rw [isArc] at ok
    simp only [bind, Except.bind] at ok
    split at ok
    · rename_i configured
      exact OrderedMap.contains_iff.mp configured
    · cases ok

theorem followRoute_ok {n : Network} {route : List DirectedLinkId} {previous last : DirectedLink}
    (ok : followRoute n previous route = .ok last) :
    ∀ link ∈ route, ∃ service, n.transport.services.find? link = some service := by
  induction route generalizing previous with
  | nil => simp
  | cons link route ih =>
    unfold followRoute at ok
    cases isArc : requireRouteArc n link with
    | error e =>
      rw [isArc] at ok
      cases ok
    | ok arc =>
      rw [isArc] at ok
      simp only [bind, Except.bind] at ok
      split at ok
      · intro other member
        cases member with
        | head => exact requireRouteArc_ok isArc
        | tail _ member => exact ih ok other member
      · cases ok

/-- A route that passes validation is short enough and fully configured. -/
theorem validateRoute_ok {n : Network} {route : List DirectedLinkId}
    {source destination : Option NodeId} (ok : validateRoute n route source destination = .ok ()) :
    route.length ≤ maxU32 ∧
      ∀ link ∈ route, ∃ service, n.transport.services.find? link = some service := by
  unfold validateRoute at ok
  cases capacity : validateCapacity n.transport 0 route.length with
  | error e =>
    rw [capacity] at ok
    cases ok
  | ok _ =>
    rw [capacity] at ok
    simp only [bind, Except.bind] at ok
    cases route with
    | nil => cases ok
    | cons first rest =>
      simp only at ok
      split at ok
      · cases ok
      · rename_i short
        cases isArc : requireRouteArc n first with
        | error e => simp [isArc] at ok
        | ok arc =>
          simp only [isArc] at ok
          cases follows : followRoute n arc rest with
          | error e => simp [follows] at ok
          | ok last =>
            refine ⟨not_lt.mp short, ?_⟩
            intro link member
            cases member with
            | head => exact requireRouteArc_ok isArc
            | tail _ member => exact followRoute_ok follows link member

namespace Network

variable {n : Network} {awaiting : Option Event} {taken : List TransferCompletion} {chunk : ChunkId}

/-! ## What a call leaves alone -/

/-- The retained state is within its limits. -/
structure WithinLimits (t : TransportRuntime) : Prop where
  chunks : t.chunks.size ≤ t.limits.maximumChunks
  routeEntries : t.routeEntries ≤ t.limits.maximumRouteEntries
  word : t.routeEntries < 2 ^ 64

/-- Calls from outside do not touch the links, the graph and the chunks that have set out.  The
only events of the runtime they add are first arrivals of chunks that had not set out. -/
structure Quiet (n n' : Network) : Prop where
  graph : n'.graph = n.graph
  services : n'.transport.services = n.transport.services
  chunks : ∀ chunk record, n.transport.chunks.find? chunk = some record →
    record.state ≠ .registered → n'.transport.chunks.find? chunk = some record
  now : n'.kernel.sim.now = n.kernel.sim.now
  live : ∀ event, ownPayload event.payload = true → n.kernel.sim.Live event →
    n'.kernel.sim.Live event
  arrivals : ∀ event, ownPayload event.payload = true → n'.kernel.sim.Live event →
    n.kernel.sim.Live event ∨ (¬ n.kernel.sim.eventIds.Issued event.id.value ∧ ∃ chunk,
      event.payload = .chunkArrival ⟨chunk, 0⟩ ∧ event.timestamp = n.kernel.sim.now ∧
      event.priority = .normal ∧
      ∀ record, n.transport.chunks.find? chunk = some record → record.state = .registered)
  issued : ∀ id, n.kernel.sim.eventIds.Issued id → n'.kernel.sim.eventIds.Issued id
  limits : WithinLimits n.transport → WithinLimits n'.transport

/-- Somebody else has used the kernel. -/
theorem Quiet.of_kernel {kernel : Kernel} (now : kernel.sim.now = n.kernel.sim.now)
    (live : ∀ event, ownPayload event.payload = true →
      (kernel.sim.Live event ↔ n.kernel.sim.Live event))
    (issued : ∀ id, n.kernel.sim.eventIds.Issued id → kernel.sim.eventIds.Issued id) :
    Quiet n { n with kernel } where
  graph := rfl
  services := rfl
  chunks _ _ found _ := found
  now := now
  live event own isLive := (live event own).mpr isLive
  arrivals event own isLive := .inl ((live event own).mp isLive)
  issued := issued
  limits within := within

theorem Quiet.refl (n : Network) : Quiet n n := .of_kernel rfl (fun _ _ => Iff.rfl) (fun _ h => h)

theorem Quiet.trans {n₁ n₂ : Network} (first : Quiet n n₁) (second : Quiet n₁ n₂) :
    Quiet n n₂ where
  graph := second.graph.trans first.graph
  services := second.services.trans first.services
  chunks chunk record found moved := second.chunks chunk record
    (first.chunks chunk record found moved) moved
  now := second.now.trans first.now
  live event own live := second.live event own (first.live event own live)
  arrivals event own live := by
    cases second.arrivals event own live with
    | inl live => exact first.arrivals event own live
    | inr added =>
      obtain ⟨fresh, chunk, payload, timestamp, priority, unsent⟩ := added
      refine .inr ⟨fun issued => fresh (first.issued _ issued), chunk, payload,
        timestamp.trans first.now, priority, ?_⟩
      intro record found
      by_contra moved
      exact moved (unsent record (first.chunks chunk record found moved))
  issued id issued := second.issued id (first.issued id issued)
  limits within := second.limits (first.limits within)

/-- The invariant holds after the call, nothing was undone, and what calls leave alone is as it
was. -/
structure Called (awaiting : Option Event) (taken : List TransferCompletion) (n n' : Network) :
    Prop extends Kept awaiting taken n n' where
  quiet : Quiet n n'

theorem Called.refl (inv : Invariant awaiting taken n) : Called awaiting taken n n :=
  ⟨⟨inv, .refl n⟩, .refl n⟩

theorem Called.trans {a b c : Network} (ab : Called awaiting taken a b)
    (bc : Called awaiting taken b c) : Called awaiting taken a c :=
  ⟨ab.toKept.trans bc.toKept, ab.quiet.trans bc.quiet⟩

/-- The call may throw, but the invariant survives unless telemetry threw. -/
def Survives (awaiting : Option Event) (taken : List TransferCompletion) (n : Network)
    (E : Error → Network → Prop) : Prop :=
  ∀ e n', e.origin = .telemetry ∨ Called awaiting taken n n' → E e n'

theorem Survives.refuse {E : Error → Network → Prop} (throws : Survives awaiting taken n E)
    (inv : Invariant awaiting taken n) (e : Error) : E e n :=
  throws e n (.inr (.refl inv))

theorem Survives.step {E : Error → Network → Prop} (throws : Survives awaiting taken n E)
    {n₁ : Network} (kept : Called awaiting taken n n₁) : Survives awaiting taken n₁ E := by
  intro e n' h
  cases h with
  | inl origin => exact throws e n' (.inl origin)
  | inr kept' => exact throws e n' (.inr (kept.trans kept'))

/-- A chunk that fits is registered within the limits. -/
theorem within_registered {t : TransportRuntime} {routed : RoutedChunk} {total : TrafficCount}
    (fresh : t.chunks.find? routed.chunk.id = none)
    (capacity : validateCapacity t 1 routed.route.length = .ok ()) (within : WithinLimits t) :
    WithinLimits (registered t routed total) := by
  obtain ⟨chunks, routeEntries, word⟩ := within
  unfold validateCapacity at capacity
  split at capacity
  · cases capacity
  · rename_i fits
    simp only [not_or, not_and, not_lt] at fits
    obtain ⟨_, room, entries⟩ := fits
    constructor
    · simp only [registered, OrderedMap.size_insert_of_fresh fresh]
      unfold U64.sub at room
      omega
    · have added : U64.add t.routeEntries routed.route.length ≤
          t.routeEntries + routed.route.length := Nat.mod_le _ _
      show U64.add t.routeEntries routed.route.length ≤ t.limits.maximumRouteEntries
      refine added.trans ?_
      by_cases none_added : routed.route.length = 0
      · omega
      · have fits : routed.route.length ≤ U64.sub t.limits.maximumRouteEntries t.routeEntries :=
          (Nat.div_pos_iff.mp (entries none_added)).2
        unfold U64.sub at fits
        omega
    · exact Nat.mod_lt _ (by decide)

/-- What registering a chunk leaves. -/
theorem kept_registered (inv : Invariant awaiting taken n) {routed : RoutedChunk}
    (bytes : routed.chunk.bytes ≠ 0) (length : routed.route.length ≤ maxU32)
    (configured : ∀ link ∈ routed.route, ∃ service,
      n.transport.services.find? link = some service)
    (fresh : n.transport.chunks.find? routed.chunk.id = none)
    (unstarted : (n.transport.transfers.find? routed.chunk.transfer).bind
      TransferRecord.startedAt = none) {total : TrafficCount}
    (sum : addTraffic (((n.transport.transfers.find? routed.chunk.transfer).map
      TransferRecord.total).getD {}) ⟨routed.chunk.bytes, 1⟩ = .ok total)
    (capacity : validateCapacity n.transport 1 routed.route.length = .ok ()) :
    Called awaiting taken n { n with transport := registered n.transport routed total } := by
  have existing_total : ((n.transport.transfers.find? routed.chunk.transfer).getD {}).total =
      ((n.transport.transfers.find? routed.chunk.transfer).map TransferRecord.total).getD {} := by
    cases n.transport.transfers.find? routed.chunk.transfer <;> rfl
  -- the total so far fits in words, and with the chunk it still does
  have fits : ((n.transport.transfers.find? routed.chunk.transfer).map
      TransferRecord.total).getD {} |>.Fits := by
    cases isTransfer : n.transport.transfers.find? routed.chunk.transfer with
    | none => exact ⟨Nat.zero_le _, Nat.zero_le _⟩
    | some transfer => exact (inv.accounts.balanced _ _ isTransfer).fits
  obtain ⟨isTotal, total_fits⟩ := addTraffic_fits sum fits
  refine ⟨⟨?_, ?_⟩, ?_⟩
  · constructor
    · exact inv.valid
    · exact inv.current
    · exact inv.placement.register fresh rfl rfl rfl
    · exact inv.running
    · refine routed_insert inv.routed (.refl _) ?_
      exact ⟨rfl, bytes, Nat.zero_le _, length, configured⟩
    · exact inv.arcs
    · exact inv.accounts.register fresh unstarted rfl
        (by rw [isTotal, ← existing_total]; rfl) total_fits
    · intro other record found
      -- the identifiers of the chunk are issued from now on
      have advanced : ∀ (g : IdGenerator) id value, g.Issued value → (g.advancePast id).Issued value :=
        fun _ _ _ => IdGenerator.issued_advancePast
      by_cases same : other = routed.chunk.id
      · subst same
        simp only [registered, OrderedMap.find?_insert_self, Option.some.injEq] at found
        subst found
        exact ⟨IdGenerator.issued_advancePast_self, IdGenerator.issued_advancePast_self⟩
      · simp only [registered, OrderedMap.find?_insert_of_ne _ _ same] at found
        obtain ⟨transfer, chunk⟩ := inv.issued other record found
        exact ⟨advanced _ _ _ transfer, advanced _ _ _ chunk⟩
    · exact inv.faultless
  · refine ⟨.refl _, ?_, ?_, .refl _, [], by simp [registered]⟩
    · apply Grows.insert ChunkRecord.Becomes.refl
      intro record found
      rw [fresh] at found
      cases found
    · apply Grows.insert TransferRecord.Becomes.refl
      intro transfer found
      have none_started : transfer.startedAt = none := by simpa [found] using unstarted
      refine ⟨fun started => absurd none_started started, ?_⟩
      intro completion done
      simp [found, done]
  · refine ⟨rfl, rfl, ?_, rfl, fun _ _ live => live, fun _ _ live => .inl live,
      fun _ issued => issued, within_registered fresh capacity⟩
    intro chunk record found _
    have differs : chunk ≠ routed.chunk.id := by
      intro same
      rw [same, fresh] at found
      cases found
    exact (OrderedMap.find?_insert_of_ne _ _ differs).trans found

theorem wp_registerChunk {routed : RoutedChunk} {Q : Unit → Network → Prop}
    {E : Error → Network → Prop} (inv : Invariant awaiting taken n)
    (returns : ∀ total,
      n.transport.chunks.find? routed.chunk.id = none →
      (n.transport.transfers.find? routed.chunk.transfer).bind TransferRecord.startedAt = none →
      total = ((n.transport.transfers.find? routed.chunk.transfer).getD {}).total +
        ⟨routed.chunk.bytes, 1⟩ →
      Called awaiting taken n { n with transport := registered n.transport routed total } →
      Q () { n with transport := registered n.transport routed total })
    (throws : Survives awaiting taken n E) : wp (registerChunk routed) Q E n := by
  simp only [registerChunk, wp_bind, wp_throwIf, wp_get, wp_fromExcept, modifyTransport, wp_modify]
  refine ⟨fun _ => throws.refuse inv _, fun bytes => ⟨fun _ => throws.refuse inv _, fun _ => ?_⟩⟩
  refine ⟨fun _ route => ⟨fun _ capacity => ⟨fun _ timing => ?_, fun e _ => throws.refuse inv e⟩,
    fun e _ => throws.refuse inv e⟩, fun e _ => throws.refuse inv e⟩
  refine ⟨fun _ => throws.refuse inv _, fun duplicate => ⟨fun _ => throws.refuse inv _,
    fun isStarted => ⟨fun total sum => ?_, fun e _ => throws.refuse inv e⟩⟩⟩
  obtain ⟨length, configured⟩ := validateRoute_ok route
  have fresh : n.transport.chunks.find? routed.chunk.id = none := by
    simpa [OrderedMap.contains] using duplicate
  have unstarted : (n.transport.transfers.find? routed.chunk.transfer).bind
      TransferRecord.startedAt = none := by simpa using isStarted
  apply returns total fresh unstarted
  · rw [addTraffic_ok sum]
    cases n.transport.transfers.find? routed.chunk.transfer <;> rfl
  · exact kept_registered inv bytes length configured fresh unstarted sum capacity

/-! ## First arrivals -/

/-- A transfer that its owner has submitted as a whole: sealed, and every chunk on its way. -/
structure Submitted (n : Network) (id : TransferId) (bytes : ByteCount) : Prop where
  sealed : ∃ transfer, n.transport.transfers.find? id = some transfer ∧
    transfer.total.bytes = bytes ∧ transfer.startedAt ≠ none ∧
    ∀ chunk ∈ transfer.chunks, ∀ record, n.transport.chunks.find? chunk = some record →
      record.state ≠ .registered

/-- Nothing the runtime does undoes a submission. -/
theorem Submitted.advance {id : TransferId} {bytes : ByteCount} {n' : Network}
    (submitted : Submitted n id bytes) (inv : Invariant awaiting taken n)
    (advances : Advances n n') : Submitted n' id bytes := by
  obtain ⟨transfer, found, isBytes, started, onTheWay⟩ := submitted.sealed
  obtain ⟨transfer', found', becomes⟩ := advances.transfers id transfer found
  obtain ⟨startedAt, chunks, total⟩ := becomes.started started
  refine ⟨transfer', found', total ▸ isBytes, startedAt ▸ started, ?_⟩
  intro chunk member record' isRecord'
  rw [chunks] at member
  obtain ⟨record, isRecord, _⟩ :=
    ((inv.accounts.balanced id transfer found).members chunk).mp member
  obtain ⟨after, isAfter, changes⟩ := advances.chunks chunk record isRecord
  rw [isRecord'] at isAfter
  cases isAfter
  exact changes.submitted (onTheWay chunk member record isRecord)

/-- The first arrival of a chunk is scheduled, and its transfer has started. -/
structure Launched (chunk : ChunkId) (n n' : Network) : Prop where
  transfer : ∃ record transfer startedAt, n.transport.chunks.find? chunk = some record ∧
    n.transport.transfers.find? record.chunk.transfer = some transfer ∧ startedAt ≠ none ∧
    (transfer.startedAt ≠ none → startedAt = transfer.startedAt) ∧
    n'.transport.transfers.find? record.chunk.transfer = some { transfer with startedAt }
  onTheWay : ∀ record, n'.transport.chunks.find? chunk = some record → record.state ≠ .registered

theorem kept_launched (inv : Invariant awaiting taken n) {record : ChunkRecord}
    (found : n.transport.chunks.find? chunk = some record) (state : record.state = .registered)
    (remaining : n.kernel.sim.eventIds.exhausted = false) {transfer : TransferRecord}
    (isTransfer : n.transport.transfers.find? record.chunk.transfer = some transfer)
    {startedAt : Option SimTimeNs} (started : startedAt ≠ none)
    (kept : transfer.startedAt ≠ none → startedAt = transfer.startedAt)
    {specification : EventSpec}
    (isSpecification : specification = ⟨n.kernel.sim.now, .normal, .chunkArrival ⟨chunk, 0⟩⟩)
    {n' : Network} (sim : n'.kernel.sim = n.kernel.sim.scheduled specification)
    (graph : n'.graph = n.graph)
    (transport : n'.transport = { n.transport with
      chunks := n.transport.chunks.insert chunk { record with
        state := .awaitingArrival
        scheduledArrival := some (n.kernel.sim.eventFor specification).id }
      transfers := n.transport.transfers.insert record.chunk.transfer
        { transfer with startedAt } }) :
    Called awaiting taken n n' ∧ Launched chunk n n' := by
  have placed := inv.placement.placed chunk
  rw [found] at placed
  obtain ⟨hop, _, none_arrives, none_holds⟩ := placed.of_registered state
  have arrival : (n.kernel.sim.eventFor specification).payload =
      .chunkArrival ⟨chunk, record.hopIndex⟩ := by
    rw [isSpecification, hop]
    rfl
  have still_open : record.state.terminal = false := by simp [state, ChunkTransitState.terminal]
  have events : outstanding n'.kernel.sim awaiting =
      insert (n.kernel.sim.eventFor specification) (outstanding n.kernel.sim awaiting) := by
    rw [sim]
    exact outstanding_scheduled inv.valid remaining specification
  have becomes : ∀ id, record.Becomes { record with
      state := .awaitingArrival, scheduledArrival := id } := by
    intro id
    refine ⟨rfl, rfl, rfl, ?_, by simp⟩
    intro terminal
    simp [still_open] at terminal
  -- the invariant, what has grown, the frame of the call, and what the launch did
  refine ⟨⟨⟨?_, ?_⟩, ?_⟩, ?_⟩
  · constructor
    · rw [sim]
      apply inv.valid.scheduled remaining
      rw [isSpecification]
    · rw [sim]
      exact inv.current
    · rw [events, transport]
      -- the chunk was nowhere, and is in flight now
      exact inv.placement.depart none_arrives none_holds arrival rfl rfl
    · rw [events, transport, sim]
      exact inv.running.insert_event fun _ => not_both ⟨_, arrival⟩
    · rw [transport]
      refine routed_insert inv.routed (.refl _) ?_
      have routed := inv.routed chunk record found
      exact routed.becomes (becomes _) routed.id routed.hop
    · rw [transport, graph]
      exact inv.arcs
    · rw [transport]
      exact inv.accounts.move found isTransfer (by rfl) (by rfl) still_open (by rfl) started
    · rw [transport]
      exact inv.issued.insert found rfl
    · rw [transport]
      exact inv.faultless
  · constructor
    · rw [sim]
      apply SimAdvances.scheduled inv.valid remaining
      rw [isSpecification]
      rfl
    · rw [transport]
      apply Grows.insert ChunkRecord.Becomes.refl
      intro other isOther
      rw [found] at isOther
      cases isOther
      exact becomes _
    · rw [transport]
      apply Grows.insert TransferRecord.Becomes.refl
      intro other isOther
      rw [isTransfer] at isOther
      cases isOther
      exact ⟨fun started => ⟨kept started, rfl, rfl⟩, fun _ done => done⟩
    · rw [transport]
      exact .refl _
    · exact ⟨[], by simp [transport]⟩
  · constructor
    · exact graph
    · rw [transport]
    · intro other isOther found' moved
      have differs : other ≠ chunk := by
        intro same
        rw [same, found] at found'
        cases found'
        exact moved state
      rw [transport]
      exact (OrderedMap.find?_insert_of_ne _ _ differs).trans found'
    · rw [sim]
      rfl
    · intro event _ live
      rw [sim]
      exact (inv.valid.live_scheduled remaining).mpr (.inr live)
    · intro event _ live
      -- the one event that is new is the arrival at the first hop
      rw [sim] at live
      cases (inv.valid.live_scheduled remaining).mp live with
      | inr live => exact .inl live
      | inl added =>
        subst added
        rw [isSpecification]
        refine .inr ⟨Simulation.not_issued_next remaining, chunk, rfl, rfl, rfl, ?_⟩
        intro other isOther
        rw [found] at isOther
        cases isOther
        exact state
    · intro id issued
      rw [sim]
      exact Simulation.issued_advanced issued
    · intro within
      rw [transport]
      exact ⟨(OrderedMap.size_insert_of_found found).symm ▸ within.chunks, within.routeEntries,
        within.word⟩
  · constructor
    · refine ⟨record, transfer, startedAt, found, isTransfer, started, kept, ?_⟩
      rw [transport]
      simp
    · rw [transport]
      intro other isOther
      simp only [OrderedMap.find?_insert_self, Option.some.injEq] at isOther
      subst isOther
      simp

theorem wp_scheduleInitialArrival {Q : EventId → Network → Prop} {E : Error → Network → Prop}
    (inv : Invariant awaiting taken n)
    (returns : ∀ id n', Called awaiting taken n n' ∧ Launched chunk n n' → Q id n')
    (throws : Survives awaiting taken n E) : wp (scheduleInitialArrival chunk) Q E n := by
  simp only [scheduleInitialArrival, wp_bind, requireChunk, wp_get, wp_getOrThrow, wp_throwIf,
    wp_fromExcept]
  refine ⟨fun record found => ?_, fun _ => throws.refuse inv _⟩
  refine ⟨fun _ => throws.refuse inv _, fun registered => ⟨fun _ _ => ?_, fun e _ =>
    throws.refuse inv e⟩⟩
  have state : record.state = .registered := by simpa using registered
  obtain ⟨transfer, isTransfer, _, _⟩ := inv.accounts.transfer_of found
  rw [wp_zoom]
  apply Kernel.wp_schedule_full inv.valid
  · intro _
    exact throws.refuse inv _
  · intro _ past
    exact absurd past (lt_irrefl _)
  · intro _ _ _
    exact throws.refuse inv _
  · intro _ _ remaining probe _
    simp only [wp_storeChunk, wp_pure, startTransfer, wp_bind, wp_get, wp_getOrThrow]
    refine ⟨?_, fun absent => ?_⟩
    · intro same isSame
      have same_transfer : transfer = same := by
        have isSame : n.transport.transfers.find? record.chunk.transfer = some same := isSame
        rw [isTransfer] at isSame
        exact Option.some.inj isSame
      subst same_transfer
      rw [wp_runIf]
      constructor
      · intro unstarted
        simp only [wp_bind, modifyTransport, wp_modify]
        refine wp_observe_telemetry (fun probe' => ?_) (fun e _ origin => throws e _ (.inl origin))
        exact returns _ _ (kept_launched inv found state remaining isTransfer (by simp)
          (fun started => absurd unstarted started) rfl rfl rfl rfl)
      · intro started
        refine returns _ _ (kept_launched inv found state remaining isTransfer started
          (fun _ => rfl) rfl rfl rfl ?_)
        rw [OrderedMap.insert_of_find? isTransfer]
        rfl
    · have absent : n.transport.transfers.find? record.chunk.transfer = none := absent
      rw [isTransfer] at absent
      cases absent
  · intro e k origin _
    exact throws e _ (.inl origin)

/-! ## Whole transfers -/

/-- A transfer that was never issued has no record. -/
theorem unissued_transfer (inv : Invariant awaiting taken n) {id : TransferId}
    (fresh : ¬ n.transport.transferIds.Issued id.value) :
    n.transport.transfers.find? id = none := by
  cases found : n.transport.transfers.find? id with
  | none => rfl
  | some transfer =>
    have balanced := inv.accounts.balanced id transfer found
    obtain ⟨chunk, member⟩ := List.exists_mem_of_ne_nil _ (inv.accounts.nonempty id transfer found)
    obtain ⟨record, isRecord, owner⟩ := (balanced.members chunk).mp member
    exact absurd (owner ▸ (inv.issued chunk record isRecord).1) fresh

theorem wp_nextTransferId {Q : TransferId → Network → Prop} {E : Error → Network → Prop}
    (inv : Invariant awaiting taken n)
    (returns : ∀ id n', Called awaiting taken n n' → n.transport.transfers.find? id = none →
      n'.transport.transfers = n.transport.transfers → Q id n')
    (throws : Survives awaiting taken n E) : wp nextTransferId Q E n := by
  simp only [nextTransferId, wp_bind, wp_get, wp_fromExcept, modifyTransport, wp_modify, wp_pure]
  refine ⟨fun drawn isDrawn => ?_, fun e _ => throws.refuse inv e⟩
  obtain ⟨_, fresh, _, earlier⟩ := IdGenerator.next_eq_ok isDrawn
  refine returns ⟨drawn.1⟩ _ ⟨⟨?_, ?_⟩, ?_⟩ (unissued_transfer inv fresh) rfl
  · refine ⟨inv.valid, inv.current, inv.placement, inv.running, inv.routed, inv.arcs, inv.accounts,
      ?_, inv.faultless⟩
    intro chunk record found
    obtain ⟨transfer, chunk⟩ := inv.issued chunk record found
    exact ⟨earlier _ transfer, chunk⟩
  · exact ⟨.refl _, .refl .refl _, .refl .refl _, .refl _, [], by simp⟩
  · exact ⟨rfl, rfl, fun _ _ found _ => found, rfl, fun _ _ live => live,
      fun _ _ live => .inl live, fun _ issued => issued,
      fun within => ⟨within.chunks, within.routeEntries, within.word⟩⟩

theorem wp_nextChunkId {Q : ChunkId → Network → Prop} {E : Error → Network → Prop}
    (inv : Invariant awaiting taken n)
    (returns : ∀ id n', Called awaiting taken n n' →
      n'.transport.transfers = n.transport.transfers → Q id n')
    (throws : Survives awaiting taken n E) : wp nextChunkId Q E n := by
  simp only [nextChunkId, wp_bind, wp_get, wp_fromExcept, modifyTransport, wp_modify, wp_pure]
  refine ⟨fun drawn isDrawn => ?_, fun e _ => throws.refuse inv e⟩
  obtain ⟨_, _, _, earlier⟩ := IdGenerator.next_eq_ok isDrawn
  refine returns ⟨drawn.1⟩ _ ⟨⟨?_, ?_⟩, ?_⟩ rfl
  · refine ⟨inv.valid, inv.current, inv.placement, inv.running, inv.routed, inv.arcs, inv.accounts,
      ?_, inv.faultless⟩
    intro chunk record found
    obtain ⟨transfer, chunk⟩ := inv.issued chunk record found
    exact ⟨transfer, earlier _ chunk⟩
  · exact ⟨.refl _, .refl .refl _, .refl .refl _, .refl _, [], by simp⟩
  · exact ⟨rfl, rfl, fun _ _ found _ => found, rfl, fun _ _ live => live,
      fun _ _ live => .inl live, fun _ issued => issued,
      fun within => ⟨within.chunks, within.routeEntries, within.word⟩⟩

/-- Some chunks of a new transfer are registered, and none has set out. -/
structure Registering (id : TransferId) (done : List SubmittedChunk) (n : Network) : Prop where
  chunks : ((n.transport.transfers.find? id).getD {}).chunks = done.map SubmittedChunk.id
  bytes : ((n.transport.transfers.find? id).getD {}).total.bytes =
    (done.map SubmittedChunk.bytes).sum
  known : done ≠ [] → ∃ transfer, n.transport.transfers.find? id = some transfer

theorem wp_registerChunks {id : TransferId} {route : List DirectedLinkId}
    {Q : List SubmittedChunk → Network → Prop} {E : Error → Network → Prop}
    (sizes : List ByteCount) (done : List SubmittedChunk) (inv : Invariant awaiting taken n)
    (registering : Registering id done n)
    (returns : ∀ chunks n', Called awaiting taken n n' → Registering id (done ++ chunks) n' →
      chunks.map SubmittedChunk.bytes = sizes → Q chunks n')
    (throws : Survives awaiting taken n E) : wp (registerChunks id route sizes) Q E n := by
  induction sizes generalizing n done Q with
  | nil => exact returns [] n (.refl inv) (by simpa using registering) rfl
  | cons bytes sizes ih =>
    simp only [registerChunks, wp_bind, wp_pure]
    refine wp_nextChunkId inv (fun chunk n₁ kept₁ transfers₁ => ?_) throws
    refine wp_registerChunk kept₁.inv (fun total _ _ isTotal kept₂ => ?_) (throws.step kept₁)
    have found : (registered n₁.transport ⟨⟨id, chunk, bytes, 0, false⟩, route⟩ total).transfers.find?
        id = some { (n.transport.transfers.find? id).getD {} with
          chunks := ((n.transport.transfers.find? id).getD {}).chunks ++ [chunk], total } := by
      simp [registered, transfers₁]
    have next : Registering id (done ++ [⟨chunk, bytes⟩]) { n₁ with
        transport := registered n₁.transport ⟨⟨id, chunk, bytes, 0, false⟩, route⟩ total } := by
      constructor
      · simp only [found, Option.getD_some, registering.chunks]
        simp
      · simp only [found, Option.getD_some]
        rw [isTotal, transfers₁, TrafficCount.add_bytes, registering.bytes]
        simp
      · intro _
        exact ⟨_, found⟩
    refine ih (done ++ [⟨chunk, bytes⟩]) kept₂.inv next (fun chunks n₃ kept₃ last sameSizes => ?_)
      ((throws.step kept₁).step kept₂)
    apply returns _ n₃ ((kept₁.trans kept₂).trans kept₃)
    · simpa using last
    · simp [sameSizes]

/-- The first chunks of a transfer have set out, the rest has not. -/
structure Launching (id : TransferId) (bytes : ByteCount) (sent rest : List SubmittedChunk)
    (n : Network) : Prop where
  transfer : ∃ transfer, n.transport.transfers.find? id = some transfer ∧
    transfer.chunks = (sent ++ rest).map SubmittedChunk.id ∧ transfer.total.bytes = bytes ∧
    (sent ≠ [] → transfer.startedAt ≠ none)
  onTheWay : ∀ chunk ∈ sent.map SubmittedChunk.id, ∀ record,
    n.transport.chunks.find? chunk = some record → record.state ≠ .registered

theorem wp_launch {id : TransferId} {bytes : ByteCount} {Q : Unit → Network → Prop}
    {E : Error → Network → Prop} (rest sent : List SubmittedChunk) (inv : Invariant awaiting taken n)
    (launching : Launching id bytes sent rest n)
    (returns : ∀ n', Called awaiting taken n n' → Launching id bytes (sent ++ rest) [] n' → Q () n')
    (throws : Survives awaiting taken n E) :
    wp (rest.forM fun chunk => do let _ ← scheduleInitialArrival chunk.id) Q E n := by
  induction rest generalizing n sent Q with
  | nil => exact returns n (.refl inv) (by simpa using launching)
  | cons chunk rest ih =>
    rw [wp_forM_cons, wp_bind]
    refine wp_scheduleInitialArrival inv (fun _ n₁ step => ?_) throws
    obtain ⟨kept, launched⟩ := step
    obtain ⟨transfer, isTransfer, listed, isBytes, started⟩ := launching.transfer
    obtain ⟨record, transfer', startedAt, found, isTransfer', isStarted, _, after⟩ :=
      launched.transfer
    -- the chunk is one of this transfer
    have owner : record.chunk.transfer = id := by
      have member : chunk.id ∈ transfer.chunks := by simp [listed]
      obtain ⟨other, isOther, owner⟩ :=
        ((inv.accounts.balanced id transfer isTransfer).members chunk.id).mp member
      rw [found] at isOther
      cases isOther
      exact owner
    rw [owner] at isTransfer' after
    rw [isTransfer] at isTransfer'
    cases isTransfer'
    have next : Launching id bytes (sent ++ [chunk]) rest n₁ := by
      constructor
      · exact ⟨_, after, by simp [listed], isBytes, fun _ => isStarted⟩
      · intro other member record' isRecord'
        simp only [List.map_append, List.map_cons, List.map_nil, List.mem_append,
          List.mem_singleton] at member
        by_cases here : other = chunk.id
        · subst here
          exact launched.onTheWay record' isRecord'
        · have earlier : other ∈ sent.map SubmittedChunk.id := by
            cases member with
            | inl member => exact member
            | inr same => exact absurd same here
          have member : other ∈ transfer.chunks := by
            rw [listed, List.map_append, List.mem_append]
            exact .inl earlier
          obtain ⟨before, isBefore, _⟩ :=
            ((inv.accounts.balanced id transfer isTransfer).members other).mp member
          obtain ⟨now, isNow, becomes⟩ := kept.advances.chunks other before isBefore
          rw [isRecord'] at isNow
          cases isNow
          exact becomes.submitted (launching.onTheWay other earlier before isBefore)
    refine ih (sent ++ [chunk]) kept.inv next (fun n₂ kept₂ last => ?_) (throws.step kept)
    exact returns n₂ (kept.trans kept₂) (by simpa using last)

theorem chunkSizes_sum {bytes maximum : ByteCount} :
    (chunkSizes bytes maximum).sum = bytes := by
  have whole := Nat.div_add_mod bytes maximum
  unfold chunkSizes
  rw [List.sum_append, List.sum_replicate_nat, Nat.mul_comm]
  by_cases exactly : bytes % maximum = 0
  · rw [if_neg (by simp [exactly])]
    rw [exactly] at whole
    exact whole
  · rw [if_pos exactly, List.sum_singleton]
    exact whole

/-- A transfer is submitted as a whole under a fresh identifier, or the call throws. -/
theorem wp_submitTransfer {request : TransferRequest} {Q : SubmittedTransfer → Network → Prop}
    {E : Error → Network → Prop} (inv : Invariant awaiting taken n)
    (returns : ∀ submitted n', Called awaiting taken n n' →
      n.transport.transfers.find? submitted.id = none →
      Submitted n' submitted.id request.bytes → Q submitted n')
    (throws : Survives awaiting taken n E) : wp (submitTransfer request) Q E n := by
  have refuse := throws.refuse inv
  simp only [submitTransfer, wp_bind, wp_throwIf, wp_get, wp_fromExcept, wp_runIf, wp_pure]
  refine ⟨fun _ => refuse _, fun nonzero => ⟨fun _ => refuse _, fun _ => ?_⟩⟩
  refine ⟨fun _ _ => ⟨fun _ => refuse _, fun _ => ⟨fun _ => refuse _, fun _ => ?_⟩⟩,
    fun e _ => refuse e⟩
  refine ⟨fun _ _ => ⟨fun _ => ⟨fun _ _ => ?_, fun e _ => refuse e⟩, fun _ => ?_⟩,
    fun e _ => refuse e⟩
  all_goals refine ⟨fun _ => ⟨fun _ _ => ?_, fun e _ => refuse e⟩, fun _ => ?_⟩
  all_goals
    refine wp_nextTransferId inv (fun id n₁ kept₁ fresh transfers₁ => ?_) throws
    refine wp_registerChunks _ [] kept₁.inv ?_ (fun chunks n₂ kept₂ registered sizes => ?_)
      (throws.step kept₁)
    · constructor <;> simp [transfers₁, fresh]
    · have total : (chunks.map SubmittedChunk.bytes).sum = request.bytes := by
        rw [sizes, chunkSizes_sum]
      have nonempty : chunks ≠ [] := by
        intro empty
        rw [empty] at total
        exact nonzero total.symm
      obtain ⟨transfer, isTransfer⟩ := registered.known nonempty
      have listed := registered.chunks
      have isBytes := registered.bytes
      rw [isTransfer, Option.getD_some] at listed isBytes
      refine wp_launch chunks [] kept₂.inv ⟨⟨transfer, isTransfer, listed, isBytes.trans total,
        by simp⟩, by simp⟩ (fun n₃ kept₃ launched => ?_) ((throws.step kept₁).step kept₂)
      refine returns _ n₃ ((kept₁.trans kept₂).trans kept₃) fresh ?_
      obtain ⟨last, isLast, listed₃, bytes₃, started⟩ := launched.transfer
      refine ⟨last, isLast, bytes₃, started (by simpa using nonempty), ?_⟩
      intro chunk member record found
      refine launched.onTheWay chunk ?_ record found
      simpa [listed₃] using member

end Network

end NexusLab.Transport
