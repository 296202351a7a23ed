import NexusLab.Transport.Conservation

/-! # Submissions are all or nothing

`submitTransfer` checks everything first, for the transfer as a whole, and then registers and
schedules chunk by chunk, where every check is made again.  The checks on the whole imply the checks
on the parts, so nothing can go wrong half way. -/

namespace NexusLab.Transport

open Foundation Sim NexusLab.Topology

/-! ## The whole implies the parts -/

/-- Registering nothing only asks for a short route. -/
theorem validateCapacity_zero (t : TransportRuntime) (hops : Nat) :
    validateCapacity t 0 hops = if hops > t.limits.maximumRouteHops then
      .error (.lengthError "transport retained-state limit exceeded") else .ok () := by
  simp [validateCapacity]

theorem validateCapacity_ok {t : TransportRuntime} {count hops : Nat} :
    validateCapacity t count hops = .ok () ↔ hops ≤ t.limits.maximumRouteHops ∧
      count ≤ U64.sub t.limits.maximumChunks t.chunks.size ∧
      count * hops ≤ U64.sub t.limits.maximumRouteEntries t.routeEntries := by
  unfold validateCapacity
  by_cases none_added : hops = 0
  · subst none_added
    simp only [ne_eq, not_true_eq_false, false_and, or_false, Nat.mul_zero, Nat.zero_le, and_true,
      true_and]
    split
    · rename_i full
      simp only [reduceCtorEq, false_iff]
      omega
    · rename_i room
      simp only [true_iff]
      omega
  · have divided : count * hops ≤ U64.sub t.limits.maximumRouteEntries t.routeEntries ↔
        count ≤ U64.sub t.limits.maximumRouteEntries t.routeEntries / hops :=
      (Nat.le_div_iff_mul_le (Nat.pos_of_ne_zero none_added)).symm
    rw [divided]
    split
    · rename_i full
      simp only [reduceCtorEq, false_iff]
      omega
    · rename_i room
      simp only [true_iff]
      omega

/-- Room for some chunks is room for the first, and then for the rest. -/
theorem validateCapacity_step {t : TransportRuntime} {count : Nat} (routed : RoutedChunk)
    (total : TrafficCount) (within : Network.WithinLimits t)
    (fresh : t.chunks.find? routed.chunk.id = none)
    (capacity : validateCapacity t (count + 1) routed.route.length = .ok ()) :
    validateCapacity t 1 routed.route.length = .ok () ∧
      validateCapacity (Network.registered t routed total) count routed.route.length = .ok () := by
  obtain ⟨short, chunks, entries⟩ := validateCapacity_ok.mp capacity
  obtain ⟨fits, fitsEntries, word⟩ := within
  have product : (count + 1) * routed.route.length =
      count * routed.route.length + routed.route.length := Nat.succ_mul _ _
  rw [product] at entries
  rw [validateCapacity_ok, validateCapacity_ok]
  refine ⟨⟨short, ?_, ?_⟩, short, ?_, ?_⟩
  · omega
  · omega
  · simp only [Network.registered, OrderedMap.size_insert_of_fresh fresh]
    unfold U64.sub at chunks ⊢
    omega
  · simp only [Network.registered]
    unfold U64.sub at entries ⊢
    unfold U64.add
    omega

theorem checkedAdd_mono {a b c later : Nat} (added : checkedAdd later b = some c) (le : a ≤ later) :
    ∃ c', checkedAdd a b = some c' ∧ c' ≤ c := by
  have sum := checkedAdd_eq_some added
  unfold checkedAdd at added ⊢
  split at added
  · cases added
  · rename_i inRange
    have room : b ≤ maxU64 - later := Nat.not_lt.mp inRange
    have earlier : ¬ b > maxU64 - a := by omega
    rw [if_neg earlier]
    exact ⟨a + b, rfl, sum ▸ Nat.add_le_add_right le b⟩

/-- What is in time later is in time earlier. -/
theorem validateTiming_mono {services : OrderedMap DirectedLinkId DirectedLinkService}
    {bytes : ByteCount} (route : List DirectedLinkId) {now later : SimTimeNs} (le : now ≤ later)
    (timing : validateTiming services bytes route later = .ok ()) :
    validateTiming services bytes route now = .ok () := by
  induction route generalizing now later with
  | nil => rfl
  | cons link route ih =>
    simp only [validateTiming] at timing ⊢
    cases found : services.find? link with
    | none => simp [found] at timing
    | some service =>
      simp only [found] at timing ⊢
      cases isDelay : serializationDelay bytes service.queue.configuration.bandwidth with
      | none => simp [isDelay] at timing
      | some delay =>
        simp only [isDelay] at timing ⊢
        cases serialized : checkedAdd later delay with
        | none => simp [serialized] at timing
        | some done =>
          cases propagated : checkedAdd done service.queue.configuration.propagationDelay with
          | none => simp [serialized, propagated] at timing
          | some arrival =>
            obtain ⟨done', serialized', le'⟩ := checkedAdd_mono serialized le
            obtain ⟨arrival', propagated', le''⟩ := checkedAdd_mono propagated le'
            simp only [serialized, propagated, Option.bind_some] at timing
            simp only [serialized', propagated', Option.bind_some]
            exact ih le'' timing

/-- Whether a route is valid depends on the graph, the services and the longest route allowed. -/
theorem requireRouteArc_congr {n n' : Network} (graph : n'.graph = n.graph)
    (services : n'.transport.services = n.transport.services) (link : DirectedLinkId) :
    requireRouteArc n' link = requireRouteArc n link := by
  unfold requireRouteArc
  rw [graph, services]

theorem followRoute_congr {n n' : Network} (graph : n'.graph = n.graph)
    (services : n'.transport.services = n.transport.services) (route : List DirectedLinkId)
    (previous : DirectedLink) : followRoute n' previous route = followRoute n previous route := by
  induction route generalizing previous with
  | nil => rfl
  | cons link route ih =>
    simp only [followRoute, requireRouteArc_congr graph services, graph]
    congr 1
    funext arc
    rw [ih arc]

/-- A route that is valid between two nodes is a valid route. -/
theorem validateRoute_any {n : Network} (n' : Network) (graph : n'.graph = n.graph)
    (services : n'.transport.services = n.transport.services)
    (limits : n'.transport.limits = n.transport.limits) {route : List DirectedLinkId}
    {source destination : Option NodeId}
    (valid : validateRoute n route source destination = .ok ()) :
    validateRoute n' route none none = .ok () := by
  unfold validateRoute at valid ⊢
  rw [validateCapacity_zero] at valid ⊢
  rw [limits]
  split at valid
  · cases valid
  · rename_i short
    rw [if_neg short]
    simp only [ok_bind] at valid ⊢
    cases route with
    | nil => cases valid
    | cons first rest =>
      simp only at valid ⊢
      split at valid
      · cases valid
      · rename_i inRange
        rw [if_neg inRange, requireRouteArc_congr graph services]
        cases isArc : requireRouteArc n first with
        | error e => simp [isArc] at valid
        | ok arc =>
          simp only [isArc, ok_bind] at valid ⊢
          rw [followRoute_congr graph services]
          cases follows : followRoute n arc rest with
          | error e => simp [follows] at valid
          | ok last => simp [portMatches]

namespace Network

variable {n n' : Network}

/-! ## Registering -/

/-- The record of a chunk that is registered and has not set out. -/
def freshRecord (transfer : TransferId) (route : List DirectedLinkId) (chunk : SubmittedChunk) :
    ChunkRecord :=
  { chunk := ⟨transfer, chunk.id, chunk.bytes, 0, false⟩, route }

/-- The record of a transfer whose chunks are all registered. -/
def freshTransfer (chunks : List SubmittedChunk) : TransferRecord :=
  { chunks := chunks.map SubmittedChunk.id
    total := ⟨(chunks.map SubmittedChunk.bytes).sum, chunks.length⟩ }

/-- The chunks in `done` are registered for a new transfer, under the identifiers from `first` on,
and nothing else has happened. -/
structure Filled (n : Network) (first : Nat) (transfer : TransferId) (route : List DirectedLinkId)
    (done : List SubmittedChunk) (n' : Network) : Prop where
  kernel : n'.kernel = n.kernel
  graph : n'.graph = n.graph
  services : n'.transport.services = n.transport.services
  limits : n'.transport.limits = n.transport.limits
  ids : done.map (fun chunk => chunk.id.value) = List.range' first done.length
  chunks : ∀ chunk ∈ done, n'.transport.chunks.find? chunk.id = some (freshRecord transfer route chunk)
  otherChunks : ∀ id, id ∉ done.map SubmittedChunk.id →
    n'.transport.chunks.find? id = n.transport.chunks.find? id
  entry : n'.transport.transfers.find? transfer =
    if done = [] then none else some (freshTransfer done)
  otherTransfers : ∀ id, id ≠ transfer →
    n'.transport.transfers.find? id = n.transport.transfers.find? id
  within : WithinLimits n'.transport

theorem Filled.lt_of_mem {first : Nat} {transfer : TransferId} {route : List DirectedLinkId}
    {done : List SubmittedChunk} (filled : Filled n first transfer route done n')
    {chunk : SubmittedChunk} (member : chunk ∈ done) : chunk.id.value < first + done.length := by
  have listed : chunk.id.value ∈ List.range' first done.length := by
    rw [← filled.ids]
    exact List.mem_map.mpr ⟨chunk, member, rfl⟩
  rw [List.mem_range'_1] at listed
  exact listed.2

/-- The next identifier of a transfer that is being registered is free. -/
theorem Filled.free {first : Nat} {transfer : TransferId} {route : List DirectedLinkId}
    {done : List SubmittedChunk} (filled : Filled n first transfer route done n')
    (old : ∀ id record, n.transport.chunks.find? id = some record → id.value < first) :
    n'.transport.chunks.find? ⟨first + done.length⟩ = none := by
  rw [filled.otherChunks]
  · cases found : n.transport.chunks.find? ⟨first + done.length⟩ with
    | none => rfl
    | some record =>
      have lt : first + done.length < first := old _ record found
      omega
  · intro member
    obtain ⟨chunk, isDone, same⟩ := List.mem_map.mp member
    have lt := filled.lt_of_mem isDone
    rw [same] at lt
    exact lt_irrefl _ lt

/-- A chunk that passes every check is registered. -/
theorem wp_registerChunk_ok {routed : RoutedChunk} {total : TrafficCount}
    {Q : Unit → Network → Prop} {E : Error → Network → Prop} (bytes : routed.chunk.bytes ≠ 0)
    (hop : routed.chunk.hopIndex = 0) (route : validateRoute n routed.route none none = .ok ())
    (capacity : validateCapacity n.transport 1 routed.route.length = .ok ())
    (timing : validateTiming n.transport.services routed.chunk.bytes routed.route 0 = .ok ())
    (free : n.transport.chunks.find? routed.chunk.id = none)
    (unstarted : (n.transport.transfers.find? routed.chunk.transfer).bind
      TransferRecord.startedAt = none)
    (sum : addTraffic (((n.transport.transfers.find? routed.chunk.transfer).map
      TransferRecord.total).getD {}) ⟨routed.chunk.bytes, 1⟩ = .ok total)
    (returns : Q () { n with transport := registered n.transport routed total }) :
    wp (registerChunk routed) Q E n := by
  simp only [registerChunk, wp_bind, wp_throwIf, wp_get, wp_fromExcept, modifyTransport, wp_modify]
  refine ⟨fun zero => absurd zero bytes, fun _ => ⟨fun later => absurd hop later, fun _ => ?_⟩⟩
  rw [route, capacity, timing]
  refine ⟨fun _ _ => ⟨fun _ _ => ⟨fun _ _ => ?_, by simp⟩, by simp⟩, by simp⟩
  refine ⟨fun duplicate => ?_, fun _ => ⟨fun started => ?_, fun _ => ?_⟩⟩
  · simp [OrderedMap.contains, free] at duplicate
  · simp [unstarted] at started
  · rw [sum]
    refine ⟨?_, by simp⟩
    intro other same
    cases same
    exact returns

/-- One more chunk is registered. -/
theorem Filled.register {first : Nat} {transfer : TransferId} {route : List DirectedLinkId}
    {done : List SubmittedChunk} (filled : Filled n first transfer route done n')
    (bytes : ByteCount) {ids : IdGenerator} {total : TrafficCount}
    (free : n'.transport.chunks.find? ⟨first + done.length⟩ = none)
    (capacity : validateCapacity n'.transport 1 route.length = .ok ())
    (sum : total = ⟨(done.map SubmittedChunk.bytes).sum + bytes, done.length + 1⟩) :
    Filled n first transfer route (done ++ [⟨⟨first + done.length⟩, bytes⟩]) { n' with
      transport := registered { n'.transport with chunkIds := ids }
        ⟨⟨transfer, ⟨first + done.length⟩, bytes, 0, false⟩, route⟩ total } where
  kernel := filled.kernel
  graph := filled.graph
  services := filled.services
  limits := filled.limits
  ids := by
    rw [List.map_append, filled.ids, List.length_append, List.length_singleton,
      List.range'_concat]
    simp
  chunks := by
    intro chunk member
    rw [List.mem_append, List.mem_singleton] at member
    simp only [registered]
    cases member with
    | inl member =>
      -- the earlier chunks have smaller identifiers
      have differs : chunk.id ≠ ⟨first + done.length⟩ := by
        intro same
        have lt := filled.lt_of_mem member
        rw [same] at lt
        exact lt_irrefl _ lt
      rw [OrderedMap.find?_insert_of_ne _ _ differs]
      exact filled.chunks chunk member
    | inr last =>
      subst last
      rw [OrderedMap.find?_insert_self]
      rfl
  otherChunks := by
    intro id other
    simp only [List.map_append, List.map_cons, List.map_nil, List.mem_append, List.mem_singleton,
      not_or] at other
    simp only [registered]
    rw [OrderedMap.find?_insert_of_ne _ _ other.2]
    exact filled.otherChunks id other.1
  entry := by
    simp only [registered, OrderedMap.find?_insert_self, filled.entry, List.append_eq_nil_iff,
      List.cons_ne_self, and_false, if_false]
    subst sum
    -- the first chunk creates the transfer, and the others add to it
    cases done <;> simp [freshTransfer, Nat.add_assoc]
  otherTransfers := by
    intro id other
    simp only [registered]
    rw [OrderedMap.find?_insert_of_ne _ _ other]
    exact filled.otherTransfers id other
  within := within_registered free capacity
    ⟨filled.within.chunks, filled.within.routeEntries, filled.within.word⟩

/-- All chunks of a transfer are registered when the checks on the whole have passed. -/
theorem wp_registerChunks_exact {first : Nat} {transfer : TransferId}
    {route : List DirectedLinkId} {source destination : Option NodeId}
    {Q : List SubmittedChunk → Network → Prop} {E : Error → Network → Prop}
    (sizes : List ByteCount) (done : List SubmittedChunk) {now : Network}
    (filled : Filled n first transfer route done now)
    (valid : validateRoute n route source destination = .ok ())
    (old : ∀ id record, n.transport.chunks.find? id = some record → id.value < first)
    (capacity : validateCapacity now.transport sizes.length route.length = .ok ())
    (timing : ∀ bytes ∈ sizes, validateTiming n.transport.services bytes route 0 = .ok ())
    (positive : ∀ bytes ∈ sizes, bytes ≠ 0)
    (left : now.transport.chunkIds.canGenerate sizes.length = true)
    (next : sizes ≠ [] → now.transport.chunkIds.nextValue = first + done.length)
    (fits : (done.map SubmittedChunk.bytes).sum + sizes.sum ≤ maxU64)
    (few : done.length + sizes.length ≤ maxU64)
    (returns : ∀ chunks n', Filled n first transfer route (done ++ chunks) n' →
      chunks.map SubmittedChunk.bytes = sizes → Q chunks n') :
    wp (registerChunks transfer route sizes) Q E now := by
  induction sizes generalizing done now Q with
  | nil => exact returns [] now (by simpa using filled) rfl
  | cons bytes sizes ih =>
    have isNext := next (by simp)
    obtain ⟨ids, drawn, _, left', next', same⟩ := IdGenerator.next_of_canGenerate
      "transport ID sequence exhausted" left
    simp only [registerChunks, nextChunkId, wp_bind, wp_get, drawn, wp_fromExcept, modifyTransport,
      wp_modify, wp_pure]
    refine ⟨?_, by simp⟩
    intro pair isPair
    cases isPair
    simp only [isNext] at same ⊢
    have free := filled.free old
    -- the transfer so far, as the map has it
    have total : addTraffic (((now.transport.transfers.find? transfer).map
        TransferRecord.total).getD {}) ⟨bytes, 1⟩ =
        .ok ⟨(done.map SubmittedChunk.bytes).sum + bytes, done.length + 1⟩ := by
      have soFar : ((now.transport.transfers.find? transfer).map TransferRecord.total).getD {} =
          ⟨(done.map SubmittedChunk.bytes).sum, done.length⟩ := by
        rw [filled.entry]
        cases done <;> rfl
      have inRange : (done.map SubmittedChunk.bytes).sum + bytes ≤ maxU64 := by
        rw [List.sum_cons, ← Nat.add_assoc] at fits
        exact (Nat.le_add_right _ _).trans fits
      rw [soFar]
      unfold addTraffic
      rw [if_neg]
      rw [not_or, not_lt, not_lt]
      refine ⟨Nat.le_sub_of_add_le (by rwa [Nat.add_comm]), ?_⟩
      simp only [List.length_cons] at few
      show 1 ≤ maxU64 - done.length
      omega
    have unstarted : (now.transport.transfers.find? transfer).bind TransferRecord.startedAt =
        none := by
      rw [filled.entry]
      cases done <;> rfl
    obtain ⟨here, later⟩ := validateCapacity_step
      ⟨⟨transfer, ⟨first + done.length⟩, bytes, 0, false⟩, route⟩
      ⟨(done.map SubmittedChunk.bytes).sum + bytes, done.length + 1⟩ filled.within free capacity
    refine wp_registerChunk_ok (positive bytes (by simp)) rfl
      (validateRoute_any { now with transport := { now.transport with chunkIds := ids } }
        filled.graph filled.services filled.limits valid) here ?_ free unstarted total ?_
    · show validateTiming now.transport.services bytes route 0 = .ok ()
      rw [filled.services]
      exact timing bytes (by simp)
    · refine ih (done ++ [⟨⟨first + done.length⟩, bytes⟩])
        (filled.register bytes free here rfl) later
        (fun other member => timing other (by simp [member]))
        (fun other member => positive other (by simp [member])) ?_ ?_ ?_ ?_ ?_
      · show (ids.advancePast (first + done.length)).canGenerate sizes.length = true
        rw [same]
        exact left'
      · intro more
        show (ids.advancePast (first + done.length)).nextValue = _
        rw [same, next' (List.length_pos_iff.mpr more), isNext]
        simp [Nat.add_assoc]
      · simpa [Nat.add_assoc] using fits
      · simp only [List.length_cons] at few
        simp only [List.length_append, List.length_cons, List.length_nil]
        omega
      · intro chunks n' filled' sizes'
        refine returns _ n' (by simpa using filled') ?_
        simp [sizes']

/-! ## Setting out -/

/-- The first arrival of the chunk that comes at the given place. -/
def firstArrival (sim : Simulation) (ordinal : Nat) (chunk : ChunkId) : Event :=
  ⟨sim.now, .normal, ⟨sim.eventIds.nextValue + ordinal⟩, sim.currentEvent.map Event.id,
    .chunkArrival ⟨chunk, 0⟩⟩

/-- The record of a chunk whose first arrival is scheduled. -/
def sentRecord (transfer : TransferId) (route : List DirectedLinkId) (arrival : EventId)
    (chunk : SubmittedChunk) : ChunkRecord :=
  { freshRecord transfer route chunk with
    state := .awaitingArrival
    scheduledArrival := some arrival }

/-- Of the chunks of a new transfer those in `sent` have set out, those in `rest` have not, and
nothing else has happened. -/
structure Sent (n : Network) (transfer : TransferId) (route : List DirectedLinkId)
    (sent rest : List SubmittedChunk) (n' : Network) : Prop where
  graph : n'.graph = n.graph
  services : n'.transport.services = n.transport.services
  limits : n'.transport.limits = n.transport.limits
  stock : n'.transport.chunks.size = n.transport.chunks.size ∧
    n'.transport.routeEntries = n.transport.routeEntries
  now : n'.kernel.sim.now = n.kernel.sim.now
  current : n'.kernel.sim.currentEvent = n.kernel.sim.currentEvent
  lifecycle : n'.kernel.sim.lifecycle = n.kernel.sim.lifecycle
  valid : n'.kernel.sim.Valid
  nextId : n'.kernel.sim.eventIds.exhausted = false →
    n'.kernel.sim.eventIds.nextValue = n.kernel.sim.eventIds.nextValue + sent.length
  left : n.kernel.sim.eventIds.canGenerate (sent.length + rest.length) = true →
    n'.kernel.sim.eventIds.canGenerate rest.length = true
  live : ∀ event, n'.kernel.sim.Live event ↔ n.kernel.sim.Live event ∨
    ∃ ordinal chunk, sent[ordinal]? = some chunk ∧
      event = firstArrival n.kernel.sim ordinal chunk.id
  chunks : ∀ ordinal chunk, sent[ordinal]? = some chunk →
    n'.transport.chunks.find? chunk.id = some (sentRecord transfer route
      (firstArrival n.kernel.sim ordinal chunk.id).id chunk)
  waiting : ∀ chunk ∈ rest, n'.transport.chunks.find? chunk.id =
    some (freshRecord transfer route chunk)
  otherChunks : ∀ id, id ∉ sent.map SubmittedChunk.id →
    n'.transport.chunks.find? id = n.transport.chunks.find? id
  entry : n'.transport.transfers.find? transfer = some { freshTransfer (sent ++ rest) with
    startedAt := if sent = [] then none else some n.kernel.sim.now }
  otherTransfers : ∀ id, id ≠ transfer →
    n'.transport.transfers.find? id = n.transport.transfers.find? id

/-- One more chunk sets out. -/
theorem Sent.launch {transfer : TransferId} {route : List DirectedLinkId}
    {sent rest : List SubmittedChunk} {chunk : SubmittedChunk}
    (before : Sent n transfer route sent (chunk :: rest) n')
    (nodup : ((sent ++ chunk :: rest).map SubmittedChunk.id).Nodup)
    (remaining : n'.kernel.sim.eventIds.exhausted = false) {specification : EventSpec}
    (isSpecification : specification =
      ⟨n'.kernel.sim.now, .normal, .chunkArrival ⟨chunk.id, 0⟩⟩) {after : Network}
    (sim : after.kernel.sim = n'.kernel.sim.scheduled specification)
    (graph : after.graph = n'.graph)
    (transport : after.transport = { n'.transport with
      chunks := n'.transport.chunks.insert chunk.id (sentRecord transfer route
        (n'.kernel.sim.eventFor specification).id chunk)
      transfers := n'.transport.transfers.insert transfer
        { freshTransfer (sent ++ chunk :: rest) with startedAt := some n.kernel.sim.now } }) :
    Sent n transfer route (sent ++ [chunk]) rest after := by
  have isNext := before.nextId remaining
  have event : n'.kernel.sim.eventFor specification =
      firstArrival n.kernel.sim sent.length chunk.id := by
    subst isSpecification
    simp only [Simulation.eventFor, firstArrival, isNext, before.now, before.current]
  -- the identifiers are distinct, so the records of the other chunks stay as they are
  have apart : ∀ other ∈ sent ++ rest, other.id ≠ chunk.id := by
    intro other member same
    rw [List.map_append, List.map_cons, List.nodup_middle, List.nodup_cons,
      ← List.map_append] at nodup
    exact nodup.1 (same ▸ List.mem_map_of_mem member)
  constructor
  · exact graph.trans before.graph
  · rw [transport]
    exact before.services
  · rw [transport]
    exact before.limits
  · rw [transport]
    refine ⟨?_, before.stock.2⟩
    exact (OrderedMap.size_insert_of_found (before.waiting chunk (by simp))).trans before.stock.1
  · rw [sim]
    exact before.now
  · rw [sim]
    exact before.current
  · rw [sim]
    exact before.lifecycle
  · rw [sim]
    apply before.valid.scheduled remaining
    rw [isSpecification]
  · rw [sim]
    simp only [Simulation.scheduled, Simulation.advancedIds, List.length_append,
      List.length_singleton]
    split
    · simp
    · intro _
      rw [isNext, Nat.add_assoc]
  · intro enough
    -- one identifier fewer is left for the rest
    have left := before.left (by simpa [Nat.add_assoc, Nat.add_comm 1] using enough)
    obtain ⟨ids, drawn, _, left', _⟩ := IdGenerator.next_of_canGenerate
      "event ID sequence exhausted" left
    rw [Kernel.next_eq, if_neg (by simp [remaining])] at drawn
    cases drawn
    rw [sim]
    exact left'
  · intro other
    rw [sim, before.valid.live_scheduled remaining, event, before.live]
    constructor
    · intro h
      -- an event is of an earlier chunk or the one that is new
      obtain same | live | added := h
      · exact .inr ⟨sent.length, chunk, by simp, same⟩
      · exact .inl live
      · obtain ⟨ordinal, earlier, isEarlier, same⟩ := added
        refine .inr ⟨ordinal, earlier, ?_, same⟩
        rw [List.getElem?_append_left (List.getElem?_eq_some_iff.mp isEarlier).1]
        exact isEarlier
    · intro h
      obtain live | ⟨ordinal, earlier, isEarlier, same⟩ := h
      · exact .inr (.inl live)
      · by_cases last : ordinal < sent.length
        · rw [List.getElem?_append_left last] at isEarlier
          exact .inr (.inr ⟨ordinal, earlier, isEarlier, same⟩)
        · rw [List.getElem?_append_right (by omega), List.getElem?_singleton] at isEarlier
          split at isEarlier
          · rename_i isLast
            cases isEarlier
            have isOrdinal : ordinal = sent.length := by omega
            exact .inl (isOrdinal ▸ same)
          · cases isEarlier
  · intro ordinal earlier isEarlier
    rw [transport]
    by_cases last : ordinal < sent.length
    · rw [List.getElem?_append_left last] at isEarlier
      have differs := apart earlier (by simp [List.mem_of_getElem? isEarlier])
      simp only [OrderedMap.find?_insert_of_ne _ _ differs]
      exact before.chunks ordinal earlier isEarlier
    · rw [List.getElem?_append_right (by omega), List.getElem?_singleton] at isEarlier
      split at isEarlier
      · rename_i isLast
        cases isEarlier
        have isOrdinal : ordinal = sent.length := by omega
        simp only [OrderedMap.find?_insert_self, event, isOrdinal]
      · cases isEarlier
  · intro later member
    rw [transport]
    have differs := apart later (by simp [member])
    simp only [OrderedMap.find?_insert_of_ne _ _ differs]
    exact before.waiting later (by simp [member])
  · intro id other
    simp only [List.map_append, List.map_cons, List.map_nil, List.mem_append, List.mem_singleton,
      not_or] at other
    rw [transport]
    simp only [OrderedMap.find?_insert_of_ne _ _ other.2]
    exact before.otherChunks id other.1
  · rw [transport]
    simp
  · intro id other
    rw [transport]
    simp only [OrderedMap.find?_insert_of_ne _ _ other]
    exact before.otherTransfers id other

/-- Registered chunks set out, unless telemetry throws, the event identifiers run out or the
simulation is over. -/
theorem wp_launch_exact {transfer : TransferId} {route : List DirectedLinkId}
    {Q : Unit → Network → Prop} {E : Error → Network → Prop} (rest sent : List SubmittedChunk)
    (before : Sent n transfer route sent rest n')
    (nodup : ((sent ++ rest).map SubmittedChunk.id).Nodup)
    (timing : ∀ chunk ∈ rest,
      validateTiming n.transport.services chunk.bytes route n.kernel.sim.now = .ok ())
    (returns : ∀ after, Sent n transfer route (sent ++ rest) [] after → Q () after)
    (throws : ∀ e after, e.origin = .telemetry ∨
      n.kernel.sim.eventIds.canGenerate (sent.length + rest.length) = false ∨
      n.kernel.sim.lifecycle = .finished → E e after) :
    wp (rest.forM fun chunk => do let _ ← scheduleInitialArrival chunk.id) Q E n' := by
  -- on the chunks that have not set out yet
  induction rest generalizing sent n' with
  | nil => exact returns n' (by simpa using before)
  | cons chunk rest ih =>
    have found := before.waiting chunk (by simp)
    have lengths : (sent ++ [chunk]).length + rest.length =
        sent.length + (chunk :: rest).length := by simp [Nat.add_assoc, Nat.add_comm 1]
    have again : ∀ after, Sent n transfer route (sent ++ [chunk]) rest after →
        wp (rest.forM fun chunk => do let _ ← scheduleInitialArrival chunk.id) Q E after := by
      intro after sent'
      refine ih (sent ++ [chunk]) sent' (by simpa using nodup)
        (fun other member => timing other (by simp [member])) ?_ ?_
      · intro last isLast
        exact returns last (by simpa using isLast)
      · rw [lengths]
        exact throws
    rw [wp_forM_cons, wp_bind]
    simp only [scheduleInitialArrival, wp_bind, requireChunk, wp_get, wp_getOrThrow, found,
      Option.some.injEq, wp_throwIf, wp_fromExcept]
    refine ⟨?_, by simp⟩
    intro record isRecord
    subst isRecord
    have inTime : validateTiming n'.transport.services (freshRecord transfer route chunk).chunk.bytes
        (freshRecord transfer route chunk).route n'.now = .ok () := by
      rw [before.services]
      show validateTiming _ _ _ n'.kernel.sim.now = _
      rw [before.now]
      exact timing chunk (by simp)
    rw [inTime]
    refine ⟨fun sealed => absurd rfl sealed, fun _ => ⟨fun _ _ => ?_, by simp⟩⟩
    rw [wp_zoom]
    apply Kernel.wp_schedule_full before.valid
    · intro finished
      exact throws _ _ (.inr (.inr (before.lifecycle ▸ finished)))
    · intro _ past
      exact absurd past (lt_irrefl _)
    -- one identifier was left for each of them, or there were too few from the start
    · intro _ _ exhausted
      refine throws _ _ (.inr (.inl ?_))
      by_contra enough
      have left := before.left (Bool.eq_true_of_not_eq_false enough)
      obtain ⟨_, _, remaining, _⟩ := IdGenerator.next_of_canGenerate
        "event ID sequence exhausted" left
      have isExhausted : n'.kernel.sim.eventIds.exhausted = true := exhausted
      simp [isExhausted] at remaining
    · intro _ _ remaining probe _
      have entry := before.entry
      simp only [wp_storeChunk, wp_pure, startTransfer, wp_bind, wp_get, wp_getOrThrow]
      refine ⟨?_, fun absent => ?_⟩
      · intro found isFound
        have isEntry : n'.transport.transfers.find? transfer = some found := isFound
        rw [entry, Option.some.injEq] at isEntry
        subst isEntry
        rw [wp_runIf]
        constructor
        -- the first chunk starts the transfer, and the others find it started
        · intro unstarted
          simp only [wp_bind, modifyTransport, wp_modify]
          refine wp_observe_telemetry (fun probe' => again _ ?_)
            (fun e _ origin => throws e _ (.inl origin))
          refine before.launch nodup remaining rfl rfl rfl ?_
          simp only [probed, kernelLens]
          rw [← before.now]
          rfl
        · intro started
          apply again
          refine before.launch nodup remaining rfl rfl rfl ?_
          have isStarted : (if sent = [] then none else some n.kernel.sim.now) =
              some n.kernel.sim.now := by
            split
            · rename_i empty
              simp [empty] at started
            · rfl
          rw [isStarted] at entry
          rw [OrderedMap.insert_of_find? entry]
          rfl
      · have absent : n'.transport.transfers.find? transfer = none := absent
        rw [entry] at absent
        cases absent
    · intro e k origin _
      exact throws e _ (.inl origin)

/-! ## The sizes of the chunks -/

section Sizes

variable {bytes maximum : Nat}

theorem length_chunkSizes : (chunkSizes bytes maximum).length =
    bytes / maximum + if bytes % maximum ≠ 0 then 1 else 0 := by
  unfold chunkSizes
  rw [List.length_append, List.length_replicate]
  split <;> rfl

/-- There are as many chunks as it takes. -/
theorem length_chunkSizes_ceil (positive : maximum ≠ 0) :
    (chunkSizes bytes maximum).length = (bytes + maximum - 1) / maximum := by
  have whole : maximum * (bytes / maximum) + bytes % maximum = bytes := Nat.div_add_mod _ _
  have small : bytes % maximum < maximum := Nat.mod_lt _ (Nat.pos_of_ne_zero positive)
  rw [length_chunkSizes]
  symm
  generalize bytes / maximum = full at whole ⊢
  generalize bytes % maximum = remainder at whole small ⊢
  subst whole
  have regrouped : maximum * full + remainder + maximum - 1 =
      maximum * full + (remainder + maximum - 1) := by omega
  rw [regrouped, Nat.mul_add_div (Nat.pos_of_ne_zero positive)]
  congr 1
  split
  · rename_i some_left
    rw [Nat.div_eq_iff (Nat.pos_of_ne_zero positive)]
    omega
  · rename_i none_left
    exact Nat.div_eq_of_lt (by omega)

/-- A chunk is never empty, and never larger than the maximum. -/
theorem mem_chunkSizes (positive : maximum ≠ 0) {size : Nat}
    (member : size ∈ chunkSizes bytes maximum) :
    0 < size ∧ size ≤ maximum ∧ (size = maximum ∧ bytes / maximum ≠ 0 ∨
      size = bytes % maximum ∧ bytes % maximum ≠ 0) := by
  have small : bytes % maximum < maximum := Nat.mod_lt _ (Nat.pos_of_ne_zero positive)
  unfold chunkSizes at member
  rw [List.mem_append] at member
  cases member with
  | inl full =>
    obtain ⟨some_full, isFull⟩ := List.mem_replicate.mp full
    subst isFull
    exact ⟨Nat.pos_of_ne_zero positive, le_refl _, .inl ⟨rfl, some_full⟩⟩
  | inr last =>
    split at last
    · rename_i some_left
      rw [List.mem_singleton] at last
      subst last
      exact ⟨Nat.pos_of_ne_zero some_left, le_of_lt small, .inr ⟨rfl, some_left⟩⟩
    · cases last

/-- All chunks but the last are as large as they may be. -/
theorem chunkSizes_full {ordinal size : Nat}
    (listed : (chunkSizes bytes maximum)[ordinal]? = some size)
    (notLast : ordinal + 1 < (chunkSizes bytes maximum).length) : size = maximum := by
  rw [length_chunkSizes] at notLast
  have full : ordinal < (List.replicate (bytes / maximum) maximum).length := by
    rw [List.length_replicate]
    split at notLast <;> omega
  unfold chunkSizes at listed
  rw [List.getElem?_append_left full, List.getElem?_eq_getElem full,
    List.getElem_replicate] at listed
  exact (Option.some.inj listed).symm

end Sizes

/-! ## Whole submissions -/

/-- A transfer was accepted: its chunks are registered under new identifiers and on their way, and
nothing else has happened. -/
structure Accepted (n : Network) (request : TransferRequest) (submitted : SubmittedTransfer)
    (n' : Network) : Prop where
  nonzero : request.bytes ≠ 0 ∧ request.maximumChunkBytes ≠ 0
  valid : validateRoute n request.route (some request.source) (some request.destination) = .ok ()
  sizes : submitted.chunks.map SubmittedChunk.bytes =
    chunkSizes request.bytes request.maximumChunkBytes
  ids : submitted.chunks.map (fun chunk => chunk.id.value) =
    List.range' n.transport.chunkIds.nextValue submitted.chunks.length
  newTransfer : n.transport.transfers.find? submitted.id = none
  newChunks : ∀ chunk ∈ submitted.chunks, n.transport.chunks.find? chunk.id = none
  entry : n'.transport.transfers.find? submitted.id =
    some { freshTransfer submitted.chunks with startedAt := some n.kernel.sim.now }
  chunks : ∀ ordinal chunk, submitted.chunks[ordinal]? = some chunk →
    n'.transport.chunks.find? chunk.id = some (sentRecord submitted.id request.route
      (firstArrival n.kernel.sim ordinal chunk.id).id chunk)
  otherTransfers : ∀ id, id ≠ submitted.id →
    n'.transport.transfers.find? id = n.transport.transfers.find? id
  otherChunks : ∀ id, id ∉ submitted.chunks.map SubmittedChunk.id →
    n'.transport.chunks.find? id = n.transport.chunks.find? id
  live : ∀ event, n'.kernel.sim.Live event ↔ n.kernel.sim.Live event ∨
    ∃ ordinal chunk, submitted.chunks[ordinal]? = some chunk ∧
      event = firstArrival n.kernel.sim ordinal chunk.id
  graph : n'.graph = n.graph
  services : n'.transport.services = n.transport.services
  limits : n'.transport.limits = n.transport.limits
  within : WithinLimits n'.transport

/-- The identifiers of the chunks follow each other. -/
theorem Accepted.value_at {request : TransferRequest} {submitted : SubmittedTransfer}
    (accepted : Accepted n request submitted n') {ordinal : Nat} {chunk : SubmittedChunk}
    (listed : submitted.chunks[ordinal]? = some chunk) :
    chunk.id.value = n.transport.chunkIds.nextValue + ordinal := by
  have id : (submitted.chunks.map (fun chunk => chunk.id.value))[ordinal]? =
      some chunk.id.value := by rw [List.getElem?_map, listed, Option.map_some]
  rw [accepted.ids, List.getElem?_range' (List.getElem?_eq_some_iff.mp listed).1,
    Nat.one_mul] at id
  exact (Option.some.inj id).symm

theorem Filled.nodup {first : Nat} {transfer : TransferId} {route : List DirectedLinkId}
    {done : List SubmittedChunk} (filled : Filled n first transfer route done n') :
    (done.map SubmittedChunk.id).Nodup := by
  have distinct : (done.map (fun chunk => chunk.id.value)).Nodup := by
    rw [filled.ids]
    exact List.nodup_range'
  have mapped : done.map (fun chunk => chunk.id.value) =
      (done.map SubmittedChunk.id).map (fun id => id.value) := by simp
  rw [mapped] at distinct
  exact distinct.of_map _

/-- Before the first chunk sets out. -/
theorem Filled.sent {first : Nat} {transfer : TransferId} {route : List DirectedLinkId}
    {chunks : List SubmittedChunk} (filled : Filled n first transfer route chunks n')
    (valid : n.kernel.sim.Valid) (nonempty : chunks ≠ []) :
    Sent n' transfer route [] chunks n' where
  graph := rfl
  services := rfl
  limits := rfl
  stock := ⟨rfl, rfl⟩
  now := rfl
  current := rfl
  lifecycle := rfl
  valid := filled.kernel ▸ valid
  nextId _ := rfl
  left enough := by simpa using enough
  live event := by simp
  chunks ordinal chunk listed := by simp at listed
  waiting := filled.chunks
  otherChunks _ _ := rfl
  entry := by
    rw [filled.entry, if_neg nonempty]
    rfl
  otherTransfers _ _ := rfl

/-- After the last chunk has set out. -/
theorem Filled.accepted {request : TransferRequest} {transfer : TransferId}
    {chunks : List SubmittedChunk} {after : Network}
    (filled : Filled n n.transport.chunkIds.nextValue transfer request.route chunks n')
    (sent : Sent n' transfer request.route chunks [] after)
    (nonzero : request.bytes ≠ 0 ∧ request.maximumChunkBytes ≠ 0)
    (valid : validateRoute n request.route (some request.source) (some request.destination) =
      .ok ())
    (sizes : chunks.map SubmittedChunk.bytes =
      chunkSizes request.bytes request.maximumChunkBytes) (nonempty : chunks ≠ [])
    (newTransfer : n.transport.transfers.find? transfer = none)
    (old : ∀ id record, n.transport.chunks.find? id = some record →
      id.value < n.transport.chunkIds.nextValue) :
    Accepted n request ⟨transfer, chunks⟩ after where
  nonzero := nonzero
  valid := valid
  sizes := sizes
  ids := filled.ids
  newTransfer := newTransfer
  newChunks := by
    intro chunk member
    cases found : n.transport.chunks.find? chunk.id with
    | none => rfl
    | some record =>
      -- the new identifiers begin where the old ones end
      have listed : chunk.id.value ∈ List.range' n.transport.chunkIds.nextValue chunks.length := by
        rw [← filled.ids]
        exact List.mem_map.mpr ⟨chunk, member, rfl⟩
      have small := old _ record found
      rw [List.mem_range'_1] at listed
      exact absurd small (Nat.not_lt.mpr listed.1)
  entry := by
    have entry := sent.entry
    rwa [List.append_nil, if_neg nonempty, filled.kernel] at entry
  chunks := by
    intro ordinal chunk listed
    have record := sent.chunks ordinal chunk listed
    rwa [filled.kernel] at record
  otherTransfers id other := (sent.otherTransfers id other).trans (filled.otherTransfers id other)
  otherChunks id other := (sent.otherChunks id other).trans (filled.otherChunks id other)
  live := by
    have live := sent.live
    rwa [filled.kernel] at live
  graph := sent.graph.trans filled.graph
  services := sent.services.trans filled.services
  limits := sent.limits.trans filled.limits
  within := by
    obtain ⟨size, routeEntries⟩ := sent.stock
    constructor
    · rw [size, sent.limits]
      exact filled.within.chunks
    · rw [routeEntries, sent.limits]
      exact filled.within.routeEntries
    · rw [routeEntries]
      exact filled.within.word

/-- A transfer is accepted as a whole, or nothing has happened.  Past the checks only telemetry, the
event identifiers and the end of the run can stop it. -/
theorem wp_submitTransfer_exact {awaiting : Option Event} {taken : List TransferCompletion}
    {request : TransferRequest} {Q : SubmittedTransfer → Network → Prop}
    {E : Error → Network → Prop} (inv : Invariant awaiting taken n)
    (within : WithinLimits n.transport) (fits : request.bytes ≤ maxU64)
    (returns : ∀ submitted n', Accepted n request submitted n' → Q submitted n')
    (refuses : ∀ e, E e n)
    (throws : ∀ e n', request.maximumChunkBytes ≠ 0 → e.origin = .telemetry ∨
      n.kernel.sim.eventIds.canGenerate
        (chunkSizes request.bytes request.maximumChunkBytes).length = false ∨
      n.kernel.sim.lifecycle = .finished → E e n') : wp (submitTransfer request) Q E n := by
  simp only [submitTransfer, wp_bind, wp_throwIf, wp_get, wp_fromExcept, wp_runIf, wp_pure]
  refine ⟨fun _ => refuses _, fun nonzero => ⟨fun _ => refuses _, fun positive => ?_⟩⟩
  refine ⟨fun _ valid => ⟨fun _ => refuses _, fun left => ⟨fun _ => refuses _, fun few => ?_⟩⟩,
    fun e _ => refuses e⟩
  rw [← length_chunkSizes] at few left ⊢
  generalize isSizes : chunkSizes request.bytes request.maximumChunkBytes = sizes at *
  have nonempty : sizes ≠ [] := by
    intro empty
    have total : sizes.sum = request.bytes := isSizes ▸ chunkSizes_sum
    rw [empty] at total
    exact nonzero total.symm
  rw [not_or, Bool.not_eq_false, Bool.not_eq_false] at left
  obtain ⟨leftTransfer, leftChunks⟩ := left
  -- what follows the checks, once for the four ways to pass the checks of the timing
  have proceed : validateCapacity n.transport sizes.length request.route.length = .ok () →
      (∀ bytes ∈ sizes, validateTiming n.transport.services bytes request.route n.now = .ok ()) →
      wp nextTransferId (fun transfer n₁ => wp (registerChunks transfer request.route sizes)
        (fun chunks n₂ => wp (chunks.forM fun chunk => do let _ ← scheduleInitialArrival chunk.id)
          (fun _ n₃ => Q ⟨transfer, chunks⟩ n₃) E n₂) E n₁) E n := by
    intro capacity timing
    obtain ⟨transferIds, drawn, remaining, _⟩ := IdGenerator.next_of_canGenerate
      "transport ID sequence exhausted" leftTransfer
    simp only [nextTransferId, drawn, wp_bind, wp_get, wp_fromExcept, modifyTransport, wp_modify,
      wp_pure]
    refine ⟨?_, by simp⟩
    intro pair isPair
    cases isPair
    have newTransfer : n.transport.transfers.find? ⟨n.transport.transferIds.nextValue⟩ = none :=
      unissued_transfer inv (by simp [IdGenerator.Issued, remaining])
    have old : ∀ id record, n.transport.chunks.find? id = some record →
        id.value < n.transport.chunkIds.nextValue := by
      intro id record found
      obtain ⟨count, isCount⟩ : ∃ count, sizes.length = count + 1 :=
        Nat.exists_eq_add_one.mpr (List.length_pos_iff.mpr nonempty)
      rw [isCount] at leftChunks
      obtain ⟨_, _, remaining, _⟩ := IdGenerator.next_of_canGenerate
        "transport ID sequence exhausted" leftChunks
      simpa [IdGenerator.Issued, remaining] using (inv.issued id record found).2
    have start : Filled n n.transport.chunkIds.nextValue ⟨n.transport.transferIds.nextValue⟩
        request.route [] { n with transport := { n.transport with transferIds } } :=
      { kernel := rfl, graph := rfl, services := rfl, limits := rfl, ids := rfl
        chunks := by simp
        otherChunks := fun _ _ => rfl
        entry := newTransfer
        otherTransfers := fun _ _ => rfl
        within := ⟨within.chunks, within.routeEntries, within.word⟩ }
    refine wp_registerChunks_exact sizes [] start valid old capacity ?_ ?_ leftChunks
      (fun _ => rfl) ?_ ?_ ?_
    · intro bytes member
      exact validateTiming_mono request.route (Nat.zero_le _) (timing bytes member)
    · intro bytes member
      exact Nat.ne_of_gt (mem_chunkSizes positive (isSizes ▸ member)).1
    · have total : sizes.sum = request.bytes := isSizes ▸ chunkSizes_sum
      simpa [total] using fits
    · simpa using few
    · intro chunks n₂ filled isChunks
      rw [List.nil_append] at filled
      have some_chunks : chunks ≠ [] := by
        intro empty
        rw [empty] at isChunks
        exact nonempty isChunks.symm
      refine wp_launch_exact chunks [] (filled.sent inv.valid some_chunks) filled.nodup ?_ ?_ ?_
      · intro chunk member
        rw [filled.services, filled.kernel]
        exact timing chunk.bytes (isChunks ▸ List.mem_map_of_mem member)
      · intro after sent
        exact returns _ after (filled.accepted sent ⟨nonzero, positive⟩ valid
          (isChunks.trans isSizes.symm) some_chunks newTransfer old)
      · intro e after reason
        refine throws e after positive ?_
        have count : chunks.length = sizes.length := by rw [← isChunks, List.length_map]
        rwa [filled.kernel, List.length_nil, Nat.zero_add, count] at reason
  refine ⟨fun _ capacity => ⟨fun full => ⟨fun _ inTime => ?_, fun e _ => refuses e⟩,
    fun none_full => ?_⟩, fun e _ => refuses e⟩
  all_goals refine ⟨fun remains => ⟨fun _ lastInTime => ?_, fun e _ => refuses e⟩,
    fun none_remains => ?_⟩
  all_goals
    refine proceed capacity ?_
    intro bytes member
    obtain ⟨_, _, isFull | isLast⟩ := mem_chunkSizes positive (isSizes ▸ member)
    · obtain ⟨same, some_full⟩ := isFull
      subst same
      first | exact inTime | exact absurd some_full none_full
    · obtain ⟨same, some_left⟩ := isLast
      subst same
      first | exact lastInTime | exact absurd some_left none_remains

/-- A handler changes records, it does not add any. -/
theorem Leaves.within {sim : Simulation} {chunk : ChunkId} {record record' : ChunkRecord}
    {services : OrderedMap DirectedLinkId DirectedLinkService}
    (leaves : Leaves n sim (n.transport.chunks.insert chunk record') services n')
    (found : n.transport.chunks.find? chunk = some record) (within : WithinLimits n.transport) :
    WithinLimits n'.transport := by
  obtain ⟨transfers, completions, transport⟩ := leaves.transport
  rw [transport]
  exact ⟨(OrderedMap.size_insert_of_found found).symm ▸ within.chunks, within.routeEntries,
    within.word⟩

end Network

/-! ## Runs -/

theorem Dispatched.within {taken : List TransferCompletion} {event : Event} {n n' : Network}
    (dispatched : Dispatched taken event n n') (within : Network.WithinLimits n.transport) :
    Network.WithinLimits n'.transport := by
  cases dispatched with
  | passed _ => exact within
  | arrived arrives =>
    cases arrives with
    | delivered arriving _ leaves => exact leaves.within arriving.found within
    | blocked _ enters _ leaves => exact leaves.within enters.arriving.found within
    | started _ enters _ _ _ _ leaves => exact leaves.within enters.arriving.found within
    | queued enters _ _ _ leaves => exact leaves.within enters.arriving.found within
    | rejected enters _ _ _ leaves => exact leaves.within enters.arriving.found within
  | completed completes =>
    cases completes with
    | idled _ _ completing _ _ _ leaves => exact leaves.within completing.found within
    | advanced _ _ _ _ completing _ _ _ _ _ _ leaves => exact leaves.within completing.found within
  | changed _ reconciled =>
    obtain ⟨chunks, services, transfers, completions, transport, size⟩ := reconciled.stock
    rw [transport]
    exact ⟨size.symm ▸ within.chunks, within.routeEntries, within.word⟩

/-- The retained state of a runtime never exceeds its limits. -/
theorem Reachable.withinLimits {d : Drive} (reachable : Reachable d) :
    Network.WithinLimits d.network.transport := by
  apply Reachable.induction (P := fun d => Network.WithinLimits d.network.transport) ?_ ?_ reachable
  · intro d initial
    obtain ⟨configurations, limits, created⟩ := initial.created
    rw [(create_ok created).1]
    exact ⟨Nat.zero_le _, Nat.zero_le _, Nat.two_pow_pos 64⟩
  · intro d d' _ _ effect _ within
    cases effect with
    | quiet _ quiet => exact quiet.limits within
    | began event _ _ began => exact began.transport ▸ within
    | dispatched event _ _ dispatched => exact dispatched.within within

/-- The step uses up the identifiers of a transfer and of one of its chunks: a caller has chosen
them, or a submission has drawn them. -/
inductive Uses (d : Drive) : Drive → TransferId → ChunkId → Prop where
  | registered {n : Network} (routed : RoutedChunk) :
      Network.registerChunk routed d.network = .ok () n →
      Uses d { d with network := n } routed.chunk.transfer routed.chunk.id
  | submitted {n : Network} {chunk : SubmittedChunk} (request : TransferRequest)
      (submitted : SubmittedTransfer) : request.bytes ≤ maxU64 →
      Network.submitTransfer request d.network = .ok submitted n → chunk ∈ submitted.chunks →
      Uses d { d with network := n } submitted.id chunk.id

/-- The identifiers were used up earlier in the run that led to this state. -/
def UsedBefore (d : Drive) (transfer : TransferId) (chunk : ChunkId) : Prop :=
  ∃ earlier next, Reachable earlier ∧ Uses earlier next transfer chunk ∧
    Relation.ReflTransGen Step next d

theorem step_submitted {d : Drive} {request : TransferRequest} {submitted : SubmittedTransfer}
    {n : Network} (ok : Network.submitTransfer request d.network = .ok submitted n) :
    Step d { d with network := n } := by
  refine .returned (.submitTransfer request) trivial ?_
  simp only [Call.run, bind, EStateM.bind, ok]
  rfl

theorem accepted_of_ok {d : Drive} (reachable : Reachable d) {request : TransferRequest}
    {submitted : SubmittedTransfer} {n : Network} (fits : request.bytes ≤ maxU64)
    (ok : Network.submitTransfer request d.network = .ok submitted n) :
    Network.Accepted d.network request submitted n := by
  have step : wp (Network.submitTransfer request)
      (fun submitted n => Network.Accepted d.network request submitted n) (fun _ _ => True)
      d.network :=
    Network.wp_submitTransfer_exact reachable.invariant reachable.withinLimits fits
      (fun _ _ accepted => accepted) (fun _ => trivial) (fun _ _ _ _ => trivial)
  exact wp_of_ok step ok

theorem Uses.step {d d' : Drive} {transfer : TransferId} {chunk : ChunkId}
    (uses : Uses d d' transfer chunk) : Step d d' := by
  cases uses with
  | registered routed ok => exact .returned (.registerChunk routed) trivial ok
  | submitted request submitted _ ok _ => exact step_submitted ok

theorem Uses.recorded {d d' : Drive} {transfer : TransferId} {chunk : ChunkId}
    (uses : Uses d d' transfer chunk) (reachable : Reachable d) :
    ∃ record, d'.network.transport.chunks.find? chunk = some record ∧
      record.chunk.transfer = transfer := by
  cases uses with
  | registered routed ok =>
    have step : wp (Network.registerChunk routed)
        (fun _ n => ∃ record, n.transport.chunks.find? routed.chunk.id = some record ∧
          record.chunk.transfer = routed.chunk.transfer) (fun _ _ => True) d.network := by
      refine Network.wp_registerChunk reachable.invariant (fun total _ _ _ _ => ?_)
        (fun _ _ _ => trivial)
      exact ⟨_, OrderedMap.find?_insert_self .., rfl⟩
    exact wp_of_ok step ok
  | submitted request submitted fits ok member =>
    have accepted := accepted_of_ok reachable fits ok
    obtain ⟨ordinal, listed⟩ := List.getElem?_of_mem member
    exact ⟨_, accepted.chunks ordinal _ listed, rfl⟩

/-- Identifiers that were used are still on record. -/
theorem UsedBefore.recorded {d : Drive} {transfer : TransferId} {chunk : ChunkId}
    (used : UsedBefore d transfer chunk) :
    (∃ record, d.network.transport.transfers.find? transfer = some record) ∧
      ∃ record, d.network.transport.chunks.find? chunk = some record := by
  obtain ⟨earlier, next, reachable, uses, steps⟩ := used
  obtain ⟨record, found, owner⟩ := uses.recorded reachable
  obtain ⟨start, initial, before⟩ := reachable
  have next_reachable : Reachable next := ⟨start, initial, before.tail uses.step⟩
  obtain ⟨record', found', becomes⟩ := grows_of_steps next_reachable steps chunk record found
  have inv := Reachable.invariant ⟨start, initial, (before.tail uses.step).trans steps⟩
  obtain ⟨entry, isEntry, _⟩ := inv.accounts.transfer_of found'
  rw [becomes.transfer, owner] at isEntry
  exact ⟨⟨entry, isEntry⟩, record', found'⟩

/-- A submission went through as a whole. -/
structure Whole (d : Drive) (request : TransferRequest) (submitted : SubmittedTransfer)
    (n : Network) : Prop where
  count : submitted.chunks.length =
    (request.bytes + request.maximumChunkBytes - 1) / request.maximumChunkBytes
  total : (submitted.chunks.map SubmittedChunk.bytes).sum = request.bytes
  bytes : ∀ ordinal chunk, submitted.chunks[ordinal]? = some chunk → 0 < chunk.bytes ∧
    chunk.bytes ≤ request.maximumChunkBytes ∧
    (ordinal + 1 < submitted.chunks.length → chunk.bytes = request.maximumChunkBytes)
  consecutive : ∀ ordinal chunk, submitted.chunks[ordinal]? = some chunk →
    chunk.id.value = d.network.transport.chunkIds.nextValue + ordinal
  unused : ∀ transfer chunk, UsedBefore d transfer chunk → submitted.id ≠ transfer ∧
    ∀ added ∈ submitted.chunks, added.id ≠ chunk
  entry : n.transport.transfers.find? submitted.id = some { Network.freshTransfer submitted.chunks
    with startedAt := some d.network.now }
  records : ∀ chunk ∈ submitted.chunks, ∃ event, n.kernel.sim.Live event ∧
    event.payload = .chunkArrival ⟨chunk.id, 0⟩ ∧ event.timestamp = d.network.now ∧
    n.transport.chunks.find? chunk.id =
      some (Network.sentRecord submitted.id request.route event.id chunk) ∧
    ∀ other, n.kernel.sim.Live other → ArrivalOf chunk.id other.payload → other = event
  limits : n.transport.limits = d.network.transport.limits
  within : Network.WithinLimits n.transport

theorem whole_of_accepted {d : Drive} {request : TransferRequest} {submitted : SubmittedTransfer}
    {n : Network} (accepted : Network.Accepted d.network request submitted n)
    (reachable : Reachable { d with network := n }) : Whole d request submitted n where
  count := by
    rw [← Network.length_chunkSizes_ceil accepted.nonzero.2, ← accepted.sizes, List.length_map]
  total := by
    rw [accepted.sizes]
    exact Network.chunkSizes_sum
  bytes := by
    intro ordinal chunk listed
    have size : (Network.chunkSizes request.bytes request.maximumChunkBytes)[ordinal]? =
        some chunk.bytes := by rw [← accepted.sizes, List.getElem?_map, listed, Option.map_some]
    obtain ⟨positive, small, _⟩ := Network.mem_chunkSizes accepted.nonzero.2
      (List.mem_of_getElem? size)
    refine ⟨positive, small, fun notLast => Network.chunkSizes_full size ?_⟩
    rwa [← accepted.sizes, List.length_map]
  consecutive _ _ listed := accepted.value_at listed
  unused := by
    intro transfer chunk used
    obtain ⟨⟨record, isTransfer⟩, other, isChunk⟩ := used.recorded
    constructor
    · intro same
      rw [← same, accepted.newTransfer] at isTransfer
      cases isTransfer
    · intro added member same
      rw [← same, accepted.newChunks added member] at isChunk
      cases isChunk
  entry := accepted.entry
  records := by
    intro chunk member
    obtain ⟨ordinal, listed⟩ := List.getElem?_of_mem member
    have found := accepted.chunks ordinal chunk listed
    have live := (accepted.live _).mpr (.inr ⟨ordinal, chunk, listed, rfl⟩)
    refine ⟨_, live, rfl, rfl, found, ?_⟩
    -- the joint invariant allows no second arrival
    obtain ⟨event, _, _, _, only⟩ := reachable.invariant.consistent.arrival _ _ found rfl
    intro other isLive arrival
    rw [only other (.inl isLive) arrival]
    exact (only _ (.inl live) ⟨0, rfl⟩).symm
  limits := accepted.limits
  within := accepted.within

/-- A submission that throws has changed nothing. -/
theorem unchanged_of_throw {d : Drive} (reachable : Reachable d) {request : TransferRequest}
    (fits : request.bytes ≤ maxU64)
    (enough : d.network.kernel.sim.eventIds.canGenerate
      ((request.bytes + request.maximumChunkBytes - 1) / request.maximumChunkBytes) = true)
    (context : d.HasContext) {e : Error} {n : Network}
    (thrown : Network.submitTransfer request d.network = .error e n) :
    e.origin = .telemetry ∨ n = d.network := by
  have step : wp (Network.submitTransfer request) (fun _ _ => True)
      (fun e n => e.origin = .telemetry ∨ n = d.network) d.network := by
    refine Network.wp_submitTransfer_exact reachable.invariant reachable.withinLimits fits
      (fun _ _ _ => trivial) (fun _ => .inr rfl) (fun e n positive reason => ?_)
    rw [Network.length_chunkSizes_ceil positive] at reason
    obtain origin | few | ended := reason
    · exact .inl origin
    · simp [enough] at few
    · exact absurd ended context
  have outcome := wp_of_error step thrown
  exact outcome

/-- A submission is all or nothing, in every state a run can reach that has a context to submit with:
either the call throws and nothing has changed, or the transfer is there with all its chunks, each
with its first arrival. -/
theorem submission_atomic (d : Drive) (reachable : Reachable d) (request : TransferRequest)
    (fits : request.bytes ≤ maxU64)
    (enough : d.network.kernel.sim.eventIds.canGenerate
      ((request.bytes + request.maximumChunkBytes - 1) / request.maximumChunkBytes) = true)
    (context : d.HasContext) :
    match Network.submitTransfer request d.network with
    | .ok submitted n => Whole d request submitted n
    | .error e n => e.origin = .telemetry ∨ n = d.network := by
  split
  · rename_i submitted n ok
    obtain ⟨start, initial, steps⟩ := reachable
    exact whole_of_accepted (accepted_of_ok ⟨start, initial, steps⟩ fits ok)
      ⟨start, initial, steps.tail (step_submitted ok)⟩
  · rename_i e n thrown
    exact unchanged_of_throw reachable fits enough context thrown

theorem submission_atomic_two_chunks : ∃ submitted n,
    Network.submitTransfer joinedRequest joinedDrive.network = .ok submitted n ∧
      submitted.chunks.map SubmittedChunk.bytes = [64, 36] ∧
      Whole joinedDrive joinedRequest submitted n := by
  have runs : (match Network.submitTransfer joinedRequest joinedDrive.network with
      | .ok submitted _ => submitted.chunks.map SubmittedChunk.bytes == [64, 36]
      | .error _ _ => false) = true := by decide +kernel
  have whole : ∀ d request submitted n, Reachable d → request.bytes ≤ maxU64 →
      d.network.kernel.sim.eventIds.canGenerate ((request.bytes + request.maximumChunkBytes - 1) /
        request.maximumChunkBytes) = true → d.HasContext →
      Network.submitTransfer request d.network = .ok submitted n → Whole d request submitted n := by
    intro d request submitted n reachable fits enough context ok
    have atomic := submission_atomic d reachable request fits enough context
    rwa [ok] at atomic
  split at runs
  · rename_i submitted n ok
    refine ⟨submitted, n, ok, by simpa using runs, whole _ _ _ _ ?_ ?_ ?_ ?_ ok⟩
    · exact ⟨joinedDrive, joinedDrive_initial, .refl⟩
    · decide
    · decide +kernel
    · simp [Drive.HasContext, joinedDrive]
  · cases runs

end NexusLab.Transport
