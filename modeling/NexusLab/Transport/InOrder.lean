import NexusLab.Transport.Atomicity
import NexusLab.Transport.Timeliness

/-! # Chunks of a transfer do not overtake each other

The chunks of a submitted transfer take one route and set out in the order of their identifiers.
They march in a column: on links they wait in queues that are first come, first served, and between
links the later chunk arrives later.  A chunk may drop out of the column, which leaves a gap, but no
chunk passes one that is ahead of it. -/

namespace NexusLab.Transport

open Foundation Sim NexusLab.Topology

/-- Whether a chunk is on its way or has arrived. -/
def ChunkRecord.alive (record : ChunkRecord) : Bool :=
  match record.state with
  | .awaitingArrival => true
  | .admitted => true
  | .delivered => true
  | _ => false

/-- How far a chunk has come.  There are two stages to a hop, and the delivery is the last one. -/
def ChunkRecord.progress (record : ChunkRecord) : Nat :=
  match record.state with
  | .awaitingArrival => 2 * record.hopIndex
  | .delivered => 2 * record.route.length + 1
  | _ => 2 * record.hopIndex + 1

/-- The chunks of a column take the same route, and none is further than one ahead of it. -/
structure Abreast (column : Set ChunkId) (route : List DirectedLinkId)
    (chunks : OrderedMap ChunkId ChunkRecord) : Prop where
  sent : ∀ chunk ∈ column, ∃ record, chunks.find? chunk = some record ∧ record.route = route ∧
    record.state ≠ .registered
  progress : ∀ a ∈ column, ∀ b ∈ column, a < b → ∀ first second,
    chunks.find? a = some first → chunks.find? b = some second → first.alive = true →
    second.alive = true → second.progress ≤ first.progress

/-- Whether two chunks that wait for the same hop are in their order. -/
def Orderly (column : Set ChunkId) (x y : TransferChunk) : Prop :=
  x.id ∈ column → y.id ∈ column → x.hopIndex = y.hopIndex → x.id < y.id

/-- A column on the march: its chunks are abreast, those that are between links arrive one after the
other, and those that wait at a link wait in their order. -/
structure InLine (column : Set ChunkId) (route : List DirectedLinkId) (d : Drive) : Prop where
  abreast : Abreast column route d.network.transport.chunks
  between : ∀ a ∈ column, ∀ b ∈ column, a < b →
    ∀ first ∈ outstanding d.network.kernel.sim d.awaiting,
    ∀ second ∈ outstanding d.network.kernel.sim d.awaiting, ∀ hopIndex,
    first.payload = .chunkArrival ⟨a, hopIndex⟩ → second.payload = .chunkArrival ⟨b, hopIndex⟩ →
    first.key < second.key
  queues : ∀ link, (heldBy d.network.transport.services link).Pairwise (Orderly column)

/-! ## Records -/

section Records

variable {column : Set ChunkId} {route : List DirectedLinkId}
  {chunks chunks' : OrderedMap ChunkId ChunkRecord}

/-- One chunk goes further, staying behind those that are ahead of it, or drops out. -/
theorem Abreast.insert (abreast : Abreast column route chunks) {chunk : ChunkId}
    {record record' : ChunkRecord} (found : chunks.find? chunk = some record)
    (sameRoute : record'.route = record.route) (moved : record'.state ≠ .registered)
    (advances : chunk ∈ column → record'.alive = true →
      record.alive = true ∧ record.progress ≤ record'.progress ∧
      ∀ a ∈ column, a < chunk → ∀ first, chunks.find? a = some first → first.alive = true →
        record'.progress ≤ first.progress) :
    Abreast column route (chunks.insert chunk record') where
  sent := by
    intro other member
    obtain ⟨old, isOld, onRoute, sent⟩ := abreast.sent other member
    by_cases same : other = chunk
    · subst same
      rw [found] at isOld
      cases isOld
      exact ⟨record', OrderedMap.find?_insert_self .., sameRoute.trans onRoute, moved⟩
    · exact ⟨old, (OrderedMap.find?_insert_of_ne _ _ same).trans isOld, onRoute, sent⟩
  progress := by
    intro a isA b isB lt first second isFirst isSecond alive alive'
    by_cases sameA : a = chunk
    · subst sameA
      rw [OrderedMap.find?_insert_self] at isFirst
      rw [OrderedMap.find?_insert_of_ne _ _ (ne_of_gt lt)] at isSecond
      cases isFirst
      obtain ⟨wasAlive, further, _⟩ := advances isA alive
      exact (abreast.progress a isA b isB lt record second found isSecond wasAlive alive').trans
        further
    · rw [OrderedMap.find?_insert_of_ne _ _ sameA] at isFirst
      by_cases sameB : b = chunk
      · subst sameB
        rw [OrderedMap.find?_insert_self] at isSecond
        cases isSecond
        exact (advances isB alive').2.2 a isA lt first isFirst alive
      · rw [OrderedMap.find?_insert_of_ne _ _ sameB] at isSecond
        exact abreast.progress a isA b isB lt first second isFirst isSecond alive alive'

/-- Some chunks drop out. -/
theorem Abreast.thinned (abreast : Abreast column route chunks)
    (same : ∀ chunk ∈ column, chunks'.find? chunk = chunks.find? chunk ∨
      ∃ record record', chunks.find? chunk = some record ∧ chunks'.find? chunk = some record' ∧
        record'.route = record.route ∧ record'.state = .droppedLinkDown) :
    Abreast column route chunks' where
  sent := by
    intro chunk member
    cases same chunk member with
    | inl same =>
      rw [same]
      exact abreast.sent chunk member
    | inr dropped =>
      obtain ⟨record, record', found, found', sameRoute, state⟩ := dropped
      obtain ⟨old, isOld, onRoute, _⟩ := abreast.sent chunk member
      rw [found] at isOld
      cases isOld
      exact ⟨record', found', sameRoute.trans onRoute, by simp [state]⟩
  progress := by
    have unchanged : ∀ chunk ∈ column, ∀ record, chunks'.find? chunk = some record →
        record.alive = true → chunks.find? chunk = some record := by
      intro chunk member record found alive
      cases same chunk member with
      | inl same => exact same ▸ found
      | inr dropped =>
        obtain ⟨_, record', _, found', _, state⟩ := dropped
        rw [found] at found'
        cases found'
        simp [ChunkRecord.alive, state] at alive
    intro a isA b isB lt first second isFirst isSecond alive alive'
    exact abreast.progress a isA b isB lt first second (unchanged a isA first isFirst alive)
      (unchanged b isB second isSecond alive') alive alive'

end Records

/-! ## Who is ahead -/

section Ahead

variable {column : Set ChunkId} {route : List DirectedLinkId} {d d' : Drive} {event : Event}

/-- An arriving chunk is at least one stage behind every chunk ahead of it. -/
theorem InLine.behind_of_arriving (line : InLine column route d) (foremost : Foremost d)
    (isAwaited : d.awaiting = some event) {chunk : ChunkId} {record : ChunkRecord}
    (arriving : Network.Arriving d.taken d.network event chunk record) (member : chunk ∈ column)
    {a : ChunkId} (isA : a ∈ column) (lt : a < chunk) {first : ChunkRecord}
    (found : d.network.transport.chunks.find? a = some first) (alive : first.alive = true) :
    2 * record.hopIndex + 1 ≤ first.progress := by
  have awaiting : record.alive = true := by simp [ChunkRecord.alive, arriving.state]
  have atLeast := line.abreast.progress a isA chunk member lt first record found arriving.found
    alive awaiting
  have progress : record.progress = 2 * record.hopIndex := by
    simp [ChunkRecord.progress, arriving.state]
  rw [progress] at atLeast
  by_contra level
  -- the other chunk would be about to arrive at the same hop, and before this one
  have state : first.state = .awaitingArrival ∧ first.hopIndex = record.hopIndex := by
    unfold ChunkRecord.progress at atLeast level
    unfold ChunkRecord.alive at alive
    cases isState : first.state <;> simp only [isState] at alive atLeast level
    case awaitingArrival => exact ⟨rfl, by omega⟩
    all_goals omega
  have placed := arriving.inv.placement.placed a
  rw [found] at placed
  obtain ⟨earlier, single, payload, _⟩ := placed.of_awaiting state.1
  have isArrival : earlier ∈ arrivals (outstanding d.network.kernel.sim (some event)) a := by
    simp [single]
  rw [state.2] at payload
  have before := line.between a isA chunk member lt earlier (isAwaited ▸ isArrival.1) event
    (.inr isAwaited) record.hopIndex payload arriving.payload
  cases isArrival.1 with
  | inl live =>
    have after := foremost event isAwaited (by simp [arriving.payload, ownPayload]) earlier live
      (by simp [payload, ownPayload])
    exact lt_asymm before after
  | inr same =>
    cases same
    exact lt_irrefl _ before

/-- A chunk whose transmission completes is at least one stage behind every chunk ahead of it. -/
theorem InLine.behind_of_completing (line : InLine column route d) {link : DirectedLinkId}
    {service : DirectedLinkService} {active : TransferChunk} {record : ChunkRecord}
    (completing : Network.Completing d.taken d.network event link service active record)
    (member : active.id ∈ column) {a : ChunkId} (isA : a ∈ column) (lt : a < active.id)
    {first : ChunkRecord} (found : d.network.transport.chunks.find? a = some first)
    (alive : first.alive = true) : 2 * record.hopIndex + 2 ≤ first.progress := by
  have admitted : record.alive = true := by simp [ChunkRecord.alive, completing.state]
  have atLeast := line.abreast.progress a isA active.id member lt first record found
    completing.found alive admitted
  have progress : record.progress = 2 * record.hopIndex + 1 := by
    simp [ChunkRecord.progress, completing.state]
  rw [progress] at atLeast
  obtain ⟨same, isSame, onRoute, _⟩ := line.abreast.sent a isA
  rw [found] at isSame
  cases isSame
  obtain ⟨same, isSame, onRoute', _⟩ := line.abreast.sent active.id member
  rw [completing.found] at isSame
  cases isSame
  have inRange := (List.getElem?_eq_some_iff.mp completing.onRoute).1
  rw [onRoute'] at inRange
  by_contra level
  -- the other chunk would wait at the same link, and behind this one
  have state : first.state = .admitted ∧ first.hopIndex = record.hopIndex := by
    unfold ChunkRecord.progress at atLeast level
    unfold ChunkRecord.alive at alive
    rw [onRoute] at atLeast level
    cases isState : first.state <;> simp only [isState] at alive atLeast level
    case admitted => exact ⟨rfl, by omega⟩
    all_goals first | omega | cases alive
  have placed := completing.inv.placement.placed a
  rw [found] at placed
  obtain ⟨other, copy, isLink, single, same⟩ := placed.of_admitted state.1
  have place : (other, copy) ∈ holders (heldBy d.network.transport.services) a := by simp [single]
  rw [state.2, onRoute, ← onRoute', completing.onRoute] at isLink
  cases isLink
  have held : heldBy d.network.transport.services link = active :: service.queue.waiting := by
    simp [heldBy, completing.isService, DirectedLinkQueue.held, completing.inService]
  have orderly := line.queues link
  rw [held, List.pairwise_cons] at orderly
  have isWaiting : copy ∈ service.queue.waiting := by
    have isHeld := place.1
    rw [held] at isHeld
    cases isHeld with
    | head => exact absurd place.2 (ne_of_gt lt)
    | tail _ isWaiting => exact isWaiting
  have copyId : copy.id = a := place.2
  have wrong := orderly.1 copy isWaiting member (copyId ▸ isA)
    (by rw [same.hop, completing.same.hop, state.2])
  rw [copyId] at wrong
  exact lt_asymm lt wrong

end Ahead

/-! ## Between links -/

section Between

variable {column : Set ChunkId} {route : List DirectedLinkId} {d d' : Drive} {event : Event}

/-- The record of a chunk that is about to arrive. -/
theorem progress_of_arrival {awaiting : Option Event} {taken : List TransferCompletion}
    {n : Network} (inv : Invariant awaiting taken n) {event : Event} {chunk : ChunkId}
    {hopIndex : Nat} (member : event ∈ outstanding n.kernel.sim awaiting)
    (payload : event.payload = .chunkArrival ⟨chunk, hopIndex⟩) :
    ∃ record, n.transport.chunks.find? chunk = some record ∧ record.alive = true ∧
      record.progress = 2 * hopIndex := by
  obtain ⟨record, found, state, _, hop, _⟩ := inv.placement.arriving member payload
  exact ⟨record, found, by simp [ChunkRecord.alive, state],
    by simp [ChunkRecord.progress, state, hop]⟩

/-- A chunk that leaves a link arrives behind those that left it before. -/
theorem InLine.between_dispatched (line : InLine column route d) (punctual : Punctual d)
    (inv : Invariant (some event) d.taken d.network) {n' : Network}
    (dispatched : Dispatched d.taken event d.network n') {a b : ChunkId}
    (isA : a ∈ column) (isB : b ∈ column) (lt : a < b) {first second : Event}
    (isFirst : n'.kernel.sim.Live first) (isSecond : n'.kernel.sim.Live second) {hopIndex : Nat}
    (payload : first.payload = .chunkArrival ⟨a, hopIndex⟩)
    (payload' : second.payload = .chunkArrival ⟨b, hopIndex⟩) : first.key < second.key := by
  have expected : ∀ {other}, d.network.kernel.sim.Live other →
      other ∈ outstanding d.network.kernel.sim (some event) := fun live => .inl live
  cases dispatched.live_or inv isFirst with
  | inl oldFirst =>
    cases dispatched.live_or inv isSecond with
    | inl oldSecond =>
      exact line.between a isA b isB lt first (.inl oldFirst) second (.inl oldSecond) hopIndex
        payload payload'
    | inr added =>
      cases added with
      | transmission _ _ onLink => exact absurd onLink (not_both ⟨_, payload'⟩)
      | arrival hop fresh _ found _ _ onRoute isService arrival priority timestamp =>
        rw [payload'] at arrival
        cases arrival
        -- the first chunk was there before, so it is due no later
        obtain ⟨record, isRecord, sameRoute, _⟩ := line.abreast.sent a isA
        obtain ⟨other, isOther, sameRoute', _⟩ := line.abreast.sent b isB
        rw [found] at isOther
        cases isOther
        have due := punctual.due first (.inl oldFirst) a hop record _ _ payload isRecord
          (by rw [sameRoute, ← sameRoute']; exact onRoute) isService
        apply key_lt
        · rw [timestamp]
          exact due
        · rw [priority, punctual.arrivals first (.inl oldFirst) a ⟨_, payload⟩]
        · exact IdGenerator.lt_of_not_issued (inv.valid.issued first oldFirst.1) fresh
  | inr added =>
    cases added with
    | transmission _ _ onLink => exact absurd onLink (not_both ⟨_, payload⟩)
    | arrival hop _ cause found state isHop _ _ arrival =>
      rw [payload] at arrival
      cases arrival
      cases dispatched.live_or inv isSecond with
      | inl oldSecond =>
        -- the second chunk would have left the link before the first
        obtain ⟨record, isRecord, alive, progress⟩ :=
          progress_of_arrival inv (expected oldSecond) payload'
        have behind := line.abreast.progress a isA b isB lt _ record found isRecord
          (by simp [ChunkRecord.alive, state]) alive
        have atLink : ∀ {earlier : ChunkRecord}, earlier.state = .admitted →
            earlier.hopIndex = hop → earlier.progress = 2 * hop + 1 := by
          intro earlier state isHop
          simp [ChunkRecord.progress, state, isHop]
        rw [progress, atLink state isHop] at behind
        omega
      | inr added =>
        cases added with
        | transmission _ _ onLink => exact absurd onLink (not_both ⟨_, payload'⟩)
        | arrival _ _ cause' _ _ _ _ _ arrival' =>
          rw [payload'] at arrival'
          cases arrival'
          rw [cause, EventPayload.transmissionComplete.injEq,
            TransmissionCompleteEvent.mk.injEq] at cause'
          exact absurd cause'.2.1 (ne_of_lt lt)

end Between

/-! ## At the links -/

section Queues

variable {column : Set ChunkId} {route : List DirectedLinkId} {d : Drive} {event : Event}
  {n' : Network}

/-- One link changes its queue. -/
theorem pairwise_update {held : DirectedLinkId → List TransferChunk} {link : DirectedLinkId}
    {queue : List TransferChunk} (queues : ∀ link, (held link).Pairwise (Orderly column))
    (here : queue.Pairwise (Orderly column)) :
    ∀ other, (Function.update held link queue other).Pairwise (Orderly column) := by
  intro other
  by_cases same : other = link
  · subst same
    rwa [Function.update_self]
  · rw [Function.update_of_ne same]
    exact queues other

/-- A chunk joins the queue of a link behind the chunks ahead of it. -/
theorem InLine.orderly_last (line : InLine column route d) {chunk : ChunkId}
    {record : ChunkRecord} (arriving : Network.Arriving d.taken d.network event chunk record)
    (link : DirectedLinkId) {x : TransferChunk}
    (isHeld : x ∈ heldBy d.network.transport.services link) {copy : TransferChunk}
    (isCopy : copy.id = chunk) (isHop : copy.hopIndex = record.hopIndex) :
    Orderly column x copy := by
  intro isX member sameHop
  rw [isCopy] at member ⊢
  obtain ⟨first, found, state, _, _, _, _, same⟩ := arriving.inv.placement.holding isHeld
  by_contra notBefore
  have differs : x.id ≠ chunk := by
    intro same
    have place : (link, x) ∈ holders (heldBy d.network.transport.services) chunk := ⟨isHeld, same⟩
    rw [arriving.apart] at place
    exact place
  have after : chunk < x.id := lt_of_le_of_ne (not_lt.mp notBefore) differs.symm
  have behind := line.abreast.progress chunk member x.id isX after record first arriving.found found
    (by simp [ChunkRecord.alive, arriving.state]) (by simp [ChunkRecord.alive, state])
  simp only [ChunkRecord.progress, arriving.state, state] at behind
  rw [← same.hop, sameHop, isHop] at behind
  omega

theorem InLine.queues_arrives (line : InLine column route d)
    (arrives : Network.Arrives d.taken d.network event n') :
    ∀ link, (heldBy n'.transport.services link).Pairwise (Orderly column) := by
  cases arrives with
  | delivered _ _ leaves =>
    obtain ⟨transfers, completions, transport⟩ := leaves.transport
    rw [transport]
    exact line.queues
  | blocked statistics enters _ leaves =>
    obtain ⟨transfers, completions, transport⟩ := leaves.transport
    rw [transport]
    simp only [(Restated.insert enters.isService statistics).heldBy_eq]
    exact line.queues
  | @started _ _ link _ _ _ enters _ idle _ _ leaves =>
    obtain ⟨transfers, completions, transport⟩ := leaves.transport
    have runs := enters.arriving.inv.running link
    rw [enters.isService] at runs
    rw [transport]
    simp only [heldBy_insert, DirectedLinkQueue.held, (runs.of_idle idle).1]
    exact pairwise_update line.queues (by simp)
  | @queued chunk record link service _ enters _ _ _ leaves =>
    obtain ⟨transfers, completions, transport⟩ := leaves.transport
    have held : heldBy d.network.transport.services link = service.queue.held := by
      simp [heldBy, enters.isService]
    rw [transport]
    simp only [heldBy_insert]
    refine pairwise_update line.queues ?_
    simp only [DirectedLinkQueue.held, DirectedLinkQueue.enqueued]
    rw [← List.append_assoc, ← DirectedLinkQueue.held, ← held, List.pairwise_append]
    refine ⟨line.queues link, by simp, ?_⟩
    intro x isHeld copy isCopy
    rw [List.mem_singleton] at isCopy
    subst isCopy
    refine line.orderly_last enters.arriving link isHeld ?_ rfl
    exact (enters.arriving.inv.routed _ _ enters.arriving.found).id
  | rejected enters _ _ _ leaves =>
    obtain ⟨transfers, completions, transport⟩ := leaves.transport
    rw [transport]
    simp only [(Restated.insert enters.isService _).heldBy_eq]
    exact line.queues

theorem InLine.queues_completes (line : InLine column route d)
    (completes : Network.Completes d.taken d.network event n') :
    ∀ link, (heldBy n'.transport.services link).Pairwise (Orderly column) := by
  cases completes with
  | idled _ _ _ _ _ _ leaves =>
    obtain ⟨transfers, completions, transport⟩ := leaves.transport
    rw [transport]
    simp only [heldBy_insert]
    exact pairwise_update line.queues (by simp [DirectedLinkQueue.held])
  | @advanced link service active next rest record _ _ _ _ completing waiting _ _ _ _ _ leaves =>
    obtain ⟨transfers, completions, transport⟩ := leaves.transport
    have held : heldBy d.network.transport.services link = active :: next :: rest := by
      simp [heldBy, completing.isService, DirectedLinkQueue.held, completing.inService, waiting]
    have orderly := line.queues link
    rw [held] at orderly
    rw [transport]
    simp only [heldBy_insert]
    exact pairwise_update line.queues orderly.of_cons

theorem InLine.queues_dispatched (line : InLine column route d)
    (dispatched : Dispatched d.taken event d.network n') :
    ∀ link, (heldBy n'.transport.services link).Pairwise (Orderly column) := by
  cases dispatched with
  | passed _ => exact line.queues
  | arrived arrives => exact line.queues_arrives arrives
  | completed completes => exact line.queues_completes completes
  | @changed _ graph given _ reconciled =>
    intro link
    by_cases gives : link ∈ given
    · rw [reconciled.heldBy_given gives]
      exact .nil
    · rw [reconciled.heldBy_kept gives]
      exact line.queues link

end Queues

/-! ## Steps -/

section Steps

variable {column : Set ChunkId} {route : List DirectedLinkId} {d d' : Drive} {event : Event}
  {n' : Network}

theorem InLine.abreast_arrives (line : InLine column route d) (foremost : Foremost d)
    (isAwaited : d.awaiting = some event)
    (arrives : Network.Arrives d.taken d.network event n') :
    Abreast column route n'.transport.chunks := by
  -- a chunk that stays alive comes one stage further, and those ahead of it are there already
  have further : ∀ {chunk : ChunkId} {record record' : ChunkRecord},
      Network.Arriving d.taken d.network event chunk record →
      record'.progress = 2 * record.hopIndex + 1 →
      (chunk ∈ column → record'.alive = true → record.alive = true ∧
        record.progress ≤ record'.progress ∧ ∀ a ∈ column, a < chunk → ∀ first,
          d.network.transport.chunks.find? a = some first → first.alive = true →
          record'.progress ≤ first.progress) := by
    intro chunk record record' arriving progress member _
    refine ⟨by simp [ChunkRecord.alive, arriving.state], ?_, ?_⟩
    · simp [ChunkRecord.progress, arriving.state] at progress ⊢
      omega
    · intro a isA lt first found alive
      rw [progress]
      exact line.behind_of_arriving foremost isAwaited arriving member isA lt found alive
  cases arrives with
  | delivered arriving last leaves =>
    obtain ⟨transfers, completions, transport⟩ := leaves.transport
    rw [transport]
    refine line.abreast.insert arriving.found rfl (by simp) (further arriving ?_)
    simp [ChunkRecord.progress, last]
  | blocked _ enters _ leaves =>
    obtain ⟨transfers, completions, transport⟩ := leaves.transport
    rw [transport]
    refine line.abreast.insert enters.arriving.found rfl (by simp) (fun _ alive => ?_)
    simp [ChunkRecord.alive] at alive
  | started _ enters _ _ _ _ leaves =>
    obtain ⟨transfers, completions, transport⟩ := leaves.transport
    rw [transport]
    refine line.abreast.insert enters.arriving.found rfl (by simp [Network.answered])
      (further enters.arriving ?_)
    simp [ChunkRecord.progress, Network.answered, Network.entering]
  | queued enters _ _ _ leaves =>
    obtain ⟨transfers, completions, transport⟩ := leaves.transport
    rw [transport]
    refine line.abreast.insert enters.arriving.found rfl (by simp [Network.answered])
      (further enters.arriving ?_)
    simp [ChunkRecord.progress, Network.answered, Network.entering]
  | rejected enters _ _ _ leaves =>
    obtain ⟨transfers, completions, transport⟩ := leaves.transport
    rw [transport]
    refine line.abreast.insert enters.arriving.found rfl (by simp [Network.answered])
      (fun _ alive => ?_)
    simp [ChunkRecord.alive, Network.answered] at alive

theorem InLine.abreast_completes (line : InLine column route d)
    (completes : Network.Completes d.taken d.network event n') :
    Abreast column route n'.transport.chunks := by
  have further : ∀ {link service active record} (arrival : EventId),
      Network.Completing d.taken d.network event link service active record →
      Abreast column route (d.network.transport.chunks.insert active.id
        (Network.departing record active arrival)) := by
    intro link service active record arrival completing
    have progress : (Network.departing record active arrival).progress =
        2 * record.hopIndex + 2 := by
      simp [ChunkRecord.progress, Network.departing, completing.nextHop.1, Nat.mul_add]
    refine line.abreast.insert completing.found rfl (by simp [Network.departing]) ?_
    intro member _
    refine ⟨by simp [ChunkRecord.alive, completing.state], ?_, ?_⟩
    · rw [progress]
      simp [ChunkRecord.progress, completing.state]
    · intro a isA lt first found alive
      rw [progress]
      exact line.behind_of_completing completing member isA lt found alive
  cases completes with
  | idled _ _ completing _ _ _ leaves =>
    obtain ⟨transfers, completions, transport⟩ := leaves.transport
    rw [transport]
    exact further _ completing
  | advanced _ _ _ _ completing _ _ _ _ _ _ leaves =>
    obtain ⟨transfers, completions, transport⟩ := leaves.transport
    rw [transport]
    exact further _ completing

/-- A state change takes chunks out of the column. -/
theorem InLine.abreast_changed (line : InLine column route d) {graph : TopologyGraph}
    {given : Set DirectedLinkId}
    (reconciled : Network.Reconciled given { d.network with graph } n')
    (grows : Grows ChunkRecord.Becomes d.network.transport.chunks n'.transport.chunks) :
    Abreast column route n'.transport.chunks := by
  refine line.abreast.thinned fun chunk member => ?_
  by_cases held : ∃ link ∈ given, ∃ copy ∈ heldBy d.network.transport.services link,
      copy.id = chunk
  · obtain ⟨link, gives, copy, isHeld, same⟩ := held
    obtain ⟨record', found', state⟩ := reconciled.dropped link gives copy isHeld
    obtain ⟨record, found, _⟩ := line.abreast.sent chunk member
    obtain ⟨after, isAfter, becomes⟩ := grows chunk record found
    rw [same] at found'
    rw [found'] at isAfter
    cases isAfter
    exact .inr ⟨record, record', found, found', becomes.route, state⟩
  · refine .inl (reconciled.untouched chunk ?_)
    intro link gives copy isHeld same
    exact held ⟨link, gives, copy, isHeld, same⟩

theorem InLine.abreast_dispatched (line : InLine column route d) (foremost : Foremost d)
    (isAwaited : d.awaiting = some event) (dispatched : Dispatched d.taken event d.network n')
    (grows : Grows ChunkRecord.Becomes d.network.transport.chunks n'.transport.chunks) :
    Abreast column route n'.transport.chunks := by
  cases dispatched with
  | passed _ => exact line.abreast
  | arrived arrives => exact line.abreast_arrives foremost isAwaited arrives
  | completed completes => exact line.abreast_completes completes
  | changed _ reconciled => exact line.abreast_changed reconciled grows

/-- No step lets a chunk of the column pass another. -/
theorem Effect.inLine (effect : Effect d d')
    (follows : Follows d'.awaiting d'.taken d.network d'.network)
    (inv : Invariant d.awaiting d.taken d.network) (punctual : Punctual d) (foremost : Foremost d)
    (line : InLine column route d) : InLine column route d' := by
  cases effect with
  | quiet awaiting quiet =>
    have same : ∀ chunk ∈ column, d'.network.transport.chunks.find? chunk =
        d.network.transport.chunks.find? chunk := by
      intro chunk member
      obtain ⟨record, found, _, moved⟩ := line.abreast.sent chunk member
      rw [found]
      exact quiet.chunks chunk record found moved
    have before : ∀ chunk ∈ column, ∀ event ∈ outstanding d'.network.kernel.sim d'.awaiting,
        ∀ hopIndex, event.payload = .chunkArrival ⟨chunk, hopIndex⟩ →
        event ∈ outstanding d.network.kernel.sim d.awaiting := by
      intro chunk member event isOutstanding hopIndex payload
      cases isOutstanding with
      | inr isAwaited => exact .inr (awaiting ▸ isAwaited)
      | inl live =>
        cases quiet.arrivals event (by simp [payload, ownPayload]) live with
        | inl live => exact .inl live
        | inr added =>
          obtain ⟨_, other, isOther, _, _, unsent⟩ := added
          rw [payload] at isOther
          cases isOther
          obtain ⟨record, found, _, moved⟩ := line.abreast.sent chunk member
          exact absurd (unsent record found) moved
    refine ⟨line.abreast.thinned fun chunk member => .inl (same chunk member), ?_, ?_⟩
    · intro a isA b isB lt first isFirst second isSecond hopIndex payload payload'
      exact line.between a isA b isB lt first (before a isA first isFirst hopIndex payload) second
        (before b isB second isSecond hopIndex payload') hopIndex payload payload'
    · rw [quiet.services]
      exact line.queues
  | began event idle isAwaited began =>
    have events : outstanding d'.network.kernel.sim d'.awaiting =
        outstanding d.network.kernel.sim d.awaiting := by
      rw [isAwaited, idle]
      rw [idle] at inv
      exact outstanding_started inv.valid began.started
    refine ⟨began.transport ▸ line.abreast, ?_, began.transport ▸ line.queues⟩
    rw [events]
    exact line.between
  | dispatched event isAwaited idle dispatched =>
    rw [isAwaited] at inv
    constructor
    · exact line.abreast_dispatched foremost isAwaited dispatched follows.chunks
    · intro a isA b isB lt first isFirst second isSecond hopIndex payload payload'
      rw [idle, outstanding_none] at isFirst isSecond
      exact line.between_dispatched punctual inv dispatched isA isB lt isFirst isSecond payload
        payload'
    · exact line.queues_dispatched dispatched

theorem InLine.steps (line : InLine column route d) (reachable : Reachable d)
    (steps : Relation.ReflTransGen Step d d') : InLine column route d' := by
  obtain ⟨start, initial, before⟩ := reachable
  induction steps with
  | refl => exact line
  | tail between step ih =>
    have here : Reachable _ := ⟨start, initial, before.trans between⟩
    obtain ⟨follows, effect⟩ := step.effect here.invariant
    exact effect.inLine follows here.invariant here.punctual here.foremost ih

end Steps

/-! ## Deliveries -/

section Deliveries

variable {d d' : Drive} {chunk : ChunkId}

def Delivered (chunk : ChunkId) (d : Drive) : Prop :=
  ∃ record, d.network.transport.chunks.find? chunk = some record ∧ record.state = .delivered

/-- The step dispatches the event with which a chunk is delivered. -/
structure Delivers (chunk : ChunkId) (d d' : Drive) : Prop where
  step : Step d d'
  event : ∃ event, d.awaiting = some event ∧ d'.awaiting = none ∧ ArrivalOf chunk event.payload
  pending : ¬ Delivered chunk d
  delivered : Delivered chunk d'

/-- In a dispatch, only the chunk that arrives can be delivered. -/
theorem Dispatched.arrivalOf_delivered {taken : List TransferCompletion} {event : Event}
    {n n' : Network} (dispatched : Dispatched taken event n n') {record : ChunkRecord}
    (found : n'.transport.chunks.find? chunk = some record) (delivered : record.state = .delivered)
    (pending : ∀ before, n.transport.chunks.find? chunk = some before →
      before.state ≠ .delivered) : ArrivalOf chunk event.payload := by
  have inserted : ∀ {sim : Simulation} {other : ChunkId} {record' : ChunkRecord}
      {services : OrderedMap DirectedLinkId DirectedLinkService},
      Network.Leaves n sim (n.transport.chunks.insert other record') services n' →
      chunk = other ∧ record'.state = .delivered := by
    intro sim other record' services leaves
    obtain ⟨transfers, completions, transport⟩ := leaves.transport
    rw [transport] at found
    by_cases same : chunk = other
    · subst same
      simp only [OrderedMap.find?_insert_self, Option.some.injEq] at found
      exact ⟨rfl, found ▸ delivered⟩
    · rw [OrderedMap.find?_insert_of_ne _ _ same] at found
      exact absurd delivered (pending record found)
  cases dispatched with
  | passed _ => exact absurd delivered (pending record found)
  | arrived arrives =>
    cases arrives with
    | delivered arriving _ leaves => exact (inserted leaves).1 ▸ ⟨_, arriving.payload⟩
    | blocked _ _ _ leaves => cases (inserted leaves).2
    | started _ _ _ _ _ _ leaves => cases (inserted leaves).2
    | queued _ _ _ _ leaves => cases (inserted leaves).2
    | rejected _ _ _ _ leaves => cases (inserted leaves).2
  | completed completes =>
    cases completes with
    | idled _ _ _ _ _ _ leaves => cases (inserted leaves).2
    | advanced _ _ _ _ _ _ _ _ _ _ _ leaves => cases (inserted leaves).2
  | @changed _ graph given _ reconciled =>
    by_cases held : ∃ link ∈ given, ∃ copy ∈ heldBy n.transport.services link, copy.id = chunk
    · obtain ⟨link, gives, copy, isHeld, same⟩ := held
      obtain ⟨record', found', state⟩ := reconciled.dropped link gives copy isHeld
      rw [same, found] at found'
      cases found'
      rw [delivered] at state
      cases state
    · rw [reconciled.untouched chunk] at found
      · exact absurd delivered (pending record found)
      · intro link gives copy isHeld same
        exact held ⟨link, gives, copy, isHeld, same⟩

/-- A chunk that has set out is delivered in the dispatch of its arrival. -/
theorem Step.delivers (step : Step d d') (reachable : Reachable d)
    (sent : ∃ record, d.network.transport.chunks.find? chunk = some record ∧
      record.state ≠ .registered)
    (pending : ¬ Delivered chunk d) (delivered : Delivered chunk d') : Delivers chunk d d' := by
  have effect := (step.effect reachable.invariant).2
  refine ⟨step, ?_, pending, delivered⟩
  obtain ⟨record, found, state⟩ := delivered
  cases effect with
  | quiet _ quiet =>
    obtain ⟨before, isBefore, moved⟩ := sent
    have same := quiet.chunks chunk before isBefore moved
    rw [found] at same
    cases same
    exact absurd ⟨record, isBefore, state⟩ pending
  | began _ _ _ began =>
    rw [began.transport] at found
    exact absurd ⟨record, found, state⟩ pending
  | dispatched event isAwaited idle dispatched =>
    refine ⟨event, isAwaited, idle, dispatched.arrivalOf_delivered found state ?_⟩
    intro before isBefore isDelivered
    exact pending ⟨before, isBefore, isDelivered⟩

/-- A chunk that was not delivered at first and is delivered in the end was delivered in between. -/
theorem delivers_between (reachable : Reachable d)
    (sent : ∃ record, d.network.transport.chunks.find? chunk = some record ∧
      record.state ≠ .registered)
    (steps : Relation.ReflTransGen Step d d') (pending : ¬ Delivered chunk d)
    (delivered : Delivered chunk d') :
    ∃ before after, Relation.ReflTransGen Step d before ∧ Delivers chunk before after ∧
      Relation.ReflTransGen Step after d' := by
  obtain ⟨start, initial, earlier⟩ := reachable
  induction steps with
  | refl => exact absurd delivered pending
  | @tail middle last between step ih =>
    by_cases already : Delivered chunk middle
    · obtain ⟨before, after, first, delivers, rest⟩ := ih already
      exact ⟨before, after, first, delivers, rest.tail step⟩
    · obtain ⟨record, found, moved⟩ := sent
      obtain ⟨record', found', becomes⟩ :=
        grows_of_steps ⟨start, initial, earlier⟩ between chunk record found
      exact ⟨middle, last, between, step.delivers ⟨start, initial, earlier.trans between⟩
        ⟨record', found', becomes.submitted moved⟩ already delivered, .refl⟩

end Deliveries

/-! ## Transfers -/

section Transfers

variable {d : Drive} {request : TransferRequest} {submitted : SubmittedTransfer} {n : Network}

/-- The chunks of a submitted transfer. -/
def columnOf (submitted : SubmittedTransfer) : Set ChunkId :=
  { id | ∃ (ordinal : Nat) (chunk : SubmittedChunk), submitted.chunks[ordinal]? = some chunk ∧
    chunk.id = id }

/-- A submitted transfer sets out in a column. -/
theorem inLine_of_accepted (inv : Invariant d.awaiting d.taken d.network)
    (accepted : Network.Accepted d.network request submitted n) :
    InLine (columnOf submitted) request.route { d with network := n } := by
  have unknown : ∀ id ∈ columnOf submitted, d.network.transport.chunks.find? id = none := by
    intro id member
    obtain ⟨ordinal, chunk, listed, rfl⟩ := member
    exact accepted.newChunks chunk (List.mem_of_getElem? listed)
  -- the arrivals of the new chunks are the ones that were just scheduled
  have first : ∀ id ∈ columnOf submitted, ∀ event ∈ outstanding n.kernel.sim d.awaiting,
      ∀ hopIndex, event.payload = .chunkArrival ⟨id, hopIndex⟩ → ∃ ordinal,
        id.value = d.network.transport.chunkIds.nextValue + ordinal ∧
        event = Network.firstArrival d.network.kernel.sim ordinal id := by
    intro id member event isOutstanding hopIndex payload
    have notBefore : event ∉ outstanding d.network.kernel.sim d.awaiting := by
      intro before
      obtain ⟨record, found, _⟩ := inv.placement.arriving before payload
      rw [unknown id member] at found
      cases found
    cases isOutstanding with
    | inr isAwaited => exact absurd (.inr isAwaited) notBefore
    | inl live =>
      cases (accepted.live event).mp live with
      | inl before => exact absurd (.inl before) notBefore
      | inr added =>
        obtain ⟨ordinal, chunk, listed, isFirst⟩ := added
        have same : chunk.id = id := by
          rw [isFirst] at payload
          cases payload
          rfl
        exact ⟨ordinal, same ▸ accepted.value_at listed, same ▸ isFirst⟩
  refine ⟨⟨?_, ?_⟩, ?_, ?_⟩
  · intro id member
    obtain ⟨ordinal, chunk, listed, rfl⟩ := member
    exact ⟨_, accepted.chunks ordinal chunk listed, rfl, by simp [Network.sentRecord]⟩
  · intro a isA b isB _ first second isFirst isSecond _ _
    obtain ⟨ordinal, chunk, listed, rfl⟩ := isA
    obtain ⟨ordinal', chunk', listed', rfl⟩ := isB
    have isFirst' := accepted.chunks ordinal chunk listed
    have isSecond' := accepted.chunks ordinal' chunk' listed'
    rw [isFirst] at isFirst'
    rw [isSecond] at isSecond'
    cases isFirst'
    cases isSecond'
    exact le_refl _
  · intro a isA b isB lt one isOne two isTwo hopIndex payload payload'
    obtain ⟨ordinal, value, rfl⟩ := first a isA one isOne hopIndex payload
    obtain ⟨ordinal', value', rfl⟩ := first b isB two isTwo hopIndex payload'
    have ordered : a.value < b.value := lt
    refine key_lt (le_refl _) (le_refl _) ?_
    simp only [Network.firstArrival]
    omega
  · intro link
    rw [accepted.services]
    refine List.pairwise_of_forall_mem_list fun x isX y _ => ?_
    intro member _ _
    obtain ⟨record, found, _⟩ := inv.placement.holding isX
    rw [unknown x.id member] at found
    cases found

end Transfers

/-- A chunk of a column that is not behind a delivered one is delivered. -/
theorem InLine.delivered {column : Set ChunkId} {route : List DirectedLinkId} {d : Drive}
    (line : InLine column route d) (inv : Invariant d.awaiting d.taken d.network) {a b : ChunkId}
    (isA : a ∈ column) (isB : b ∈ column) (lt : a < b) {first : ChunkRecord}
    (found : d.network.transport.chunks.find? a = some first) (alive : first.alive = true)
    (delivered : Delivered b d) : first.state = .delivered := by
  obtain ⟨second, isSecond, state⟩ := delivered
  have behind := line.abreast.progress a isA b isB lt first second found isSecond alive
    (by simp [ChunkRecord.alive, state])
  obtain ⟨record, isRecord, onRoute, _⟩ := line.abreast.sent a isA
  rw [found] at isRecord
  cases isRecord
  obtain ⟨record, isRecord, onRoute', _⟩ := line.abreast.sent b isB
  rw [isSecond] at isRecord
  cases isRecord
  have hop := (inv.routed a first found).hop
  simp only [ChunkRecord.progress, state, onRoute'] at behind
  rw [onRoute] at hop
  cases isState : first.state <;> simp only [isState] at behind
  case delivered => rfl
  case admitted =>
    have placed := inv.placement.placed a
    rw [found] at placed
    obtain ⟨link, copy, isLink, _⟩ := placed.of_admitted isState
    have inRange := (List.getElem?_eq_some_iff.mp isLink).1
    rw [onRoute] at inRange
    omega
  all_goals first | omega | simp [ChunkRecord.alive, isState] at alive

/-- The chunks of a submitted transfer that are delivered are delivered in order.  In any run on
from the submission, when the later one of two chunks is delivered and the earlier one is ever
delivered, the earlier one has been delivered before. -/
theorem in_order_delivery (d : Drive) (reachable : Reachable d) (request : TransferRequest)
    (fits : request.bytes ≤ maxU64) (submitted : SubmittedTransfer) (n : Network)
    (ok : Network.submitTransfer request d.network = .ok submitted n) (i j : Nat) (lt : i < j)
    (first second : SubmittedChunk) (isFirst : submitted.chunks[i]? = some first)
    (isSecond : submitted.chunks[j]? = some second) (before after last : Drive)
    (steps : Relation.ReflTransGen Step { d with network := n } before)
    (delivers : Delivers second.id before after) (rest : Relation.ReflTransGen Step after last)
    (both : Delivered first.id last) :
    ∃ earlier next, Relation.ReflTransGen Step { d with network := n } earlier ∧
      Delivers first.id earlier next ∧ Relation.ReflTransGen Step next before := by
  have accepted := accepted_of_ok reachable fits ok
  have line := inLine_of_accepted reachable.invariant accepted
  obtain ⟨start, initial, run⟩ := reachable
  have submits : Reachable { d with network := n } :=
    ⟨start, initial, run.tail (step_submitted ok)⟩
  have delivering : Reachable before := ⟨start, initial, (run.tail (step_submitted ok)).trans steps⟩
  have isColumn : first.id ∈ columnOf submitted := ⟨i, first, isFirst, rfl⟩
  have isColumn' : second.id ∈ columnOf submitted := ⟨j, second, isSecond, rfl⟩
  have ordered : first.id < second.id := by
    rw [StrongId.lt_iff, accepted.value_at isFirst, accepted.value_at isSecond]
    exact Nat.add_lt_add_left lt _
  have reached : Reachable after :=
    ⟨start, initial, ((run.tail (step_submitted ok)).trans steps).tail delivers.step⟩
  have afterLine := line.steps submits (steps.tail delivers.step)
  obtain ⟨record, found, _, moved⟩ := afterLine.abreast.sent first.id isColumn
  -- a chunk that has dropped out stays out, so the first one has arrived when the second does
  have arrived : Delivered first.id after := by
    obtain ⟨final, isFinal, delivered⟩ := both
    obtain ⟨record', found', becomes⟩ := grows_of_steps reached rest first.id record found
    rw [isFinal] at found'
    cases found'
    have alive : record.alive = true := by
      cases isState : record.state with
      | registered => exact absurd isState moved
      | awaitingArrival => simp [ChunkRecord.alive, isState]
      | admitted => simp [ChunkRecord.alive, isState]
      | delivered => simp [ChunkRecord.alive, isState]
      | droppedBufferFull =>
        have same := becomes.absorbing (by simp [isState, ChunkTransitState.terminal])
        simp [delivered, isState] at same
      | droppedLinkDown =>
        have same := becomes.absorbing (by simp [isState, ChunkTransitState.terminal])
        simp [delivered, isState] at same
    exact ⟨record, found, afterLine.delivered reached.invariant isColumn isColumn' ordered found
      alive delivers.delivered⟩
  -- and not in the same step
  have already : Delivered first.id before := by
    by_contra pending
    obtain ⟨old, isOld, _, sent⟩ := (line.steps submits steps).abreast.sent first.id isColumn
    obtain ⟨event, isAwaited, _, arrival⟩ :=
      (delivers.step.delivers delivering ⟨old, isOld, sent⟩ pending arrived).event
    obtain ⟨event', isAwaited', _, arrival'⟩ := delivers.event
    rw [isAwaited] at isAwaited'
    cases isAwaited'
    exact absurd (arrivalOf_inj arrival arrival') (ne_of_lt ordered)
  refine delivers_between submits ⟨_, accepted.chunks i first isFirst, by simp [Network.sentRecord]⟩
    steps ?_ already
  intro delivered
  obtain ⟨now, isNow, state⟩ := delivered
  have isSent := accepted.chunks i first isFirst
  rw [isNow] at isSent
  cases isSent
  cases state

def stateOf (d : Drive) (chunk : ChunkId) : Option ChunkTransitState :=
  (d.network.transport.chunks.find? chunk).map ChunkRecord.state

theorem delivered_iff_stateOf {d : Drive} {chunk : ChunkId} :
    Delivered chunk d ↔ stateOf d chunk = some .delivered := by
  simp [Delivered, stateOf, Option.map_eq_some_iff]

/-- Two chunks travel over one link, until the second one is about to be delivered. -/
def travellingMoves : List Move :=
  .run :: (List.replicate 5 [.start, .handle, .conclude]).flatten ++ [.start]

theorem travelling_runs : (match Network.submitTransfer joinedRequest joinedDrive.network with
    | .ok submitted n =>
      match Drive.replay travellingMoves { joinedDrive with network := n } with
      | some before =>
        match before.play .handle with
        | some after => submitted.chunks.map SubmittedChunk.id == [⟨0⟩, ⟨1⟩] &&
            before.awaiting.map Event.payload == some (.chunkArrival ⟨⟨1⟩, 1⟩) &&
            after.awaiting == none && stateOf before ⟨1⟩ == some .awaitingArrival &&
            stateOf after ⟨1⟩ == some .delivered && stateOf after ⟨0⟩ == some .delivered
        | none => false
      | none => false
    | .error _ _ => false) = true := by decide +kernel

theorem in_order_delivery_two_chunks : ∃ submitted n before after,
    Network.submitTransfer joinedRequest joinedDrive.network = .ok submitted n ∧
      submitted.chunks.map SubmittedChunk.id = [⟨0⟩, ⟨1⟩] ∧ Delivers ⟨1⟩ before after ∧
      ∃ earlier next, Relation.ReflTransGen Step { joinedDrive with network := n } earlier ∧
        Delivers ⟨0⟩ earlier next ∧ Relation.ReflTransGen Step next before := by
  have runs := travelling_runs
  have start : Reachable joinedDrive := ⟨joinedDrive, joinedDrive_initial, .refl⟩
  split at runs
  · rename_i submitted n ok
    split at runs
    · rename_i before played
      split at runs
      · rename_i after handled
        simp only [Bool.and_eq_true, beq_iff_eq] at runs
        obtain ⟨⟨⟨⟨⟨ids, awaiting⟩, idle⟩, pending⟩, delivered⟩, both⟩ := runs
        obtain ⟨event, isAwaited, payload⟩ := Option.map_eq_some_iff.mp awaiting
        obtain ⟨first, second, isChunks, isFirst, isSecond⟩ : ∃ first second,
            submitted.chunks = [first, second] ∧ first.id = ⟨0⟩ ∧ second.id = ⟨1⟩ := by
          cases isChunks : submitted.chunks with
          | nil => simp [isChunks] at ids
          | cons first rest =>
            cases rest with
            | nil => simp [isChunks] at ids
            | cons second rest =>
              simp only [isChunks, List.map_cons, List.cons.injEq, List.map_eq_nil_iff] at ids
              exact ⟨first, second, by rw [ids.2.2], ids.1, ids.2.1⟩
        have delivers : Delivers ⟨1⟩ before after := by
          refine ⟨Drive.play_step handled, ⟨event, isAwaited, idle, 1, payload⟩, ?_,
            delivered_iff_stateOf.mpr delivered⟩
          rw [delivered_iff_stateOf, pending]
          simp
        refine ⟨submitted, n, before, after, ok, ids, delivers, ?_⟩
        have ordered := in_order_delivery joinedDrive start joinedRequest (by decide) submitted n ok
          0 1 (by decide) first second (by simp [isChunks]) (by simp [isChunks]) before after after
          (Drive.replay_steps played) (isSecond ▸ delivers) .refl
          (isFirst ▸ delivered_iff_stateOf.mpr both)
        rwa [isFirst] at ordered
      · cases runs
    · cases runs
  · cases runs

end NexusLab.Transport
