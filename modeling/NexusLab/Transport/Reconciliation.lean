import NexusLab.Transport.Drive

/-! # What failures leave behind

A link event drains the two arcs of its link, a port or switch event sweeps every service.  Between
them no arc that is not operational ever holds a chunk or waits for a transmission to complete,
whatever failures and recoveries overlap; what a failure dropped is gone for good, a recovery moves
nothing, and an arc that stays operational does not notice. -/

namespace NexusLab.Transport

open Foundation Sim NexusLab.Topology

/-- A service with nothing in hand. -/
structure DirectedLinkService.Empty (service : DirectedLinkService) : Prop where
  active : service.queue.active = none
  waiting : service.queue.waiting = []
  scheduledCompletion : service.scheduledCompletion = none

theorem DirectedLinkService.Empty.held {service : DirectedLinkService} (empty : service.Empty) :
    service.queue.held = [] := by
  simp [DirectedLinkQueue.held, empty.active, empty.waiting]

theorem DirectedLinkService.empty_emptied (service : DirectedLinkService)
    (statistics : LinkStatistics) : (service.emptied statistics).Empty := ⟨rfl, rfl, rfl⟩

/-- Every configured arc that is not operational is empty. -/
def Clear (n : Network) : Prop :=
  ∀ link service arc, n.transport.services.find? link = some service →
    requireFabricArc n.graph link = .ok arc → n.graph.isOperational arc = false → service.Empty

theorem requireFabricArc_id {graph : TopologyGraph} {link : DirectedLinkId} {arc : DirectedLink}
    (isArc : requireFabricArc graph link = .ok arc) : arc.id = link := by
  unfold requireFabricArc at isArc
  cases found : graph.findLink link.link with
  | none => simp [found] at isArc
  | some physical =>
    obtain ⟨_, id⟩ := findDense_eq_some.mp found
    simp only [found] at isArc
    split at isArc
    · cases isArc
      obtain ⟨physicalId, direction⟩ := link
      cases direction <;> simpa [PhysicalLink.directed] using id
    · cases isArc

section Steps

variable {n n' : Network} {taken : List TransferCompletion} {event : Event}

/-- One service changes, and it is empty if it must be. -/
theorem Clear.insert {sim : Simulation} {chunks : OrderedMap ChunkId ChunkRecord}
    {link : DirectedLinkId} {service' : DirectedLinkService} (clear : Clear n)
    (here : ∀ arc, requireFabricArc n.graph link = .ok arc → n.graph.isOperational arc = false →
      service'.Empty)
    (leaves : Network.Leaves n sim chunks (n.transport.services.insert link service') n') :
    Clear n' := by
  obtain ⟨transfers, completions, transport⟩ := leaves.transport
  intro other service arc found isArc down
  rw [transport] at found
  rw [leaves.graph] at isArc down
  by_cases same : other = link
  · subst same
    simp only [OrderedMap.find?_insert_self, Option.some.injEq] at found
    exact found ▸ here arc isArc down
  · rw [OrderedMap.find?_insert_of_ne _ _ same] at found
    exact clear other service arc found isArc down

theorem Clear.arrives (clear : Clear n) (arrives : Network.Arrives taken n event n') :
    Clear n' := by
  cases arrives with
  | delivered _ _ leaves =>
    obtain ⟨transfers, completions, transport⟩ := leaves.transport
    intro link service arc found isArc down
    rw [transport] at found
    rw [leaves.graph] at isArc down
    exact clear link service arc found isArc down
  | blocked _ enters _ leaves =>
    refine clear.insert (fun arc isArc down => ?_) leaves
    obtain ⟨active, waiting, completion⟩ := clear _ _ arc enters.isService isArc down
    exact ⟨active, waiting, completion⟩
  | started _ enters up _ _ _ leaves =>
    refine clear.insert (fun arc isArc down => ?_) leaves
    rw [enters.isArc] at isArc
    cases isArc
    simp [up] at down
  | queued enters up _ _ leaves =>
    refine clear.insert (fun arc isArc down => ?_) leaves
    rw [enters.isArc] at isArc
    cases isArc
    simp [up] at down
  | rejected enters _ _ _ leaves =>
    refine clear.insert (fun arc isArc down => ?_) leaves
    obtain ⟨active, waiting, completion⟩ := clear _ _ arc enters.isService isArc down
    exact ⟨active, waiting, completion⟩

/-- A transmission completes on an operational arc only. -/
theorem Clear.completes (clear : Clear n) (completes : Network.Completes taken n event n') :
    Clear n' := by
  have busy : ∀ {link service active record},
      Network.Completing taken n event link service active record →
      ∀ arc, requireFabricArc n.graph link = .ok arc → n.graph.isOperational arc = false →
        False := by
    intro link service active record completing arc isArc down
    have idle := (clear link service arc completing.isService isArc down).active
    rw [completing.inService] at idle
    cases idle
  cases completes with
  | idled _ _ completing _ _ _ leaves =>
    exact clear.insert (fun arc isArc down => (busy completing arc isArc down).elim) leaves
  | advanced _ _ _ _ completing _ _ _ _ _ _ leaves =>
    exact clear.insert (fun arc isArc down => (busy completing arc isArc down).elim) leaves

/-- The arc of a link is the same in every operational state of the graph. -/
theorem Changes.structure_same {payload : EventPayload} {graph : TopologyGraph}
    {given : Set DirectedLinkId} (changes : Changes n payload graph given) :
    TopologyGraph.SameStructure n.graph graph := by
  cases changes with
  | link change _ => exact TopologyGraph.setLinkState_structure _
  | port change => exact TopologyGraph.setPortState_structure _
  | switch change => exact TopologyGraph.setSwitchState_structure _

/-- Whoever does not give up was not operational before, or still is. -/
theorem Changes.spared {payload : EventPayload} {graph : TopologyGraph}
    {given : Set DirectedLinkId} (changes : Changes n payload graph given)
    {link : DirectedLinkId} {service : DirectedLinkService} {arc : DirectedLink}
    (spared : link ∉ given) (found : n.transport.services.find? link = some service)
    (isArc : requireFabricArc graph link = .ok arc) (down : graph.isOperational arc = false) :
    n.graph.isOperational arc = false := by
  have configured : n.transport.services.contains link = true :=
    OrderedMap.contains_iff.mpr ⟨service, found⟩
  have swept : ∀ other, requireFabricArc graph link = .ok other →
      graph.isOperational other = false := by
    intro other isOther
    rw [isArc] at isOther
    cases isOther
    exact down
  cases changes with
  | link change _ =>
    cases before : n.graph.isOperational arc with
    | false => rfl
    | true =>
      have up : (n.graph.setLinkState change.link change.state).2.isOperational arc = true := by
        refine TopologyGraph.isOperational_setLinkState (fun here => ?_) before
        cases isState : change.state with
        | up => rfl
        | down =>
          rw [requireFabricArc_id isArc] at here
          exact absurd ⟨isState, here, configured⟩ spared
      rw [down] at up
      cases up
  | port change => exact absurd ⟨configured, swept⟩ spared
  | switch change => exact absurd ⟨configured, swept⟩ spared

theorem requireFabricArc_same {g g' : TopologyGraph} (same : TopologyGraph.SameStructure g g')
    {link : DirectedLinkId} {arc : DirectedLink} (known : ∃ arc, requireFabricArc g link = .ok arc)
    (isArc : requireFabricArc g' link = .ok arc) : requireFabricArc g link = .ok arc := by
  obtain ⟨before, isBefore⟩ := known
  have after := Network.requireFabricArc_structure same isBefore
  rw [isArc] at after
  cases after
  exact isBefore

theorem Clear.changed (clear : Clear n)
    (arcs : ∀ link service, n.transport.services.find? link = some service →
      ∃ arc, requireFabricArc n.graph link = .ok arc)
    {graph : TopologyGraph} {given : Set DirectedLinkId}
    (changes : Changes n event.payload graph given)
    (reconciled : Network.Reconciled given { n with graph } n') : Clear n' := by
  intro link service arc found isArc down
  rw [reconciled.graph] at isArc down
  by_cases gives : link ∈ given
  · obtain ⟨statistics, after⟩ := reconciled.emptied link gives
    rw [found] at after
    obtain ⟨before, _, isEmptied⟩ := Option.map_eq_some_iff.mp after.symm
    exact isEmptied ▸ before.empty_emptied statistics
  · rw [reconciled.kept link gives] at found
    have isArc' := requireFabricArc_same changes.structure_same (arcs link service found) isArc
    exact clear link service arc found isArc' (changes.spared gives found isArc down)

end Steps

theorem Initial.clear {d : Drive} (initial : Initial d) : Clear d.network := by
  obtain ⟨configurations, limits, created⟩ := initial.created
  obtain ⟨_, unused⟩ := create_ok created
  intro link service arc found _ _
  obtain ⟨_, active, waiting, completion, _⟩ := unused link service found
  exact ⟨active, waiting, completion⟩

/-- No step puts anything on an arc that is not operational, or leaves it there. -/
theorem Effect.clear {d d' : Drive} (effect : Effect d d')
    (inv : Invariant d.awaiting d.taken d.network) (clear : Clear d.network) :
    Clear d'.network := by
  cases effect with
  | quiet _ quiet =>
    intro link service arc found isArc down
    rw [quiet.services] at found
    rw [quiet.graph] at isArc down
    exact clear link service arc found isArc down
  | began event _ _ began =>
    intro link service arc found isArc down
    rw [began.transport] at found
    rw [began.graph] at isArc down
    exact clear link service arc found isArc down
  | dispatched event _ _ dispatched =>
    revert dispatched
    generalize d'.network = n'
    intro dispatched
    cases dispatched with
    | passed _ => exact clear
    | arrived arrives => exact clear.arrives arrives
    | completed completes => exact clear.completes completes
    | changed changes reconciled => exact clear.changed inv.arcs changes reconciled

theorem Reachable.clear {d : Drive} (reachable : Reachable d) : Clear d.network :=
  reachable.induction (fun _ initial => initial.clear)
    (fun _ _ before _ effect _ clear => effect.clear before.invariant clear)

/-! ## Chunks that a failure dropped -/

/-- A chunk that a failure dropped, and that nothing speaks of any more. -/
structure Gone (chunk : ChunkId) (d : Drive) : Prop where
  dropped : ∃ record, d.network.transport.chunks.find? chunk = some record ∧
    record.state = .droppedLinkDown
  queues : ∀ link service, d.network.transport.services.find? link = some service →
    ∀ copy ∈ service.queue.active.toList ++ service.queue.waiting, copy.id ≠ chunk
  arrivals : ∀ event ∈ outstanding d.network.kernel.sim d.awaiting,
    ¬ ArrivalOf chunk event.payload
  transmissions : ∀ event ∈ outstanding d.network.kernel.sim d.awaiting, ∀ link hopIndex direction,
    event.payload ≠ .transmissionComplete ⟨link, chunk, hopIndex, direction⟩

theorem Invariant.gone {d : Drive} (inv : Invariant d.awaiting d.taken d.network)
    {chunk : ChunkId} {record : ChunkRecord}
    (found : d.network.transport.chunks.find? chunk = some record)
    (state : record.state = .droppedLinkDown) : Gone chunk d := by
  have placed := inv.placement.placed chunk
  rw [found] at placed
  obtain ⟨none_arrives, none_holds⟩ := placed.of_terminal (by simp [state, ChunkTransitState.terminal])
  have nowhere : ∀ link copy, copy ∈ heldBy d.network.transport.services link →
      copy.id ≠ chunk := by
    intro link copy held isChunk
    have here : (link, copy) ∈ holders (heldBy d.network.transport.services) chunk :=
      ⟨held, isChunk⟩
    simp [none_holds] at here
  constructor
  · exact ⟨record, found, state⟩
  · intro link service isService copy member
    apply nowhere link
    simpa [heldBy, isService, DirectedLinkQueue.held] using member
  · intro event member arrival
    have here : event ∈ NexusLab.Transport.arrivals
        (outstanding d.network.kernel.sim d.awaiting) chunk := ⟨member, arrival⟩
    simp [none_arrives] at here
  · intro event member link hopIndex direction isPayload
    have payload : event.payload = .transmissionComplete
        ⟨(⟨link, direction⟩ : DirectedLinkId).link, chunk, hopIndex,
          (⟨link, direction⟩ : DirectedLinkId).direction⟩ := isPayload
    obtain ⟨service, active, _, isService, _, inService, _, _, _, isChunk, _⟩ :=
      inv.running.transmitting member payload
    refine nowhere ⟨link, direction⟩ active ?_ isChunk
    simp [heldBy, isService, DirectedLinkQueue.held, inService]

/-- The record of a chunk that a failure dropped says so for ever. -/
theorem gone_for_good {d d' : Drive} (reachable : Reachable d)
    (steps : Relation.ReflTransGen Step d d') {chunk : ChunkId} {record : ChunkRecord}
    (found : d.network.transport.chunks.find? chunk = some record)
    (state : record.state = .droppedLinkDown) : Gone chunk d' := by
  obtain ⟨start, initial, before⟩ := reachable
  induction steps with
  | refl => exact Invariant.gone (Reachable.invariant ⟨start, initial, before⟩) found state
  | @tail middle last steps step ih =>
    have inv : Invariant middle.awaiting middle.taken middle.network :=
      Reachable.invariant ⟨start, initial, before.trans steps⟩
    obtain ⟨record₁, found₁, state₁⟩ := ih.dropped
    have follows := step.follows inv
    obtain ⟨record₂, found₂, becomes⟩ := follows.chunks chunk record₁ found₁
    refine Invariant.gone follows.inv found₂ ?_
    rw [becomes.absorbing (by simp [state₁, ChunkTransitState.terminal]), state₁]

/-! ## Recoveries, arrivals and arcs that stay up -/

/-- What a service has in hand. -/
def DirectedLinkService.inHand (service : DirectedLinkService) :
    Option TransferChunk × List TransferChunk × Option EventId :=
  (service.queue.active, service.queue.waiting, service.scheduledCompletion)

/-- No service has taken or given up anything. -/
def SameHands (n n' : Network) : Prop :=
  ∀ link, (n'.transport.services.find? link).map DirectedLinkService.inHand =
    (n.transport.services.find? link).map DirectedLinkService.inHand

/-- A state change. -/
def changesState : EventPayload → Bool
  | .linkStateChange _ => true
  | .portStateChange _ => true
  | .switchStateChange _ => true
  | _ => false

/-- A state change that brings a component up. -/
def bringsUp : EventPayload → Bool
  | .linkStateChange change => change.state = .up
  | .portStateChange change => change.state = .up
  | .switchStateChange change => change.state = .up
  | _ => false

section Dispatches

variable {n n' : Network} {taken : List TransferCompletion} {event : Event}

/-- A state change that was handled is one of these. -/
theorem Dispatched.of_stateChange (dispatched : Dispatched taken event n n')
    (isChange : changesState event.payload = true) : n' = n ∨ ∃ graph given,
      Changes n event.payload graph given ∧ Network.Reconciled given { n with graph } n' := by
  cases dispatched with
  | passed _ => exact .inl rfl
  | arrived arrives =>
    have payload : ∃ arrival, event.payload = .chunkArrival arrival := by
      cases arrives with
      | delivered arriving => exact ⟨_, arriving.payload⟩
      | blocked _ enters => exact ⟨_, enters.arriving.payload⟩
      | started _ enters => exact ⟨_, enters.arriving.payload⟩
      | queued enters => exact ⟨_, enters.arriving.payload⟩
      | rejected enters => exact ⟨_, enters.arriving.payload⟩
    obtain ⟨arrival, isArrival⟩ := payload
    simp [isArrival, changesState] at isChange
  | completed completes =>
    have payload : ∃ completion, event.payload = .transmissionComplete completion := by
      cases completes with
      | idled _ _ completing => exact ⟨_, completing.payload⟩
      | advanced _ _ _ _ completing => exact ⟨_, completing.payload⟩
    obtain ⟨completion, isCompletion⟩ := payload
    simp [isCompletion, changesState] at isChange
  | changed changes reconciled => exact .inr ⟨_, _, changes, reconciled⟩

/-- Only arcs that were not operational give up when a component comes up. -/
theorem Changes.given_of_up {payload : EventPayload} {graph : TopologyGraph}
    {given : Set DirectedLinkId} (changes : Changes n payload graph given)
    (isUp : bringsUp payload = true) {link : DirectedLinkId} (gives : link ∈ given)
    {arc : DirectedLink} (isArc : requireFabricArc graph link = .ok arc) :
    n.graph.isOperational arc = false := by
  cases changes with
  | link change _ =>
    have state : change.state = .up := by simpa [bringsUp] using isUp
    have isDown := gives.1
    rw [state] at isDown
    cases isDown
  | port change =>
    have state : change.state = .up := by simpa [bringsUp] using isUp
    have down := gives.2 arc isArc
    cases before : n.graph.isOperational arc with
    | false => rfl
    | true =>
      rw [state] at down
      simp [TopologyGraph.isOperational_setPortState_up before] at down
  | switch change =>
    have state : change.state = .up := by simpa [bringsUp] using isUp
    have down := gives.2 arc isArc
    cases before : n.graph.isOperational arc with
    | false => rfl
    | true =>
      rw [state] at down
      simp [TopologyGraph.isOperational_setSwitchState_up before] at down

/-- An arc that is operational before and after a state change is not among those that give up. -/
theorem Changes.not_given {payload : EventPayload} {graph : TopologyGraph}
    {given : Set DirectedLinkId} (changes : Changes n payload graph given)
    {link : DirectedLinkId} {arc : DirectedLink} (isArc : requireFabricArc graph link = .ok arc)
    (after : graph.isOperational arc = true) : link ∉ given := by
  intro gives
  cases changes with
  | link change made =>
    obtain ⟨isDown, here, _⟩ := gives
    rw [isDown] at made after
    rw [← requireFabricArc_id isArc] at here
    simp [TopologyGraph.isOperational_setLinkState_down made here] at after
  | port change => simp [gives.2 arc isArc] at after
  | switch change => simp [gives.2 arc isArc] at after

/-- Giving up empty queues changes nothing that matters. -/
theorem Network.Reconciled.sameHands {given : Set DirectedLinkId} {graph : TopologyGraph}
    (reconciled : Network.Reconciled given { n with graph } n')
    (empty : ∀ link ∈ given, ∀ service, n.transport.services.find? link = some service →
      service.Empty) :
    n'.transport.chunks = n.transport.chunks ∧ SameHands n n' := by
  constructor
  · apply OrderedMap.ext_find?
    intro chunk
    apply reconciled.untouched chunk
    intro link gives copy held
    unfold heldBy at held
    cases found : n.transport.services.find? link with
    | none => simp [found] at held
    | some service => simp [found, (empty link gives service found).held] at held
  · intro link
    by_cases gives : link ∈ given
    · obtain ⟨statistics, after⟩ := reconciled.emptied link gives
      rw [after]
      cases found : n.transport.services.find? link with
      | none => rfl
      | some service =>
        obtain ⟨active, waiting, completion⟩ := empty link gives service found
        simp [DirectedLinkService.inHand, DirectedLinkService.emptied,
          DirectedLinkQueue.drain, active, waiting, completion]
    · rw [reconciled.kept link gives]

/-- One service keeps what it has in hand. -/
theorem sameHands_insert {sim : Simulation} {chunks : OrderedMap ChunkId ChunkRecord}
    {link : DirectedLinkId} {service : DirectedLinkService} {statistics : LinkStatistics}
    (found : n.transport.services.find? link = some service)
    (leaves : Network.Leaves n sim chunks
      (n.transport.services.insert link { service with statistics }) n') : SameHands n n' := by
  obtain ⟨transfers, completions, transport⟩ := leaves.transport
  intro other
  rw [transport]
  by_cases same : other = link
  · subst same
    simp [found, DirectedLinkService.inHand]
  · simp [same]

/-- A chunk that comes to an arc that is not operational goes no further. -/
theorem dropped_at_down (dispatched : Dispatched taken event n n') {chunk : ChunkId}
    {record : ChunkRecord} {link : DirectedLinkId} {arc : DirectedLink}
    (payload : event.payload = .chunkArrival ⟨chunk, record.hopIndex⟩)
    (found : n.transport.chunks.find? chunk = some record)
    (hop : record.route[record.hopIndex]? = some link)
    (isArc : requireFabricArc n.graph link = .ok arc) (down : n.graph.isOperational arc = false) :
    (∃ record', n'.transport.chunks.find? chunk = some record' ∧
      record'.state = .droppedLinkDown) ∧ SameHands n n' := by
  -- every arrival is the one of this chunk, at this link
  have here : ∀ {chunk' record' link' service' arc'},
      Network.Entering taken n event chunk' record' link' service' arc' → arc' = arc := by
    intro chunk' record' link' service' arc' enters
    cases arrivalOf_inj ⟨_, enters.arriving.payload⟩ ⟨_, payload⟩
    have isRecord := enters.arriving.found
    rw [found] at isRecord
    cases isRecord
    have isLink := enters.hop
    rw [hop] at isLink
    cases isLink
    have isArc' := enters.isArc
    rw [isArc] at isArc'
    cases isArc'
    rfl
  cases dispatched with
  | passed foreign => simp [payload, ownPayload] at foreign
  | completed completes =>
    cases completes with
    | idled _ _ completing => simp [completing.payload] at payload
    | advanced _ _ _ _ completing => simp [completing.payload] at payload
  | changed changes =>
    rw [payload] at changes
    cases changes
  | arrived arrives =>
    cases arrives with
    | delivered arriving last leaves =>
      cases arrivalOf_inj ⟨_, arriving.payload⟩ ⟨_, payload⟩
      have isRecord := arriving.found
      rw [found] at isRecord
      cases isRecord
      rw [last] at hop
      simp at hop
    | blocked statistics enters _ leaves =>
      cases arrivalOf_inj ⟨_, enters.arriving.payload⟩ ⟨_, payload⟩
      refine ⟨?_, sameHands_insert enters.isService leaves⟩
      obtain ⟨transfers, completions, transport⟩ := leaves.transport
      rw [transport]
      exact ⟨_, OrderedMap.find?_insert_self _ _ _, rfl⟩
    | started _ enters up => simp [here enters ▸ up] at down
    | queued enters up => simp [here enters ▸ up] at down
    | rejected enters up => simp [here enters ▸ up] at down

end Dispatches

/-- Failures are reconciled in every reachable state.  An arc that is not operational has nothing in
hand and no transmission to complete.  A chunk that a failure dropped is never heard of again.  A
component that comes up moves nothing, and an arrival at an arc that is still not operational is
dropped without touching a queue.  An arc that is operational before and after a state change keeps
its queue and its completion event. -/
theorem failure_reconciliation (d : Drive) (reachable : Reachable d) :
    (∀ link service arc, d.network.transport.services.find? link = some service →
      requireFabricArc d.network.graph link = .ok arc →
      d.network.graph.isOperational arc = false → service.Empty ∧
        ∀ event ∈ outstanding d.network.kernel.sim d.awaiting,
          ¬ TransmissionOn link event.payload) ∧
    (∀ chunk record d', d.network.transport.chunks.find? chunk = some record →
      record.state = .droppedLinkDown → Relation.ReflTransGen Step d d' → Gone chunk d') ∧
    (∀ event n', d.awaiting = some event → bringsUp event.payload = true →
      Network.dispatch event.payload d.network = .ok () n' →
      n'.transport.chunks = d.network.transport.chunks ∧ SameHands d.network n') ∧
    (∀ event chunk record link arc n', d.awaiting = some event →
      event.payload = .chunkArrival ⟨chunk, record.hopIndex⟩ →
      d.network.transport.chunks.find? chunk = some record →
      record.route[record.hopIndex]? = some link →
      requireFabricArc d.network.graph link = .ok arc →
      d.network.graph.isOperational arc = false →
      Network.dispatch event.payload d.network = .ok () n' →
      (∃ record', n'.transport.chunks.find? chunk = some record' ∧
        record'.state = .droppedLinkDown) ∧ SameHands d.network n') ∧
    (∀ event link arc n', d.awaiting = some event → changesState event.payload = true →
      requireFabricArc d.network.graph link = .ok arc →
      d.network.graph.isOperational arc = true →
      Network.dispatch event.payload d.network = .ok () n' →
      n'.graph.isOperational arc = true →
      n'.transport.services.find? link = d.network.transport.services.find? link ∧
        ∀ other, TransmissionOn link other.payload →
          (n'.kernel.sim.Live other ↔ d.network.kernel.sim.Live other)) := by
  have inv := reachable.invariant
  have clear := reachable.clear
  have handled : ∀ event n', d.awaiting = some event →
      Network.dispatch event.payload d.network = .ok () n' →
      Dispatched d.taken event d.network n' := by
    intro event n' isAwaited ok
    rw [isAwaited] at inv
    have outcome := wp_of_ok (wp_dispatch inv) ok
    exact outcome.2
  refine ⟨?_, ?_, ?_, ?_, ?_⟩
  · intro link service arc found isArc down
    -- an empty service expects no completion
    have empty := clear link service arc found isArc down
    refine ⟨empty, fun event member onLink => ?_⟩
    have expected := inv.consistent.completion link service event found member onLink
    rw [empty.scheduledCompletion] at expected
    cases expected
  · intro chunk record d' found state steps
    exact gone_for_good reachable steps found state
  · intro event n' isAwaited isUp ok
    -- only a service that an arc lost could move, and what comes up loses none
    have isChange : changesState event.payload = true := by
      unfold bringsUp at isUp
      unfold changesState
      split at isUp <;> simp_all
    cases (handled event n' isAwaited ok).of_stateChange isChange with
    | inl same => exact same ▸ ⟨rfl, fun _ => rfl⟩
    | inr changed =>
      obtain ⟨graph, given, changes, reconciled⟩ := changed
      refine reconciled.sameHands fun link gives service found => ?_
      obtain ⟨arc, isArc⟩ := inv.arcs link service found
      have isArc' := Network.requireFabricArc_structure changes.structure_same isArc
      exact clear link service arc found isArc (changes.given_of_up isUp gives isArc')
  · intro event chunk record link arc n' isAwaited payload found hop isArc down ok
    exact dropped_at_down (handled event n' isAwaited ok) payload found hop isArc down
  · intro event link arc n' isAwaited isChange isArc before ok after
    cases (handled event n' isAwaited ok).of_stateChange isChange with
    | inl same => exact same ▸ ⟨rfl, fun _ _ => Iff.rfl⟩
    | inr changed =>
      obtain ⟨graph, given, changes, reconciled⟩ := changed
      rw [reconciled.graph] at after
      have isArc' := Network.requireFabricArc_structure changes.structure_same isArc
      have spared := changes.not_given isArc' after
      refine ⟨reconciled.kept link spared, fun other onLink => ?_⟩
      rw [reconciled.live]
      constructor
      · intro h
        exact h.1
      · intro live
        refine ⟨live, fun given => ?_⟩
        -- a transmission that was given up is on an arc that was lost, not on this one
        obtain ⟨another, gives, onAnother⟩ := given
        exact spared (transmissionOn_inj onLink onAnother ▸ gives)

/-- Two chunks set out over the one link of `joinedDrive`; the first is in service and the second
waits when the link fails. -/
def failingMoves : List Move :=
  [.run, .submit ⟨⟨.switch, 0⟩, ⟨.switch, 1⟩, 100, 64, [⟨⟨0⟩, .aToB⟩]⟩, .changeLink ⟨0⟩ .down 5,
    .start, .handle, .conclude, .start, .handle, .conclude, .start, .handle]

theorem failure_reconciliation_joined : ∃ d, Reachable d ∧
    (d.network.transport.chunks.find? ⟨1⟩).map ChunkRecord.state = some .droppedLinkDown ∧
    (∀ d', Relation.ReflTransGen Step d d' → Gone ⟨1⟩ d') ∧
    ∃ service arc, d.network.transport.services.find? ⟨⟨0⟩, .aToB⟩ = some service ∧
      requireFabricArc d.network.graph ⟨⟨0⟩, .aToB⟩ = .ok arc ∧
      d.network.graph.isOperational arc = false ∧ service.Empty := by
  have plays : (match joinedDrive.replay failingMoves with
      | some d => (d.network.transport.chunks.find? ⟨1⟩).map ChunkRecord.state ==
          some ChunkTransitState.droppedLinkDown && d.network.transport.services.contains ⟨⟨0⟩, .aToB⟩ &&
          match requireFabricArc d.network.graph ⟨⟨0⟩, .aToB⟩ with
          | .ok arc => !d.network.graph.isOperational arc
          | .error _ => false
      | none => false) = true := by decide +kernel
  split at plays
  · rename_i d played
    have reach := joinedDrive_initial.replay played
    simp only [Bool.and_eq_true, beq_iff_eq] at plays
    obtain ⟨⟨state, configured⟩, isDown⟩ := plays
    obtain ⟨service, found⟩ := OrderedMap.contains_iff.mp configured
    obtain ⟨record, isRecord, isState⟩ := Option.map_eq_some_iff.mp state
    obtain ⟨clear, gone, _⟩ := failure_reconciliation d reach
    split at isDown
    · rename_i arc isArc
      have down : d.network.graph.isOperational arc = false := by simpa using isDown
      exact ⟨d, reach, state, fun d' steps => gone ⟨1⟩ record d' isRecord isState steps, service, arc,
        found, isArc, down, (clear _ service arc found isArc down).1⟩
    · cases isDown
  · cases plays

end NexusLab.Transport
