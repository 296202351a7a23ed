import NexusLab.Topology.Structure
import NexusLab.Transport.Handlers

/-! # State changes keep the joint invariant

A link that goes down gives up its queue: the service is emptied first, and then the drained chunks
are marked one after another.  In between, the records of the chunks still to be marked speak of a
queue that no longer holds them; `Draining` is the invariant of that loop. -/

namespace NexusLab.Transport

open Foundation Sim NexusLab.Topology

namespace Network

variable {n : Network} {taken : List TransferCompletion} {event : Event} {link : DirectedLinkId}
  {service : DirectedLinkService}

/-! ## What is given up -/

/-- The chunks in `copies` are marked as dropped; no other chunk has changed, and no link. -/
structure Marked (copies : List TransferChunk) (n n' : Network) : Prop where
  sim : n'.kernel.sim = n.kernel.sim
  graph : n'.graph = n.graph
  services : n'.transport.services = n.transport.services
  untouched : ∀ chunk, (∀ copy ∈ copies, copy.id ≠ chunk) →
    n'.transport.chunks.find? chunk = n.transport.chunks.find? chunk
  dropped : ∀ copy ∈ copies, ∃ record, n'.transport.chunks.find? copy.id = some record ∧
    record.state = .droppedLinkDown
  stock : ∃ chunks services transfers completions,
    n'.transport = { n.transport with chunks, services, transfers, completions } ∧
    chunks.size = n.transport.chunks.size

/-- The links in `given` have given up their queues; nothing else about the links, the chunks and
the events has changed. -/
structure Reconciled (given : Set DirectedLinkId) (n n' : Network) : Prop where
  graph : n'.graph = n.graph
  now : n'.kernel.sim.now = n.kernel.sim.now
  eventIds : n'.kernel.sim.eventIds = n.kernel.sim.eventIds
  live : ∀ event, n'.kernel.sim.Live event ↔ n.kernel.sim.Live event ∧
    ¬ ∃ link ∈ given, TransmissionOn link event.payload
  kept : ∀ link, link ∉ given → n'.transport.services.find? link = n.transport.services.find? link
  emptied : ∀ link ∈ given, ∃ statistics, n'.transport.services.find? link =
    (n.transport.services.find? link).map (DirectedLinkService.emptied · statistics)
  untouched : ∀ chunk, (∀ link ∈ given, ∀ copy ∈ heldBy n.transport.services link,
      copy.id ≠ chunk) → n'.transport.chunks.find? chunk = n.transport.chunks.find? chunk
  dropped : ∀ link ∈ given, ∀ copy ∈ heldBy n.transport.services link, ∃ record,
    n'.transport.chunks.find? copy.id = some record ∧ record.state = .droppedLinkDown
  stock : ∃ chunks services transfers completions,
    n'.transport = { n.transport with chunks, services, transfers, completions } ∧
    chunks.size = n.transport.chunks.size

theorem Marked.refl (n : Network) : Marked [] n n :=
  ⟨rfl, rfl, rfl, fun _ _ => rfl, by simp, _, _, _, _, rfl, rfl⟩

theorem Marked.cons {copy : TransferChunk} {rest : List TransferChunk} {n₁ n₂ : Network}
    (first : Marked [copy] n n₁) (second : Marked rest n₁ n₂) : Marked (copy :: rest) n n₂ where
  sim := second.sim.trans first.sim
  graph := second.graph.trans first.graph
  services := second.services.trans first.services
  untouched chunk apart := by
    rw [second.untouched chunk fun other member => apart other (List.mem_cons_of_mem _ member)]
    exact first.untouched chunk fun other member => apart other (by simp_all)
  dropped other member := by
    by_cases again : ∀ later ∈ rest, later.id ≠ other.id
    · have here : other ∈ [copy] := by
        cases member with
        | head => simp
        | tail _ member => exact absurd rfl (again other member)
      rw [second.untouched other.id again]
      exact first.dropped other here
    · push Not at again
      obtain ⟨later, isLater, same⟩ := again
      exact same ▸ second.dropped later isLater
  stock := by
    obtain ⟨chunks, services, transfers, completions, same, size⟩ := first.stock
    obtain ⟨chunks', services', transfers', completions', same', size'⟩ := second.stock
    refine ⟨chunks', services', transfers', completions', ?_, ?_⟩
    · rw [same', same]
    · rw [size', same, size]

namespace Reconciled

variable {n₁ n₂ : Network} {given given' : Set DirectedLinkId}

theorem refl (n : Network) : Reconciled ∅ n n where
  graph := rfl
  now := rfl
  eventIds := rfl
  live := by simp
  kept _ _ := rfl
  emptied _ member := absurd member (Set.notMem_empty _)
  untouched _ _ := rfl
  dropped _ member := absurd member (Set.notMem_empty _)
  stock := ⟨_, _, _, _, rfl, rfl⟩

/-- A link that has given up holds nothing. -/
theorem heldBy_given (step : Reconciled given n n₁) (member : link ∈ given) :
    heldBy n₁.transport.services link = [] := by
  obtain ⟨statistics, after⟩ := step.emptied link member
  unfold heldBy
  rw [after]
  cases n.transport.services.find? link <;> rfl

theorem heldBy_kept (step : Reconciled given n n₁) (differs : link ∉ given) :
    heldBy n₁.transport.services link = heldBy n.transport.services link := by
  unfold heldBy
  rw [step.kept link differs]

/-- What a link holds afterwards it held before. -/
theorem heldBy_subset (step : Reconciled given n n₁) :
    heldBy n₁.transport.services link ⊆ heldBy n.transport.services link := by
  by_cases member : link ∈ given
  · simp [step.heldBy_given member]
  · simp [step.heldBy_kept member]

theorem trans (first : Reconciled given n n₁) (second : Reconciled given' n₁ n₂) :
    Reconciled (given ∪ given') n n₂ where
  graph := second.graph.trans first.graph
  now := second.now.trans first.now
  eventIds := second.eventIds.trans first.eventIds
  -- an event is live if neither of the two gave it up
  live event := by
    rw [second.live, first.live]
    constructor
    · intro h
      refine ⟨h.1.1, ?_⟩
      intro given
      obtain ⟨link, member | member, onLink⟩ := given
      · exact h.1.2 ⟨link, member, onLink⟩
      · exact h.2 ⟨link, member, onLink⟩
    · intro h
      refine ⟨⟨h.1, ?_⟩, ?_⟩
      · intro given
        obtain ⟨link, member, onLink⟩ := given
        exact h.2 ⟨link, .inl member, onLink⟩
      · intro given
        obtain ⟨link, member, onLink⟩ := given
        exact h.2 ⟨link, .inr member, onLink⟩
  kept link apart := by
    rw [second.kept link fun member => apart (.inr member)]
    exact first.kept link fun member => apart (.inl member)
  emptied link member := by
    -- a link that was given twice is empty before the second time
    by_cases again : link ∈ given'
    · obtain ⟨statistics', after'⟩ := second.emptied link again
      refine ⟨statistics', after'.trans ?_⟩
      by_cases before : link ∈ given
      · obtain ⟨statistics, after⟩ := first.emptied link before
        rw [after, Option.map_map]
        rfl
      · rw [first.kept link before]
    · have before : link ∈ given := member.resolve_right again
      rw [second.kept link again]
      exact first.emptied link before
  untouched chunk apart := by
    rw [second.untouched chunk]
    · exact first.untouched chunk fun link member => apart link (.inl member)
    · intro link member copy held
      exact apart link (.inr member) copy (first.heldBy_subset held)
  dropped link member copy held := by
    by_cases again : ∀ other ∈ given', ∀ later ∈ heldBy n₁.transport.services other,
        later.id ≠ copy.id
    · rw [second.untouched copy.id again]
      by_cases before : link ∈ given
      · exact first.dropped link before copy held
      · have now : link ∈ given' := member.resolve_left before
        rw [← first.heldBy_kept before] at held
        exact absurd rfl (again link now copy held)
    -- the chunk was held again later, and is dropped then
    · push Not at again
      obtain ⟨other, isGiven, later, isLater, same⟩ := again
      exact same ▸ second.dropped other isGiven later isLater
  stock := by
    obtain ⟨chunks, services, transfers, completions, same, size⟩ := first.stock
    obtain ⟨chunks', services', transfers', completions', same', size'⟩ := second.stock
    refine ⟨chunks', services', transfers', completions', ?_, ?_⟩
    · rw [same', same]
    · rw [size', same, size]

end Reconciled

/-! ## Marking -/

/-- Chunks of `remaining` are still to be marked. -/
def Draining (taken : List TransferCompletion) (link : DirectedLinkId)
    (remaining : List TransferChunk) (n : Network) : Prop :=
  InvariantWith (Function.update (heldBy n.transport.services) link remaining) none taken n

/-- One drained chunk is marked as dropped. -/
theorem wp_markDroppedLinkDown {copy : TransferChunk} {rest : List TransferChunk}
    {Q : Unit → Network → Prop} {E : Error → Network → Prop}
    (draining : Draining taken link (copy :: rest) n)
    (returns : ∀ n', Draining taken link rest n' → Advances n n' → Marked [copy] n n' → Q () n')
    (throws : n.Tolerates E) : wp (markDroppedLinkDown link copy) Q E n := by
  have queue : Function.update (heldBy n.transport.services) link (copy :: rest) link =
      copy :: rest := Function.update_self ..
  have member : copy ∈ Function.update (heldBy n.transport.services) link (copy :: rest) link := by
    simp
  obtain ⟨record, found, state, cleared, none_arrives, onRoute, single, same⟩ :=
    draining.placement.holding member
  have becomes : record.Becomes { record with chunk := copy, state := .droppedLinkDown } :=
    ⟨same.transfer, same.bytes, rfl, by simp [state, ChunkTransitState.terminal], by simp⟩
  simp only [markDroppedLinkDown, wp_bind]
  apply wp_requireChunk found
  -- the record agrees with its copy in the service
  rw [wp_throwIf]
  refine ⟨fun unexpected => by simp [state, same.hop, onRoute] at unexpected, fun _ => ?_⟩
  rw [wp_storeChunk]
  refine wp_observe (fun probe₁ => ?_) throws
  refine wp_observe (fun probe₂ => ?_) throws
  refine wp_recordTerminal draining.accounts rfl found same.transfer same.bytes
    (by simp [state]) (by simp [state, ChunkTransitState.terminal]) rfl ?_ throws
  intro probe transfers completions booked grows added
  refine returns _ ?_ ?_ ?marked
  case marked =>
    refine ⟨rfl, rfl, rfl, ?_, ?_, _, _, transfers, completions, rfl,
      OrderedMap.size_insert_of_found found⟩
    · intro chunk apart
      exact OrderedMap.find?_insert_of_ne _ _ (apart copy (by simp)).symm
    · intro other isOther
      rw [List.mem_singleton] at isOther
      subst isOther
      exact ⟨_, OrderedMap.find?_insert_self _ _ _, rfl⟩
  · constructor
    · exact draining.valid
    · simp
    -- the chunk leaves the held ones, and its record is terminal
    · have left : Placement (outstanding n.kernel.sim none)
          (Function.update (Function.update (heldBy n.transport.services) link (copy :: rest)) link
            rest)
          (n.transport.chunks.insert copy.id
            { record with chunk := copy, state := .droppedLinkDown }) :=
        draining.placement.leave queue rfl cleared
      rw [Function.update_idem] at left
      exact left
    · exact draining.running
    · refine routed_insert draining.routed (.refl _) ?_
      have routed := draining.routed _ _ found
      exact routed.becomes becomes rfl routed.hop
    · exact draining.arcs
    · exact booked
    · exact draining.issued.insert found same.transfer
    · exact draining.faultless
  · refine ⟨.refl _, ?_, grows, .refl _, added⟩
    apply Grows.insert ChunkRecord.Becomes.refl
    intro other isOther
    rw [found] at isOther
    cases isOther
    exact becomes

/-- The whole drained queue is marked. -/
theorem wp_markAll {Q : Unit → Network → Prop} {E : Error → Network → Prop}
    {copies : List TransferChunk} (draining : Draining taken link copies n)
    (returns : ∀ n', Draining taken link [] n' → Advances n n' → Marked copies n n' → Q () n')
    (throws : n.Tolerates E) : wp (copies.forM (markDroppedLinkDown link)) Q E n := by
  induction copies generalizing n with
  | nil => exact returns n draining (.refl n) (.refl n)
  | cons copy rest ih =>
    rw [wp_forM_cons]
    refine wp_markDroppedLinkDown draining ?_ throws
    intro n₁ draining₁ advances₁ marked₁
    apply ih draining₁
    · intro n₂ draining₂ advances₂ marked₂
      exact returns n₂ draining₂ (advances₁.trans advances₂) (marked₁.cons marked₂)
    · intro e n' excused fault
      have fault₁ : n₁.transport.terminalFault = n.transport.terminalFault :=
        draining₁.faultless.trans draining.faultless.symm
      exact throws e n' excused (fault.trans fault₁)

/-- What follows when the service of a link is empty. -/
theorem wp_dropDrained {Q : Unit → Network → Prop} {E : Error → Network → Prop}
    {before : LinkStatistics} {drained : QueueDrain}
    (found : n.transport.services.find? link = some service)
    (empty : service.queue.held = []) (idle : service.busySince = none)
    (draining : Draining taken link (drained.active.toList ++ drained.waiting) n)
    (returns : ∀ n', Handled taken n n' → Marked (drained.active.toList ++ drained.waiting) n n' →
      Q () n')
    (throws : n.Tolerates E) : wp (dropDrained link before drained) Q E n := by
  have past : service.BusySince n.kernel.sim.now := by
    intro since busy
    rw [idle] at busy
    cases busy
  simp only [dropDrained, wp_bind]
  refine wp_linkStatistics found past (fun after => ?_) throws
  refine wp_markAll draining ?_ throws
  intro n₁ drained advances marked
  have services := marked.services
  have throws₁ : n₁.Tolerates E := fun e n' excused fault =>
    throws e n' excused (fault.trans (drained.faultless.trans draining.faultless.symm))
  have found₁ : n₁.transport.services.find? link = some service := by rw [services, found]
  refine wp_observe (fun probe₁ => ?_) throws₁
  refine wp_emitServiceGauges found₁ (fun probe₂ => ?_) throws₁
  have nothing : Function.update (heldBy n₁.transport.services) link [] =
      heldBy n₁.transport.services := by
    apply Function.update_eq_self_iff.mpr
    simp [heldBy, found₁, empty]
  have inv₁ : Invariant none taken n₁ := by
    unfold Draining at drained
    rwa [nothing] at drained
  apply returns
  · constructor
    · exact ⟨inv₁.valid, inv₁.current, inv₁.placement, inv₁.running, inv₁.routed, inv₁.arcs,
        inv₁.accounts, inv₁.issued, inv₁.faultless⟩
    · exact ⟨advances.sim, advances.chunks, advances.transfers, advances.links,
        advances.completions⟩
  · exact ⟨marked.sim, marked.graph, marked.services, marked.untouched, marked.dropped,
      marked.stock⟩

/-- An emptied service, its queue still to be marked. -/
theorem draining_of (inv : Invariant none taken n)
    (found : n.transport.services.find? link = some service) {statistics : LinkStatistics}
    {kernel : Kernel} (valid : kernel.sim.Valid) (now : kernel.sim.now = n.kernel.sim.now)
    (arrivals_same : ∀ chunk, arrivals (outstanding kernel.sim none) chunk =
      arrivals (outstanding n.kernel.sim none) chunk)
    (others_same : ∀ other, other ≠ link → transmissions (outstanding kernel.sim none) other =
      transmissions (outstanding n.kernel.sim none) other)
    (silent : transmissions (outstanding kernel.sim none) link = ∅) :
    Draining taken link service.queue.held
      (n.withServing link ⟨service.emptied statistics, kernel⟩) := by
  have runs := inv.running link
  rw [found] at runs
  have held : Function.update (heldBy (n.transport.services.insert link
      (service.emptied statistics))) link service.queue.held = heldBy n.transport.services := by
    rw [heldBy_insert, Function.update_idem]
    apply Function.update_eq_self_iff.mpr
    simp [heldBy, found]
  constructor
  · exact valid
  · simp
  · show Placement _ (Function.update (heldBy (n.transport.services.insert link _)) _ _) _
    rw [held]
    exact inv.placement.of_arrivals_eq arrivals_same
  · show Running _ kernel.sim.now (n.transport.services.insert link _)
    rw [now]
    apply inv.running.update link others_same
    exact .idle runs.configured rfl rfl rfl rfl silent
  · intro chunk record isRecord
    exact (inv.routed chunk record isRecord).sameLinks (.insert found)
  · exact arcs_sameLinks inv.arcs (.insert found)
  · exact inv.accounts
  · exact inv.issued
  · exact inv.faultless

/-- Emptying a service and marking what it held is giving up its queue. -/
theorem reconciled_of (kernel : Kernel)
    (found : n.transport.services.find? link = some service) {statistics : LinkStatistics}
    (now : kernel.sim.now = n.kernel.sim.now)
    (eventIds : kernel.sim.eventIds = n.kernel.sim.eventIds)
    (live : ∀ event, kernel.sim.Live event ↔
      n.kernel.sim.Live event ∧ ¬ TransmissionOn link event.payload) {n' : Network}
    (marked : Marked service.queue.held
      (n.withServing link ⟨service.emptied statistics, kernel⟩) n') : Reconciled {link} n n' := by
  have sim : n'.kernel.sim = kernel.sim := marked.sim
  have services : n'.transport.services =
      n.transport.services.insert link (service.emptied statistics) := marked.services
  have held : heldBy n.transport.services link = service.queue.held := by simp [heldBy, found]
  constructor
  · exact marked.graph
  · rw [sim, now]
  · rw [sim, eventIds]
  · intro event
    rw [sim, live]
    simp
  · intro other differs
    rw [services, OrderedMap.find?_insert_of_ne _ _ differs]
  · intro other isLink
    rw [Set.mem_singleton_iff] at isLink
    subst isLink
    refine ⟨statistics, ?_⟩
    rw [services, OrderedMap.find?_insert_self, found]
    rfl
  · intro chunk apart
    apply marked.untouched chunk
    rw [← held]
    exact apart link rfl
  · intro other isLink copy member
    rw [Set.mem_singleton_iff] at isLink
    subst isLink
    rw [held] at member
    exact marked.dropped copy member
  · obtain ⟨chunks, services, transfers, completions, same, size⟩ := marked.stock
    exact ⟨chunks, services, transfers, completions, same, size⟩

/-- The service of a link that is down gives up its queue. -/
theorem wp_reconcileLink {Q : Unit → Network → Prop} {E : Error → Network → Prop}
    (inv : Invariant none taken n) (opened : n.kernel.sim.lifecycle ≠ .finished)
    (found : n.transport.services.find? link = some service)
    (returns : ∀ n', Handled taken n n' → Reconciled {link} n n' → Q () n')
    (throws : n.Tolerates E) : wp (reconcileLink link) Q E n := by
  have runs := inv.running link
  rw [found] at runs
  -- emptying the service is the first part of what happens
  have first : ∀ statistics kernel, SimAdvances n.kernel.sim kernel.sim →
      Advances n (n.withServing link ⟨service.emptied statistics, kernel⟩) := by
    intro statistics kernel advances
    exact ⟨advances, .refl .refl _, .refl .refl _, .insert found, [], by simp [withServing]⟩
  simp only [reconcileLink, wp_bind]
  refine wp_linkStatistics found runs.past (fun before => ?_) throws
  refine wp_onService found (DirectedLinkService.wp_reconcileDown inv.valid opened runs.past ?_ ?_ ?_)
  · intro unscheduled statistics
    have silent : transmissions (outstanding n.kernel.sim none) link = ∅ := by
      cases runs with
      | idle _ _ _ _ _ silent => exact silent
      | busy _ _ _ _ _ expected =>
        have none_expected : service.scheduledCompletion = none := unscheduled
        simp [none_expected] at expected
    refine wp_dropDrained (OrderedMap.find?_insert_self _ _ _) rfl rfl
      (draining_of inv found inv.valid rfl (fun _ => rfl) (fun _ _ => rfl) silent) ?_ throws
    intro n' handled marked
    refine returns n' ⟨handled.inv, (first _ _ (.refl _)).trans handled.advances⟩
      (reconciled_of n.kernel found rfl rfl (fun other => ?_) marked)
    constructor
    · intro live
      refine ⟨live, fun onLink => ?_⟩
      have member : other ∈ transmissions (outstanding n.kernel.sim none) link :=
        ⟨.inl live, onLink⟩
      simp [silent] at member
    · intro h
      exact h.1
  · intro id scheduled
    cases runs with
    | idle _ _ _ unscheduled _ _ =>
      have expected : service.scheduledCompletion = some id := scheduled
      simp [expected] at unscheduled
    | busy transmission active since configured inService expected begun past payload single =>
      have same : transmission.id = id := by
        have scheduled : service.scheduledCompletion = some id := scheduled
        rw [expected] at scheduled
        exact Option.some.inj scheduled
      have on_link : TransmissionOn link transmission.payload := ⟨_, _, payload⟩
      have live : n.kernel.sim.Live transmission := by
        have member : transmission ∈ transmissions (outstanding n.kernel.sim none) link := by
          simp [single]
        have isOutstanding := member.1
        rwa [outstanding_none] at isOutstanding
      subst same
      refine ⟨transmission, rfl, live, fun statistics probe => ?_⟩
      have events : outstanding (n.kernel.sim.cancelled transmission.id) none =
          outstanding n.kernel.sim none \ {transmission} :=
        outstanding_cancelled inv.valid live (by simp)
      refine wp_dropDrained (OrderedMap.find?_insert_self _ _ _) rfl rfl
        (draining_of inv found (inv.valid.cancelled (inv.valid.mem_pending live.1)) rfl ?_ ?_ ?_) ?_
        throws
      · intro chunk
        show arrivals (outstanding (n.kernel.sim.cancelled transmission.id) none) chunk = _
        rw [events]
        exact concerning_diff_of_not fun arrival => not_both arrival on_link
      · intro other differs
        show transmissions (outstanding (n.kernel.sim.cancelled transmission.id) none) other = _
        rw [events]
        exact concerning_diff_of_not fun onOther => differs (transmissionOn_inj onOther on_link)
      · show transmissions (outstanding (n.kernel.sim.cancelled transmission.id) none) link = _
        rw [events, transmissions, concerning_diff]
        rw [transmissions] at single
        simp [single]
      · intro n' handled marked
        have own : ownPayload transmission.payload = true := by simp [payload, ownPayload]
        refine returns n' ⟨handled.inv,
          (first _ _ (.cancelled inv.valid live own)).trans handled.advances⟩
          (reconciled_of ⟨n.kernel.sim.cancelled transmission.id, probe⟩ found rfl rfl
            (fun other => ?_) marked)
        rw [Simulation.live_cancelled]
        constructor
        · intro h
          refine ⟨h.1, fun onLink => h.2 ?_⟩
          have member : other ∈ transmissions (outstanding n.kernel.sim none) link :=
            ⟨.inl h.1, onLink⟩
          rw [single, Set.mem_singleton_iff] at member
          rw [member]
        · intro h
          refine ⟨h.1, fun same => h.2 ?_⟩
          rw [inv.valid.eq_of_id h.1.1 live.1 same]
          exact on_link
  · intro e s excused
    exact throws e _ excused rfl

/-! ## The events -/

theorem requireFabricArc_structure {g g' : TopologyGraph}
    (structure_same : TopologyGraph.SameStructure g g') {arc : DirectedLink}
    (isArc : requireFabricArc g link = .ok arc) : requireFabricArc g' link = .ok arc := by
  have same := structure_same.links link.link
  unfold requireFabricArc at isArc ⊢
  cases before : g.findLink link.link with
  | none => simp [before] at isArc
  | some physical =>
    rw [before, Option.map_some, Option.map_eq_some_iff] at same
    obtain ⟨physical', after, same⟩ := same
    simp only [before] at isArc
    simp only [after]
    obtain ⟨id, a, b, kind, state⟩ := physical
    obtain ⟨id', a', b', kind', state'⟩ := physical'
    cases same
    exact isArc

/-- An event of somebody else does not concern the stores. -/
theorem handled_foreign (inv : Invariant (some event) taken n)
    (foreign : ownPayload event.payload = false) : Invariant none taken n := by
  have current := (inv.current event rfl).1
  refine ⟨inv.valid, by simp, ?_, ?_, inv.routed, inv.arcs, inv.accounts, inv.issued,
    inv.faultless⟩
  · rw [outstanding_handled inv.valid current]
    exact inv.placement.erase_event (not_arrivalOf_of_foreign foreign)
  · rw [outstanding_handled inv.valid current]
    exact inv.running.erase_event (not_transmissionOn_of_foreign foreign)

/-- The graph may change in operational states. -/
theorem regraphed {awaiting : Option Event} (inv : Invariant awaiting taken n)
    {graph : TopologyGraph} (same : TopologyGraph.SameStructure n.graph graph) :
    Invariant awaiting taken { n with graph } := by
  refine ⟨inv.valid, inv.current, inv.placement, inv.running, inv.routed, ?_, inv.accounts,
    inv.issued, inv.faultless⟩
  intro link service found
  obtain ⟨arc, isArc⟩ := inv.arcs link service found
  exact ⟨arc, requireFabricArc_structure same isArc⟩

/-- A loop over links, each of which is reconciled or passed over. -/
theorem wp_reconcileAll {α : Type} {step : α → Action Network Unit} {E : Error → Network → Prop}
    (inv : Invariant none taken n) (opened : n.kernel.sim.lifecycle ≠ .finished)
    (given : α → Set DirectedLinkId) (links : List α)
    (each : ∀ a ∈ links, ∀ n₁, Handled taken n n₁ → n₁.graph = n.graph →
      n₁.kernel.sim.lifecycle ≠ .finished →
      wp (step a) (fun _ n₂ => Handled taken n₁ n₂ ∧ Reconciled (given a) n₁ n₂) E n₁)
    {Q : Unit → Network → Prop}
    (returns : ∀ n', Handled taken n n' →
      Reconciled { link | ∃ a ∈ links, link ∈ given a } n n' → Q () n') :
    wp (links.forM step) Q E n := by
  induction links generalizing n Q with
  | nil =>
    refine returns n ⟨inv, .refl n⟩ ?_
    have none_given : { link | ∃ a ∈ ([] : List α), link ∈ given a } = ∅ := by simp
    rw [none_given]
    exact .refl n
  | cons a rest ih =>
    rw [wp_forM_cons]
    refine wp_mono (each a (by simp) n ⟨inv, .refl n⟩ rfl opened) ?_ (fun _ _ h => h)
    intro _ n₁ h
    obtain ⟨handled₁, reconciled₁⟩ := h
    have opened₁ : n₁.kernel.sim.lifecycle ≠ .finished := by
      rw [handled₁.advances.sim.lifecycle]
      exact opened
    refine ih handled₁.inv opened₁ (fun b member n₂ handled₂ graph₂ => ?_) ?_
    · exact each b (List.mem_cons_of_mem _ member) n₂ (handled₁.trans handled₂)
        (graph₂.trans reconciled₁.graph)
    · intro n₂ handled₂ reconciled₂
      refine returns n₂ (handled₁.trans handled₂) ?_
      have all : { link | ∃ b ∈ a :: rest, link ∈ given b } =
          given a ∪ { link | ∃ b ∈ rest, link ∈ given b } := by
        ext link
        simp
      rw [all]
      exact reconciled₁.trans reconciled₂

theorem Tolerates.of_handled {E : Error → Network → Prop} (inv : Invariant none taken n)
    (throws : n.Tolerates E) {n₁ : Network} (handled : Handled taken n n₁) : n₁.Tolerates E :=
  fun e n' excused fault =>
    throws e n' excused (fault.trans (handled.inv.faultless.trans inv.faultless.symm))

/-- The configured links whose arc is not operational. -/
def unavailable (n : Network) : Set DirectedLinkId :=
  { link | n.transport.services.contains link = true ∧
    ∀ arc, requireFabricArc n.graph link = .ok arc → n.graph.isOperational arc = false }

theorem wp_reconcileUnavailable {Q : Unit → Network → Prop} {E : Error → Network → Prop}
    (inv : Invariant none taken n) (opened : n.kernel.sim.lifecycle ≠ .finished)
    (returns : ∀ n', Handled taken n n' → Reconciled n.unavailable n n' → Q () n')
    (throws : n.Tolerates E) : wp reconcileUnavailable Q E n := by
  have all : { link | ∃ a ∈ n.transport.services.keys, link ∈ ({a} : Set DirectedLinkId) ∩
      n.unavailable } = n.unavailable := by
    ext link
    simp only [Set.mem_inter_iff, Set.mem_singleton_iff, Set.mem_ofPred_eq, OrderedMap.mem_keys_iff]
    constructor
    · intro h
      obtain ⟨_, _, _, member⟩ := h
      exact member
    · intro member
      exact ⟨link, OrderedMap.contains_iff.mp member.1, rfl, member⟩
  simp only [reconcileUnavailable, wp_bind, wp_get]
  rw [← all] at returns
  refine wp_reconcileAll inv opened _ _ (fun link member n₁ handled graph opened₁ => ?_) returns
  have isConfigured : n.transport.services.contains link = true :=
    OrderedMap.contains_iff.mpr (OrderedMap.mem_keys_iff.mp member)
  obtain ⟨service, found⟩ := (handled.advances.links link).mpr
    (OrderedMap.mem_keys_iff.mp member)
  obtain ⟨arc, isArc⟩ := handled.inv.arcs link service found
  simp only [wp_bind, wp_get, wp_fromExcept, isArc, wp_runIf]
  rw [graph] at isArc
  refine ⟨fun directed isDirected => ⟨fun down => ?_, fun up => ?_⟩, fun e thrown => by cases thrown⟩
  · cases isDirected
    rw [graph] at down
    have given : {link} ∩ n.unavailable = {link} := by
      rw [Set.inter_eq_left, Set.singleton_subset_iff]
      refine ⟨isConfigured, fun other isOther => ?_⟩
      rw [isArc] at isOther
      cases isOther
      exact down
    rw [given]
    exact wp_reconcileLink handled.inv opened₁ found (fun _ step reconciled => ⟨step, reconciled⟩)
      (throws.of_handled inv handled)
  · cases isDirected
    rw [graph] at up
    have given : {link} ∩ n.unavailable = ∅ := by
      rw [Set.singleton_inter_eq_empty]
      intro member
      exact up (member.2 _ isArc)
    rw [given]
    exact ⟨⟨handled.inv, .refl n₁⟩, .refl n₁⟩

/-- What a state change can fail with, beyond what the environment is to blame for: the target is
unknown, or the graph can count no more revisions.  Nothing has happened then. -/
def Refuses (n : Network) (unknown : Prop) (E : Error → Network → Prop) : Prop :=
  ∀ e, unknown ∨ n.graph.operationalRevision = maxU64 → E e n

/-- The configured arcs of a link that goes down. -/
def arcsOfDown (n : Network) (change : LinkStateChangeEvent) : Set DirectedLinkId :=
  { link | change.state = .down ∧ link.link = change.link ∧
    n.transport.services.contains link = true }

theorem wp_handleLinkStateChange {change : LinkStateChangeEvent} {Q : Unit → Network → Prop}
    {E : Error → Network → Prop} (inv : Invariant (some event) taken n)
    (payload : event.payload = .linkStateChange change)
    (returns : ∀ n', Handled taken n n' →
      (n.graph.setLinkState change.link change.state).1 = true →
      Reconciled (n.arcsOfDown change)
        { n with graph := (n.graph.setLinkState change.link change.state).2 } n' → Q () n')
    (refused : n.Refuses ((n.graph.findLink change.link).map PhysicalLink.kind ≠ some .fabric) E)
    (throws : n.Tolerates E) : wp (handleLinkStateChange change) Q E n := by
  have opened := (inv.current event rfl).2
  -- the event is consumed and the state set before anything is reconciled
  have handled : Invariant none taken
      { n with graph := (n.graph.setLinkState change.link change.state).2 } :=
    regraphed (handled_foreign inv (by simp [payload, ownPayload]))
      (TopologyGraph.setLinkState_structure _)
  simp only [handleLinkStateChange, wp_bind, wp_get, wp_throwIf, wp_set, wp_runIf]
  refine ⟨fun unknown => refused _ (.inl unknown), fun known => ⟨fun failed => ?_, fun made => ?_⟩⟩
  · obtain ⟨same, reason⟩ := TopologyGraph.setLinkState_refused failed
    rw [same]
    apply refused
    cases reason with
    | inl absent => exact .inl (by simp [absent])
    | inr exhausted => exact .inr exhausted
  · constructor
    -- a link that goes down loses both of its arcs, as far as they are configured
    · intro isDown
      refine wp_reconcileAll handled opened
        (fun direction => { link | link = ⟨change.link, direction⟩ ∧
          n.transport.services.contains link = true }) _
        (fun direction _ n₁ step graph opened₁ => ?_) ?_
      · have same : n₁.transport.services.contains ⟨change.link, direction⟩ = true ↔
            n.transport.services.contains ⟨change.link, direction⟩ = true := by
          rw [OrderedMap.contains_iff, OrderedMap.contains_iff]
          exact step.advances.links _
        simp only [wp_bind, wp_get, wp_runIf]
        refine ⟨fun configured => ?_, fun unconfigured => ⟨⟨step.inv, .refl n₁⟩, ?_⟩⟩
        · obtain ⟨service, found⟩ := OrderedMap.contains_iff.mp configured
          have given : { link | link = ⟨change.link, direction⟩ ∧
              n.transport.services.contains link = true } =
              ({⟨change.link, direction⟩} : Set DirectedLinkId) := by
            ext link
            simp only [Set.mem_ofPred_eq, Set.mem_singleton_iff, and_iff_left_iff_imp]
            intro isLink
            rw [isLink]
            exact same.mp configured
          rw [given]
          exact wp_reconcileLink step.inv opened₁ found (fun _ step graph => ⟨step, graph⟩)
            (Tolerates.of_handled handled throws step)
        · have given : { link | link = ⟨change.link, direction⟩ ∧
              n.transport.services.contains link = true } = (∅ : Set DirectedLinkId) := by
            ext link
            simp only [Set.mem_ofPred_eq, Set.mem_empty_iff_false, iff_false, not_and]
            intro isLink
            rw [isLink]
            exact fun configured => unconfigured (same.mpr configured)
          rw [given]
          exact .refl n₁
      · intro n' step reconciled
        refine returns n' ⟨step.inv, ⟨step.advances.sim, step.advances.chunks,
          step.advances.transfers, step.advances.links, step.advances.completions⟩⟩
          (Bool.eq_true_of_not_eq_false made) ?_
        have all : n.arcsOfDown change = { link | ∃ direction ∈ [LinkDirection.aToB, .bToA],
            link ∈ { link | link = ⟨change.link, direction⟩ ∧
              n.transport.services.contains link = true } } := by
          ext link
          obtain ⟨physical, direction⟩ := link
          simp only [arcsOfDown, isDown, Set.mem_ofPred_eq, true_and]
          cases direction <;> simp
        rw [all]
        exact reconciled
    -- a link that comes up loses none
    · intro isUp
      refine returns _ ⟨handled, ⟨.refl _, .refl .refl _, .refl .refl _, .refl _, [], by simp⟩⟩
        (Bool.eq_true_of_not_eq_false made) ?_
      have none_given : n.arcsOfDown change = ∅ := by
        ext link
        simp [arcsOfDown, isUp]
      rw [none_given]
      exact .refl _

/-- The graph has changed, and every configured link that is not operational has given up. -/
abbrev Resweeps (n : Network) (graph : TopologyGraph) (n' : Network) : Prop :=
  Reconciled (Network.unavailable { n with graph }) { n with graph } n'

/-- Ports and switches: every link that is no longer operational is reconciled. -/
theorem wp_afterStateChange {graph : TopologyGraph} {Q : Unit → Network → Prop}
    {E : Error → Network → Prop} (inv : Invariant (some event) taken n)
    (foreign : ownPayload event.payload = false)
    (same : TopologyGraph.SameStructure n.graph graph)
    (returns : ∀ n', Handled taken n n' → n.Resweeps graph n' → Q () n')
    (throws : n.Tolerates E) : wp reconcileUnavailable Q E { n with graph } := by
  have handled : Invariant none taken { n with graph } :=
    regraphed (handled_foreign inv foreign) same
  refine wp_reconcileUnavailable handled (inv.current event rfl).2 ?_ throws
  intro n' step reconciled
  exact returns n' ⟨step.inv, ⟨step.advances.sim, step.advances.chunks, step.advances.transfers,
    step.advances.links, step.advances.completions⟩⟩ reconciled

theorem wp_handlePortStateChange {change : PortStateChangeEvent} {Q : Unit → Network → Prop}
    {E : Error → Network → Prop} (inv : Invariant (some event) taken n)
    (payload : event.payload = .portStateChange change)
    (returns : ∀ n', Handled taken n n' → n.Resweeps
      (n.graph.setPortState change.port change.state).2 n' → Q () n')
    (refused : n.Refuses (n.graph.findPort change.port = none) E) (throws : n.Tolerates E) :
    wp (handlePortStateChange change) Q E n := by
  simp only [handlePortStateChange, wp_bind, wp_get, wp_throwIf, wp_set]
  refine ⟨fun failed => ?_, fun _ => ?_⟩
  · obtain ⟨same, reason⟩ := TopologyGraph.setPortState_refused failed
    rw [same]
    exact refused _ reason
  · exact wp_afterStateChange inv (by simp [payload, ownPayload])
      (TopologyGraph.setPortState_structure _) returns throws

theorem wp_handleSwitchStateChange {change : SwitchStateChangeEvent} {Q : Unit → Network → Prop}
    {E : Error → Network → Prop} (inv : Invariant (some event) taken n)
    (payload : event.payload = .switchStateChange change)
    (returns : ∀ n', Handled taken n n' → n.Resweeps
      (n.graph.setSwitchState change.networkSwitch change.state).2 n' → Q () n')
    (refused : n.Refuses (n.graph.findSwitch change.networkSwitch = none) E)
    (throws : n.Tolerates E) : wp (handleSwitchStateChange change) Q E n := by
  simp only [handleSwitchStateChange, wp_bind, wp_get, wp_throwIf, wp_set]
  refine ⟨fun failed => ?_, fun _ => ?_⟩
  · obtain ⟨same, reason⟩ := TopologyGraph.setSwitchState_refused failed
    rw [same]
    exact refused _ reason
  · exact wp_afterStateChange inv (by simp [payload, ownPayload])
      (TopologyGraph.setSwitchState_structure _) returns throws

end Network

end NexusLab.Transport
