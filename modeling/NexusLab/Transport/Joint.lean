import NexusLab.Transport.Accounts
import NexusLab.Transport.LinkSpec

/-! # The joint invariant of kernel and transport

`Invariant` ties the event queue of the kernel to the stores of the runtime.  While an event is
being dispatched it is no longer in the queue but its handler has not run yet: such an event is
`awaiting`, and counts as outstanding.  `Advances` is the frame: what no operation of the runtime
undoes. -/

namespace NexusLab.Transport

open Foundation Sim NexusLab.Topology

/-! ## Outstanding events -/

/-- The live events and the one whose handler is still to run. -/
def outstanding (sim : Simulation) (awaiting : Option Event) : Set Event :=
  { event | sim.Live event ∨ awaiting = some event }

section Outstanding

variable {sim : Simulation} {awaiting : Option Event} {event : Event}

theorem outstanding_none : outstanding sim none = { event | sim.Live event } := by
  ext e
  simp [outstanding]

theorem outstanding_scheduled (valid : sim.Valid) (remaining : sim.eventIds.exhausted = false)
    (specification : EventSpec) :
    outstanding (sim.scheduled specification) awaiting =
      insert (sim.eventFor specification) (outstanding sim awaiting) := by
  ext e
  simp only [outstanding, Set.mem_ofPred_eq, Set.mem_insert_iff, valid.live_scheduled remaining]
  tauto

theorem outstanding_cancelled (valid : sim.Valid) (live : sim.Live event)
    (current : ∀ e, awaiting = some e → sim.currentEvent = some e) :
    outstanding (sim.cancelled event.id) awaiting = outstanding sim awaiting \ {event} := by
  ext e
  simp only [outstanding, Set.mem_ofPred_eq, Set.mem_sdiff, Set.mem_singleton_iff,
    Simulation.live_cancelled]
  constructor
  · intro h
    cases h with
    | inl h => exact ⟨.inl h.1, fun same => h.2 (congrArg Event.id same)⟩
    | inr h =>
      refine ⟨.inr h, fun same => ?_⟩
      subst same
      exact (valid.current e (current e h)).2.1 (valid.mem_pending live.1)
  · intro h
    cases h.1 with
    | inl other => exact .inl ⟨other, fun same => h.2 (valid.eq_of_id other.1 live.1 same)⟩
    | inr other => exact .inr other

/-- Once its handler has run, the dispatched event is gone. -/
theorem outstanding_handled (valid : sim.Valid) (current : sim.currentEvent = some event) :
    outstanding sim none = outstanding sim (some event) \ {event} := by
  ext e
  simp only [outstanding, Set.mem_ofPred_eq, Set.mem_sdiff, Set.mem_singleton_iff, reduceCtorEq,
    or_false, Option.some.injEq]
  constructor
  · intro live
    refine ⟨.inl live, fun same => ?_⟩
    subst same
    exact (valid.current e current).2.1 (valid.mem_pending live.1)
  · intro h
    cases h.1 with
    | inl live => exact live
    | inr same => exact absurd same.symm h.2

/-- Taking an event off the queue keeps it outstanding. -/
theorem outstanding_started (valid : sim.Valid) {after : Simulation}
    (started : Kernel.Started sim event after) :
    outstanding after (some event) = outstanding sim none := by
  ext e
  simp only [outstanding, Set.mem_ofPred_eq, started.remaining, Option.some.injEq, reduceCtorEq,
    or_false]
  constructor
  · intro h
    cases h with
    | inl h => exact h.1
    | inr same => exact same ▸ started.live
  · intro live
    by_cases same : e.id = event.id
    · exact .inr (valid.eq_of_id started.live.1 live.1 same.symm)
    · exact .inl ⟨live, same⟩

end Outstanding

theorem Runs.past {transmitted : Set Event} {now : SimTimeNs} {link : DirectedLinkId}
    {service : DirectedLinkService} (runs : Runs transmitted now link (some service)) :
    service.BusySince now := by
  intro since busy
  cases runs with
  | idle _ _ _ _ started _ => simp [started] at busy
  | busy _ _ begun _ _ _ started past _ _ =>
    rw [started] at busy
    cases busy
    exact past

theorem Runs.of_idle {transmitted : Set Event} {now : SimTimeNs} {link : DirectedLinkId}
    {service : DirectedLinkService} (runs : Runs transmitted now link (some service))
    (idle : service.queue.active = none) :
    service.queue.waiting = [] ∧ service.scheduledCompletion = none ∧ transmitted = ∅ := by
  cases runs with
  | idle _ _ waiting completion _ empty => exact ⟨waiting, completion, empty⟩
  | busy _ active _ _ inService => simp [idle] at inService

/-! ## The invariant -/

/-- What never changes about the record of a chunk, beyond its route. -/
structure Routed (services : OrderedMap DirectedLinkId DirectedLinkService) (chunk : ChunkId)
    (record : ChunkRecord) : Prop where
  id : record.chunk.id = chunk
  bytes : record.chunk.bytes ≠ 0
  hop : record.hopIndex ≤ record.route.length
  length : record.route.length ≤ maxU32
  configured : ∀ link ∈ record.route, ∃ service, services.find? link = some service

/-- Every identifier in use was handed out or skipped by its generator. -/
def Issued (transferIds chunkIds : IdGenerator) (chunks : OrderedMap ChunkId ChunkRecord) : Prop :=
  ∀ chunk record, chunks.find? chunk = some record →
    transferIds.Issued record.chunk.transfer.value ∧ chunkIds.Issued chunk.value

theorem Issued.insert {transferIds chunkIds : IdGenerator} {chunks : OrderedMap ChunkId ChunkRecord}
    (issued : Issued transferIds chunkIds chunks) {chunk : ChunkId} {record record' : ChunkRecord}
    (found : chunks.find? chunk = some record)
    (transfer : record'.chunk.transfer = record.chunk.transfer) :
    Issued transferIds chunkIds (chunks.insert chunk record') := by
  intro other found' isFound
  by_cases same : other = chunk
  · subst same
    rw [OrderedMap.find?_insert_self] at isFound
    cases isFound
    rw [transfer]
    exact issued other record found
  · rw [OrderedMap.find?_insert_of_ne _ _ same] at isFound
    exact issued other found' isFound

/-- The invariant, with the queues that the chunk records should agree with: while a link is being
emptied, its chunks are no longer in its queue but their records do not know it yet. -/
structure InvariantWith (held : DirectedLinkId → List TransferChunk) (awaiting : Option Event)
    (taken : List TransferCompletion) (n : Network) : Prop where
  valid : n.kernel.sim.Valid
  current : ∀ event, awaiting = some event →
    n.kernel.sim.currentEvent = some event ∧ n.kernel.sim.lifecycle ≠ .finished
  placement : Placement (outstanding n.kernel.sim awaiting) held n.transport.chunks
  running : Running (outstanding n.kernel.sim awaiting) n.kernel.sim.now n.transport.services
  routed : ∀ chunk record, n.transport.chunks.find? chunk = some record →
    Routed n.transport.services chunk record
  arcs : ∀ link service, n.transport.services.find? link = some service →
    ∃ arc, requireFabricArc n.graph link = .ok arc
  accounts : Accounts n.transport.chunks n.transport.transfers (taken ++ n.transport.completions)
  issued : Issued n.transport.transferIds n.transport.chunkIds n.transport.chunks
  faultless : n.transport.terminalFault = none

/-- The joint invariant.  `taken` lists the completions that were handed out. -/
abbrev Invariant (awaiting : Option Event) (taken : List TransferCompletion) (n : Network) : Prop :=
  InvariantWith (heldBy n.transport.services) awaiting taken n

/-! ## The set of links -/

/-- The configured links are the same. -/
def SameLinks (before after : OrderedMap DirectedLinkId DirectedLinkService) : Prop :=
  ∀ link, (∃ service, after.find? link = some service) ↔
    ∃ service, before.find? link = some service

theorem SameLinks.refl (services : OrderedMap DirectedLinkId DirectedLinkService) :
    SameLinks services services := fun _ => Iff.rfl

theorem SameLinks.trans {a b c : OrderedMap DirectedLinkId DirectedLinkService}
    (ab : SameLinks a b) (bc : SameLinks b c) : SameLinks a c :=
  fun link => (bc link).trans (ab link)

theorem SameLinks.insert {services : OrderedMap DirectedLinkId DirectedLinkService}
    {link : DirectedLinkId} {service service' : DirectedLinkService}
    (found : services.find? link = some service) :
    SameLinks services (services.insert link service') := by
  intro other
  by_cases same : other = link
  · subst same
    simp [found]
  · simp [same]

section Links

variable {services services' : OrderedMap DirectedLinkId DirectedLinkService}
  {chunks : OrderedMap ChunkId ChunkRecord} {chunk : ChunkId} {record : ChunkRecord}
  {graph : TopologyGraph}

theorem Routed.sameLinks (routed : Routed services chunk record)
    (links : SameLinks services services') : Routed services' chunk record :=
  ⟨routed.id, routed.bytes, routed.hop, routed.length,
    fun link member => (links link).mpr (routed.configured link member)⟩

theorem routed_insert
    (routed : ∀ chunk record, chunks.find? chunk = some record → Routed services chunk record)
    (links : SameLinks services services') (here : Routed services chunk record) :
    ∀ other found, (chunks.insert chunk record).find? other = some found →
      Routed services' other found := by
  intro other found isFound
  by_cases same : other = chunk
  · subst same
    rw [OrderedMap.find?_insert_self] at isFound
    cases isFound
    exact here.sameLinks links
  · rw [OrderedMap.find?_insert_of_ne _ _ same] at isFound
    exact (routed other found isFound).sameLinks links

theorem arcs_sameLinks
    (arcs : ∀ link service, services.find? link = some service →
      ∃ arc, requireFabricArc graph link = .ok arc) (links : SameLinks services services') :
    ∀ link service, services'.find? link = some service →
      ∃ arc, requireFabricArc graph link = .ok arc := by
  intro link service found
  obtain ⟨old, isOld⟩ := (links link).mp ⟨service, found⟩
  exact arcs link old isOld

end Links

/-! ## Services that differ in their statistics -/

/-- Only statistics have changed. -/
def Restated (before after : OrderedMap DirectedLinkId DirectedLinkService) : Prop :=
  ∀ link, (after.find? link).map (fun service => { service with statistics := {} }) =
    (before.find? link).map fun service => { service with statistics := {} }

namespace Restated

variable {before after : OrderedMap DirectedLinkId DirectedLinkService} {link : DirectedLinkId}
  {service : DirectedLinkService}

theorem refl (services : OrderedMap DirectedLinkId DirectedLinkService) :
    Restated services services := fun _ => rfl

theorem insert (found : before.find? link = some service) (statistics : LinkStatistics) :
    Restated before (before.insert link { service with statistics }) := by
  intro other
  by_cases same : other = link
  · subst same
    simp [found]
  · simp [same]

theorem find (restated : Restated before after) (found : before.find? link = some service) :
    ∃ statistics, after.find? link = some { service with statistics } := by
  have same := restated link
  rw [found, Option.map_some, Option.map_eq_some_iff] at same
  obtain ⟨found', isFound, same⟩ := same
  refine ⟨found'.statistics, ?_⟩
  rw [isFound]
  obtain ⟨queue, completion, statistics, since⟩ := service
  obtain ⟨queue', completion', statistics', since'⟩ := found'
  cases same
  rfl

theorem find_none (restated : Restated before after) (absent : before.find? link = none) :
    after.find? link = none := by
  have same := restated link
  rwa [absent, Option.map_none, Option.map_eq_none_iff] at same

theorem sameLinks (restated : Restated before after) : SameLinks before after := by
  intro link
  cases found : before.find? link with
  | none => simp [restated.find_none found]
  | some service =>
    obtain ⟨statistics, found'⟩ := restated.find found
    simp [found']

theorem heldBy_eq (restated : Restated before after) : heldBy after = heldBy before := by
  funext link
  unfold heldBy
  cases found : before.find? link with
  | none => rw [restated.find_none found]
  | some service =>
    obtain ⟨statistics, found'⟩ := restated.find found
    rw [found']

theorem running (restated : Restated before after) {events : Set Event} {now : SimTimeNs}
    (runs : Running events now before) : Running events now after := by
  intro link
  have here := runs link
  cases found : before.find? link with
  | none =>
    rw [restated.find_none found]
    rwa [found] at here
  | some service =>
    obtain ⟨statistics, found'⟩ := restated.find found
    rw [found']
    rw [found] at here
    exact here.statistics statistics

end Restated

/-! ## The frame -/

/-- A chunk keeps its identity and its route, and never leaves an end state. -/
structure ChunkRecord.Becomes (before after : ChunkRecord) : Prop where
  transfer : after.chunk.transfer = before.chunk.transfer
  bytes : after.chunk.bytes = before.chunk.bytes
  route : after.route = before.route
  absorbing : before.state.terminal = true → after.state = before.state
  submitted : before.state ≠ .registered → after.state ≠ .registered

theorem ChunkRecord.Becomes.refl (record : ChunkRecord) : record.Becomes record :=
  ⟨rfl, rfl, rfl, fun _ => rfl, id⟩

theorem ChunkRecord.Becomes.trans {a b c : ChunkRecord} (ab : a.Becomes b) (bc : b.Becomes c) :
    a.Becomes c where
  transfer := bc.transfer.trans ab.transfer
  bytes := bc.bytes.trans ab.bytes
  route := bc.route.trans ab.route
  absorbing terminal := by
    have same := ab.absorbing terminal
    exact (bc.absorbing (same ▸ terminal)).trans same
  submitted moved := bc.submitted (ab.submitted moved)

theorem Routed.becomes {services : OrderedMap DirectedLinkId DirectedLinkService} {chunk : ChunkId}
    {record record' : ChunkRecord} (routed : Routed services chunk record)
    (becomes : record.Becomes record') (id : record'.chunk.id = chunk)
    (hop : record'.hopIndex ≤ record.route.length) : Routed services chunk record' where
  id := id
  bytes := becomes.bytes ▸ routed.bytes
  hop := becomes.route ▸ hop
  length := becomes.route ▸ routed.length
  configured link member := routed.configured link (becomes.route ▸ member)

/-- A transfer that has started is sealed, and keeps its completion. -/
structure TransferRecord.Becomes (before after : TransferRecord) : Prop where
  started : before.startedAt ≠ none → after.startedAt = before.startedAt ∧
    after.chunks = before.chunks ∧ after.total = before.total
  completion : ∀ completion, before.completion = some completion →
    after.completion = some completion

theorem TransferRecord.Becomes.refl (transfer : TransferRecord) : transfer.Becomes transfer :=
  ⟨fun _ => ⟨rfl, rfl, rfl⟩, fun _ h => h⟩

theorem TransferRecord.Becomes.trans {a b c : TransferRecord} (ab : a.Becomes b)
    (bc : b.Becomes c) : a.Becomes c where
  started started := by
    obtain ⟨at_b, chunks_b, total_b⟩ := ab.started started
    obtain ⟨at_c, chunks_c, total_c⟩ := bc.started (at_b ▸ started)
    exact ⟨at_c.trans at_b, chunks_c.trans chunks_b, total_c.trans total_b⟩
  completion x done := bc.completion x (ab.completion x done)

/-- Every entry stays and changes only as `rel` allows. -/
def Grows {κ ν : Type} [LinearOrder κ] (rel : ν → ν → Prop) (before after : OrderedMap κ ν) : Prop :=
  ∀ k v, before.find? k = some v → ∃ v', after.find? k = some v' ∧ rel v v'

section Grows

variable {κ ν : Type} [LinearOrder κ] {rel : ν → ν → Prop} {a b c : OrderedMap κ ν}

theorem Grows.refl (reflexive : ∀ v, rel v v) (m : OrderedMap κ ν) : Grows rel m m :=
  fun _ v found => ⟨v, found, reflexive v⟩

theorem Grows.trans (transitive : ∀ u v w, rel u v → rel v w → rel u w) (ab : Grows rel a b)
    (bc : Grows rel b c) : Grows rel a c := by
  intro k v found
  obtain ⟨v', found', rel'⟩ := ab k v found
  obtain ⟨v'', found'', rel''⟩ := bc k v' found'
  exact ⟨v'', found'', transitive _ _ _ rel' rel''⟩

theorem Grows.insert (reflexive : ∀ v, rel v v) {k : κ} {w : ν}
    (here : ∀ v, a.find? k = some v → rel v w) : Grows rel a (a.insert k w) := by
  intro other v found
  by_cases same : other = k
  · subst same
    exact ⟨w, by simp, here v found⟩
  · exact ⟨v, by simpa [same] using found, reflexive v⟩

end Grows

/-- The runtime schedules and cancels its own events only, and does so now. -/
structure SimAdvances (before after : Simulation) : Prop where
  now : after.now = before.now
  current : after.currentEvent = before.currentEvent
  lifecycle : after.lifecycle = before.lifecycle
  stopReason : after.stopReason = before.stopReason
  foreign : ∀ event, ownPayload event.payload = false → (after.Live event ↔ before.Live event)

namespace SimAdvances

variable {sim after last : Simulation}

theorem refl (sim : Simulation) : SimAdvances sim sim := ⟨rfl, rfl, rfl, rfl, fun _ _ => Iff.rfl⟩

theorem trans (h : SimAdvances sim after) (h' : SimAdvances after last) : SimAdvances sim last where
  now := h'.now.trans h.now
  current := h'.current.trans h.current
  lifecycle := h'.lifecycle.trans h.lifecycle
  stopReason := h'.stopReason.trans h.stopReason
  foreign event own := (h'.foreign event own).trans (h.foreign event own)

theorem scheduled (valid : sim.Valid) (remaining : sim.eventIds.exhausted = false)
    {specification : EventSpec} (own : ownPayload specification.payload = true) :
    SimAdvances sim (sim.scheduled specification) where
  now := rfl
  current := rfl
  lifecycle := rfl
  stopReason := rfl
  foreign event foreign := by
    rw [valid.live_scheduled remaining]
    constructor
    · intro h
      cases h with
      | inl same =>
        subst same
        have : ownPayload specification.payload = false := foreign
        simp [this] at own
      | inr live => exact live
    · intro live
      exact .inr live

theorem cancelled (valid : sim.Valid) {event : Event} (live : sim.Live event)
    (own : ownPayload event.payload = true) : SimAdvances sim (sim.cancelled event.id) where
  now := rfl
  current := rfl
  lifecycle := rfl
  stopReason := rfl
  foreign other foreign := by
    rw [Simulation.live_cancelled]
    constructor
    · intro h
      exact h.1
    · intro isLive
      refine ⟨isLive, fun same => ?_⟩
      rw [valid.eq_of_id isLive.1 live.1 same] at foreign
      simp [foreign] at own

end SimAdvances

structure Advances (before after : Network) : Prop where
  sim : SimAdvances before.kernel.sim after.kernel.sim
  chunks : Grows ChunkRecord.Becomes before.transport.chunks after.transport.chunks
  transfers : Grows TransferRecord.Becomes before.transport.transfers after.transport.transfers
  links : SameLinks before.transport.services after.transport.services
  completions : ∃ added, after.transport.completions = before.transport.completions ++ added

theorem Advances.refl (n : Network) : Advances n n :=
  ⟨.refl _, .refl .refl _, .refl .refl _, .refl _, [], by simp⟩

theorem Advances.trans {a b c : Network} (ab : Advances a b) (bc : Advances b c) : Advances a c where
  sim := ab.sim.trans bc.sim
  chunks := ab.chunks.trans (fun _ _ _ => .trans) bc.chunks
  transfers := ab.transfers.trans (fun _ _ _ => .trans) bc.transfers
  links := ab.links.trans bc.links
  completions := by
    obtain ⟨first, isFirst⟩ := ab.completions
    obtain ⟨second, isSecond⟩ := bc.completions
    exact ⟨first ++ second, by rw [isSecond, isFirst, List.append_assoc]⟩

end NexusLab.Transport
