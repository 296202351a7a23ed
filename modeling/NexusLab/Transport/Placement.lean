import NexusLab.Transport.Runtime
import Mathlib.Data.Set.Insert

/-! # Where a chunk is

The joint invariant of the runtime and the kernel, over the data it is about: the events still to
be handled, the queues of the links and the chunk records.  `Placement` says of every chunk that
exactly one of its stores knows where it is, `Running` says of every link that its service and the
transmission events agree.  Both are stated chunk by chunk and link by link, so that a step has to
look only at the chunk and the link it touches. -/

namespace NexusLab.Transport

open Foundation Sim NexusLab.Topology

/-- States a chunk never leaves. -/
def ChunkTransitState.terminal : ChunkTransitState → Bool
  | .delivered => true
  | .droppedBufferFull => true
  | .droppedLinkDown => true
  | _ => false

/-- The chunks of a queue, the one in service first. -/
def DirectedLinkQueue.held (q : DirectedLinkQueue) : List TransferChunk :=
  q.active.toList ++ q.waiting

/-- The chunks each link holds. -/
def heldBy (services : OrderedMap DirectedLinkId DirectedLinkService) (link : DirectedLinkId) :
    List TransferChunk :=
  match services.find? link with
  | some service => service.queue.held
  | none => []

/-! ## Events about a chunk, events about a link -/

/-- The events whose payload has a property. -/
def concerning (about : EventPayload → Prop) (events : Set Event) : Set Event :=
  { event ∈ events | about event.payload }

section Concerning

variable {about : EventPayload → Prop} {events : Set Event} {event : Event}

theorem concerning_insert_of_not (other : ¬ about event.payload) :
    concerning about (insert event events) = concerning about events := by
  ext e
  simp only [concerning, Set.mem_ofPred_eq, Set.mem_insert_iff]
  constructor
  · intro h
    obtain ⟨rfl | member, payload⟩ := h
    · exact absurd payload other
    · exact ⟨member, payload⟩
  · intro h
    exact ⟨.inr h.1, h.2⟩

theorem concerning_insert (payload : about event.payload) :
    concerning about (insert event events) = insert event (concerning about events) := by
  ext e
  simp only [concerning, Set.mem_ofPred_eq, Set.mem_insert_iff]
  constructor
  · intro h
    obtain ⟨rfl | member, found⟩ := h
    · exact .inl rfl
    · exact .inr ⟨member, found⟩
  · intro h
    cases h with
    | inl same => subst same; exact ⟨.inl rfl, payload⟩
    | inr h => exact ⟨.inr h.1, h.2⟩

theorem concerning_insert_congr {others : Set Event}
    (same : concerning about events = concerning about others) :
    concerning about (insert event events) = concerning about (insert event others) := by
  by_cases payload : about event.payload
  · rw [concerning_insert payload, concerning_insert payload, same]
  · rw [concerning_insert_of_not payload, concerning_insert_of_not payload, same]

theorem concerning_diff :
    concerning about (events \ {event}) = concerning about events \ {event} := by
  ext e
  simp only [concerning, Set.mem_ofPred_eq, Set.mem_sdiff]
  tauto

theorem concerning_diff_of_not (other : ¬ about event.payload) :
    concerning about (events \ {event}) = concerning about events := by
  rw [concerning_diff]
  apply Set.sdiff_singleton_eq_self
  intro member
  exact other member.2

end Concerning

def ArrivalOf (chunk : ChunkId) (payload : EventPayload) : Prop :=
  ∃ hopIndex, payload = .chunkArrival ⟨chunk, hopIndex⟩

def TransmissionOn (link : DirectedLinkId) (payload : EventPayload) : Prop :=
  ∃ chunk hopIndex, payload = .transmissionComplete ⟨link.link, chunk, hopIndex, link.direction⟩

/-- The arrivals of a chunk among the events. -/
def arrivals (events : Set Event) (chunk : ChunkId) : Set Event :=
  concerning (ArrivalOf chunk) events

/-- The transmission completions of a link among the events. -/
def transmissions (events : Set Event) (link : DirectedLinkId) : Set Event :=
  concerning (TransmissionOn link) events

/-- The places at which the links hold a chunk. -/
def holders (held : DirectedLinkId → List TransferChunk) (chunk : ChunkId) :
    Set (DirectedLinkId × TransferChunk) :=
  { place | place.2 ∈ held place.1 ∧ place.2.id = chunk }

/-- Payloads that only the runtime schedules. -/
def ownPayload : EventPayload → Bool
  | .chunkArrival _ => true
  | .transmissionComplete _ => true
  | _ => false

theorem not_arrivalOf_of_foreign {payload : EventPayload} (foreign : ownPayload payload = false)
    (chunk : ChunkId) : ¬ ArrivalOf chunk payload := by
  intro h
  obtain ⟨hopIndex, same⟩ := h
  simp [same, ownPayload] at foreign

theorem not_transmissionOn_of_foreign {payload : EventPayload}
    (foreign : ownPayload payload = false) (link : DirectedLinkId) :
    ¬ TransmissionOn link payload := by
  intro h
  obtain ⟨chunk, hopIndex, same⟩ := h
  simp [same, ownPayload] at foreign

theorem arrivalOf_inj {chunk other : ChunkId} {payload : EventPayload}
    (h : ArrivalOf chunk payload) (h' : ArrivalOf other payload) : chunk = other := by
  obtain ⟨_, same⟩ := h
  obtain ⟨_, same'⟩ := h'
  rw [same] at same'
  cases same'
  rfl

theorem transmissionOn_inj {link other : DirectedLinkId} {payload : EventPayload}
    (h : TransmissionOn link payload) (h' : TransmissionOn other payload) : link = other := by
  obtain ⟨_, _, same⟩ := h
  obtain ⟨_, _, same'⟩ := h'
  obtain ⟨l, d⟩ := link
  obtain ⟨l', d'⟩ := other
  rw [same] at same'
  cases same'
  rfl

theorem not_both {chunk : ChunkId} {link : DirectedLinkId} {payload : EventPayload}
    (h : ArrivalOf chunk payload) : ¬ TransmissionOn link payload := by
  intro h'
  obtain ⟨_, same⟩ := h
  obtain ⟨_, _, same'⟩ := h'
  rw [same] at same'
  cases same'

/-! ## Chunks -/

/-- The queue's copy of a chunk agrees with its record. -/
structure Matches (record : ChunkRecord) (chunk : TransferChunk) : Prop where
  id : chunk.id = record.chunk.id
  transfer : chunk.transfer = record.chunk.transfer
  bytes : chunk.bytes = record.chunk.bytes
  hop : chunk.hopIndex = record.hopIndex

/-- A chunk's arrivals and holders are what the state of its record says. -/
inductive Placed (arrivals : Set Event) (holders : Set (DirectedLinkId × TransferChunk))
    (chunk : ChunkId) : Option ChunkRecord → Prop where
  | unknown : arrivals = ∅ → holders = ∅ → Placed arrivals holders chunk none
  | registered {record : ChunkRecord} : record.state = .registered → record.hopIndex = 0 →
      record.scheduledArrival = none → arrivals = ∅ → holders = ∅ →
      Placed arrivals holders chunk (some record)
  | travelling {record : ChunkRecord} (event : Event) : record.state = .awaitingArrival →
      record.scheduledArrival = some event.id →
      event.payload = .chunkArrival ⟨chunk, record.hopIndex⟩ → arrivals = {event} →
      holders = ∅ → Placed arrivals holders chunk (some record)
  | admitted {record : ChunkRecord} (link : DirectedLinkId) (copy : TransferChunk) :
      record.state = .admitted → record.scheduledArrival = none → arrivals = ∅ →
      record.route[record.hopIndex]? = some link → holders = {(link, copy)} →
      Matches record copy → Placed arrivals holders chunk (some record)
  | ended {record : ChunkRecord} : record.state.terminal = true →
      record.scheduledArrival = none → arrivals = ∅ → holders = ∅ →
      Placed arrivals holders chunk (some record)

/-- Every chunk is in its place, and no queue holds a chunk twice. -/
structure Placement (events : Set Event) (held : DirectedLinkId → List TransferChunk)
    (chunks : OrderedMap ChunkId ChunkRecord) : Prop where
  placed : ∀ chunk, Placed (arrivals events chunk) (holders held chunk) chunk (chunks.find? chunk)
  nodup : ∀ link, ((held link).map TransferChunk.id).Nodup

namespace Placed

variable {arrived : Set Event} {holding : Set (DirectedLinkId × TransferChunk)} {chunk : ChunkId}
  {found : Option ChunkRecord}

/-- An arrival to come means that the chunk travels towards it. -/
theorem of_arrival (placed : Placed arrived holding chunk found) {event : Event}
    (member : event ∈ arrived) :
    ∃ record, found = some record ∧ record.state = .awaitingArrival ∧
      record.scheduledArrival = some event.id ∧
      event.payload = .chunkArrival ⟨chunk, record.hopIndex⟩ ∧ arrived = {event} ∧
      holding = ∅ := by
  cases placed with
  | unknown empty _ => simp [empty] at member
  | registered _ _ _ empty _ => simp [empty] at member
  | travelling scheduled state arrival payload single apart =>
    rw [single, Set.mem_singleton_iff] at member
    subst member
    exact ⟨_, rfl, state, arrival, payload, single, apart⟩
  | admitted _ _ _ _ empty _ _ _ => simp [empty] at member
  | ended _ _ empty _ => simp [empty] at member

/-- A queue holds only chunks that were admitted to it. -/
theorem of_holder (placed : Placed arrived holding chunk found)
    {place : DirectedLinkId × TransferChunk} (member : place ∈ holding) :
    ∃ record, found = some record ∧ record.state = .admitted ∧
      record.scheduledArrival = none ∧ arrived = ∅ ∧
      record.route[record.hopIndex]? = some place.1 ∧ holding = {place} ∧
      Matches record place.2 := by
  cases placed with
  | unknown _ empty => simp [empty] at member
  | registered _ _ _ _ empty => simp [empty] at member
  | travelling _ _ _ _ _ empty => simp [empty] at member
  | admitted link copy state arrival none_arrives hop single same =>
    rw [single, Set.mem_singleton_iff] at member
    subst member
    exact ⟨_, rfl, state, arrival, none_arrives, hop, single, same⟩
  | ended _ _ _ empty => simp [empty] at member

theorem of_registered {record : ChunkRecord} (placed : Placed arrived holding chunk (some record))
    (state : record.state = .registered) :
    record.hopIndex = 0 ∧ record.scheduledArrival = none ∧ arrived = ∅ ∧ holding = ∅ := by
  cases placed with
  | registered _ hop arrival none_arrives none_holds => exact ⟨hop, arrival, none_arrives, none_holds⟩
  | travelling _ other => simp [state] at other
  | admitted _ _ other => simp [state] at other
  | ended other => simp [state, ChunkTransitState.terminal] at other

theorem of_admitted {record : ChunkRecord} (placed : Placed arrived holding chunk (some record))
    (state : record.state = .admitted) :
    ∃ link copy, record.route[record.hopIndex]? = some link ∧ holding = {(link, copy)} ∧
      Matches record copy := by
  cases placed with
  | registered other => simp [state] at other
  | travelling _ other => simp [state] at other
  | admitted link copy _ _ _ hop single same => exact ⟨link, copy, hop, single, same⟩
  | ended other => simp [state, ChunkTransitState.terminal] at other

theorem of_awaiting {record : ChunkRecord} (placed : Placed arrived holding chunk (some record))
    (state : record.state = .awaitingArrival) :
    ∃ event, arrived = {event} ∧ event.payload = .chunkArrival ⟨chunk, record.hopIndex⟩ ∧
      record.scheduledArrival = some event.id ∧ holding = ∅ := by
  cases placed with
  | registered other => simp [state] at other
  | travelling event _ arrival payload single apart => exact ⟨event, single, payload, arrival, apart⟩
  | admitted _ _ other => simp [state] at other
  | ended other => simp [state, ChunkTransitState.terminal] at other

theorem of_terminal {record : ChunkRecord} (placed : Placed arrived holding chunk (some record))
    (ended : record.state.terminal = true) : arrived = ∅ ∧ holding = ∅ := by
  cases placed with
  | registered other => simp [other, ChunkTransitState.terminal] at ended
  | travelling _ other => simp [other, ChunkTransitState.terminal] at ended
  | admitted _ _ other => simp [other, ChunkTransitState.terminal] at ended
  | ended _ _ none_arrives none_holds => exact ⟨none_arrives, none_holds⟩

end Placed

namespace Placement

variable {events events' : Set Event} {held held' : DirectedLinkId → List TransferChunk}
  {chunks chunks' : OrderedMap ChunkId ChunkRecord} {chunk : ChunkId}

/-- A step that touches one chunk has to place that chunk only. -/
theorem update (before : Placement events held chunks) (chunk : ChunkId)
    (events_same : ∀ other, other ≠ chunk → arrivals events' other = arrivals events other)
    (held_same : ∀ other, other ≠ chunk → holders held' other = holders held other)
    (chunks_same : ∀ other, other ≠ chunk → chunks'.find? other = chunks.find? other)
    (nodup : ∀ link, ((held' link).map TransferChunk.id).Nodup)
    (here : Placed (arrivals events' chunk) (holders held' chunk) chunk (chunks'.find? chunk)) :
    Placement events' held' chunks' where
  placed other := by
    by_cases same : other = chunk
    · subst same; exact here
    · rw [events_same other same, held_same other same, chunks_same other same]
      exact before.placed other
  nodup := nodup

/-- Events that are no arrivals do not matter. -/
theorem of_arrivals_eq (before : Placement events held chunks)
    (same : ∀ chunk, arrivals events' chunk = arrivals events chunk) :
    Placement events' held chunks where
  placed chunk := by rw [same chunk]; exact before.placed chunk
  nodup := before.nodup

theorem erase_event (before : Placement events held chunks) {event : Event}
    (foreign : ∀ chunk, ¬ ArrivalOf chunk event.payload) :
    Placement (events \ {event}) held chunks :=
  before.of_arrivals_eq fun chunk => concerning_diff_of_not (foreign chunk)

/-- The record of the chunk whose arrival is being handled. -/
theorem arriving (before : Placement events held chunks) {event : Event} {hopIndex : Nat}
    (member : event ∈ events) (payload : event.payload = .chunkArrival ⟨chunk, hopIndex⟩) :
    ∃ record, chunks.find? chunk = some record ∧ record.state = .awaitingArrival ∧
      record.scheduledArrival = some event.id ∧ record.hopIndex = hopIndex ∧
      arrivals events chunk = {event} ∧ holders held chunk = ∅ := by
  obtain ⟨record, found, state, arrival, payload', single, apart⟩ :=
    (before.placed chunk).of_arrival ⟨member, hopIndex, payload⟩
  refine ⟨record, found, state, arrival, ?_, single, apart⟩
  rw [payload] at payload'
  cases payload'
  rfl

/-- The record of a chunk in a queue. -/
theorem holding (before : Placement events held chunks) {link : DirectedLinkId}
    {copy : TransferChunk} (member : copy ∈ held link) :
    ∃ record, chunks.find? copy.id = some record ∧ record.state = .admitted ∧
      record.scheduledArrival = none ∧ arrivals events copy.id = ∅ ∧
      record.route[record.hopIndex]? = some link ∧ holders held copy.id = {(link, copy)} ∧
      Matches record copy := by
  have place : (link, copy) ∈ holders held copy.id := ⟨member, rfl⟩
  exact (before.placed copy.id).of_holder place

end Placement

/-! ## Chunks on the move

The queues are a function of the link here; `Function.update` changes the queue of one link. -/

section Holders

variable {held : DirectedLinkId → List TransferChunk} {link : DirectedLinkId}
  {copy : TransferChunk} {rest : List TransferChunk}

theorem holders_append_of_ne {chunk : ChunkId} (differs : chunk ≠ copy.id) :
    holders (Function.update held link (held link ++ [copy])) chunk = holders held chunk := by
  ext place
  obtain ⟨other, queued⟩ := place
  simp only [holders, Set.mem_ofPred_eq]
  by_cases same : other = link
  · subst same
    simp only [Function.update_self, List.mem_append, List.mem_singleton]
    constructor
    · intro h
      obtain ⟨member | rfl, id⟩ := h
      · exact ⟨member, id⟩
      · exact absurd id.symm differs
    · intro h
      exact ⟨.inl h.1, h.2⟩
  · simp [Function.update_of_ne same]

theorem holders_append_self (absent : holders held copy.id = ∅) :
    holders (Function.update held link (held link ++ [copy])) copy.id = {(link, copy)} := by
  ext place
  obtain ⟨other, queued⟩ := place
  have apart : ¬ (queued ∈ held other ∧ queued.id = copy.id) := fun h => by
    have member : (other, queued) ∈ holders held copy.id := h
    simp [absent] at member
  simp only [holders, Set.mem_ofPred_eq, Set.mem_singleton_iff, Prod.mk.injEq]
  by_cases same : other = link
  · subst same
    simp only [Function.update_self, List.mem_append, List.mem_singleton, true_and]
    constructor
    · intro h
      obtain ⟨member | rfl, id⟩ := h
      · exact absurd ⟨member, id⟩ apart
      · rfl
    · intro h
      subst h
      exact ⟨.inr rfl, rfl⟩
  · simp only [Function.update_of_ne same, same, false_and, iff_false]
    exact apart

theorem holders_tail_of_ne (queue : held link = copy :: rest) {chunk : ChunkId}
    (differs : chunk ≠ copy.id) :
    holders (Function.update held link rest) chunk = holders held chunk := by
  ext place
  obtain ⟨other, queued⟩ := place
  simp only [holders, Set.mem_ofPred_eq]
  by_cases same : other = link
  · subst same
    simp only [Function.update_self, queue, List.mem_cons]
    constructor
    · intro h
      exact ⟨.inr h.1, h.2⟩
    · intro h
      obtain ⟨rfl | member, id⟩ := h
      · exact absurd id.symm differs
      · exact ⟨member, id⟩
  · simp [Function.update_of_ne same]

theorem holders_tail_self (queue : held link = copy :: rest)
    (nodup : ((held link).map TransferChunk.id).Nodup)
    (single : holders held copy.id = {(link, copy)}) :
    holders (Function.update held link rest) copy.id = ∅ := by
  rw [queue, List.map_cons, List.nodup_cons] at nodup
  rw [Set.eq_empty_iff_forall_notMem]
  intro place member
  obtain ⟨other, queued⟩ := place
  obtain ⟨member, id⟩ := member
  by_cases same : other = link
  · subst same
    simp only [Function.update_self] at member
    exact nodup.1 (id ▸ List.mem_map_of_mem member)
  · simp only [Function.update_of_ne same] at member
    have place : (other, queued) ∈ holders held copy.id := ⟨member, id⟩
    rw [single, Set.mem_singleton_iff] at place
    exact same (congrArg Prod.fst place)

theorem heldBy_insert {services : OrderedMap DirectedLinkId DirectedLinkService}
    {service : DirectedLinkService} :
    heldBy (services.insert link service) =
      Function.update (heldBy services) link service.queue.held := by
  funext other
  by_cases same : other = link
  · subst same
    simp [heldBy]
  · simp [heldBy, same]

end Holders

namespace Placement

variable {events : Set Event} {held : DirectedLinkId → List TransferChunk}
  {chunks : OrderedMap ChunkId ChunkRecord} {chunk : ChunkId} {record : ChunkRecord} {event : Event}
  {link : DirectedLinkId} {copy : TransferChunk} {rest : List TransferChunk}

/-- A new chunk. -/
theorem register (before : Placement events held chunks) (fresh : chunks.find? chunk = none)
    (state : record.state = .registered) (hop : record.hopIndex = 0)
    (arrival : record.scheduledArrival = none) :
    Placement events held (chunks.insert chunk record) := by
  have nowhere := before.placed chunk
  rw [fresh] at nowhere
  cases nowhere with
  | unknown none_arrives none_holds =>
    apply before.update chunk (fun _ _ => rfl) (fun _ _ => rfl)
      (fun _ differs => OrderedMap.find?_insert_of_ne _ _ differs) before.nodup
    rw [OrderedMap.find?_insert_self]
    exact .registered state hop arrival none_arrives none_holds

/-- A chunk that no queue holds and no event announces sets out for its next hop. -/
theorem depart (before : Placement events held chunks)
    (none_arrives : arrivals events chunk = ∅) (none_holds : holders held chunk = ∅)
    (payload : event.payload = .chunkArrival ⟨chunk, record.hopIndex⟩)
    (state : record.state = .awaitingArrival) (arrival : record.scheduledArrival = some event.id) :
    Placement (insert event events) held (chunks.insert chunk record) := by
  apply before.update chunk _ (fun _ _ => rfl)
    (fun _ differs => OrderedMap.find?_insert_of_ne _ _ differs) before.nodup
  · rw [OrderedMap.find?_insert_self]
    apply Placed.travelling event state arrival payload _ none_holds
    rw [arrivals, concerning_insert ⟨_, payload⟩]
    rw [arrivals] at none_arrives
    rw [none_arrives]
    simp
  · intro other differs
    exact concerning_insert_of_not fun same => differs (arrivalOf_inj same ⟨_, payload⟩)

/-- The chunk whose arrival is handled comes to its end. -/
theorem finish (before : Placement events held chunks)
    (payload : ArrivalOf chunk event.payload) (single : arrivals events chunk = {event})
    (none_holds : holders held chunk = ∅) (state : record.state.terminal = true)
    (arrival : record.scheduledArrival = none) :
    Placement (events \ {event}) held (chunks.insert chunk record) := by
  apply before.update chunk _ (fun _ _ => rfl)
    (fun _ differs => OrderedMap.find?_insert_of_ne _ _ differs) before.nodup
  · rw [OrderedMap.find?_insert_self]
    apply Placed.ended state arrival _ none_holds
    rw [arrivals, concerning_diff]
    rw [arrivals] at single
    simp [single]
  · intro other differs
    exact concerning_diff_of_not fun same => differs (arrivalOf_inj same payload)

/-- The chunk whose arrival is handled joins the queue of its link. -/
theorem admitted_to (before : Placement events held chunks)
    (payload : ArrivalOf chunk event.payload) (single : arrivals events chunk = {event})
    (none_holds : holders held chunk = ∅) (state : record.state = .admitted)
    (arrival : record.scheduledArrival = none)
    (hop : record.route[record.hopIndex]? = some link) (same : Matches record copy)
    (id : copy.id = chunk) :
    Placement (events \ {event}) (Function.update held link (held link ++ [copy]))
      (chunks.insert chunk record) := by
  subst id
  apply before.update copy.id
  · intro other differs
    exact concerning_diff_of_not fun same => differs (arrivalOf_inj same payload)
  · intro other differs
    exact holders_append_of_ne differs
  · intro other differs
    exact OrderedMap.find?_insert_of_ne _ _ differs
  · intro other
    by_cases here : other = link
    · subst here
      simp only [Function.update_self, List.map_append, List.map_cons, List.map_nil]
      apply List.Nodup.append (before.nodup other) (List.nodup_singleton _)
      intro id member single
      rw [List.mem_singleton] at single
      subst single
      obtain ⟨queued, member, same⟩ := List.mem_map.mp member
      have place : (other, queued) ∈ holders held copy.id := ⟨member, same⟩
      simp [none_holds] at place
    · rw [Function.update_of_ne here]
      exact before.nodup other
  · rw [OrderedMap.find?_insert_self]
    apply Placed.admitted link copy state arrival _ hop (holders_append_self none_holds) same
    rw [arrivals, concerning_diff]
    rw [arrivals] at single
    simp [single]

/-- The first chunk of a queue leaves it for good. -/
theorem leave (before : Placement events held chunks) (queue : held link = copy :: rest)
    (state : record.state.terminal = true) (arrival : record.scheduledArrival = none) :
    Placement events (Function.update held link rest) (chunks.insert copy.id record) := by
  have member : copy ∈ held link := by simp [queue]
  obtain ⟨_, _, _, _, none_arrives, _, single, _⟩ := before.holding member
  apply before.update copy.id (fun _ _ => rfl)
    (fun _ differs => holders_tail_of_ne queue differs)
    (fun _ differs => OrderedMap.find?_insert_of_ne _ _ differs)
  · intro other
    by_cases here : other = link
    · subst here
      have nodup := before.nodup other
      rw [queue, List.map_cons, List.nodup_cons] at nodup
      rw [Function.update_self]
      exact nodup.2
    · rw [Function.update_of_ne here]
      exact before.nodup other
  · rw [OrderedMap.find?_insert_self, holders_tail_self queue (before.nodup link) single]
    exact .ended state arrival none_arrives rfl

/-- The first chunk of a queue leaves it for its next hop. -/
theorem moveOn (before : Placement events held chunks) (queue : held link = copy :: rest)
    (payload : event.payload = .chunkArrival ⟨copy.id, record.hopIndex⟩)
    (state : record.state = .awaitingArrival) (arrival : record.scheduledArrival = some event.id) :
    Placement (insert event events) (Function.update held link rest)
      (chunks.insert copy.id record) := by
  -- in between, the chunk is as good as gone
  have gone : Placement events (Function.update held link rest) (chunks.insert copy.id
      { record with state := .delivered, scheduledArrival := none }) :=
    before.leave queue rfl rfl
  have nowhere := gone.placed copy.id
  rw [OrderedMap.find?_insert_self] at nowhere
  cases nowhere with
  | registered other => simp at other
  | travelling _ other => simp at other
  | admitted _ _ other => simp at other
  | ended _ _ none_arrives none_holds =>
    have departed := gone.depart none_arrives none_holds payload state arrival
    rwa [OrderedMap.insert_insert] at departed

end Placement

/-! ## Links -/

/-- A link has a chunk in service exactly when its one completion event is to come. -/
inductive Runs (transmitted : Set Event) (now : SimTimeNs) (link : DirectedLinkId) :
    Option DirectedLinkService → Prop where
  | unconfigured : transmitted = ∅ → Runs transmitted now link none
  | idle {service : DirectedLinkService} : service.queue.configuration.link = link →
      service.queue.active = none → service.queue.waiting = [] →
      service.scheduledCompletion = none → service.busySince = none → transmitted = ∅ →
      Runs transmitted now link (some service)
  | busy {service : DirectedLinkService} (event : Event) (active : TransferChunk)
      (since : SimTimeNs) : service.queue.configuration.link = link →
      service.queue.active = some active → service.scheduledCompletion = some event.id →
      service.busySince = some since → since ≤ now →
      event.payload =
        .transmissionComplete ⟨link.link, active.id, active.hopIndex, link.direction⟩ →
      transmitted = {event} → Runs transmitted now link (some service)

/-- Every link runs as its service says. -/
def Running (events : Set Event) (now : SimTimeNs)
    (services : OrderedMap DirectedLinkId DirectedLinkService) : Prop :=
  ∀ link, Runs (transmissions events link) now link (services.find? link)

namespace Runs

variable {transmitted : Set Event} {now : SimTimeNs} {link : DirectedLinkId}
  {found : Option DirectedLinkService}

theorem of_transmission (runs : Runs transmitted now link found) {event : Event}
    (member : event ∈ transmitted) :
    ∃ service active since, found = some service ∧
      service.queue.configuration.link = link ∧ service.queue.active = some active ∧
      service.scheduledCompletion = some event.id ∧ service.busySince = some since ∧ since ≤ now ∧
      event.payload =
        .transmissionComplete ⟨link.link, active.id, active.hopIndex, link.direction⟩ ∧
      transmitted = {event} := by
  cases runs with
  | unconfigured empty => simp [empty] at member
  | idle _ _ _ _ _ empty => simp [empty] at member
  | busy scheduled active since configured inService completion started past payload single =>
    rw [single, Set.mem_singleton_iff] at member
    subst member
    exact ⟨_, active, since, rfl, configured, inService, completion, started, past, payload, single⟩

theorem configured {service : DirectedLinkService}
    (runs : Runs transmitted now link (some service)) :
    service.queue.configuration.link = link := by
  cases runs <;> assumption

/-- Time may pass. -/
theorem later (runs : Runs transmitted now link found) {now' : SimTimeNs} (le : now ≤ now') :
    Runs transmitted now' link found := by
  cases runs with
  | unconfigured empty => exact .unconfigured empty
  | idle configured inactive waiting completion started empty =>
    exact .idle configured inactive waiting completion started empty
  | busy event active since configured inService completion started past payload single =>
    exact .busy event active since configured inService completion started (past.trans le) payload
      single

/-- The statistics of a service are its own business. -/
theorem statistics {service : DirectedLinkService} (runs : Runs transmitted now link (some service))
    (statistics : LinkStatistics) :
    Runs transmitted now link (some { service with statistics }) := by
  cases runs with
  | idle configured inactive waiting completion started empty =>
    exact .idle configured inactive waiting completion started empty
  | busy event active since configured inService completion started past payload single =>
    exact .busy event active since configured inService completion started past payload single

end Runs

namespace Running

variable {events events' : Set Event} {now : SimTimeNs}
  {services : OrderedMap DirectedLinkId DirectedLinkService} {link : DirectedLinkId}

/-- A step that touches the service of one link has to look at that link only. -/
theorem update (before : Running events now services) (link : DirectedLinkId)
    {service : DirectedLinkService}
    (events_same : ∀ other, other ≠ link → transmissions events' other = transmissions events other)
    (here : Runs (transmissions events' link) now link (some service)) :
    Running events' now (services.insert link service) := by
  intro other
  by_cases same : other = link
  · subst same
    rw [OrderedMap.find?_insert_self]
    exact here
  · rw [OrderedMap.find?_insert_of_ne _ _ same, events_same other same]
    exact before other

theorem of_transmissions_eq (before : Running events now services)
    (same : ∀ link, transmissions events' link = transmissions events link) :
    Running events' now services := by
  intro link
  rw [same link]
  exact before link

theorem insert_event (before : Running events now services) {event : Event}
    (foreign : ∀ link, ¬ TransmissionOn link event.payload) :
    Running (insert event events) now services :=
  before.of_transmissions_eq fun link => concerning_insert_of_not (foreign link)

theorem erase_event (before : Running events now services) {event : Event}
    (foreign : ∀ link, ¬ TransmissionOn link event.payload) :
    Running (events \ {event}) now services :=
  before.of_transmissions_eq fun link => concerning_diff_of_not (foreign link)

theorem later (before : Running events now services) {now' : SimTimeNs} (le : now ≤ now') :
    Running events now' services :=
  fun link => (before link).later le

/-- The service whose transmission is being completed. -/
theorem transmitting (before : Running events now services) {event : Event} {chunk : ChunkId}
    {hopIndex : Nat} (member : event ∈ events)
    (payload : event.payload =
      .transmissionComplete ⟨link.link, chunk, hopIndex, link.direction⟩) :
    ∃ service active since, services.find? link = some service ∧
      service.queue.configuration.link = link ∧ service.queue.active = some active ∧
      service.scheduledCompletion = some event.id ∧ service.busySince = some since ∧ since ≤ now ∧
      active.id = chunk ∧ active.hopIndex = hopIndex ∧ transmissions events link = {event} := by
  obtain ⟨service, active, since, found, configured, inService, completion, started, past,
    payload', single⟩ := (before link).of_transmission ⟨member, chunk, hopIndex, payload⟩
  rw [payload] at payload'
  cases payload'
  exact ⟨service, active, since, found, configured, inService, completion, started, past, rfl, rfl,
    single⟩

end Running

end NexusLab.Transport
