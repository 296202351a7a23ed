import NexusLab.Transport.Drive

/-! # When the events of the runtime are due

Transmissions complete at control priority and chunks arrive at normal priority, so that at any one
time all completions come before all arrivals.  An arrival is never further away than the
propagation delay of the link the chunk comes from. -/

namespace NexusLab.Transport

open Foundation Sim NexusLab.Topology

/-- What is known about the timing of the events to come. -/
structure Timely (events : Set Event) (now : SimTimeNs)
    (chunks : OrderedMap ChunkId ChunkRecord)
    (services : OrderedMap DirectedLinkId DirectedLinkService) : Prop where
  arrivals : ∀ event ∈ events, ∀ chunk, ArrivalOf chunk event.payload → event.priority = .normal
  transmissions : ∀ event ∈ events, ∀ link, TransmissionOn link event.payload →
    event.priority = .control
  due : ∀ event ∈ events, ∀ chunk hopIndex record link service,
    event.payload = .chunkArrival ⟨chunk, hopIndex + 1⟩ → chunks.find? chunk = some record →
    record.route[hopIndex]? = some link → services.find? link = some service →
    event.timestamp ≤ now + service.queue.configuration.propagationDelay

/-- The event whose handler is to run comes before all other events of the runtime. -/
def Foremost (d : Drive) : Prop :=
  ∀ event, d.awaiting = some event → ownPayload event.payload = true →
    ∀ other, d.network.kernel.sim.Live other → ownPayload other.payload = true →
      event.key < other.key

/-! ## Configurations -/

/-- No link is configured anew. -/
def SameConfigurations (n n' : Network) : Prop :=
  ∀ link service', n'.transport.services.find? link = some service' →
    ∃ service, n.transport.services.find? link = some service ∧
      service'.queue.configuration = service.queue.configuration

theorem SameConfigurations.refl (n : Network) : SameConfigurations n n :=
  fun _ service found => ⟨service, found, rfl⟩

theorem SameConfigurations.of_leaves {n n' : Network} {sim : Simulation}
    {chunks : OrderedMap ChunkId ChunkRecord} {link : DirectedLinkId}
    {service service' : DirectedLinkService}
    (leaves : Network.Leaves n sim chunks (n.transport.services.insert link service') n')
    (found : n.transport.services.find? link = some service)
    (same : service'.queue.configuration = service.queue.configuration) :
    SameConfigurations n n' := by
  obtain ⟨transfers, completions, transport⟩ := leaves.transport
  intro other after isAfter
  rw [transport] at isAfter
  by_cases here : other = link
  · subst here
    simp only [OrderedMap.find?_insert_self, Option.some.injEq] at isAfter
    exact ⟨service, found, isAfter ▸ same⟩
  · rw [OrderedMap.find?_insert_of_ne _ _ here] at isAfter
    exact ⟨after, isAfter, rfl⟩

theorem Dispatched.sameConfigurations {taken : List TransferCompletion} {event : Event}
    {n n' : Network} (dispatched : Dispatched taken event n n') : SameConfigurations n n' := by
  cases dispatched with
  | passed _ => exact .refl n
  | arrived arrives =>
    cases arrives with
    | delivered _ _ leaves =>
      obtain ⟨transfers, completions, transport⟩ := leaves.transport
      intro link service found
      rw [transport] at found
      exact ⟨service, found, rfl⟩
    | blocked _ enters _ leaves => exact .of_leaves leaves enters.isService rfl
    | started _ enters _ _ _ _ leaves => exact .of_leaves leaves enters.isService rfl
    | queued enters _ _ _ leaves => exact .of_leaves leaves enters.isService rfl
    | rejected enters _ _ _ leaves => exact .of_leaves leaves enters.isService rfl
  | completed completes =>
    cases completes with
    | idled _ _ completing _ _ _ leaves => exact .of_leaves leaves completing.isService rfl
    | advanced _ _ _ _ completing _ _ _ _ _ _ leaves =>
      exact .of_leaves leaves completing.isService rfl
  | @changed _ graph given changes reconciled =>
    intro link service' found
    by_cases gives : link ∈ given
    · obtain ⟨statistics, emptied⟩ := reconciled.emptied link gives
      rw [found] at emptied
      obtain ⟨service, isService, same⟩ := Option.map_eq_some_iff.mp emptied.symm
      subst same
      exact ⟨service, isService, rfl⟩
    · rw [reconciled.kept link gives] at found
      exact ⟨service', found, rfl⟩

theorem Effect.sameConfigurations {d d' : Drive} (effect : Effect d d') :
    SameConfigurations d.network d'.network := by
  cases effect with
  | quiet _ quiet =>
    intro link service found
    rw [quiet.services] at found
    exact ⟨service, found, rfl⟩
  | began _ _ _ began =>
    intro link service found
    rw [began.transport] at found
    exact ⟨service, found, rfl⟩
  | dispatched _ _ _ dispatched => exact dispatched.sameConfigurations

/-! ## What a dispatch schedules -/

/-- The event is about the link: a transmission on it is complete, or a chunk is to enter it. -/
def Touches (n : Network) (event : Event) (link : DirectedLinkId) : Prop :=
  TransmissionOn link event.payload ∨ ∃ chunk hopIndex record,
    event.payload = .chunkArrival ⟨chunk, hopIndex⟩ ∧
    n.transport.chunks.find? chunk = some record ∧ record.route[hopIndex]? = some link

/-- A new event, scheduled by the dispatch of the given one. -/
inductive Introduced (n : Network) (dispatched event : Event) : Prop where
  | transmission {link : DirectedLinkId} : ¬ n.kernel.sim.eventIds.Issued event.id.value →
      Touches n dispatched link → TransmissionOn link event.payload → event.priority = .control →
      n.kernel.sim.now ≤ event.timestamp → Introduced n dispatched event
  | arrival {chunk : ChunkId} {record : ChunkRecord} {link : DirectedLinkId}
      {service : DirectedLinkService} (hopIndex : Nat) :
      ¬ n.kernel.sim.eventIds.Issued event.id.value →
      dispatched.payload = .transmissionComplete ⟨link.link, chunk, hopIndex, link.direction⟩ →
      n.transport.chunks.find? chunk = some record → record.state = .admitted →
      record.hopIndex = hopIndex → record.route[hopIndex]? = some link →
      n.transport.services.find? link = some service →
      event.payload = .chunkArrival ⟨chunk, hopIndex + 1⟩ → event.priority = .normal →
      event.timestamp = n.kernel.sim.now + service.queue.configuration.propagationDelay →
      Introduced n dispatched event

section Dispatch

variable {n n' : Network} {taken : List TransferCompletion} {event : Event}

theorem Network.Completing.introduced {link : DirectedLinkId} {service : DirectedLinkService}
    {active : TransferChunk} {record : ChunkRecord} {arrival : SimTimeNs}
    (completing : Network.Completing taken n event link service active record)
    (added : checkedAdd n.kernel.sim.now service.queue.configuration.propagationDelay =
      some arrival) {sim : Simulation}
    (fresh : ¬ n.kernel.sim.eventIds.Issued sim.eventIds.nextValue) :
    Introduced n event (sim.eventFor (Network.arrivalSpec record active arrival)) := by
  refine .arrival record.hopIndex fresh ?_ completing.found completing.state rfl completing.onRoute
    completing.isService ?_ rfl (checkedAdd_eq_some added)
  · rw [← completing.same.hop]
    exact completing.payload
  · simp [Simulation.eventFor, Network.arrivalSpec, completing.nextHop.1]

theorem introduced_completion {link : DirectedLinkId} {configuration : DirectedLinkConfiguration}
    {chunk : TransferChunk} {time : SimTimeNs} (touches : Touches n event link)
    (configured : configuration.link = link)
    (ok : completionTime chunk configuration n.kernel.sim.now = .ok time)
    (remaining : n.kernel.sim.eventIds.exhausted = false) :
    Introduced n event (n.kernel.sim.eventFor
      (DirectedLinkService.completionSpec configuration chunk time)) := by
  have onLink : TransmissionOn link (n.kernel.sim.eventFor
      (DirectedLinkService.completionSpec configuration chunk time)).payload :=
    ⟨chunk.id, chunk.hopIndex, by rw [← configured]; rfl⟩
  exact .transmission (Simulation.not_issued_next remaining) touches onLink rfl
    (completionTime_ok ok)

theorem Network.Entering.configured {chunk : ChunkId} {record : ChunkRecord}
    {link : DirectedLinkId} {service : DirectedLinkService} {arc : DirectedLink}
    (enters : Network.Entering taken n event chunk record link service arc) :
    service.queue.configuration.link = link := by
  have runs := enters.arriving.inv.running link
  rw [enters.isService] at runs
  exact runs.configured

theorem Network.Entering.touches {chunk : ChunkId} {record : ChunkRecord}
    {link : DirectedLinkId} {service : DirectedLinkService} {arc : DirectedLink}
    (enters : Network.Entering taken n event chunk record link service arc) :
    Touches n event link :=
  .inr ⟨chunk, record.hopIndex, record, enters.arriving.payload, enters.arriving.found, enters.hop⟩

theorem Network.Completing.touches {link : DirectedLinkId} {service : DirectedLinkService}
    {active : TransferChunk} {record : ChunkRecord}
    (completing : Network.Completing taken n event link service active record) :
    Touches n event link := .inl ⟨_, _, completing.payload⟩

/-- Whatever is to come after a dispatch was to come before, or the dispatch has scheduled it. -/
theorem Dispatched.live_or (dispatched : Dispatched taken event n n')
    (inv : Invariant (some event) taken n) {other : Event} (live : n'.kernel.sim.Live other) :
    n.kernel.sim.Live other ∨ Introduced n event other := by
  cases dispatched with
  | passed _ => exact .inl live
  | arrived arrives =>
    cases arrives with
    | delivered _ _ leaves => exact .inl (leaves.sim ▸ live)
    | blocked _ _ _ leaves => exact .inl (leaves.sim ▸ live)
    | queued _ _ _ _ leaves => exact .inl (leaves.sim ▸ live)
    | rejected _ _ _ _ leaves => exact .inl (leaves.sim ▸ live)
    | started time enters _ _ remaining ok leaves =>
      rw [leaves.sim] at live
      cases (inv.valid.live_scheduled remaining).mp live with
      | inl added => exact .inr (added ▸ introduced_completion enters.touches enters.configured ok remaining)
      | inr live => exact .inl live
  | completed completes =>
    cases completes with
    | idled _ _ completing _ added remaining leaves =>
      have fresh := Simulation.not_issued_next remaining
      rw [leaves.sim] at live
      cases (inv.valid.live_scheduled remaining).mp live with
      | inl isNew => exact .inr (isNew ▸ completing.introduced added fresh)
      | inr live => exact .inl live
    | advanced _ _ _ sim₁ completing _ added remaining ok isSim remaining₁ leaves =>
      have valid₁ : sim₁.Valid := isSim ▸ inv.valid.scheduled remaining (completionTime_ok ok)
      have fresh : ¬ n.kernel.sim.eventIds.Issued sim₁.eventIds.nextValue := by
        intro issued
        apply Simulation.not_issued_next remaining₁
        rw [isSim]
        exact Simulation.issued_advanced (isSim ▸ issued)
      rw [leaves.sim] at live
      cases (valid₁.live_scheduled remaining₁).mp live with
      | inl isNew => exact .inr (isNew ▸ completing.introduced added fresh)
      | inr live =>
        rw [isSim] at live
        cases (inv.valid.live_scheduled remaining).mp live with
        | inl isNew => exact .inr (isNew ▸ introduced_completion completing.touches completing.configured ok
          remaining)
        | inr live => exact .inl live
  | changed _ reconciled => exact .inl ((reconciled.live other).mp live).1

/-- A chunk's arrival is handled as an arrival. -/
theorem Dispatched.arrives (dispatched : Dispatched taken event n n') {chunk : ChunkId}
    (arrival : ArrivalOf chunk event.payload) : Network.Arrives taken n event n' := by
  cases dispatched with
  | passed foreign => exact absurd arrival (not_arrivalOf_of_foreign foreign chunk)
  | arrived arrives => exact arrives
  | completed completes =>
    cases completes with
    | idled _ _ completing => exact absurd ⟨_, _, completing.payload⟩ (not_both arrival)
    | advanced _ _ _ _ completing => exact absurd ⟨_, _, completing.payload⟩ (not_both arrival)
  | changed changes _ =>
    obtain ⟨hopIndex, payload⟩ := arrival
    rw [payload] at changes
    cases changes

theorem Dispatched.completes (dispatched : Dispatched taken event n n') {link : DirectedLinkId}
    (onLink : TransmissionOn link event.payload) : Network.Completes taken n event n' := by
  cases dispatched with
  | passed foreign => exact absurd onLink (not_transmissionOn_of_foreign foreign link)
  | completed completes => exact completes
  | arrived arrives =>
    cases arrives with
    | delivered arriving => exact absurd onLink (not_both ⟨_, arriving.payload⟩)
    | blocked _ enters => exact absurd onLink (not_both ⟨_, enters.arriving.payload⟩)
    | started _ enters => exact absurd onLink (not_both ⟨_, enters.arriving.payload⟩)
    | queued enters => exact absurd onLink (not_both ⟨_, enters.arriving.payload⟩)
    | rejected enters => exact absurd onLink (not_both ⟨_, enters.arriving.payload⟩)
  | changed changes _ =>
    obtain ⟨chunk, hopIndex, payload⟩ := onLink
    rw [payload] at changes
    cases changes

/-- Only the service of the link in question changes, unless links give up their queues. -/
theorem Dispatched.service_kept (dispatched : Dispatched taken event n n') {link : DirectedLinkId}
    (apart : ¬ Touches n event link) :
    n'.transport.services.find? link = n.transport.services.find? link ∨
      ∃ graph given, Changes n event.payload graph given ∧ link ∈ given ∧
        Network.Reconciled given { n with graph } n' := by
  have other : ∀ {sim : Simulation} {chunks : OrderedMap ChunkId ChunkRecord}
      {touched : DirectedLinkId} {service : DirectedLinkService}, Touches n event touched →
      Network.Leaves n sim chunks (n.transport.services.insert touched service) n' →
      n'.transport.services.find? link = n.transport.services.find? link := by
    intro sim chunks touched service touches leaves
    obtain ⟨transfers, completions, transport⟩ := leaves.transport
    rw [transport]
    refine OrderedMap.find?_insert_of_ne _ _ ?_
    intro same
    exact apart (same ▸ touches)
  cases dispatched with
  | passed _ => exact .inl rfl
  | arrived arrives =>
    cases arrives with
    | delivered _ _ leaves =>
      obtain ⟨transfers, completions, transport⟩ := leaves.transport
      exact .inl (by rw [transport])
    | blocked _ enters _ leaves => exact .inl (other enters.touches leaves)
    | started _ enters _ _ _ _ leaves => exact .inl (other enters.touches leaves)
    | queued enters _ _ _ leaves => exact .inl (other enters.touches leaves)
    | rejected enters _ _ _ leaves => exact .inl (other enters.touches leaves)
  | completed completes =>
    cases completes with
    | idled _ _ completing _ _ _ leaves => exact .inl (other completing.touches leaves)
    | advanced _ _ _ _ completing _ _ _ _ _ _ leaves =>
      exact .inl (other completing.touches leaves)
  | @changed _ graph given changes reconciled =>
    by_cases gives : link ∈ given
    · exact .inr ⟨graph, given, changes, gives, reconciled⟩
    · exact .inl (reconciled.kept link gives)

/-- A dispatch takes no time. -/
theorem Dispatched.now_same (dispatched : Dispatched taken event n n') :
    n'.kernel.sim.now = n.kernel.sim.now := by
  cases dispatched with
  | passed _ => rfl
  | arrived arrives => cases arrives <;> rename_i leaves <;> exact leaves.sim ▸ rfl
  | completed completes =>
    cases completes with
    | idled _ _ _ _ _ _ leaves =>
      rw [leaves.sim]
      rfl
    | advanced _ _ _ _ _ _ _ _ _ isSim _ leaves =>
      rw [leaves.sim, isSim]
      rfl
  | changed _ reconciled => exact reconciled.now

end Dispatch

/-! ## Every reachable state is timely -/

/-- In a reachable state the events are timely. -/
def Punctual (d : Drive) : Prop :=
  Timely (outstanding d.network.kernel.sim d.awaiting) d.network.kernel.sim.now
    d.network.transport.chunks d.network.transport.services

/-- Events that were to come already stay timely. -/
theorem Timely.due_later {events : Set Event} {now later : SimTimeNs} {n n' : Network}
    (timely : Timely events now n.transport.chunks n.transport.services)
    {awaiting : Option Event} {taken : List TransferCompletion} (inv : Invariant awaiting taken n)
    (isEvents : events = outstanding n.kernel.sim awaiting)
    (grows : Grows ChunkRecord.Becomes n.transport.chunks n'.transport.chunks)
    (same : SameConfigurations n n') (le : now ≤ later) {event : Event} (member : event ∈ events)
    {chunk : ChunkId} {hopIndex : Nat} {record : ChunkRecord} {link : DirectedLinkId}
    {service : DirectedLinkService}
    (payload : event.payload = .chunkArrival ⟨chunk, hopIndex + 1⟩)
    (found : n'.transport.chunks.find? chunk = some record)
    (onRoute : record.route[hopIndex]? = some link)
    (isService : n'.transport.services.find? link = some service) :
    event.timestamp ≤ later + service.queue.configuration.propagationDelay := by
  subst isEvents
  obtain ⟨before, isBefore, _⟩ := inv.placement.arriving member payload
  obtain ⟨after, isAfter, becomes⟩ := grows chunk before isBefore
  rw [found] at isAfter
  cases isAfter
  obtain ⟨old, isOld, configuration⟩ := same link service isService
  have due := timely.due event member chunk hopIndex before link old payload isBefore
    (becomes.route ▸ onRoute) isOld
  rw [configuration]
  exact due.trans (Nat.add_le_add_right le _)

theorem Effect.punctual {d d' : Drive} (effect : Effect d d')
    (follows : Follows d'.awaiting d'.taken d.network d'.network)
    (inv : Invariant d.awaiting d.taken d.network) (timely : Punctual d) : Punctual d' := by
  have same := effect.sameConfigurations
  have kept := fun later => @Timely.due_later _ _ later _ _ timely _ _ inv rfl follows.chunks same
  cases effect with
  | quiet awaiting quiet =>
    -- a call adds arrivals at first hops, and no other event of the transport
    have before : ∀ event ∈ outstanding d'.network.kernel.sim d'.awaiting,
        ownPayload event.payload = true →
        event ∈ outstanding d.network.kernel.sim d.awaiting ∨
          event.priority = .normal ∧ ∃ chunk, event.payload = .chunkArrival ⟨chunk, 0⟩ := by
      intro event member own
      cases member with
      | inr isAwaited => exact .inl (.inr (awaiting ▸ isAwaited))
      | inl live =>
        cases quiet.arrivals event own live with
        | inl live => exact .inl (.inl live)
        | inr added =>
          obtain ⟨_, chunk, payload, _, priority, _⟩ := added
          exact .inr ⟨priority, chunk, payload⟩
    constructor
    · intro event member chunk arrival
      obtain ⟨hopIndex, payload⟩ := arrival
      cases before event member (by simp [payload, ownPayload]) with
      | inl member => exact timely.arrivals event member chunk ⟨hopIndex, payload⟩
      | inr added => exact added.1
    · intro event member link transmission
      obtain ⟨chunk, hopIndex, payload⟩ := transmission
      cases before event member (by simp [payload, ownPayload]) with
      | inl member => exact timely.transmissions event member link ⟨chunk, hopIndex, payload⟩
      | inr added =>
        obtain ⟨_, chunk, arrival⟩ := added
        rw [payload] at arrival
        cases arrival
    · intro event member chunk hopIndex record link service payload found onRoute isService
      cases before event member (by simp [payload, ownPayload]) with
      | inl member =>
        exact kept _ (le_of_eq quiet.now.symm) member payload found onRoute isService
      | inr added =>
        obtain ⟨_, other, arrival⟩ := added
        rw [payload] at arrival
        cases arrival
  | began event idle isAwaited began =>
    -- the event that is started stays outstanding while time goes on
    have events : outstanding d'.network.kernel.sim d'.awaiting =
        outstanding d.network.kernel.sim d.awaiting := by
      rw [isAwaited, idle]
      exact outstanding_started inv.valid began.started
    have later : d.network.kernel.sim.now ≤ d'.network.kernel.sim.now :=
      began.now ▸ inv.valid.future event began.started.live.1
    constructor
    · rw [events]
      exact timely.arrivals
    · rw [events]
      exact timely.transmissions
    · intro other member chunk hopIndex record link service payload found onRoute isService
      rw [events] at member
      exact kept _ later member payload found onRoute isService
  | dispatched event isAwaited idle dispatched =>
    rw [isAwaited] at inv
    -- what a handler adds is the next transmission of a link or an arrival at a next hop
    have before : ∀ other ∈ outstanding d'.network.kernel.sim d'.awaiting,
        other ∈ outstanding d.network.kernel.sim d.awaiting ∨ Introduced d.network event other := by
      intro other member
      rw [idle, outstanding_none] at member
      cases dispatched.live_or inv member with
      | inl live => exact .inl (.inl live)
      | inr added => exact .inr added
    constructor
    · intro other member chunk arrival
      cases before other member with
      | inl member => exact timely.arrivals other member chunk arrival
      | inr added =>
        cases added with
        | transmission _ _ onLink => exact absurd onLink (not_both arrival)
        | arrival _ _ _ _ _ _ _ _ _ priority => exact priority
    · intro other member link onLink
      cases before other member with
      | inl member => exact timely.transmissions other member link onLink
      | inr added =>
        cases added with
        | transmission _ _ _ priority => exact priority
        | arrival _ _ _ _ _ _ _ _ payload => exact absurd onLink (not_both ⟨_, payload⟩)
    · intro other member chunk hopIndex record link service payload found onRoute isService
      cases before other member with
      | inl member =>
        exact kept _ (le_of_eq dispatched.now_same.symm) member payload found onRoute isService
      | inr added =>
        cases added with
        | transmission _ _ onLink => exact absurd onLink (not_both ⟨_, payload⟩)
        | arrival hop _ _ isFound _ _ isLink isOld payload' _ timestamp =>
          rw [payload] at payload'
          cases payload'
          obtain ⟨after, isAfter, becomes⟩ := follows.chunks chunk _ isFound
          rw [found] at isAfter
          cases isAfter
          rw [becomes.route, isLink] at onRoute
          cases onRoute
          obtain ⟨old, isOld', configuration⟩ := same link service isService
          rw [isOld] at isOld'
          cases isOld'
          rw [timestamp, configuration, dispatched.now_same]

theorem Reachable.punctual {d : Drive} (reachable : Reachable d) : Punctual d := by
  refine reachable.induction ?_ fun _ _ before _ effect follows timely =>
    effect.punctual follows before.invariant timely
  intro d initial
  obtain ⟨rng, fresh⟩ := initial.fresh
  have none_live : ∀ event, event ∉ outstanding d.network.kernel.sim d.awaiting := by
    intro event member
    rw [fresh, initial.idle] at member
    simp [outstanding, Simulation.Live, EventQueue.empty] at member
  exact ⟨fun event member => absurd member (none_live event),
    fun event member => absurd member (none_live event),
    fun event member => absurd member (none_live event)⟩

/-- Keys are compared by time, then by priority, then by identifier. -/
theorem key_lt {a b : Event} (times : a.timestamp ≤ b.timestamp)
    (priorities : a.priority.value ≤ b.priority.value) (ids : a.id.value < b.id.value) :
    a.key < b.key := by
  unfold Event.key
  rw [Prod.Lex.toLex_lt_toLex, Prod.Lex.toLex_lt_toLex]
  cases Nat.lt_or_eq_of_le times with
  | inl earlier => exact .inl earlier
  | inr same =>
    cases Nat.lt_or_eq_of_le priorities with
    | inl higher => exact .inr ⟨same, .inl higher⟩
    | inr equal => exact .inr ⟨same, .inr ⟨equal, ids⟩⟩

theorem key_ne {a b : Event} (ids : a.id ≠ b.id) : a.key ≠ b.key := by
  intro same
  apply ids
  simp only [Event.key, EmbeddingLike.apply_eq_iff_eq, Prod.mk.injEq] at same
  exact StrongId.value_injective same.2.2

/-- An identifier that was not issued is larger than one that was. -/
theorem IdGenerator.lt_of_not_issued {g : IdGenerator} {early late : Nat}
    (issued : g.Issued early) (fresh : ¬ g.Issued late) : early < late := by
  unfold IdGenerator.Issued at issued fresh
  rw [not_or, not_lt] at fresh
  cases issued with
  | inl lt => exact lt_of_lt_of_le lt fresh.1
  | inr exhausted => exact absurd exhausted fresh.2

/-- No event of the runtime has less than normal priority. -/
theorem Timely.priority_le {events : Set Event} {now : SimTimeNs}
    {chunks : OrderedMap ChunkId ChunkRecord}
    {services : OrderedMap DirectedLinkId DirectedLinkService}
    (timely : Timely events now chunks services) {event : Event} (member : event ∈ events)
    (own : ownPayload event.payload = true) :
    event.priority.value ≤ EventPriority.normal.value := by
  cases payload : event.payload with
  | chunkArrival arrival => rw [timely.arrivals event member arrival.chunk ⟨_, payload⟩]
  | transmissionComplete completion =>
    rw [timely.transmissions event member ⟨completion.link, completion.direction⟩
      ⟨_, _, payload⟩]
    decide
  | noOp token => simp [payload, ownPayload] at own
  | linkStateChange change => simp [payload, ownPayload] at own
  | portStateChange change => simp [payload, ownPayload] at own
  | switchStateChange change => simp [payload, ownPayload] at own
  | workload event => simp [payload, ownPayload] at own
  | localCompletion event => simp [payload, ownPayload] at own

theorem Effect.foremost {d d' : Drive} (effect : Effect d d')
    (inv : Invariant d.awaiting d.taken d.network) (punctual : Punctual d)
    (foremost : Foremost d) : Foremost d' := by
  intro event isAwaited own other live isOwn
  cases effect with
  | quiet awaiting quiet =>
    rw [awaiting] at isAwaited
    cases quiet.arrivals other isOwn live with
    | inl live => exact foremost event isAwaited own other live isOwn
    | inr added =>
      -- it was scheduled during the dispatch, so it is late among the events of this time
      obtain ⟨fresh, chunk, _, timestamp, priority, _⟩ := added
      obtain ⟨issued, _, current⟩ := inv.valid.current event (inv.current event isAwaited).1
      apply key_lt
      · rw [current, timestamp]
      · rw [priority]
        exact punctual.priority_le (.inr isAwaited) own
      · exact IdGenerator.lt_of_not_issued issued fresh
  | began first _ isFirst began =>
    rw [isAwaited] at isFirst
    cases isFirst
    obtain ⟨isLive, differs⟩ := (began.started.remaining other).mp live
    exact lt_of_le_of_ne (began.started.least other isLive) (key_ne differs.symm)
  | dispatched _ _ idle _ =>
    rw [idle] at isAwaited
    cases isAwaited

/-- The event that is being dispatched was the first one of the runtime. -/
theorem Reachable.foremost {d : Drive} (reachable : Reachable d) : Foremost d := by
  refine reachable.induction ?_ fun _ _ before _ effect _ foremost =>
    effect.foremost before.invariant before.punctual foremost
  intro d initial event isAwaited
  rw [initial.idle] at isAwaited
  cases isAwaited

end NexusLab.Transport
