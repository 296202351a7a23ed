import NexusLab.Transport.Reconciliation
import NexusLab.Transport.Timeliness

/-! # The timing of a link

A link serves its chunks one after the other, in the order in which they arrive.  `Log` is what an
observer at the link writes down during a run; as long as the arc is operational, the times in it
obey the recurrence of a queue that is first come, first served. -/

namespace NexusLab.Transport

open Foundation Sim NexusLab.Topology

/-! ## What an observer sees -/

/-- A chunk that the service of the link accepted. -/
structure Admission where
  chunk : ChunkId
  hopIndex : Nat
  bytes : ByteCount
  arrival : SimTimeNs
deriving DecidableEq

/-- A transmission that was completed. -/
structure Departure where
  chunk : ChunkId
  hopIndex : Nat
  completion : SimTimeNs
deriving DecidableEq

/-- A chunk that arrived at the other end. -/
structure Landing where
  chunk : ChunkId
  hopIndex : Nat
  time : SimTimeNs
deriving DecidableEq

structure Log where
  admissions : List Admission := []
  departures : List Departure := []
  landings : List Landing := []
deriving DecidableEq

/-- The link a chunk takes at a hop of its route. -/
def Network.linkAt (n : Network) (chunk : ChunkId) (hopIndex : Nat) : Option DirectedLinkId :=
  (n.transport.chunks.find? chunk).bind fun record => record.route[hopIndex]?

/-- The chunk that arrives is accepted by the service of the link. -/
def admissionsAt (link : DirectedLinkId) (event : Event) (n n' : Network) : List Admission :=
  match event.payload with
  | .chunkArrival arrival =>
    match n'.transport.chunks.find? arrival.chunk with
    | some record =>
      if n.linkAt arrival.chunk arrival.hopIndex = some link ∧ record.state = .admitted then
        [⟨arrival.chunk, arrival.hopIndex, record.chunk.bytes, n.kernel.sim.now⟩]
      else []
    | none => []
  | _ => []

/-- The transmission that is complete was one of the link. -/
def departuresAt (link : DirectedLinkId) (event : Event) (n : Network) : List Departure :=
  match event.payload with
  | .transmissionComplete completion =>
    if (⟨completion.link, completion.direction⟩ : DirectedLinkId) = link then
      [⟨completion.chunk, completion.hopIndex, n.kernel.sim.now⟩]
    else []
  | _ => []

/-- The chunk that arrives comes from the link. -/
def landingsAt (link : DirectedLinkId) (event : Event) (n : Network) : List Landing :=
  match event.payload with
  | .chunkArrival ⟨chunk, hopIndex + 1⟩ =>
    if n.linkAt chunk hopIndex = some link then [⟨chunk, hopIndex, n.kernel.sim.now⟩] else []
  | _ => []

/-- What the dispatch of an event adds to the log. -/
def Log.seen (log : Log) (link : DirectedLinkId) (event : Event) (n n' : Network) : Log where
  admissions := log.admissions ++ admissionsAt link event n n'
  departures := log.departures ++ departuresAt link event n
  landings := log.landings ++ landingsAt link event n

/-- The arc of the link is operational. -/
def Up (link : DirectedLinkId) (n : Network) : Prop :=
  ∀ arc, requireFabricArc n.graph link = .ok arc → n.graph.isOperational arc = true

/-- A run from a first state in which the arc stays operational, with the log of its observer. -/
inductive Watched (link : DirectedLinkId) : Log → Drive → Prop where
  | start {d : Drive} : Initial d → Up link d.network → Watched link {} d
  | silent {log : Log} {d d' : Drive} : Watched link log d → Step d d' →
      d.awaiting = none ∨ d'.awaiting ≠ none → Up link d'.network → Watched link log d'
  | dispatched {log : Log} {d d' : Drive} (event : Event) : Watched link log d → Step d d' →
      d.awaiting = some event → d'.awaiting = none → Up link d'.network →
      Watched link (log.seen link event d.network d'.network) d'

theorem Watched.reachable {link : DirectedLinkId} {log : Log} {d : Drive}
    (watched : Watched link log d) : Reachable d := by
  induction watched with
  | start initial _ => exact ⟨_, initial, .refl⟩
  | silent _ step _ _ ih =>
    obtain ⟨start, initial, steps⟩ := ih
    exact ⟨start, initial, steps.tail step⟩
  | dispatched _ _ step _ _ _ ih =>
    obtain ⟨start, initial, steps⟩ := ih
    exact ⟨start, initial, steps.tail step⟩

theorem Watched.up {link : DirectedLinkId} {log : Log} {d : Drive}
    (watched : Watched link log d) : Up link d.network := by
  cases watched <;> assumption

/-! ## First come, first served -/

/-- The recurrence of the queue: a transmission starts when its chunk has arrived and the one before
it is complete, and takes the serialization delay. -/
def Served (bandwidth : BitsPerSecond) : SimTimeNs → List Admission → List Departure → Prop
  | _, [], [] => True
  | free, job :: jobs, departure :: departures =>
    departure.chunk = job.chunk ∧ departure.hopIndex = job.hopIndex ∧
    (∃ delay, serializationDelay job.bytes bandwidth = some delay ∧
      departure.completion = max job.arrival free + delay) ∧
    Served bandwidth departure.completion jobs departures
  | _, _, _ => False

/-- When the last of the transmissions was complete. -/
def lastCompletion (free : SimTimeNs) (departures : List Departure) : SimTimeNs :=
  (departures.getLast?.map Departure.completion).getD free

theorem lastCompletion_append (free : SimTimeNs) (departures : List Departure)
    (departure : Departure) :
    lastCompletion free (departures ++ [departure]) = departure.completion := by
  simp [lastCompletion]

theorem lastCompletion_cons (free : SimTimeNs) (departure : Departure)
    (departures : List Departure) :
    lastCompletion free (departure :: departures) =
      lastCompletion departure.completion departures := by
  cases departures <;> simp [lastCompletion, List.getLast?_cons]

/-- One more transmission is complete. -/
theorem Served.append {bandwidth : BitsPerSecond} {free : SimTimeNs} {jobs : List Admission}
    {departures : List Departure} (served : Served bandwidth free jobs departures)
    {job : Admission} {departure : Departure} (chunk : departure.chunk = job.chunk)
    (hop : departure.hopIndex = job.hopIndex) {delay : SimDurationNs}
    (isDelay : serializationDelay job.bytes bandwidth = some delay)
    (completion : departure.completion =
      max job.arrival (lastCompletion free departures) + delay) :
    Served bandwidth free (jobs ++ [job]) (departures ++ [departure]) := by
  induction jobs generalizing free departures with
  | nil =>
    cases departures with
    | nil => exact ⟨chunk, hop, ⟨delay, isDelay, completion⟩, trivial⟩
    | cons _ _ => exact served.elim
  | cons first jobs ih =>
    cases departures with
    | nil => exact served.elim
    | cons earlier departures =>
      obtain ⟨sameChunk, sameHop, recurs, rest⟩ := served
      rw [lastCompletion_cons] at completion
      exact ⟨sameChunk, sameHop, recurs, ih rest completion⟩

/-! ## The link and its log -/

/-- What identifies a chunk in a queue. -/
def TransferChunk.face (copy : TransferChunk) : ChunkId × Nat × ByteCount :=
  (copy.id, copy.hopIndex, copy.bytes)

def Admission.face (job : Admission) : ChunkId × Nat × ByteCount :=
  (job.chunk, job.hopIndex, job.bytes)

/-- The service of the link is where its log says: the transmissions in the log obey the recurrence,
the other chunks are in the queue, and the completion of the first of them is due in time. -/
structure Tracks (link : DirectedLinkId) (service : DirectedLinkService) (log : Log) (n : Network)
    (awaiting : Option Event) : Prop where
  jobs : ∃ done inHand, log.admissions = done ++ inHand ∧
    Served service.queue.configuration.bandwidth 0 done log.departures ∧
    inHand.map Admission.face = service.queue.held.map TransferChunk.face ∧
    ∀ job rest, inHand = job :: rest → ∃ delay,
      serializationDelay job.bytes service.queue.configuration.bandwidth = some delay ∧
      ∀ event ∈ outstanding n.kernel.sim awaiting, TransmissionOn link event.payload →
        event.timestamp = max job.arrival (lastCompletion 0 log.departures) + delay
  arrived : ∀ job ∈ log.admissions, job.arrival ≤ n.kernel.sim.now
  past : lastCompletion 0 log.departures ≤ n.kernel.sim.now

/-- What has left the link is where its log says: it has landed, or it is due to. -/
structure Lands (link : DirectedLinkId) (service : DirectedLinkService) (log : Log) (n : Network)
    (awaiting : Option Event) : Prop where
  onLink : ∀ departure ∈ log.departures,
    n.linkAt departure.chunk departure.hopIndex = some link
  landed : ∀ landing ∈ log.landings, ∃ departure ∈ log.departures,
    landing.chunk = departure.chunk ∧ landing.hopIndex = departure.hopIndex ∧
    landing.time = departure.completion + service.queue.configuration.propagationDelay
  lands : ∀ departure ∈ log.departures,
    ⟨departure.chunk, departure.hopIndex,
      departure.completion + service.queue.configuration.propagationDelay⟩ ∈ log.landings ∨
    ∃ event ∈ outstanding n.kernel.sim awaiting,
      event.payload = .chunkArrival ⟨departure.chunk, departure.hopIndex + 1⟩ ∧
      event.timestamp = departure.completion + service.queue.configuration.propagationDelay
  comes : ∀ event ∈ outstanding n.kernel.sim awaiting, ∀ chunk hopIndex,
    event.payload = .chunkArrival ⟨chunk, hopIndex + 1⟩ →
    n.linkAt chunk hopIndex = some link → ∃ departure ∈ log.departures,
      departure.chunk = chunk ∧ departure.hopIndex = hopIndex ∧
      event.timestamp = departure.completion + service.queue.configuration.propagationDelay

section Steps

variable {link : DirectedLinkId} {service service' : DirectedLinkService} {log log' : Log}
  {event : Event} {n n' : Network} {awaiting awaiting' : Option Event}
  {taken taken' : List TransferCompletion}

/-- Nothing has happened at the link. -/
theorem Tracks.frame (tracks : Tracks link service log n awaiting)
    (admissions : log'.admissions = log.admissions)
    (departures : log'.departures = log.departures)
    (configuration : service'.queue.configuration = service.queue.configuration)
    (held : service'.queue.held = service.queue.held)
    (later : n.kernel.sim.now ≤ n'.kernel.sim.now)
    (events : ∀ event ∈ outstanding n'.kernel.sim awaiting', TransmissionOn link event.payload →
      event ∈ outstanding n.kernel.sim awaiting) :
    Tracks link service' log' n' awaiting' where
  jobs := by
    obtain ⟨done, inHand, split, served, faces, next⟩ := tracks.jobs
    rw [admissions, departures, configuration, held]
    refine ⟨done, inHand, split, served, faces, ?_⟩
    intro job rest isFirst
    obtain ⟨delay, isDelay, due⟩ := next job rest isFirst
    exact ⟨delay, isDelay, fun event member onLink => due event (events event member onLink) onLink⟩
  arrived := by
    rw [admissions]
    exact fun job member => (tracks.arrived job member).trans later
  past := by
    rw [departures]
    exact tracks.past.trans later

theorem admissionsAt_of_apart (apart : ¬ Touches n event link) :
    admissionsAt link event n n' = [] := by
  unfold admissionsAt
  split
  · rename_i arrival payload
    split
    · rw [if_neg]
      intro accepted
      obtain ⟨record, found, onRoute⟩ := Option.bind_eq_some_iff.mp accepted.1
      exact apart (.inr ⟨arrival.chunk, arrival.hopIndex, record, payload, found, onRoute⟩)
    · rfl
  · rfl

theorem departuresAt_of_not (apart : ¬ TransmissionOn link event.payload) :
    departuresAt link event n = [] := by
  unfold departuresAt
  split
  · rename_i completion payload
    rw [if_neg]
    intro same
    subst same
    exact apart ⟨completion.chunk, completion.hopIndex, payload⟩
  · rfl

/-- An arc that is operational afterwards has not given up its queue. -/
theorem Up.service_kept (up : Up link n') (dispatched : Dispatched taken event n n')
    (inv : Invariant awaiting taken n)
    (isService : n.transport.services.find? link = some service) (apart : ¬ Touches n event link) :
    n'.transport.services.find? link = n.transport.services.find? link := by
  cases dispatched.service_kept apart with
  | inl same => exact same
  | inr changed =>
    obtain ⟨graph, given, changes, gives, reconciled⟩ := changed
    obtain ⟨arc, isArc⟩ := inv.arcs link service isService
    have isArc' := Network.requireFabricArc_structure changes.structure_same isArc
    have operational := up arc (by rw [reconciled.graph]; exact isArc')
    rw [reconciled.graph] at operational
    exact absurd gives (changes.not_given isArc' operational)

/-- There is one transmission on a link at a time. -/
theorem Invariant.transmission_unique (inv : Invariant awaiting taken n)
    {a b : Event} (isA : a ∈ outstanding n.kernel.sim awaiting)
    (isB : b ∈ outstanding n.kernel.sim awaiting) (onA : TransmissionOn link a.payload)
    (onB : TransmissionOn link b.payload) : a = b := by
  have memberA : a ∈ transmissions (outstanding n.kernel.sim awaiting) link := ⟨isA, onA⟩
  have memberB : b ∈ transmissions (outstanding n.kernel.sim awaiting) link := ⟨isB, onB⟩
  have runs := inv.running link
  cases found : n.transport.services.find? link with
  | none =>
    rw [found] at runs
    cases runs with
    | unconfigured empty => simp [empty] at memberA
  | some service =>
    rw [found] at runs
    cases runs with
    | idle _ _ _ _ _ empty => simp [empty] at memberA
    | busy event _ _ _ _ _ _ _ _ single =>
      rw [single, Set.mem_singleton_iff] at memberA memberB
      exact memberA.trans memberB.symm

theorem completionTime_eq {chunk : TransferChunk} {configuration : DirectedLinkConfiguration}
    {now time : SimTimeNs} (ok : completionTime chunk configuration now = .ok time) :
    ∃ delay, serializationDelay chunk.bytes configuration.bandwidth = some delay ∧
      time = now + delay := by
  unfold completionTime at ok
  split at ok
  · cases ok
  · rename_i delay isDelay
    split at ok
    · cases ok
    · rename_i sum added
      split at ok
      · cases ok
      · cases ok
        exact ⟨delay, isDelay, checkedAdd_eq_some added⟩

theorem admissionsAt_accepted {chunk : ChunkId} {record record' : ChunkRecord}
    (payload : event.payload = .chunkArrival ⟨chunk, record.hopIndex⟩)
    (found : n.transport.chunks.find? chunk = some record)
    (onRoute : record.route[record.hopIndex]? = some link)
    (found' : n'.transport.chunks.find? chunk = some record') (state : record'.state = .admitted) :
    admissionsAt link event n n' =
      [⟨chunk, record.hopIndex, record'.chunk.bytes, n.kernel.sim.now⟩] := by
  simp [admissionsAt, payload, found', Network.linkAt, found, onRoute, state]

theorem admissionsAt_refused {chunk : ChunkId} {hopIndex : Nat} {record' : ChunkRecord}
    (payload : event.payload = .chunkArrival ⟨chunk, hopIndex⟩)
    (found' : n'.transport.chunks.find? chunk = some record') (state : record'.state ≠ .admitted) :
    admissionsAt link event n n' = [] := by
  simp [admissionsAt, payload, found', state]

theorem Network.Leaves.chunk_found {sim : Simulation} {chunk : ChunkId} {record' : ChunkRecord}
    {services : OrderedMap DirectedLinkId DirectedLinkService}
    (leaves : Network.Leaves n sim (n.transport.chunks.insert chunk record') services n') :
    n'.transport.chunks.find? chunk = some record' := by
  obtain ⟨transfers, completions, transport⟩ := leaves.transport
  rw [transport]
  exact OrderedMap.find?_insert_self ..

theorem Network.Leaves.service_found {sim : Simulation}
    {chunks : OrderedMap ChunkId ChunkRecord}
    (leaves : Network.Leaves n sim chunks (n.transport.services.insert link service') n') :
    n'.transport.services.find? link = some service' := by
  obtain ⟨transfers, completions, transport⟩ := leaves.transport
  rw [transport]
  exact OrderedMap.find?_insert_self ..

/-- It is enough to know one completion event of the link. -/
theorem Tracks.of_event (inv : Invariant awaiting taken n) {done inHand : List Admission}
    (split : log.admissions = done ++ inHand)
    (served : Served service.queue.configuration.bandwidth 0 done log.departures)
    (faces : inHand.map Admission.face = service.queue.held.map TransferChunk.face)
    (next : ∀ job rest, inHand = job :: rest → ∃ delay event,
      serializationDelay job.bytes service.queue.configuration.bandwidth = some delay ∧
      event ∈ outstanding n.kernel.sim awaiting ∧ TransmissionOn link event.payload ∧
      event.timestamp = max job.arrival (lastCompletion 0 log.departures) + delay)
    (arrived : ∀ job ∈ log.admissions, job.arrival ≤ n.kernel.sim.now)
    (past : lastCompletion 0 log.departures ≤ n.kernel.sim.now) :
    Tracks link service log n awaiting where
  jobs := by
    refine ⟨done, inHand, split, served, faces, ?_⟩
    intro job rest isFirst
    obtain ⟨delay, event, isDelay, member, onLink, due⟩ := next job rest isFirst
    refine ⟨delay, isDelay, ?_⟩
    intro other isOther onOther
    rw [inv.transmission_unique isOther member onOther onLink]
    exact due
  arrived := arrived
  past := past

/-- The chunk that is handled is the one that arrives. -/
theorem Network.Arriving.same_of_payload {chunk chunk' : ChunkId} {hopIndex : Nat}
    {record record' : ChunkRecord} (arriving : Network.Arriving taken n event chunk' record')
    (payload : event.payload = .chunkArrival ⟨chunk, hopIndex⟩)
    (found : n.transport.chunks.find? chunk = some record) :
    chunk = chunk' ∧ record = record' ∧ hopIndex = record.hopIndex := by
  have payload' := arriving.payload
  rw [payload] at payload'
  cases payload'
  have found' := arriving.found
  rw [found] at found'
  cases found'
  exact ⟨rfl, rfl, rfl⟩

/-- The link that it is to enter is the next one on its route. -/
theorem Network.Entering.at_link {chunk chunk' : ChunkId} {hopIndex : Nat}
    {record record' : ChunkRecord} {link' : DirectedLinkId} {old : DirectedLinkService}
    {arc : DirectedLink} (enters : Network.Entering taken n event chunk' record' link' old arc)
    (payload : event.payload = .chunkArrival ⟨chunk, hopIndex⟩)
    (found : n.transport.chunks.find? chunk = some record)
    (onRoute : record.route[hopIndex]? = some link)
    (isService : n.transport.services.find? link = some service) :
    link = link' ∧ service = old ∧ chunk = chunk' ∧ record = record' ∧
      hopIndex = record.hopIndex := by
  obtain ⟨rfl, rfl, rfl⟩ := enters.arriving.same_of_payload payload found
  have hop := enters.hop
  rw [onRoute] at hop
  cases hop
  have isOld := enters.isService
  rw [isService] at isOld
  cases isOld
  exact ⟨rfl, rfl, rfl, rfl, rfl⟩

/-- A chunk has come to the link. -/
theorem Tracks.arrives (tracks : Tracks link service log n (some event))
    (isService : n.transport.services.find? link = some service) (up : Up link n)
    (arrives : Network.Arrives taken n event n') (inv' : Invariant none taken' n')
    {chunk : ChunkId} {hopIndex : Nat} {record : ChunkRecord}
    (payload : event.payload = .chunkArrival ⟨chunk, hopIndex⟩)
    (found : n.transport.chunks.find? chunk = some record)
    (onRoute : record.route[hopIndex]? = some link)
    (isService' : n'.transport.services.find? link = some service') :
    Tracks link service' (log.seen link event n n') n' none := by
  have departures : (log.seen link event n n').departures = log.departures := by
    simp [Log.seen, departuresAt_of_not (not_both ⟨_, payload⟩)]
  cases arrives with
  | delivered arriving last leaves =>
    obtain ⟨rfl, rfl, isHop⟩ := arriving.same_of_payload payload found
    rw [isHop, last, List.getElem?_eq_none (le_refl _)] at onRoute
    cases onRoute
  | blocked _ enters down _ =>
    obtain ⟨rfl, _⟩ := enters.at_link payload found onRoute isService
    simp [up _ enters.isArc] at down
  | started time enters _ isIdle remaining ok leaves =>
    obtain ⟨rfl, rfl, rfl, rfl, rfl⟩ := enters.at_link payload found onRoute isService
    have isNew := leaves.service_found
    rw [isService'] at isNew
    cases isNew
    have inv := enters.arriving.inv
    have admissions : (log.seen link event n n').admissions = log.admissions ++
        [⟨chunk, record.hopIndex, record.chunk.bytes, n.kernel.sim.now⟩] :=
      congrArg _ (admissionsAt_accepted payload found onRoute leaves.chunk_found rfl)
    have now : n'.kernel.sim.now = n.kernel.sim.now := by
      rw [leaves.sim]
      rfl
    obtain ⟨delay, isDelay, isTime⟩ := completionTime_eq ok
    obtain ⟨done, inHand, split, served, faces, _⟩ := tracks.jobs
    have runs := inv.running link
    rw [isService] at runs
    have waiting := (runs.of_idle isIdle).1
    have nothing : inHand = [] := by
      simpa [DirectedLinkQueue.held, isIdle, waiting] using faces
    subst nothing
    refine .of_event inv' (admissions.trans (congrArg (· ++ _) split)) ?_ ?_ ?_ ?_ ?_
    · rw [departures]
      simpa using served
    · have id := (inv.routed chunk record found).id
      simp [DirectedLinkQueue.held, waiting, Admission.face, TransferChunk.face, Network.entering,
        id]
    · intro job rest isFirst
      cases isFirst
      refine ⟨delay, n.kernel.sim.eventFor (DirectedLinkService.completionSpec
        service.queue.configuration (Network.entering record).chunk time), isDelay, ?_, ?_, ?_⟩
      · rw [leaves.sim, outstanding_none]
        exact (inv.valid.live_scheduled remaining).mpr (.inl rfl)
      · exact ⟨_, _, by rw [← enters.configured]; rfl⟩
      · rw [departures, max_eq_left tracks.past]
        exact isTime
    · intro job member
      rw [admissions, List.mem_append, List.mem_singleton] at member
      rw [now]
      cases member with
      | inl member => exact tracks.arrived job member
      | inr added => exact added ▸ le_refl _
    · rw [departures, now]
      exact tracks.past
  | queued enters _ busy _ leaves =>
    obtain ⟨rfl, rfl, rfl, rfl, rfl⟩ := enters.at_link payload found onRoute isService
    have isNew := leaves.service_found
    rw [isService'] at isNew
    cases isNew
    have admissions : (log.seen link event n n').admissions = log.admissions ++
        [⟨chunk, record.hopIndex, record.chunk.bytes, n.kernel.sim.now⟩] :=
      congrArg _ (admissionsAt_accepted payload found onRoute leaves.chunk_found rfl)
    obtain ⟨done, inHand, split, served, faces, next⟩ := tracks.jobs
    have something : inHand ≠ [] := by
      intro nothing
      subst nothing
      cases isActive : service.queue.active with
      | none => exact busy isActive
      | some active => simp [DirectedLinkQueue.held, isActive] at faces
    refine ⟨⟨done, inHand ++ [⟨chunk, record.hopIndex, record.chunk.bytes, n.kernel.sim.now⟩], ?_,
      ?_, ?_, ?_⟩, ?_, ?_⟩
    · rw [admissions, split, List.append_assoc]
    · rw [departures]
      exact served
    · have id := (enters.arriving.inv.routed chunk record found).id
      rw [List.map_append, faces]
      simp [DirectedLinkQueue.held, DirectedLinkQueue.enqueued, Admission.face, TransferChunk.face,
        Network.entering, id]
    · intro job rest isFirst
      -- the first in hand is the same as before
      obtain ⟨rest', isFirst'⟩ : ∃ rest', inHand = job :: rest' := by
        cases inHand with
        | nil => exact absurd rfl something
        | cons head tail =>
          cases isFirst
          exact ⟨tail, rfl⟩
      obtain ⟨delay, isDelay, due⟩ := next job rest' isFirst'
      refine ⟨delay, isDelay, fun other member onLink => ?_⟩
      rw [leaves.sim, outstanding_none] at member
      rw [departures]
      exact due other (.inl member) onLink
    · intro job member
      rw [admissions, List.mem_append, List.mem_singleton] at member
      rw [leaves.sim]
      cases member with
      | inl member => exact tracks.arrived job member
      | inr added => exact added ▸ le_refl _
    · rw [departures, leaves.sim]
      exact tracks.past
  | rejected enters _ _ _ leaves =>
    obtain ⟨rfl, rfl, rfl, rfl, rfl⟩ := enters.at_link payload found onRoute isService
    have isNew := leaves.service_found
    rw [isService'] at isNew
    cases isNew
    refine tracks.frame ?_ departures rfl rfl (le_of_eq (by rw [leaves.sim])) ?_
    · simp [Log.seen, admissionsAt_refused payload leaves.chunk_found (by simp [Network.answered])]
    · intro other member _
      rw [leaves.sim, outstanding_none] at member
      exact .inl member

theorem departuresAt_transmission {chunk : ChunkId} {hopIndex : Nat} (payload : event.payload =
      .transmissionComplete ⟨link.link, chunk, hopIndex, link.direction⟩) :
    departuresAt link event n = [⟨chunk, hopIndex, n.kernel.sim.now⟩] := by
  simp [departuresAt, payload]

theorem admissionsAt_transmission (onLink : TransmissionOn link event.payload) :
    admissionsAt link event n n' = [] := by
  obtain ⟨chunk, hopIndex, payload⟩ := onLink
  simp [admissionsAt, payload]

/-- The transmission in service is complete. -/
theorem Tracks.completes (tracks : Tracks link service log n (some event))
    (isService : n.transport.services.find? link = some service)
    (completes : Network.Completes taken n event n') (inv' : Invariant none taken' n')
    (onLink : TransmissionOn link event.payload)
    (isService' : n'.transport.services.find? link = some service') :
    Tracks link service' (log.seen link event n n') n' none := by
  have admissions : (log.seen link event n n').admissions = log.admissions := by
    simp [Log.seen, admissionsAt_transmission onLink]
  have here : ∀ {link' : DirectedLinkId} {old : DirectedLinkService} {active : TransferChunk}
      {record : ChunkRecord}, Network.Completing taken n event link' old active record →
      link = link' ∧ service = old := by
    intro link' old active record completing
    have same := transmissionOn_inj onLink ⟨_, _, completing.payload⟩
    subst same
    have isOld := completing.isService
    rw [isService] at isOld
    cases isOld
    exact ⟨rfl, rfl⟩
  -- the job that is done, and the recurrence with it
  have finishes : ∀ {active : TransferChunk} {record : ChunkRecord},
      Network.Completing taken n event link service active record → ∃ done job rest,
        log.admissions = (done ++ [job]) ++ rest ∧
        Served service.queue.configuration.bandwidth 0 (done ++ [job])
          (log.seen link event n n').departures ∧
        rest.map Admission.face = service.queue.waiting.map TransferChunk.face ∧
        lastCompletion 0 (log.seen link event n n').departures = n.kernel.sim.now := by
    intro active record completing
    obtain ⟨done, inHand, split, served, faces, next⟩ := tracks.jobs
    have held : service.queue.held = active :: service.queue.waiting := by
      simp [DirectedLinkQueue.held, completing.inService]
    rw [held, List.map_cons] at faces
    cases inHand with
    | nil => simp at faces
    | cons job rest =>
      simp only [List.map_cons, List.cons.injEq] at faces
      obtain ⟨delay, isDelay, due⟩ := next job rest rfl
      have current := (completing.inv.valid.current event (completing.inv.current event rfl).1).2.2
      have departures : (log.seen link event n n').departures = log.departures ++
          [⟨active.id, active.hopIndex, n.kernel.sim.now⟩] := by
        simp only [Log.seen]
        rw [departuresAt_transmission completing.payload]
      have face := faces.1
      simp only [Admission.face, TransferChunk.face, Prod.mk.injEq] at face
      refine ⟨done, job, rest, by simp [split], ?_, faces.2, ?_⟩
      · rw [departures]
        refine served.append face.1.symm face.2.1.symm isDelay ?_
        show n.kernel.sim.now = _
        rw [← current]
        exact due event (.inr rfl) onLink
      · rw [departures, lastCompletion_append]
  cases completes with
  | idled _ _ completing waiting _ _ leaves =>
    obtain ⟨rfl, rfl⟩ := here completing
    obtain ⟨done, job, rest, split, served, faces, last⟩ := finishes completing
    have isNew := leaves.service_found
    rw [isService'] at isNew
    cases isNew
    have now : n'.kernel.sim.now = n.kernel.sim.now := by
      rw [leaves.sim]
      rfl
    have nothing : rest = [] := by simpa [waiting] using faces
    subst nothing
    refine .of_event inv' (admissions.trans split) served ?_ ?_ ?_ ?_
    · simp [DirectedLinkQueue.held]
    · simp
    · rw [admissions, now]
      exact tracks.arrived
    · rw [last, now]
  | @advanced _ _ active following waitingRest _ _ _ time sim₁ completing waiting _ remaining ok isSim
      remaining₁ leaves =>
    obtain ⟨rfl, rfl⟩ := here completing
    obtain ⟨done, job, rest, split, served, faces, last⟩ := finishes completing
    have inv := completing.inv
    have isNew := leaves.service_found
    rw [isService'] at isNew
    cases isNew
    have now : n'.kernel.sim.now = n.kernel.sim.now := by
      rw [leaves.sim, isSim]
      rfl
    have valid₁ : sim₁.Valid := isSim ▸ inv.valid.scheduled remaining (completionTime_ok ok)
    refine .of_event inv' (admissions.trans split) served ?_ ?_ ?_ ?_
    · rw [faces, waiting]
      simp [DirectedLinkQueue.held, DirectedLinkQueue.advanced]
    · intro job' rest' isFirst
      subst isFirst
      rw [waiting] at faces
      simp only [List.map_cons, List.cons.injEq, Admission.face, TransferChunk.face,
        Prod.mk.injEq] at faces
      obtain ⟨delay, isDelay, isTime⟩ := completionTime_eq ok
      refine ⟨delay, n.kernel.sim.eventFor (DirectedLinkService.completionSpec
        service.queue.configuration following time), ?_, ?_, ?_, ?_⟩
      · rw [faces.1.2.2]
        exact isDelay
      · rw [leaves.sim, outstanding_none]
        refine (valid₁.live_scheduled remaining₁).mpr (.inr ?_)
        rw [isSim]
        exact (inv.valid.live_scheduled remaining).mpr (.inl rfl)
      · exact ⟨_, _, by rw [← completing.configured]; rfl⟩
      · -- it has been waiting, so it starts now
        have waited := tracks.arrived job' (by simp [split])
        rw [last, max_eq_right waited]
        exact isTime
    · rw [admissions, now]
      exact tracks.arrived
    · rw [last, now]

/-- A dispatch at another link, or about something else. -/
theorem Tracks.apart (tracks : Tracks link service log n (some event))
    (inv : Invariant (some event) taken n) (dispatched : Dispatched taken event n n')
    (same : n'.transport.services.find? link = n.transport.services.find? link)
    (isService : n.transport.services.find? link = some service)
    (isService' : n'.transport.services.find? link = some service')
    (apart : ¬ Touches n event link) :
    Tracks link service' (log.seen link event n n') n' none := by
  rw [same, isService] at isService'
  cases isService'
  refine tracks.frame ?_ ?_ rfl rfl (le_of_eq dispatched.now_same.symm) ?_
  · simp [Log.seen, admissionsAt_of_apart apart]
  · simp [Log.seen, departuresAt_of_not fun onLink => apart (.inl onLink)]
  · intro other member onLink
    rw [outstanding_none] at member
    cases dispatched.live_or inv member with
    | inl live => exact .inl live
    | inr added =>
      cases added with
      | transmission _ touches onOther =>
        exact absurd (transmissionOn_inj onLink onOther ▸ touches) apart
      | arrival _ _ _ _ _ _ _ _ payload => exact absurd onLink (not_both ⟨_, payload⟩)

theorem Tracks.dispatched (tracks : Tracks link service log n (some event))
    (inv : Invariant (some event) taken n) (inv' : Invariant none taken' n') (up : Up link n)
    (up' : Up link n') (dispatched : Dispatched taken event n n')
    (isService : n.transport.services.find? link = some service)
    (isService' : n'.transport.services.find? link = some service') :
    Tracks link service' (log.seen link event n n') n' none := by
  by_cases touches : Touches n event link
  · cases touches with
    | inl onLink => exact tracks.completes isService (dispatched.completes onLink) inv' onLink isService'
    | inr enters =>
      obtain ⟨chunk, hopIndex, record, payload, found, onRoute⟩ := enters
      exact tracks.arrives isService up (dispatched.arrives ⟨_, payload⟩) inv' payload found onRoute
        isService'
  · exact tracks.apart inv dispatched (up'.service_kept dispatched inv isService touches) isService
      isService' touches

end Steps

/-- What holds at first and is kept by everything a step can do holds all along a watched run. -/
theorem Watched.rule {link : DirectedLinkId} {P : Log → Drive → Prop}
    (start : ∀ d, Initial d → P {} d)
    (quiet : ∀ log d d', Reachable d → d'.awaiting = d.awaiting →
      Network.Quiet d.network d'.network →
      Grows ChunkRecord.Becomes d.network.transport.chunks d'.network.transport.chunks →
      P log d → P log d')
    (began : ∀ log d d' event, Reachable d → d.awaiting = none → d'.awaiting = some event →
      Began event d.network d'.network → P log d → P log d')
    (dispatched : ∀ log d d' event, Watched link log d → d.awaiting = some event →
      d'.awaiting = none → Up link d'.network → Dispatched d.taken event d.network d'.network →
      Follows none d'.taken d.network d'.network → P log d →
      P (log.seen link event d.network d'.network) d') {log : Log} {d : Drive}
    (watched : Watched link log d) : P log d := by
  induction watched with
  | start initial _ => exact start _ initial
  | silent before step still _ ih =>
    obtain ⟨follows, effect⟩ := step.effect before.reachable.invariant
    cases effect with
    | quiet awaiting isQuiet =>
      exact quiet _ _ _ before.reachable awaiting isQuiet follows.chunks ih
    | began event idle isAwaited hasBegun =>
      exact began _ _ _ event before.reachable idle isAwaited hasBegun ih
    | dispatched event isAwaited idle _ =>
      cases still with
      | inl none_awaited => simp [none_awaited] at isAwaited
      | inr still => exact absurd idle still
  | dispatched event before step isAwaited idle up ih =>
    obtain ⟨follows, effect⟩ := step.effect before.reachable.invariant
    cases effect with
    | quiet awaiting _ => simp [idle, isAwaited] at awaiting
    | began _ none_awaited _ _ => simp [none_awaited] at isAwaited
    | dispatched other isOther _ isDispatched =>
      rw [isAwaited] at isOther
      cases isOther
      exact dispatched _ _ _ event before isAwaited idle up isDispatched (idle ▸ follows) ih

/-- The service of a link that stays operational is where its log says. -/
theorem Watched.tracks {link : DirectedLinkId} {log : Log} {d : Drive}
    (watched : Watched link log d) : ∀ service,
    d.network.transport.services.find? link = some service →
      Tracks link service log d.network d.awaiting := by
  refine Watched.rule (P := fun log d => ∀ service,
    d.network.transport.services.find? link = some service →
      Tracks link service log d.network d.awaiting) ?_ ?_ ?_ ?_ watched
  · intro d initial service isService
    obtain ⟨configurations, limits, created⟩ := initial.created
    obtain ⟨_, active, waiting, _⟩ := (create_ok created).2 link service isService
    refine ⟨⟨[], [], rfl, trivial, ?_, by simp⟩, by simp, Nat.zero_le _⟩
    simp [DirectedLinkQueue.held, active, waiting]
  · intro log d d' _ awaiting quiet _ ih service isService
    rw [quiet.services] at isService
    refine (ih service isService).frame rfl rfl rfl rfl (le_of_eq quiet.now.symm) ?_
    intro event member onLink
    cases member with
    | inr isAwaited => exact .inr (awaiting ▸ isAwaited)
    | inl live =>
      obtain ⟨chunk, hopIndex, payload⟩ := onLink
      cases quiet.arrivals event (by simp [payload, ownPayload]) live with
      | inl live => exact .inl live
      | inr added =>
        obtain ⟨_, other, arrival, _⟩ := added
        rw [payload] at arrival
        cases arrival
  · intro log d d' event reachable idle isAwaited began ih service isService
    have inv := reachable.invariant
    rw [began.transport] at isService
    refine (ih service isService).frame rfl rfl rfl rfl
      (began.now ▸ inv.valid.future event began.started.live.1) ?_
    intro other member _
    rwa [isAwaited, outstanding_started inv.valid began.started, ← idle] at member
  · intro log d d' event before isAwaited idle up dispatched follows ih service' isService'
    have inv := before.reachable.invariant
    obtain ⟨service, isService, _⟩ := dispatched.sameConfigurations link service' isService'
    have tracks := ih service isService
    rw [isAwaited] at inv tracks
    rw [idle]
    exact tracks.dispatched inv follows.inv before.up up dispatched isService isService'

/-! ## At the other end -/

section Landings

variable {link : DirectedLinkId} {service service' : DirectedLinkService} {log : Log}
  {event : Event} {n n' : Network} {taken taken' : List TransferCompletion}

/-- The route of a chunk stays the same. -/
theorem linkAt_grows {chunk : ChunkId} {hopIndex : Nat} {record : ChunkRecord}
    (grows : Grows ChunkRecord.Becomes n.transport.chunks n'.transport.chunks)
    (found : n.transport.chunks.find? chunk = some record) :
    n'.linkAt chunk hopIndex = n.linkAt chunk hopIndex := by
  obtain ⟨record', found', becomes⟩ := grows chunk record found
  simp [Network.linkAt, found, found', becomes.route]

/-- A dispatch does not take back the arrival of another chunk. -/
theorem Dispatched.arrival_kept (dispatched : Dispatched taken event n n')
    (inv : Invariant (some event) taken n) {other : Event} (live : n.kernel.sim.Live other)
    {chunk : ChunkId} (arrival : ArrivalOf chunk other.payload) : n'.kernel.sim.Live other := by
  cases dispatched with
  | passed _ => exact live
  | arrived arrives =>
    cases arrives with
    | delivered _ _ leaves => exact leaves.sim ▸ live
    | blocked _ _ _ leaves => exact leaves.sim ▸ live
    | queued _ _ _ _ leaves => exact leaves.sim ▸ live
    | rejected _ _ _ _ leaves => exact leaves.sim ▸ live
    | started _ _ _ _ remaining _ leaves =>
      rw [leaves.sim]
      exact (inv.valid.live_scheduled remaining).mpr (.inr live)
  | completed completes =>
    cases completes with
    | idled _ _ _ _ _ remaining leaves =>
      rw [leaves.sim]
      exact (inv.valid.live_scheduled remaining).mpr (.inr live)
    | advanced _ _ _ sim₁ _ _ _ remaining ok isSim remaining₁ leaves =>
      have valid₁ : sim₁.Valid := isSim ▸ inv.valid.scheduled remaining (completionTime_ok ok)
      rw [leaves.sim]
      refine (valid₁.live_scheduled remaining₁).mpr (.inr ?_)
      rw [isSim]
      exact (inv.valid.live_scheduled remaining).mpr (.inr live)
  | changed _ reconciled =>
    refine (reconciled.live other).mpr ⟨live, fun given => ?_⟩
    obtain ⟨link, _, onLink⟩ := given
    exact not_both arrival onLink

theorem landingsAt_arrival {chunk : ChunkId} {hopIndex : Nat}
    (payload : event.payload = .chunkArrival ⟨chunk, hopIndex + 1⟩)
    (isLink : n.linkAt chunk hopIndex = some link) :
    landingsAt link event n = [⟨chunk, hopIndex, n.kernel.sim.now⟩] := by
  simp [landingsAt, payload, isLink]

theorem mem_landingsAt {landing : Landing} (member : landing ∈ landingsAt link event n) :
    event.payload = .chunkArrival ⟨landing.chunk, landing.hopIndex + 1⟩ ∧
      n.linkAt landing.chunk landing.hopIndex = some link ∧ landing.time = n.kernel.sim.now := by
  unfold landingsAt at member
  split at member
  · rename_i chunk hopIndex payload
    split at member
    · rename_i isLink
      rw [List.mem_singleton] at member
      subst member
      exact ⟨payload, isLink, rfl⟩
    · cases member
  · cases member

theorem mem_departuresAt {departure : Departure} (member : departure ∈ departuresAt link event n) :
    event.payload = .transmissionComplete
        ⟨link.link, departure.chunk, departure.hopIndex, link.direction⟩ ∧
      departure.completion = n.kernel.sim.now := by
  unfold departuresAt at member
  split at member
  · rename_i completion payload
    split at member
    · rename_i isLink
      rw [List.mem_singleton] at member
      subst member
      subst isLink
      exact ⟨payload, rfl⟩
    · cases member
  · cases member

/-- A transmission on the link is complete: the chunk is due at the other end. -/
theorem Dispatched.departs (dispatched : Dispatched taken event n n')
    (inv : Invariant (some event) taken n) {chunk : ChunkId} {hopIndex : Nat}
    (payload : event.payload =
      .transmissionComplete ⟨link.link, chunk, hopIndex, link.direction⟩)
    (isService : n.transport.services.find? link = some service) :
    (∃ record, n.transport.chunks.find? chunk = some record) ∧
      n.linkAt chunk hopIndex = some link ∧ ∃ other, n'.kernel.sim.Live other ∧
        other.payload = .chunkArrival ⟨chunk, hopIndex + 1⟩ ∧ other.timestamp =
          n.kernel.sim.now + service.queue.configuration.propagationDelay := by
  have here : ∀ {link' : DirectedLinkId} {old : DirectedLinkService} {active : TransferChunk}
      {record : ChunkRecord}, Network.Completing taken n event link' old active record →
      service = old ∧ active.id = chunk ∧ record.hopIndex = hopIndex ∧
        n.linkAt chunk hopIndex = some link := by
    intro link' old active record completing
    have same := transmissionOn_inj (⟨_, _, payload⟩ : TransmissionOn link event.payload)
      ⟨_, _, completing.payload⟩
    subst same
    have isOld := completing.isService
    rw [isService] at isOld
    cases isOld
    have payload' := completing.payload
    rw [payload] at payload'
    cases payload'
    refine ⟨rfl, rfl, completing.same.hop.symm, ?_⟩
    simp [Network.linkAt, completing.found, completing.same.hop, completing.onRoute]
  have arrives : ∀ {link' : DirectedLinkId} {old : DirectedLinkService} {active : TransferChunk}
      {record : ChunkRecord}, Network.Completing taken n event link' old active record →
      ∀ {arrival : SimTimeNs} (sim : Simulation), active.id = chunk → record.hopIndex = hopIndex →
      (sim.eventFor (Network.arrivalSpec record active arrival)).payload =
        .chunkArrival ⟨chunk, hopIndex + 1⟩ := by
    intro link' old active record completing arrival sim isChunk isHop
    subst isChunk
    subst isHop
    simp [Simulation.eventFor, Network.arrivalSpec, completing.nextHop.1]
  cases dispatched.completes ⟨_, _, payload⟩ with
  | idled _ _ completing _ added remaining leaves =>
    obtain ⟨rfl, isChunk, isHop, isLink⟩ := here completing
    refine ⟨⟨_, isChunk ▸ completing.found⟩, isLink, _, ?_,
      arrives completing n.kernel.sim isChunk isHop, checkedAdd_eq_some added⟩
    rw [leaves.sim]
    exact (inv.valid.live_scheduled remaining).mpr (.inl rfl)
  | advanced _ _ _ sim₁ completing _ added remaining ok isSim remaining₁ leaves =>
    obtain ⟨rfl, isChunk, isHop, isLink⟩ := here completing
    have valid₁ : sim₁.Valid := isSim ▸ inv.valid.scheduled remaining (completionTime_ok ok)
    refine ⟨⟨_, isChunk ▸ completing.found⟩, isLink, _, ?_, arrives completing sim₁ isChunk isHop,
      checkedAdd_eq_some added⟩
    rw [leaves.sim]
    exact (valid₁.live_scheduled remaining₁).mpr (.inl rfl)

theorem Lands.dispatched (lands : Lands link service log n (some event))
    (inv : Invariant (some event) taken n) (dispatched : Dispatched taken event n n')
    (follows : Follows none taken' n n')
    (isService : n.transport.services.find? link = some service)
    (configuration : service'.queue.configuration = service.queue.configuration) :
    Lands link service' (log.seen link event n n') n' none := by
  have current := (inv.valid.current event (inv.current event rfl).1).2.2
  have awaited : event ∈ outstanding n.kernel.sim (some event) := .inr rfl
  have known : ∀ {chunk : ChunkId} {hopIndex : Nat}, n.linkAt chunk hopIndex = some link →
      n'.linkAt chunk hopIndex = some link := by
    intro chunk hopIndex isLink
    obtain ⟨record, found, _⟩ := Option.bind_eq_some_iff.mp isLink
    rw [linkAt_grows follows.chunks found]
    exact isLink
  constructor
  · intro departure member
    cases List.mem_append.mp member with
    | inl old => exact known (lands.onLink departure old)
    | inr added =>
      exact known (dispatched.departs inv (mem_departuresAt added).1 isService).2.1
  -- what lands now is the departure that was due
  · intro landing member
    rw [configuration]
    cases List.mem_append.mp member with
    | inl old =>
      obtain ⟨departure, isDeparture, same⟩ := lands.landed landing old
      exact ⟨departure, List.mem_append_left _ isDeparture, same⟩
    | inr added =>
      obtain ⟨payload, isLink, time⟩ := mem_landingsAt added
      obtain ⟨departure, isDeparture, chunk, hop, due⟩ :=
        lands.comes event awaited landing.chunk landing.hopIndex payload isLink
      refine ⟨departure, List.mem_append_left _ isDeparture, chunk.symm, hop.symm, ?_⟩
      rw [time, ← due, current]
  -- what had departed lands now or is still to come; what departs now is to come
  · intro departure member
    rw [configuration]
    cases List.mem_append.mp member with
    | inl old =>
      cases lands.lands departure old with
      | inl landed => exact .inl (List.mem_append_left _ landed)
      | inr due =>
        obtain ⟨other, isOutstanding, payload, timestamp⟩ := due
        cases isOutstanding with
        | inl live =>
          have live' := dispatched.arrival_kept inv live ⟨_, payload⟩
          exact .inr ⟨other, .inl live', payload, timestamp⟩
        | inr same =>
          cases same
          refine .inl (List.mem_append_right _ ?_)
          rw [landingsAt_arrival payload (lands.onLink departure old), ← timestamp, current]
          exact List.mem_singleton.mpr rfl
    | inr added =>
      obtain ⟨payload, completion⟩ := mem_departuresAt added
      obtain ⟨_, _, other, live, arrival, timestamp⟩ := dispatched.departs inv payload isService
      rw [completion]
      exact .inr ⟨other, .inl live, arrival, timestamp⟩
  -- what is to come is an earlier departure or the one of this event
  · intro other member chunk hopIndex payload isLink
    rw [configuration]
    rw [outstanding_none] at member
    cases dispatched.live_or inv member with
    | inl live =>
      obtain ⟨record, found, _⟩ := inv.placement.arriving (.inl live) payload
      rw [linkAt_grows follows.chunks found] at isLink
      obtain ⟨departure, isDeparture, same⟩ :=
        lands.comes other (.inl live) chunk hopIndex payload isLink
      exact ⟨departure, List.mem_append_left _ isDeparture, same⟩
    | inr added =>
      cases added with
      | transmission _ _ onLink => exact absurd onLink (not_both ⟨_, payload⟩)
      | @arrival chunk' record link' old hop _ cause found _ _ onRoute isOld payload' _ timestamp =>
        rw [payload] at payload'
        cases payload'
        have same : link' = link := by
          rw [linkAt_grows follows.chunks found] at isLink
          simpa [Network.linkAt, found, onRoute] using isLink
        subst same
        rw [isService] at isOld
        cases isOld
        refine ⟨⟨chunk, hopIndex, n.kernel.sim.now⟩, List.mem_append_right _ ?_, rfl, rfl,
          timestamp⟩
        rw [departuresAt_transmission cause]
        exact List.mem_singleton.mpr rfl

end Landings

theorem Watched.lands {link : DirectedLinkId} {log : Log} {d : Drive}
    (watched : Watched link log d) : ∀ service,
    d.network.transport.services.find? link = some service →
      Lands link service log d.network d.awaiting := by
  refine Watched.rule (P := fun log d => ∀ service,
    d.network.transport.services.find? link = some service →
      Lands link service log d.network d.awaiting) ?_ ?_ ?_ ?_ watched
  -- at the start nothing is on its way
  · intro d initial service isService
    obtain ⟨rng, fresh⟩ := initial.fresh
    refine ⟨by simp, by simp, by simp, ?_⟩
    intro event member
    rw [fresh, initial.idle] at member
    simp [outstanding, Simulation.Live, EventQueue.empty] at member
  -- a call sends nothing beyond first hops
  · intro log d d' reachable awaiting quiet grows ih service isService
    rw [quiet.services] at isService
    have lands := ih service isService
    refine ⟨?_, lands.landed, ?_, ?_⟩
    · intro departure member
      have isLink := lands.onLink departure member
      obtain ⟨record, found, _⟩ := Option.bind_eq_some_iff.mp isLink
      rwa [linkAt_grows grows found]
    · intro departure member
      cases lands.lands departure member with
      | inl landed => exact .inl landed
      | inr due =>
        obtain ⟨event, isOutstanding, payload, timestamp⟩ := due
        refine .inr ⟨event, ?_, payload, timestamp⟩
        cases isOutstanding with
        | inl live => exact .inl (quiet.live event (by simp [payload, ownPayload]) live)
        | inr isAwaited => exact .inr (awaiting.trans isAwaited)
    · intro event member chunk hopIndex payload isLink
      have before : event ∈ outstanding d.network.kernel.sim d.awaiting := by
        cases member with
        | inr isAwaited => exact .inr (awaiting ▸ isAwaited)
        | inl live =>
          cases quiet.arrivals event (by simp [payload, ownPayload]) live with
          | inl live => exact .inl live
          | inr added =>
            obtain ⟨_, other, arrival, _⟩ := added
            rw [payload] at arrival
            cases arrival
      obtain ⟨record, found, _⟩ := reachable.invariant.placement.arriving before payload
      rw [linkAt_grows grows found] at isLink
      exact lands.comes event before chunk hopIndex payload isLink
  -- the start of an event leaves everything where it is
  · intro log d d' event reachable idle isAwaited began ih service isService
    rw [began.transport] at isService
    have lands := ih service isService
    have events : outstanding d'.network.kernel.sim d'.awaiting =
        outstanding d.network.kernel.sim d.awaiting := by
      rw [isAwaited, idle]
      exact outstanding_started reachable.invariant.valid began.started
    have links : ∀ chunk hopIndex, d'.network.linkAt chunk hopIndex =
        d.network.linkAt chunk hopIndex := by
      intro chunk hopIndex
      simp [Network.linkAt, began.transport]
    refine ⟨?_, lands.landed, ?_, ?_⟩
    · intro departure member
      rw [links]
      exact lands.onLink departure member
    · rw [events]
      exact lands.lands
    · intro other member chunk hopIndex payload isLink
      rw [events] at member
      rw [links] at isLink
      exact lands.comes other member chunk hopIndex payload isLink
  -- a handler, by the lemma above
  · intro log d d' event before isAwaited idle up dispatched follows ih service' isService'
    have inv := before.reachable.invariant
    obtain ⟨service, isService, configuration⟩ :=
      dispatched.sameConfigurations link service' isService'
    have lands := ih service isService
    rw [isAwaited] at inv lands
    rw [idle]
    exact lands.dispatched inv dispatched follows isService configuration

/-! ## Waiting bytes -/

/-- The queue counts its waiting bytes, and they fit the buffer. -/
structure DirectedLinkQueue.Counted (q : DirectedLinkQueue) : Prop where
  sum : q.waitingBytes = (q.waiting.map TransferChunk.bytes).sum
  fits : q.waitingBytes ≤ q.configuration.waitingBufferCapacity

namespace DirectedLinkQueue.Counted

variable {q : DirectedLinkQueue} {chunk next : TransferChunk} {rest : List TransferChunk}

theorem room (counted : q.Counted) (word : q.configuration.waitingBufferCapacity ≤ maxU64) :
    U64.sub q.configuration.waitingBufferCapacity q.waitingBytes =
      q.configuration.waitingBufferCapacity - q.waitingBytes :=
  U64.sub_eq counted.fits (Nat.lt_of_le_of_lt word (by decide))

theorem overflows_iff (counted : q.Counted)
    (word : q.configuration.waitingBufferCapacity ≤ maxU64) {bytes : ByteCount} :
    q.overflows bytes = true ↔ q.configuration.waitingBufferCapacity <
      (q.waiting.map TransferChunk.bytes).sum + bytes := by
  unfold overflows
  rw [decide_eq_true_iff, counted.room word, ← counted.sum]
  have fits := counted.fits
  generalize q.configuration.waitingBufferCapacity = capacity at *
  generalize q.waitingBytes = waiting at *
  have shift : ∀ a b c : Nat, b ≤ a → (c > a - b ↔ a < b + c) := by
    intro a b c le
    omega
  exact shift capacity waiting bytes fits

/-- A chunk that fits is counted. -/
theorem add (counted : q.Counted) (word : q.configuration.waitingBufferCapacity ≤ maxU64)
    (fits : q.overflows chunk.bytes = false) :
    U64.add q.waitingBytes chunk.bytes = q.waitingBytes + chunk.bytes ∧
      q.waitingBytes + chunk.bytes ≤ q.configuration.waitingBufferCapacity := by
  have enough : q.waitingBytes + chunk.bytes ≤ q.configuration.waitingBufferCapacity := by
    have notOver : ¬ q.overflows chunk.bytes = true := by simp [fits]
    rw [counted.overflows_iff word, ← counted.sum] at notOver
    exact Nat.not_lt.mp notOver
  exact ⟨U64.add_eq (Nat.lt_of_le_of_lt (enough.trans word) (by decide)), enough⟩

theorem enqueued (counted : q.Counted) (word : q.configuration.waitingBufferCapacity ≤ maxU64)
    (fits : q.overflows chunk.bytes = false) : (q.enqueued chunk).Counted := by
  obtain ⟨exactly, enough⟩ := counted.add word fits
  constructor
  · simp only [DirectedLinkQueue.enqueued, List.map_append, List.sum_append, List.map_cons,
      List.map_nil, List.sum_singleton]
    rw [exactly, counted.sum]
  · simp only [DirectedLinkQueue.enqueued]
    rw [exactly]
    exact enough

theorem advanced (counted : q.Counted) (word : q.configuration.waitingBufferCapacity ≤ maxU64)
    (waiting : q.waiting = next :: rest) : (q.advanced next rest).Counted := by
  have sum := counted.sum
  rw [waiting, List.map_cons, List.sum_cons] at sum
  have exactly : U64.sub q.waitingBytes next.bytes = (rest.map TransferChunk.bytes).sum := by
    have small : q.waitingBytes < 2 ^ 64 :=
      Nat.lt_of_le_of_lt (counted.fits.trans word) (by decide)
    rw [sum] at small ⊢
    rw [U64.sub_eq (Nat.le_add_right _ _) small, Nat.add_sub_cancel_left]
  constructor
  · exact exactly
  · refine le_trans ?_ counted.fits
    simp only [DirectedLinkQueue.advanced]
    rw [exactly, sum]
    exact Nat.le_add_left _ _

/-- Whether a chunk that has to wait is marked. -/
theorem marksNext_iff (counted : q.Counted)
    (word : q.configuration.waitingBufferCapacity ≤ maxU64)
    (fits : q.overflows chunk.bytes = false) :
    q.marksNext chunk = true ↔ ∃ threshold, q.configuration.markingThreshold = some threshold ∧
      threshold ≤ (q.waiting.map TransferChunk.bytes).sum + chunk.bytes := by
  unfold marksNext marks
  rw [(counted.add word fits).1, ← counted.sum]
  cases q.configuration.markingThreshold <;> simp

end DirectedLinkQueue.Counted

/-- Every queue whose capacity is a machine word counts its waiting bytes. -/
def Counts (n : Network) : Prop :=
  ∀ link service, n.transport.services.find? link = some service →
    service.queue.configuration.waitingBufferCapacity ≤ maxU64 → service.queue.Counted

theorem Counts.insert {n n' : Network} (counts : Counts n) {sim : Simulation}
    {chunks : OrderedMap ChunkId ChunkRecord} {link : DirectedLinkId}
    {service' : DirectedLinkService}
    (leaves : Network.Leaves n sim chunks (n.transport.services.insert link service') n')
    (here : service'.queue.configuration.waitingBufferCapacity ≤ maxU64 →
      service'.queue.Counted) : Counts n' := by
  obtain ⟨transfers, completions, transport⟩ := leaves.transport
  intro other service found word
  rw [transport] at found
  by_cases same : other = link
  · subst same
    simp only [OrderedMap.find?_insert_self, Option.some.injEq] at found
    subst found
    exact here word
  · rw [OrderedMap.find?_insert_of_ne _ _ same] at found
    exact counts other service found word

theorem Counts.dispatched {taken : List TransferCompletion} {event : Event} {n n' : Network}
    (counts : Counts n) (dispatched : Dispatched taken event n n') : Counts n' := by
  cases dispatched with
  | passed _ => exact counts
  | arrived arrives =>
    cases arrives with
    | delivered _ _ leaves =>
      obtain ⟨transfers, completions, transport⟩ := leaves.transport
      intro link service found word
      rw [transport] at found
      exact counts link service found word
    | blocked _ enters _ leaves =>
      refine counts.insert leaves fun word => ?_
      have counted := counts _ _ enters.isService word
      exact counted
    | started _ enters _ _ _ _ leaves =>
      refine counts.insert leaves fun word => ?_
      obtain ⟨sum, fits⟩ := counts _ _ enters.isService word
      exact ⟨sum, fits⟩
    | queued enters _ _ fits leaves =>
      exact counts.insert leaves fun word => (counts _ _ enters.isService word).enqueued word fits
    | rejected enters _ _ _ leaves =>
      refine counts.insert leaves fun word => ?_
      have counted := counts _ _ enters.isService word
      exact counted
  | completed completes =>
    cases completes with
    | idled _ _ completing waiting _ _ leaves =>
      refine counts.insert leaves fun word => ?_
      obtain ⟨sum, fits⟩ := counts _ _ completing.isService word
      exact ⟨by rw [sum, waiting], fits⟩
    | advanced _ _ _ _ completing waiting _ _ _ _ _ leaves =>
      exact counts.insert leaves fun word =>
        (counts _ _ completing.isService word).advanced word waiting
  | @changed _ graph given _ reconciled =>
    intro link service found word
    by_cases gives : link ∈ given
    · obtain ⟨statistics, emptied⟩ := reconciled.emptied link gives
      rw [found] at emptied
      obtain ⟨before, _, same⟩ := Option.map_eq_some_iff.mp emptied.symm
      subst same
      exact ⟨rfl, Nat.zero_le _⟩
    · rw [reconciled.kept link gives] at found
      exact counts link service found word

theorem Reachable.counts {d : Drive} (reachable : Reachable d) : Counts d.network := by
  apply Reachable.induction (P := fun d => Counts d.network) ?_ ?_ reachable
  · intro d initial link service found _
    obtain ⟨configurations, limits, created⟩ := initial.created
    obtain ⟨_, _, waiting, _, _, _, waitingBytes⟩ := (create_ok created).2 link service found
    exact ⟨by simp [waiting, waitingBytes], waitingBytes ▸ Nat.zero_le _⟩
  · intro d d' _ _ effect _ counts
    cases effect with
    | quiet _ quiet =>
      intro link service found word
      rw [quiet.services] at found
      exact counts link service found word
    | began _ _ _ began =>
      intro link service found word
      rw [began.transport] at found
      exact counts link service found word
    | dispatched _ _ _ dispatched => exact counts.dispatched dispatched

/-! ## Admission -/

/-- At an arrival, every transmission that is complete by then has been dealt with. -/
theorem transmission_later {d : Drive} (reachable : Reachable d) {event other : Event}
    (isAwaited : d.awaiting = some event) {chunk : ChunkId}
    (arrival : ArrivalOf chunk event.payload) (live : d.network.kernel.sim.Live other)
    {link : DirectedLinkId} (onLink : TransmissionOn link other.payload) :
    d.network.kernel.sim.now < other.timestamp := by
  have inv := reachable.invariant
  have own : ownPayload event.payload = true := by
    obtain ⟨hopIndex, payload⟩ := arrival
    simp [payload, ownPayload]
  have own' : ownPayload other.payload = true := by
    obtain ⟨_, _, payload⟩ := onLink
    simp [payload, ownPayload]
  have first := reachable.foremost event isAwaited own other live own'
  have normal := reachable.punctual.arrivals event (.inr isAwaited) chunk arrival
  have control := reachable.punctual.transmissions other (.inl live) link onLink
  have current := (inv.valid.current event (inv.current event isAwaited).1).2.2
  rw [← current]
  refine lt_of_le_of_ne (Event.key_timestamp_le (le_of_lt first)) fun same => ?_
  -- at the same time it would have come first
  have wrong : other.key < event.key := by
    unfold Event.key
    rw [Prod.Lex.toLex_lt_toLex, Prod.Lex.toLex_lt_toLex, normal, control]
    refine .inr ⟨same.symm, .inl ?_⟩
    show EventPriority.control.value < EventPriority.normal.value
    decide
  exact lt_asymm first wrong

/-- What becomes of a chunk at a link that is operational, and how the link answers: the mark that
it sets is its own, whatever mark the chunk has brought along. -/
structure Answered (service service' : DirectedLinkService) (admission : AdmissionResult)
    (record after : ChunkRecord) : Prop where
  accepted : after.state = .droppedBufferFull ∨ after.state = .admitted
  dropped : after.state = .droppedBufferFull ↔ service.queue.active ≠ none ∧
    service.queue.configuration.waitingBufferCapacity <
      (service.queue.waiting.map TransferChunk.bytes).sum + record.chunk.bytes
  markedHere : admission.markedHere = true ↔ after.state = .admitted ∧
    service.queue.active ≠ none ∧ ∃ threshold,
      service.queue.configuration.markingThreshold = some threshold ∧
      threshold ≤ (service.queue.waiting.map TransferChunk.bytes).sum + record.chunk.bytes
  marked : after.chunk.marked = (record.chunk.marked || admission.markedHere)
  counted : service'.statistics.marked =
    service.statistics.marked + if admission.markedHere then ⟨record.chunk.bytes, 1⟩ else 0

theorem Network.Arrives.answered {n n' : Network} {taken : List TransferCompletion} {event : Event}
    (arrives : Network.Arrives taken n event n') {link : DirectedLinkId}
    {service : DirectedLinkService} (isService : n.transport.services.find? link = some service)
    (counted : service.queue.Counted)
    (word : service.queue.configuration.waitingBufferCapacity ≤ maxU64) (up : Up link n)
    {chunk : ChunkId} {record : ChunkRecord}
    (payload : event.payload = .chunkArrival ⟨chunk, record.hopIndex⟩)
    (found : n.transport.chunks.find? chunk = some record)
    (onRoute : record.route[record.hopIndex]? = some link) :
    ∃ admission after service', n'.transport.chunks.find? chunk = some after ∧
      n'.transport.services.find? link = some service' ∧
      Answered service service' admission record after := by
  cases arrives with
  | delivered arriving last _ =>
    obtain ⟨rfl, rfl, _⟩ := arriving.same_of_payload payload found
    rw [last, List.getElem?_eq_none (le_refl _)] at onRoute
    cases onRoute
  | blocked _ enters down _ =>
    obtain ⟨rfl, _⟩ := enters.at_link payload found onRoute isService
    simp [up _ enters.isArc] at down
  | started _ enters _ idle _ _ leaves =>
    obtain ⟨rfl, rfl, rfl, rfl, _⟩ := enters.at_link payload found onRoute isService
    refine ⟨⟨.serviceStarted, false⟩, _, _, leaves.chunk_found, leaves.service_found,
      .inr rfl, ?_, ?_, rfl, rfl⟩
    · simp [Network.answered, idle]
    · simp [idle]
  | queued enters _ busy fits leaves =>
    obtain ⟨rfl, rfl, rfl, rfl, _⟩ := enters.at_link payload found onRoute isService
    have notOver : ¬ service.queue.overflows record.chunk.bytes = true := by simp [fits]
    rw [counted.overflows_iff word] at notOver
    have marks : service.queue.marksNext (Network.entering record).chunk = true ↔ _ :=
      counted.marksNext_iff word fits
    refine ⟨⟨.queued, service.queue.marksNext (Network.entering record).chunk⟩, _, _,
      leaves.chunk_found, leaves.service_found, .inr rfl, ?_, ?_, rfl, rfl⟩
    · simp only [Network.answered, reduceCtorEq, if_false, false_iff, not_and]
      exact fun _ => notOver
    · simp only [marks]
      simp [Network.answered, Network.entering, busy]
  | rejected enters _ busy full leaves =>
    obtain ⟨rfl, rfl, rfl, rfl, _⟩ := enters.at_link payload found onRoute isService
    refine ⟨⟨.droppedBufferFull, false⟩, _, _, leaves.chunk_found, leaves.service_found,
      .inl rfl, ?_, ?_, rfl, rfl⟩
    · simp only [Network.answered, if_true, true_iff]
      exact ⟨busy, (counted.overflows_iff word).mp full⟩
    · simp [Network.answered]

/-- The timing of a link, along any run in which its arc stays operational.  Transmissions are
completed in the order of arrival and obey the recurrence of a queue that is first come, first
served; every chunk lands a propagation delay later.  At an arrival all transmissions that are
complete by then have been dealt with, and a chunk is dropped exactly if the link is busy and the
chunk does not fit the buffer.  The link marks a chunk, whether or not another link has marked it
before, exactly if it accepts the chunk, the chunk has to wait and the waiting bytes reach the
threshold. -/
theorem fifo_service_timing (link : DirectedLinkId) (log : Log) (d : Drive)
    (watched : Watched link log d) (service : DirectedLinkService)
    (isService : d.network.transport.services.find? link = some service)
    (word : service.queue.configuration.waitingBufferCapacity ≤ maxU64) :
    (∃ done inHand, log.admissions = done ++ inHand ∧
      Served service.queue.configuration.bandwidth 0 done log.departures ∧
      inHand.map Admission.face = service.queue.held.map TransferChunk.face) ∧
    (∀ landing ∈ log.landings, ∃ departure ∈ log.departures,
      landing.chunk = departure.chunk ∧ landing.hopIndex = departure.hopIndex ∧
      landing.time = departure.completion + service.queue.configuration.propagationDelay) ∧
    (∀ departure ∈ log.departures,
      ⟨departure.chunk, departure.hopIndex,
        departure.completion + service.queue.configuration.propagationDelay⟩ ∈ log.landings ∨
      ∃ event ∈ outstanding d.network.kernel.sim d.awaiting,
        event.payload = .chunkArrival ⟨departure.chunk, departure.hopIndex + 1⟩ ∧
        event.timestamp =
          departure.completion + service.queue.configuration.propagationDelay) ∧
    ∀ event chunk record n', d.awaiting = some event →
      event.payload = .chunkArrival ⟨chunk, record.hopIndex⟩ →
      d.network.transport.chunks.find? chunk = some record →
      record.route[record.hopIndex]? = some link →
      Network.dispatch event.payload d.network = .ok () n' →
      (∀ other, d.network.kernel.sim.Live other → TransmissionOn link other.payload →
        d.network.kernel.sim.now < other.timestamp) ∧
      ∃ admission after service', n'.transport.chunks.find? chunk = some after ∧
        n'.transport.services.find? link = some service' ∧
        Answered service service' admission record after := by
  have reachable := watched.reachable
  have inv := reachable.invariant
  obtain ⟨done, inHand, split, served, faces, _⟩ := (watched.tracks service isService).jobs
  have lands := watched.lands service isService
  refine ⟨⟨done, inHand, split, served, faces⟩, lands.landed, lands.lands, ?_⟩
  intro event chunk record n' isAwaited payload found onRoute ok
  refine ⟨fun other live onLink =>
    transmission_later reachable isAwaited ⟨_, payload⟩ live onLink, ?_⟩
  rw [isAwaited] at inv
  have arrives := (wp_of_ok (wp_dispatch inv) ok).2.arrives ⟨_, payload⟩
  exact arrives.answered isService (reachable.counts link service isService word) word watched.up
    payload found onRoute

/-! ## A watched run -/

/-- Plays moves and keeps the log of a link, as long as its arc is operational. -/
def Drive.watch (link : DirectedLinkId) : List Move → Log → Drive → Option (Log × Drive)
  | [], log, d => some (log, d)
  | move :: moves, log, d =>
    match d.play move with
    | none => none
    | some d' =>
      match requireFabricArc d'.network.graph link with
      | .error _ => none
      | .ok arc =>
        if d'.network.graph.isOperational arc then
          match d.awaiting, d'.awaiting with
          | some event, none => Drive.watch link moves (log.seen link event d.network d'.network) d'
          | _, _ => Drive.watch link moves log d'
        else none

theorem Watched.watch {link : DirectedLinkId} {moves : List Move} {log last : Log} {d final : Drive}
    (watched : Watched link log d) (played : d.watch link moves log = some (last, final)) :
    Watched link last final := by
  induction moves generalizing log d with
  | nil =>
    cases played
    exact watched
  | cons move moves ih =>
    simp only [Drive.watch] at played
    split at played
    · cases played
    · rename_i d' isPlayed
      have step := Drive.play_step isPlayed
      split at played
      · cases played
      · rename_i arc isArc
        split at played
        · rename_i operational
          have up : Up link d'.network := by
            intro other isOther
            rw [isArc] at isOther
            cases isOther
            exact operational
          split at played
          · rename_i event isAwaited idle
            exact ih (.dispatched event watched step isAwaited idle up) played
          · rename_i other
            refine ih (.silent watched step ?_ up) played
            by_contra both
            rw [not_or, not_not] at both
            obtain ⟨event, isAwaited⟩ := Option.ne_none_iff_exists'.mp both.1
            exact other event isAwaited both.2
        · cases played

/-- Three spine switches in a row. -/
def chainedSwitches : TopologyGraph :=
  { switches := [⟨⟨0⟩, none, .spine, [⟨0⟩], .up⟩, ⟨⟨1⟩, none, .spine, [⟨1⟩, ⟨2⟩], .up⟩,
      ⟨⟨2⟩, none, .spine, [⟨3⟩], .up⟩]
    ports :=
      [⟨⟨0⟩, ⟨.switch, 0⟩, .fabricDownlink, .up⟩, ⟨⟨1⟩, ⟨.switch, 1⟩, .fabricDownlink, .up⟩,
        ⟨⟨2⟩, ⟨.switch, 1⟩, .fabricDownlink, .up⟩, ⟨⟨3⟩, ⟨.switch, 2⟩, .fabricDownlink, .up⟩]
    links := [⟨⟨0⟩, ⟨0⟩, ⟨1⟩, .fabric, .up⟩, ⟨⟨1⟩, ⟨2⟩, ⟨3⟩, .fabric, .up⟩] }

/-- The second link is slower than the first; both mark from thirty-two waiting bytes on. -/
def chainedConfigurations : List DirectedLinkConfiguration :=
  [⟨⟨⟨0⟩, .aToB⟩, 8000000000, 10, 4096, some 32⟩, ⟨⟨⟨1⟩, .aToB⟩, 6400000000, 10, 4096, some 32⟩]

def chainedDrive : Drive where
  network :=
    { joinedDrive.network with
      graph := chainedSwitches
      transport :=
        { services := chainedConfigurations.foldl (fun services configuration =>
            services.insert configuration.link { queue := { configuration } }) .empty } }

theorem chainedDrive_initial : Initial chainedDrive where
  fresh := ⟨_, rfl⟩
  created := ⟨chainedConfigurations, {}, rfl⟩
  idle := rfl
  nothing := rfl

/-- A transfer over both links, up to the arrival of its third chunk at the second link. -/
def chainedMoves : List Move :=
  .submit ⟨⟨.switch, 0⟩, ⟨.switch, 2⟩, 160, 64, [⟨⟨0⟩, .aToB⟩, ⟨⟨1⟩, .aToB⟩]⟩ :: .run ::
    (List.replicate 10 [.start, .handle, .conclude]).flatten ++ [.start]

def chainedPlay : Option ((Log × Drive) × Drive) :=
  (chainedDrive.watch ⟨⟨1⟩, .aToB⟩ chainedMoves {}).bind fun watched =>
    (watched.2.play .handle).map fun after => (watched, after)

/-- What is seen of the run: of the log, of the third chunk and of the second link. -/
def chainedOutcome (watched : (Log × Drive) × Drive) : Bool :=
  watched.1.1.departures == [⟨⟨0⟩, 1, 154⟩] && watched.1.1.landings == [⟨⟨0⟩, 1, 164⟩] &&
    watched.1.2.awaiting.any (fun event => event.payload == .chunkArrival ⟨⟨2⟩, 1⟩) &&
    (watched.1.2.network.transport.chunks.find? ⟨2⟩).any (fun record =>
      record.hopIndex == 1 && record.route[1]? == some ⟨⟨1⟩, .aToB⟩ && record.chunk.marked) &&
    (watched.1.2.network.transport.services.find? ⟨⟨1⟩, .aToB⟩).any (fun service =>
      service.statistics.marked == ⟨64, 1⟩ &&
        service.queue.configuration.waitingBufferCapacity ≤ maxU64) &&
    (watched.2.network.transport.services.find? ⟨⟨1⟩, .aToB⟩).any (fun service =>
      service.statistics.marked == ⟨96, 2⟩)

theorem fifo_service_timing_marked_twice : ∃ log d service, ∃ event : Event, ∃ record n',
    Watched ⟨⟨1⟩, .aToB⟩ log d ∧ log.departures = [⟨⟨0⟩, 1, 154⟩] ∧
    log.landings = [⟨⟨0⟩, 1, 164⟩] ∧ record.chunk.marked = true ∧
    service.statistics.marked = ⟨64, 1⟩ ∧ Network.dispatch event.payload d.network = .ok () n' ∧
    (∃ done inHand, log.admissions = done ++ inHand ∧
      Served service.queue.configuration.bandwidth 0 done log.departures) ∧
    ∃ admission after service', n'.transport.services.find? ⟨⟨1⟩, .aToB⟩ = some service' ∧
      service'.statistics.marked = ⟨96, 2⟩ ∧ admission.markedHere = true ∧
      Answered service service' admission record after := by
  have plays : chainedPlay.any chainedOutcome = true := by decide +kernel
  have start : Watched ⟨⟨1⟩, .aToB⟩ {} chainedDrive := by
    refine .start chainedDrive_initial fun arc isArc => ?_
    cases isArc
    decide
  simp only [Option.any_eq_true] at plays
  obtain ⟨⟨⟨log, d⟩, d'⟩, played, outcome⟩ := plays
  rw [chainedPlay, Option.bind_eq_some_iff] at played
  obtain ⟨_, isWatched, rest⟩ := played
  obtain ⟨_, isHandled, same⟩ := Option.map_eq_some_iff.mp rest
  cases same
  have watched := start.watch isWatched
  simp only [chainedOutcome, Bool.and_eq_true, beq_iff_eq, Option.any_eq_true,
    decide_eq_true_eq] at outcome
  obtain ⟨⟨⟨⟨⟨departures, landings⟩, event, isAwaited, payload⟩, record, found, ⟨isHop, onRoute⟩,
    marked⟩, service, isService, before, word⟩, service', isService', after⟩ := outcome
  simp only [Drive.play, isAwaited] at isHandled
  split at isHandled
  · rename_i n' ok
    cases isHandled
    obtain ⟨⟨done, inHand, split, served, _⟩, _, _, answers⟩ :=
      fifo_service_timing _ log d watched service isService word
    obtain ⟨_, admission, record', service'', _, isSame, answered⟩ :=
      answers event ⟨2⟩ record n' isAwaited (isHop ▸ payload) found (isHop ▸ onRoute) ok
    cases isService'.symm.trans isSame
    refine ⟨log, d, service, event, record, n', watched, departures, landings, marked, before, ok,
      ⟨done, inHand, split, served⟩, admission, record', service', isService', after, ?_, answered⟩
    -- the counter of the link has grown
    by_contra unmarked
    have counted := answered.counted
    rw [if_neg unmarked, before, after] at counted
    cases counted
  · cases isHandled

end NexusLab.Transport
