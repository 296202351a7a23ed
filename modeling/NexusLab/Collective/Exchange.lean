import NexusLab.Collective.Rounds
import NexusLab.Routing.RouterAgreement

/-! # The executor and its surroundings

Everything the executor waits for comes back to it from outside: a local transfer as an event of
the simulation, a fabric transfer as a completion of the transport, which somebody takes and hands
over.  `Linked` says that nothing the executor waits for has been lost on the way and that nothing
else will be handed to it.  The rules below push a weakest precondition through the executor's
operations; the two that issue a transfer keep `Linked` and the books of the round. -/

namespace NexusLab.Collective

open Foundation Sim Telemetry NexusLab.Topology Routing Workload

/-- What the executor throws out of a round by itself: something has run out, or the telemetry has
thrown. -/
inductive Permitted : Error → Prop where
  | telemetry {e : Error} : e.origin = .telemetry → Permitted e
  | timeline : Permitted (.lengthError "collective timeline limit exceeded")
  | delay : Permitted (.overflowError "local collective delay overflow")
  | arrival : Permitted (.overflowError "local collective arrival overflow")
  | flow : Permitted (.overflowError "collective routing key exhausted")

/-! ## Rules for the executor's operations -/

namespace Ring

def probed (r : Ring) (probe : Instrumentation) : Ring :=
  { r with fabric := { r.fabric with network := r.fabric.network.probed probe } }

def wrote (r : Ring) (id : CollectiveId) (f : Record → Record) : Ring :=
  { r with executor := { r.executor with records := r.executor.records.adjust id f } }

def traced (r : Ring) (entry : CollectiveTimeline) : Ring :=
  { r with executor := { r.executor with timeline := r.executor.timeline ++ [entry] } }

variable {r : Ring} {id : CollectiveId} {record : Record} {E : Error → Ring → Prop}

@[simp] theorem find?_wrote (found : r.executor.records.find? id = some record)
    (f : Record → Record) :
    (r.wrote id f).executor.records.find? id = some (f record) := by
  simp [wrote, found]

theorem wp_recordAt {Q : Record → Ring → Prop} (found : r.executor.records.find? id = some record) :
    wp (recordAt id) Q E r ↔ Q record r := by
  simp [recordAt, found]

/-- The same rule, for a state that only reduces to one with the record. -/
theorem wp_read {Q : Record → Ring → Prop} (found : r.executor.records.find? id = some record)
    (h : Q record r) : wp (recordAt id) Q E r := (wp_recordAt found).mpr h

@[simp] theorem wp_modifyRecord {f : Record → Record} {Q : Unit → Ring → Prop} :
    wp (modifyRecord id f) Q E r ↔ Q () (r.wrote id f) := Iff.rfl

@[simp] theorem wp_modifyExecutor {f : RingExecutor → RingExecutor} {Q : Unit → Ring → Prop} :
    wp (modifyExecutor f) Q E r ↔ Q () { r with executor := f r.executor } := Iff.rfl

@[simp] theorem wp_now {Q : SimTimeNs → Ring → Prop} :
    wp now Q E r ↔ Q r.fabric.network.now r := Iff.rfl

/-- A report changes the instrumentation only. -/
theorem wp_report {m : Kernel → Action Instrumentation Unit} {Q : Unit → Ring → Prop}
    (returns : ∀ probe, Q () (r.probed probe)) (throws : ∀ e r', Permitted e → E e r') :
    wp (zoom kernelLens (Kernel.observe m)) Q E r := by
  rw [wp_zoom]
  exact Kernel.wp_observe (fun probe _ => returns probe)
    (fun e _ origin _ => throws e _ (.telemetry origin))

theorem wp_emit {transition : CollectiveTransition} {transfer : Option TransferId} {bytes : Nat}
    {Q : Unit → Ring → Prop} (found : r.executor.records.find? id = some record)
    (returns : ∀ probe, Q () (r.probed probe)) (throws : ∀ e r', Permitted e → E e r') :
    wp (emit id transition transfer bytes) Q E r := by
  rw [emit, wp_bind, wp_recordAt found]
  exact wp_report returns throws

theorem wp_emitCounter {metric : MetricId} {amount : Nat} {transfer : Option TransferId}
    {Q : Unit → Ring → Prop} (found : r.executor.records.find? id = some record)
    (returns : ∀ probe, Q () (r.probed probe)) (throws : ∀ e r', Permitted e → E e r') :
    wp (emitCounter id metric amount transfer) Q E r := by
  rw [emitCounter, wp_bind, wp_recordAt found]
  exact wp_report returns throws

theorem wp_emitDuration {Q : Unit → Ring → Prop}
    (found : r.executor.records.find? id = some record)
    (returns : ∀ probe, Q () (r.probed probe)) (throws : ∀ e r', Permitted e → E e r') :
    wp (emitDuration id) Q E r := by
  rw [emitDuration, wp_bind, wp_recordAt found]
  exact wp_report returns throws

theorem wp_trace {Q : Unit → Ring → Prop} (found : r.executor.records.find? id = some record)
    (returns : Q () (r.traced ⟨record.result.id, r.fabric.network.now, record.phase, record.round⟩))
    (throws : ∀ e r', Permitted e → E e r') : wp (trace id) Q E r := by
  simp only [trace, wp_bind, wp_recordAt found, wp_get, wp_throwIf, wp_now, wp_modifyExecutor]
  exact ⟨fun _ => throws _ _ .timeline, fun _ => returns⟩

/-- The end of a collective whose bytes are accounted for. -/
theorem wp_finish {Q : Unit → Ring → Prop} (found : r.executor.records.find? id = some record)
    (isOver : Over r.executor id record)
    (returns : ∀ probe, Q () ({ r with
      executor := r.executor.ending id r.fabric.network.now record }.probed probe))
    (throws : ∀ e r', Permitted e → E e r') : wp (finish id) Q E r := by
  have running : record.finished ≠ true := by simp [isOver.running]
  have isId := isOver.planned.id
  simp only [finish, wp_bind, wp_recordAt found, wp_throwIf, wp_modifyRecord]
  refine ⟨fun again => absurd again running, fun _ => ?_⟩
  -- the record at the first write, and at the second
  have found₁ := find?_wrote found
    fun record => { record with finished := true, phase := record.endPhase }
  simp only [wp_recordAt found₁, wp_now]
  refine ⟨fun lost => absurd (isOver.whole lost.1).1 lost.2, fun _ => ?_⟩
  have found₂ := find?_wrote found₁ fun record => { record with
    result := { record.result with outcome := record.phase, finished := r.fabric.network.now } }
  refine wp_trace found₂ (wp_read found₂ ?_) throws
  simp only [wp_modifyExecutor]
  refine wp_emit found₂ (fun probe => wp_emitDuration found₂ (fun probe' => ?_) throws) throws
  have same : r.executor.ending id r.fabric.network.now record = { r.executor with
      records := (r.executor.records.adjust id fun record =>
          { record with finished := true, phase := record.endPhase }).adjust id fun record =>
        { record with
          result := { record.result with
            outcome := record.phase, finished := r.fabric.network.now } }
      timeline := r.executor.timeline ++
        [⟨record.result.id, r.fabric.network.now, record.endPhase, record.round⟩]
      completed := r.executor.completed ++ [(record.ended r.fabric.network.now).result] } := by
    rw [OrderedMap.adjust_adjust, isId]
    rfl
  have last := returns probe'
  rw [same] at last
  exact last

end Ring

/-! ## The surroundings -/

/-- An executor in its surroundings: the event that is being handled, the completions that have
been handed over, those that were taken from the transport but not handed over yet, and the results
that were taken from the executor. -/
structure Exchange where
  ring : Ring
  awaiting : Option Event := none
  handed : List Transport.TransferCompletion := []
  handing : List Transport.TransferCompletion := []
  published : List CollectiveResult := []

namespace Exchange

def network (x : Exchange) : Transport.Network := x.ring.fabric.network

def executor (x : Exchange) : RingExecutor := x.ring.executor

/-- The transport and the router, as a run of theirs has them. -/
def routed (x : Exchange) : Routed :=
  ⟨⟨x.network, x.awaiting, x.handed ++ x.handing⟩, x.ring.fabric.router⟩

/-- The exchange after the executor has done something. -/
def after (x : Exchange) (ring : Ring) : Exchange := { x with ring }

def outstanding (x : Exchange) : Set Event := Transport.outstanding x.network.kernel.sim x.awaiting

/-- What the executor waits for is under way, and nothing else is under way to it. -/
structure Linked (x : Exchange) : Prop where
  known : ∀ id, (∃ record, x.executor.records.find? id = some record) ↔
    id.value < x.executor.records.size
  participants : ∀ id record, x.executor.records.find? id = some record →
    ∀ gpu ∈ record.request.participants, ∃ worker, x.network.graph.findGpu gpu = some worker
  loaded : x.executor.Loaded
  owned : ∀ transfer p, x.executor.transfers.find? transfer = some p →
    (∃ record, x.executor.records.find? p.collective = some record) ∧
      Transport.Network.Submitted x.network transfer p.bytes ∧
      ∀ completion ∈ x.handed, completion.transfer ≠ transfer
  answered : ∀ transfer record, x.network.transport.transfers.find? transfer = some record →
    (∃ p, x.executor.transfers.find? transfer = some p) ∨
      ∃ completion ∈ x.handed, completion.transfer = transfer
  locals : ∀ id found, x.executor.locals.find? id = some found →
    (∃ record, x.executor.records.find? found.transfer.collective = some record) ∧
      found.event.collective = found.transfer.collective ∧
      ∃ event ∈ x.outstanding, event.id = id ∧ event.payload = .localCompletion found.event
  events : ∀ event ∈ x.outstanding, ∀ completion, event.payload = .localCompletion completion →
    ∃ found, x.executor.locals.find? event.id = some found ∧ found.event = completion

/-- What the surroundings may do without concerning the executor: no GPU and no submission is lost,
no transfer is new, and the events of local transfers are the same. -/
structure Apart (x x' : Exchange) : Prop where
  gpus : ∀ gpu worker, x.network.graph.findGpu gpu = some worker →
    ∃ worker, x'.network.graph.findGpu gpu = some worker
  submitted : ∀ transfer bytes, Transport.Network.Submitted x.network transfer bytes →
    Transport.Network.Submitted x'.network transfer bytes
  transfers : ∀ transfer record, x'.network.transport.transfers.find? transfer = some record →
    ∃ record, x.network.transport.transfers.find? transfer = some record
  events : ∀ event completion, event.payload = .localCompletion completion →
    (event ∈ x'.outstanding ↔ event ∈ x.outstanding)

namespace Linked

variable {x x' : Exchange}

/-- The surroundings have done something, and the executor has not. -/
theorem apart (linked : x.Linked) (apart : x.Apart x') (executor : x'.executor = x.executor)
    (handed : x'.handed = x.handed) : x'.Linked where
  known := by rw [executor]; exact linked.known
  participants id record found gpu member := by
    rw [executor] at found
    obtain ⟨worker, isWorker⟩ := linked.participants id record found gpu member
    exact apart.gpus gpu worker isWorker
  loaded := by rw [executor]; exact linked.loaded
  owned transfer p found := by
    rw [executor] at found ⊢
    rw [handed]
    obtain ⟨known, submitted, unhanded⟩ := linked.owned transfer p found
    exact ⟨known, apart.submitted _ _ submitted, unhanded⟩
  answered transfer record found := by
    rw [executor, handed]
    obtain ⟨record', found'⟩ := apart.transfers transfer record found
    exact linked.answered transfer record' found'
  locals id found isFound := by
    rw [executor] at isFound ⊢
    obtain ⟨known, same, event, outstanding, isId, payload⟩ := linked.locals id found isFound
    exact ⟨known, same, event, (apart.events event _ payload).mpr outstanding, isId, payload⟩
  events event outstanding completion payload := by
    rw [executor]
    exact linked.events event ((apart.events event _ payload).mp outstanding) completion payload

/-- The executor has written to its records only, and to what it has published. -/
theorem wrote (linked : x.Linked) (network : x'.network = x.network)
    (outstanding : x'.outstanding = x.outstanding) (handed : x'.handed = x.handed)
    (transfers : x'.executor.transfers = x.executor.transfers)
    (locals : x'.executor.locals = x.executor.locals)
    (size : x'.executor.records.size = x.executor.records.size)
    (records : ∀ id, (x'.executor.records.find? id).map Record.request =
      (x.executor.records.find? id).map Record.request) : x'.Linked := by
  have known : ∀ id, (∃ record, x'.executor.records.find? id = some record) ↔
      ∃ record, x.executor.records.find? id = some record := by
    intro id
    have same := records id
    cases here : x.executor.records.find? id <;>
      cases there : x'.executor.records.find? id <;> simp [here, there] at same ⊢
  constructor
  · intro id
    rw [known, size]
    exact linked.known id
  · intro id record found gpu member
    have same := records id
    rw [found, Option.map_some, eq_comm, Option.map_eq_some_iff] at same
    obtain ⟨before, isBefore, request⟩ := same
    rw [network]
    exact linked.participants id before isBefore gpu (request ▸ member)
  · exact ⟨transfers ▸ linked.loaded.transfers, locals ▸ linked.loaded.locals⟩
  · simp only [known, transfers, network, handed]
    exact linked.owned
  · simp only [transfers, network, handed]
    exact linked.answered
  · simp only [known, locals, outstanding]
    exact linked.locals
  · simp only [locals, outstanding]
    exact linked.events

/-- The identifiers of the events it waits for were handed out. -/
theorem issued (linked : x.Linked) (invariant : x.routed.Invariant) {id : EventId}
    {found : LocalPending} (isFound : x.executor.locals.find? id = some found) :
    x.network.kernel.sim.eventIds.Issued id.value := by
  obtain ⟨_, _, event, outstanding, rfl, _⟩ := linked.locals id found isFound
  have inv := invariant.drive.invariant
  cases outstanding with
  | inl live => exact inv.valid.issued event live.1
  | inr awaited => exact (inv.valid.current event (inv.current event awaited).1).1

end Linked

end Exchange

/-! ## Working on a collective -/

/-- In the middle of a call about one collective: what the executor has done since the call began
was about that collective. -/
structure Busy (x₀ x : Exchange) (id : CollectiveId) (record : Record) : Prop where
  routed : x.routed.Invariant
  reached : Relation.ReflTransGen Routed.Step x₀.routed x.routed
  linked : x.Linked
  found : x.executor.records.find? id = some record
  about : About id x₀.executor x.executor

namespace Busy

variable {x₀ x : Exchange} {r : Ring} {id : CollectiveId} {record : Record}

theorem probed (busy : Busy x₀ (x.after r) id record) (probe : Instrumentation) :
    Busy x₀ (x.after (r.probed probe)) id record where
  routed := busy.routed.step (.drove (.observed probe))
  reached := busy.reached.tail (.drove (.observed probe))
  linked := by
    refine busy.linked.apart ⟨?_, ?_, ?_, ?_⟩ rfl rfl
    · exact fun _ worker found => ⟨worker, found⟩
    · exact fun _ _ submitted => ⟨submitted.sealed⟩
    · exact fun _ record found => ⟨record, found⟩
    · exact fun _ _ _ => Iff.rfl
  found := busy.found
  about := busy.about

theorem wrote (busy : Busy x₀ (x.after r) id record) {f : Record → Record}
    (request : (f record).request = record.request) :
    Busy x₀ (x.after (r.wrote id f)) id (f record) where
  routed := busy.routed
  reached := busy.reached
  linked := busy.linked.wrote rfl rfl rfl rfl rfl (OrderedMap.size_adjust _ _ _) fun other => by
    by_cases same : other = id
    · subst same
      have here : r.executor.records.find? other = some record := busy.found
      simp [Exchange.executor, Exchange.after, Ring.wrote, here, request]
    · simp [Exchange.executor, Exchange.after, Ring.wrote, same]
  found := Ring.find?_wrote busy.found f
  about := busy.about.trans (.adjust f)

theorem traced (busy : Busy x₀ (x.after r) id record) (entry : CollectiveTimeline)
    (same : entry.id = id) : Busy x₀ (x.after (r.traced entry)) id record where
  routed := busy.routed
  reached := busy.reached
  linked := busy.linked.wrote rfl rfl rfl rfl rfl rfl fun _ => rfl
  found := busy.found
  about := busy.about.trans (.traced same)

theorem ending (busy : Busy x₀ (x.after r) id record) (same : record.result.id = id)
    (now : SimTimeNs) :
    Busy x₀ (x.after { r with executor := r.executor.ending id now record }) id
      (record.ended now) where
  routed := busy.routed
  reached := busy.reached
  linked := busy.linked.wrote rfl rfl rfl rfl rfl (OrderedMap.size_adjust _ _ _) fun other => by
    by_cases here : other = id
    · subst here
      have found : r.executor.records.find? other = some record := busy.found
      simp [Exchange.executor, Exchange.after, RingExecutor.ending, found, Record.ended]
    · simp [Exchange.executor, Exchange.after, RingExecutor.ending, here]
  found := by
    have found : r.executor.records.find? id = some record := busy.found
    simp [Exchange.executor, Exchange.after, RingExecutor.ending, found]
  about := busy.about.trans (.ending same now)

theorem flow (busy : Busy x₀ (x.after r) id record) (nextFlow : Nat) :
    Busy x₀ (x.after { r with executor := { r.executor with nextFlow } }) id record where
  routed := busy.routed
  reached := busy.reached
  linked := busy.linked.wrote rfl rfl rfl rfl rfl rfl fun _ => rfl
  found := busy.found
  about := busy.about.trans (.flow nextFlow)

/-- The completion of a local transfer is scheduled and entered. -/
theorem scheduled (busy : Busy x₀ (x.after r) id record) {arrival : SimTimeNs} {bytes : Nat}
    {completion : LocalCompletionEvent} (nonzero : bytes ≠ 0)
    (isCollective : completion.collective = id) {event : EventId} {k : Kernel}
    (ok : Kernel.schedule ⟨arrival, .control, .localCompletion completion⟩
      r.fabric.network.kernel = .ok event k) :
    r.executor.locals.find? event = none ∧
      Busy x₀ (x.after { Ring.kernelLens.set k r with executor := { r.executor with
        locals := r.executor.locals.insert event ⟨⟨id, bytes⟩, completion⟩ } }) id record := by
  have inv := busy.routed.drive.invariant
  have called : (Transport.Call.schedule ⟨arrival, .control, .localCompletion completion⟩).run
      r.fabric.network = .ok () { r.fabric.network with kernel := k } := by
    simp only [Transport.Call.run, bind, EStateM.bind,
      zoom_of_ok (l := Transport.Network.kernelLens) ok]
    rfl
  have step : Routed.Step (x.after r).routed _ := .drove (.returned
    (.schedule ⟨arrival, .control, .localCompletion completion⟩) rfl called)
  -- the new event has the next identifier, and is the only new one
  have spec : wp (Kernel.schedule ⟨arrival, .control, .localCompletion completion⟩)
      (fun event k => r.fabric.network.kernel.sim.eventIds.exhausted = false ∧
        event = ⟨r.fabric.network.kernel.sim.eventIds.nextValue⟩ ∧
        k.sim = r.fabric.network.kernel.sim.scheduled
          ⟨arrival, .control, .localCompletion completion⟩) (fun _ _ => True)
      r.fabric.network.kernel :=
    Kernel.wp_schedule_full inv.valid (fun _ => trivial) (fun _ _ => trivial)
      (fun _ _ _ => trivial) (fun _ _ remaining _ _ => ⟨remaining, rfl, rfl⟩)
      (fun _ _ _ _ => trivial)
  obtain ⟨remaining, rfl, isScheduled⟩ := wp_of_ok spec ok
  have outstanding : Transport.outstanding k.sim x.awaiting = insert
      (r.fabric.network.kernel.sim.eventFor ⟨arrival, .control, .localCompletion completion⟩)
      (Transport.outstanding r.fabric.network.kernel.sim x.awaiting) := by
    rw [isScheduled]
    exact Transport.outstanding_scheduled inv.valid remaining _
  have unissued := Simulation.not_issued_next remaining
  have fresh : r.executor.locals.find? ⟨r.fabric.network.kernel.sim.eventIds.nextValue⟩ = none := by
    cases isFound : r.executor.locals.find?
        ⟨r.fabric.network.kernel.sim.eventIds.nextValue⟩ with
    | none => rfl
    | some found => exact absurd (busy.linked.issued busy.routed isFound) unissued
  refine ⟨fresh, busy.routed.step step, busy.reached.tail step, ?_, busy.found,
    busy.about.trans (.sentLocally fresh rfl)⟩
  have linked := busy.linked
  refine ⟨linked.known, linked.participants, ⟨linked.loaded.transfers, ?_⟩, ?_, linked.answered,
    ?_, ?_⟩
  · intro other found isFound
    rcases OrderedMap.find?_insert_cases isFound with ⟨_, rfl⟩ | ⟨_, before⟩
    · exact nonzero
    · exact linked.loaded.locals other found before
  · intro transfer p isFound
    obtain ⟨known, submitted, unhanded⟩ := linked.owned transfer p isFound
    exact ⟨known, ⟨submitted.sealed⟩, unhanded⟩
  · intro other found isFound
    show _ ∧ _ ∧ ∃ event ∈ Transport.outstanding k.sim x.awaiting, _
    rw [outstanding]
    rcases OrderedMap.find?_insert_cases isFound with ⟨rfl, rfl⟩ | ⟨_, before⟩
    · exact ⟨⟨record, busy.found⟩, isCollective, _, Set.mem_insert _ _, rfl, rfl⟩
    · obtain ⟨known, same, event, isOutstanding, isId, payload⟩ := linked.locals other found before
      exact ⟨known, same, event, Set.mem_insert_of_mem _ isOutstanding, isId, payload⟩
  · intro event isOutstanding other payload
    have either : event ∈ Transport.outstanding k.sim x.awaiting := isOutstanding
    rw [outstanding, Set.mem_insert_iff] at either
    rcases either with rfl | before
    · cases payload
      exact ⟨_, OrderedMap.find?_insert_self _ _ _, rfl⟩
    · obtain ⟨found, isFound, same⟩ := linked.events event before other payload
      have apart : event.id ≠ ⟨r.fabric.network.kernel.sim.eventIds.nextValue⟩ := by
        intro isNext
        have isFound' : r.executor.locals.find? event.id = some found := isFound
        rw [isNext, fresh] at isFound'
        cases isFound'
      exact ⟨found, (OrderedMap.find?_insert_of_ne _ _ apart).trans isFound, same⟩

/-- The router has found no route: all it leaves is a decision. -/
theorem unrouted (busy : Busy x₀ (x.after r) id record) {request : RouteRequest} {f : Fabric}
    (ok : Fabric.submit request r.fabric = .ok none f) :
    Busy x₀ (x.after { r with fabric := f }) id record := by
  have step := Routed.Step.submitted (r := (x.after r).routed) request ok
  have submits := Fabric.submits r.fabric request
  rw [ok] at submits
  cases submits with
  | missed ids probe looked =>
    refine ⟨busy.routed.step step, busy.reached.tail step, busy.linked.apart ⟨?_, ?_, ?_, ?_⟩ rfl rfl, busy.found, busy.about⟩
    · exact fun _ worker found => ⟨worker, found⟩
    · exact fun _ _ submitted => ⟨submitted.sealed⟩
    · exact fun _ record found => ⟨record, found⟩
    · exact fun _ _ _ => Iff.rfl

/-- A transfer is under way and entered. -/
theorem sent (busy : Busy x₀ (x.after r) id record) {request : RouteRequest} {f : Fabric}
    {submitted : Transport.SubmittedTransfer} (fits : request.bytes ≤ maxU64)
    (nonzero : request.bytes ≠ 0)
    (ok : Fabric.submit request r.fabric = .ok (some submitted) f) :
    r.executor.transfers.find? submitted.id = none ∧
      Busy x₀ (x.after { fabric := f, executor := { r.executor with
        transfers := r.executor.transfers.insert submitted.id ⟨id, request.bytes⟩ } }) id
        record := by
  have step := Routed.Step.submitted (r := (x.after r).routed) request ok
  have inv := busy.routed.drive.invariant
  have linked := busy.linked
  have submits := Fabric.submits r.fabric request
  rw [ok] at submits
  cases submits with
  | @sent _ paths path _ n score reason ids probe looked member accepted =>
    have isAccepted := Transport.accepted_of_ok busy.routed.drive
      (show (Fabric.transferOf request path).bytes ≤ maxU64 from fits) accepted
    have spec : wp (Transport.Network.submitTransfer (Fabric.transferOf request path))
        (fun submitted n => Transport.Network.Called x.awaiting (x.handed ++ x.handing)
            r.fabric.network n ∧ Transport.Network.Submitted n submitted.id request.bytes)
        (fun _ _ => True) r.fabric.network :=
      Transport.Network.wp_submitTransfer inv (fun _ _ called _ isSubmitted => ⟨called, isSubmitted⟩)
        (fun _ _ _ => trivial)
    obtain ⟨called, isSubmitted⟩ := wp_of_ok spec accepted
    -- the transfer is new to the transport, hence to the executor and to what was handed over
    have fresh : r.executor.transfers.find? submitted.id = none := by
      cases isFound : r.executor.transfers.find? submitted.id with
      | none => rfl
      | some p =>
        obtain ⟨transfer, before, _⟩ := (linked.owned submitted.id p isFound).2.1.sealed
        exact absurd (isAccepted.newTransfer.symm.trans before) (by simp)
    have unhanded : ∀ completion ∈ x.handed, completion.transfer ≠ submitted.id := by
      intro completion wasHanded same
      obtain ⟨transfer, before, _⟩ := inv.accounts.genuine completion
        (List.mem_append_left _ (List.mem_append_left _ wasHanded))
      rw [same] at before
      exact absurd (isAccepted.newTransfer.symm.trans before) (by simp)
    have events : ∀ event completion, event.payload = .localCompletion completion →
        (event ∈ Transport.outstanding n.kernel.sim x.awaiting ↔
          event ∈ Transport.outstanding r.fabric.network.kernel.sim x.awaiting) := by
      intro event completion payload
      simp only [Transport.outstanding, Set.mem_ofPred_eq, isAccepted.live]
      constructor
      · rintro ((live | ⟨ordinal, chunk, _, rfl⟩) | awaited)
        · exact .inl live
        · cases payload
        · exact .inr awaited
      · rintro (live | awaited)
        · exact .inl (.inl live)
        · exact .inr awaited
    refine ⟨fresh, busy.routed.step step, busy.reached.tail step, ?_, busy.found,
      busy.about.trans (.sentFabric fresh rfl)⟩
    constructor
    · exact linked.known
    · intro other record' found gpu isMember
      show ∃ worker, n.graph.findGpu gpu = some worker
      rw [isAccepted.graph]
      exact linked.participants other record' found gpu isMember
    · refine ⟨?_, linked.loaded.locals⟩
      intro transfer p isFound
      rcases OrderedMap.find?_insert_cases isFound with ⟨_, rfl⟩ | ⟨_, before⟩
      · exact nonzero
      · exact linked.loaded.transfers transfer p before
    · intro transfer p isFound
      rcases OrderedMap.find?_insert_cases isFound with ⟨rfl, rfl⟩ | ⟨_, before⟩
      · exact ⟨⟨record, busy.found⟩, ⟨isSubmitted.sealed⟩, unhanded⟩
      · obtain ⟨known, earlier, apart⟩ := linked.owned transfer p before
        exact ⟨known, ⟨(earlier.advance inv called.advances).sealed⟩, apart⟩
    · intro transfer found isFound
      by_cases same : transfer = submitted.id
      · subst same
        exact .inl ⟨_, OrderedMap.find?_insert_self _ _ _⟩
      · have before : r.fabric.network.transport.transfers.find? transfer = some found :=
          (isAccepted.otherTransfers transfer same).symm.trans isFound
        rcases linked.answered transfer found before with ⟨p, isOwned⟩ | answered
        · exact .inl ⟨p, (OrderedMap.find?_insert_of_ne _ _ same).trans isOwned⟩
        · exact .inr answered
    · intro other found isFound
      obtain ⟨known, same, event, isOutstanding, isId, payload⟩ := linked.locals other found isFound
      exact ⟨known, same, event, (events event _ payload).mpr isOutstanding, isId, payload⟩
    · intro event isOutstanding completion payload
      exact linked.events event ((events event _ payload).mp isOutstanding) completion payload

end Busy

/-- What a call throws: it was the executor's to throw, or the simulation or the router has thrown it
in some state of the call. -/
inductive Thrown (x₀ : Exchange) : Error → Ring → Prop where
  | own {e : Error} {r : Ring} : Permitted e → Thrown x₀ e r
  | scheduling {x : Exchange} {specification : EventSpec} {k : Kernel} {e : Error} :
      Relation.ReflTransGen Routed.Step x₀.routed x.routed →
      Kernel.schedule specification x.network.kernel = .error e k →
      Thrown x₀ e (Ring.kernelLens.set k x.ring)
  | routing {x : Exchange} {request : RouteRequest} {f : Fabric} {e : Error} :
      Relation.ReflTransGen Routed.Step x₀.routed x.routed →
      Fabric.submit request x.ring.fabric = .error e f →
      Thrown x₀ e { x.ring with fabric := f }

end NexusLab.Collective
