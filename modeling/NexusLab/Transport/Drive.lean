import NexusLab.Transport.Submission

/-! # A simulation that drives the runtime

`Drive` is a runtime, the simulation that drives it and what has been taken from it.  Its steps are
the calls anyone may make, the stages of a dispatch and the end of a run, in any order the kernel
allows.  `Reachable` collects the states they lead to, and the joint invariant holds in all of
them. -/

namespace NexusLab.Transport

open Foundation Sim NexusLab.Topology

/-! ## Steps -/

/-- The calls that are made from outside the runtime's handlers. -/
inductive Call where
  | registerChunk (routed : RoutedChunk)
  | submitTransfer (request : TransferRequest)
  | scheduleInitialArrival (chunk : ChunkId)
  | scheduleLinkStateChange (link : LinkId) (state : OperationalState) (timestamp : SimTimeNs)
  | schedulePortStateChange (port : PortId) (state : OperationalState) (timestamp : SimTimeNs)
  | scheduleSwitchStateChange (networkSwitch : SwitchId) (state : OperationalState)
      (timestamp : SimTimeNs)
  | schedule (specification : EventSpec)
  | cancel (id : EventId)
  | stop (reason : StopReason)

namespace Call

def run : Call → Action Network Unit
  | .registerChunk routed => Network.registerChunk routed
  | .submitTransfer request => do let _ ← Network.submitTransfer request
  | .scheduleInitialArrival chunk => do let _ ← Network.scheduleInitialArrival chunk
  | .scheduleLinkStateChange link state timestamp => do
    let _ ← Network.scheduleLinkStateChange link state timestamp
  | .schedulePortStateChange port state timestamp => do
    let _ ← Network.schedulePortStateChange port state timestamp
  | .scheduleSwitchStateChange networkSwitch state timestamp => do
    let _ ← Network.scheduleSwitchStateChange networkSwitch state timestamp
  | .schedule specification => do let _ ← zoom Network.kernelLens (Kernel.schedule specification)
  | .cancel id => do let _ ← zoom Network.kernelLens (Kernel.cancel id)
  | .stop reason => zoom Network.kernelLens (Kernel.stop reason)

/-- Nobody else schedules the runtime's kinds of events, or cancels the runtime's events. -/
def Allowed (sim : Simulation) : Call → Prop
  | .schedule specification => ownPayload specification.payload = false
  | .cancel id => ∀ event, sim.Live event → event.id = id → ownPayload event.payload = false
  | _ => True

end Call

/-- The runtime's part in the dispatch of an event. -/
def Network.dispatch : EventPayload → Action Network Unit
  | .chunkArrival event => Network.handleArrival event
  | .transmissionComplete event => Network.handleCompletion event
  | .linkStateChange event => Network.handleLinkStateChange event
  | .portStateChange event => Network.handlePortStateChange event
  | .switchStateChange event => Network.handleSwitchStateChange event
  | _ => pure ()

/-- `awaiting` is the event that was taken off the queue and is still to be handled; `taken` lists
the completions handed out so far. -/
structure Drive where
  network : Network
  awaiting : Option Event := none
  taken : List TransferCompletion := []

/-- There is a context to submit a transfer with.  The source makes one for each event that it
dispatches and keeps none of them, so that no context outlives the run. -/
def Drive.HasContext (d : Drive) : Prop := d.network.kernel.sim.lifecycle ≠ .finished

/-- One step.  A call or a handler may also throw, as long as the environment is not to blame for
it: the run then goes on, or ends, from the state the throw left. -/
inductive Step : Drive → Drive → Prop where
  | returned {d : Drive} {n : Network} (call : Call) :
      call.Allowed d.network.kernel.sim → call.run d.network = .ok () n →
      Step d { d with network := n }
  | threw {d : Drive} {n : Network} {e : Error} (call : Call) :
      call.Allowed d.network.kernel.sim → call.run d.network = .error e n →
      e.origin ≠ .telemetry → Step d { d with network := n }
  | took {d : Drive} {n : Network} {completions : List TransferCompletion} :
      Network.takeCompletedTransfers d.network = .ok completions n →
      Step d { d with network := n, taken := d.taken ++ completions }
  | observed {d : Drive} (probe : Instrumentation) :
      Step d { d with network := d.network.probed probe }
  | began {d : Drive} {n : Network} :
      zoom Network.kernelLens Kernel.beginRun d.network = .ok () n →
      Step d { d with network := n }
  | started {d : Drive} {n : Network} {event : Event} :
      d.awaiting = none → d.network.kernel.sim.lifecycle = .running →
      zoom Network.kernelLens Kernel.startNext d.network = .ok (some event) n →
      Step d { d with network := n, awaiting := some event }
  | drained {d : Drive} {n : Network} :
      d.awaiting = none → zoom Network.kernelLens Kernel.startNext d.network = .ok none n →
      Step d { d with network := n }
  | handled {d : Drive} {n : Network} {event : Event} :
      d.awaiting = some event → Network.dispatch event.payload d.network = .ok () n →
      Step d { d with network := n, awaiting := none }
  | failed {d : Drive} {n : Network} {event : Event} {e : Error} :
      d.awaiting = some event → Network.dispatch event.payload d.network = .error e n →
      ¬ Kernel.Excused e → Step d { d with network := n, awaiting := none }
  | ended {d : Drive} {n : Network} :
      d.awaiting = none → zoom Network.kernelLens Kernel.endDispatch d.network = .ok () n →
      Step d { d with network := n }
  | finished {d : Drive} {n : Network} {result : SimulationResult} (status : SimulationStatus)
      (error : Option String) :
      d.awaiting = none →
      zoom Network.kernelLens (Kernel.finish status error) d.network = .ok result n →
      Step d { d with network := n }

/-- A new runtime over a graph, and a new simulation. -/
structure Initial (d : Drive) : Prop where
  fresh : ∃ rng, d.network.kernel.sim = { rng }
  created : ∃ configurations limits,
    TransportRuntime.create d.network.graph configurations limits = .ok d.network.transport
  idle : d.awaiting = none
  nothing : d.taken = []

def Reachable (d : Drive) : Prop :=
  ∃ start, Initial start ∧ Relation.ReflTransGen Step start d

/-! ## The first state -/

/-- A service with nothing to do. -/
def Unused (graph : TopologyGraph) (services : OrderedMap DirectedLinkId DirectedLinkService) :
    Prop :=
  ∀ link service, services.find? link = some service →
    service.queue.configuration.link = link ∧ service.queue.active = none ∧
    service.queue.waiting = [] ∧ service.scheduledCompletion = none ∧ service.busySince = none ∧
    (∃ arc, requireFabricArc graph link = .ok arc) ∧ service.queue.waitingBytes = 0

theorem unused_configure {graph : TopologyGraph}
    {services after : OrderedMap DirectedLinkId DirectedLinkService}
    {configuration : DirectedLinkConfiguration} (unused : Unused graph services)
    (ok : TransportRuntime.configure graph services configuration = .ok after) :
    Unused graph after := by
  unfold TransportRuntime.configure at ok
  cases isArc : requireFabricArc graph configuration.link with
  | error e =>
    rw [isArc] at ok
    cases ok
  | ok arc =>
    rw [isArc] at ok
    simp only [bind, Except.bind] at ok
    split at ok
    · cases ok
    · unfold DirectedLinkService.create DirectedLinkQueue.create at ok
      cases isValid : validateConfiguration configuration with
      | error e =>
        rw [isValid] at ok
        cases ok
      | ok _ =>
        rw [isValid] at ok
        cases ok
        intro link service found
        by_cases same : link = configuration.link
        · subst same
          rw [OrderedMap.find?_insert_self] at found
          cases found
          exact ⟨rfl, rfl, rfl, rfl, rfl, ⟨arc, isArc⟩, rfl⟩
        · rw [OrderedMap.find?_insert_of_ne _ _ same] at found
          exact unused link service found

theorem unused_foldlM {graph : TopologyGraph} (configurations : List DirectedLinkConfiguration)
    {services after : OrderedMap DirectedLinkId DirectedLinkService}
    (unused : Unused graph services)
    (ok : configurations.foldlM (TransportRuntime.configure graph) services = .ok after) :
    Unused graph after := by
  induction configurations generalizing services with
  | nil =>
    cases ok
    exact unused
  | cons configuration configurations ih =>
    rw [List.foldlM_cons] at ok
    cases next : TransportRuntime.configure graph services configuration with
    | error e =>
      rw [next] at ok
      cases ok
    | ok services' =>
      rw [next] at ok
      exact ih (unused_configure unused next) ok

/-- What a new runtime looks like. -/
theorem create_ok {graph : TopologyGraph} {configurations : List DirectedLinkConfiguration}
    {limits : TransportLimits} {t : TransportRuntime}
    (ok : TransportRuntime.create graph configurations limits = .ok t) :
    t = { limits, services := t.services } ∧ Unused graph t.services := by
  unfold TransportRuntime.create at ok
  split at ok
  · cases ok
  · cases configured : configurations.foldlM (TransportRuntime.configure graph) .empty with
    | error e =>
      rw [configured] at ok
      cases ok
    | ok services =>
      rw [configured] at ok
      cases ok
      refine ⟨rfl, unused_foldlM configurations ?_ configured⟩
      intro link service found
      simp at found

theorem Unused.heldBy_eq {graph : TopologyGraph}
    {services : OrderedMap DirectedLinkId DirectedLinkService} (unused : Unused graph services)
    (link : DirectedLinkId) : heldBy services link = [] := by
  unfold heldBy
  cases found : services.find? link with
  | none => rfl
  | some service =>
    obtain ⟨_, active, waiting, _⟩ := unused link service found
    simp [DirectedLinkQueue.held, active, waiting]

/-- The invariant holds before anything has happened. -/
theorem invariant_fresh (rng : DeterministicRng) (probe : Instrumentation) {graph : TopologyGraph}
    {services : OrderedMap DirectedLinkId DirectedLinkService} (unused : Unused graph services)
    (limits : TransportLimits) :
    Invariant none [] ⟨⟨{ rng }, probe⟩, graph, { limits, services }⟩ := by
  have no_events : outstanding ({ rng } : Simulation) none = ∅ := by
    ext event
    simp [outstanding, Simulation.Live, EventQueue.empty]
  have nothing : ∀ about, concerning about (∅ : Set Event) = ∅ := by
    intro about
    ext event
    simp [concerning]
  constructor
  · constructor <;> simp [EventQueue.empty]
  · simp
  · constructor
    · intro chunk
      refine .unknown ?_ ?_
      · rw [no_events]
        exact nothing _
      · ext place
        simp [holders, unused.heldBy_eq]
    · intro link
      simp [unused.heldBy_eq]
  · intro link
    rw [no_events, transmissions, nothing]
    cases found : services.find? link with
    | none => exact .unconfigured rfl
    | some service =>
      obtain ⟨configured, active, waiting, completion, busy, _⟩ := unused link service found
      exact .idle configured active waiting completion busy rfl
  · intro chunk record found
    simp at found
  · intro link service found
    exact (unused link service found).2.2.2.2.2.1
  · constructor <;> simp
  · intro chunk record found
    simp at found
  · rfl

theorem Initial.invariant {d : Drive} (initial : Initial d) :
    Invariant d.awaiting d.taken d.network := by
  obtain ⟨rng, fresh⟩ := initial.fresh
  obtain ⟨configurations, limits, created⟩ := initial.created
  obtain ⟨isNew, unused⟩ := create_ok created
  obtain ⟨⟨⟨sim, probe⟩, graph, transport⟩, awaiting, taken⟩ := d
  cases fresh
  cases initial.idle
  cases initial.nothing
  have start := invariant_fresh rng probe unused limits
  rwa [← isNew] at start

/-! ## What others do to the simulation -/

section Others

variable {n : Network} {awaiting awaiting' : Option Event} {taken : List TransferCompletion}

/-- The kernel may change in everything that is not about chunks and links, and time may pass. -/
theorem Invariant.resimulated (inv : Invariant awaiting taken n) {kernel : Kernel}
    (valid : kernel.sim.Valid)
    (current : ∀ event, awaiting' = some event →
      kernel.sim.currentEvent = some event ∧ kernel.sim.lifecycle ≠ .finished)
    (same : ∀ about, (∀ payload, about payload → ownPayload payload = true) →
      concerning about (outstanding kernel.sim awaiting') =
        concerning about (outstanding n.kernel.sim awaiting))
    (later : n.kernel.sim.now ≤ kernel.sim.now) : Invariant awaiting' taken { n with kernel } where
  valid := valid
  current := current
  placement := by
    refine inv.placement.of_arrivals_eq fun chunk => same _ ?_
    intro payload h
    obtain ⟨hopIndex, rfl⟩ := h
    rfl
  running := by
    refine (inv.running.of_transmissions_eq fun link => same _ ?_).later later
    intro payload h
    obtain ⟨chunk, hopIndex, rfl⟩ := h
    rfl
  routed := inv.routed
  arcs := inv.arcs
  accounts := inv.accounts
  issued := inv.issued
  faultless := inv.faultless

theorem Invariant.scheduled_foreign (inv : Invariant awaiting taken n)
    (remaining : n.kernel.sim.eventIds.exhausted = false) {specification : EventSpec}
    (future : n.kernel.sim.now ≤ specification.timestamp)
    (foreign : ownPayload specification.payload = false) (probe : Instrumentation) :
    Invariant awaiting taken
      { n with kernel := ⟨n.kernel.sim.scheduled specification, probe⟩ } := by
  refine inv.resimulated (inv.valid.scheduled remaining future) inv.current ?_ (le_refl _)
  intro about own
  rw [outstanding_scheduled inv.valid remaining]
  apply concerning_insert_of_not
  intro h
  have isOwn : ownPayload specification.payload = true := own _ h
  simp [isOwn] at foreign

theorem Invariant.cancelled_foreign (inv : Invariant awaiting taken n) {id : EventId}
    (pending : id ∈ n.kernel.sim.pendingIds)
    (foreign : ∀ event, n.kernel.sim.Live event → event.id = id →
      ownPayload event.payload = false) (probe : Instrumentation) :
    Invariant awaiting taken { n with kernel := ⟨n.kernel.sim.cancelled id, probe⟩ } := by
  refine inv.resimulated (inv.valid.cancelled pending) inv.current ?_ (le_refl _)
  intro about own
  ext event
  simp only [concerning, outstanding, Set.mem_ofPred_eq, Simulation.live_cancelled]
  constructor
  · intro h
    refine ⟨?_, h.2⟩
    cases h.1 with
    | inl live => exact .inl live.1
    | inr same => exact .inr same
  · intro h
    refine ⟨?_, h.2⟩
    cases h.1 with
    | inl live =>
      refine .inl ⟨live, fun same => ?_⟩
      have none_own := foreign event live same
      simp [own _ h.2] at none_own
    | inr same => exact .inr same

/-- Only the clockwork of the simulation has moved on. -/
theorem Invariant.relabelled (inv : Invariant awaiting taken n) {kernel : Kernel}
    (valid : kernel.sim.Valid)
    (current : ∀ event, awaiting = some event →
      kernel.sim.currentEvent = some event ∧ kernel.sim.lifecycle ≠ .finished)
    (live : ∀ event, kernel.sim.Live event ↔ n.kernel.sim.Live event)
    (now : kernel.sim.now = n.kernel.sim.now) : Invariant awaiting taken { n with kernel } := by
  refine inv.resimulated valid current ?_ (le_of_eq now.symm)
  intro about _
  have same : outstanding kernel.sim awaiting = outstanding n.kernel.sim awaiting := by
    ext event
    simp only [outstanding, Set.mem_ofPred_eq, live]
  rw [same]

end Others

/-! ## Calls -/

/-- What every step keeps. -/
structure Follows (awaiting : Option Event) (taken : List TransferCompletion) (n n' : Network) :
    Prop where
  inv : Invariant awaiting taken n'
  chunks : Grows ChunkRecord.Becomes n.transport.chunks n'.transport.chunks

theorem Network.Kept.follows {n n' : Network} {awaiting : Option Event}
    {taken : List TransferCompletion} (kept : Network.Kept awaiting taken n n') :
    Follows awaiting taken n n' := ⟨kept.inv, kept.advances.chunks⟩

theorem Follows.of_invariant {n : Network} {awaiting : Option Event}
    {taken : List TransferCompletion} {kernel : Kernel}
    (inv : Invariant awaiting taken { n with kernel }) :
    Follows awaiting taken n { n with kernel } := ⟨inv, .refl .refl _⟩

section Calls

variable {n : Network} {awaiting : Option Event} {taken : List TransferCompletion}

/-- What every call keeps, whether it returns or throws. -/
structure Answers (awaiting : Option Event) (taken : List TransferCompletion) (n n' : Network) :
    Prop extends Follows awaiting taken n n' where
  quiet : Network.Quiet n n'

theorem Network.Called.answers {n' : Network} (called : Network.Called awaiting taken n n') :
    Answers awaiting taken n n' := ⟨called.follows, called.quiet⟩

theorem Answers.refl (inv : Invariant awaiting taken n) : Answers awaiting taken n n :=
  ⟨.of_invariant inv, .refl n⟩

theorem wp_schedule_foreign (inv : Invariant awaiting taken n) {specification : EventSpec}
    (foreign : ownPayload specification.payload = false) :
    wp (zoom Network.kernelLens (Kernel.schedule specification))
      (fun _ n' => Answers awaiting taken n n')
      (fun e n' => e.origin = .telemetry ∨ Answers awaiting taken n n') n := by
  rw [wp_zoom]
  apply Kernel.wp_schedule_full inv.valid
  · intro _
    exact .inr (.refl inv)
  · intro _ _
    exact .inr (.refl inv)
  · intro _ _ _
    exact .inr (.refl inv)
  · intro _ future remaining probe _
    refine ⟨.of_invariant (inv.scheduled_foreign remaining future foreign probe), ?_⟩
    refine .of_kernel rfl (fun event own => ?_) (fun _ => Simulation.issued_advanced)
    rw [inv.valid.live_scheduled remaining]
    constructor
    · intro h
      cases h with
      | inl added =>
        subst added
        have isOwn : ownPayload specification.payload = true := own
        simp [foreign] at isOwn
      | inr live => exact live
    · intro live
      exact .inr live
  · intro e _ origin _
    exact .inl origin

theorem wp_cancel_foreign (inv : Invariant awaiting taken n) {id : EventId}
    (foreign : ∀ event, n.kernel.sim.Live event → event.id = id →
      ownPayload event.payload = false) :
    wp (zoom Network.kernelLens (Kernel.cancel id)) (fun _ n' => Answers awaiting taken n n')
      (fun e n' => e.origin = .telemetry ∨ Answers awaiting taken n n') n := by
  rw [wp_zoom]
  apply Kernel.wp_cancel_full
  · intro _ probe _
    exact ⟨.of_invariant (inv.relabelled inv.valid inv.current (fun _ => Iff.rfl) rfl),
      .of_kernel rfl (fun _ _ => Iff.rfl) (fun _ h => h)⟩
  · intro _ pending _ probe _
    refine ⟨.of_invariant (inv.cancelled_foreign pending foreign probe), ?_⟩
    refine .of_kernel rfl (fun event own => ?_) (fun _ h => h)
    rw [Simulation.live_cancelled]
    constructor
    · intro h
      exact h.1
    · intro live
      refine ⟨live, fun same => ?_⟩
      have none_own := foreign event live same
      simp [own] at none_own
  · intro e _ origin _
    exact .inl origin

theorem wp_stop (inv : Invariant awaiting taken n) {reason : StopReason} :
    wp (zoom Network.kernelLens (Kernel.stop reason)) (fun _ n' => Answers awaiting taken n n')
      (fun e n' => e.origin = .telemetry ∨ Answers awaiting taken n n') n := by
  have unchanged : Answers awaiting taken n n := .refl inv
  rw [wp_zoom]
  simp only [Kernel.stop, wp_bind, wp_get, wp_throwIf, wp_getOrThrow, wp_runIf]
  refine ⟨fun _ => .inr unchanged, fun _ => ⟨fun event _ => ⟨fun _ => ?_, fun _ => unchanged⟩,
    fun _ => .inr unchanged⟩⟩
  refine Kernel.wp_instrument (fun probe _ => ?_) (fun e _ origin _ => .inl origin)
  rw [Kernel.wp_modifySim]
  refine Kernel.wp_observe (fun probe _ => ?_) (fun e _ origin _ => .inl origin)
  refine ⟨.of_invariant (inv.relabelled ?_ inv.current (fun _ => Iff.rfl) rfl),
    .of_kernel rfl (fun _ _ => Iff.rfl) (fun _ h => h)⟩
  exact ⟨inv.valid.pending, inv.valid.unique, inv.valid.cancelled_subset, inv.valid.future,
    inv.valid.issued, inv.valid.current⟩

/-- Every call keeps the invariant, whether it returns or throws. -/
theorem wp_call (inv : Invariant awaiting taken n) (call : Call)
    (allowed : call.Allowed n.kernel.sim) :
    wp call.run (fun _ n' => Answers awaiting taken n n')
      (fun e n' => e.origin = .telemetry ∨ Answers awaiting taken n n') n := by
  have unchanged : Answers awaiting taken n n := .refl inv
  have survives : Network.Survives awaiting taken n
      (fun e n' => e.origin = .telemetry ∨ Answers awaiting taken n n') := by
    intro e n' h
    cases h with
    | inl origin => exact .inl origin
    | inr called => exact .inr called.answers
  cases call with
  | registerChunk routed =>
    exact Network.wp_registerChunk inv (fun _ _ _ _ called => called.answers) survives
  | submitTransfer request =>
    simp only [Call.run, wp_bind, wp_pure]
    exact Network.wp_submitTransfer inv (fun _ _ called _ _ => called.answers) survives
  | scheduleInitialArrival chunk =>
    simp only [Call.run, wp_bind, wp_pure]
    exact Network.wp_scheduleInitialArrival inv (fun _ _ h => h.1.answers) survives
  | scheduleLinkStateChange link state timestamp =>
    simp only [Call.run, Network.scheduleLinkStateChange, wp_bind, wp_get, wp_throwIf, wp_pure]
    exact ⟨fun _ => .inr unchanged, fun _ => wp_schedule_foreign inv rfl⟩
  | schedulePortStateChange port state timestamp =>
    simp only [Call.run, Network.schedulePortStateChange, wp_bind, wp_get, wp_throwIf, wp_pure]
    exact ⟨fun _ => .inr unchanged, fun _ => wp_schedule_foreign inv rfl⟩
  | scheduleSwitchStateChange networkSwitch state timestamp =>
    simp only [Call.run, Network.scheduleSwitchStateChange, wp_bind, wp_get, wp_throwIf, wp_pure]
    exact ⟨fun _ => .inr unchanged, fun _ => wp_schedule_foreign inv rfl⟩
  | schedule specification =>
    simp only [Call.run, wp_bind, wp_pure]
    exact wp_schedule_foreign inv allowed
  | cancel id =>
    simp only [Call.run, wp_bind, wp_pure]
    exact wp_cancel_foreign inv allowed
  | stop reason => exact wp_stop inv

end Calls

/-! ## Dispatches -/

section Dispatches

variable {n : Network} {taken : List TransferCompletion} {event : Event}

/-- The dispatch of an event begins: it is the least one in the queue, and time moves on to it. -/
structure Began (event : Event) (n n' : Network) : Prop where
  started : Kernel.Started n.kernel.sim event n'.kernel.sim
  now : n'.kernel.sim.now = event.timestamp
  eventIds : n'.kernel.sim.eventIds = n.kernel.sim.eventIds
  graph : n'.graph = n.graph
  transport : n'.transport = n.transport

/-- Starting a dispatch takes the event off the queue, where it is awaited from then on. -/
theorem follows_started (inv : Invariant none taken n)
    (running : n.kernel.sim.lifecycle = .running) {n' : Network}
    (ok : zoom Network.kernelLens Kernel.startNext n = .ok (some event) n') :
    Follows (some event) taken n n' ∧ Began event n n' := by
  have step : wp (zoom Network.kernelLens Kernel.startNext)
      (fun next n' => next = some event → Follows (some event) taken n n' ∧ Began event n n')
      (fun _ _ => True) n := by
    rw [wp_zoom]
    apply Kernel.wp_startNext inv.valid
    · intro _ _ _ none_found
      cases none_found
    · intro found queue pending cancelled probe _ isStarted isFound
      cases isFound
      refine ⟨.of_invariant (inv.resimulated isStarted.valid ?_ ?_ ?_),
        isStarted, rfl, rfl, rfl, rfl⟩
      · intro other isOther
        cases isOther
        refine ⟨rfl, ?_⟩
        show n.kernel.sim.lifecycle ≠ .finished
        simp [running]
      · intro about _
        rw [outstanding_started inv.valid isStarted]
      · exact inv.valid.future event isStarted.live.1
    · intro _ _ _ _
      trivial
  exact wp_of_ok step ok rfl

/-- The queue has run dry. -/
theorem follows_drained (inv : Invariant none taken n) {n' : Network}
    (ok : zoom Network.kernelLens Kernel.startNext n = .ok none n') :
    Answers none taken n n' ∧ ∀ event, ¬ n.kernel.sim.Live event := by
  have step : wp (zoom Network.kernelLens Kernel.startNext)
      (fun next n' => next = none →
        Answers none taken n n' ∧ ∀ event, ¬ n.kernel.sim.Live event) (fun _ _ => True) n := by
    rw [wp_zoom]
    apply Kernel.wp_startNext inv.valid
    · intro probe _ none_live _
      have same : ∀ event, (Kernel.requeued n.kernel.sim .empty ∅ ∅).Live event ↔
          n.kernel.sim.Live event := by
        intro event
        constructor
        · intro live
          simp [Kernel.requeued, Simulation.Live, EventQueue.empty] at live
        · intro live
          exact absurd live (none_live event)
      refine ⟨⟨.of_invariant (inv.relabelled ?_ (by simp) same rfl),
        .of_kernel rfl (fun event _ => same event) (fun _ h => h)⟩, none_live⟩
      · refine ⟨?_, ?_, ?_, ?_, ?_, ?_⟩
        all_goals simp [Kernel.requeued, EventQueue.empty]
        exact fun event current => ⟨(inv.valid.current event current).1,
          (inv.valid.current event current).2.2⟩
    · intro _ _ _ _ _ _ _ isNone
      cases isNone
    · intro _ _ _ _
      trivial
  exact wp_of_ok step ok rfl

/-- The graph a state change leads to, and the links that give up their queues with it. -/
inductive Changes (n : Network) : EventPayload → TopologyGraph → Set DirectedLinkId → Prop where
  | link (change : LinkStateChangeEvent) :
      (n.graph.setLinkState change.link change.state).1 = true →
      Changes n (.linkStateChange change)
        (n.graph.setLinkState change.link change.state).2 (n.arcsOfDown change)
  | port (change : PortStateChangeEvent) : Changes n (.portStateChange change)
      (n.graph.setPortState change.port change.state).2
      (Network.unavailable
        { n with graph := (n.graph.setPortState change.port change.state).2 })
  | switch (change : SwitchStateChangeEvent) : Changes n (.switchStateChange change)
      (n.graph.setSwitchState change.networkSwitch change.state).2
      (Network.unavailable
        { n with graph := (n.graph.setSwitchState change.networkSwitch change.state).2 })

/-- Everything the dispatch of an event can do to the network. -/
inductive Dispatched (taken : List TransferCompletion) (event : Event) (n : Network) :
    Network → Prop where
  | passed : ownPayload event.payload = false → Dispatched taken event n n
  | arrived {n' : Network} : Network.Arrives taken n event n' → Dispatched taken event n n'
  | completed {n' : Network} : Network.Completes taken n event n' → Dispatched taken event n n'
  | changed {n' : Network} {graph : TopologyGraph} {given : Set DirectedLinkId} :
      Changes n event.payload graph given → Network.Reconciled given { n with graph } n' →
      Dispatched taken event n n'

/-- An event of the runtime is handled, or the environment is to blame; a state change may also be
refused, and then nothing has happened. -/
theorem wp_dispatch (inv : Invariant (some event) taken n) :
    wp (Network.dispatch event.payload)
      (fun _ n' => Follows none taken n n' ∧ Dispatched taken event n n')
      (fun e n' => n'.transport.terminalFault = none ∧ (Kernel.Excused e ∨
        ownPayload event.payload = false ∧ Follows none taken n n' ∧ n' = n)) n := by
  have throws : n.Tolerates (fun e n' => n'.transport.terminalFault = none ∧ (Kernel.Excused e ∨
      ownPayload event.payload = false ∧ Follows none taken n n' ∧ n' = n)) :=
    fun e n' excused fault => ⟨fault.trans inv.faultless, .inl excused⟩
  have refused : ownPayload event.payload = false →
      ∀ unknown, n.Refuses unknown (fun e n' => n'.transport.terminalFault = none ∧
        (Kernel.Excused e ∨ ownPayload event.payload = false ∧ Follows none taken n n' ∧
          n' = n)) := by
    intro foreign unknown e _
    exact ⟨inv.faultless,
      .inr ⟨foreign, .of_invariant (Network.handled_foreign inv foreign), rfl⟩⟩
  have passed : ownPayload event.payload = false →
      Follows none taken n n ∧ Dispatched taken event n n := fun foreign =>
    ⟨.of_invariant (Network.handled_foreign inv foreign), .passed foreign⟩
  cases payload : event.payload with
  | chunkArrival arrival =>
    exact Network.wp_handleArrival inv payload
      (fun _ handled arrives => ⟨handled.follows, .arrived arrives⟩) (payload ▸ throws)
  | transmissionComplete completion =>
    exact Network.wp_handleCompletion inv payload
      (fun _ handled completes => ⟨handled.follows, .completed completes⟩) (payload ▸ throws)
  | linkStateChange change =>
    exact Network.wp_handleLinkStateChange inv payload
      (fun _ handled made reconciled =>
        ⟨handled.follows, .changed (payload ▸ .link change made) reconciled⟩)
      (payload ▸ refused (by simp [payload, ownPayload]) _) (payload ▸ throws)
  | portStateChange change =>
    exact Network.wp_handlePortStateChange inv payload
      (fun _ handled reconciled =>
        ⟨handled.follows, .changed (payload ▸ .port change) reconciled⟩)
      (payload ▸ refused (by simp [payload, ownPayload]) _) (payload ▸ throws)
  | switchStateChange change =>
    exact Network.wp_handleSwitchStateChange inv payload
      (fun _ handled reconciled =>
        ⟨handled.follows, .changed (payload ▸ .switch change) reconciled⟩)
      (payload ▸ refused (by simp [payload, ownPayload]) _) (payload ▸ throws)
  | noOp token => exact passed (by simp [payload, ownPayload])
  | workload event => exact passed (by simp [payload, ownPayload])
  | localCompletion event => exact passed (by simp [payload, ownPayload])

theorem follows_ended (inv : Invariant none taken n) {n' : Network}
    (ok : zoom Network.kernelLens Kernel.endDispatch n = .ok () n') : Answers none taken n n' := by
  cases ok
  refine ⟨.of_invariant (inv.relabelled ?_ (by simp) (fun _ => Iff.rfl) rfl),
    .of_kernel rfl (fun _ _ => Iff.rfl) (fun _ h => h)⟩
  exact ⟨inv.valid.pending, inv.valid.unique, inv.valid.cancelled_subset, inv.valid.future,
    inv.valid.issued, by simp⟩

theorem follows_finished (inv : Invariant none taken n) {status : SimulationStatus}
    {error : Option String} {result : SimulationResult} {n' : Network}
    (ok : zoom Network.kernelLens (Kernel.finish status error) n = .ok result n') :
    Answers none taken n n' := by
  have step : wp (zoom Network.kernelLens (Kernel.finish status error))
      (fun _ n' => Answers none taken n n') (fun _ _ => True) n := by
    rw [wp_zoom]
    apply Kernel.wp_finish
    · intro probe _
      refine ⟨.of_invariant (inv.relabelled ?_ (by simp) (fun _ => Iff.rfl) rfl),
        .of_kernel rfl (fun _ _ => Iff.rfl) (fun _ h => h)⟩
      exact ⟨inv.valid.pending, inv.valid.unique, inv.valid.cancelled_subset, inv.valid.future,
        inv.valid.issued, by simp [Kernel.finishedSim]⟩
    · intro _ _ _ _ _
      trivial
  have follows := wp_of_ok step ok
  exact follows

theorem follows_began {awaiting : Option Event} (inv : Invariant awaiting taken n) {n' : Network}
    (ok : zoom Network.kernelLens Kernel.beginRun n = .ok () n') : Answers awaiting taken n n' := by
  have step : wp (zoom Network.kernelLens Kernel.beginRun)
      (fun _ n' => Answers awaiting taken n n') (fun _ _ => True) n := by
    simp only [wp_zoom, Kernel.beginRun, wp_bind, wp_get, wp_throwIf, Kernel.wp_modifySim]
    refine ⟨fun _ => trivial, fun _ => ?_⟩
    refine ⟨.of_invariant (inv.relabelled ?_ ?_ (fun _ => Iff.rfl) rfl),
      .of_kernel rfl (fun _ _ => Iff.rfl) (fun _ h => h)⟩
    · exact ⟨inv.valid.pending, inv.valid.unique, inv.valid.cancelled_subset, inv.valid.future,
        inv.valid.issued, inv.valid.current⟩
    · intro event isAwaited
      exact ⟨(inv.current event isAwaited).1, by simp⟩
  have follows := wp_of_ok step ok
  exact follows

end Dispatches

/-! ## Runs -/

/-- What a step amounts to. -/
inductive Effect (d d' : Drive) : Prop where
  | quiet : d'.awaiting = d.awaiting → Network.Quiet d.network d'.network → Effect d d'
  | began (event : Event) : d.awaiting = none → d'.awaiting = some event →
      Began event d.network d'.network → Effect d d'
  | dispatched (event : Event) : d.awaiting = some event → d'.awaiting = none →
      Dispatched d.taken event d.network d'.network → Effect d d'

theorem Answers.effect {d : Drive} {awaiting : Option Event} {taken : List TransferCompletion}
    {n' : Network} (answers : Answers awaiting taken d.network n') (same : awaiting = d.awaiting) :
    Follows awaiting taken d.network n' ∧ Effect d ⟨n', awaiting, taken⟩ :=
  ⟨answers.toFollows, .quiet same answers.quiet⟩

/-- Every step keeps the invariant and does one of three things. -/
theorem Step.effect {d d' : Drive} (step : Step d d')
    (inv : Invariant d.awaiting d.taken d.network) :
    Follows d'.awaiting d'.taken d.network d'.network ∧ Effect d d' := by
  cases step with
  | returned call allowed ok =>
    have answers := wp_of_ok (wp_call inv call allowed) ok
    exact Answers.effect answers rfl
  | threw call allowed thrown notTelemetry =>
    cases wp_of_error (wp_call inv call allowed) thrown with
    | inl origin => exact absurd origin notTelemetry
    | inr answers => exact Answers.effect answers rfl
  | took ok =>
    cases ok
    refine ⟨⟨⟨inv.valid, inv.current, inv.placement, inv.running, inv.routed, inv.arcs, ?_,
      inv.issued, inv.faultless⟩, .refl .refl _⟩, .quiet rfl ?_⟩
    · simpa using inv.accounts
    · exact ⟨rfl, rfl, fun _ _ found _ => found, rfl, fun _ _ live => live,
        fun _ _ live => .inl live, fun _ h => h,
        fun within => ⟨within.chunks, within.routeEntries, within.word⟩⟩
  | observed probe =>
    exact ⟨.of_invariant (inv.relabelled inv.valid inv.current (fun _ => Iff.rfl) rfl),
      .quiet rfl (.of_kernel rfl (fun _ _ => Iff.rfl) (fun _ h => h))⟩
  | began ok => exact Answers.effect (follows_began inv ok) rfl
  | started idle running ok =>
    rw [idle] at inv
    obtain ⟨follows, began⟩ := follows_started inv running ok
    exact ⟨follows, .began _ idle rfl began⟩
  | drained idle ok =>
    rw [idle] at inv
    simpa [idle] using Answers.effect (follows_drained inv ok).1 idle.symm
  | handled isAwaited ok =>
    rw [isAwaited] at inv
    obtain ⟨follows, dispatched⟩ := wp_of_ok (wp_dispatch inv) ok
    exact ⟨follows, .dispatched _ isAwaited rfl dispatched⟩
  | failed isAwaited thrown notExcused =>
    rw [isAwaited] at inv
    cases (wp_of_error (wp_dispatch inv) thrown).2 with
    | inl excused => exact absurd excused notExcused
    | inr refused =>
      obtain ⟨foreign, follows, same⟩ := refused
      subst same
      exact ⟨follows, .dispatched _ isAwaited rfl (.passed foreign)⟩
  | ended idle ok =>
    rw [idle] at inv
    simpa [idle] using Answers.effect (follows_ended inv ok) idle.symm
  | finished status error idle ok =>
    rw [idle] at inv
    simpa [idle] using Answers.effect (follows_finished inv ok) idle.symm

theorem Step.follows {d d' : Drive} (step : Step d d')
    (inv : Invariant d.awaiting d.taken d.network) :
    Follows d'.awaiting d'.taken d.network d'.network := (step.effect inv).1

/-- The joint invariant holds in every reachable state. -/
theorem Reachable.invariant {d : Drive} (reachable : Reachable d) :
    Invariant d.awaiting d.taken d.network := by
  obtain ⟨start, initial, steps⟩ := reachable
  induction steps with
  | refl => exact initial.invariant
  | tail _ step ih => exact (step.follows ih).inv

/-- What holds at first and is kept by everything a step can do holds in every reachable state. -/
theorem Reachable.induction {P : Drive → Prop} (initial : ∀ d, Initial d → P d)
    (step : ∀ d d', Reachable d → Reachable d' → Effect d d' →
      Follows d'.awaiting d'.taken d.network d'.network → P d → P d') {d : Drive}
    (reachable : Reachable d) : P d := by
  obtain ⟨start, isInitial, steps⟩ := reachable
  induction steps with
  | refl => exact initial start isInitial
  | tail before last ih =>
    have here : Reachable _ := ⟨start, isInitial, before⟩
    obtain ⟨follows, effect⟩ := last.effect here.invariant
    exact step _ _ here ⟨start, isInitial, before.tail last⟩ effect follows ih

/-! ## The stores agree -/

/-- How often a chunk occurs in a service, as the active chunk or among the waiting ones. -/
def DirectedLinkService.occurrences (service : DirectedLinkService) (chunk : ChunkId) : Nat :=
  (service.queue.active.toList ++ service.queue.waiting).countP fun copy => copy.id = chunk

/-- The events to come, the chunk records and the queues of the links tell the same story. -/
structure Consistent (events : Set Event) (t : TransportRuntime) : Prop where
  arrival : ∀ chunk record, t.chunks.find? chunk = some record →
    record.state = .awaitingArrival → ∃ event ∈ events,
      event.payload = .chunkArrival ⟨chunk, record.hopIndex⟩ ∧
      record.scheduledArrival = some event.id ∧
      ∀ other ∈ events, ArrivalOf chunk other.payload → other = event
  admission : ∀ chunk record, t.chunks.find? chunk = some record → record.state = .admitted →
    ∃ link service, record.route[record.hopIndex]? = some link ∧
      t.services.find? link = some service ∧ service.occurrences chunk = 1 ∧
      ∀ other elsewhere, t.services.find? other = some elsewhere → other ≠ link →
        elsewhere.occurrences chunk = 0
  service : ∀ link service, t.services.find? link = some service →
    ∀ chunk hopIndex, (∃ active, service.queue.active = some active ∧ active.id = chunk ∧
        active.hopIndex = hopIndex) ↔
      ∃ event ∈ events, service.scheduledCompletion = some event.id ∧ event.payload =
        .transmissionComplete ⟨link.link, chunk, hopIndex, link.direction⟩
  completion : ∀ link service event, t.services.find? link = some service → event ∈ events →
    TransmissionOn link event.payload → service.scheduledCompletion = some event.id
  unscheduled : ∀ link service, t.services.find? link = some service →
    service.queue.active = none → service.scheduledCompletion = none
  busy : ∀ link service, t.services.find? link = some service →
    (service.queue.active.isSome = true ↔ service.busySince.isSome = true)
  waiting : ∀ link service, t.services.find? link = some service →
    service.queue.waiting ≠ [] → service.queue.active.isSome = true

theorem DirectedLinkService.occurrences_eq (service : DirectedLinkService) (chunk : ChunkId) :
    service.occurrences chunk = (service.queue.held.map TransferChunk.id).count chunk := by
  simp [occurrences, DirectedLinkQueue.held, List.count, List.countP_map, Function.comp_def,
    beq_eq_decide]

theorem consistent_admission {n : Network} {awaiting : Option Event}
    {taken : List TransferCompletion} (inv : Invariant awaiting taken n) {chunk : ChunkId}
    {record : ChunkRecord} (found : n.transport.chunks.find? chunk = some record)
    (state : record.state = .admitted) :
    ∃ link service, record.route[record.hopIndex]? = some link ∧
      n.transport.services.find? link = some service ∧ service.occurrences chunk = 1 ∧
      ∀ other elsewhere, n.transport.services.find? other = some elsewhere → other ≠ link →
        elsewhere.occurrences chunk = 0 := by
  have placed := inv.placement.placed chunk
  rw [found] at placed
  obtain ⟨link, copy, onRoute, single, same⟩ := placed.of_admitted state
  have here : (link, copy) ∈ holders (heldBy n.transport.services) chunk := by simp [single]
  obtain ⟨service, isService⟩ :=
    (inv.routed chunk record found).configured link (List.mem_of_getElem? onRoute)
  have held : ∀ other elsewhere, n.transport.services.find? other = some elsewhere →
      heldBy n.transport.services other = elsewhere.queue.held := by
    intro other elsewhere isElsewhere
    simp [heldBy, isElsewhere]
  refine ⟨link, service, onRoute, isService, ?_, ?_⟩
  · rw [DirectedLinkService.occurrences_eq, ← held link service isService]
    apply List.count_eq_one_of_mem (inv.placement.nodup link)
    exact List.mem_map.mpr ⟨copy, here.1, here.2⟩
  · intro other elsewhere isElsewhere differs
    rw [DirectedLinkService.occurrences_eq, ← held other elsewhere isElsewhere]
    apply List.count_eq_zero_of_not_mem
    intro member
    obtain ⟨twin, isHeld, isChunk⟩ := List.mem_map.mp member
    have there : (other, twin) ∈ holders (heldBy n.transport.services) chunk := ⟨isHeld, isChunk⟩
    rw [single, Set.mem_singleton_iff] at there
    exact differs (congrArg Prod.fst there)

theorem Invariant.consistent {n : Network} {awaiting : Option Event}
    {taken : List TransferCompletion} (inv : Invariant awaiting taken n) :
    Consistent (outstanding n.kernel.sim awaiting) n.transport := by
  -- every link is idle or busy, and each conjunct is a case split on that
  have runs : ∀ link service, n.transport.services.find? link = some service →
      Runs (transmissions (outstanding n.kernel.sim awaiting) link) n.kernel.sim.now link
        (some service) := by
    intro link service found
    exact found ▸ inv.running link
  -- an awaiting chunk has its one arrival
  constructor
  · intro chunk record found state
    have placed := inv.placement.placed chunk
    rw [found] at placed
    obtain ⟨event, single, payload, scheduled, _⟩ := placed.of_awaiting state
    have member : event ∈ arrivals (outstanding n.kernel.sim awaiting) chunk := by simp [single]
    refine ⟨event, member.1, payload, scheduled, ?_⟩
    intro other isOutstanding arrival
    have isArrival : other ∈ arrivals (outstanding n.kernel.sim awaiting) chunk :=
      ⟨isOutstanding, arrival⟩
    simpa [single] using isArrival
  · intro chunk record found state
    exact consistent_admission inv found state
  -- the expected completion is of the chunk in service, and outstanding
  · intro link service found chunk hopIndex
    cases runs link service found with
    | idle _ inactive _ unscheduled _ _ => simp [inactive, unscheduled]
    | busy event active since _ inService expected _ _ payload single =>
      have member : event ∈ transmissions (outstanding n.kernel.sim awaiting) link := by
        simp [single]
      constructor
      · intro h
        obtain ⟨other, isActive, rfl, rfl⟩ := h
        rw [inService] at isActive
        cases isActive
        exact ⟨event, member.1, expected, payload⟩
      · intro h
        obtain ⟨other, isOutstanding, _, isPayload⟩ := h
        have isTransmission : other ∈ transmissions (outstanding n.kernel.sim awaiting) link :=
          ⟨isOutstanding, chunk, hopIndex, isPayload⟩
        rw [single, Set.mem_singleton_iff] at isTransmission
        subst isTransmission
        rw [payload] at isPayload
        cases isPayload
        exact ⟨active, inService, rfl, rfl⟩
  -- no other transmission is outstanding on the link
  · intro link service event found isOutstanding onLink
    have member : event ∈ transmissions (outstanding n.kernel.sim awaiting) link :=
      ⟨isOutstanding, onLink⟩
    cases runs link service found with
    | idle _ _ _ _ _ empty => simp [empty] at member
    | busy other _ _ _ _ expected _ _ _ single =>
      rw [single, Set.mem_singleton_iff] at member
      exact member ▸ expected
  · intro link service found inactive
    exact ((runs link service found).of_idle inactive).2.1
  · intro link service found
    cases runs link service found with
    | idle _ inactive _ _ begun _ => simp [inactive, begun]
    | busy _ _ _ _ inService _ begun _ _ _ => simp [inService, begun]
  · intro link service found nonempty
    cases runs link service found with
    | idle _ _ empty _ _ _ => exact absurd empty nonempty
    | busy _ _ _ _ inService _ _ _ _ _ => simp [inService]

/-- In every reachable state the event queue, the chunk records and the link queues agree, and an
event that the runtime scheduled is handled without a throw that the environment is not to blame
for.  While an event is being dispatched and its handler has not run, it still counts as pending. -/
theorem transport_consistent (d : Drive) (reachable : Reachable d) :
    Consistent (outstanding d.network.kernel.sim d.awaiting) d.network.transport ∧
    (d.awaiting = none → Consistent { event | d.network.kernel.sim.Live event }
      d.network.transport) ∧
    ∀ event e n, d.awaiting = some event → ownPayload event.payload = true →
      Network.dispatch event.payload d.network = .error e n → Kernel.Excused e := by
  have inv := reachable.invariant
  refine ⟨inv.consistent, ?_, ?_⟩
  · intro idle
    have consistent := inv.consistent
    rwa [idle, outstanding_none] at consistent
  · intro event e n isAwaited own thrown
    rw [isAwaited] at inv
    cases (wp_of_error (wp_dispatch inv) thrown).2 with
    | inl excused => exact excused
    | inr refused => simp [refused.1] at own

/-! ## Replaying steps -/

/-- Steps that can be replayed. -/
inductive Move where
  | submit (request : TransferRequest)
  | changeLink (link : LinkId) (state : OperationalState) (timestamp : SimTimeNs)
  | run
  | start
  | handle
  | conclude

/-- The drive after a move, provided that it is a step and nothing throws. -/
def Drive.play (d : Drive) : Move → Option Drive
  | .submit request =>
    match (Call.submitTransfer request).run d.network with
    | .ok _ n => some { d with network := n }
    | .error _ _ => none
  | .changeLink link state timestamp =>
    match (Call.scheduleLinkStateChange link state timestamp).run d.network with
    | .ok _ n => some { d with network := n }
    | .error _ _ => none
  | .run =>
    match zoom Network.kernelLens Kernel.beginRun d.network with
    | .ok _ n => some { d with network := n }
    | .error _ _ => none
  | .start =>
    if d.awaiting = none ∧ d.network.kernel.sim.lifecycle = .running then
      match zoom Network.kernelLens Kernel.startNext d.network with
      | .ok (some event) n => some { d with network := n, awaiting := some event }
      | _ => none
    else none
  | .handle =>
    match d.awaiting with
    | none => none
    | some event =>
      match Network.dispatch event.payload d.network with
      | .ok _ n => some { d with network := n, awaiting := none }
      | .error _ _ => none
  | .conclude =>
    if d.awaiting = none then
      match zoom Network.kernelLens Kernel.endDispatch d.network with
      | .ok _ n => some { d with network := n }
      | .error _ _ => none
    else none

theorem Drive.play_step {d d' : Drive} {move : Move} (played : d.play move = some d') :
    Step d d' := by
  -- each move is the step that it plays
  cases move with
  | submit request =>
    simp only [play] at played
    split at played
    · rename_i ok
      cases played
      exact .returned (.submitTransfer request) trivial ok
    · cases played
  | changeLink link state timestamp =>
    simp only [play] at played
    split at played
    · rename_i ok
      cases played
      exact .returned (.scheduleLinkStateChange link state timestamp) trivial ok
    · cases played
  | run =>
    simp only [play] at played
    split at played
    · rename_i ok
      cases played
      exact .began ok
    · cases played
  | start =>
    simp only [play] at played
    split at played
    · rename_i ready
      split at played
      · rename_i ok
        cases played
        exact .started ready.1 ready.2 ok
      · cases played
    · cases played
  | handle =>
    simp only [play] at played
    split at played
    · cases played
    · rename_i isAwaited
      split at played
      · rename_i ok
        cases played
        exact .handled isAwaited ok
      · cases played
  | conclude =>
    simp only [play] at played
    split at played
    · rename_i idle
      split at played
      · rename_i ok
        cases played
        exact .ended idle ok
      · cases played
    · cases played

def Drive.replay (moves : List Move) (d : Drive) : Option Drive := moves.foldlM Drive.play d

theorem Drive.replay_steps {moves : List Move} {d d' : Drive}
    (played : d.replay moves = some d') : Relation.ReflTransGen Step d d' := by
  induction moves generalizing d with
  | nil =>
    cases played
    exact .refl
  | cons move moves ih =>
    simp only [replay, List.foldlM_cons, Option.bind_eq_bind, Option.bind_eq_some_iff] at played
    obtain ⟨middle, first, rest⟩ := played
    exact .head (play_step first) (ih rest)

/-- What a replay from a first state leads to is reachable. -/
theorem Initial.replay {d d' : Drive} (initial : Initial d) {moves : List Move}
    (played : d.replay moves = some d') : Reachable d' :=
  ⟨d, initial, Drive.replay_steps played⟩

/-! ## A transfer over one link -/

/-- Two spine switches with a link between them. -/
def joinedSwitches : TopologyGraph :=
  { switches := [⟨⟨0⟩, none, .spine, [⟨0⟩], .up⟩, ⟨⟨1⟩, none, .spine, [⟨1⟩], .up⟩]
    ports :=
      [⟨⟨0⟩, ⟨.switch, 0⟩, .fabricDownlink, .up⟩, ⟨⟨1⟩, ⟨.switch, 1⟩, .fabricDownlink, .up⟩]
    links := [⟨⟨0⟩, ⟨0⟩, ⟨1⟩, .fabric, .up⟩] }

def joinedConfiguration : DirectedLinkConfiguration :=
  ⟨⟨⟨0⟩, .aToB⟩, 8000000000, 10, 4096, none⟩

def joinedService : DirectedLinkService := { queue := { configuration := joinedConfiguration } }

def joinedDrive : Drive where
  network :=
    { kernel :=
        { sim := { rng := ⟨⟨fun _ => 2 ^ 63, fun _ => by decide, fun _ small n =>
            ⟨n, le_refl n, le_of_lt small⟩⟩, 0⟩ }
          probe :=
            { trace := { mode := .disabled }
              session := { configuration := { mode := .off }, nextSampleTimestamp := none } } }
      graph := joinedSwitches
      transport := { services := OrderedMap.empty.insert ⟨⟨0⟩, .aToB⟩ joinedService } }

theorem joinedDrive_initial : Initial joinedDrive where
  fresh := ⟨_, rfl⟩
  created := ⟨[joinedConfiguration], {}, rfl⟩
  idle := rfl
  nothing := rfl

/-- A hundred bytes in chunks of at most sixty-four. -/
def joinedRequest : TransferRequest :=
  ⟨⟨.switch, 0⟩, ⟨.switch, 1⟩, 100, 64, [⟨⟨0⟩, .aToB⟩]⟩

def joinedCall : Call := .submitTransfer joinedRequest

theorem transport_consistent_two_chunks :
    ∃ d, Reachable d ∧ d.network.transport.chunks.size = 2 ∧
      Consistent (outstanding d.network.kernel.sim d.awaiting) d.network.transport := by
  have runs : (match joinedCall.run joinedDrive.network with
      | .ok _ n => n.transport.chunks.size == 2
      | .error _ _ => false) = true := by decide +kernel
  split at runs
  · rename_i n ok
    have reach : Reachable { joinedDrive with network := n } :=
      ⟨joinedDrive, joinedDrive_initial, .single (.returned joinedCall trivial ok)⟩
    exact ⟨_, reach, by simpa using runs, (transport_consistent _ reach).1⟩
  · cases runs

end NexusLab.Transport
