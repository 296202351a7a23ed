import NexusLab.Collective.Protocol
import NexusLab.Transport.Conservation

/-! # Runs of the executor

The executor, the router, the transport and the simulation take their steps in any order: the
transport moves on, collectives are submitted and cancelled, local transfers complete, completions
are taken and handed over one by one, and results are taken.  Every collective is settled in every
state of such a run, no call of the executor finds anything it does not expect, and where nothing is
left to come every collective has ended. -/

namespace NexusLab.Collective

open Foundation Sim NexusLab.Topology Routing Workload

namespace Exchange

/-! ## Steps -/

/-- What only the executor may do, somebody else has not done: to submit a transfer, and to schedule,
cancel or handle the completion of a local one. -/
structure Foreign (x x' : Exchange) : Prop where
  transfers : ∀ transfer record, x'.network.transport.transfers.find? transfer = some record →
    ∃ record, x.network.transport.transfers.find? transfer = some record
  events : ∀ event completion, event.payload = .localCompletion completion →
    (event ∈ x'.outstanding ↔ event ∈ x.outstanding)

/-- The transport or the simulation has taken a step. -/
def moved (x : Exchange) (network : Transport.Network) (awaiting : Option Event) : Exchange :=
  { x with
    ring := { x.ring with fabric := { x.ring.fabric with network } }
    awaiting }

/-- One step of the whole. -/
inductive Step : Exchange → Exchange → Prop where
  | moved {x : Exchange} {network : Transport.Network} {awaiting : Option Event} :
      Transport.Step x.routed.drive ⟨network, awaiting, x.handed ++ x.handing⟩ →
      Foreign x (x.moved network awaiting) → Step x (x.moved network awaiting)
  | submitted {x : Exchange} {id : CollectiveId} {r : Ring} (request : CollectiveRequest) :
      Ring.submit request x.ring = .ok id r → Step x (x.after r)
  | cancelled {x : Exchange} {r : Ring} (id : CollectiveId) :
      Ring.cancel id x.ring = .ok () r → Step x (x.after r)
  | completed {x : Exchange} {event : Event} {completion : LocalCompletionEvent} {r : Ring} :
      x.awaiting = some event → event.payload = .localCompletion completion →
      Ring.handleLocalCompletion completion x.ring = .ok () r → Step x (x.handledLocal.after r)
  | took {x : Exchange} {completions : List Transport.TransferCompletion}
      {network : Transport.Network} :
      Transport.Network.takeCompletedTransfers x.network = .ok completions network →
      Step x { x.moved network x.awaiting with handing := x.handing ++ completions }
  | handed {x : Exchange} {completion : Transport.TransferCompletion}
      {rest : List Transport.TransferCompletion} {r : Ring} :
      x.handing = completion :: rest → Ring.handleTransfer completion x.ring = .ok () r →
      Step x ((x.handedNext completion rest).after r)
  | published {x : Exchange} {results : List CollectiveResult} {r : Ring} :
      Ring.takeCompleted x.ring = .ok results r →
      Step x { x.after r with published := x.published ++ results }

/-- A new executor on a fabric that nobody else uses. -/
structure Start (x : Exchange) : Prop where
  routed : x.routed.Reachable
  created : ∃ configuration, RingExecutor.create configuration = .ok x.executor
  unused : x.network.transport.transfers = .empty
  quiet : ∀ event ∈ x.outstanding, ∀ completion, event.payload ≠ .localCompletion completion
  fresh : x.handed = [] ∧ x.handing = [] ∧ x.published = []

def Reachable (x : Exchange) : Prop := ∃ start, Start start ∧ Relation.ReflTransGen Step start x

/-! ## What holds all along -/

variable {x x' : Exchange}

theorem Start.good (start : x.Start) : x.Good := by
  obtain ⟨configuration, created⟩ := start.created
  unfold RingExecutor.create at created
  split at created
  · cases created
  · have isNew : x.executor = { configuration } := (Except.ok.inj created).symm
    refine ⟨start.routed.invariant, ?_, ?_, ?_⟩
    · refine ⟨?_, ?_, ⟨?_, ?_⟩, ?_, ?_, ?_, ?_⟩
      · simp [isNew]
      · simp [isNew]
      · simp [isNew]
      · simp [isNew]
      · simp [isNew]
      · simp [start.unused]
      · simp [isNew]
      · exact fun event outstanding completion payload =>
          absurd payload (start.quiet event outstanding completion)
    · simp [isNew]
    · simp [isNew, RingExecutor.trail, RingExecutor.results, start.fresh.2.2]

theorem findGpu_of_graphChange {graph graph' : TopologyGraph} (change : GraphChange graph graph') :
    graph'.findGpu = graph.findGpu := by
  cases change with
  | same => rfl
  | link id state =>
    unfold TopologyGraph.setLinkState
    repeat' split
    all_goals rfl
  | port id state =>
    unfold TopologyGraph.setPortState
    repeat' split
    all_goals rfl
  | switch id state =>
    unfold TopologyGraph.setSwitchState
    repeat' split
    all_goals rfl

/-- A step of somebody else does not concern the executor. -/
theorem Foreign.apart {network : Transport.Network} {awaiting : Option Event}
    (foreign : Foreign x (x.moved network awaiting)) (invariant : x.routed.Invariant)
    (step : Transport.Step x.routed.drive ⟨network, awaiting, x.handed ++ x.handing⟩) :
    x.Apart (x.moved network awaiting) where
  gpus gpu worker found := by
    have change := graphChange_of_effect (step.effect invariant.drive.invariant).2
    have same := findGpu_of_graphChange change
    exact ⟨worker, (congrFun same gpu).trans found⟩
  submitted transfer bytes submitted := submitted.step step invariant.drive.invariant
  transfers := foreign.transfers
  events := foreign.events

/-- Every step keeps what holds, and starts no round of a collective that has failed or was
cancelled. -/
theorem Step.good (step : Step x x') (good : x.Good) : x'.Good ∧ x.Stops x' := by
  have unmoved : ∀ y : Exchange, y.executor = x.executor → x.Stops y :=
    fun y same _ _ _ _ => .inl (by rw [same])
  cases step with
  | moved step foreign =>
    refine ⟨⟨good.routed.step (.drove step), ?_, good.settled, good.unheard⟩, unmoved _ rfl⟩
    exact good.linked.apart (foreign.apart good.routed step) rfl rfl
  | submitted request ok =>
    obtain ⟨after, stops, _⟩ := wp_of_ok (wp_submit good request) ok
    exact ⟨after, stops⟩
  | cancelled id ok =>
    cases found : x.executor.records.find? id with
    | some record =>
      have after := wp_of_ok (wp_cancel good found) ok
      exact after
    | none =>
      -- only a collective that exists can be cancelled
      have unknown : x.ring.executor.records.find? id = none := found
      have none_left : wp (Ring.cancel id) (fun _ _ => False) (fun _ _ => True) x.ring := by
        simp [Ring.cancel, Ring.recordAt, unknown]
      exact (wp_of_ok none_left ok).elim
  | completed awaited payload ok =>
    have after := wp_of_ok (wp_handleLocalCompletion good awaited payload) ok
    exact after
  | @took completions network ok =>
    have taken : Transport.Network.takeCompletedTransfers x.routed.drive.network =
        .ok completions network := ok
    have routed := good.routed.step (.drove (.took taken))
    cases ok
    refine ⟨⟨?_, ?_, good.settled, good.unheard⟩, unmoved _ rfl⟩
    · rw [List.append_assoc] at routed
      exact routed
    · refine good.linked.apart ⟨?_, ?_, ?_, ?_⟩ rfl rfl
      · exact fun _ worker found => ⟨worker, found⟩
      · exact fun _ _ submitted => ⟨submitted.sealed⟩
      · exact fun _ record found => ⟨record, found⟩
      · exact fun _ _ _ => Iff.rfl
  | handed handing ok =>
    have after := wp_of_ok (wp_handleTransfer good handing) ok
    exact after
  | published ok =>
    obtain ⟨after, stops⟩ := wp_of_ok (wp_takeCompleted good) ok
    exact ⟨after, stops⟩

theorem Reachable.good (reachable : x.Reachable) : x.Good := by
  obtain ⟨start, isStart, steps⟩ := reachable
  induction steps with
  | refl => exact isStart.good
  | tail _ step ih => exact (step.good ih).1

/-! ## Replaying steps -/

/-- The events of local transfers that are to come. -/
def localEvents (x : Exchange) : List Event :=
  (x.network.kernel.sim.eventQueue.events.filter
      (fun event => event.id ∉ x.network.kernel.sim.cancelledIds) ++
    x.awaiting.toList).filter fun event =>
      match event.payload with
      | .localCompletion _ => true
      | _ => false

theorem mem_localEvents {event : Event} {completion : LocalCompletionEvent}
    (payload : event.payload = .localCompletion completion) :
    event ∈ x.localEvents ↔ event ∈ x.outstanding := by
  simp [localEvents, outstanding, Transport.outstanding, Simulation.Live, payload]

def isForeign (x x' : Exchange) : Bool :=
  x'.network.transport.transfers.keys.all x.network.transport.transfers.contains &&
    x'.localEvents.all (· ∈ x.localEvents) && x.localEvents.all (· ∈ x'.localEvents)

theorem Foreign.of_isForeign (foreign : x.isForeign x' = true) : Foreign x x' := by
  simp only [isForeign, Bool.and_eq_true, List.all_eq_true, decide_eq_true_eq] at foreign
  obtain ⟨⟨transfers, back⟩, forth⟩ := foreign
  constructor
  · intro transfer record found
    exact OrderedMap.contains_iff.mp (transfers transfer (OrderedMap.mem_keys_iff.mpr ⟨_, found⟩))
  · intro event completion payload
    rw [← mem_localEvents payload, ← mem_localEvents payload]
    exact ⟨back event, forth event⟩

/-- Steps that can be replayed. -/
inductive Move where
  | drive (move : Transport.Move)
  | submit (request : CollectiveRequest)
  | complete
  | take
  | hand

/-- The exchange after a move, provided that it is a step and nothing throws. -/
def play (x : Exchange) : Move → Option Exchange
  | .drive move =>
    match x.routed.drive.play move with
    | some d =>
      if d.taken = x.handed ++ x.handing ∧ x.isForeign (x.moved d.network d.awaiting) = true then
        some (x.moved d.network d.awaiting)
      else none
    | none => none
  | .submit request =>
    match Ring.submit request x.ring with
    | .ok _ r => some (x.after r)
    | .error _ _ => none
  | .complete =>
    match x.awaiting.map Event.payload with
    | some (.localCompletion completion) =>
      match Ring.handleLocalCompletion completion x.ring with
      | .ok _ r => some (x.handledLocal.after r)
      | .error _ _ => none
    | _ => none
  | .take =>
    match Transport.Network.takeCompletedTransfers x.network with
    | .ok completions network =>
      some { x.moved network x.awaiting with handing := x.handing ++ completions }
    | .error _ _ => none
  | .hand =>
    match x.handing with
    | [] => none
    | completion :: rest =>
      match Ring.handleTransfer completion x.ring with
      | .ok _ r => some ((x.handedNext completion rest).after r)
      | .error _ _ => none

theorem play_step {move : Move} (isPlayed : x.play move = some x') : Step x x' := by
  cases move with
  | drive move =>
    simp only [play] at isPlayed
    split at isPlayed
    · rename_i d driven
      split at isPlayed
      · rename_i allowed
        cases isPlayed
        have step := Transport.Drive.play_step driven
        rw [show d = ⟨d.network, d.awaiting, x.handed ++ x.handing⟩ by rw [← allowed.1]] at step
        exact .moved step (.of_isForeign allowed.2)
      · cases isPlayed
    · cases isPlayed
  | submit request =>
    simp only [play] at isPlayed
    split at isPlayed
    · rename_i ok
      cases isPlayed
      exact .submitted request ok
    · cases isPlayed
  | complete =>
    simp only [play] at isPlayed
    split at isPlayed
    · rename_i completion isCompletion
      obtain ⟨event, awaited, payload⟩ := Option.map_eq_some_iff.mp isCompletion
      split at isPlayed
      · rename_i ok
        cases isPlayed
        exact .completed awaited payload ok
      · cases isPlayed
    · cases isPlayed
  | take =>
    simp only [play] at isPlayed
    split at isPlayed
    · rename_i ok
      cases isPlayed
      exact .took ok
    · cases isPlayed
  | hand =>
    simp only [play] at isPlayed
    split at isPlayed
    · cases isPlayed
    · rename_i handing
      split at isPlayed
      · rename_i ok
        cases isPlayed
        exact .handed handing ok
      · cases isPlayed

def replay (moves : List Move) (x : Exchange) : Option Exchange := moves.foldlM play x

theorem replay_steps {moves : List Move} (played : x.replay moves = some x') :
    Relation.ReflTransGen Step x x' := by
  induction moves generalizing x with
  | nil =>
    cases played
    exact .refl
  | cons move moves ih =>
    simp only [replay, List.foldlM_cons, Option.bind_eq_bind, Option.bind_eq_some_iff] at played
    obtain ⟨middle, first, rest⟩ := played
    exact .head (play_step first) (ih rest)

/-! ## Three GPUs on two NICs -/

/-- Two GPUs share a NIC, and a third one is across the switch. -/
def trio : TopologyGraph :=
  TopologyGraph.after (TopologyGraph.addGpu ⟨1⟩) (TopologyGraph.after (TopologyGraph.addGpu ⟨0⟩)
    (TopologyGraph.after (TopologyGraph.addGpu ⟨0⟩) PathSession.star))

theorem trio_built : trio.Built :=
  .addGpu _ (.addGpu _ (.addGpu _ PathSession.star_built))

def trioTransport : Transport.TransportRuntime :=
  match Transport.TransportRuntime.create trio Routed.starConfigurations {} with
  | .ok transport => transport
  | .error _ => {}

def trioDrive : Transport.Drive where
  network :=
    { kernel := Transport.joinedDrive.network.kernel
      graph := trio
      transport := trioTransport }

theorem trioDrive_initial : Transport.Initial trioDrive where
  fresh := ⟨_, rfl⟩
  created := by
    refine ⟨Routed.starConfigurations, {}, ?_⟩
    have accepted : (match Transport.TransportRuntime.create trio Routed.starConfigurations {} with
        | .ok _ => true
        | .error _ => false) = true := by decide +kernel
    show Transport.TransportRuntime.create trio Routed.starConfigurations {} = .ok trioTransport
    unfold trioTransport
    split
    · rename_i transport ok
      exact ok
    · rename_i thrown
      rw [thrown] at accepted
      cases accepted
  idle := rfl
  nothing := rfl

def trioExchange : Exchange where
  ring := { fabric := ⟨trioDrive.network, Routed.starRouter⟩, executor := {} }

theorem trioExchange_start : trioExchange.Start where
  routed := by
    refine ⟨_, ⟨⟨trioDrive, trioDrive_initial, trio_built, .refl⟩, ?_⟩, .refl⟩
    exact ⟨⟨OrderedMap.empty.insert "least-loaded"
      fun _ => some (baselinePolicy "least-loaded" .leastLoaded)⟩, { policy := "least-loaded" }, rfl⟩
  created := ⟨{}, rfl⟩
  unused := by decide +kernel
  quiet := by
    intro event outstanding
    simp [Exchange.outstanding, Transport.outstanding, Simulation.Live, trioExchange, trioDrive,
      Transport.joinedDrive, EventQueue.empty, network] at outstanding
  fresh := ⟨rfl, rfl, rfl⟩

/-- All three reduce a hundred bytes. -/
def trioRequest : CollectiveRequest := { participants := [⟨0⟩, ⟨1⟩, ⟨2⟩], bytes := 100, chunkBytes := 64 }

/-- The two on one NIC reduce ten bytes. -/
def pairRequest : CollectiveRequest := { participants := [⟨0⟩, ⟨1⟩], bytes := 10, chunkBytes := 64 }

/-! ## The protocol -/

/-- In every state of a run every collective is settled: it waits for transfers of its round, all
rounds before it being over, or it has ended and published its one result.  No step starts a round of
a collective that has failed or was cancelled. -/
theorem ring_protocol (x : Exchange) (reachable : x.Reachable) :
    (∀ id record, x.executor.records.find? id = some record →
      Settled x.executor x.published id record) ∧
    (∀ id, x.executor.records.find? id = none →
      x.executor.trail id = [] ∧ x.executor.results x.published id = []) ∧
    ∀ x', Step x x' → x.Stops x' :=
  ⟨reachable.good.settled, reachable.good.unheard, fun _ step => (step.good reachable.good).2⟩

/-- After a submission two transfers are on the fabric, and one is local. -/
theorem ring_protocol_trio : ∃ x record, Reachable x ∧ x.executor.transfers.size = 2 ∧
    x.executor.locals.size = 1 ∧ x.executor.records.find? ⟨0⟩ = some record ∧ record.pending = 3 ∧
    Settled x.executor x.published ⟨0⟩ record := by
  have runs : ((trioExchange.replay [.submit trioRequest]).map fun x =>
      (x.executor.transfers.size, x.executor.locals.size,
        (x.executor.records.find? ⟨0⟩).map Record.pending)) = some (2, 1, some 3) := by
    decide +kernel
  obtain ⟨x, isPlayed, same⟩ := Option.map_eq_some_iff.mp runs
  simp only [Prod.mk.injEq] at same
  obtain ⟨transfers, locals, pending⟩ := same
  obtain ⟨record, found, three⟩ := Option.map_eq_some_iff.mp pending
  have reachable : x.Reachable := ⟨_, trioExchange_start, replay_steps isPlayed⟩
  exact ⟨x, record, reachable, transfers, locals, found, three,
    (ring_protocol x reachable).1 ⟨0⟩ record found⟩

/-- The executor expects whatever comes to it: it takes every completion of a local transfer and every
completion of a fabric transfer for what it is, cancels every collective it knows and refuses a request
before it has done anything.  What it throws otherwise has run out, or was thrown by the simulation or
the router. -/
structure Unconfused (x : Exchange) : Prop where
  completed : ∀ event completion e r, x.awaiting = some event →
    event.payload = .localCompletion completion →
    Ring.handleLocalCompletion completion x.ring = .error e r → Thrown x e r
  handed : ∀ completion rest e r, x.handing = completion :: rest →
    Ring.handleTransfer completion x.ring = .error e r → Thrown x e r
  cancelled : ∀ id record, x.executor.records.find? id = some record →
    ∃ r, Ring.cancel id x.ring = .ok () r
  submitted : ∀ request e r, Ring.submit request x.ring = .error e r →
    Refused e ∧ r = x.ring ∨ Thrown x e r

section Confusion

variable {x₀ : Exchange} {e : Error} {r : Ring}

/-- What an executor throws that has lost track of what it waits for. -/
def confusions : List Error :=
  [.logicError "unexpected local collective event", .logicError "stale local collective event",
    .logicError "collective executor received unowned transfer outcome",
    .logicError "collective transfer byte mismatch", .logicError "collective completed twice",
    .logicError "ring byte conservation failure", .outOfRange "map::at",
    .undefinedBehavior "participant out of range", .undefinedBehavior "unknown participant"]

theorem not_confused_of_telemetry (origin : e.origin = .telemetry) : e ∉ confusions := by
  have own : ∀ e ∈ confusions, e.origin = .program := by decide
  intro confused
  rw [own e confused] at origin
  cases origin

theorem not_confused_of_permitted (permitted : Permitted e) : e ∉ confusions := by
  cases permitted with
  | telemetry origin => exact not_confused_of_telemetry origin
  | timeline => decide
  | delay => decide
  | arrival => decide
  | flow => decide

theorem not_confused_of_refused (refused : Refused e) : e ∉ confusions := by
  cases refused with
  | request => decide
  | limit => decide
  | participant => decide
  | volume thrown =>
    unfold plannedVolume at thrown
    dsimp only at thrown
    split at thrown
    · cases thrown
      decide
    · split at thrown
      · cases thrown
        decide
      · cases thrown

theorem not_confused_of_schedule {specification : EventSpec} {k k' : Kernel}
    (thrown : Kernel.schedule specification k = .error e k') : e ∉ confusions := by
  have spec : wp (Kernel.schedule specification) (fun _ _ => True)
      (fun e _ => e ∉ confusions) k := by
    unfold Kernel.schedule
    simp only [wp_bind, wp_get, wp_throwIf, Kernel.wp_modifySim, wp_catching, wp_throw, wp_pure]
    refine ⟨fun _ => by decide, fun _ => ⟨fun _ => by decide, fun _ => ?_⟩⟩
    refine Kernel.wp_nextEventId (fun _ => ?_) (fun _ => by decide)
    refine ⟨fun _ => by decide, fun _ => ?_⟩
    refine Kernel.wp_instrument (fun _ _ => ?_) (fun e probe origin _ => ?_)
    · refine Kernel.wp_instrument (fun _ _ => ?_)
        (fun _ _ origin _ => not_confused_of_telemetry origin)
      exact Kernel.wp_observe (fun _ _ => trivial)
        (fun _ _ origin _ => not_confused_of_telemetry origin)
    · exact Kernel.wp_instrument (fun _ _ => not_confused_of_telemetry origin)
        (fun _ _ origin' _ => not_confused_of_telemetry origin')
  exact wp_of_error spec thrown

/-- A router has thrown it in the course of a call. -/
def RouterThrew (x₀ : Exchange) (e : Error) : Prop :=
  ∃ (x : Exchange) (request : RouteRequest) (f : Fabric),
    Relation.ReflTransGen Routed.Step x₀.routed x.routed ∧
    Fabric.submit request x.ring.fabric = .error e f

theorem routerThrew_of_thrown (thrown : Thrown x₀ e r) (confused : e ∈ confusions) :
    x₀.RouterThrew e := by
  cases thrown with
  | own permitted => exact absurd confused (not_confused_of_permitted permitted)
  | scheduling _ thrown => exact absurd confused (not_confused_of_schedule thrown)
  | @routing x request f _ steps thrown => exact ⟨x, request, f, steps, thrown⟩

/-- None of these errors comes from the executor itself or from the simulation. -/
theorem Unconfused.routerThrew {x : Exchange} (unconfused : x.Unconfused)
    (confused : e ∈ confusions) :
    (∀ event completion r, x.awaiting = some event → event.payload = .localCompletion completion →
      Ring.handleLocalCompletion completion x.ring = .error e r → x.RouterThrew e) ∧
    (∀ completion rest r, x.handing = completion :: rest →
      Ring.handleTransfer completion x.ring = .error e r → x.RouterThrew e) ∧
    ∀ request r, Ring.submit request x.ring = .error e r → x.RouterThrew e := by
  refine ⟨fun event completion r awaited payload thrown => ?_,
    fun completion rest r handing thrown => ?_, fun request r thrown => ?_⟩
  · have allowed := unconfused.completed event completion e r awaited payload thrown
    exact routerThrew_of_thrown allowed confused
  · exact routerThrew_of_thrown (unconfused.handed completion rest e r handing thrown) confused
  · rcases unconfused.submitted request e r thrown with ⟨refused, _⟩ | thrown
    · exact absurd confused (not_confused_of_refused refused)
    · exact routerThrew_of_thrown thrown confused

end Confusion

/-- The executor is never confused: none of the `confusions` is its own. -/
theorem ring_unconfused (x : Exchange) (reachable : x.Reachable) : x.Unconfused := by
  have good := reachable.good
  constructor
  · intro event completion e r awaited payload thrown
    have outcome := wp_of_error (wp_handleLocalCompletion good awaited payload) thrown
    exact outcome
  · intro completion rest e r handing thrown
    have outcome := wp_of_error (wp_handleTransfer good handing) thrown
    exact outcome
  · intro id record found
    cases run : Ring.cancel id x.ring with
    | ok _ r => exact ⟨r, rfl⟩
    | error e r => exact (wp_of_error (wp_cancel good found) run).elim
  · intro request e r thrown
    have outcome := wp_of_error (wp_submit good request) thrown
    exact outcome

/-- A local transfer has completed, and the executor expects it. -/
theorem ring_unconfused_pair : ∃ x, Reachable x ∧ x.awaiting.isSome = true ∧ x.localEvents.length = 2 ∧
    Unconfused x := by
  have runs : ((trioExchange.replay [.submit pairRequest, .drive .run, .drive .start]).map fun x =>
      (x.awaiting.isSome, x.localEvents.length)) = some (true, 2) := by decide +kernel
  obtain ⟨x, isPlayed, same⟩ := Option.map_eq_some_iff.mp runs
  simp only [Prod.mk.injEq] at same
  have reachable : x.Reachable := ⟨_, trioExchange_start, replay_steps isPlayed⟩
  exact ⟨x, reachable, same.1, same.2, ring_unconfused x reachable⟩

/-! ## Nothing is stuck -/

/-- Where no event is to come and no completion is under way, nothing is in flight. -/
theorem Good.quiet (good : x.Good) (quiet : x.outstanding = ∅) (handing : x.handing = [])
    (completions : x.network.transport.completions = []) :
    x.executor.transfers = .empty ∧ x.executor.locals = .empty := by
  have inv := good.routed.drive.invariant
  constructor
  · refine OrderedMap.ext_find? fun transfer => ?_
    rw [OrderedMap.find?_empty]
    by_contra owned
    obtain ⟨p, isOwned⟩ := Option.ne_none_iff_exists'.mp owned
    obtain ⟨_, submitted, unhanded⟩ := good.linked.owned transfer p isOwned
    obtain ⟨record, found, _, _, onTheWay⟩ := submitted.sealed
    -- all its chunks have ended, so its completion has been announced, and hence handed over
    have balanced := inv.accounts.balanced transfer record found
    have ended : record.completion.isSome = true := by
      refine balanced.completed.mpr ⟨inv.accounts.nonempty transfer record found, ?_⟩
      intro chunk member chunkRecord isChunk
      exact inv.ended_of_quiet quiet isChunk (onTheWay chunk member chunkRecord isChunk)
    obtain ⟨completion, isCompletion⟩ := Option.isSome_iff_exists.mp ended
    have announced := inv.accounts.announced transfer record completion found isCompletion
    have none_left : x.routed.drive.taken ++ x.routed.drive.network.transport.completions =
        x.handed := by
      show x.handed ++ x.handing ++ x.network.transport.completions = x.handed
      rw [handing, completions, List.append_nil, List.append_nil]
    rw [none_left] at announced
    exact unhanded completion announced (balanced.completion completion isCompletion).1
  · refine OrderedMap.ext_find? fun event => ?_
    rw [OrderedMap.find?_empty]
    by_contra waited
    obtain ⟨found, isFound⟩ := Option.ne_none_iff_exists'.mp waited
    obtain ⟨_, _, event', outstanding, _⟩ := good.linked.locals event found isFound
    rw [quiet] at outstanding
    exact outstanding

/-- Where no event is to come and no completion is under way, the executor waits for nothing and
every collective has ended. -/
theorem ring_drains (x : Exchange) (reachable : x.Reachable) (quiet : x.outstanding = ∅)
    (handing : x.handing = []) (completions : x.network.transport.completions = []) :
    x.executor.transfers = .empty ∧ x.executor.locals = .empty ∧
      ∀ id record, x.executor.records.find? id = some record →
        Ended x.executor x.published id record := by
  have good := reachable.good
  obtain ⟨transfers, locals⟩ := good.quiet quiet handing completions
  refine ⟨transfers, locals, fun id record found => ?_⟩
  rcases good.settled id record found with ⟨k, inRound, pending, _⟩ | ended
  · have nothing : x.executor.inFlight (Pending.one id) = 0 := by
      simp [RingExecutor.inFlight, transfers, locals]
    rw [inRound.pending, nothing] at pending
    exact absurd pending (lt_irrefl 0)
  · exact ended

/-- What comes next when nobody interferes. -/
def nextMove (x : Exchange) : Move :=
  match x.awaiting.map Event.payload with
  | some (.localCompletion _) => .complete
  | some _ => .drive .handle
  | none =>
    if x.network.transport.completions ≠ [] then .take
    else if x.handing ≠ [] then .hand
    else if x.network.kernel.sim.currentEvent.isSome then .drive .conclude
    else .drive .start

/-- So many moves in a row. -/
def proceed : Nat → Exchange → Option Exchange
  | 0, x => some x
  | moves + 1, x => (x.play x.nextMove).bind (proceed moves)

theorem proceed_steps {moves : Nat} (played : x.proceed moves = some x') :
    Relation.ReflTransGen Step x x' := by
  induction moves generalizing x with
  | zero =>
    cases played
    exact .refl
  | succ moves ih =>
    obtain ⟨middle, first, rest⟩ := Option.bind_eq_some_iff.mp played
    exact .head (play_step first) (ih rest)

/-- The four rounds of the three GPUs, with eight transfers across the switch. -/
def trioDrains : Option Exchange :=
  (trioExchange.replay [.submit trioRequest, .drive .run]).bind (proceed 147)

theorem trioDrains_reachable (played : trioDrains = some x) : x.Reachable := by
  obtain ⟨begun, isBegun, isPlayed⟩ := Option.bind_eq_some_iff.mp played
  exact ⟨_, trioExchange_start, (replay_steps isBegun).trans (proceed_steps isPlayed)⟩

theorem ring_drains_trio : ∃ x record, Reachable x ∧
    x.executor.records.find? ⟨0⟩ = some record ∧ record.result.deliveredBytes = 400 ∧
    record.result.issuedFabricBytes = 266 ∧ x.executor.transfers = .empty ∧
    Ended x.executor x.published ⟨0⟩ record := by
  have runs : trioDrains.any (fun x =>
      x.network.kernel.sim.eventQueue.events.isEmpty && x.awaiting.isNone && x.handing.isEmpty &&
        x.network.transport.completions.isEmpty &&
        (x.executor.records.find? ⟨0⟩).any fun record =>
          record.result.deliveredBytes == 400 && record.result.issuedFabricBytes == 266) = true := by
    decide +kernel
  simp only [Option.any_eq_true, Bool.and_eq_true, List.isEmpty_iff, Option.isNone_iff_eq_none,
    beq_iff_eq] at runs
  obtain ⟨x, isPlayed, ⟨⟨⟨events, awaiting⟩, handing⟩, completions⟩, record, found, bytes⟩ := runs
  have reachable := trioDrains_reachable isPlayed
  have quiet : x.outstanding = ∅ := by
    ext event
    simp [outstanding, Transport.outstanding, Simulation.Live, events, awaiting]
  obtain ⟨transfers, _, ended⟩ := ring_drains x reachable quiet handing completions
  exact ⟨x, record, reachable, found, bytes.1, bytes.2, transfers, ended ⟨0⟩ record found⟩

end Exchange

end NexusLab.Collective
