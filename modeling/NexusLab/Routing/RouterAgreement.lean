import NexusLab.Routing.Agreement
import NexusLab.Routing.Router
import NexusLab.Transport.Atomicity

/-! # The router and the transport agree

The router searches for paths over operational arcs, and the runtime checks a route arc by arc.  The
two meet when every fabric arc is configured: whatever the router is offered, the runtime accepts.
A submission that throws on the way has left no trace but in the path cache. -/

namespace NexusLab.Routing

open Foundation NexusLab.Topology Transport Sim Telemetry

/-! ## What a submission can do -/

namespace Fabric

variable {f f' : Fabric} {request : RouteRequest}

def withPaths (f : Fabric) (paths : PathService) : Fabric :=
  { f with router := { f.router with paths } }

/-- The transfer a request asks for, along one path. -/
def transferOf (request : RouteRequest) (path : Path) : TransferRequest :=
  ⟨request.endpoints.source, request.endpoints.destination, request.bytes,
    request.maximumChunkBytes, path⟩

/-- A decision on record; reporting it has changed the instrumentation only. -/
def concluded (f : Fabric) (decision : RouteDecision) (ids : IdGenerator)
    (probe : Instrumentation) : Fabric :=
  { network := f.network.probed probe
    router := { f.router with decisions := f.router.decisions ++ [decision], decisionIds := ids } }

/-- The decision before a path is chosen. -/
def undecided (f : Fabric) (request : RouteRequest) (candidates : Nat) : RouteDecision :=
  { request
    policy := f.router.policy.name
    version := f.router.policy.version
    timestamp := f.network.now
    operationalRevision := f.network.graph.operationalRevision
    candidates
    path := []
    score := 0
    reason := "no operational fabric path"
    transfer := none }

def noDecisionId : Error := .overflowError "routing decision ID sequence exhausted"

theorem wp_conclude {decision : RouteDecision} {outcome : RoutingDecisionOutcome}
    {Q : Unit → Fabric → Prop} {E : Error → Fabric → Prop}
    (returns : f.router.decisionIds.exhausted = false →
      ∀ ids probe, Q () (f.concluded decision ids probe))
    (exhausted : f.router.decisionIds.exhausted = true → E noDecisionId f)
    (throws : ∀ e f', e.origin = .telemetry → E e f') :
    wp (conclude decision outcome) Q E f := by
  simp only [conclude, nextDecisionId, emitDecision, wp_bind, wp_get, wp_fromExcept, wp_modify,
    wp_pure, wp_zoom]
  constructor
  · intro drawn isDrawn
    refine Network.wp_observe_telemetry (fun probe => ?_) (fun e _ origin => throws e _ origin)
    refine returns ?_ _ _
    unfold IdGenerator.next at isDrawn
    split at isDrawn
    · cases isDrawn
    · rename_i left
      simpa using left
  · intro e thrown
    rw [IdGenerator.next_error thrown]
    exact exhausted (IdGenerator.exhausted_of_next thrown)

/-- Every way a submission can end. -/
inductive Submits (f : Fabric) (request : RouteRequest) :
    EStateM.Result Error Fabric (Option SubmittedTransfer) → Prop where
  | refused (e : Error) : request.bytes = 0 ∨ request.maximumChunkBytes = 0 ∨
      f.router.decisions.length = f.router.configuration.maximumDecisions →
      Submits f request (.error e f)
  | unanswered {e : Error} {paths : PathService} :
      PathService.lookup f.network.graph request.endpoints f.router.paths = .error e paths →
      Submits f request (.error e (f.withPaths paths))
  | missed {paths : PathService} (ids : IdGenerator) (probe : Instrumentation) :
      PathService.lookup f.network.graph request.endpoints f.router.paths = .ok [] paths →
      Submits f request
        (.ok none ((f.withPaths paths).concluded (f.undecided request 0) ids probe))
  | missedUncounted {paths : PathService} :
      PathService.lookup f.network.graph request.endpoints f.router.paths = .ok [] paths →
      f.router.decisionIds.exhausted = true →
      Submits f request (.error noDecisionId (f.withPaths paths))
  | unchosen {candidates : List Path} {paths : PathService} (e : Error) :
      PathService.lookup f.network.graph request.endpoints f.router.paths =
        .ok candidates paths → candidates ≠ [] → Submits f request (.error e (f.withPaths paths))
  | unsent {candidates : List Path} {paths : PathService} {path : Path} {e : Error} {n : Network} :
      PathService.lookup f.network.graph request.endpoints f.router.paths =
        .ok candidates paths → path ∈ candidates →
      Network.submitTransfer (transferOf request path) f.network = .error e n →
      Submits f request (.error e { f.withPaths paths with network := n })
  | sent {candidates : List Path} {paths : PathService} {path : Path}
      {submitted : SubmittedTransfer} {n : Network} (score : Nat) (reason : String)
      (ids : IdGenerator) (probe : Instrumentation) :
      PathService.lookup f.network.graph request.endpoints f.router.paths =
        .ok candidates paths → path ∈ candidates →
      Network.submitTransfer (transferOf request path) f.network = .ok submitted n →
      Submits f request (.ok (some submitted)
        ({ f.withPaths paths with network := n }.concluded
          { f.undecided request candidates.length with
            path, score, reason, transfer := some submitted.id } ids probe))
  | sentUncounted {candidates : List Path} {paths : PathService} {path : Path}
      {submitted : SubmittedTransfer} {n : Network} :
      PathService.lookup f.network.graph request.endpoints f.router.paths =
        .ok candidates paths → path ∈ candidates →
      Network.submitTransfer (transferOf request path) f.network = .ok submitted n →
      f.router.decisionIds.exhausted = true →
      Submits f request (.error noDecisionId { f.withPaths paths with network := n })
  | unreported {e : Error} {f' : Fabric} : e.origin = .telemetry →
      Submits f request (.error e f')

theorem submits (f : Fabric) (request : RouteRequest) :
    Submits f request (submit request f) := by
  have step : wp (submit request) (fun result f' => Submits f request (.ok result f'))
      (fun e f' => Submits f request (.error e f')) f := by
    simp only [submit, wp_bind, wp_throwIf, wp_get, wp_zoom]
    refine ⟨fun zero => .refused _ (zero.elim .inl (fun h => .inr (.inl h))), fun _ =>
      ⟨fun full => .refused _ (.inr (.inr full)), fun _ => ?_⟩⟩
    refine wp_intro (fun candidates paths looked => ?_) (fun e paths thrown => .unanswered thrown)
    rw [wp_ite]
    constructor
    · intro empty
      subst empty
      rw [wp_bind]
      exact wp_conclude (fun _ ids probe => .missed ids probe looked)
        (fun exhausted => .missedUncounted looked exhausted) (fun e f' origin => .unreported origin)
    · intro some_candidates
      simp only [wp_bind, wp_fromExcept]
      refine ⟨fun choice _ => ?_, fun e _ => .unchosen e looked some_candidates⟩
      split
      · exact .unchosen _ looked some_candidates
      · rename_i path chosen
        have member := List.mem_of_getElem? chosen
        rw [wp_bind, wp_zoom]
        refine wp_intro (fun submitted n ok => ?_) (fun e n thrown => .unsent looked member thrown)
        rw [wp_bind]
        exact wp_conclude (fun _ ids probe => .sent _ _ ids probe looked member ok)
          (fun exhausted => .sentUncounted looked member ok exhausted)
          (fun e f' origin => .unreported origin)
  cases result : submit request f with
  | ok _ _ =>
    have ended := wp_of_ok step result
    exact ended
  | error _ _ =>
    have ended := wp_of_error step result
    exact ended

end Fabric

/-! ## Routes -/

section Routes

variable {n : Network} {u v w : NodeId} {id : DirectedLinkId}

/-- Every arc of the fabric has a service. -/
def Configured (n : Network) : Prop :=
  ∀ link ∈ n.graph.links, link.kind = .fabric → ∀ direction,
    n.transport.services.contains ⟨link.id, direction⟩ = true

/-- The link is of the fabric, and the arc is operational. -/
def Usable (graph : TopologyGraph) (id : DirectedLinkId) : Prop :=
  ∃ link, graph.findLink id.link = some link ∧ link.kind = .fabric ∧
    graph.isOperational (link.directed id.direction) = true

/-- An arc the search may use is one the runtime takes, between the same nodes. -/
theorem arc_of_hop (canonical : n.graph.Canonical) (configured : Configured n)
    (way : (id, w) ∈ hops n.graph u) : Usable n.graph id ∧
      ∃ arc, requireRouteArc n id = .ok arc ∧
        (∃ port, n.graph.findPort arc.source = some port ∧ port.owner = u) ∧
        ∃ port, n.graph.findPort arc.destination = some port ∧ port.owner = w := by
  obtain ⟨link, isLink, d, rfl, allowed, source, destination⟩ := TopologyGraph.mem_ways.mp way
  rw [fabricUp_directed canonical isLink, Bool.and_eq_true, decide_eq_true_eq] at allowed
  have found := findLink_of_mem canonical isLink
  refine ⟨⟨link, found, allowed⟩, link.directed d, ?_, canonical.ownerAt_eq.mp source,
    canonical.ownerAt_eq.mp destination⟩
  simp only [requireRouteArc, requireFabricArc, found, if_pos allowed.1, ok_bind,
    configured link isLink allowed.1 d, if_true, pure_eq_ok]

/-- A walk from where an arc ends is a route that follows it. -/
theorem followRoute_of_walk (canonical : n.graph.Canonical) (configured : Configured n)
    {path : Path} {arc : DirectedLink}
    (ends : ∃ port, n.graph.findPort arc.destination = some port ∧ port.owner = u)
    (walk : IsWalk (hops n.graph) u path v) : (∀ id ∈ path, Usable n.graph id) ∧
      ∃ last, followRoute n arc path = .ok last ∧
        ∃ port, n.graph.findPort last.destination = some port ∧ port.owner = v := by
  induction path generalizing u arc with
  | nil =>
    cases walk
    exact ⟨by simp, arc, rfl, ends⟩
  | cons id path ih =>
    obtain ⟨w, way, rest⟩ := walk
    obtain ⟨usable, next, isNext, starts, onward⟩ := arc_of_hop canonical configured way
    obtain ⟨allUsable, last, follows, there⟩ := ih onward rest
    refine ⟨by simpa using ⟨usable, allUsable⟩, last, ?_, there⟩
    obtain ⟨before, isBefore, ownerBefore⟩ := ends
    obtain ⟨after, isAfter, ownerAfter⟩ := starts
    have meet : portsMeet n.graph arc.destination next.source = true := by
      simp [portsMeet, isBefore, isAfter, ownerBefore, ownerAfter]
    simp only [followRoute, isNext, ok_bind, meet, if_true, follows]

/-- A walk of at least one arc, and not too many, is a valid route between its ends. -/
theorem validateRoute_of_walk (canonical : n.graph.Canonical) (configured : Configured n)
    {path : Path} (walk : IsWalk (hops n.graph) u path v) (nonempty : 0 < path.length)
    (short : path.length ≤ n.transport.limits.maximumRouteHops) (small : path.length ≤ maxU32) :
    validateRoute n path (some u) (some v) = .ok () ∧ ∀ id ∈ path, Usable n.graph id := by
  cases path with
  | nil => simp at nonempty
  | cons id path =>
    obtain ⟨w, way, rest⟩ := walk
    obtain ⟨usable, first, isFirst, ⟨start, isStart, ownerStart⟩, onward⟩ :=
      arc_of_hop canonical configured way
    obtain ⟨allUsable, last, follows, stop, isStop, ownerStop⟩ :=
      followRoute_of_walk canonical configured onward rest
    refine ⟨?_, by simpa using ⟨usable, allUsable⟩⟩
    have capacity : validateCapacity n.transport 0 (id :: path).length = .ok () := by
      unfold validateCapacity
      rw [if_neg (by simp at short ⊢; omega)]
    simp only [validateRoute, capacity, ok_bind, not_lt.mpr small, if_false, isFirst, follows]
    simp [portMatches, isStart, ownerStart, isStop, ownerStop]

/-- Two nodes are connected when some path between them is operational. -/
def Connected (graph : TopologyGraph) (endpoints : Endpoints) : Prop :=
  ∃ path, graph.OperationalPath endpoints.source path endpoints.destination

/-- No distance to measure means that no path is operational. -/
theorem connected_iff {graph : TopologyGraph} (canonical : graph.Canonical) {endpoints : Endpoints}
    (known : endpoints.Known graph) {there : Option Nat}
    (distance : Distance graph endpoints.destination endpoints.source there) :
    Connected graph endpoints ↔ there ≠ none := by
  obtain ⟨isU, isV, distinct⟩ := known
  obtain ⟨startFabric, small⟩ := (mem_fabricNodes canonical).mp isU
  obtain ⟨endFabric, _⟩ := (mem_fabricNodes canonical).mp isV
  have isNode := canonical.mem_nodes.mpr small
  constructor
  · rintro ⟨path, isPath⟩ isNone
    have reached : ∃ m, endpoints.destination ∈ ends (targets (upward graph)) m endpoints.source :=
      ⟨path.length, mem_ends_iff.mpr
        ⟨path, (TopologyGraph.operationalPath_iff canonical isNode).mp isPath, rfl⟩⟩
    have measured := distance_of_upward canonical endFabric startFabric (Nat.find_spec reached)
      (fun m less => Nat.find_min reached less)
    have same := distance.unique measured
    rw [isNone] at same
    cases same
  · intro isSome
    cases there with
    | none => exact absurd rfl isSome
    | some m =>
      obtain ⟨path, walk, _⟩ := mem_ends_iff.mp
        (ends_upward canonical (ends_symm (hops_symm canonical) distance.1))
      exact ⟨path, (TopologyGraph.operationalPath_iff canonical isNode).mpr walk⟩

/-- What an enumeration offers: nothing between nodes that are not connected, and otherwise walks
over the fabric that are not too long. -/
theorem enumerate_offers {graph : TopologyGraph} {limits : PathLimits}
    (canonical : graph.Canonical) {endpoints : Endpoints} {paths : List Path}
    (ok : enumerate graph limits endpoints = .ok paths) :
    endpoints.Known graph ∧ (paths = [] ↔ ¬ Connected graph endpoints) ∧
      ∀ path ∈ paths, 0 < path.length ∧ path.length ≤ limits.maximumHops ∧
        IsWalk (hops graph) endpoints.source path endpoints.destination := by
  by_cases known : endpoints.Known graph
  · obtain ⟨there, distance, answer⟩ := enumerate_eq limits canonical known
    have positive := (enumerate_solid canonical ok).nonempty
    rw [connected_iff canonical known distance, ok] at *
    refine ⟨known, ?_⟩
    cases there with
    | none =>
      cases answer
      simp
    | some m =>
      simp only at answer
      split at answer
      · cases answer
      · rename_i near
        split at answer
        · cases answer
          refine ⟨?_, ?_⟩
          · simp only [ne_eq, reduceCtorEq, not_false_eq_true, not_true_eq_false, iff_false]
            intro empty
            have reached := ends_symm (hops_symm canonical) distance.1
            obtain ⟨path, walk, length⟩ := mem_ends_iff.mp reached
            have member := mem_walksTo.mpr ⟨walk, length⟩
            rw [← (List.perm_insertionSort (· ≤ ·) _).mem_iff, empty] at member
            cases member
          · intro path member
            have isPositive := positive path member
            rw [(List.perm_insertionSort (· ≤ ·) _).mem_iff] at member
            obtain ⟨walk, length⟩ := mem_walksTo.mp member
            exact ⟨isPositive, length ▸ not_lt.mp near, walk⟩
        · cases answer
  · obtain ⟨what, thrown⟩ := enumerate_unknown limits canonical known
    rw [ok] at thrown
    cases thrown

end Routes

/-! ## Runs -/

/-- How a step of the runtime can change the graph. -/
inductive GraphChange (graph : TopologyGraph) : TopologyGraph → Prop where
  | same : GraphChange graph graph
  | link (id : LinkId) (state : OperationalState) : GraphChange graph (graph.setLinkState id state).2
  | port (id : PortId) (state : OperationalState) : GraphChange graph (graph.setPortState id state).2
  | switch (id : SwitchId) (state : OperationalState) :
      GraphChange graph (graph.setSwitchState id state).2

theorem graphChange_of_dispatched {taken : List TransferCompletion} {event : Event}
    {n n' : Network} (dispatched : Dispatched taken event n n') : GraphChange n.graph n'.graph := by
  cases dispatched with
  | passed _ => exact .same
  | arrived arrives => cases arrives <;> rename_i leaves <;> exact leaves.graph ▸ .same
  | completed completes => cases completes <;> rename_i leaves <;> exact leaves.graph ▸ .same
  | changed changes reconciled =>
    rw [reconciled.graph]
    generalize event.payload = payload at changes
    cases changes with
    | link change _ => exact .link change.link change.state
    | port change => exact .port change.port change.state
    | switch change => exact .switch change.networkSwitch change.state

theorem graphChange_of_effect {d d' : Drive} (effect : Effect d d') :
    GraphChange d.network.graph d'.network.graph := by
  cases effect with
  | quiet _ quiet => exact quiet.graph ▸ .same
  | began event _ _ began => exact began.graph ▸ .same
  | dispatched event _ _ dispatched => exact graphChange_of_dispatched dispatched

theorem GraphChange.built {graph graph' : TopologyGraph} (change : GraphChange graph graph')
    (built : graph.Built) : graph'.Built := by
  cases change with
  | same => exact built
  | link id state => exact .setLinkState id state built
  | port id state => exact .setPortState id state built
  | switch id state => exact .setSwitchState id state built

theorem GraphChange.session {graph graph' : TopologyGraph} (change : GraphChange graph graph')
    {limits : PathLimits} {paths : PathService}
    (reachable : PathSession.Reachable limits ⟨graph, paths⟩) :
    PathSession.Reachable limits ⟨graph', paths⟩ := by
  cases change with
  | same => exact reachable
  | link id state => exact .step reachable (.setLinkState id state)
  | port id state => exact .step reachable (.setPortState id state)
  | switch id state => exact .step reachable (.setSwitchState id state)

/-- A drive of a runtime, with a router that submits to it. -/
structure Routed where
  drive : Drive
  router : Router

namespace Routed

def fabric (r : Routed) : Fabric := ⟨r.drive.network, r.router⟩

/-- The run after the router has left the fabric in another state. -/
def left (r : Routed) (f : Fabric) : Routed :=
  ⟨{ r.drive with network := f.network }, f.router⟩

/-- The runtime takes a step, or the router does. -/
inductive Step : Routed → Routed → Prop where
  | drove {d d' : Drive} {router : Router} : Transport.Step d d' → Step ⟨d, router⟩ ⟨d', router⟩
  | submitted {r : Routed} {f : Fabric} {result : Option SubmittedTransfer}
      (request : RouteRequest) : Fabric.submit request r.fabric = .ok result f → Step r (r.left f)
  | threw {r : Routed} {f : Fabric} {e : Error} (request : RouteRequest) :
      Fabric.submit request r.fabric = .error e f → e.origin ≠ .telemetry → Step r (r.left f)
  | tookDecisions {r : Routed} {f : Fabric} {decisions : List RouteDecision} :
      Fabric.takeDecisions r.fabric = .ok decisions f → Step r (r.left f)

/-- A router is created, now or later, over the graph of a runtime. -/
structure Start (r : Routed) : Prop where
  run : ∃ start, Initial start ∧ start.network.graph.Built ∧
    Relation.ReflTransGen Transport.Step start r.drive
  created : ∃ registry configuration,
    Router.create r.drive.network.graph registry configuration = .ok r.router

def Reachable (r : Routed) : Prop := ∃ start, Start start ∧ Relation.ReflTransGen Step start r

/-- What holds all along a run: the runtime is one that can be reached, and so is the path service. -/
structure Invariant (r : Routed) : Prop where
  drive : Transport.Reachable r.drive
  paths : PathSession.Reachable r.router.configuration.paths
    ⟨r.drive.network.graph, r.router.paths⟩
  hops : r.router.configuration.paths.maximumHops ≤ 1024

theorem reachable_driven {d d' : Drive} (reachable : Transport.Reachable d)
    (steps : Relation.ReflTransGen Transport.Step d d') : Transport.Reachable d' := by
  obtain ⟨start, initial, before⟩ := reachable
  exact ⟨start, initial, before.trans steps⟩

theorem built_driven {d d' : Drive} (reachable : Transport.Reachable d)
    (built : d.network.graph.Built) (steps : Relation.ReflTransGen Transport.Step d d') :
    d'.network.graph.Built := by
  induction steps with
  | refl => exact built
  | tail before last ih =>
    have effect := (last.effect (reachable_driven reachable before).invariant).2
    exact (graphChange_of_effect effect).built ih

theorem Start.invariant {r : Routed} (start : Start r) : Invariant r := by
  obtain ⟨⟨first, initial, built, steps⟩, registry, configuration, created⟩ := start
  have fresh : Transport.Reachable first := ⟨first, initial, .refl⟩
  unfold Router.create at created
  cases isPolicy : registry.create configuration.policy with
  | error e =>
    rw [isPolicy] at created
    cases created
  | ok policy =>
    rw [isPolicy, ok_bind] at created
    cases isPaths : PathService.create r.drive.network.graph configuration.paths with
    | error e =>
      rw [isPaths] at created
      cases created
    | ok paths =>
      rw [isPaths, ok_bind] at created
      split at created
      · cases created
      · obtain ⟨drive, router⟩ := r
        cases created
        refine ⟨reachable_driven fresh steps, .created (built_driven fresh built steps) isPaths, ?_⟩
        unfold PathService.create at isPaths
        split at isPaths
        · cases isPaths
        · rename_i valid
          simp only [not_or, not_lt] at valid
          exact valid.2.2.1

/-- A submission to the runtime is a step that does not change the graph. -/
theorem Invariant.sent {r : Routed} (invariant : Invariant r) {request : TransferRequest}
    {submitted : SubmittedTransfer} {n : Network}
    (ok : Network.submitTransfer request r.drive.network = .ok submitted n) :
    Transport.Reachable { r.drive with network := n } ∧ n.graph = r.drive.network.graph := by
  refine ⟨reachable_driven invariant.drive (.single (step_submitted ok)), ?_⟩
  have run : (Call.submitTransfer request).run r.drive.network = .ok () n := by
    simp only [Call.run, bind, EStateM.bind, ok]
    rfl
  have answers := wp_of_ok (wp_call invariant.drive.invariant (.submitTransfer request) trivial) run
  exact answers.quiet.graph

theorem Invariant.unsent {r : Routed} (invariant : Invariant r) {request : TransferRequest}
    {e : Error} {n : Network}
    (thrown : Network.submitTransfer request r.drive.network = .error e n) :
    e.origin = .telemetry ∨
      Transport.Reachable { r.drive with network := n } ∧ n.graph = r.drive.network.graph := by
  have run : (Call.submitTransfer request).run r.drive.network = .error e n := by
    simp only [Call.run, bind, EStateM.bind, thrown]
  cases wp_of_error (wp_call invariant.drive.invariant (.submitTransfer request) trivial) run with
  | inl origin => exact .inl origin
  | inr answers =>
    by_cases origin : e.origin = .telemetry
    · exact .inl origin
    · refine .inr ⟨reachable_driven invariant.drive (.single ?_), answers.quiet.graph⟩
      exact .threw (.submitTransfer request) trivial run origin

/-- A report changes the instrumentation only. -/
theorem reachable_probed {d : Drive} {n : Network} (probe : Instrumentation)
    (reachable : Transport.Reachable { d with network := n }) :
    Transport.Reachable { d with network := n.probed probe } :=
  reachable_driven reachable (.single (.observed probe))

/-- Nothing a submission does is more than a step of the runtime and a lookup. -/
theorem Invariant.submits {r : Routed} (invariant : Invariant r) {request : RouteRequest}
    {result : EStateM.Result Error Fabric (Option SubmittedTransfer)} :
    Fabric.Submits r.fabric request result →
    match result with
    | .ok _ f => Invariant (r.left f)
    | .error e f => e.origin = .telemetry ∨ Invariant (r.left f) := by
  intro submits
  have looked : ∀ {candidates paths},
      PathService.lookup r.drive.network.graph request.endpoints r.router.paths =
        .ok candidates paths → ∀ graph, graph = r.drive.network.graph →
      PathSession.Reachable r.router.configuration.paths ⟨graph, paths⟩ := by
    intro candidates paths ok graph same
    exact same ▸ .step invariant.paths (.answered ok)
  cases submits with
  | refused e _ => exact .inr invariant
  | unanswered thrown =>
    exact .inr ⟨invariant.drive, .step invariant.paths (.threw thrown), invariant.hops⟩
  | missed ids probe ok =>
    exact ⟨reachable_probed probe invariant.drive, looked ok _ rfl, invariant.hops⟩
  | missedUncounted ok _ => exact .inr ⟨invariant.drive, looked ok _ rfl, invariant.hops⟩
  | unchosen e ok _ => exact .inr ⟨invariant.drive, looked ok _ rfl, invariant.hops⟩
  | unsent ok _ thrown =>
    cases invariant.unsent thrown with
    | inl origin => exact .inl origin
    | inr unsent => exact .inr ⟨unsent.1, looked ok _ unsent.2, invariant.hops⟩
  | sent score reason ids probe ok _ submitted =>
    obtain ⟨reachable, graph⟩ := invariant.sent submitted
    exact ⟨reachable_probed probe reachable, looked ok _ graph, invariant.hops⟩
  | sentUncounted ok _ submitted _ =>
    obtain ⟨reachable, graph⟩ := invariant.sent submitted
    exact .inr ⟨reachable, looked ok _ graph, invariant.hops⟩
  | unreported origin => exact .inl origin

theorem Invariant.step {r r' : Routed} (invariant : Invariant r) (step : Step r r') :
    Invariant r' := by
  cases step with
  | drove driven =>
    have effect := (driven.effect invariant.drive.invariant).2
    exact ⟨reachable_driven invariant.drive (.single driven),
      (graphChange_of_effect effect).session invariant.paths, invariant.hops⟩
  | submitted request ok =>
    have submits := Fabric.submits r.fabric request
    rw [ok] at submits
    exact invariant.submits submits
  | threw request thrown notTelemetry =>
    have submits := Fabric.submits r.fabric request
    rw [thrown] at submits
    exact (invariant.submits submits).resolve_left notTelemetry
  | tookDecisions ok =>
    cases ok
    exact ⟨invariant.drive, invariant.paths, invariant.hops⟩

theorem Reachable.invariant {r : Routed} (reachable : Reachable r) : Invariant r := by
  obtain ⟨start, started, steps⟩ := reachable
  induction steps with
  | refl => exact started.invariant
  | tail _ step ih => exact ih.step step

/-! ## Agreement -/

/-- The decision on record is about the transfer that was created. -/
structure Matches (n : Network) (request : RouteRequest) (decision : RouteDecision)
    (submitted : SubmittedTransfer) (n' : Network) : Prop where
  asked : decision.request = request
  transfer : decision.transfer = some submitted.id
  created : n.transport.transfers.find? submitted.id = none ∧
    ∃ record, n'.transport.transfers.find? submitted.id = some record ∧
      record.chunks = submitted.chunks.map SubmittedChunk.id
  routes : ∀ chunk ∈ submitted.chunks, ∃ record, n'.transport.chunks.find? chunk.id = some record ∧
    record.chunk.transfer = submitted.id ∧ record.route = decision.path
  endpoints : validateRoute n decision.path (some request.endpoints.source)
    (some request.endpoints.destination) = .ok ()
  usable : ∀ id ∈ decision.path, Usable n.graph id

/-- Nothing stops the router from making a decision about a request. -/
structure Answerable (r : Routed) (request : RouteRequest) : Prop where
  source : r.drive.network.graph.contains request.endpoints.source = true ∧
    request.endpoints.source.kind ≠ .gpu
  destination : r.drive.network.graph.contains request.endpoints.destination = true ∧
    request.endpoints.destination.kind ≠ .gpu
  distinct : request.endpoints.source ≠ request.endpoints.destination
  nonzero : request.bytes ≠ 0 ∧ request.maximumChunkBytes ≠ 0
  room : r.router.decisions.length ≠ r.router.configuration.maximumDecisions
  identified : r.router.decisionIds.exhausted = false

/-- What the path service offers, the runtime accepts. -/
theorem Invariant.offers {r : Routed} (invariant : Invariant r)
    (configured : Configured r.drive.network)
    (short : r.router.configuration.paths.maximumHops ≤
      r.drive.network.transport.limits.maximumRouteHops) {endpoints : Endpoints}
    {paths : List Path} {service : PathService}
    (ok : r.router.paths.lookup r.drive.network.graph endpoints = .ok paths service) :
    (paths = [] ↔ ¬ Connected r.drive.network.graph endpoints) ∧ ∀ path ∈ paths,
      validateRoute r.drive.network path (some endpoints.source) (some endpoints.destination) =
        .ok () ∧ ∀ id ∈ path, Usable r.drive.network.graph id := by
  obtain ⟨canonical, sound, sameLimits⟩ := invariant.paths.invariant
  have limits : r.router.paths.limits = r.router.configuration.paths := sameLimits
  obtain ⟨_, _, enumerated⟩ := wp_of_ok (wp_lookup endpoints canonical sound) ok
  obtain ⟨_, nothing, walks⟩ := enumerate_offers canonical enumerated
  refine ⟨nothing, ?_⟩
  intro path member
  obtain ⟨positive, few, walk⟩ := walks path member
  rw [limits] at few
  have hops := invariant.hops
  refine validateRoute_of_walk canonical configured walk positive (few.trans short) ?_
  have range : 1024 ≤ maxU32 := by decide
  omega

/-- Between two nodes that are not connected a lookup answers, with nothing. -/
theorem Invariant.nothing {r : Routed} (invariant : Invariant r) {request : RouteRequest}
    (answerable : r.Answerable request)
    (apart : ¬ Connected r.drive.network.graph request.endpoints) :
    ∃ service, r.router.paths.lookup r.drive.network.graph request.endpoints = .ok [] service := by
  obtain ⟨canonical, sound, _⟩ := invariant.paths.invariant
  have known : request.endpoints.Known r.drive.network.graph :=
    ⟨(mem_fabricNodes canonical).mpr
        ⟨answerable.source.2, canonical.contains.mp answerable.source.1⟩,
      (mem_fabricNodes canonical).mpr
        ⟨answerable.destination.2, canonical.contains.mp answerable.destination.1⟩,
      answerable.distinct⟩
  obtain ⟨there, distance, enumerated⟩ := enumerate_eq r.router.paths.limits canonical known
  have unreached : there = none := by
    by_contra reached
    exact apart ((connected_iff canonical known distance).mpr reached)
  subst unreached
  have looked := wp_lookup request.endpoints canonical sound
  cases outcome : r.router.paths.lookup r.drive.network.graph request.endpoints with
  | ok paths service =>
    have same := (wp_of_ok looked outcome).2.2
    rw [enumerated] at same
    cases same
    exact ⟨service, rfl⟩
  | error e service =>
    have same := (wp_of_error looked outcome).2.2.1
    rw [enumerated] at same
    cases same

theorem Invariant.finds_nothing {r : Routed} (invariant : Invariant r) {request : RouteRequest}
    (answerable : r.Answerable request)
    (apart : ¬ Connected r.drive.network.graph request.endpoints)
    {result : EStateM.Result Error Fabric (Option SubmittedTransfer)} :
    Fabric.Submits r.fabric request result →
    match result with
    | .ok result _ => result = none
    | .error e _ => e.origin = .telemetry := by
  intro submits
  obtain ⟨service, nothing⟩ := invariant.nothing answerable apart
  have looked : PathService.lookup r.fabric.network.graph request.endpoints
      r.fabric.router.paths = .ok [] service := nothing
  cases submits with
  | refused e reason =>
    rcases reason with zero | zero | full
    · exact absurd zero answerable.nonzero.1
    · exact absurd zero answerable.nonzero.2
    · exact absurd full answerable.room
  | missed ids probe _ => rfl
  | missedUncounted _ exhausted =>
    have identified : r.fabric.router.decisionIds.exhausted = false := answerable.identified
    simp [identified] at exhausted
  | unreported origin => exact origin
  -- the other ways need another answer of the path service
  | unanswered other => simp [looked] at other
  | unchosen e other some_candidates =>
    rw [looked] at other
    cases other
    exact absurd rfl some_candidates
  | unsent other member _ | sent _ _ _ _ other member _ | sentUncounted other member _ _ =>
    rw [looked] at other
    cases other
    cases member

/-- How a submission may end: nothing was found and only a decision is new, or the one new decision
is about the new transfer, or a throw has changed nothing.  The last way is a throw after the transfer
was created: there was no number left for the decision. -/
def Outcome (r : Routed) (request : RouteRequest) :
    EStateM.Result Error Fabric (Option SubmittedTransfer) → Prop
  | .ok none f => ¬ Connected r.drive.network.graph request.endpoints ∧
    f.network.transport = r.drive.network.transport ∧
    f.network.kernel.sim = r.drive.network.kernel.sim ∧
    ∃ decision, f.router.decisions = r.router.decisions ++ [decision] ∧
      decision.request = request ∧ decision.transfer = none ∧ decision.path = []
  | .ok (some submitted) f => Connected r.drive.network.graph request.endpoints ∧
    ∃ decision, f.router.decisions = r.router.decisions ++ [decision] ∧
      Matches r.drive.network request decision submitted f.network
  | .error e f => e.origin = .telemetry ∨
    f.network = r.drive.network ∧ f.router.decisions = r.router.decisions ∨
    e = Fabric.noDecisionId ∧ r.router.decisionIds.exhausted = true ∧
      ∃ path submitted, Network.submitTransfer (Fabric.transferOf request path)
        r.drive.network = .ok submitted f.network

/-- The record of a decision about an accepted transfer. -/
theorem matches_of_accepted {n n' : Network} {request : RouteRequest} {path : Path}
    {submitted : SubmittedTransfer} {decision : RouteDecision} (probe : Instrumentation)
    (accepted : Network.Accepted n (Fabric.transferOf request path) submitted n')
    (usable : ∀ id ∈ path, Usable n.graph id) (isPath : decision.path = path)
    (asked : decision.request = request) (transfer : decision.transfer = some submitted.id) :
    Matches n request decision submitted (n'.probed probe) := by
  subst isPath
  refine ⟨asked, transfer, ⟨accepted.newTransfer, _, accepted.entry, rfl⟩, ?_, accepted.valid,
    usable⟩
  intro chunk member
  obtain ⟨ordinal, listed⟩ := List.getElem?_of_mem member
  exact ⟨_, accepted.chunks ordinal chunk listed, rfl, rfl⟩

theorem Invariant.outcome {r : Routed} (invariant : Invariant r)
    (configured : Configured r.drive.network)
    (short : r.router.configuration.paths.maximumHops ≤
      r.drive.network.transport.limits.maximumRouteHops) {request : RouteRequest}
    (fits : request.bytes ≤ maxU64)
    (enough : r.drive.network.kernel.sim.eventIds.canGenerate
      ((request.bytes + request.maximumChunkBytes - 1) / request.maximumChunkBytes) = true)
    (context : r.drive.HasContext)
    {result : EStateM.Result Error Fabric (Option SubmittedTransfer)}
    (submits : Fabric.Submits r.fabric request result) : r.Outcome request result := by
  cases submits with
  | refused e _ => exact .inr (.inl ⟨rfl, rfl⟩)
  | unanswered thrown => exact .inr (.inl ⟨rfl, rfl⟩)
  | missed ids probe looked =>
    exact ⟨(invariant.offers configured short looked).1.mp rfl, rfl, rfl, _, rfl, rfl, rfl, rfl⟩
  | missedUncounted looked _ => exact .inr (.inl ⟨rfl, rfl⟩)
  | unchosen e looked _ => exact .inr (.inl ⟨rfl, rfl⟩)
  | unsent looked _ thrown =>
    have atomic := unchanged_of_throw invariant.drive fits enough context thrown
    cases atomic with
    | inl origin => exact .inl origin
    | inr same => exact .inr (.inl ⟨same, rfl⟩)
  | @sent _ _ path _ _ score reason ids probe looked member ok =>
    have whole : (Fabric.transferOf request path).bytes ≤ maxU64 := fits
    obtain ⟨nothing, offered⟩ := invariant.offers configured short looked
    have connected : Connected r.drive.network.graph request.endpoints := by
      by_contra apart
      rw [nothing.mpr apart] at member
      cases member
    have accepted := accepted_of_ok invariant.drive whole ok
    exact ⟨connected, _, rfl,
      matches_of_accepted probe accepted (offered _ member).2 rfl rfl rfl⟩
  | sentUncounted looked _ ok exhausted => exact .inr (.inr ⟨rfl, exhausted, _, _, ok⟩)
  | unreported origin => exact .inl origin

/-- In every state of a run in which all fabric arcs are configured and the router asks for no more
hops than the runtime takes: every path on offer is a valid and operational route; a submission
between nodes that are not connected finds nothing; and every submission ends in a way that the
decisions and the network agree on. -/
theorem router_transport_agree (r : Routed) (reachable : Reachable r)
    (configured : Configured r.drive.network)
    (short : r.router.configuration.paths.maximumHops ≤
      r.drive.network.transport.limits.maximumRouteHops) :
    (∀ endpoints paths service,
      r.router.paths.lookup r.drive.network.graph endpoints = .ok paths service →
      ∀ path ∈ paths, validateRoute r.drive.network path (some endpoints.source)
        (some endpoints.destination) = .ok () ∧ ∀ id ∈ path, Usable r.drive.network.graph id) ∧
    (∀ request, r.Answerable request → ¬ Connected r.drive.network.graph request.endpoints →
      match Fabric.submit request r.fabric with
      | .ok result _ => result = none
      | .error e _ => e.origin = .telemetry) ∧
    ∀ request : RouteRequest, request.bytes ≤ maxU64 →
      r.drive.network.kernel.sim.eventIds.canGenerate
        ((request.bytes + request.maximumChunkBytes - 1) / request.maximumChunkBytes) = true →
      r.drive.HasContext →
      r.Outcome request (Fabric.submit request r.fabric) := by
  have invariant := reachable.invariant
  refine ⟨fun endpoints paths service ok => (invariant.offers configured short ok).2, ?_, ?_⟩
  · intro request answerable apart
    exact invariant.finds_nothing answerable apart (Fabric.submits r.fabric request)
  · intro request fits enough context
    exact invariant.outcome configured short fits enough context (Fabric.submits r.fabric request)

/-! ## A transfer across a switch -/

def starConfigurations : List DirectedLinkConfiguration :=
  [⟨⟨⟨0⟩, .aToB⟩, 8000000000, 10, 4096, none⟩, ⟨⟨⟨0⟩, .bToA⟩, 8000000000, 10, 4096, none⟩,
    ⟨⟨⟨1⟩, .aToB⟩, 8000000000, 10, 4096, none⟩, ⟨⟨⟨1⟩, .bToA⟩, 8000000000, 10, 4096, none⟩]

def starTransport : TransportRuntime :=
  match TransportRuntime.create PathSession.star starConfigurations {} with
  | .ok transport => transport
  | .error _ => {}

def starDrive : Drive where
  network :=
    { kernel := joinedDrive.network.kernel
      graph := PathSession.star
      transport := starTransport }

theorem defaultCache_fits : 262144 ≤ maxU64 := by decide

def starRouter : Router where
  configuration := { policy := "least-loaded", paths := { fits := defaultCache_fits } }
  policy := baselinePolicy "least-loaded" .leastLoaded
  paths := { limits := { fits := defaultCache_fits }, revision := 0 }

/-- A hundred bytes from one NIC to the other. -/
def starRequest : RouteRequest := ⟨7, PathSession.acrossStar, 100, 64⟩

theorem starDrive_initial : Initial starDrive where
  fresh := ⟨_, rfl⟩
  created := by
    refine ⟨starConfigurations, {}, ?_⟩
    have accepted : (match TransportRuntime.create PathSession.star starConfigurations {} with
        | .ok _ => true
        | .error _ => false) = true := by decide +kernel
    show TransportRuntime.create PathSession.star starConfigurations {} = .ok starTransport
    unfold starTransport
    split
    · rename_i transport ok
      exact ok
    · rename_i thrown
      rw [thrown] at accepted
      cases accepted
  idle := rfl
  nothing := rfl

theorem starRouted_reachable : Reachable ⟨starDrive, starRouter⟩ := by
  refine ⟨_, ⟨⟨starDrive, starDrive_initial, PathSession.star_built, .refl⟩, ?_⟩, .refl⟩
  exact ⟨⟨OrderedMap.empty.insert "least-loaded"
    fun _ => some (baselinePolicy "least-loaded" .leastLoaded)⟩, { policy := "least-loaded" }, rfl⟩

theorem starDrive_configured : Configured starDrive.network := by
  have all : (starDrive.network.graph.links.all fun link =>
      starDrive.network.transport.services.contains ⟨link.id, .aToB⟩ &&
        starDrive.network.transport.services.contains ⟨link.id, .bToA⟩) = true := by decide +kernel
  intro link isLink _ direction
  have both := List.all_eq_true.mp all link isLink
  rw [Bool.and_eq_true] at both
  cases direction with
  | aToB => exact both.1
  | bToA => exact both.2

theorem starRequest_runs : (match Fabric.submit starRequest ⟨starDrive.network, starRouter⟩ with
    | .ok (some submitted) _ => submitted.chunks.map SubmittedChunk.bytes == [64, 36]
    | _ => false) = true := by decide +kernel

theorem router_transport_agree_star : ∃ submitted f,
    Fabric.submit starRequest ⟨starDrive.network, starRouter⟩ = .ok (some submitted) f ∧
      submitted.chunks.map SubmittedChunk.bytes = [64, 36] ∧
      Connected PathSession.star PathSession.acrossStar ∧
      ∃ decision, f.router.decisions = [decision] ∧
        Matches starDrive.network starRequest decision submitted f.network := by
  have runs := starRequest_runs
  have agree : ∀ r request submitted f, Reachable r → Configured r.drive.network →
      r.router.configuration.paths.maximumHops ≤
        r.drive.network.transport.limits.maximumRouteHops → request.bytes ≤ maxU64 →
      r.drive.network.kernel.sim.eventIds.canGenerate ((request.bytes +
        request.maximumChunkBytes - 1) / request.maximumChunkBytes) = true →
      r.drive.HasContext →
      Fabric.submit request r.fabric = .ok (some submitted) f →
      r.Outcome request (.ok (some submitted) f) := by
    intro r request submitted f reachable configured short fits enough context ok
    have outcome := (router_transport_agree r reachable configured short).2.2 request fits enough
      context
    rwa [ok] at outcome
  split at runs
  · rename_i submitted f ok
    have outcome := agree ⟨starDrive, starRouter⟩ starRequest submitted f starRouted_reachable
      starDrive_configured (by decide +kernel) (by decide) (by decide +kernel)
      (by simp [Drive.HasContext, starDrive, joinedDrive]) ok
    exact ⟨submitted, f, ok, by simpa using runs, outcome⟩
  · cases runs

end Routed

end NexusLab.Routing
