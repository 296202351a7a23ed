import NexusLab.Routing.Policy

/-! # The router

A router looks up the shortest paths for a request, lets its policy choose one and submits the
transfer along it.  It keeps a record of every decision until somebody takes the records away. -/

namespace NexusLab.Routing

open Foundation NexusLab.Topology Transport Sim Telemetry

structure RoutingConfiguration where
  policy : String := "ecmp"
  seed : Nat := 42
  paths : PathLimits := {}
  maximumDecisions : Nat := 100000

structure RouteDecision where
  request : RouteRequest
  policy : String
  version : Nat
  timestamp : SimTimeNs
  operationalRevision : Nat
  candidates : Nat
  path : Path
  score : Nat
  reason : String
  transfer : Option TransferId
deriving DecidableEq

structure Router where
  configuration : RoutingConfiguration
  policy : RoutingPolicy
  paths : PathService
  decisions : List RouteDecision := []
  decisionIds : IdGenerator := {}

namespace Router

def create (graph : TopologyGraph) (registry : PolicyRegistry)
    (configuration : RoutingConfiguration := {}) : Except Error Router := do
  let policy ← registry.create configuration.policy
  let paths ← PathService.create graph configuration.paths
  if configuration.maximumDecisions = 0 then
    throw (.invalidArgument "routing decision limit must be positive")
  else return { configuration, policy, paths }

end Router

/-- A router with the network it submits to. -/
structure Fabric where
  network : Network
  router : Router

namespace Fabric

def networkLens : Lens Fabric Network where
  get := network
  set n f := { f with network := n }
  get_set _ _ := rfl
  set_get _ := rfl
  set_set _ _ _ := rfl

def pathsLens : Lens Fabric PathService where
  get f := f.router.paths
  set paths f := { f with router := { f.router with paths } }
  get_set _ _ := rfl
  set_get _ := rfl
  set_set _ _ _ := rfl

def nextDecisionId : Action Fabric RoutingDecisionId := do
  let drawn ← fromExcept
    ((← get).router.decisionIds.next "routing decision ID sequence exhausted")
  modify fun f => { f with router := { f.router with decisionIds := drawn.2 } }
  return ⟨drawn.1⟩

def emitDecision (decision : RouteDecision) (outcome : RoutingDecisionOutcome)
    (id : RoutingDecisionId) : Action Fabric Unit :=
  zoom networkLens (Network.observe fun n => do
    let correlation ← fromExcept n.kernel.eventCorrelation
    let correlation := { correlation with
      transfer := decision.transfer, routingDecision := some id }
    Instrumentation.record n.now correlation (.routingDecision
      ⟨id, decision.policy, decision.version, decision.operationalRevision, decision.candidates,
        decision.path, decision.score, decision.reason, decision.transfer, outcome⟩)
    let labels ← fromExcept (MetricLabels.ofList
      [⟨.policy, policyLabelValue decision.policy⟩, ⟨.outcome, outcome.value⟩])
    Instrumentation.record n.now correlation (.counter ⟨.routingDecisionTotal, labels, 1⟩))

/-- A decision gets its number, is reported and goes on record. -/
def conclude (decision : RouteDecision) (outcome : RoutingDecisionOutcome) :
    Action Fabric Unit := do
  let id ← nextDecisionId
  emitDecision decision outcome id
  modify fun f => { f with router :=
    { f.router with decisions := f.router.decisions ++ [decision] } }

def submit (request : RouteRequest) : Action Fabric (Option SubmittedTransfer) := do
  throwIf (request.bytes = 0 ∨ request.maximumChunkBytes = 0)
    (.invalidArgument "routing requires nonzero transfer quantities")
  let f ← get
  throwIf (f.router.decisions.length = f.router.configuration.maximumDecisions)
    (.lengthError "drain routing decisions before submitting more work")
  -- what is found stays cached even if the submission fails later
  let candidates ← zoom pathsLens (PathService.lookup f.network.graph request.endpoints)
  let decision : RouteDecision :=
    { request
      policy := f.router.policy.name
      version := f.router.policy.version
      timestamp := f.network.now
      operationalRevision := f.network.graph.operationalRevision
      candidates := candidates.length
      path := []
      score := 0
      reason := "no operational fabric path"
      transfer := none }
  if candidates = [] then
    conclude decision .noRoute
    return none
  else
    let choice ← fromExcept (f.router.policy.choose
      ⟨request, f.router.configuration.seed, candidates, fabricView f.network.transport⟩)
    match candidates[choice.candidate]? with
    -- the policy may be a custom one
    | none => throw (.invalidArgument "routing policy returned invalid candidate index")
    | some path =>
      let transfer ← zoom networkLens (Network.submitTransfer
        ⟨request.endpoints.source, request.endpoints.destination, request.bytes,
          request.maximumChunkBytes, path⟩)
      -- recorded only after the transport has accepted
      conclude { decision with
        path, score := choice.score, reason := choice.reason, transfer := some transfer.id }
        .selected
      return some transfer

def takeDecisions : Action Fabric (List RouteDecision) := do
  let f ← get
  set { f with router := { f.router with decisions := [] } }
  return f.router.decisions

end Fabric

end NexusLab.Routing
