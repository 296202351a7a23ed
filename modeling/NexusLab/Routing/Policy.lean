import NexusLab.Routing.Paths
import NexusLab.Transport.Runtime
import Mathlib.Data.String.Basic

/-! # Routing policies

A policy picks one of the shortest paths between two endpoints.  Four policies come with the
registry; others can be registered, so a policy is any function of what the router shows it. -/

namespace NexusLab.Routing

open Foundation NexusLab.Topology Transport Sim

structure RouteRequest where
  flow : Nat
  endpoints : Endpoints
  bytes : ByteCount
  maximumChunkBytes : ByteCount
deriving DecidableEq

structure LinkLoad where
  outstandingBytes : ByteCount
  bandwidth : BitsPerSecond
  propagation : SimDurationNs
deriving DecidableEq

/-- `add` of the source: a sum of scores, checked. -/
def addScore (left right : Nat) : Except Error Nat :=
  if right > maxU64 - left then .error (.overflowError "routing score overflow")
  else .ok (left + right)

/-- What a policy may read of the fabric. -/
abbrev FabricView := DirectedLinkId → Except Error LinkLoad

/-- `FabricView::read` over a runtime. -/
def fabricView (runtime : TransportRuntime) : FabricView := fun link =>
  match runtime.services.find? link with
  | none => .error (.invalidArgument "routing path uses unconfigured transport arc")
  | some service => do
    let queue := service.queue
    let outstandingBytes ← addScore queue.snapshot.waitingBytes
      (match queue.active with
        | none => 0
        | some active => active.bytes)
    return ⟨outstandingBytes, queue.configuration.bandwidth, queue.configuration.propagationDelay⟩

structure RouteChoice where
  candidate : Nat
  score : Nat
  reason : String
deriving DecidableEq

structure PolicyInput where
  request : RouteRequest
  seed : Nat
  candidates : List Path
  fabric : FabricView

structure RoutingPolicy where
  name : String
  version : Nat
  choose : PolicyInput → Except Error RouteChoice

/-! ## The policies of the registry -/

inductive Kind where
  | shortest
  | ecmp
  | leastLoaded
  | queueAware
deriving DecidableEq

/-- What one more arc adds to the score of a path. -/
def scoreArc (input : PolicyInput) (kind : Kind) (result : Nat) (link : DirectedLinkId) :
    Except Error Nat := do
  let load ← input.fabric link
  if kind = .leastLoaded then addScore result load.outstandingBytes
  else
    let chunk := min input.request.bytes input.request.maximumChunkBytes
    let bytes ← addScore load.outstandingBytes chunk
    match serializationDelay bytes load.bandwidth with
    | none => throw (.overflowError "queue-aware delay overflow")
    | some delay =>
      let hop ← addScore delay load.propagation
      addScore result hop

def score (path : Path) (input : PolicyInput) (kind : Kind) : Except Error Nat :=
  path.foldlM (scoreArc input kind) 0

/-- One byte into the hash. -/
def hashByte (hash byte : Nat) : Nat := U64.mul (hash ^^^ byte) 1099511628211

/-- A word into the hash, its lowest byte first. -/
def hashField (hash field : Nat) : Nat :=
  [0, 8, 16, 24, 32, 40, 48, 56].foldl (fun hash shift => hashByte hash ((field >>> shift) &&& 255))
    hash

def ecmpHash (request : RouteRequest) (seed : Nat) : Nat :=
  [1, seed, request.flow, request.endpoints.source.kind.value, request.endpoints.source.value,
    request.endpoints.destination.kind.value, request.endpoints.destination.value].foldl hashField
    14695981039346656037

/-- The first of the candidates that has the least score; `index` counts those before. -/
def chooseLeast (input : PolicyInput) (kind : Kind) :
    List Path → Nat → RouteChoice → Except Error RouteChoice
  | [], _, best => .ok best
  | path :: paths, index, best => do
    let candidateScore ← score path input kind
    if candidateScore < best.score then
      chooseLeast input kind paths (index + 1) { best with candidate := index, score := candidateScore }
    else chooseLeast input kind paths (index + 1) best

def baselineChoose (kind : Kind) (input : PolicyInput) : Except Error RouteChoice :=
  if input.candidates = [] ∨ input.request.bytes = 0 ∨ input.request.maximumChunkBytes = 0 then
    .error (.invalidArgument "policy requires candidates and nonzero transfer quantities")
  else match kind, input.candidates with
    | _, [] => .error (.undefinedBehavior "front of an empty span")
    -- the candidates are sorted, so the first one is canonical
    | .shortest, _ => .ok ⟨0, 0, "canonical minimum-hop path"⟩
    | .ecmp, candidates =>
      .ok ⟨ecmpHash input.request input.seed % candidates.length, 0,
        "stable flow hash over all equal-hop paths"⟩
    | kind, first :: rest => do
      -- the first of equal scores is kept
      let best ← score first input kind
      chooseLeast input kind rest 1 ⟨0, best,
        if kind = .leastLoaded then "minimum outstanding byte sum"
        else "minimum estimated first-chunk delay ns"⟩

def baselinePolicy (name : String) (kind : Kind) : RoutingPolicy :=
  { name, version := 1, choose := baselineChoose kind }

/-! ## The registry -/

/-- A factory may return no policy. -/
abbrev Factory := Unit → Option RoutingPolicy

structure PolicyRegistry where
  factories : OrderedMap String Factory := .empty

namespace PolicyRegistry

/-- Registers a factory under a name; `none` is an empty function object. -/
def add (name : String) (factory : Option Factory) (registry : PolicyRegistry) :
    Except Error PolicyRegistry :=
  match factory with
  | none => .error (.invalidArgument "invalid or duplicate routing policy registration")
  | some factory =>
    if name = "" ∨ registry.factories.contains name = true then
      .error (.invalidArgument "invalid or duplicate routing policy registration")
    else .ok { registry with factories := registry.factories.insert name factory }

/-- The registry with the four policies. -/
def initial : Except Error PolicyRegistry := do
  let registry ← add "shortest-path"
    (some fun _ => some (baselinePolicy "shortest-path" .shortest)) {}
  let registry ← add "ecmp" (some fun _ => some (baselinePolicy "ecmp" .ecmp)) registry
  let registry ← add "least-loaded"
    (some fun _ => some (baselinePolicy "least-loaded" .leastLoaded)) registry
  add "queue-aware" (some fun _ => some (baselinePolicy "queue-aware" .queueAware)) registry

def create (registry : PolicyRegistry) (name : String) : Except Error RoutingPolicy :=
  match registry.factories.find? name with
  | none => .error (.invalidArgument "unknown routing policy")
  | some factory =>
    match factory () with
    | none => .error (.invalidArgument "routing factory returned invalid policy identity")
    | some policy =>
      if policy.name ≠ name ∨ policy.version = 0 then
        .error (.invalidArgument "routing factory returned invalid policy identity")
      else .ok policy

def names (registry : PolicyRegistry) : List String := registry.factories.keys

end PolicyRegistry

/-! ## What the policies choose -/

section Choices

variable {input : PolicyInput} {kind : Kind} {choice : RouteChoice}

end Choices

end NexusLab.Routing
