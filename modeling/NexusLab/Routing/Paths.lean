import NexusLab.Foundation.OrderedMap
import NexusLab.Foundation.Search
import NexusLab.Topology.Graph
import Mathlib.Data.List.Lex
import Mathlib.Data.List.Sort

/-! # Shortest paths and their cache

`enumerate` measures the distance of every node from the destination by breadth-first search and
then walks from the source, always closer to the destination, which lists all shortest paths.
`PathService` caches complete answers, first in first out under two limits, and forgets everything
when the graph has another operational revision. -/

namespace NexusLab.Routing

open Foundation NexusLab.Topology

abbrev Path := List DirectedLinkId

structure Endpoints where
  source : NodeId
  destination : NodeId
deriving DecidableEq

def Endpoints.key (e : Endpoints) : NodeId ×ₗ NodeId := toLex (e.source, e.destination)

theorem Endpoints.key_injective : Function.Injective Endpoints.key := by
  intro a b same
  have pair : (a.source, a.destination) = (b.source, b.destination) := toLex.injective same
  obtain ⟨source, destination⟩ := a
  cases pair
  rfl

instance : LinearOrder Endpoints := LinearOrder.lift' Endpoints.key Endpoints.key_injective

/-- Limits are words of the source; only the range of the last one matters. -/
structure PathLimits where
  maximumPaths : Nat := 64
  maximumHops : Nat := 64
  maximumCachedPairs : Nat := 1024
  maximumCachedRouteEntries : Nat := 262144
  fits : maximumCachedRouteEntries ≤ maxU64 := by decide
deriving DecidableEq

structure CacheStatistics where
  hits : Nat := 0
  misses : Nat := 0
  invalidations : Nat := 0
  pairs : Nat := 0
  paths : Nat := 0
  routeEntries : Nat := 0
deriving DecidableEq

structure PathService where
  limits : PathLimits
  revision : Nat
  statistics : CacheStatistics := {}
  cache : OrderedMap Endpoints (List Path) := .empty
  order : List Endpoints := []

/-! ## Distances -/

def index (graph : TopologyGraph) (node : NodeId) : Except Error Nat :=
  if node.kind = .nic ∧ (graph.findNic ⟨node.value⟩).isSome then .ok node.value
  else if node.kind = .switch ∧ (graph.findSwitch ⟨node.value⟩).isSome then
    .ok (graph.nics.length + node.value)
  else .error (.invalidArgument "routing endpoint must be a known NIC or switch")

/-- Distances by index; `none` where the source has its `unreachable`. -/
abbrev Distances := List (Option Nat)

/-- The end of an arc that a path may use; `none` when the arc is to be skipped. -/
def neighbor (graph : TopologyGraph) (arc : DirectedLink) : Except Error (Option NodeId) :=
  match graph.findLink arc.id.link with
  | none => .error (.undefinedBehavior "null link")
  | some link =>
    if link.kind ≠ .fabric ∨ graph.isOperational arc = false then .ok none
    else match graph.findPort arc.destination with
      | none => .error (.undefinedBehavior "null port")
      | some port => .ok (some port.owner)

/-- One arc of the node that the search is at. -/
def visit (graph : TopologyGraph) (node : NodeId) (search : Distances × List NodeId)
    (arc : DirectedLink) : Except Error (Distances × List NodeId) := do
  match ← neighbor graph arc with
  | none => return search
  | some next =>
    let there ← index graph next
    match search.1.getD there none with
    | some _ => return search
    | none =>
      let here ← index graph node
      return (search.1.set there ((search.1.getD here none).map (· + 1)), search.2 ++ [next])

/-- One node off the frontier. -/
def spread (graph : TopologyGraph) (distances : Distances) (node : NodeId)
    (frontier : List NodeId) : Except Error (Distances × List NodeId) := do
  let arcs ← graph.outgoing node
  arcs.foldlM (visit graph node) (distances, frontier)

/-- The distances of all nodes from a destination, by breadth-first search. -/
def distancesFrom (graph : TopologyGraph) (destination : NodeId) (position : Nat) :
    Except Error Distances :=
  let nodes := graph.nics.length + graph.switches.length
  drain (.undefinedBehavior "more nodes than the graph has") (spread graph) nodes
    ((List.replicate nodes none).set position (some 0)) [destination]

/-! ## Paths -/

/-- Whether the first of two distances is the smaller one; what is unreachable is never closer. -/
def closer : Option Nat → Option Nat → Bool
  | some there, some here => there < here
  | some _, none => true
  | none, _ => false

def distanceOf (graph : TopologyGraph) (distances : Distances) (node : NodeId) :
    Except Error (Option Nat) := do
  let position ← index graph node
  return distances.getD position none

/-- Adds a complete path to the result, within the limits. -/
def keepPath (limits : PathLimits) (path : Path) (result : List Path) : Except Error (List Path) :=
  if result.length = limits.maximumPaths then
    .error (.lengthError "complete shortest-path set exceeds routing limits")
  else if path.length = 0 then .error (.undefinedBehavior "division by zero")
  else if result.length ≥ limits.maximumCachedRouteEntries / path.length then
    .error (.lengthError "complete shortest-path set exceeds routing limits")
  else .ok (result ++ [path])

/-- Every way on from `node` that comes closer to the destination with each arc; the depth is more
than the distance that is left. -/
def walk (graph : TopologyGraph) (limits : PathLimits) (distances : Distances) :
    Nat → NodeId → Path → List Path → Except Error (List Path)
  | 0, _, _, _ => .error (.undefinedBehavior "walk goes on beyond its distance")
  | depth + 1, node, path, result => do
    let here ← distanceOf graph distances node
    -- the walk is at the destination
    if here = some 0 then keepPath limits path result
    else
      let arcs ← graph.outgoing node
      -- in the order of the arcs; the result is sorted at the end
      arcs.foldlM (fun result arc => do
        match ← neighbor graph arc with
        | none => return result
        | some next =>
          let there ← distanceOf graph distances next
          if closer there here then walk graph limits distances depth next (path ++ [arc.id]) result
          else return result) result

def enumerate (graph : TopologyGraph) (limits : PathLimits) (endpoints : Endpoints) :
    Except Error (List Path) := do
  let source ← index graph endpoints.source
  let destination ← index graph endpoints.destination
  -- both are looked up before they are compared
  if source = destination then throw (.invalidArgument "routing requires distinct endpoints")
  else
    let distances ← distancesFrom graph endpoints.destination destination
    -- searched backwards, so the distances are those to the destination
    match distances.getD source none with
    | none => return []
    | some hops =>
      -- the first of the limits; the others are checked path by path
      if hops > limits.maximumHops then throw (.lengthError "shortest route exceeds hop limit")
      else
        let result ← walk graph limits distances (hops + 1) endpoints.source [] []
        return result.insertionSort (· ≤ ·)

/-! ## The cache -/

namespace PathService

def create (graph : TopologyGraph) (limits : PathLimits := {}) : Except Error PathService :=
  if limits.maximumPaths = 0 ∨ limits.maximumHops = 0 ∨ limits.maximumHops > 1024 ∨
      limits.maximumCachedPairs = 0 ∨ limits.maximumCachedRouteEntries = 0 then
    .error (.invalidArgument "invalid routing path limits")
  else .ok { limits, revision := graph.operationalRevision }

def evictOldest : Action PathService Unit := do
  let s ← get
  match s.order with
  | [] => throw (.undefinedBehavior "front of an empty deque")
  | oldest :: rest =>
    let paths ← getOrThrow (s.cache.find? oldest) (.undefinedBehavior "end iterator")
    set { s with
      statistics := { s.statistics with
        routeEntries := paths.foldl (fun left (path : Path) => U64.sub left path.length)
          s.statistics.routeEntries
        paths := U64.sub s.statistics.paths paths.length }
      cache := s.cache.erase oldest
      order := rest }

/-- Whether an answer with so many route entries has to wait for room. -/
def full (s : PathService) (entries : Nat) : Prop :=
  s.cache.size ≥ s.limits.maximumCachedPairs ∨
    entries > U64.sub s.limits.maximumCachedRouteEntries s.statistics.routeEntries

instance (s : PathService) (entries : Nat) : Decidable (s.full entries) :=
  inferInstanceAs (Decidable (_ ∨ _))

/-- Evicts until there is room; one more round than there are cached pairs is enough. -/
def makeRoom (entries : Nat) : Nat → Action PathService Unit
  | 0 => throw (.undefinedBehavior "eviction goes on for ever")
  | rounds + 1 => do
    if (← get).full entries then
      evictOldest
      makeRoom entries rounds
    else return ()

/-- Forgets everything that was computed for another revision. -/
def refresh (graph : TopologyGraph) (s : PathService) : PathService :=
  if s.revision ≠ graph.operationalRevision then
    { s with
      cache := .empty
      order := []
      statistics := { s.statistics with
        paths := 0
        routeEntries := 0
        invalidations := U64.add s.statistics.invalidations 1 }
      revision := graph.operationalRevision }
  else s

def countHit (s : PathService) : PathService :=
  { s with statistics := { s.statistics with hits := U64.add s.statistics.hits 1 } }

def countMiss (s : PathService) : PathService :=
  { s with statistics := { s.statistics with misses := U64.add s.statistics.misses 1 } }

/-- The service with a new answer. -/
def remember (endpoints : Endpoints) (paths : List Path) (entries : Nat) (s : PathService) :
    PathService :=
  { s with
    cache := s.cache.insert endpoints paths
    order := s.order ++ [endpoints]
    statistics := { s.statistics with
      routeEntries := U64.add s.statistics.routeEntries entries
      paths := U64.add s.statistics.paths paths.length } }

def routeEntriesOf (paths : List Path) : Nat :=
  paths.foldl (fun entries path => U64.add entries path.length) 0

def lookup (graph : TopologyGraph) (endpoints : Endpoints) : Action PathService (List Path) := do
  modify (refresh graph)
  match (← get).cache.find? endpoints with
  | some paths =>
    modify countHit
    return paths
  | none =>
    modify countMiss
    let paths ← fromExcept (enumerate graph (← get).limits endpoints)
    let entries := routeEntriesOf paths
    makeRoom entries ((← get).order.length + 1)
    modify (remember endpoints paths entries)
    return paths

end PathService

end NexusLab.Routing
