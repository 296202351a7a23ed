import NexusLab.Topology.Connectivity
import Mathlib.Data.Set.Card

/-! # Shortest paths over operational arcs

A breadth-first search from the source that counts, for every node, the paths it is reached by with
the fewest hops. -/

namespace NexusLab.Topology

open Foundation

/-- `none` is where the source has the largest size. -/
structure PathMetrics where
  hops : Option Nat := none
  pathCount : Nat := 0
deriving DecidableEq

structure ShortestPathState where
  gpus : List PathMetrics
  nics : List PathMetrics
  switches : List PathMetrics

structure ShortestPathSummary where
  hops : Nat
  pathCount : Nat
deriving DecidableEq

namespace ShortestPathState

def create (g : TopologyGraph) : ShortestPathState where
  gpus := List.replicate g.gpus.length {}
  nics := List.replicate g.nics.length {}
  switches := List.replicate g.switches.length {}

def values (state : ShortestPathState) : NodeKind → List PathMetrics
  | .gpu => state.gpus
  | .nic => state.nics
  | .switch => state.switches

def metrics (state : ShortestPathState) (node : NodeId) : Except Error PathMetrics :=
  match (state.values node.kind)[node.value]? with
  | some metrics => .ok metrics
  | none => .error (.undefinedBehavior "metrics of an unknown node")

def store (state : ShortestPathState) (node : NodeId) (metrics : PathMetrics) :
    ShortestPathState :=
  match node.kind with
  | .gpu => { state with gpus := state.gpus.set node.value metrics }
  | .nic => { state with nics := state.nics.set node.value metrics }
  | .switch => { state with switches := state.switches.set node.value metrics }

end ShortestPathState

namespace TopologyGraph

def countOverflow : Error := .overflowError "equal-cost shortest-path count overflow"

/-- One arc of the node whose metrics are `current`. -/
def relax (g : TopologyGraph) (countEqualPaths : Bool) (current : PathMetrics)
    (search : ShortestPathState × List NodeId) (arc : DirectedLink) :
    Except Error (ShortestPathState × List NodeId) :=
  if g.isOperational arc = false then .ok search
  else match g.findPort arc.destination with
    | none => .ok search
    | some port => do
      let next ← search.1.metrics port.owner
      let nextHops := current.hops.map (· + 1)
      -- met for the first time, so it joins the frontier
      if next.hops = none then
        return (search.1.store port.owner ⟨nextHops, current.pathCount⟩, search.2 ++ [port.owner])
      -- met again at the same distance: the paths add up
      else if countEqualPaths = true ∧ next.hops = nextHops then
        if maxU64 - next.pathCount < current.pathCount then .error countOverflow
        else
          return (search.1.store port.owner
            { next with pathCount := next.pathCount + current.pathCount }, search.2)
      else return search

/-- One node off the queue. -/
def relaxAll (g : TopologyGraph) (countEqualPaths : Bool) (state : ShortestPathState)
    (node : NodeId) (pending : List NodeId) : Except Error (ShortestPathState × List NodeId) := do
  let current ← state.metrics node
  let arcs ← g.outgoing node
  arcs.foldlM (g.relax countEqualPaths current) (state, pending)

def shortestPathSummaryImpl (g : TopologyGraph) (source destination : NodeId)
    (countEqualPaths : Bool) : Except Error (Option ShortestPathSummary) :=
  if g.contains source = false ∨ g.contains destination = false then
    .error (.invalidArgument "cannot find a path involving an unknown topology node")
  else if g.nodeIsOperational source = false ∨ g.nodeIsOperational destination = false then .ok none
  else do
    let state := (ShortestPathState.create g).store source ⟨some 0, 1⟩
    let final ← drain (.undefinedBehavior "more nodes than the graph has")
      (g.relaxAll countEqualPaths) g.nodes.length state [source]
    let result ← final.metrics destination
    return result.hops.map fun hops => ⟨hops, result.pathCount⟩

def shortestPathSummary (g : TopologyGraph) (source destination : NodeId) :
    Except Error (Option ShortestPathSummary) :=
  g.shortestPathSummaryImpl source destination true

def shortestHops (g : TopologyGraph) (source destination : NodeId) : Except Error (Option Nat) := do
  let summary ← g.shortestPathSummaryImpl source destination false
  return summary.map ShortestPathSummary.hops

def reachable (g : TopologyGraph) (source destination : NodeId) : Except Error Bool := do
  let hops ← g.shortestHops source destination
  return hops.isSome

/-! ## What the search computes -/

section Exact

variable {g : TopologyGraph} {state : ShortestPathState} {s : Search NodeId} {u v : NodeId}
  {counting : Bool}

theorem values_store {node : NodeId} {metrics : PathMetrics} (kind : NodeKind) :
    ((state.store node metrics).values kind).length = (state.values kind).length := by
  obtain ⟨kind', value⟩ := node
  cases kind' <;> cases kind <;> simp [ShortestPathState.store, ShortestPathState.values]

theorem metrics_store {node other : NodeId} {metrics : PathMetrics}
    (known : node.value < (state.values node.kind).length) :
    (state.store node metrics).metrics other =
      if other = node then .ok metrics else state.metrics other := by
  obtain ⟨kind, value⟩ := node
  obtain ⟨kind', value'⟩ := other
  cases kind <;> cases kind' <;>
    simp only [ShortestPathState.store, ShortestPathState.metrics, ShortestPathState.values,
      NodeId.mk.injEq, reduceCtorEq, false_and, true_and, if_false] at known ⊢
  all_goals
    by_cases same : value' = value
    · subst same
      simp [known]
    · have different : value ≠ value' := fun h => same h.symm
      simp [same, List.getElem?_set_ne different]

/-- The metrics are the marks of the search; the counts only where they are kept. -/
structure Tracks (g : TopologyGraph) (counting : Bool) (state : ShortestPathState)
    (s : Search NodeId) : Prop where
  sizes : ∀ kind, (state.values kind).length = g.count kind
  marks : ∀ node ∈ g.nodes, ∃ metrics, state.metrics node = .ok metrics ∧
    metrics.hops = s.hops node ∧ (counting = true → metrics.pathCount = s.paths node)
  inside : ∀ node ∈ s.frontier, node ∈ g.nodes
  marked : ∀ node ∈ s.frontier, s.hops node ≠ none
  clean : s.Clean

/-- Meeting a node changes the marks of no other. -/
theorem discover_other {level count : Nat} {other : NodeId} (clean : s.Clean) (different : other ≠ v) :
    (s.discover level count v).hops other = s.hops other ∧
      (s.discover level count v).paths other = s.paths other := by
  rw [Search.hops_discover, Search.paths_discover clean]
  simp [different]

theorem Tracks.frontier_discover (tracks : Tracks g counting state s) (level count : Nat)
    (isNode : v ∈ g.nodes) :
    (∀ node ∈ (s.discover level count v).frontier, node ∈ g.nodes) ∧
      ∀ node ∈ (s.discover level count v).frontier, (s.discover level count v).hops node ≠ none := by
  rw [Search.frontier_discover]
  have stays : ∀ node, s.hops node ≠ none → (s.discover level count v).hops node ≠ none := by
    intro node isMarked
    rw [Search.hops_discover, if_neg fun both => isMarked both.1]
    exact isMarked
  by_cases unmarked : s.hops v = none
  · rw [if_pos unmarked]
    constructor
    · intro node member
      rw [List.mem_append, List.mem_singleton] at member
      rcases member with old | rfl
      · exact tracks.inside node old
      · exact isNode
    · intro node member
      rw [List.mem_append, List.mem_singleton] at member
      rcases member with old | rfl
      · exact stays node (tracks.marked node old)
      · simp [Search.hops_discover, unmarked]
  · rw [if_neg unmarked]
    exact ⟨tracks.inside, fun node old => stays node (tracks.marked node old)⟩

theorem Tracks.store (tracks : Tracks g counting state s) (level count : Nat) (isNode : v ∈ g.nodes)
    {metrics : PathMetrics} (known : v.value < (state.values v.kind).length)
    (hops : metrics.hops = (s.discover level count v).hops v)
    (paths : counting = true → metrics.pathCount = (s.discover level count v).paths v) :
    Tracks g counting (state.store v metrics) (s.discover level count v) := by
  obtain ⟨inside, marked⟩ := tracks.frontier_discover level count isNode
  refine ⟨?_, ?_, inside, marked, Search.clean_discover tracks.clean⟩
  · intro kind
    rw [values_store, tracks.sizes]
  · intro node member
    rw [metrics_store known]
    by_cases same : node = v
    · subst same
      exact ⟨metrics, by simp, hops, paths⟩
    · obtain ⟨sameHops, samePaths⟩ := @discover_other s v level count node tracks.clean same
      rw [if_neg same, sameHops, samePaths]
      exact tracks.marks node member

theorem Tracks.keep (tracks : Tracks g counting state s) (level count : Nat) (isNode : v ∈ g.nodes)
    (hops : (s.discover level count v).hops v = s.hops v)
    (paths : counting = true → (s.discover level count v).paths v = s.paths v) :
    Tracks g counting state (s.discover level count v) := by
  obtain ⟨inside, marked⟩ := tracks.frontier_discover level count isNode
  refine ⟨tracks.sizes, ?_, inside, marked, Search.clean_discover tracks.clean⟩
  intro node member
  by_cases same : node = v
  · subst same
    obtain ⟨metrics, found, foundHops, foundPaths⟩ := tracks.marks node member
    exact ⟨metrics, found, by rw [hops, foundHops],
      fun isCounting => by rw [paths isCounting, foundPaths isCounting]⟩
  · obtain ⟨sameHops, samePaths⟩ := @discover_other s v level count node tracks.clean same
    rw [sameHops, samePaths]
    exact tracks.marks node member

theorem Tracks.relax (canonical : g.Canonical) (tracks : Tracks g counting state s)
    {current : PathMetrics} {level count : Nat} (hops : current.hops = some level)
    (paths : counting = true → current.pathCount = count) {port : Port} {arc : DirectedLink}
    (up : g.isOperational arc = true) (found : g.findPort arc.destination = some port) :
    (∃ state', g.relax counting current (state, s.frontier) arc =
        .ok (state', (s.discover level count port.owner).frontier) ∧
      Tracks g counting state' (s.discover level count port.owner)) ∨
    (counting = true ∧ g.relax counting current (state, s.frontier) arc = .error countOverflow) := by
  have isNode := canonical.ownerAt_lt (canonical.ownerAt_eq.mpr ⟨port, found, rfl⟩)
  have known : port.owner.value < (state.values port.owner.kind).length := by
    rw [tracks.sizes]
    exact canonical.mem_nodes.mp isNode
  obtain ⟨next, isNext, nextHops, nextPaths⟩ := tracks.marks _ isNode
  have frontier := @Search.frontier_discover _ _ level count s port.owner
  have newHops := @Search.hops_discover _ _ level count s port.owner port.owner
  have newPaths := @Search.paths_discover _ _ level count s port.owner tracks.clean port.owner
  simp only [TopologyGraph.relax, up, Bool.true_eq_false, if_false, found, isNext, ok_bind,
    nextHops, hops, Option.map_some, pure_eq_ok]
  cases marked : s.hops port.owner with
  | none =>
    left
    rw [if_pos rfl, frontier, if_pos marked]
    refine ⟨_, rfl, tracks.store level count isNode known ?_ ?_⟩
    · simp [newHops, marked]
    · intro isCounting
      simp [newPaths, marked, tracks.clean _ marked, paths isCounting]
  | some old =>
    have frontier : (s.discover level count port.owner).frontier = s.frontier := by
      simp [frontier, marked]
    simp only [reduceCtorEq, if_false, frontier]
    by_cases counts : counting = true ∧ some old = some (level + 1)
    · obtain ⟨rfl, same⟩ := counts
      cases same
      by_cases beyond : maxU64 - next.pathCount < current.pathCount
      · right
        simp [beyond]
      · left
        simp only [true_and, if_true, beyond, if_false]
        refine ⟨_, rfl, tracks.store level count isNode known ?_ ?_⟩
        · simp [newHops, marked]
        · intro _
          simp [newPaths, marked, nextPaths rfl, paths rfl]
    · left
      rw [if_neg counts]
      refine ⟨state, rfl, tracks.keep level count isNode ?_ ?_⟩
      · simp [newHops, marked]
      · intro isCounting
        have other : ¬ old = level + 1 := by
          intro same
          exact counts ⟨isCounting, by rw [same]⟩
        simp [newPaths, marked, other]

theorem foldlM_relax (canonical : g.Canonical) {current : PathMetrics} {level count : Nat}
    (hops : current.hops = some level) (paths : counting = true → current.pathCount = count)
    (tracks : Tracks g counting state s) (arcs : List DirectedLink) :
    (∃ state', arcs.foldlM (g.relax counting current) (state, s.frontier) = .ok (state',
        (s.scan level count (arcs.filterMap fun arc =>
          if g.isOperational arc then g.ownerAt arc.destination.value else none)).frontier) ∧
      Tracks g counting state' (s.scan level count (arcs.filterMap fun arc =>
        if g.isOperational arc then g.ownerAt arc.destination.value else none))) ∨
    (counting = true ∧
      arcs.foldlM (g.relax counting current) (state, s.frontier) = .error countOverflow) := by
  induction arcs generalizing state s with
  | nil => exact .inl ⟨state, rfl, tracks⟩
  | cons arc arcs ih =>
    rw [List.foldlM_cons, List.filterMap_cons]
    by_cases up : g.isOperational arc = true
    · cases found : g.findPort arc.destination with
      | none =>
        have nowhere : g.ownerAt arc.destination.value = none := by
          by_contra owned
          obtain ⟨owner, isOwner⟩ := Option.ne_none_iff_exists'.mp owned
          obtain ⟨port, isPort, _⟩ := canonical.ownerAt_eq.mp isOwner
          rw [found] at isPort
          cases isPort
        simp only [up, if_true, nowhere]
        have skipped : g.relax counting current (state, s.frontier) arc = .ok (state, s.frontier) := by
          simp [TopologyGraph.relax, up, found]
        rw [skipped, ok_bind]
        exact ih tracks
      | some port =>
        have owned := canonical.ownerAt_eq.mpr ⟨port, found, rfl⟩
        simp only [up, if_true, owned]
        rcases tracks.relax canonical hops paths up found with ⟨state', ok, tracks'⟩ | ⟨isCounting, thrown⟩
        · rw [ok, ok_bind]
          exact ih tracks'
        · right
          rw [thrown]
          exact ⟨isCounting, rfl⟩
    · have skipped : g.relax counting current (state, s.frontier) arc = .ok (state, s.frontier) := by
        simp [TopologyGraph.relax, up]
      simp only [up, skipped, ok_bind]
      exact ih tracks

theorem relaxAll_tracks (canonical : g.Canonical) (tracks : Tracks g counting state s)
    {rest : List NodeId} (front : s.frontier = u :: rest) :
    (∃ state', g.relaxAll counting state u rest = .ok (state',
        (s.advance (targets (g.ways g.isOperational))).frontier) ∧
      Tracks g counting state' (s.advance (targets (g.ways g.isOperational)))) ∨
    ∃ e, g.relaxAll counting state u rest = .error e ∧ counting = true ∧ e = countOverflow := by
  have isNode := tracks.inside u (by simp [front])
  have known := canonical.contains.mpr (canonical.mem_nodes.mp isNode)
  have popped : Tracks g counting state { s with frontier := rest } := by
    refine ⟨tracks.sizes, tracks.marks, ?_, ?_, tracks.clean⟩
    · intro node member
      exact tracks.inside node (by simp [front, member])
    · intro node member
      exact tracks.marked node (by simp [front, member])
  obtain ⟨level, here⟩ := Option.ne_none_iff_exists'.mp (tracks.marked u (by simp [front]))
  have value : s.level u = level := by simp [Search.level, here]
  obtain ⟨current, isCurrent, hops, paths⟩ := tracks.marks u isNode
  have next : s.advance (targets (g.ways g.isOperational)) =
      Search.scan level (s.paths u) { s with frontier := rest }
        ((g.arcsFrom u).filterMap fun arc =>
          if g.isOperational arc then g.ownerAt arc.destination.value else none) := by
    simp [Search.advance, front, targets_ways, value]
  rw [next]
  simp only [relaxAll, isCurrent, outgoing, canonical.adjacency known, ok_bind]
  rcases foldlM_relax canonical (hops.trans here) paths popped (g.arcsFrom u) with
    done | ⟨isCounting, thrown⟩
  · exact .inl done
  · exact .inr ⟨countOverflow, thrown, isCounting, rfl⟩

/-- The result is read off the marks of a finished search, unless a count overflows. -/
theorem summaryImpl_eq (canonical : g.Canonical) (counting : Bool) (source : u ∈ g.nodes)
    (destination : v ∈ g.nodes) (sourceUp : g.nodeIsOperational u = true)
    (destinationUp : g.nodeIsOperational v = true) :
    (∃ s count, Search.Finished (targets (g.ways g.isOperational)) u s ∧
      g.shortestPathSummaryImpl u v counting = .ok ((s.hops v).map fun hops => ⟨hops, count⟩) ∧
      (counting = true → count = s.paths v)) ∨
    (counting = true ∧ g.shortestPathSummaryImpl u v counting = .error countOverflow) := by
  have knownU := canonical.contains.mpr (canonical.mem_nodes.mp source)
  have knownV := canonical.contains.mpr (canonical.mem_nodes.mp destination)
  -- the tables have one entry for each node
  have sizes : ∀ kind, ((ShortestPathState.create g).values kind).length = g.count kind := by
    intro kind
    cases kind <;> simp [ShortestPathState.create, ShortestPathState.values, count]
  have created : ∀ node ∈ g.nodes, (ShortestPathState.create g).metrics node = .ok {} := by
    rintro ⟨kind, value⟩ member
    have small := canonical.mem_nodes.mp member
    cases kind <;> simp only [count] at small <;>
      simp [ShortestPathState.create, ShortestPathState.metrics, ShortestPathState.values, small]
  have known : u.value < ((ShortestPathState.create g).values u.kind).length := by
    rw [sizes]
    exact canonical.mem_nodes.mp source
  -- at the start only the source is marked, with one path
  have started : Tracks g counting ((ShortestPathState.create g).store u ⟨some 0, 1⟩)
      (.start u) := by
    refine ⟨?_, ?_, ?_, ?_, (Search.invariant_start (fun _ => []) u).clean⟩
    · intro kind
      rw [values_store, sizes]
    · intro node member
      rw [metrics_store known]
      by_cases same : node = u
      · exact ⟨⟨some 0, 1⟩, by simp [same], by simp [Search.start, same], by simp [Search.start, same]⟩
      · exact ⟨{}, by simp [same, created node member], by simp [Search.start, same],
          by simp [Search.start, same]⟩
    · intro node member
      rwa [List.mem_singleton.mp member]
    · intro node member
      rw [List.mem_singleton.mp member]
      simp [Search.start]
  obtain ⟨finished, empty⟩ := Search.finished_explore source
    (canonical.ways_inside g.isOperational) (le_refl g.nodes.length)
  simp only [shortestPathSummaryImpl, knownU, knownV, sourceUp, destinationUp, Bool.true_eq_false,
    or_self, if_false]
  -- the loop follows the search of the library until the frontier is empty
  rcases drain_explore (.undefinedBehavior "more nodes than the graph has") (Tracks g counting)
    (fun e => counting = true ∧ e = countOverflow)
    (fun _ _ _ _ tracks front => relaxAll_tracks canonical tracks front) started empty
    with ⟨final, ok, tracks⟩ | ⟨e, thrown, isCounting, rfl⟩
  · left
    obtain ⟨metrics, found, hops, paths⟩ := tracks.marks v destination
    refine ⟨_, metrics.pathCount, finished, ?_, paths⟩
    rw [show [u] = (Search.start u).frontier from rfl, ok, ok_bind, found, ok_bind, hops]
    rfl
  · right
    rw [show [u] = (Search.start u).frontier from rfl, thrown]
    exact ⟨isCounting, rfl⟩

/-! ## What the result means -/

/-- A way through the graph, by the identifiers of its arcs, all of them operational. -/
def OperationalPath (g : TopologyGraph) : NodeId → List DirectedLinkId → NodeId → Prop
  | u, [], v => u = v
  | u, id :: path, v => ∃ arcs arc port, g.outgoing u = .ok arcs ∧ arc ∈ arcs ∧ arc.id = id ∧
    g.isOperational arc = true ∧ g.findPort arc.destination = some port ∧
    g.OperationalPath port.owner path v

theorem mem_operational_ways (canonical : g.Canonical) {id : DirectedLinkId} {w : NodeId} :
    (id, w) ∈ g.ways g.isOperational u ↔ ∃ arc ∈ g.arcsFrom u, arc.id = id ∧
      g.isOperational arc = true ∧ ∃ port, g.findPort arc.destination = some port ∧
        port.owner = w := by
  simp only [ways, List.mem_filterMap, Option.ite_none_right_eq_some, Option.map_eq_some_iff,
    Prod.mk.injEq, ← canonical.ownerAt_eq]
  constructor
  · rintro ⟨arc, member, up, _, owned, rfl, rfl⟩
    exact ⟨arc, member, rfl, up, owned⟩
  · rintro ⟨arc, member, rfl, up, owned⟩
    exact ⟨arc, member, up, w, owned, rfl, rfl⟩

theorem operationalPath_iff (canonical : g.Canonical) (isNode : u ∈ g.nodes)
    {path : List DirectedLinkId} :
    g.OperationalPath u path v ↔ IsWalk (g.ways g.isOperational) u path v := by
  induction path generalizing u with
  | nil => rfl
  | cons id path ih =>
    have known := canonical.contains.mpr (canonical.mem_nodes.mp isNode)
    have arcs : g.outgoing u = .ok (g.arcsFrom u) := canonical.adjacency known
    constructor
    · rintro ⟨found, arc, port, isFound, member, isId, up, isPort, rest⟩
      rw [arcs] at isFound
      cases isFound
      have owner := canonical.ownerAt_lt (canonical.ownerAt_eq.mpr ⟨port, isPort, rfl⟩)
      exact ⟨port.owner, (mem_operational_ways canonical).mpr ⟨arc, member, isId, up, port, isPort, rfl⟩,
        (ih owner).mp rest⟩
    · rintro ⟨w, way, rest⟩
      obtain ⟨arc, member, isId, up, port, isPort, rfl⟩ := (mem_operational_ways canonical).mp way
      have owner := canonical.ownerAt_lt (canonical.ownerAt_eq.mpr ⟨port, isPort, rfl⟩)
      exact ⟨_, arc, port, arcs, member, isId, up, isPort, (ih owner).mpr rest⟩

/-- The fewest hops, and the number of paths that have no more. -/
structure Summarizes (g : TopologyGraph) (u v : NodeId) (summary : ShortestPathSummary) : Prop where
  attained : ∃ path, g.OperationalPath u path v ∧ path.length = summary.hops
  least : ∀ path, g.OperationalPath u path v → summary.hops ≤ path.length
  count : Set.ncard {path | g.OperationalPath u path v ∧ path.length = summary.hops} =
    summary.pathCount

theorem ncard_walksTo (canonical : g.Canonical) (isNode : u ∈ g.nodes) (n : Nat) :
    Set.ncard {path | g.OperationalPath u path v ∧ path.length = n} =
      (ends (targets (g.ways g.isOperational)) n u).count v := by
  have nodup : (walksTo (g.ways g.isOperational) v n u).Nodup :=
    nodup_walksTo canonical.ways_named
  have same : {path | g.OperationalPath u path v ∧ path.length = n} =
      ((walksTo (g.ways g.isOperational) v n u).toFinset : Set (List DirectedLinkId)) := by
    ext path
    simp [mem_walksTo, operationalPath_iff canonical isNode]
  rw [same, Set.ncard_coe_finset, List.toFinset_card_of_nodup nodup, length_walksTo]

theorem summarizes_of_finished (canonical : g.Canonical) (isNode : u ∈ g.nodes)
    (finished : Search.Finished (targets (g.ways g.isOperational)) u s) {hops : Nat}
    (marked : s.hops v = some hops) : Summarizes g u v ⟨hops, s.paths v⟩ := by
  obtain ⟨reached, least⟩ := (finished.hops v hops).mp marked
  refine ⟨?_, ?_, ?_⟩
  · obtain ⟨path, walk, length⟩ := mem_ends_iff.mp reached
    exact ⟨path, (operationalPath_iff canonical isNode).mpr walk, length⟩
  · intro path isPath
    by_contra shorter
    refine least path.length (by simpa using shorter) ?_
    exact mem_ends_iff.mpr ⟨path, (operationalPath_iff canonical isNode).mp isPath, rfl⟩
  · rw [ncard_walksTo canonical isNode, finished.paths v hops marked]

theorem unreached_iff (canonical : g.Canonical) (isNode : u ∈ g.nodes)
    (finished : Search.Finished (targets (g.ways g.isOperational)) u s) :
    s.hops v = none ↔ ¬ ∃ path, g.OperationalPath u path v := by
  rw [finished.unreached]
  constructor
  · rintro unreached ⟨path, isPath⟩
    exact unreached path.length
      (mem_ends_iff.mpr ⟨path, (operationalPath_iff canonical isNode).mp isPath, rfl⟩)
  · intro noPath n reached
    obtain ⟨path, walk, _⟩ := mem_ends_iff.mp reached
    exact noPath ⟨path, (operationalPath_iff canonical isNode).mpr walk⟩

/-- All that is to be known of the two functions over known nodes. -/
theorem shortestPathSummary_exact (canonical : g.Canonical) (source : g.contains u = true)
    (destination : g.contains v = true) :
    (g.shortestPathSummary u v = .error countOverflow ∨
      ∃ result, g.shortestPathSummary u v = .ok result ∧
        (result = none ↔ g.nodeIsOperational u = false ∨ g.nodeIsOperational v = false ∨
          ¬ ∃ path, g.OperationalPath u path v) ∧
        ∀ summary, result = some summary → Summarizes g u v summary) ∧
    ∃ hops, g.shortestHops u v = .ok hops ∧
      (∀ result, g.shortestPathSummary u v = .ok result →
        hops = result.map ShortestPathSummary.hops) := by
  have isU := canonical.mem_nodes.mpr (canonical.contains.mp source)
  have isV := canonical.mem_nodes.mpr (canonical.contains.mp destination)
  by_cases up : g.nodeIsOperational u = true ∧ g.nodeIsOperational v = true
  · obtain ⟨upU, upV⟩ := up
    -- the search for the hops alone never overflows
    have uncounted := summaryImpl_eq canonical false isU isV upU upV
    simp only [Bool.false_eq_true, false_and, or_false, false_implies, and_true] at uncounted
    obtain ⟨s', count', finished', ok'⟩ := uncounted
    have hops : g.shortestHops u v = .ok (s'.hops v) := by
      simp only [shortestHops, ok', ok_bind, pure_eq_ok, Option.map_map]
      cases s'.hops v <;> rfl
    rcases summaryImpl_eq canonical true isU isV upU upV with ⟨s, count, finished, ok, counted⟩ |
      ⟨_, thrown⟩
    -- both searches are finished, so they mark the same nodes at the same levels
    · have sameHops : s'.hops v = s.hops v := by
        cases marked : s.hops v with
        | none => rw [unreached_iff canonical isU finished', ← unreached_iff canonical isU finished,
            marked]
        | some n => rw [finished'.hops, ← finished.hops, marked]
      refine ⟨.inr ⟨_, ok, ?_, ?_⟩, _, hops, ?_⟩
      · rw [Option.map_eq_none_iff, unreached_iff canonical isU finished]
        simp [upU, upV]
      · intro summary isSummary
        obtain ⟨n, marked, rfl⟩ := Option.map_eq_some_iff.mp isSummary
        rw [counted rfl]
        exact summarizes_of_finished canonical isU finished marked
      · intro result isResult
        have same := ok.symm.trans isResult
        cases same
        rw [sameHops, Option.map_map]
        cases s.hops v <;> rfl
    -- the hops are known even where the count overflows
    · refine ⟨.inl thrown, _, hops, ?_⟩
      intro result isResult
      have same := thrown.symm.trans isResult
      cases same
  -- an end that is down is answered without a search
  · have down : g.nodeIsOperational u = false ∨ g.nodeIsOperational v = false := by
      by_contra both
      simp only [not_or, Bool.not_eq_false] at both
      exact up both
    have none_found : ∀ counting, g.shortestPathSummaryImpl u v counting = .ok none := by
      intro counting
      simp [shortestPathSummaryImpl, source, destination, down]
    refine ⟨.inr ⟨none, none_found true, ?_, by simp⟩, none, by simp [shortestHops, none_found], ?_⟩
    · simp only [true_iff]
      rcases down with downU | downV
      · exact .inl downU
      · exact .inr (.inl downV)
    · intro result isResult
      have same := (none_found true).symm.trans isResult
      cases same
      rfl

end Exact

end TopologyGraph

end NexusLab.Topology
