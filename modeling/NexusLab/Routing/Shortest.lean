import NexusLab.Routing.Paths
import NexusLab.Topology.Connectivity

/-! # What the enumeration returns

Over a graph that was built, the distances are exact, and since every arc has its opposite they also
say how far the destination is from each node.  So the walk lists exactly the shortest paths, and
it throws only at the limits. -/

namespace NexusLab.Routing

open Foundation NexusLab.Topology

/-! ## Routes -/

/-- An arc that a route may use. -/
def fabricUp (graph : TopologyGraph) (arc : DirectedLink) : Bool :=
  match graph.findLink arc.id.link with
  | some link => link.kind = .fabric && graph.isOperational arc
  | none => false

/-- The arcs that routes may use, and where they lead. -/
def hops (graph : TopologyGraph) : NodeId → List (DirectedLinkId × NodeId) :=
  graph.ways (fabricUp graph)

def fabricNodes (graph : TopologyGraph) : List NodeId :=
  graph.nics.map (fun nic => .ofNic nic.id) ++ graph.switches.map fun s => .ofSwitch s.id

def position (graph : TopologyGraph) (node : NodeId) : Nat :=
  if node.kind = .nic then node.value else graph.nics.length + node.value

section Hops

variable {graph : TopologyGraph} {u v : NodeId} {link : PhysicalLink}

theorem findLink_of_mem (canonical : graph.Canonical) (member : link ∈ graph.links) :
    graph.findLink link.id = some link := by
  rw [TopologyGraph.findLink, canonical.aligned.links.find]
  exact canonical.aligned.links.mem member

/-- A link works in both directions or in none. -/
theorem isOperational_opposite (canonical : graph.Canonical) (member : link ∈ graph.links)
    (d : LinkDirection) :
    graph.isOperational (link.directed d.opposite) = graph.isOperational (link.directed d) := by
  have found := findLink_of_mem canonical member
  unfold TopologyGraph.isOperational
  cases d <;> simp only [LinkDirection.opposite, PhysicalLink.directed, found] <;>
    cases graph.findPort link.endpointA <;> cases graph.findPort link.endpointB <;>
    simp [directedLinks, PhysicalLink.directed, Bool.and_comm, Bool.and_left_comm, Bool.and_assoc]

theorem fabricUp_directed (canonical : graph.Canonical) (member : link ∈ graph.links)
    (d : LinkDirection) : fabricUp graph (link.directed d) =
      (decide (link.kind = .fabric) && graph.isOperational (link.directed d)) := by
  have found := findLink_of_mem canonical member
  unfold fabricUp
  cases d <;> simp [PhysicalLink.directed, found]

theorem hops_symm (canonical : graph.Canonical) :
    ∀ u v, v ∈ targets (hops graph) u → u ∈ targets (hops graph) v := by
  intro u v member
  obtain ⟨⟨⟨link, d⟩, w⟩, way, rfl⟩ := List.mem_map.mp member
  refine List.mem_map.mpr ⟨(⟨link, d.opposite⟩, u), TopologyGraph.ways_opposite ?_ way, rfl⟩
  intro link isLink d
  rw [fabricUp_directed canonical isLink, fabricUp_directed canonical isLink,
    isOperational_opposite canonical isLink]

theorem mem_fabricNodes (canonical : graph.Canonical) :
    u ∈ fabricNodes graph ↔ u.kind ≠ .gpu ∧ u.value < graph.count u.kind := by
  obtain ⟨kind, value⟩ := u
  have aligned := canonical.aligned
  cases kind
  · simp [fabricNodes, NodeId.ofNic, NodeId.ofSwitch]
  · simp [fabricNodes, NodeId.ofNic, NodeId.ofSwitch, aligned.nics.exists_mem,
      TopologyGraph.count]
  · simp [fabricNodes, NodeId.ofNic, NodeId.ofSwitch, aligned.switches.exists_mem,
      TopologyGraph.count]

/-- Fabric links end at NICs and switches. -/
theorem hops_inside (canonical : graph.Canonical) :
    ∀ u ∈ fabricNodes graph, ∀ v ∈ targets (hops graph) u, v ∈ fabricNodes graph := by
  intro u _ v member
  obtain ⟨⟨id, w⟩, way, rfl⟩ := List.mem_map.mp member
  obtain ⟨link, isLink, d, _, allowed, _, owned⟩ := TopologyGraph.mem_ways.mp way
  have isNode := canonical.mem_nodes.mp (canonical.ownerAt_lt owned)
  refine (mem_fabricNodes canonical).mpr ⟨?_, isNode⟩
  rw [fabricUp_directed canonical isLink, Bool.and_eq_true, decide_eq_true_eq] at allowed
  obtain ⟨i, found⟩ := List.mem_iff_getElem?.mp isLink
  obtain ⟨a, b, isA, isB, endA, endB, _, joins⟩ := canonical.links i link found
  have fabric : a.owner.kind ≠ .gpu ∧ b.owner.kind ≠ .gpu := by
    rcases joins with attached | fabric
    · rw [attached.1] at allowed
      exact absurd allowed.1 (by decide)
    · exact ⟨fabric.2.1, fabric.2.2.1⟩
  have ownerA : graph.ownerAt link.endpointA.value = some a.owner := by
    rw [endA, canonical.aligned.ports _ a isA, TopologyGraph.ownerAt, isA]
    rfl
  have ownerB : graph.ownerAt link.endpointB.value = some b.owner := by
    rw [endB, canonical.aligned.ports _ b isB, TopologyGraph.ownerAt, isB]
    rfl
  cases d with
  | aToB =>
    have same := ownerB.symm.trans owned
    cases same
    exact fabric.2
  | bToA =>
    have same := ownerA.symm.trans owned
    cases same
    exact fabric.1

theorem index_eq (canonical : graph.Canonical) (known : u ∈ fabricNodes graph) :
    index graph u = .ok (position graph u) := by
  obtain ⟨notGpu, small⟩ := (mem_fabricNodes canonical).mp known
  obtain ⟨kind, value⟩ := u
  have aligned := canonical.aligned
  cases kind
  · exact absurd rfl notGpu
  · have found : value < graph.nics.length := small
    simp [index, position, TopologyGraph.findNic, aligned.nics.find, found]
  · have found : value < graph.switches.length := small
    simp [index, position, TopologyGraph.findSwitch, aligned.switches.find, found]

theorem index_unknown (canonical : graph.Canonical) (unknown : u ∉ fabricNodes graph) :
    index graph u =
      .error (.invalidArgument "routing endpoint must be a known NIC or switch") := by
  rw [mem_fabricNodes canonical] at unknown
  obtain ⟨kind, value⟩ := u
  have aligned := canonical.aligned
  cases kind
  · simp [index]
  · have missing : ¬ value < graph.nics.length := by simpa [TopologyGraph.count] using unknown
    simp [index, TopologyGraph.findNic, aligned.nics.find, missing]
  · have missing : ¬ value < graph.switches.length := by simpa [TopologyGraph.count] using unknown
    simp [index, TopologyGraph.findSwitch, aligned.switches.find, missing]

theorem position_lt (canonical : graph.Canonical) (known : u ∈ fabricNodes graph) :
    position graph u < graph.nics.length + graph.switches.length := by
  obtain ⟨notGpu, small⟩ := (mem_fabricNodes canonical).mp known
  obtain ⟨kind, value⟩ := u
  cases kind
  · exact absurd rfl notGpu
  · have found : value < graph.nics.length := small
    simp [position]
    omega
  · have found : value < graph.switches.length := small
    simp [position]
    omega

theorem position_inj (canonical : graph.Canonical) (knownU : u ∈ fabricNodes graph)
    (knownV : v ∈ fabricNodes graph) (same : position graph u = position graph v) : u = v := by
  obtain ⟨notGpuU, smallU⟩ := (mem_fabricNodes canonical).mp knownU
  obtain ⟨notGpuV, smallV⟩ := (mem_fabricNodes canonical).mp knownV
  obtain ⟨kindU, valueU⟩ := u
  obtain ⟨kindV, valueV⟩ := v
  cases kindU <;> cases kindV <;>
    simp [position, TopologyGraph.count] at notGpuU notGpuV smallU smallV same ⊢ <;> omega

theorem neighbor_eq (canonical : graph.Canonical) {arc : DirectedLink}
    (member : arc ∈ graph.arcsFrom u) : neighbor graph arc =
      .ok (if fabricUp graph arc then graph.ownerAt arc.destination.value else none) := by
  obtain ⟨⟨link, isLink, d, rfl⟩, _⟩ := TopologyGraph.mem_arcsFrom_iff.mp member
  have found : graph.findLink (link.directed d).id.link = some link := by
    cases d <;> exact findLink_of_mem canonical isLink
  rw [fabricUp_directed canonical isLink]
  unfold neighbor
  rw [found]
  by_cases fabric : link.kind = .fabric
  · cases up : graph.isOperational (link.directed d) with
    | false => simp
    | true =>
      have known : ∃ port, graph.findPort (link.directed d).destination = some port := by
        unfold TopologyGraph.isOperational at up
        split at up
        · exact ⟨_, ‹_›⟩
        · cases up
      obtain ⟨port, isPort⟩ := known
      have owned := canonical.ownerAt_eq.mpr ⟨port, isPort, rfl⟩
      simp [fabric, isPort, owned]
  · simp [fabric]

/-! ## Distances -/

/-- The distances found so far are those of the search. -/
structure Tracks (graph : TopologyGraph) (distances : Distances) (s : Search NodeId) : Prop where
  size : distances.length = graph.nics.length + graph.switches.length
  marks : ∀ node ∈ fabricNodes graph, distances.getD (position graph node) none = s.hops node
  inside : ∀ node ∈ s.frontier, node ∈ fabricNodes graph
  marked : ∀ node ∈ s.frontier, s.hops node ≠ none

variable {distances : Distances} {s : Search NodeId}

theorem Tracks.discover (canonical : graph.Canonical) (tracks : Tracks graph distances s)
    {level : Nat} (count : Nat) (here : s.hops u = some level) (known : u ∈ fabricNodes graph)
    (isNode : v ∈ fabricNodes graph) :
    ∃ distances', (match distances.getD (position graph v) none with
        | some _ => (distances, s.frontier)
        | none => (distances.set (position graph v)
            ((distances.getD (position graph u) none).map (· + 1)), s.frontier ++ [v])) =
          (distances', (s.discover level count v).frontier) ∧
      Tracks graph distances' (s.discover level count v) := by
  rw [tracks.marks v isNode, tracks.marks u known, here, Search.frontier_discover]
  cases marked : s.hops v with
  | some old =>
    -- an old node changes neither side
    have same : ∀ node, (s.discover level count v).hops node = s.hops node := by
      intro node
      rw [Search.hops_discover, if_neg]
      rintro ⟨unmarked, rfl⟩
      rw [marked] at unmarked
      cases unmarked
    refine ⟨distances, rfl, tracks.size, ?_, ?_, ?_⟩
    · intro node member
      rw [tracks.marks node member, same]
    · rw [Search.frontier_discover, marked]
      exact tracks.inside
    · rw [Search.frontier_discover, marked]
      intro node member
      rw [same]
      exact tracks.marked node member
  | none =>
    -- a new node gets its distance, and waits at the end of the frontier
    refine ⟨_, rfl, ?_, ?_, ?_, ?_⟩
    · simpa using tracks.size
    · intro node member
      rw [Search.hops_discover]
      by_cases same : node = v
      · subst same
        have small := position_lt canonical member
        rw [← tracks.size] at small
        simp [marked, List.getD, small]
      -- the positions are distinct, so the other distances stay
      · have different : position graph v ≠ position graph node :=
          fun equal => same (position_inj canonical isNode member equal).symm
        have old := tracks.marks node member
        simp only [List.getD] at old ⊢
        rw [List.getElem?_set_ne different, old]
        simp [same]
    · rw [Search.frontier_discover, marked]
      intro node member
      rw [if_pos rfl, List.mem_append, List.mem_singleton] at member
      rcases member with old | rfl
      · exact tracks.inside node old
      · exact isNode
    · rw [Search.frontier_discover, marked]
      intro node member
      rw [if_pos rfl, List.mem_append, List.mem_singleton] at member
      rw [Search.hops_discover]
      rcases member with old | rfl
      · have isMarked := tracks.marked node old
        rwa [if_neg fun both => isMarked both.1]
      · simp [marked]

theorem foldlM_visit (canonical : graph.Canonical) (known : u ∈ fabricNodes graph)
    {level : Nat} (count : Nat) (here : s.hops u = some level) (tracks : Tracks graph distances s)
    (arcs : List DirectedLink) (isArc : ∀ arc ∈ arcs, arc ∈ graph.arcsFrom u) :
    ∃ distances', arcs.foldlM (visit graph u) (distances, s.frontier) = .ok (distances',
        (s.scan level count (arcs.filterMap fun arc =>
          if fabricUp graph arc then graph.ownerAt arc.destination.value else none)).frontier) ∧
      Tracks graph distances' (s.scan level count (arcs.filterMap fun arc =>
        if fabricUp graph arc then graph.ownerAt arc.destination.value else none)) := by
  induction arcs generalizing distances s with
  | nil => exact ⟨distances, rfl, tracks⟩
  | cons arc arcs ih =>
    have member := isArc arc (List.mem_cons_self ..)
    have later : ∀ arc ∈ arcs, arc ∈ graph.arcsFrom u :=
      fun other isOther => isArc other (List.mem_cons_of_mem _ isOther)
    have stepped := neighbor_eq canonical member
    rw [List.foldlM_cons, List.filterMap_cons]
    cases target : (if fabricUp graph arc then graph.ownerAt arc.destination.value else none) with
    | none =>
      rw [target] at stepped
      simp only [visit, stepped, ok_bind, pure_eq_ok]
      exact ih here tracks later
    | some v =>
      rw [target] at stepped
      have isNode : v ∈ fabricNodes graph := by
        refine hops_inside canonical u known v ?_
        rw [hops, TopologyGraph.targets_ways]
        exact List.mem_filterMap.mpr ⟨arc, member, target⟩
      obtain ⟨distances', met, tracks'⟩ :=
        tracks.discover canonical count here known isNode
      have here' : (s.discover level count v).hops u = some level := by
        rw [Search.hops_discover, if_neg (by simp [here]), here]
      have visited : visit graph u (distances, s.frontier) arc =
          .ok (distances', (s.discover level count v).frontier) := by
        simp only [visit, stepped, index_eq canonical isNode, index_eq canonical known, ok_bind,
          pure_eq_ok]
        rw [← met]
        cases distances.getD (position graph v) none <;> rfl
      rw [visited, ok_bind]
      exact ih here' tracks' later

theorem spread_tracks (canonical : graph.Canonical) (tracks : Tracks graph distances s)
    {rest : List NodeId} (front : s.frontier = u :: rest) :
    ∃ distances', spread graph distances u rest = .ok (distances',
        (s.advance (targets (hops graph))).frontier) ∧
      Tracks graph distances' (s.advance (targets (hops graph))) := by
  have isNode := tracks.inside u (by simp [front])
  have known := canonical.contains.mpr ((mem_fabricNodes canonical).mp isNode).2
  have popped : Tracks graph distances { s with frontier := rest } := by
    refine ⟨tracks.size, tracks.marks, ?_, ?_⟩
    · intro node member
      exact tracks.inside node (by simp [front, member])
    · intro node member
      exact tracks.marked node (by simp [front, member])
  obtain ⟨level, here⟩ := Option.ne_none_iff_exists'.mp (tracks.marked u (by simp [front]))
  have stillHere : ({ s with frontier := rest } : Search NodeId).hops u = some level := here
  have value : s.level u = level := by simp [Search.level, here]
  obtain ⟨distances', met, tracks'⟩ :=
    foldlM_visit canonical isNode (s.paths u) stillHere popped (graph.arcsFrom u) fun _ h => h
  have next : s.advance (targets (hops graph)) =
      Search.scan level (s.paths u) { s with frontier := rest }
        ((graph.arcsFrom u).filterMap fun arc =>
          if fabricUp graph arc then graph.ownerAt arc.destination.value else none) := by
    simp [Search.advance, front, hops, TopologyGraph.targets_ways, value]
  rw [next]
  refine ⟨distances', ?_, tracks'⟩
  simp only [spread, TopologyGraph.outgoing, canonical.adjacency known, ok_bind]
  exact met

/-- How many arcs lie between a node and a destination, if any route does. -/
def Distance (graph : TopologyGraph) (destination : NodeId) (node : NodeId) : Option Nat → Prop
  | some n => node ∈ ends (targets (hops graph)) n destination ∧
    ∀ m, m < n → node ∉ ends (targets (hops graph)) m destination
  | none => ∀ n, node ∉ ends (targets (hops graph)) n destination

theorem distancesFrom_exact (canonical : graph.Canonical) {destination : NodeId}
    (known : destination ∈ fabricNodes graph) :
    ∃ distances, distancesFrom graph destination (position graph destination) = .ok distances ∧
      ∀ node ∈ fabricNodes graph,
        Distance graph destination node (distances.getD (position graph node) none) := by
  have length : (fabricNodes graph).length = graph.nics.length + graph.switches.length := by
    simp [fabricNodes]
  have small := position_lt canonical known
  have started : Tracks graph ((List.replicate (graph.nics.length + graph.switches.length)
      none).set (position graph destination) (some 0)) (.start destination) := by
    refine ⟨by simp, ?_, ?_, ?_⟩
    · intro node member
      by_cases same : node = destination
      · subst same
        simp [Search.start, List.getD, small]
      · have different : position graph destination ≠ position graph node :=
          fun equal => same (position_inj canonical known member equal).symm
        have inside := position_lt canonical member
        rw [List.getD, List.getElem?_set_ne different]
        simp [Search.start, same, inside]
    · intro node member
      rwa [List.mem_singleton.mp member]
    · intro node member
      rw [List.mem_singleton.mp member]
      simp [Search.start]
  obtain ⟨finished, empty⟩ := Search.finished_explore known (hops_inside canonical)
    (le_of_eq length)
  unfold distancesFrom
  rcases drain_explore (.undefinedBehavior "more nodes than the graph has") (Tracks graph)
    (fun _ => False) (fun _ _ _ _ tracks front => .inl (spread_tracks canonical tracks front))
    started empty with ⟨final, ok, tracks⟩ | ⟨_, _, never⟩
  · refine ⟨final, ok, ?_⟩
    intro node member
    rw [tracks.marks node member]
    cases isHops : ((Search.start destination).explore (targets (hops graph))
        (graph.nics.length + graph.switches.length)).hops node with
    | none => exact (finished.unreached node).mp isHops
    | some n => exact (finished.hops node n).mp isHops
  · exact never.elim

end Hops

/-! ## Paths -/

section Walk

variable {graph : TopologyGraph} {limits : PathLimits} {distances : Distances} {u v : NodeId}
  {destination : NodeId}

theorem Distance.unique {a b : Option Nat} (first : Distance graph destination u a)
    (second : Distance graph destination u b) : a = b := by
  cases a with
  | none =>
    cases b with
    | none => rfl
    | some m => exact absurd second.1 (first m)
  | some n =>
    cases b with
    | none => exact absurd first.1 (second n)
    | some m =>
      have notLess : ¬ m < n := fun less => first.2 m less second.1
      have notMore : ¬ n < m := fun less => second.2 n less first.1
      rw [show n = m by omega]

theorem Distance.eq_of_zero (atEnd : Distance graph destination u (some 0)) : u = destination := by
  simpa [ends] using atEnd.1

/-- An arc leads at most one arc closer. -/
theorem Distance.step (canonical : graph.Canonical) {n m : Nat}
    (here : Distance graph destination u (some n)) (there : Distance graph destination v (some m))
    (next : v ∈ targets (hops graph) u) : n ≤ m + 1 := by
  by_contra far
  refine here.2 (m + 1) (by omega) ?_
  rw [ends_succ_eq]
  exact List.mem_flatMap.mpr ⟨v, there.1, hops_symm canonical u v next⟩

/-- A walk to the destination is as long as the distance allows. -/
theorem Distance.of_walk (canonical : graph.Canonical) {n : Nat}
    (walk : destination ∈ ends (targets (hops graph)) n u) {there : Option Nat}
    (exact_distance : Distance graph destination u there) : ∃ m, there = some m ∧ m ≤ n := by
  have back := ends_symm (hops_symm canonical) walk
  cases there with
  | none => exact absurd back (exact_distance n)
  | some m =>
    refine ⟨m, rfl, ?_⟩
    by_contra less
    exact exact_distance.2 n (by omega) back

/-- The arcs of a node, each with the ways on from there. -/
theorem foldlM_walk (canonical : graph.Canonical)
    (known : ∀ node ∈ fabricNodes graph,
      Distance graph destination node (distances.getD (position graph node) none))
    {n depth : Nat} (isNode : u ∈ fabricNodes graph)
    (here : Distance graph destination u (some (n + 1)))
    (onward : ∀ next ∈ fabricNodes graph, Distance graph destination next (some n) →
      ∀ path result, walk graph limits distances depth next path result =
        (walksTo (hops graph) destination n next).foldlM
          (fun result rest => keepPath limits (path ++ rest) result) result)
    (path : Path) (arcs : List DirectedLink) (isArc : ∀ arc ∈ arcs, arc ∈ graph.arcsFrom u)
    (result : List Path) :
    arcs.foldlM (fun result arc => do
        match ← neighbor graph arc with
        | none => .ok result
        | some next =>
          let position ← index graph next
          if closer (distances.getD position none) (some (n + 1)) then
            walk graph limits distances depth next (path ++ [arc.id]) result
          else .ok result) result =
      ((arcs.filterMap fun arc => if fabricUp graph arc then
          (graph.ownerAt arc.destination.value).map fun owner => (arc.id, owner) else none).flatMap
        fun arc => (walksTo (hops graph) destination n arc.2).map (arc.1 :: ·)).foldlM
          (fun result rest => keepPath limits (path ++ rest) result) result := by
  -- on the arcs that are left
  induction arcs generalizing result with
  | nil => rfl
  | cons arc arcs ih =>
    have member := isArc arc (List.mem_cons_self ..)
    have later := ih fun other isOther => isArc other (List.mem_cons_of_mem _ isOther)
    have stepped := neighbor_eq canonical member
    rw [List.foldlM_cons, List.filterMap_cons, stepped]
    by_cases allowed : fabricUp graph arc = true
    · cases owned : graph.ownerAt arc.destination.value with
      | none =>
        simp only [allowed, if_true, ok_bind, Option.map_none]
        exact later result
      | some v =>
        have next : v ∈ targets (hops graph) u := by
          rw [hops, TopologyGraph.targets_ways]
          exact List.mem_filterMap.mpr ⟨arc, member, by simp [allowed, owned]⟩
        have isNext := hops_inside canonical u isNode v next
        have there := known v isNext
        simp only [allowed, if_true, ok_bind, index_eq canonical isNext, Option.map_some,
          List.flatMap_cons, List.foldlM_append, List.foldlM_map]
        -- a neighbour that comes closer is nearer by exactly one hop
        by_cases comesCloser : closer (distances.getD (position graph v) none) (some (n + 1)) = true
        · have distance : distances.getD (position graph v) none = some n := by
            cases found : distances.getD (position graph v) none with
            | none =>
              rw [found] at comesCloser
              cases comesCloser
            | some m =>
              rw [found] at there comesCloser
              have bound := here.step canonical there next
              simp only [closer, decide_eq_true_eq] at comesCloser
              rw [show m = n by omega]
          rw [if_pos comesCloser, onward v isNext (distance ▸ there)]
          simp only [List.append_assoc, List.singleton_append]
          congr 1
          funext result
          exact later result
        · have none_left : walksTo (hops graph) destination n v = [] := by
            apply walksTo_eq_nil
            intro walk
            obtain ⟨m, found, le⟩ := there.of_walk canonical walk
            rw [found] at comesCloser
            simp only [closer, decide_eq_true_eq] at comesCloser
            omega
          rw [if_neg comesCloser, none_left, ok_bind, later result]
          rfl
    · simp only [allowed, Bool.false_eq_true, if_false, ok_bind]
      exact later result

theorem walk_eq (canonical : graph.Canonical)
    (known : ∀ node ∈ fabricNodes graph,
      Distance graph destination node (distances.getD (position graph node) none))
    {n depth : Nat} (isNode : u ∈ fabricNodes graph) (here : Distance graph destination u (some n))
    (deep : n < depth) (path : Path) (result : List Path) :
    walk graph limits distances depth u path result =
      (walksTo (hops graph) destination n u).foldlM
        (fun result rest => keepPath limits (path ++ rest) result) result := by
  induction n generalizing u depth path result with
  | zero =>
    obtain ⟨depth, rfl⟩ := Nat.exists_eq_succ_of_ne_zero (Nat.ne_of_gt deep)
    have atEnd := here.eq_of_zero
    have distance : distances.getD (position graph u) none = some 0 :=
      (known u isNode).unique here
    subst atEnd
    rw [walksTo_zero, if_pos rfl, List.foldlM_cons, List.append_nil]
    simp only [walk, distanceOf, index_eq canonical isNode, ok_bind, distance, pure_eq_ok, if_true]
    cases keepPath limits path result <;> rfl
  | succ n ih =>
    obtain ⟨depth, rfl⟩ := Nat.exists_eq_succ_of_ne_zero (Nat.ne_of_gt (Nat.zero_lt_of_lt deep))
    have distance : distances.getD (position graph u) none = some (n + 1) :=
      (known u isNode).unique here
    have contained := canonical.contains.mpr ((mem_fabricNodes canonical).mp isNode).2
    have notEnd : ¬ some (n + 1) = some 0 := by simp
    rw [walksTo_succ]
    simp only [walk, distanceOf, bind_assoc, index_eq canonical isNode, ok_bind, distance,
      pure_eq_ok, notEnd, if_false, TopologyGraph.outgoing, canonical.adjacency contained]
    exact foldlM_walk canonical known isNode here
      (fun _ isNext there path result => ih isNext there (show n < depth by omega) path result) path
      (graph.arcsFrom u) (fun _ member => member) result

end Walk

/-! ## Limits -/

section Limits

variable {graph : TopologyGraph} {limits : PathLimits} {n : Nat}

def tooManyPaths : Error := .lengthError "complete shortest-path set exceeds routing limits"

/-- So many paths of a certain length are within the limits. -/
def PathLimits.Fits (limits : PathLimits) (n count : Nat) : Prop :=
  count ≤ limits.maximumPaths ∧ count ≤ limits.maximumCachedRouteEntries / n

instance (limits : PathLimits) (n count : Nat) : Decidable (limits.Fits n count) :=
  inferInstanceAs (Decidable (_ ∧ _))

theorem PathLimits.Fits.entries {count : Nat} (fits : limits.Fits n count) :
    count * n ≤ limits.maximumCachedRouteEntries :=
  (Nat.mul_le_mul_right n fits.2).trans (Nat.div_mul_le_self _ n)

theorem keepPath_eq (positive : 0 < n) {path : Path} (length : path.length = n) {result : List Path}
    (fits : limits.Fits n result.length) : keepPath limits path result =
      if limits.Fits n (result.length + 1) then .ok (result ++ [path]) else .error tooManyPaths := by
  unfold keepPath
  rw [length]
  obtain ⟨fewPaths, fewEntries⟩ := fits
  by_cases full : result.length = limits.maximumPaths
  · have beyond : ¬ limits.Fits n (result.length + 1) := fun fits => by
      have le := fits.1
      omega
    rw [if_pos full, if_neg beyond]
    rfl
  · by_cases wide : result.length ≥ limits.maximumCachedRouteEntries / n
    · have beyond : ¬ limits.Fits n (result.length + 1) := fun fits => by
        have le := fits.2
        omega
      simp [full, Nat.ne_of_gt positive, wide, tooManyPaths, beyond]
    · have within : limits.Fits n (result.length + 1) := ⟨by omega, by omega⟩
      simp only [full, if_false, Nat.ne_of_gt positive, wide, within, if_true]

theorem foldlM_keepPath (positive : 0 < n) {paths : List Path}
    (lengths : ∀ path ∈ paths, path.length = n) {result : List Path}
    (fits : limits.Fits n result.length) :
    paths.foldlM (fun result path => keepPath limits path result) result =
      if limits.Fits n (result.length + paths.length) then .ok (result ++ paths)
      else .error tooManyPaths := by
  induction paths generalizing result with
  | nil => simp [fits]
  | cons path paths ih =>
    rw [List.foldlM_cons, keepPath_eq positive (lengths path (List.mem_cons_self ..)) fits]
    by_cases room : limits.Fits n (result.length + 1)
    · rw [if_pos room, ok_bind, ih (fun p member => lengths p (List.mem_cons_of_mem _ member))]
      · simp [Nat.add_assoc, Nat.add_comm 1]
      · simpa using room
    · have beyond : ¬ limits.Fits n (result.length + (path :: paths).length) := by
        intro fits
        refine room ⟨le_trans ?_ fits.1, le_trans ?_ fits.2⟩ <;> simp
      rw [if_neg room, if_neg beyond]
      rfl

/-- Two nodes of the fabric. -/
def Endpoints.Known (graph : TopologyGraph) (endpoints : Endpoints) : Prop :=
  endpoints.source ∈ fabricNodes graph ∧ endpoints.destination ∈ fabricNodes graph ∧
    endpoints.source ≠ endpoints.destination

/-- Between two nodes of the fabric, all shortest paths, or a throw at the limits. -/
theorem enumerate_eq (limits : PathLimits) (canonical : graph.Canonical) {endpoints : Endpoints}
    (known : endpoints.Known graph) :
    ∃ there, Distance graph endpoints.destination endpoints.source there ∧
      enumerate graph limits endpoints =
        match there with
        | none => .ok []
        | some n =>
          if n > limits.maximumHops then .error (.lengthError "shortest route exceeds hop limit")
          else if limits.Fits n
              (walksTo (hops graph) endpoints.destination n endpoints.source).length then
            .ok ((walksTo (hops graph) endpoints.destination n endpoints.source).insertionSort
              (· ≤ ·))
          else .error tooManyPaths := by
  obtain ⟨source, destination, distinct⟩ := known
  obtain ⟨distances, ok, known⟩ := distancesFrom_exact canonical destination
  have apart : ¬ position graph endpoints.source = position graph endpoints.destination :=
    fun same => distinct (position_inj canonical source destination same)
  refine ⟨_, known _ source, ?_⟩
  simp only [enumerate, index_eq canonical source, index_eq canonical destination, ok_bind, apart,
    if_false, ok]
  cases there : distances.getD (position graph endpoints.source) none with
  | none => rfl
  | some n =>
    have here := known _ source
    rw [there] at here
    have positive : 0 < n := by
      by_contra zero
      have isZero : n = 0 := by omega
      subst isZero
      exact distinct here.eq_of_zero
    by_cases far : n > limits.maximumHops
    · simp [far]
    · simp only [far, if_false, walk_eq canonical known source here (Nat.lt_succ_self n),
        List.nil_append]
      rw [foldlM_keepPath positive (fun path member => length_of_mem_walksTo member) (by
        exact ⟨Nat.zero_le _, Nat.zero_le _⟩)]
      simp only [List.length_nil, Nat.zero_add, List.nil_append]
      split <;> rfl

theorem enumerate_unknown (limits : PathLimits) (canonical : graph.Canonical)
    {endpoints : Endpoints} (unknown : ¬ endpoints.Known graph) :
    ∃ what, enumerate graph limits endpoints = .error (.invalidArgument what) := by
  by_cases source : endpoints.source ∈ fabricNodes graph
  · by_cases destination : endpoints.destination ∈ fabricNodes graph
    · have same : endpoints.source = endpoints.destination := by
        by_contra different
        exact unknown ⟨source, destination, different⟩
      refine ⟨"routing requires distinct endpoints", ?_⟩
      simp [enumerate, same, index_eq canonical destination]
    · refine ⟨"routing endpoint must be a known NIC or switch", ?_⟩
      simp only [enumerate, index_eq canonical source, index_unknown canonical destination, ok_bind,
        error_bind]
  · refine ⟨"routing endpoint must be a known NIC or switch", ?_⟩
    simp only [enumerate, index_unknown canonical source, error_bind]

end Limits

end NexusLab.Routing
