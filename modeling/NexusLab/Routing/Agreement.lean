import NexusLab.Routing.PathCache
import NexusLab.Topology.ShortestPath

/-! # The two shortest-path searches agree

The graph counts paths forward over all operational arcs, those to GPUs included; the path service
measures backward over fabric arcs and lists.  A GPU hangs on one link, so no shortest path between
other nodes goes through one, and both find the same paths. -/

namespace NexusLab.Routing

open Foundation NexusLab.Topology TopologyGraph

section Transit

variable {g : TopologyGraph} {u v w x : NodeId} {id id' : DirectedLinkId}

/-- All operational arcs. -/
def upward (g : TopologyGraph) : NodeId → List (DirectedLinkId × NodeId) := g.ways g.isOperational

/-- The two ports of a link stand next to each other. -/
theorem endpoints_of_link (canonical : g.Canonical) {link : PhysicalLink} (member : link ∈ g.links) :
    link.endpointA.value = 2 * link.id.value ∧ link.endpointB.value = 2 * link.id.value + 1 := by
  have found := canonical.aligned.links.mem member
  obtain ⟨a, b, isA, isB, endA, endB, _⟩ := canonical.links _ link found
  rw [endA, endB]
  exact ⟨canonical.aligned.ports _ a isA, canonical.aligned.ports _ b isB⟩

/-- A GPU has one port. -/
theorem gpu_port_unique (canonical : g.Canonical) (isGpu : w.kind = .gpu) {i j : Nat}
    (first : g.ownerAt i = some w) (second : g.ownerAt j = some w) : i = j := by
  have isNode := canonical.mem_nodes.mp (canonical.ownerAt_lt first)
  rw [isGpu] at isNode
  obtain ⟨gpu, here⟩ : ∃ gpu, g.gpus[w.value]? = some gpu := ⟨_, List.getElem?_eq_getElem isNode⟩
  have isW : w = .ofGpu gpu.id :=
    NodeId.ext isGpu (canonical.aligned.gpus _ gpu here).symm
  have owned := (canonical.gpus gpu (List.mem_of_getElem? here)).2
  have listed : ∀ k, g.ownerAt k = some w → (⟨k⟩ : PortId) ∈ g.portsOwned (.ofGpu gpu.id) := by
    intro k isOwner
    obtain ⟨port, isPort, owner⟩ := Option.map_eq_some_iff.mp isOwner
    have value := canonical.aligned.ports k port isPort
    exact mem_listed.mpr ⟨port, List.mem_of_getElem? isPort, owner.trans isW,
      StrongId.value_injective value⟩
  have one := listed i first
  have other := listed j second
  rw [owned, List.mem_singleton] at one other
  exact congrArg StrongId.value (one.trans other.symm)

/-- The only way on from a GPU is back. -/
theorem back_from_gpu (canonical : g.Canonical) (isGpu : w.kind = .gpu)
    (there : (id, w) ∈ upward g u) (onward : (id', x) ∈ upward g w) : x = u := by
  obtain ⟨link, isLink, d, _, _, source, destination⟩ := mem_ways.mp there
  obtain ⟨link', isLink', d', _, _, source', destination'⟩ := mem_ways.mp onward
  have same := gpu_port_unique canonical isGpu destination source'
  obtain ⟨endA, endB⟩ := endpoints_of_link canonical isLink
  obtain ⟨endA', endB'⟩ := endpoints_of_link canonical isLink'
  have sameOwner : (link.directed d).source.value = (link'.directed d').destination.value := by
    cases d <;> cases d' <;> simp only [PhysicalLink.directed] at same ⊢ <;> omega
  rw [sameOwner, destination'] at source
  exact Option.some.inj source

theorem upward_of_hops (canonical : g.Canonical) (way : (id, w) ∈ hops g u) :
    (id, w) ∈ upward g u := by
  obtain ⟨link, isLink, d, isId, allowed, ends⟩ := mem_ways.mp way
  rw [fabricUp_directed canonical isLink, Bool.and_eq_true] at allowed
  exact mem_ways.mpr ⟨link, isLink, d, isId, allowed.2, ends⟩

theorem ends_upward (canonical : g.Canonical) {n : Nat} (reached : v ∈ ends (targets (hops g)) n u) :
    v ∈ ends (targets (upward g)) n u := by
  obtain ⟨path, walk, length⟩ := mem_ends_iff.mp reached
  refine mem_ends_iff.mpr ⟨path, ?_, length⟩
  clear reached length
  induction path generalizing u with
  | nil => exact walk
  | cons name path ih =>
    obtain ⟨w, way, rest⟩ := walk
    exact ⟨w, upward_of_hops canonical way, ih rest⟩

/-- An operational arc that is not of the fabric leads to a GPU, or from one. -/
theorem fabricUp_of_operational (canonical : g.Canonical) {arc : DirectedLink}
    (member : arc ∈ g.arcsFrom u) (notGpu : u.kind ≠ .gpu)
    (owned : g.ownerAt arc.destination.value = some w) (up : g.isOperational arc = true) :
    fabricUp g arc = true ∨ w.kind = .gpu := by
  obtain ⟨⟨link, isLink, d, rfl⟩, source⟩ := mem_arcsFrom_iff.mp member
  rw [fabricUp_directed canonical isLink, up, Bool.and_true, decide_eq_true_eq]
  obtain ⟨i, found⟩ := List.mem_iff_getElem?.mp isLink
  obtain ⟨a, b, isA, isB, endA, endB, _, attached | fabric⟩ := canonical.links i link found
  · right
    have ownerA : g.ownerAt link.endpointA.value = some a.owner := by
      rw [endA, canonical.aligned.ports _ a isA, ownerAt, isA]
      rfl
    cases d with
    | aToB =>
      have same := ownerA.symm.trans source
      cases same
      exact absurd attached.2.1 notGpu
    | bToA =>
      have same := ownerA.symm.trans owned
      cases same
      exact attached.2.1
  · exact .inl fabric.1

theorem flatMap_filterMap_congr {α β γ : Type} {l : List α} {h h' : α → Option β}
    {f f' : β → List γ} (same : ∀ a ∈ l, ((h a).map f).getD [] = ((h' a).map f').getD []) :
    (l.filterMap h).flatMap f = (l.filterMap h').flatMap f' := by
  induction l with
  | nil => rfl
  | cons a l ih =>
    have here := same a (List.mem_cons_self ..)
    have rest := ih fun b member => same b (List.mem_cons_of_mem _ member)
    rw [List.filterMap_cons, List.filterMap_cons]
    cases first : h a <;> cases second : h' a <;> simp_all

/-- With no shorter walk over all arcs, the walks over all arcs are those over the fabric. -/
theorem walksTo_upward (canonical : g.Canonical) (endFabric : v.kind ≠ .gpu) {n : Nat}
    (startFabric : u.kind ≠ .gpu)
    (least : ∀ m, m < n → v ∉ ends (targets (upward g)) m u) :
    walksTo (upward g) v n u = walksTo (hops g) v n u := by
  induction n generalizing u with
  | zero => rw [walksTo_zero, walksTo_zero]
  | succ n ih =>
    have later : ∀ w id, (id, w) ∈ upward g u → ∀ m, m < n → v ∉ ends (targets (upward g)) m w := by
      intro w id way m less reached
      refine least (m + 1) (by omega) ?_
      exact List.mem_flatMap.mpr ⟨w, List.mem_map.mpr ⟨(id, w), way, rfl⟩, reached⟩
    rw [walksTo_succ, walksTo_succ]
    apply flatMap_filterMap_congr
    intro arc member
    cases up : g.isOperational arc with
    | false =>
      have notUsed : fabricUp g arc = false := by
        unfold fabricUp
        split
        · simp [up]
        · rfl
      simp [notUsed]
    | true =>
      cases owned : g.ownerAt arc.destination.value with
      | none => simp
      | some w =>
        have way : (arc.id, w) ∈ upward g u :=
          List.mem_filterMap.mpr ⟨arc, member, by simp [up, owned]⟩
        -- a GPU is a dead end: the only way on leads back, and that is no shorter
        by_cases isGpu : w.kind = .gpu
        · have none_on : walksTo (upward g) v n w = [] := by
            apply walksTo_eq_nil
            intro reached
            cases n with
            | zero => exact endFabric (List.mem_singleton.mp reached ▸ isGpu)
            | succ n =>
              obtain ⟨x, isNext, onward⟩ := List.mem_flatMap.mp reached
              obtain ⟨⟨id, x⟩, second, rfl⟩ := List.mem_map.mp isNext
              have back := back_from_gpu canonical isGpu way second
              subst back
              exact least n (by omega) onward
          -- nor is there a walk over the fabric from there
          have none_on' : walksTo (hops g) v n w = [] := by
            apply walksTo_eq_nil
            intro reached
            have upReached := ends_upward canonical reached
            rw [← List.count_pos_iff, ← length_walksTo, none_on] at upReached
            simp at upReached
          by_cases allowed : fabricUp g arc = true <;> simp [allowed, none_on, none_on']
        · have allowed : fabricUp g arc = true :=
            (fabricUp_of_operational canonical member startFabric owned up).resolve_right isGpu
          simp [allowed, ih isGpu (later w arc.id way)]

/-- The distance over all arcs is the distance the path service measures from the other end. -/
theorem distance_of_upward (canonical : g.Canonical) (endFabric : v.kind ≠ .gpu)
    (startFabric : u.kind ≠ .gpu) {n : Nat} (reached : v ∈ ends (targets (upward g)) n u)
    (least : ∀ m, m < n → v ∉ ends (targets (upward g)) m u) : Distance g v u (some n) := by
  have symm := hops_symm canonical
  constructor
  · apply ends_symm symm
    rw [← List.count_pos_iff, ← length_walksTo] at reached ⊢
    rwa [← walksTo_upward canonical endFabric startFabric least]
  · intro m less back
    exact least m less (ends_upward canonical (ends_symm symm back))

theorem distance_of_unreached (canonical : g.Canonical)
    (unreached : ∀ n, v ∉ ends (targets (upward g)) n u) : Distance g v u none := by
  intro n back
  exact unreached n (ends_upward canonical (ends_symm (hops_symm canonical) back))

/-- Both ends of an operational arc are up. -/
theorem operational_ends (canonical : g.Canonical) (way : (id, w) ∈ upward g u) :
    g.nodeIsOperational u = true ∧ g.nodeIsOperational w = true := by
  obtain ⟨link, isLink, d, _, up, source, destination⟩ := mem_ways.mp way
  obtain ⟨a, isA, ownerA⟩ := canonical.ownerAt_eq.mp source
  obtain ⟨b, isB, ownerB⟩ := canonical.ownerAt_eq.mp destination
  have found : g.findLink (link.directed d).id.link = some link := by
    cases d <;> exact findLink_of_mem canonical isLink
  simp only [isOperational, found, isA, isB, Bool.and_eq_true] at up
  rw [← ownerA, ← ownerB]
  exact ⟨up.1.2, up.2⟩

/-- Nothing leads to or from a node that is down. -/
theorem unreached_of_down (canonical : g.Canonical) (distinct : u ≠ v)
    (down : g.nodeIsOperational u = false ∨ g.nodeIsOperational v = false) (n : Nat) :
    v ∉ ends (targets (upward g)) n u := by
  intro reached
  cases n with
  | zero => exact distinct (List.mem_singleton.mp reached).symm
  | succ n =>
    have upU : g.nodeIsOperational u = true := by
      obtain ⟨w, isNext, _⟩ := List.mem_flatMap.mp reached
      obtain ⟨⟨id, w⟩, way, rfl⟩ := List.mem_map.mp isNext
      exact (operational_ends canonical way).1
    have upV : g.nodeIsOperational v = true := by
      rw [ends_succ_eq] at reached
      obtain ⟨w, _, isNext⟩ := List.mem_flatMap.mp reached
      obtain ⟨⟨id, x⟩, way, rfl⟩ := List.mem_map.mp isNext
      exact (operational_ends canonical way).2
    rcases down with downU | downV
    · rw [upU] at downU
      cases downU
    · rw [upV] at downV
      cases downV

/-- What the enumeration returns, in the words of the graph's own summary. -/
theorem enumerate_summary (limits : PathLimits) (canonical : g.Canonical)
    (source : g.contains u = true) (destination : g.contains v = true) (startFabric : u.kind ≠ .gpu)
    (endFabric : v.kind ≠ .gpu) (distinct : u ≠ v) {result : Option ShortestPathSummary}
    (ok : g.shortestPathSummary u v = .ok result) :
    (result = none → enumerate g limits ⟨u, v⟩ = .ok []) ∧
    ∀ summary, result = some summary →
      ((∃ paths, enumerate g limits ⟨u, v⟩ = .ok paths) ↔ summary.hops ≤ limits.maximumHops ∧
        summary.pathCount ≤ limits.maximumPaths ∧
        summary.pathCount ≤ limits.maximumCachedRouteEntries / summary.hops) ∧
      ∀ paths, enumerate g limits ⟨u, v⟩ = .ok paths → paths.Nodup ∧
        paths.length = summary.pathCount ∧
        ∀ path, path ∈ paths ↔ g.OperationalPath u path v ∧ path.length = summary.hops := by
  have isU := canonical.contains.mp source
  have isV := canonical.contains.mp destination
  have isNode := canonical.mem_nodes.mpr isU
  have known : Endpoints.Known g ⟨u, v⟩ := ⟨(mem_fabricNodes canonical).mpr ⟨startFabric, isU⟩,
    (mem_fabricNodes canonical).mpr ⟨endFabric, isV⟩, distinct⟩
  obtain ⟨there, distance, enumerated⟩ := enumerate_eq limits canonical known
  obtain ⟨exact_summary, _⟩ := shortestPathSummary_exact canonical source destination
  rcases exact_summary with thrown | ⟨result', ok', isNone, summarizes⟩
  · rw [thrown] at ok
    cases ok
  rw [ok'] at ok
  cases ok
  refine ⟨?_, ?_⟩
  · intro nothing
    -- without a path no number of hops reaches `v`
    have unreached : ∀ n, v ∉ ends (targets (upward g)) n u := by
      intro n reached
      rcases isNone.mp nothing with downU | downV | noPath
      · exact unreached_of_down canonical distinct (.inl downU) n reached
      · exact unreached_of_down canonical distinct (.inr downV) n reached
      · obtain ⟨path, walk, _⟩ := mem_ends_iff.mp reached
        exact noPath ⟨path, (operationalPath_iff canonical isNode).mpr walk⟩
    have same := distance.unique (distance_of_unreached canonical unreached)
    subst same
    exact enumerated
  · intro summary isSummary
    obtain ⟨⟨path, isPath, length⟩, least, counted⟩ := summarizes summary isSummary
    have reached : v ∈ ends (targets (upward g)) summary.hops u :=
      mem_ends_iff.mpr ⟨path, (operationalPath_iff canonical isNode).mp isPath, length⟩
    have minimal : ∀ m, m < summary.hops → v ∉ ends (targets (upward g)) m u := by
      intro m less reached
      obtain ⟨path, walk, length⟩ := mem_ends_iff.mp reached
      have le := least path ((operationalPath_iff canonical isNode).mpr walk)
      omega
    have same := distance.unique (distance_of_upward canonical endFabric startFabric reached minimal)
    subst same
    -- the enumeration walks back from `v`, and the summary searches from `u`
    have walks := walksTo_upward canonical endFabric startFabric minimal
    have count : (walksTo (hops g) v summary.hops u).length = summary.pathCount := by
      rw [← walks, length_walksTo, ← counted, ncard_walksTo canonical isNode]
      rfl
    simp only [count] at enumerated
    -- the hops are checked before the number of paths and of entries
    by_cases far : summary.hops > limits.maximumHops
    · rw [if_pos far] at enumerated
      refine ⟨⟨?_, fun within => absurd within.1 (not_le.mpr far)⟩, ?_⟩
      · rintro ⟨paths, ok⟩
        rw [enumerated] at ok
        cases ok
      · intro paths ok
        rw [enumerated] at ok
        cases ok
    · rw [if_neg far] at enumerated
      by_cases fits : limits.Fits summary.hops summary.pathCount
      · rw [if_pos fits] at enumerated
        refine ⟨⟨fun _ => ⟨not_lt.mp far, fits⟩, fun _ => ⟨_, enumerated⟩⟩, ?_⟩
        intro paths ok
        rw [enumerated] at ok
        cases ok
        have perm := List.perm_insertionSort (· ≤ ·) (walksTo (hops g) v summary.hops u)
        refine ⟨?_, perm.length_eq.trans count, ?_⟩
        · exact perm.nodup_iff.mpr (nodup_walksTo canonical.ways_named)
        · intro path
          rw [perm.mem_iff, ← walks, mem_walksTo, operationalPath_iff canonical isNode]
          rfl
      · rw [if_neg fits] at enumerated
        refine ⟨⟨?_, fun within => absurd within.2 fits⟩, ?_⟩
        · rintro ⟨paths, ok⟩
          rw [enumerated] at ok
          cases ok
        · intro paths ok
          rw [enumerated] at ok
          cases ok

end Transit

/-- Over any graph that was built, with any states: the summary, unless its count overflows, is the
fewest operational hops and the number of paths that have no more, and it is absent exactly when no
path is operational or an end is down; the hops alone are the same.  A path service that looks at the
graph, whatever it has cached, lists exactly these paths between any two NICs or switches, and does so
exactly within its limits. -/
theorem shortest_paths_agree {g : TopologyGraph} (built : g.Built) {u v : NodeId}
    (source : g.contains u = true) (destination : g.contains v = true) :
    (g.shortestPathSummary u v = .error countOverflow ∨
      ∃ result, g.shortestPathSummary u v = .ok result ∧
        (result = none ↔ g.nodeIsOperational u = false ∨ g.nodeIsOperational v = false ∨
          ¬ ∃ path, g.OperationalPath u path v) ∧
        ∀ summary, result = some summary → Summarizes g u v summary) ∧
    (∃ hops, g.shortestHops u v = .ok hops ∧
      ∀ result, g.shortestPathSummary u v = .ok result →
        hops = result.map ShortestPathSummary.hops) ∧
    ∀ limits service, PathSession.Reachable limits ⟨g, service⟩ → u.kind ≠ .gpu → v.kind ≠ .gpu →
      u ≠ v → ∀ result, g.shortestPathSummary u v = .ok result →
        (result = none → ∃ service', service.lookup g ⟨u, v⟩ = .ok [] service') ∧
        ∀ summary, result = some summary →
          ((∃ paths service', service.lookup g ⟨u, v⟩ = .ok paths service') ↔
            summary.hops ≤ limits.maximumHops ∧ summary.pathCount ≤ limits.maximumPaths ∧
            summary.pathCount ≤ limits.maximumCachedRouteEntries / summary.hops) ∧
          ∀ paths service', service.lookup g ⟨u, v⟩ = .ok paths service' →
            paths.Nodup ∧ paths.length = summary.pathCount ∧
            ∀ path, path ∈ paths ↔ g.OperationalPath u path v ∧ path.length = summary.hops := by
  have canonical := built.canonical
  obtain ⟨exact_summary, exact_hops⟩ := shortestPathSummary_exact canonical source destination
  refine ⟨exact_summary, exact_hops, ?_⟩
  intro limits service reachable startFabric endFabric distinct result ok
  obtain ⟨_, sound, sameLimits⟩ := reachable.invariant
  -- a sound cache answers as a fresh enumeration does
  have looked := wp_lookup ⟨u, v⟩ canonical sound
  rw [sameLimits] at looked
  have answered : ∀ paths, enumerate g limits ⟨u, v⟩ = .ok paths →
      ∃ service', service.lookup g ⟨u, v⟩ = .ok paths service' := by
    intro paths enumerated
    cases outcome : service.lookup g ⟨u, v⟩ with
    | ok found service' =>
      have same := (wp_of_ok looked outcome).2.2
      rw [enumerated] at same
      cases same
      exact ⟨service', rfl⟩
    | error e service' =>
      have same := (wp_of_error looked outcome).2.2.1
      rw [enumerated] at same
      cases same
  -- the rest is about the enumeration alone
  obtain ⟨nothing, something⟩ := enumerate_summary limits canonical source destination startFabric
    endFabric distinct ok
  refine ⟨fun isNone => answered [] (nothing isNone), ?_⟩
  intro summary isSummary
  obtain ⟨within, listed⟩ := something summary isSummary
  refine ⟨?_, ?_⟩
  · rw [← within]
    constructor
    · rintro ⟨paths, service', outcome⟩
      exact ⟨paths, (wp_of_ok looked outcome).2.2⟩
    · rintro ⟨paths, enumerated⟩
      exact ⟨paths, answered paths enumerated⟩
  · intro paths service' outcome
    exact listed paths (wp_of_ok looked outcome).2.2

/-- One way across the switch, of two hops, which a new path service finds. -/
theorem shortest_paths_agree_star :
    Summarizes PathSession.star ⟨.nic, 0⟩ ⟨.nic, 1⟩ ⟨2, 1⟩ ∧
    PathSession.star.shortestHops ⟨.nic, 0⟩ ⟨.nic, 1⟩ = .ok (some 2) ∧
    ∃ paths service', PathService.lookup PathSession.star PathSession.acrossStar
        { limits := {}, revision := 0 } = .ok paths service' ∧
      paths.length = 1 ∧
      ∀ path, path ∈ paths ↔
        PathSession.star.OperationalPath ⟨.nic, 0⟩ path ⟨.nic, 1⟩ ∧ path.length = 2 := by
  have computed : PathSession.star.shortestPathSummary ⟨.nic, 0⟩ ⟨.nic, 1⟩ =
      .ok (some ⟨2, 1⟩) := by decide +kernel
  have created : PathSession.Reachable {} ⟨PathSession.star, { limits := {}, revision := 0 }⟩ :=
    .created PathSession.star_built rfl
  obtain ⟨summary, ⟨hops, isHops, sameHops⟩, looksUp⟩ :=
    shortest_paths_agree PathSession.star_built (u := ⟨.nic, 0⟩) (v := ⟨.nic, 1⟩)
      (by decide +kernel) (by decide +kernel)
  have summarizes : Summarizes PathSession.star ⟨.nic, 0⟩ ⟨.nic, 1⟩ ⟨2, 1⟩ := by
    obtain thrown | ⟨result, ok, _, summarizes⟩ := summary
    · rw [computed] at thrown
      cases thrown
    · rw [computed] at ok
      cases ok
      exact summarizes _ rfl
  refine ⟨summarizes, ?_, ?_⟩
  · rw [isHops, sameHops _ computed]
    rfl
  · obtain ⟨_, found⟩ := looksUp {} _ created (by decide) (by decide) (by decide) _ computed
    obtain ⟨within, listed⟩ := found _ rfl
    obtain ⟨paths, service', looked⟩ := within.mpr (by decide)
    obtain ⟨_, count, shortest⟩ := listed paths service' looked
    exact ⟨paths, service', looked, count, shortest⟩

end NexusLab.Routing
