import NexusLab.Topology.Validation

/-! # What validation finds in a graph that was built

All relations hold in a canonical graph, so each check but the last comes out empty, and the
traversal marks exactly the nodes that links join to the first GPU. -/

namespace NexusLab.Topology

open Foundation

namespace Validation

variable {g : TopologyGraph}

@[simp] theorem require_eq_nil {holds : Prop} [Decidable holds] {error : ValidationError} :
    require holds error = [] ↔ holds := by
  unfold require
  by_cases h : holds <;> simp [h]

/-! ## Entities -/

section Entities

variable {ε Tag : Type} {idOf : ε → StrongId Tag} {entities : List ε}

theorem validateDense_nil (dense : Dense idOf entities) (kind : String) :
    validateDense idOf entities kind = [] := by
  unfold validateDense
  rw [require_eq_nil, hasDenseIds, List.all_eq_true]
  intro entry member
  have found := List.mem_zipIdx_iff_getElem?.mp member
  simpa using dense _ _ found

variable {belongs : ε → Prop} [DecidablePred belongs]

/-- What is listed is there, belongs, and is listed once. -/
theorem Dense.find_listed (dense : Dense idOf entities) {id : StrongId Tag}
    (member : id ∈ listed belongs idOf entities) :
    ∃ entity, findDense idOf entities id = some entity ∧ belongs entity ∧
      (listed belongs idOf entities).count id = 1 := by
  obtain ⟨entity, isEntity, here, rfl⟩ := mem_listed.mp member
  refine ⟨entity, ?_, here, dense.count_listed isEntity here⟩
  rw [dense.find]
  exact dense.mem isEntity

end Entities

theorem validateRacks_nil (canonical : g.Canonical) : validateRacks g = [] := by
  have aligned := canonical.aligned
  rw [validateRacks, List.flatMap_eq_nil_iff]
  intro rack member
  obtain ⟨gpus, nics, leaves⟩ := canonical.racks rack member
  rw [List.append_eq_nil_iff, List.append_eq_nil_iff]
  refine ⟨⟨?_, ?_⟩, ?_⟩
  · rw [validateRackGpus, List.flatMap_eq_nil_iff, gpus]
    intro id listed
    obtain ⟨gpu, found, home, once⟩ := Dense.find_listed aligned.gpus listed
    simp only [TopologyGraph.findGpu, found, require_eq_nil]
    exact ⟨home, once⟩
  · rw [validateRackNics, List.flatMap_eq_nil_iff, nics]
    intro id listed
    obtain ⟨nic, found, home, once⟩ := Dense.find_listed aligned.nics listed
    simp only [TopologyGraph.findNic, found, require_eq_nil]
    exact ⟨home, once⟩
  · rw [validateRackSwitches, List.flatMap_eq_nil_iff, leaves]
    intro id listed
    obtain ⟨s, found, home, once⟩ := Dense.find_listed aligned.switches listed
    simp only [TopologyGraph.findSwitch, found, require_eq_nil]
    refine ⟨?_, home, once⟩
    rw [aligned.switches.find] at found
    rcases (canonical.switches s (List.mem_of_getElem? found)).2 with leaf | spine
    · exact leaf.1
    · rw [spine.2] at home
      cases home

/-- A rack that is referred to is there. -/
theorem findRack_some (canonical : g.Canonical) {rack : RackId} (known : rack.value < g.racks.length) :
    ∃ found, g.findRack rack = some found ∧ found ∈ g.racks ∧ found.id = rack := by
  have here := List.getElem?_eq_getElem known
  refine ⟨g.racks[rack.value], ?_, List.getElem_mem known, ?_⟩
  · rw [TopologyGraph.findRack, canonical.aligned.racks.find, here]
  · exact StrongId.value_injective (canonical.aligned.racks _ _ here)

theorem validateGpu_nil (canonical : g.Canonical) {gpu : GpuWorker} (member : gpu ∈ g.gpus) :
    validateGpu g gpu = [] := by
  have aligned := canonical.aligned
  obtain ⟨⟨nic, isNic, sameRack⟩, owned⟩ := canonical.gpus gpu member
  obtain ⟨rack, foundRack, isRack, rackId⟩ := findRack_some canonical (canonical.rack_lt member)
  have nicId : nic.id = gpu.attachedNic := StrongId.value_injective (aligned.nics _ _ isNic)
  have foundNic : g.findNic gpu.attachedNic = some nic := by
    rw [TopologyGraph.findNic, aligned.nics.find, isNic]
  have listed : gpu.port ∈ g.portsOwned (.ofGpu gpu.id) := by simp [owned]
  obtain ⟨port, foundPort, owner, _⟩ := Dense.find_listed aligned.ports listed
  have isPort : port ∈ g.ports := by
    rw [aligned.ports.find] at foundPort
    exact List.mem_of_getElem? foundPort
  have attached := (canonical.nics nic (List.mem_of_getElem? isNic)).2.1
  have resident := (canonical.racks rack isRack).1
  simp only [validateGpu, foundNic, foundRack, TopologyGraph.findPort, foundPort,
    List.append_eq_nil_iff, require_eq_nil]
  refine ⟨⟨sameRack.symm, ?_, ?_⟩, owner, ?_⟩
  · rw [attached]
    exact aligned.gpus.count_listed member nicId.symm
  · rw [resident]
    exact aligned.gpus.count_listed member rackId.symm
  · exact canonical.gpuPorts port isPort (by rw [owner]; rfl)

theorem validateOwnedPorts_nil (canonical : g.Canonical) {node : NodeId} {ports : List PortId}
    (owned : ports = g.portsOwned node) : validateOwnedPorts g node ports = [] := by
  rw [validateOwnedPorts, List.flatMap_eq_nil_iff, owned]
  intro id listed
  obtain ⟨port, found, owner, once⟩ := Dense.find_listed canonical.aligned.ports listed
  simp only [TopologyGraph.findPort, found, require_eq_nil]
  exact ⟨owner, once⟩

theorem validateNic_nil (canonical : g.Canonical) {nic : Nic} (member : nic ∈ g.nics) :
    validateNic g nic = [] := by
  have aligned := canonical.aligned
  obtain ⟨home, gpus, ports⟩ := canonical.nics nic member
  obtain ⟨rack, foundRack, isRack, rackId⟩ := findRack_some canonical home
  rw [validateNic, List.append_eq_nil_iff, List.append_eq_nil_iff]
  refine ⟨⟨?_, ?_⟩, validateOwnedPorts_nil canonical ports⟩
  · simp only [validateNicHome, foundRack, require_eq_nil]
    rw [(canonical.racks rack isRack).2.1]
    exact aligned.nics.count_listed member rackId.symm
  · rw [validateAttachedGpus, List.flatMap_eq_nil_iff, gpus]
    intro id listed
    obtain ⟨gpu, found, attached, once⟩ := Dense.find_listed aligned.gpus listed
    simp only [TopologyGraph.findGpu, found, require_eq_nil]
    exact ⟨attached, once⟩

theorem validateSwitch_nil (canonical : g.Canonical) {s : Switch} (member : s ∈ g.switches) :
    validateSwitch g s = [] := by
  obtain ⟨ports, home⟩ := canonical.switches s member
  rw [validateSwitch, List.append_eq_nil_iff]
  refine ⟨?_, validateOwnedPorts_nil canonical ports⟩
  unfold validateSwitchHome
  rcases home with ⟨role, rack, isRack, known⟩ | ⟨role, noRack⟩
  · obtain ⟨found, foundRack, isFound, rackId⟩ := findRack_some canonical known
    simp only [role, isRack, Option.bind_some, foundRack, require_eq_nil]
    rw [(canonical.racks found isFound).2.2]
    exact canonical.aligned.switches.count_listed member (by rw [isRack, rackId])
  · simp only [role, require_eq_nil]
    exact noRack

/-! ## Ports -/

/-- Each link adds one to the counts of its two ports. -/
theorem foldl_counts {links : List PhysicalLink} {offset : Nat}
    (pairs : ∀ i link, links[i]? = some link →
      link.endpointA.value = 2 * (offset + i) ∧ link.endpointB.value = 2 * (offset + i) + 1) :
    links.foldl (fun counts link =>
        countPortEndpoint (countPortEndpoint counts link.endpointA) link.endpointB)
      (List.replicate (2 * offset) 1 ++ List.replicate (2 * links.length) 0) =
      List.replicate (2 * (offset + links.length)) 1 := by
  induction links generalizing offset with
  | nil => simp
  | cons link links ih =>
    obtain ⟨endA, endB⟩ := pairs 0 link rfl
    have counted : countPortEndpoint (countPortEndpoint (List.replicate (2 * offset) 1 ++
          List.replicate (2 * (link :: links).length) 0) link.endpointA) link.endpointB =
        List.replicate (2 * (offset + 1)) 1 ++ List.replicate (2 * links.length) 0 := by
      rw [Nat.add_zero] at endA endB
      apply List.ext_getElem?
      intro j
      simp only [countPortEndpoint, List.getElem?_modify, List.getElem?_append,
        List.getElem?_replicate, List.length_replicate, List.length_cons, endA, endB]
      by_cases first : 2 * offset = j
      · subst first
        simp
      · by_cases second : 2 * offset + 1 = j
        · subst second
          have beyond : ¬ 2 * offset + 1 < 2 * offset := by omega
          have within : 2 * offset + 1 < 2 * (offset + 1) := by omega
          have left : 1 < 2 * (links.length + 1) := by omega
          simp [beyond, within, left]
        · by_cases old : j < 2 * offset
          · have small : j < 2 * (offset + 1) := by omega
            simp [first, second, old, small]
          · have large : ¬ j < 2 * (offset + 1) := by omega
            have shifted : j - 2 * offset < 2 * (links.length + 1) ↔
                j - 2 * (offset + 1) < 2 * links.length := by omega
            simp [first, second, old, large, shifted]
    rw [List.foldl_cons, counted, ih]
    · congr 1
      simp
      omega
    · intro i found isFound
      have shifted := pairs (i + 1) found isFound
      rw [show offset + 1 + i = offset + (i + 1) by omega]
      exact shifted

theorem portLinkCounts_eq (canonical : g.Canonical) :
    portLinkCounts g = List.replicate g.ports.length 1 := by
  have counted := @foldl_counts g.links 0 (by
    intro i link found
    obtain ⟨a, b, isA, isB, endA, endB, _⟩ := canonical.links i link found
    rw [endA, endB, canonical.aligned.ports _ a isA, canonical.aligned.ports _ b isB]
    simp)
  rw [portLinkCounts, canonical.pairs]
  simpa using counted

theorem ownerReferences_true (canonical : g.Canonical) {port : Port} (member : port ∈ g.ports) :
    ownerReferences g port = true := by
  have aligned := canonical.aligned
  have known := canonical.owners port member
  have listed : port.id ∈ g.portsOwned port.owner := mem_listed.mpr ⟨port, member, rfl, rfl⟩
  have once : (g.portsOwned port.owner).count port.id = 1 := aligned.ports.count_listed member rfl
  unfold ownerReferences
  cases kind : port.owner.kind with
  | gpu =>
    rw [kind] at known
    obtain ⟨found, here⟩ : ∃ found, g.gpus[port.owner.value]? = some found :=
      ⟨_, List.getElem?_eq_getElem known⟩
    have isGpu := List.mem_of_getElem? here
    have owner : port.owner = .ofGpu found.id :=
      NodeId.ext kind (aligned.gpus _ _ here).symm
    have owned := (canonical.gpus _ isGpu).2
    rw [← owner] at owned
    rw [owned, List.mem_singleton] at listed
    simp [TopologyGraph.findGpu, aligned.gpus.find, here, listed]
  | nic =>
    rw [kind] at known
    obtain ⟨found, here⟩ : ∃ found, g.nics[port.owner.value]? = some found :=
      ⟨_, List.getElem?_eq_getElem known⟩
    have isNic := List.mem_of_getElem? here
    have owner : port.owner = .ofNic found.id :=
      NodeId.ext kind (aligned.nics _ _ here).symm
    have owned := (canonical.nics _ isNic).2.2
    rw [← owner] at owned
    simp [TopologyGraph.findNic, aligned.nics.find, here, owned, once]
  | switch =>
    rw [kind] at known
    obtain ⟨found, here⟩ : ∃ found, g.switches[port.owner.value]? = some found :=
      ⟨_, List.getElem?_eq_getElem known⟩
    have isSwitch := List.mem_of_getElem? here
    have owner : port.owner = .ofSwitch found.id :=
      NodeId.ext kind (aligned.switches _ _ here).symm
    have owned := (canonical.switches _ isSwitch).1
    rw [← owner] at owned
    simp [TopologyGraph.findSwitch, aligned.switches.find, here, owned, once]

theorem validatePort_nil (canonical : g.Canonical) {port : Port} (member : port ∈ g.ports) :
    validatePort g (portLinkCounts g) port = [] := by
  rw [validatePort, List.append_eq_nil_iff, require_eq_nil, require_eq_nil]
  refine ⟨ownerReferences_true canonical member, ?_⟩
  have known := (List.getElem?_eq_some_iff.mp (canonical.aligned.ports.mem member)).1
  rw [portLinkCounts_eq canonical]
  simp [known]

/-! ## Links -/

theorem validateLink_nil (canonical : g.Canonical) {link : PhysicalLink} (member : link ∈ g.links) :
    validateLink g link = .ok [] := by
  obtain ⟨i, found⟩ := List.mem_iff_getElem?.mp member
  obtain ⟨a, b, isA, isB, endA, endB, different, joins⟩ := canonical.links i link found
  have foundA : g.findPort link.endpointA = some a := by
    rw [canonical.findPort, endA, canonical.aligned.ports _ a isA, isA]
  have foundB : g.findPort link.endpointB = some b := by
    rw [canonical.findPort, endB, canonical.aligned.ports _ b isB, isB]
  have knownA : g.contains a.owner = true :=
    canonical.contains.mpr (canonical.owners a (List.mem_of_getElem? isA))
  have knownB : g.contains b.owner = true :=
    canonical.contains.mpr (canonical.owners b (List.mem_of_getElem? isB))
  have fromA : (g.arcsFrom a.owner).count (link.directed .aToB) = 1 := by
    refine List.count_eq_one_of_mem (canonical.nodup_arcsFrom _) ?_
    exact TopologyGraph.mem_arcsFrom_iff.mpr ⟨⟨link, member, .aToB, rfl⟩,
      canonical.ownerAt_eq.mpr ⟨a, foundA, rfl⟩⟩
  have fromB : (g.arcsFrom b.owner).count (link.directed .bToA) = 1 := by
    refine List.count_eq_one_of_mem (canonical.nodup_arcsFrom _) ?_
    exact TopologyGraph.mem_arcsFrom_iff.mpr ⟨⟨link, member, .bToA, rfl⟩,
      canonical.ownerAt_eq.mpr ⟨b, foundB, rfl⟩⟩
  have adjacency : validateAdjacency g link a b = .ok [] := by
    simp [validateAdjacency, TopologyGraph.outgoing, canonical.adjacency knownA,
      canonical.adjacency knownB, fromA, fromB]
  have ids : a.id ≠ b.id := by
    intro same
    have values := congrArg StrongId.value same
    rw [canonical.aligned.ports _ a isA, canonical.aligned.ports _ b isB] at values
    omega
  have kinds : validateLinkKind link a b = [] := by
    simp only [validateLinkKind, require_eq_nil]
    rcases joins with ⟨kind, gpu, nic, roleA, roleB⟩ | fabric
    · exact .inl ⟨kind, .inl ⟨gpu, nic⟩, roleA, roleB⟩
    · exact .inr fabric
  simp [validateLink, foundA, foundB, knownA, knownB, adjacency, kinds, ids, different]

/-! ## Connectivity -/

section Traversal

variable {visited : StructuralVisited} {s : Search NodeId}

theorem mark_of_contains {node : NodeId} (marked : visited.contains node = true) :
    visited.mark node = none := by
  unfold StructuralVisited.contains at marked
  unfold StructuralVisited.mark
  split
  · rename_i unmarked
    simp [unmarked] at marked
  · rfl

theorem mark_of_new {node : NodeId} (known : node.value < (visited.values node.kind).length)
    (unmarked : visited.contains node = false) :
    ∃ visited', visited.mark node = some visited' ∧
      (∀ kind, (visited'.values kind).length = (visited.values kind).length) ∧
      ∀ other, visited'.contains other = (visited.contains other || other = node) := by
  have found : (visited.values node.kind)[node.value]? = some false := by
    unfold StructuralVisited.contains at unmarked
    rw [List.getElem?_eq_getElem known] at unmarked ⊢
    simpa using unmarked
  obtain ⟨kind, value⟩ := node
  simp only [StructuralVisited.mark, found]
  cases kind
  all_goals
    refine ⟨_, rfl, ?_, ?_⟩
    · intro kind
      cases kind <;> simp [StructuralVisited.values]
    · rintro ⟨kind, other⟩
      cases kind <;> simp only [StructuralVisited.contains, StructuralVisited.values,
        List.getElem?_set, NodeId.mk.injEq, reduceCtorEq, false_and, true_and, decide_false,
        Bool.or_false]
      by_cases same : value = other
      · subst same
        simp_all [StructuralVisited.values]
      · have different : ¬ other = value := fun h => same h.symm
        simp [same, different]

/-- The traversal has marked what the search has. -/
structure Tracks (g : TopologyGraph) (visited : StructuralVisited) (s : Search NodeId) : Prop where
  sizes : ∀ kind, (visited.values kind).length = g.count kind
  marks : ∀ node ∈ g.nodes, visited.contains node = (s.hops node).isSome
  inside : ∀ node ∈ s.frontier, node ∈ g.nodes

theorem meet_tracks (canonical : g.Canonical) (tracks : Tracks g visited s) (level count : Nat)
    (arc : DirectedLink) :
    ∃ visited', meet g (visited, s.frontier) arc = (visited',
        (s.scan level count (g.ownerAt arc.destination.value).toList).frontier) ∧
      Tracks g visited' (s.scan level count (g.ownerAt arc.destination.value).toList) := by
  unfold meet
  cases found : g.findPort arc.destination with
  | none =>
    -- a port that is not found has no owner
    have nowhere : g.ownerAt arc.destination.value = none := by
      by_contra owned
      obtain ⟨owner, isOwner⟩ := Option.ne_none_iff_exists'.mp owned
      obtain ⟨port, isPort, _⟩ := canonical.ownerAt_eq.mp isOwner
      rw [found] at isPort
      cases isPort
    rw [nowhere]
    exact ⟨visited, rfl, tracks⟩
  | some port =>
    have owned : g.ownerAt arc.destination.value = some port.owner :=
      canonical.ownerAt_eq.mpr ⟨port, found, rfl⟩
    have isNode := canonical.ownerAt_lt owned
    rw [owned]
    show ∃ visited', _ = (visited', (s.discover level count port.owner).frontier) ∧
      Tracks g visited' (s.discover level count port.owner)
    have marks := tracks.marks _ isNode
    cases marked : visited.contains port.owner with
    | true =>
      -- a node that was visited changes neither side
      have old : s.hops port.owner ≠ none := by
        intro unmarked
        rw [marked, unmarked] at marks
        cases marks
      have sameHops : ∀ w, (s.discover level count port.owner).hops w = s.hops w := by
        intro w
        rw [Search.hops_discover, if_neg]
        rintro ⟨unmarked, rfl⟩
        exact old unmarked
      have sameFrontier : (s.discover level count port.owner).frontier = s.frontier := by
        rw [Search.frontier_discover, if_neg old]
      simp only [mark_of_contains marked, sameFrontier]
      refine ⟨visited, rfl, tracks.sizes, ?_, ?_⟩
      · intro node member
        rw [sameHops]
        exact tracks.marks node member
      · rw [sameFrontier]
        exact tracks.inside
    | false =>
      -- a new node is marked, and waits at the end of the frontier
      have new : s.hops port.owner = none := by
        rw [marked] at marks
        simpa using marks.symm
      have sameFrontier : (s.discover level count port.owner).frontier =
          s.frontier ++ [port.owner] := by
        rw [Search.frontier_discover, if_pos new]
      obtain ⟨visited', isMarked, sizes, contains⟩ := mark_of_new (by
        rw [tracks.sizes]
        exact canonical.mem_nodes.mp isNode) marked
      simp only [isMarked, sameFrontier]
      refine ⟨visited', rfl, ?_, ?_, ?_⟩
      · intro kind
        rw [sizes, tracks.sizes]
      · intro node member
        rw [contains, tracks.marks node member, Search.hops_discover]
        by_cases same : node = port.owner
        · simp [same, new]
        · simp [same]
      · rw [sameFrontier]
        intro node member
        rw [List.mem_append, List.mem_singleton] at member
        rcases member with old | rfl
        · exact tracks.inside node old
        · exact isNode

theorem foldl_meet (canonical : g.Canonical) (tracks : Tracks g visited s) (level count : Nat)
    (arcs : List DirectedLink) :
    ∃ visited', arcs.foldl (meet g) (visited, s.frontier) = (visited',
        (s.scan level count (arcs.filterMap fun arc => g.ownerAt arc.destination.value)).frontier) ∧
      Tracks g visited'
        (s.scan level count (arcs.filterMap fun arc => g.ownerAt arc.destination.value)) := by
  induction arcs generalizing visited s with
  | nil => exact ⟨visited, rfl, tracks⟩
  | cons arc arcs ih =>
    obtain ⟨visited', met, tracks'⟩ := meet_tracks canonical tracks level count arc
    have split : (arc :: arcs).filterMap (fun arc => g.ownerAt arc.destination.value) =
        (g.ownerAt arc.destination.value).toList ++
          arcs.filterMap fun arc => g.ownerAt arc.destination.value := by
      rw [List.filterMap_cons]
      cases g.ownerAt arc.destination.value <;> rfl
    rw [List.foldl_cons, met, split, Search.scan_append]
    exact ih tracks'

theorem traverse_tracks (canonical : g.Canonical) (tracks : Tracks g visited s) {u : NodeId}
    {rest : List NodeId} (front : s.frontier = u :: rest) :
    ∃ visited', traverse g visited u rest = .ok (visited',
        (s.advance (targets (g.ways fun _ => true))).frontier) ∧
      Tracks g visited' (s.advance (targets (g.ways fun _ => true))) := by
  have isNode := tracks.inside u (by simp [front])
  have known := canonical.contains.mpr (canonical.mem_nodes.mp isNode)
  have popped : Tracks g visited { s with frontier := rest } := by
    refine ⟨tracks.sizes, tracks.marks, ?_⟩
    intro node member
    exact tracks.inside node (by simp [front, member])
  obtain ⟨visited', met, tracks'⟩ :=
    foldl_meet canonical popped (s.level u) (s.paths u) (g.arcsFrom u)
  have next : s.advance (targets (g.ways fun _ => true)) =
      Search.scan (s.level u) (s.paths u) { s with frontier := rest }
        ((g.arcsFrom u).filterMap fun arc => g.ownerAt arc.destination.value) := by
    simp [Search.advance, front, TopologyGraph.targets_ways]
  rw [next]
  refine ⟨visited', ?_, tracks'⟩
  simp only [traverse, TopologyGraph.outgoing, canonical.adjacency known, ok_bind, pure_eq_ok]
  exact congrArg _ met

/-- What the traversal marks is what links join to its start. -/
theorem traversal_exact (canonical : g.Canonical) {start : NodeId} (known : start ∈ g.nodes)
    (stuck : Error) :
    ∃ visited, drain stuck (traverse g) g.nodes.length
        (((StructuralVisited.create g).mark start).getD (.create g)) [start] = .ok visited ∧
      ∀ node ∈ g.nodes, visited.contains node = true ↔ g.Connected start node := by
  have created : ∀ node, (StructuralVisited.create g).contains node = false := by
    rintro ⟨kind, value⟩
    cases kind <;> simp only [StructuralVisited.create, StructuralVisited.contains,
      StructuralVisited.values, List.getElem?_replicate]
    all_goals split <;> rfl
  have sizes : ∀ kind, ((StructuralVisited.create g).values kind).length = g.count kind := by
    intro kind
    cases kind <;> simp [StructuralVisited.create, StructuralVisited.values, TopologyGraph.count]
  obtain ⟨visited, isMarked, sizes', contains⟩ := mark_of_new (by
    rw [sizes]
    exact canonical.mem_nodes.mp known) (created start)
  have started : Tracks g visited (.start start) := by
    refine ⟨?_, ?_, ?_⟩
    · intro kind
      rw [sizes', sizes]
    · intro node _
      rw [contains, created]
      by_cases same : node = start <;> simp [Search.start, same]
    · intro node member
      rw [List.mem_singleton.mp member]
      exact known
  obtain ⟨finished, empty⟩ := Search.finished_explore known
    (canonical.ways_inside fun _ => true) (le_refl g.nodes.length)
  rw [isMarked]
  rcases drain_explore stuck (Tracks g) (fun _ => False)
    (fun _ _ _ _ tracks front => .inl (traverse_tracks canonical tracks front)) started empty
    with ⟨final, ok, tracks⟩ | ⟨_, _, never⟩
  · refine ⟨final, ok, ?_⟩
    intro node member
    rw [tracks.marks node member, ← canonical.connected_iff, Option.isSome_iff_ne_none, ne_eq,
      finished.unreached]
    simp only [not_forall, not_not]
  · exact never.elim

end Traversal

/-! ## The report -/

def emptyTopology : ValidationError :=
  { code := .emptyTopology, message := "topology must contain at least one GPU" }

def disconnectedNode (node : NodeId) : ValidationError :=
  { code := .disconnectedNode
    message := "topology node is disconnected from the GPU component"
    node := some node }

open Classical in
/-- What is to be reported: that there is no GPU, or else the nodes that are not joined to the
first one. -/
noncomputable def expectedReport (g : TopologyGraph) : ValidationReport :=
  if g.gpus = [] then [emptyTopology]
  else (g.nodes.filter fun node => ¬ g.Connected ⟨.gpu, 0⟩ node).map disconnectedNode

theorem expectedReport_congr {g' : TopologyGraph} (canonical : g.Canonical)
    (same : g'.plain = g.plain) : expectedReport g' = expectedReport g := by
  have gpus : g'.plain.gpus = g.plain.gpus := by rw [same]
  have gpus : g'.gpus = g.gpus := gpus
  have nodes : g'.nodes = g.nodes := by
    rw [← TopologyGraph.nodes_plain, same, TopologyGraph.nodes_plain]
  have connected : g'.Connected ⟨.gpu, 0⟩ = g.Connected ⟨.gpu, 0⟩ := by
    funext node
    exact propext (TopologyGraph.connected_congr canonical same)
  unfold expectedReport
  rw [gpus, nodes, connected]

open Classical in
theorem flatMap_report {visited : StructuralVisited} {nodes : List NodeId}
    {Reached : NodeId → Prop} (marks : ∀ node ∈ nodes, visited.contains node = true ↔ Reached node) :
    nodes.flatMap (reportIfDisconnected visited) =
      (nodes.filter fun node => ¬ Reached node).map disconnectedNode := by
  induction nodes with
  | nil => rfl
  | cons node nodes ih =>
    rw [List.flatMap_cons, ih fun other member => marks other (List.mem_cons_of_mem _ member)]
    have here := marks node (List.mem_cons_self ..)
    by_cases reached : visited.contains node = true
    · simp [reportIfDisconnected, require, reached, here.mp reached]
    · simp [reportIfDisconnected, require, reached, mt here.mpr reached, disconnectedNode]

open Classical in
theorem validateConnectivity_eq (canonical : g.Canonical) : validateConnectivity g =
    .ok (if g.gpus = [] then [] else
      (g.nodes.filter fun node => ¬ g.Connected ⟨.gpu, 0⟩ node).map disconnectedNode) := by
  unfold validateConnectivity
  cases gpus : g.gpus with
  | nil => rfl
  | cons first rest =>
    have isFirst : first.id = ⟨0⟩ :=
      StrongId.value_injective (canonical.aligned.gpus 0 first (by simp [gpus]))
    have start : NodeId.ofGpu first.id = ⟨.gpu, 0⟩ := by rw [isFirst]; rfl
    have known : (⟨.gpu, 0⟩ : NodeId) ∈ g.nodes :=
      canonical.mem_nodes.mpr (by simp [TopologyGraph.count, gpus])
    obtain ⟨visited, ok, marks⟩ :=
      traversal_exact canonical known (.undefinedBehavior "more nodes than the graph has")
    simp only [start, ok, ok_bind, pure_eq_ok, reduceCtorEq, if_false]
    rw [flatMap_report marks]

end Validation

open Validation in
theorem validateTopology_eq {g : TopologyGraph} (canonical : g.Canonical) :
    validateTopology g = .ok (expectedReport g) := by
  have aligned := canonical.aligned
  have links : ∀ links : List PhysicalLink, (∀ link ∈ links, validateLink g link = .ok []) →
      ∃ reports, links.mapM (validateLink g) = .ok reports ∧ reports.flatten = [] := by
    intro links
    induction links with
    | nil =>
      intro _
      exact ⟨[], rfl, rfl⟩
    | cons link links ih =>
      intro fine
      obtain ⟨reports, ok, empty⟩ := ih fun other member => fine other (List.mem_cons_of_mem _ member)
      refine ⟨[] :: reports, ?_, by simpa using empty⟩
      simp [List.mapM_cons, fine link (List.mem_cons_self ..), ok]
  obtain ⟨reports, ok, empty⟩ := links g.links fun link member => validateLink_nil canonical member
  have identity : validateIdentity g = if g.gpus = [] then [emptyTopology] else [] := by
    unfold validateIdentity
    rw [validateDense_nil aligned.gpus, validateDense_nil aligned.nics,
      validateDense_nil aligned.switches, validateDense_nil aligned.racks,
      validateDense_nil aligned.ports, validateDense_nil aligned.links]
    by_cases none : g.gpus = [] <;> simp [require, none, emptyTopology]
  have gpus : g.gpus.flatMap (validateGpu g) = [] :=
    List.flatMap_eq_nil_iff.mpr fun _ => validateGpu_nil canonical
  have nics : g.nics.flatMap (validateNic g) = [] :=
    List.flatMap_eq_nil_iff.mpr fun _ => validateNic_nil canonical
  have switches : g.switches.flatMap (validateSwitch g) = [] :=
    List.flatMap_eq_nil_iff.mpr fun _ => validateSwitch_nil canonical
  have ports : g.ports.flatMap (validatePort g (portLinkCounts g)) = [] :=
    List.flatMap_eq_nil_iff.mpr fun _ => validatePort_nil canonical
  simp only [validateTopology, ok, validateConnectivity_eq canonical, ok_bind, pure_eq_ok, identity,
    validateRacks_nil canonical, gpus, nics, switches, ports, empty, List.append_nil]
  unfold expectedReport
  by_cases none : g.gpus = [] <;> simp [none]

open Validation in
/-- Validation of a graph that was built reports that it has no GPU, or else exactly the nodes that
no chain of links joins to the first GPU, each once, whatever is up or down. -/
theorem validation_of_built {g : TopologyGraph} (built : g.Built) :
    ∃ report, validateTopology g = .ok report ∧
      (∀ error ∈ report, error.code = .emptyTopology ∨ error.code = .disconnectedNode) ∧
      ((∃ error ∈ report, error.code = .emptyTopology) ↔ g.gpus = []) ∧
      (∀ error ∈ report, error.code = .disconnectedNode → ∃ node, error.node = some node) ∧
      (∀ node, (∃ error ∈ report, error.code = .disconnectedNode ∧ error.node = some node) ↔
        g.gpus ≠ [] ∧ node ∈ g.nodes ∧ ¬ g.Connected ⟨.gpu, 0⟩ node) ∧
      report.Nodup ∧
      ∀ g' : TopologyGraph, g'.plain = g.plain → validateTopology g' = .ok report := by
  have canonical := built.canonical
  refine ⟨expectedReport g, validateTopology_eq canonical, ?_, ?_, ?_, ?_, ?_, ?_⟩
  · intro error member
    unfold expectedReport at member
    split at member
    · rw [List.mem_singleton.mp member]
      exact .inl rfl
    · obtain ⟨node, _, rfl⟩ := List.mem_map.mp member
      exact .inr rfl
  · unfold expectedReport
    by_cases none : g.gpus = []
    · simp [none, emptyTopology]
    · simp [none, disconnectedNode]
  · intro error member isDisconnected
    unfold expectedReport at member
    split at member
    · rw [List.mem_singleton.mp member] at isDisconnected
      cases isDisconnected
    · obtain ⟨node, _, rfl⟩ := List.mem_map.mp member
      exact ⟨node, rfl⟩
  · intro node
    unfold expectedReport
    by_cases none : g.gpus = []
    · simp [none, emptyTopology]
    · simp [none, disconnectedNode]
  · unfold expectedReport
    split
    · exact List.nodup_singleton _
    · refine (canonical.nodup_nodes.filter _).map ?_
      intro a b same
      simpa [disconnectedNode] using same
  · intro g' same
    rw [validateTopology_eq (TopologyGraph.canonical_congr same canonical),
      expectedReport_congr canonical same]

open TopologyGraph in
/-- A GPU on a NIC, and a spine switch that nothing is connected to. -/
def loneSpine : TopologyGraph :=
  after addSpineSwitch (after (addGpu ⟨0⟩) (after (addNic ⟨0⟩) (after addRack {})))

theorem loneSpine_built : loneSpine.Built := .addSpineSwitch (.addGpu _ (.addNic _ (.addRack .empty)))

open Validation in
theorem validation_of_built_loneSpine :
    validateTopology loneSpine = .ok [disconnectedNode ⟨.switch, 0⟩] ∧
      ¬ loneSpine.Connected ⟨.gpu, 0⟩ ⟨.switch, 0⟩ := by
  have computed : validateTopology loneSpine = .ok [disconnectedNode ⟨.switch, 0⟩] := by
    decide +kernel
  obtain ⟨report, ok, _, _, _, nodes, _⟩ := validation_of_built loneSpine_built
  rw [computed] at ok
  cases ok
  refine ⟨computed, ?_⟩
  exact ((nodes ⟨.switch, 0⟩).mp ⟨_, List.mem_singleton.mpr rfl, rfl, rfl⟩).2.2

end NexusLab.Topology
