import NexusLab.Routing.Agreement

/-! # What an enumeration lists

The paths are told apart from the search that finds them: a path follows operational fabric arcs
from port to port.  Between two nodes of the fabric the enumeration lists the paths that no path is
shorter than, all of them or none. -/

namespace NexusLab.Routing

open Foundation NexusLab.Topology TopologyGraph

/-- A way through the fabric, by the identifiers of its arcs, all of them operational; every arc
leaves the node that the one before it leads to. -/
def FabricPath (g : TopologyGraph) : NodeId → Path → NodeId → Prop
  | u, [], v => u = v
  | u, id :: path, v => ∃ link source destination, g.findLink id.link = some link ∧
    link.kind = .fabric ∧ g.isOperational (link.directed id.direction) = true ∧
    g.findPort (link.directed id.direction).source = some source ∧ source.owner = u ∧
    g.findPort (link.directed id.direction).destination = some destination ∧
    FabricPath g destination.owner path v

/-- The node that an arc leads to. -/
def arcEnd (g : TopologyGraph) (id : DirectedLinkId) : Option NodeId := do
  let link ← g.findLink id.link
  let destination ← g.findPort (link.directed id.direction).destination
  return destination.owner

/-- The nodes that a path goes through, both ends included. -/
def nodesAlong (g : TopologyGraph) (u : NodeId) : Path → List NodeId
  | [] => [u]
  | id :: path => u :: match arcEnd g id with
    | some w => nodesAlong g w path
    | none => []

/-- A path that no other path between the same nodes is shorter than. -/
def ShortestPath (g : TopologyGraph) (u v : NodeId) (path : Path) : Prop :=
  FabricPath g u path v ∧ ∀ other, FabricPath g u other v → path.length ≤ other.length

section Paths

variable {g : TopologyGraph} {u v w : NodeId} {path : Path}

theorem mem_of_findLink {id : LinkId} {link : PhysicalLink} (found : g.findLink id = some link) :
    link ∈ g.links ∧ link.id = id := by
  obtain ⟨here, isId⟩ := findDense_eq_some.mp found
  exact ⟨List.mem_of_getElem? here, isId⟩

theorem fabricPath_iff (canonical : g.Canonical) :
    FabricPath g u path v ↔ IsWalk (hops g) u path v := by
  induction path generalizing u with
  | nil => rfl
  | cons id path ih =>
    constructor
    · rintro ⟨link, source, destination, found, fabric, up, isSource, rfl, isDestination, rest⟩
      have member := mem_of_findLink found
      refine ⟨destination.owner, mem_ways.mpr ⟨link, member.1, id.direction, ?_, ?_, ?_, ?_⟩,
        ih.mp rest⟩
      · rw [member.2]
      · rw [fabricUp_directed canonical member.1, fabric, up]
        rfl
      · exact canonical.ownerAt_eq.mpr ⟨source, isSource, rfl⟩
      · exact canonical.ownerAt_eq.mpr ⟨destination, isDestination, rfl⟩
    · rintro ⟨w, way, rest⟩
      obtain ⟨link, isLink, d, rfl, usable, ownerU, ownerW⟩ := mem_ways.mp way
      rw [fabricUp_directed canonical isLink, Bool.and_eq_true, decide_eq_true_eq] at usable
      obtain ⟨source, isSource, sourceOwner⟩ := canonical.ownerAt_eq.mp ownerU
      obtain ⟨destination, isDestination, destinationOwner⟩ := canonical.ownerAt_eq.mp ownerW
      refine ⟨link, source, destination, findLink_of_mem canonical isLink, usable.1, usable.2,
        isSource, sourceOwner, isDestination, ?_⟩
      rw [destinationOwner]
      exact ih.mpr rest

/-- From every node on a path the rest of it leads on. -/
theorem FabricPath.suffix (isPath : FabricPath g u path v) (member : w ∈ nodesAlong g u path) :
    ∃ rest, FabricPath g w rest v ∧ rest.length ≤ path.length ∧
      (w ≠ u → rest.length < path.length) := by
  induction path generalizing u with
  | nil =>
    rw [nodesAlong, List.mem_singleton] at member
    subst member
    exact ⟨[], isPath, Nat.le_refl _, fun different => absurd rfl different⟩
  | cons id path ih =>
    by_cases here : w = u
    · subst here
      exact ⟨id :: path, isPath, Nat.le_refl _, fun different => absurd rfl different⟩
    · obtain ⟨link, source, destination, found, _, _, _, _, isDestination, onward⟩ := isPath
      have next : arcEnd g id = some destination.owner := by
        simp [arcEnd, found, isDestination]
      rw [nodesAlong, next, List.mem_cons] at member
      obtain ⟨rest, isRest, shorter, _⟩ := ih onward (member.resolve_left here)
      exact ⟨rest, isRest, Nat.le_succ_of_le shorter, fun _ => Nat.lt_succ_of_le shorter⟩

/-- A shortest path goes through no node twice. -/
theorem ShortestPath.nodup (shortest : ShortestPath g u v path) : (nodesAlong g u path).Nodup := by
  induction path generalizing u with
  | nil => exact List.nodup_singleton u
  | cons id path ih =>
    obtain ⟨isPath, least⟩ := shortest
    obtain ⟨link, source, destination, found, fabric, up, isSource, owner, isDestination, onward⟩ :=
      isPath
    have next : arcEnd g id = some destination.owner := by
      simp [arcEnd, found, isDestination]
    rw [nodesAlong, next, List.nodup_cons]
    constructor
    · intro again
      obtain ⟨rest, isRest, shorter, _⟩ := onward.suffix again
      have long := least rest isRest
      simp only [List.length_cons] at long
      omega
    · refine ih ⟨onward, fun other isOther => ?_⟩
      have long := least (id :: other) ⟨link, source, destination, found, fabric, up, isSource,
        owner, isDestination, isOther⟩
      simpa using long

theorem shortestPath_iff (canonical : g.Canonical) {n : Nat}
    (distance : Distance g v u (some n)) :
    ShortestPath g u v path ↔ path ∈ walksTo (hops g) v n u := by
  obtain ⟨reached, least⟩ := distance
  have forth := ends_symm (hops_symm canonical) reached
  obtain ⟨shortest, isShortest, length⟩ := mem_ends_iff.mp forth
  have lower : ∀ other, FabricPath g u other v → n ≤ other.length := by
    intro other isOther
    by_contra shorter
    refine least other.length (by omega) (ends_symm (hops_symm canonical) ?_)
    exact mem_ends_iff.mpr ⟨other, (fabricPath_iff canonical).mp isOther, rfl⟩
  rw [mem_walksTo]
  constructor
  · rintro ⟨isPath, atMost⟩
    have upper := atMost shortest ((fabricPath_iff canonical).mpr isShortest)
    have bound := lower path isPath
    exact ⟨(fabricPath_iff canonical).mp isPath, by omega⟩
  · rintro ⟨isWalk, rfl⟩
    exact ⟨(fabricPath_iff canonical).mpr isWalk, lower⟩

theorem ncard_shortestPaths (canonical : g.Canonical) {n : Nat}
    (distance : Distance g v u (some n)) :
    Set.ncard {path | ShortestPath g u v path} = (walksTo (hops g) v n u).length := by
  have same : {path | ShortestPath g u v path} = ((walksTo (hops g) v n u).toFinset : Set Path) := by
    ext path
    simp [shortestPath_iff canonical distance]
  have nodup : (walksTo (hops g) v n u).Nodup := nodup_walksTo canonical.ways_named
  rw [same, Set.ncard_coe_finset, List.toFinset_card_of_nodup nodup]

theorem no_fabricPath_iff (canonical : g.Canonical) :
    Distance g v u none ↔ ¬ ∃ path, FabricPath g u path v := by
  constructor
  · rintro unreached ⟨path, isPath⟩
    refine unreached path.length (ends_symm (hops_symm canonical) ?_)
    exact mem_ends_iff.mpr ⟨path, (fabricPath_iff canonical).mp isPath, rfl⟩
  · intro nothing n reached
    obtain ⟨path, isWalk, _⟩ := mem_ends_iff.mp (ends_symm (hops_symm canonical) reached)
    exact nothing ⟨path, (fabricPath_iff canonical).mpr isWalk⟩

/-- The paths are more, or longer, than the limits allow. -/
def PathLimits.Exceeded (limits : PathLimits) (g : TopologyGraph) (u v : NodeId) : Prop :=
  ∃ shortest, ShortestPath g u v shortest ∧
    (limits.maximumHops < shortest.length ∨
      limits.maximumPaths < Set.ncard {path | ShortestPath g u v path} ∨
      limits.maximumCachedRouteEntries <
        Set.ncard {path | ShortestPath g u v path} * shortest.length)

/-- The division by the distance is a bound on the product. -/
theorem exceeded_iff (canonical : g.Canonical) (limits : PathLimits) {n : Nat}
    (distance : Distance g v u (some n)) (distinct : u ≠ v) :
    limits.Exceeded g u v ↔
      n > limits.maximumHops ∨ ¬ limits.Fits n (walksTo (hops g) v n u).length := by
  have positive : 0 < n := by
    by_contra zero
    obtain rfl : n = 0 := by omega
    exact distinct distance.eq_of_zero
  have lengths : ∀ path, ShortestPath g u v path → path.length = n := by
    intro path isShortest
    exact length_of_mem_walksTo ((shortestPath_iff canonical distance).mp isShortest)
  have forth := ends_symm (hops_symm canonical) distance.1
  obtain ⟨shortest, isWalk, length⟩ := mem_ends_iff.mp forth
  have isShortest := (shortestPath_iff canonical distance).mpr (mem_walksTo.mpr ⟨isWalk, length⟩)
  unfold PathLimits.Exceeded PathLimits.Fits
  rw [ncard_shortestPaths canonical distance, Nat.le_div_iff_mul_le positive]
  constructor
  · rintro ⟨path, isPath, beyond⟩
    rw [lengths path isPath] at beyond
    omega
  · intro beyond
    refine ⟨shortest, isShortest, ?_⟩
    rw [length]
    omega

/-- Between any two different NICs or switches of any graph that was built, with any states, an
enumeration lists exactly the shortest paths, each of them once, in order and without loops; it lists
none exactly when there is no path; and it throws exactly when the shortest paths are beyond the
limits. -/
theorem enumerate_shortest_paths (built : g.Built) (limits : PathLimits)
    (knownU : g.contains u = true) (knownV : g.contains v = true) (fabricU : u.kind ≠ .gpu)
    (fabricV : v.kind ≠ .gpu) (distinct : u ≠ v) :
    ((∃ paths, enumerate g limits ⟨u, v⟩ = .ok paths) ∨
      ∃ what, enumerate g limits ⟨u, v⟩ = .error (.lengthError what)) ∧
    (∀ paths, enumerate g limits ⟨u, v⟩ = .ok paths →
      (∀ path, path ∈ paths ↔ ShortestPath g u v path) ∧ paths.Nodup ∧
      paths.Pairwise (· ≤ ·) ∧ (∀ path ∈ paths, (nodesAlong g u path).Nodup) ∧
      (paths = [] ↔ ¬ ∃ path, FabricPath g u path v)) ∧
    ((∃ what, enumerate g limits ⟨u, v⟩ = .error (.lengthError what)) ↔
      limits.Exceeded g u v) := by
  have canonical := built.canonical
  have known : Endpoints.Known g ⟨u, v⟩ :=
    ⟨(mem_fabricNodes canonical).mpr ⟨fabricU, canonical.contains.mp knownU⟩,
      (mem_fabricNodes canonical).mpr ⟨fabricV, canonical.contains.mp knownV⟩, distinct⟩
  obtain ⟨there, distance, enumerated⟩ := enumerate_eq limits canonical known
  cases there with
  -- no distance, so there is no path and the list is empty
  | none =>
    have nothing := (no_fabricPath_iff canonical).mp distance
    have noShortest : ∀ path, ¬ ShortestPath g u v path := fun path isShortest =>
      nothing ⟨path, isShortest.1⟩
    rw [enumerated]
    refine ⟨.inl ⟨_, rfl⟩, ?_, ?_⟩
    · rintro _ ⟨⟩
      simp [noShortest, nothing]
    · refine iff_of_false (by rintro ⟨what, ⟨⟩⟩) ?_
      rintro ⟨path, isShortest, _⟩
      exact noShortest path isShortest
  | some n =>
    have exceeded := exceeded_iff canonical limits distance distinct
    rw [exceeded, enumerated]
    simp only
    -- too many hops refuse before any path is listed
    by_cases far : n > limits.maximumHops
    · rw [if_pos far]
      exact ⟨.inr ⟨_, rfl⟩, by rintro _ ⟨⟩, iff_of_true ⟨_, rfl⟩ (.inl far)⟩
    rw [if_neg far]
    by_cases fits : limits.Fits n (walksTo (hops g) v n u).length
    · rw [if_pos fits]
      refine ⟨.inl ⟨_, rfl⟩, ?_, iff_of_false (by rintro ⟨what, ⟨⟩⟩) ?_⟩
      · rintro _ ⟨⟩
        have perm := List.perm_insertionSort (· ≤ ·) (walksTo (hops g) v n u)
        have listed : ∀ path, path ∈ (walksTo (hops g) v n u).insertionSort (· ≤ ·) ↔
            ShortestPath g u v path := fun path =>
          perm.mem_iff.trans (shortestPath_iff canonical distance).symm
        -- sorting keeps the members and their number
        refine ⟨listed, perm.nodup_iff.mpr (nodup_walksTo canonical.ways_named),
          List.pairwise_insertionSort _ _, fun path member => ((listed path).mp member).nodup, ?_⟩
        obtain ⟨shortest, isWalk, length⟩ :=
          mem_ends_iff.mp (ends_symm (hops_symm canonical) distance.1)
        have member := perm.mem_iff.mpr (mem_walksTo.mpr ⟨isWalk, length⟩)
        refine iff_of_false (List.ne_nil_of_mem member) (not_not.mpr ⟨shortest, ?_⟩)
        exact (fabricPath_iff canonical).mpr isWalk
      · exact not_or.mpr ⟨far, not_not.mpr fits⟩
    · rw [if_neg fits]
      exact ⟨.inr ⟨_, rfl⟩, by rintro _ ⟨⟩, iff_of_true ⟨_, rfl⟩ (.inr fits)⟩

open PathSession in
theorem enumerate_shortest_paths_star :
    enumerate star {} acrossStar = .ok [[⟨⟨0⟩, .aToB⟩, ⟨⟨1⟩, .bToA⟩]] ∧
      ShortestPath star ⟨.nic, 0⟩ ⟨.nic, 1⟩ [⟨⟨0⟩, .aToB⟩, ⟨⟨1⟩, .bToA⟩] := by
  have listed : enumerate star {} acrossStar = .ok [[⟨⟨0⟩, .aToB⟩, ⟨⟨1⟩, .bToA⟩]] := by
    decide +kernel
  obtain ⟨_, exact_paths, _⟩ := enumerate_shortest_paths star_built {}
    (show star.contains ⟨.nic, 0⟩ = true by decide +kernel)
    (show star.contains ⟨.nic, 1⟩ = true by decide +kernel) (by decide) (by decide) (by decide)
  exact ⟨listed, ((exact_paths _ listed).1 _).mp (by decide)⟩

end Paths

end NexusLab.Routing
