import NexusLab.Foundation.Search
import NexusLab.Topology.Canonical

/-! # Ways through a graph

The arcs a search may use, by name and by the node they lead to.  In a graph that was built every
arc leads to a node of the graph and back again. -/

namespace NexusLab.Topology

open Foundation

/-- What is kept of a list under names keeps their order. -/
theorem filterMap_sublist {α β γ : Type} {f : α → Option (β × γ)} {name : α → β} {l : List α}
    (named : ∀ a b, f a = some b → b.1 = name a) :
    List.Sublist ((l.filterMap f).map Prod.fst) (l.map name) := by
  induction l with
  | nil => exact .slnil
  | cons a l ih =>
    rw [List.filterMap_cons, List.map_cons]
    cases kept : f a with
    | none => exact ih.cons _
    | some b =>
      simp only [List.map_cons, named a b kept]
      exact ih.cons_cons _

theorem Dense.exists_mem {ε Tag : Type} {idOf : ε → StrongId Tag} {entities : List ε}
    (dense : Dense idOf entities) {value : Nat} :
    (∃ entity ∈ entities, (idOf entity).value = value) ↔ value < entities.length := by
  constructor
  · rintro ⟨entity, member, rfl⟩
    exact (List.getElem?_eq_some_iff.mp (dense.mem member)).1
  · intro small
    exact ⟨entities[value], List.getElem_mem small, dense value _ (List.getElem?_eq_getElem small)⟩

theorem NodeId.ext {a b : NodeId} (kind : a.kind = b.kind) (value : a.value = b.value) : a = b := by
  cases a
  cases b
  simp_all

def LinkDirection.opposite : LinkDirection → LinkDirection
  | .aToB => .bToA
  | .bToA => .aToB

namespace TopologyGraph

/-- All nodes, in the order of their kinds. -/
def nodes (g : TopologyGraph) : List NodeId :=
  g.gpus.map (fun gpu => .ofGpu gpu.id) ++ g.nics.map (fun nic => .ofNic nic.id) ++
    g.switches.map fun s => .ofSwitch s.id

/-- The usable arcs of a node. -/
def ways (g : TopologyGraph) (usable : DirectedLink → Bool) (node : NodeId) :
    List (DirectedLinkId × NodeId) :=
  (g.arcsFrom node).filterMap fun arc =>
    if usable arc then (g.ownerAt arc.destination.value).map fun owner => (arc.id, owner) else none

section Ways

variable {g : TopologyGraph} {usable : DirectedLink → Bool} {u v : NodeId} {arc : DirectedLink}

theorem Canonical.mem_nodes (canonical : Canonical g) {node : NodeId} :
    node ∈ g.nodes ↔ node.value < g.count node.kind := by
  obtain ⟨kind, value⟩ := node
  have aligned := canonical.aligned
  cases kind
  · simp [nodes, NodeId.ofGpu, NodeId.ofNic, NodeId.ofSwitch, aligned.gpus.exists_mem, count]
  · simp [nodes, NodeId.ofGpu, NodeId.ofNic, NodeId.ofSwitch, aligned.nics.exists_mem, count]
  · simp [nodes, NodeId.ofGpu, NodeId.ofNic, NodeId.ofSwitch, aligned.switches.exists_mem, count]

theorem length_nodes : g.nodes.length = g.gpus.length + g.nics.length + g.switches.length := by
  simp [nodes, Nat.add_assoc]

/-- The arcs of the graph: the two directions of each link. -/
theorem mem_directions :
    arc ∈ g.links.flatMap directedLinks ↔ ∃ link ∈ g.links, ∃ d, arc = link.directed d := by
  simp only [List.mem_flatMap, directedLinks, List.mem_cons, List.not_mem_nil, or_false]
  constructor
  · rintro ⟨link, isLink, rfl | rfl⟩
    · exact ⟨link, isLink, .aToB, rfl⟩
    · exact ⟨link, isLink, .bToA, rfl⟩
  · rintro ⟨link, isLink, d, rfl⟩
    cases d
    · exact ⟨link, isLink, .inl rfl⟩
    · exact ⟨link, isLink, .inr rfl⟩

theorem mem_arcsFrom_iff : arc ∈ g.arcsFrom u ↔
    (∃ link ∈ g.links, ∃ d, arc = link.directed d) ∧ g.ownerAt arc.source.value = some u := by
  unfold arcsFrom
  rw [List.mem_filter, mem_directions, decide_eq_true_eq]

theorem mem_ways {id : DirectedLinkId} : (id, v) ∈ g.ways usable u ↔
    ∃ link ∈ g.links, ∃ d, id = ⟨link.id, d⟩ ∧ usable (link.directed d) = true ∧
      g.ownerAt (link.directed d).source.value = some u ∧
      g.ownerAt (link.directed d).destination.value = some v := by
  unfold ways
  simp only [List.mem_filterMap, mem_arcsFrom_iff, Option.ite_none_right_eq_some,
    Option.map_eq_some_iff, Prod.mk.injEq]
  constructor
  · rintro ⟨arc, ⟨⟨link, isLink, d, rfl⟩, source⟩, allowed, w, destination, rfl, rfl⟩
    exact ⟨link, isLink, d, by cases d <;> rfl, allowed, source, destination⟩
  · rintro ⟨link, isLink, d, rfl, allowed, source, destination⟩
    refine ⟨link.directed d, ⟨⟨link, isLink, d, rfl⟩, source⟩, allowed, v, destination, ?_, rfl⟩
    cases d <;> rfl

theorem Canonical.ownerAt_lt (canonical : Canonical g) {index : Nat}
    (owned : g.ownerAt index = some u) : u ∈ g.nodes := by
  obtain ⟨port, found, rfl⟩ := Option.map_eq_some_iff.mp owned
  exact canonical.mem_nodes.mpr (canonical.owners port (List.mem_of_getElem? found))

theorem targets_ways (u : NodeId) : targets (g.ways usable) u =
    (g.arcsFrom u).filterMap fun arc =>
      if usable arc then g.ownerAt arc.destination.value else none := by
  unfold targets ways
  rw [List.map_filterMap]
  congr 1
  funext arc
  by_cases allowed : usable arc = true <;> simp [allowed, Function.comp_def]

/-- An arc has its opposite. -/
theorem ways_opposite (fair : ∀ link ∈ g.links, ∀ d, usable (link.directed d.opposite) =
    usable (link.directed d)) {link : LinkId} {d : LinkDirection}
    (way : (⟨link, d⟩, v) ∈ g.ways usable u) : (⟨link, d.opposite⟩, u) ∈ g.ways usable v := by
  obtain ⟨physical, isLink, direction, same, allowed, source, destination⟩ := mem_ways.mp way
  cases same
  refine mem_ways.mpr ⟨physical, isLink, d.opposite, rfl, ?_, ?_, ?_⟩
  · rw [fair physical isLink, allowed]
  · cases d <;> exact destination
  · cases d <;> exact source

theorem Canonical.ways_inside (canonical : Canonical g) (usable : DirectedLink → Bool) :
    ∀ u ∈ g.nodes, ∀ v ∈ targets (g.ways usable) u, v ∈ g.nodes := by
  intro u _ v member
  obtain ⟨⟨id, w⟩, way, rfl⟩ := List.mem_map.mp member
  obtain ⟨_, _, _, _, _, _, owned⟩ := mem_ways.mp way
  exact canonical.ownerAt_lt owned

theorem Canonical.directions_named (canonical : Canonical g) :
    ((g.links.flatMap directedLinks).map DirectedLink.id).Nodup := by
  rw [List.map_flatMap, List.nodup_flatMap]
  constructor
  · intro link _
    simp [directedLinks, PhysicalLink.directed]
  · refine List.Pairwise.imp ?_ (List.pairwise_map.mp canonical.aligned.links.nodup)
    intro a b different id inA inB
    simp only [directedLinks, PhysicalLink.directed, List.map_cons, List.map_nil, List.mem_cons,
      List.not_mem_nil, or_false] at inA inB
    apply different
    rcases inA with rfl | rfl <;> rcases inB with same | same <;>
      exact congrArg DirectedLinkId.link same

theorem Canonical.nodup_arcsFrom (canonical : Canonical g) (u : NodeId) : (g.arcsFrom u).Nodup :=
  canonical.directions_named.of_map.sublist List.filter_sublist

/-- The arcs of a node have names of their own. -/
theorem Canonical.ways_named (canonical : Canonical g) (u : NodeId) :
    ((g.ways usable u).map Prod.fst).Nodup := by
  refine List.Nodup.sublist ?_ canonical.directions_named
  refine (filterMap_sublist ?_).trans (List.Sublist.map _ List.filter_sublist)
  intro arc way isWay
  simp only [Option.ite_none_right_eq_some, Option.map_eq_some_iff] at isWay
  obtain ⟨_, _, _, rfl⟩ := isWay
  rfl

/-- Two nodes own the ends of a link. -/
def Linked (g : TopologyGraph) (u v : NodeId) : Prop :=
  ∃ link ∈ g.links, ∃ a b, g.findPort link.endpointA = some a ∧ g.findPort link.endpointB = some b ∧
    (a.owner = u ∧ b.owner = v ∨ a.owner = v ∧ b.owner = u)

/-- Links join the nodes, whatever their states. -/
def Connected (g : TopologyGraph) : NodeId → NodeId → Prop := Relation.ReflTransGen g.Linked

theorem Canonical.ownerAt_eq (canonical : Canonical g) {id : PortId} :
    g.ownerAt id.value = some u ↔ ∃ port, g.findPort id = some port ∧ port.owner = u := by
  simp only [ownerAt, Option.map_eq_some_iff, canonical.findPort]

theorem Canonical.linked_iff (canonical : Canonical g) :
    v ∈ targets (g.ways fun _ => true) u ↔ g.Linked u v := by
  constructor
  · intro member
    obtain ⟨⟨id, w⟩, way, rfl⟩ := List.mem_map.mp member
    obtain ⟨link, isLink, d, _, _, source, destination⟩ := mem_ways.mp way
    obtain ⟨first, isFirst, firstOwner⟩ := canonical.ownerAt_eq.mp source
    obtain ⟨second, isSecond, secondOwner⟩ := canonical.ownerAt_eq.mp destination
    cases d with
    | aToB => exact ⟨link, isLink, first, second, isFirst, isSecond, .inl ⟨firstOwner, secondOwner⟩⟩
    | bToA => exact ⟨link, isLink, second, first, isSecond, isFirst, .inr ⟨secondOwner, firstOwner⟩⟩
  · rintro ⟨link, isLink, a, b, isA, isB, ends⟩
    have ownerA := canonical.ownerAt_eq.mpr ⟨a, isA, rfl⟩
    have ownerB := canonical.ownerAt_eq.mpr ⟨b, isB, rfl⟩
    rcases ends with ⟨rfl, rfl⟩ | ⟨rfl, rfl⟩
    · exact List.mem_map.mpr ⟨(⟨link.id, .aToB⟩, b.owner),
        mem_ways.mpr ⟨link, isLink, .aToB, rfl, rfl, ownerA, ownerB⟩, rfl⟩
    · exact List.mem_map.mpr ⟨(⟨link.id, .bToA⟩, a.owner),
        mem_ways.mpr ⟨link, isLink, .bToA, rfl, rfl, ownerB, ownerA⟩, rfl⟩

theorem Canonical.connected_iff (canonical : Canonical g) :
    (∃ n, v ∈ ends (targets (g.ways fun _ => true)) n u) ↔ g.Connected u v := by
  have same : (fun a b => b ∈ targets (g.ways fun _ => true) a) = g.Linked := by
    funext a b
    exact propext canonical.linked_iff
  rw [exists_mem_ends, same]
  rfl

theorem Canonical.nodup_nodes (canonical : Canonical g) : g.nodes.Nodup := by
  have aligned := canonical.aligned
  have gpus : (g.gpus.map fun gpu => NodeId.ofGpu gpu.id).Nodup := by
    have ids := aligned.gpus.nodup.map (f := NodeId.ofGpu) fun _ _ => NodeId.ofGpu_inj.mp
    rwa [List.map_map] at ids
  have nics : (g.nics.map fun nic => NodeId.ofNic nic.id).Nodup := by
    have ids := aligned.nics.nodup.map (f := NodeId.ofNic) fun _ _ => NodeId.ofNic_inj.mp
    rwa [List.map_map] at ids
  have switches : (g.switches.map fun s => NodeId.ofSwitch s.id).Nodup := by
    have ids := aligned.switches.nodup.map (f := NodeId.ofSwitch) fun _ _ => NodeId.ofSwitch_inj.mp
    rwa [List.map_map] at ids
  refine (gpus.append nics ?_).append switches ?_
  · intro node isGpu isNic
    obtain ⟨_, _, rfl⟩ := List.mem_map.mp isGpu
    obtain ⟨_, _, same⟩ := List.mem_map.mp isNic
    cases same
  · intro node other isSwitch
    obtain ⟨_, _, rfl⟩ := List.mem_map.mp isSwitch
    rcases List.mem_append.mp other with isGpu | isNic
    · obtain ⟨_, _, same⟩ := List.mem_map.mp isGpu
      cases same
    · obtain ⟨_, _, same⟩ := List.mem_map.mp isNic
      cases same

/-! Structure is what is left without the states. -/

theorem nodes_plain : g.plain.nodes = g.nodes := by
  simp only [nodes, plain, List.map_map]
  rfl

theorem ways_plain (u : NodeId) :
    g.plain.ways (fun _ => true) u = g.ways (fun _ => true) u := by
  simp only [ways, arcsFrom_plain, ownerAt_plain]

theorem connected_congr {g' : TopologyGraph} (canonical : Canonical g) (same : g'.plain = g.plain) :
    g'.Connected u v ↔ g.Connected u v := by
  have ways : (g'.ways fun _ => true) = g.ways fun _ => true := by
    funext node
    rw [← ways_plain, same, ways_plain]
  rw [← canonical.connected_iff, ← (canonical_congr same canonical).connected_iff, ways]

end Ways

end TopologyGraph

end NexusLab.Topology
