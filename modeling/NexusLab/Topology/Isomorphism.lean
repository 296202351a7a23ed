import NexusLab.Topology.ClosNetwork
import Mathlib.Data.Set.Function

/-! # Graphs that differ in their numbering

An isomorphism renames the nodes, racks, ports and links of one graph to those of another and
carries what each entity says; the roles of fabric ports, the order of the two ends of a link and
the operational states are left out.  The lists that entities keep of each other follow, since they
are read off the rest. -/

namespace NexusLab.Topology

open Foundation TopologyGraph

structure Isomorphism (g h : TopologyGraph) where
  node : NodeId → NodeId
  rack : RackId → RackId
  port : PortId → PortId
  link : LinkId → LinkId
  nodes : Set.BijOn node {n | g.contains n = true} {n | h.contains n = true}
  racks : Set.BijOn rack {r | g.findRack r ≠ none} {r | h.findRack r ≠ none}
  ports : Set.BijOn port {p | g.findPort p ≠ none} {p | h.findPort p ≠ none}
  links : Set.BijOn link {l | g.findLink l ≠ none} {l | h.findLink l ≠ none}
  gpu : ∀ x ∈ g.gpus, ∃ y ∈ h.gpus, .ofGpu y.id = node (.ofGpu x.id) ∧ y.rack = rack x.rack ∧
    .ofNic y.attachedNic = node (.ofNic x.attachedNic) ∧ y.port = port x.port
  nic : ∀ x ∈ g.nics, ∃ y ∈ h.nics, .ofNic y.id = node (.ofNic x.id) ∧ y.rack = rack x.rack
  switch : ∀ x ∈ g.switches, ∃ y ∈ h.switches, .ofSwitch y.id = node (.ofSwitch x.id) ∧
    y.role = x.role ∧ y.rack = x.rack.map rack
  portOf : ∀ x ∈ g.ports, ∃ y ∈ h.ports, y.id = port x.id ∧ y.owner = node x.owner ∧
    (y.role = .local ↔ x.role = .local)
  linkOf : ∀ x ∈ g.links, ∃ y ∈ h.links, y.id = link x.id ∧ y.kind = x.kind ∧
    (y.endpointA = port x.endpointA ∧ y.endpointB = port x.endpointB ∨
      y.endpointA = port x.endpointB ∧ y.endpointB = port x.endpointA)

/-! ## Ports by coordinates -/

namespace ClosFrame

variable {c : ClosShape} {o : Outline} (frame : ClosFrame c o) {e e' : ClosLink c} {side side' : Bool}

/-- Whether the upper end of a link comes first. -/
def flipped (e : ClosLink c) : Bool := o.owners[2 * frame.link e]? ≠ some (frame.node e.lower)

/-- The place of the port at one end of a link. -/
def place (e : ClosLink c) (side : Bool) : Nat :=
  2 * frame.link e + if frame.flipped e = side then 0 else 1

theorem owner_place (e : ClosLink c) (side : Bool) :
    o.owners[frame.place e side]? = some (frame.node (e.endAt side)) := by
  have different : frame.node e.lower ≠ frame.node e.upper := by
    intro same
    have tier := e.tier_upper
    rw [frame.node_injective same] at tier
    omega
  rcases frame.joins e with ⟨first, second⟩ | ⟨first, second⟩
  · have upright : frame.flipped e = false := by simp [flipped, first]
    cases side
    · simpa [place, upright, ClosLink.endAt] using first
    · simpa [place, upright, ClosLink.endAt] using second
  · have turned : frame.flipped e = true := by simp [flipped, first, different.symm]
    cases side
    · simpa [place, turned, ClosLink.endAt] using second
    · simpa [place, turned, ClosLink.endAt] using first

theorem place_injective (same : frame.place e side = frame.place e' side') :
    e = e' ∧ side = side' := by
  unfold place at same
  have sameLink : frame.link e = frame.link e' := by
    split at same <;> split at same <;> omega
  have isSame := frame.link_injective sameLink
  subst isSame
  refine ⟨rfl, ?_⟩
  cases turned : frame.flipped e <;> cases side <;> cases side' <;> simp_all

theorem place_onto {links : Nat} (pairs : o.owners.length = 2 * links) {index : Nat}
    (small : index < o.owners.length) : ∃ e side, frame.place e side = index := by
  obtain ⟨e, isLink⟩ := frame.link_onto (index / 2) (by omega)
  -- the first port of the link is on the side that `flipped` names
  by_cases first : index % 2 = 0
  · refine ⟨e, frame.flipped e, ?_⟩
    simp only [place, isLink, if_true]
    omega
  · refine ⟨e, !frame.flipped e, ?_⟩
    simp only [place, isLink]
    cases frame.flipped e <;> simp <;> omega

/-- The two ports of a link are the two places of the link of the network. -/
theorem places (e : ClosLink c) : ∃ side, frame.place e side = 2 * frame.link e ∧
    frame.place e (!side) = 2 * frame.link e + 1 := by
  refine ⟨frame.flipped e, by simp [place], ?_⟩
  unfold place
  cases frame.flipped e <;> simp

end ClosFrame

/-! ## Two graphs over one network -/

section Transport

variable {c : ClosShape} {g h : TopologyGraph} (over_g : ClosFrame c g.outline)
  (over_h : ClosFrame c h.outline)

/-- What stands at the same coordinates in the other graph. -/
noncomputable def moveNode : NodeId → NodeId := Function.extend over_g.node over_h.node id

noncomputable def moveLink : LinkId → LinkId :=
  Function.extend (fun e => (⟨over_g.link e⟩ : LinkId)) (fun e => ⟨over_h.link e⟩) id

noncomputable def movePort : PortId → PortId :=
  Function.extend (fun at_ : ClosLink c × Bool => (⟨over_g.place at_.1 at_.2⟩ : PortId))
    (fun at_ => ⟨over_h.place at_.1 at_.2⟩) id

@[simp] theorem moveNode_node (x : ClosNode c) :
    moveNode over_g over_h (over_g.node x) = over_h.node x :=
  over_g.node_injective.extend_apply _ _ x

@[simp] theorem moveLink_link (e : ClosLink c) :
    moveLink over_g over_h ⟨over_g.link e⟩ = ⟨over_h.link e⟩ := by
  have injective : Function.Injective fun e => (⟨over_g.link e⟩ : LinkId) := by
    intro e e' same
    exact over_g.link_injective (congrArg StrongId.value same)
  exact injective.extend_apply _ _ e

@[simp] theorem movePort_place (e : ClosLink c) (side : Bool) :
    movePort over_g over_h ⟨over_g.place e side⟩ = ⟨over_h.place e side⟩ := by
  have injective : Function.Injective
      fun at_ : ClosLink c × Bool => (⟨over_g.place at_.1 at_.2⟩ : PortId) := by
    rintro ⟨e, side⟩ ⟨e', side'⟩ same
    obtain ⟨rfl, rfl⟩ := over_g.place_injective (congrArg StrongId.value same)
    rfl
  exact injective.extend_apply _ _ (e, side)

end Transport

/-- What is carried from one range to the other along a common index is a bijection. -/
theorem bijOn_extend {ι α : Type} {f f' : ι → α} (injective : Function.Injective f)
    (injective' : Function.Injective f') :
    Set.BijOn (Function.extend f f' id) (Set.range f) (Set.range f') := by
  refine ⟨?_, ?_, ?_⟩
  · rintro _ ⟨i, rfl⟩
    rw [injective.extend_apply]
    exact ⟨i, rfl⟩
  · rintro _ ⟨i, rfl⟩ _ ⟨j, rfl⟩ same
    rw [injective.extend_apply, injective.extend_apply] at same
    rw [injective' same]
  · rintro _ ⟨i, rfl⟩
    exact ⟨f i, ⟨i, rfl⟩, injective.extend_apply _ _ i⟩

/-! ## Entities by coordinates -/

namespace ClosFrame

variable {c : ClosShape} {g : TopologyGraph} (frame : ClosFrame c g.outline)

theorem range_node (canonical : g.Canonical) :
    Set.range frame.node = {n | g.contains n = true} := by
  ext n
  rw [Set.mem_ofPred_eq, canonical.contains_outline]
  constructor
  · rintro ⟨x, rfl⟩
    exact frame.contains x
  · intro contained
    exact frame.node_onto n contained

theorem link_lt (canonical : g.Canonical) (e : ClosLink c) : frame.link e < g.links.length :=
  canonical.joins_lt (frame.joins e)

theorem range_link (canonical : g.Canonical) :
    (Set.range fun e => (⟨frame.link e⟩ : LinkId)) = {l | g.findLink l ≠ none} := by
  ext ⟨i⟩
  have known : g.findLink ⟨i⟩ ≠ none ↔ i < g.links.length := by
    unfold TopologyGraph.findLink
    rw [canonical.aligned.links.find, ne_eq, List.getElem?_eq_none_iff, not_le]
  rw [Set.mem_ofPred_eq, known]
  constructor
  · rintro ⟨e, same⟩
    cases same
    exact frame.link_lt canonical e
  · intro small
    have pairs := canonical.pairs_outline
    obtain ⟨e, rfl⟩ := frame.link_onto i (by omega)
    exact ⟨e, rfl⟩

theorem range_place (canonical : g.Canonical) :
    (Set.range fun at_ : ClosLink c × Bool => (⟨frame.place at_.1 at_.2⟩ : PortId)) =
      {p | g.findPort p ≠ none} := by
  ext ⟨i⟩
  have length : g.outline.owners.length = g.ports.length := by simp [outline]
  have known : g.findPort ⟨i⟩ ≠ none ↔ i < g.ports.length := by
    unfold TopologyGraph.findPort
    rw [canonical.aligned.ports.find, ne_eq, List.getElem?_eq_none_iff, not_le]
  rw [Set.mem_ofPred_eq, known]
  constructor
  · rintro ⟨⟨e, side⟩, same⟩
    cases same
    exact length ▸ (List.getElem?_eq_some_iff.mp (frame.owner_place e side)).1
  · intro small
    obtain ⟨e, side, isPlace⟩ := frame.place_onto canonical.pairs_outline (length ▸ small)
    exact ⟨(e, side), congrArg StrongId.mk isPlace⟩

/-- The port at one end of a link. -/
theorem port_at (canonical : g.Canonical) (e : ClosLink c) (side : Bool) : ∃ port ∈ g.ports,
    port.id = ⟨frame.place e side⟩ ∧ port.owner = frame.node (e.endAt side) := by
  have owner := frame.owner_place e side
  rw [owners_outline] at owner
  obtain ⟨port, found, isOwner⟩ := Option.map_eq_some_iff.mp owner
  exact ⟨port, List.mem_of_getElem? found,
    StrongId.value_injective (canonical.aligned.ports _ port found), isOwner⟩

theorem gpu_at (canonical : g.Canonical) (l : Fin c.leaves) (n : Fin c.nicsPerLeaf)
    (k : Fin c.gpusPerNic) : ∃ x ∈ g.gpus, .ofGpu x.id = frame.node (.gpu l n k) ∧ x.rack = ⟨l⟩ ∧
      .ofNic x.attachedNic = frame.node (.nic l n) ∧
      x.port = ⟨frame.place (.attachment l n k) false⟩ := by
  obtain ⟨i, m, isGpu, isNic, found⟩ := frame.gpu l n k
  obtain ⟨x, isX, same⟩ := Option.map_eq_some_iff.mp ((List.getElem?_map ..).symm.trans found)
  have id : x.id = ⟨i⟩ := StrongId.value_injective (canonical.aligned.gpus i x isX)
  have member := List.mem_of_getElem? isX
  simp only [Prod.mk.injEq] at same
  obtain ⟨rack, nic⟩ := same
  refine ⟨x, member, ?_, rack, ?_, ?_⟩
  · rw [id, isGpu]
    rfl
  · rw [nic, isNic]
    rfl
  · obtain ⟨port, isPort, portId, owner⟩ := frame.port_at canonical (.attachment l n k) false
    have owned : port.id ∈ g.portsOwned (.ofGpu x.id) := by
      refine mem_listed.mpr ⟨port, isPort, ?_, rfl⟩
      rw [owner, id]
      exact isGpu
    rw [(canonical.gpus x member).2, List.mem_singleton] at owned
    rw [← owned, portId]

theorem nic_at (canonical : g.Canonical) (l : Fin c.leaves) (n : Fin c.nicsPerLeaf) :
    ∃ x ∈ g.nics, .ofNic x.id = frame.node (.nic l n) ∧ x.rack = ⟨l⟩ := by
  obtain ⟨m, isNic, found⟩ := frame.nic l n
  obtain ⟨x, isX, rack⟩ := Option.map_eq_some_iff.mp ((List.getElem?_map ..).symm.trans found)
  have id : x.id = ⟨m⟩ := StrongId.value_injective (canonical.aligned.nics m x isX)
  refine ⟨x, List.mem_of_getElem? isX, ?_, rack⟩
  rw [id, isNic]
  rfl

theorem leaf_at (canonical : g.Canonical) (l : Fin c.leaves) :
    ∃ x ∈ g.switches, .ofSwitch x.id = frame.node (.leaf l) ∧ x.role = .leaf ∧
      x.rack = some ⟨l⟩ := by
  obtain ⟨i, isLeaf, found⟩ := frame.leaf l
  obtain ⟨x, isX, same⟩ := Option.map_eq_some_iff.mp ((List.getElem?_map ..).symm.trans found)
  have id : x.id = ⟨i⟩ := StrongId.value_injective (canonical.aligned.switches i x isX)
  simp only [Prod.mk.injEq] at same
  refine ⟨x, List.mem_of_getElem? isX, ?_, same⟩
  rw [id, isLeaf]
  rfl

theorem spine_at (canonical : g.Canonical) (s : Fin c.spines) :
    ∃ x ∈ g.switches, .ofSwitch x.id = frame.node (.spine s) ∧ x.role = .spine ∧
      x.rack = none := by
  obtain ⟨i, isSpine, found⟩ := frame.spine s
  obtain ⟨x, isX, same⟩ := Option.map_eq_some_iff.mp ((List.getElem?_map ..).symm.trans found)
  have id : x.id = ⟨i⟩ := StrongId.value_injective (canonical.aligned.switches i x isX)
  simp only [Prod.mk.injEq] at same
  refine ⟨x, List.mem_of_getElem? isX, ?_, same⟩
  rw [id, isSpine]
  rfl

/-! Every entity has coordinates, and what stands at them is said above. -/

theorem coordinates (canonical : g.Canonical) {n : NodeId} (known : n ∈ g.nodes) :
    ∃ x, frame.node x = n :=
  frame.node_onto n (canonical.contains_outline.mp (canonical.contains.mpr
    (canonical.mem_nodes.mp known)))

theorem gpu_coordinates (canonical : g.Canonical) {x : GpuWorker} (member : x ∈ g.gpus) :
    ∃ l n k, .ofGpu x.id = frame.node (.gpu l n k) ∧ x.rack = ⟨l⟩ ∧
      .ofNic x.attachedNic = frame.node (.nic l n) ∧
      x.port = ⟨frame.place (.attachment l n k) false⟩ := by
  have known : NodeId.ofGpu x.id ∈ g.nodes := by
    simp only [nodes, List.mem_append, List.mem_map]
    exact .inl (.inl ⟨x, member, rfl⟩)
  obtain ⟨z, here⟩ := frame.coordinates canonical known
  have kind := frame.kind z
  rw [here] at kind
  cases z with
  | gpu l n k =>
    obtain ⟨y, isY, id, rest⟩ := frame.gpu_at canonical l n k
    have same : x = y := by
      have found := canonical.aligned.gpus.mem member
      rw [NodeId.ofGpu_inj.mp (here.symm.trans id.symm), canonical.aligned.gpus.mem isY] at found
      exact (Option.some.inj found).symm
    exact ⟨l, n, k, here.symm, same ▸ rest⟩
  | nic _ _ => cases kind
  | leaf _ => cases kind
  | spine _ => cases kind

theorem nic_coordinates (canonical : g.Canonical) {x : Nic} (member : x ∈ g.nics) :
    ∃ l n, .ofNic x.id = frame.node (.nic l n) ∧ x.rack = ⟨l⟩ := by
  have known : NodeId.ofNic x.id ∈ g.nodes := by
    simp only [nodes, List.mem_append, List.mem_map]
    exact .inl (.inr ⟨x, member, rfl⟩)
  obtain ⟨z, here⟩ := frame.coordinates canonical known
  have kind := frame.kind z
  rw [here] at kind
  cases z with
  | nic l n =>
    obtain ⟨y, isY, id, rack⟩ := frame.nic_at canonical l n
    have same : x = y := by
      have found := canonical.aligned.nics.mem member
      rw [NodeId.ofNic_inj.mp (here.symm.trans id.symm), canonical.aligned.nics.mem isY] at found
      exact (Option.some.inj found).symm
    exact ⟨l, n, here.symm, same ▸ rack⟩
  | gpu _ _ _ => cases kind
  | leaf _ => cases kind
  | spine _ => cases kind

theorem switch_coordinates (canonical : g.Canonical) {x : Switch} (member : x ∈ g.switches) :
    (∃ l, .ofSwitch x.id = frame.node (.leaf l) ∧ x.role = .leaf ∧ x.rack = some ⟨l⟩) ∨
      ∃ s, .ofSwitch x.id = frame.node (.spine s) ∧ x.role = .spine ∧ x.rack = none := by
  have known : NodeId.ofSwitch x.id ∈ g.nodes := by
    simp only [nodes, List.mem_append, List.mem_map]
    exact .inr ⟨x, member, rfl⟩
  obtain ⟨z, here⟩ := frame.coordinates canonical known
  have kind := frame.kind z
  rw [here] at kind
  have same : ∀ y ∈ g.switches, NodeId.ofSwitch y.id = frame.node z → x = y := by
    intro y isY id
    have found := canonical.aligned.switches.mem member
    rw [NodeId.ofSwitch_inj.mp (here.symm.trans id.symm), canonical.aligned.switches.mem isY] at found
    exact (Option.some.inj found).symm
  cases z with
  | leaf l =>
    obtain ⟨y, isY, id, rest⟩ := frame.leaf_at canonical l
    exact .inl ⟨l, here.symm, same y isY id ▸ rest⟩
  | spine s =>
    obtain ⟨y, isY, id, rest⟩ := frame.spine_at canonical s
    exact .inr ⟨s, here.symm, same y isY id ▸ rest⟩
  | gpu _ _ _ => cases kind
  | nic _ _ => cases kind

theorem port_coordinates (canonical : g.Canonical) {x : Port} (member : x ∈ g.ports) :
    ∃ e side, x.id = ⟨frame.place e side⟩ ∧ x.owner = frame.node (e.endAt side) := by
  have found := canonical.aligned.ports.mem member
  have small : x.id.value < g.outline.owners.length := by
    simpa [outline] using (List.getElem?_eq_some_iff.mp found).1
  obtain ⟨e, side, isPlace⟩ := frame.place_onto canonical.pairs_outline small
  obtain ⟨y, isY, id, owner⟩ := frame.port_at canonical e side
  have sameId : x.id = y.id := StrongId.value_injective (by rw [id, isPlace])
  rw [sameId, canonical.aligned.ports.mem isY] at found
  obtain rfl := Option.some.inj found
  exact ⟨e, side, id, owner⟩

/-- The kind of a link and the roles of its ports say whether it attaches a GPU. -/
theorem link_at (canonical : g.Canonical) (e : ClosLink c) : ∃ x ∈ g.links,
    x.id = ⟨frame.link e⟩ ∧ (x.kind = .localAttachment ↔ e.lower.kind = .gpu) ∧
    (∃ side, x.endpointA = ⟨frame.place e side⟩ ∧ x.endpointB = ⟨frame.place e (!side)⟩) ∧
    ∀ side, ∀ port ∈ g.ports, port.id = ⟨frame.place e side⟩ →
      (port.role = .local ↔ e.lower.kind = .gpu) := by
  have small := frame.link_lt canonical e
  have found : g.links[frame.link e]? = some g.links[frame.link e] :=
    List.getElem?_eq_getElem small
  obtain ⟨a, b, isA, isB, endA, endB, _, joins⟩ := canonical.links _ _ found
  obtain ⟨side, first, second⟩ := frame.places e
  have idA : a.id = ⟨frame.place e side⟩ :=
    StrongId.value_injective (by rw [canonical.aligned.ports _ a isA, first])
  have idB : b.id = ⟨frame.place e (!side)⟩ :=
    StrongId.value_injective (by rw [canonical.aligned.ports _ b isB, second])
  have ownerA : a.owner = frame.node (e.endAt side) := by
    have owner := frame.owner_place e side
    rw [first, owners_outline, ownerAt, isA] at owner
    exact Option.some.inj owner
  have ownerB : b.owner = frame.node (e.endAt (!side)) := by
    have owner := frame.owner_place e (!side)
    rw [second, owners_outline, ownerAt, isB] at owner
    exact Option.some.inj owner
  -- a GPU is at one end of a link exactly when it is at the lower end
  have hasGpu : (a.owner.kind = .gpu ∨ b.owner.kind = .gpu) ↔ e.lower.kind = .gpu := by
    rw [ownerA, ownerB, frame.kind, frame.kind]
    cases side <;> cases e <;> simp [ClosLink.endAt, ClosLink.lower, ClosLink.upper, ClosNode.kind]
  have roles : (a.role = .local ↔ e.lower.kind = .gpu) ∧ (b.role = .local ↔ e.lower.kind = .gpu) ∧
      (g.links[frame.link e].kind = .localAttachment ↔ e.lower.kind = .gpu) := by
    rw [← hasGpu]
    rcases joins with ⟨kind, gpuA, _, roleA, roleB⟩ | ⟨kind, notA, notB, roleA, roleB⟩
    · simp [kind, gpuA, roleA, roleB]
    · simp [kind, notA, notB, roleA, roleB]
  refine ⟨_, List.getElem_mem small, StrongId.value_injective (canonical.aligned.links _ _ found),
    roles.2.2, ⟨side, endA.trans idA, endB.trans idB⟩, ?_⟩
  intro side' port member isPort
  have here := canonical.aligned.ports.mem member
  by_cases same : side' = side
  · rw [isPort, same, first, isA] at here
    rw [← Option.some.inj here]
    exact roles.1
  · have other : side' = !side := by cases side <;> cases side' <;> simp_all
    rw [isPort, other, second, isB] at here
    rw [← Option.some.inj here]
    exact roles.2.1

theorem link_coordinates (canonical : g.Canonical) {x : PhysicalLink} (member : x ∈ g.links) :
    ∃ e, x.id = ⟨frame.link e⟩ ∧ (x.kind = .localAttachment ↔ e.lower.kind = .gpu) ∧
      ∃ side, x.endpointA = ⟨frame.place e side⟩ ∧ x.endpointB = ⟨frame.place e (!side)⟩ := by
  have found := canonical.aligned.links.mem member
  have small := (List.getElem?_eq_some_iff.mp found).1
  have pairs := canonical.pairs_outline
  obtain ⟨e, isLink⟩ := frame.link_onto x.id.value (by omega)
  obtain ⟨y, isY, id, kind, ends, _⟩ := frame.link_at canonical e
  have sameId : x.id = y.id := StrongId.value_injective (by rw [id, isLink])
  rw [sameId, canonical.aligned.links.mem isY] at found
  obtain rfl := Option.some.inj found
  exact ⟨e, id, kind, ends⟩

end ClosFrame

/-- Two graphs over one network are the same up to numbering. -/
noncomputable def ClosFrame.isomorphism {c : ClosShape} {g h : TopologyGraph}
    (overG : ClosFrame c g.outline) (overH : ClosFrame c h.outline) (canonicalG : g.Canonical)
    (canonicalH : h.Canonical) : Isomorphism g h where
  node := moveNode overG overH
  rack := id
  port := movePort overG overH
  link := moveLink overG overH
  nodes := by
    rw [← overG.range_node canonicalG, ← overH.range_node canonicalH]
    exact bijOn_extend overG.node_injective overH.node_injective
  racks := by
    have same : {r | g.findRack r ≠ none} = {r | h.findRack r ≠ none} := by
      have lengths : g.racks.length = h.racks.length := overG.racks.trans overH.racks.symm
      ext r
      simp only [TopologyGraph.findRack, canonicalG.aligned.racks.find,
        canonicalH.aligned.racks.find, Set.mem_ofPred_eq, ne_eq, List.getElem?_eq_none_iff, lengths]
    rw [same]
    exact Set.bijOn_id _
  ports := by
    rw [← overG.range_place canonicalG, ← overH.range_place canonicalH]
    refine bijOn_extend ?_ ?_
    · rintro ⟨e, side⟩ ⟨e', side'⟩ same
      obtain ⟨rfl, rfl⟩ := overG.place_injective (congrArg StrongId.value same)
      rfl
    · rintro ⟨e, side⟩ ⟨e', side'⟩ same
      obtain ⟨rfl, rfl⟩ := overH.place_injective (congrArg StrongId.value same)
      rfl
  links := by
    rw [← overG.range_link canonicalG, ← overH.range_link canonicalH]
    refine bijOn_extend ?_ ?_
    · intro e e' same
      exact overG.link_injective (congrArg StrongId.value same)
    · intro e e' same
      exact overH.link_injective (congrArg StrongId.value same)
  gpu x member := by
    obtain ⟨l, n, k, isX, rack, nic, port⟩ := overG.gpu_coordinates canonicalG member
    obtain ⟨y, isMember, isY, rack', nic', port'⟩ := overH.gpu_at canonicalH l n k
    refine ⟨y, isMember, ?_, rack'.trans rack.symm, ?_, ?_⟩
    · rw [isX, isY, moveNode_node]
    · rw [nic, nic', moveNode_node]
    · rw [port, port', movePort_place]
  nic x member := by
    obtain ⟨l, n, isX, rack⟩ := overG.nic_coordinates canonicalG member
    obtain ⟨y, isMember, isY, rack'⟩ := overH.nic_at canonicalH l n
    refine ⟨y, isMember, ?_, rack'.trans rack.symm⟩
    rw [isX, isY, moveNode_node]
  switch x member := by
    rcases overG.switch_coordinates canonicalG member with ⟨l, isX, role, rack⟩ | ⟨s, isX, role, rack⟩
    · obtain ⟨y, isMember, isY, role', rack'⟩ := overH.leaf_at canonicalH l
      refine ⟨y, isMember, ?_, role'.trans role.symm, by simp [rack, rack']⟩
      rw [isX, isY, moveNode_node]
    · obtain ⟨y, isMember, isY, role', rack'⟩ := overH.spine_at canonicalH s
      refine ⟨y, isMember, ?_, role'.trans role.symm, by simp [rack, rack']⟩
      rw [isX, isY, moveNode_node]
  portOf x member := by
    obtain ⟨e, side, isX, owner⟩ := overG.port_coordinates canonicalG member
    obtain ⟨y, isMember, isY, owner'⟩ := overH.port_at canonicalH e side
    obtain ⟨_, _, _, _, _, role⟩ := overG.link_at canonicalG e
    obtain ⟨_, _, _, _, _, role'⟩ := overH.link_at canonicalH e
    refine ⟨y, isMember, ?_, ?_, ?_⟩
    · rw [isX, isY, movePort_place]
    · rw [owner, owner', moveNode_node]
    · rw [role side x member isX, role' side y isMember isY]
  linkOf x member := by
    obtain ⟨e, isX, kind, side, endA, endB⟩ := overG.link_coordinates canonicalG member
    obtain ⟨y, isMember, isY, kind', ⟨side', endA', endB'⟩, _⟩ := overH.link_at canonicalH e
    refine ⟨y, isMember, ?_, ?_, ?_⟩
    · rw [isX, isY, moveLink_link]
    · have same := kind'.trans kind.symm
      cases hx : x.kind <;> cases hy : y.kind <;> simp_all
    · rw [endA, endB, endA', endB', movePort_place, movePort_place]
      by_cases turned : side = side'
      · exact .inl ⟨by rw [turned], by rw [turned]⟩
      · have other : side' = !side := by cases side <;> cases side' <;> simp_all
        exact .inr ⟨by rw [other], by rw [other, Bool.not_not]⟩

end NexusLab.Topology
