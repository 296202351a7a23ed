import NexusLab.Topology.Connectivity

/-! # The outline of a graph

What the builders decide: the racks, which rack a NIC stands in, which NIC a GPU hangs on, the roles
of the switches, and the owners of the ports, two for each link.  Everything else a graph stores is
read off that or is an operational state.  Each builder adds to the outline what its arguments say,
or throws and leaves it as it was. -/

namespace NexusLab

namespace IdGenerator

/-- As long as there are identifiers left, the next one is the given one. -/
def Fresh (ids : IdGenerator) (count : Nat) : Prop :=
  count ≤ maxU64 → ids.exhausted = false ∧ ids.nextValue = count

theorem Fresh.next {what : String} {ids ids' : IdGenerator} {value count : Nat}
    (fresh : ids.Fresh count) (ok : ids.next what = .ok (value, ids')) : ids'.Fresh (count + 1) := by
  intro small
  obtain ⟨remaining, here⟩ := fresh (by omega)
  have notLast : count ≠ maxU64 := by omega
  simp only [IdGenerator.next, remaining, here, notLast, Bool.false_eq_true, if_false] at ok
  cases ok
  exact ⟨rfl, rfl⟩

end IdGenerator

namespace Topology

open Foundation

structure Outline where
  racks : Nat := 0
  nics : List RackId := []
  gpus : List (RackId × NicId) := []
  switches : List (SwitchRole × Option RackId) := []
  owners : List NodeId := []
deriving DecidableEq

namespace Outline

/-- The link at an index joins two nodes, one way round or the other. -/
def Joins (o : Outline) (i : Nat) (a b : NodeId) : Prop :=
  o.owners[2 * i]? = some a ∧ o.owners[2 * i + 1]? = some b ∨
    o.owners[2 * i]? = some b ∧ o.owners[2 * i + 1]? = some a

/-- How many nodes there are of a kind. -/
def count (o : Outline) : NodeKind → Nat
  | .gpu => o.gpus.length
  | .nic => o.nics.length
  | .switch => o.switches.length

def Contains (o : Outline) (node : NodeId) : Prop := node.value < o.count node.kind

theorem Joins.symm {o : Outline} {i : Nat} {a b : NodeId} (joins : o.Joins i a b) :
    o.Joins i b a := Or.symm joins

/-- A link has two ends and no more. -/
theorem Joins.unique {o : Outline} {i : Nat} {a b c d : NodeId} (first : o.Joins i a b)
    (second : o.Joins i c d) : a = c ∧ b = d ∨ a = d ∧ b = c := by
  unfold Joins at first second
  rcases first with ⟨isA, isB⟩ | ⟨isB, isA⟩ <;> rcases second with ⟨isC, isD⟩ | ⟨isD, isC⟩ <;>
    simp_all

/-- Links that were there stay as they were. -/
theorem Joins.append {o : Outline} {i : Nat} {a b : NodeId} (joins : o.Joins i a b)
    (more : List NodeId) : ({ o with owners := o.owners ++ more } : Outline).Joins i a b := by
  have old : ∀ (k : Nat) (c : NodeId), o.owners[k]? = some c → (o.owners ++ more)[k]? = some c := by
    intro k c found
    rw [List.getElem?_append_left (List.getElem?_eq_some_iff.mp found).1, found]
  rcases joins with ⟨isA, isB⟩ | ⟨isB, isA⟩
  · exact .inl ⟨old _ _ isA, old _ _ isB⟩
  · exact .inr ⟨old _ _ isB, old _ _ isA⟩

theorem joins_new {o : Outline} {links : Nat} (pairs : o.owners.length = 2 * links) (a b : NodeId) :
    ({ o with owners := o.owners ++ [a, b] } : Outline).Joins links a b := by
  left
  simp [← pairs]

end Outline

namespace TopologyGraph

def outline (g : TopologyGraph) : Outline where
  racks := g.racks.length
  nics := g.nics.map Nic.rack
  gpus := g.gpus.map fun gpu => (gpu.rack, gpu.attachedNic)
  switches := g.switches.map fun s => (s.role, s.rack)
  owners := g.ports.map Port.owner

section Outline

variable {g : TopologyGraph} {u v : NodeId}

@[simp] theorem owners_outline (index : Nat) : g.outline.owners[index]? = g.ownerAt index := by
  simp [outline, ownerAt]

@[simp] theorem count_outline (kind : NodeKind) : g.outline.count kind = g.count kind := by
  cases kind <;> simp [outline, Outline.count, count]

theorem outline_plain : g.plain.outline = g.outline := by
  simp only [outline, plain, List.map_map]
  rfl

theorem outline_congr {g' : TopologyGraph} (same : g'.plain = g.plain) :
    g'.outline = g.outline := by
  rw [← outline_plain, same, outline_plain]

theorem Canonical.pairs_outline (canonical : Canonical g) :
    g.outline.owners.length = 2 * g.links.length := by
  simpa [outline] using canonical.pairs

theorem Canonical.contains_outline (canonical : Canonical g) {node : NodeId} :
    g.contains node = true ↔ g.outline.Contains node := by
  rw [canonical.contains, Outline.Contains, count_outline]

theorem Canonical.joins_lt (canonical : Canonical g) {i : Nat} (joins : g.outline.Joins i u v) :
    i < g.links.length := by
  have pairs := canonical.pairs_outline
  rcases joins with ⟨found, _⟩ | ⟨found, _⟩ <;>
  · have small := (List.getElem?_eq_some_iff.mp found).1
    omega

/-- The place of the port that an arc leaves, and of the one that it leads to. -/
def sourceOf (i : Nat) : LinkDirection → Nat
  | .aToB => 2 * i
  | .bToA => 2 * i + 1

def destinationOf (i : Nat) : LinkDirection → Nat
  | .aToB => 2 * i + 1
  | .bToA => 2 * i

theorem Canonical.directed_ends (canonical : Canonical g) {i : Nat} {link : PhysicalLink}
    (found : g.links[i]? = some link) (d : LinkDirection) : link.id = ⟨i⟩ ∧
      (link.directed d).source.value = sourceOf i d ∧
      (link.directed d).destination.value = destinationOf i d := by
  obtain ⟨a, b, isA, isB, endA, endB, _⟩ := canonical.links i link found
  have valueA : link.endpointA.value = 2 * i := by
    rw [endA]
    exact canonical.aligned.ports _ a isA
  have valueB : link.endpointB.value = 2 * i + 1 := by
    rw [endB]
    exact canonical.aligned.ports _ b isB
  refine ⟨StrongId.value_injective (canonical.aligned.links i link found), ?_⟩
  cases d
  · exact ⟨valueA, valueB⟩
  · exact ⟨valueB, valueA⟩

/-- The usable arcs of a node, read off the outline. -/
theorem Canonical.mem_ways_iff (canonical : Canonical g) {usable : DirectedLink → Bool} {i : Nat}
    {d : LinkDirection} : (⟨⟨i⟩, d⟩, v) ∈ g.ways usable u ↔
      ∃ link, g.links[i]? = some link ∧ usable (link.directed d) = true ∧
        g.outline.owners[sourceOf i d]? = some u ∧
        g.outline.owners[destinationOf i d]? = some v := by
  simp only [owners_outline]
  constructor
  · intro way
    obtain ⟨link, isLink, d', same, allowed, source, destination⟩ := mem_ways.mp way
    obtain ⟨j, found⟩ := List.mem_iff_getElem?.mp isLink
    obtain ⟨id, sourceAt, destinationAt⟩ := canonical.directed_ends found d'
    rw [id] at same
    cases same
    exact ⟨link, found, allowed, sourceAt ▸ source, destinationAt ▸ destination⟩
  · rintro ⟨link, found, allowed, source, destination⟩
    obtain ⟨id, sourceAt, destinationAt⟩ := canonical.directed_ends found d
    refine mem_ways.mpr ⟨link, List.mem_of_getElem? found, d, by rw [id], allowed, ?_, ?_⟩
    · rw [sourceAt, source]
    · rw [destinationAt, destination]

theorem Canonical.exists_way_iff (canonical : Canonical g) {usable : DirectedLink → Bool} :
    v ∈ targets (g.ways usable) u ↔ ∃ i d link, g.links[i]? = some link ∧
      usable (link.directed d) = true ∧ g.outline.owners[sourceOf i d]? = some u ∧
        g.outline.owners[destinationOf i d]? = some v := by
  unfold targets
  simp only [List.mem_map, Prod.exists, exists_eq_right]
  constructor
  · rintro ⟨⟨⟨i⟩, d⟩, way⟩
    exact ⟨i, d, canonical.mem_ways_iff.mp way⟩
  · rintro ⟨i, d, way⟩
    exact ⟨⟨⟨i⟩, d⟩, canonical.mem_ways_iff.mpr way⟩

/-- An arc leads from one node to another exactly when a link joins them. -/
theorem Canonical.joined_iff (canonical : Canonical g) :
    v ∈ targets (g.ways fun _ => true) u ↔ ∃ i, g.outline.Joins i u v := by
  rw [canonical.exists_way_iff]
  constructor
  · rintro ⟨i, d, _, _, _, source, destination⟩
    cases d with
    | aToB => exact ⟨i, .inl ⟨source, destination⟩⟩
    | bToA => exact ⟨i, .inr ⟨destination, source⟩⟩
  · rintro ⟨i, joins⟩
    have found := List.getElem?_eq_getElem (canonical.joins_lt joins)
    rcases joins with ⟨isU, isV⟩ | ⟨isV, isU⟩
    · exact ⟨i, .aToB, _, found, rfl, isU, isV⟩
    · exact ⟨i, .bToA, _, found, rfl, isU, isV⟩

/-- No arc of a graph that was built dangles. -/
theorem Canonical.destination_port (canonical : Canonical g) {arc : DirectedLink}
    (member : arc ∈ g.arcsFrom u) : ∃ port, g.findPort arc.destination = some port := by
  obtain ⟨⟨link, isLink, d, rfl⟩, _⟩ := mem_arcsFrom_iff.mp member
  obtain ⟨i, found⟩ := List.mem_iff_getElem?.mp isLink
  obtain ⟨a, b, isA, isB, _⟩ := canonical.links i link found
  obtain ⟨_, _, destination⟩ := canonical.directed_ends found d
  cases d with
  | aToB => exact ⟨b, canonical.findPort.mpr (destination ▸ isB)⟩
  | bToA => exact ⟨a, canonical.findPort.mpr (destination ▸ isA)⟩

theorem Canonical.mem_targets (canonical : Canonical g) :
    v ∈ targets (g.ways fun _ => true) u ↔
      ∃ arc ∈ g.arcsFrom u, ∃ port, g.findPort arc.destination = some port ∧ port.owner = v := by
  rw [targets_ways]
  simp [canonical.ownerAt_eq]

theorem search_eq {arcs : List DirectedLink}
    (led : ∀ arc ∈ arcs, ∃ port, g.findPort arc.destination = some port) :
    ∃ found, directlyConnected.search g v arcs = .ok found ∧
      (found = true ↔ ∃ arc ∈ arcs, ∃ port, g.findPort arc.destination = some port ∧
        port.owner = v) := by
  induction arcs with
  | nil => exact ⟨false, rfl, by simp⟩
  | cons arc arcs ih =>
    obtain ⟨port, isPort⟩ := led arc (List.mem_cons_self ..)
    obtain ⟨found, ok, iff⟩ := ih fun other member => led other (List.mem_cons_of_mem _ member)
    by_cases here : port.owner = v
    · exact ⟨true, by simp [directlyConnected.search, isPort, here], by simp [isPort, here]⟩
    · exact ⟨found, by simp [directlyConnected.search, isPort, here, ok], by simp [isPort, here, iff]⟩

theorem Canonical.directlyConnected_eq (canonical : Canonical g) (known : g.contains u = true)
    (v : NodeId) : ∃ found, g.directlyConnected u v = .ok found ∧
      (found = true ↔ ∃ i, g.outline.Joins i u v) := by
  obtain ⟨found, ok, iff⟩ := @search_eq g v (g.arcsFrom u) fun _ => canonical.destination_port
  refine ⟨found, ?_, ?_⟩
  · simp [directlyConnected, canonical.adjacency known, ok]
  · rw [iff, ← canonical.joined_iff, canonical.mem_targets]

/-! ## What the builders add -/

/-- All generators hand out the next identifier of their kind. -/
structure Ready (g : TopologyGraph) : Prop where
  gpus : g.gpuIds.Fresh g.gpus.length
  nics : g.nicIds.Fresh g.nics.length
  switches : g.switchIds.Fresh g.switches.length
  racks : g.rackIds.Fresh g.racks.length
  ports : g.portIds.Fresh g.ports.length
  links : g.linkIds.Fresh g.links.length

theorem ready_empty : Ready {} := by
  constructor <;>
  · intro _
    exact ⟨rfl, rfl⟩

/-- A builder call either returns the value and leaves the outline that are given, or throws and
leaves the outline alone; on a graph that is ready it does not throw when the call is possible. -/
def Adds {α : Type} (m : Action TopologyGraph α) (g : TopologyGraph) (value : α) (next : Outline)
    (possible : Prop) : Prop :=
  wp m (fun a g' => a = value ∧ g'.outline = next ∧ (Ready g → Ready g'))
    (fun _ g' => g'.outline = g.outline ∧ ¬ (Ready g ∧ possible)) g

theorem wp_draw {generator : TopologyGraph → IdGenerator}
    {store : IdGenerator → TopologyGraph → TopologyGraph} {Q : Nat → TopologyGraph → Prop}
    {E : Error → TopologyGraph → Prop}
    (returns : ∀ value ids, (generator g).exhausted = false →
      (∀ count, (generator g).At count → value = count ∧ ids.At (count + 1)) →
      (∀ count, (generator g).Fresh count → ids.Fresh (count + 1)) → Q value (store ids g))
    (throws : ∀ e, (generator g).exhausted = true → E e g) : wp (nextId generator store) Q E g := by
  simp only [nextId, wp_bind, wp_get, wp_fromExcept, wp_modify, wp_pure]
  constructor
  · intro drawn isDrawn
    refine returns drawn.1 drawn.2 ?_ ?_ ?_
    · cases exhausted : (generator g).exhausted with
      | false => rfl
      | true => simp [IdGenerator.next, exhausted] at isDrawn
    · intro count here
      exact IdGenerator.next_at here isDrawn
    · intro count fresh
      exact fresh.next isDrawn
  · intro e thrown
    exact throws e (IdGenerator.exhausted_of_next thrown)

/-- A generator that has run out is past the last identifier. -/
theorem not_fresh {ids : IdGenerator} {count : Nat} (spent : ids.exhausted = true) :
    ¬ (ids.Fresh count ∧ count ≤ maxU64) := by
  rintro ⟨fresh, small⟩
  rw [(fresh small).1] at spent
  cases spent

theorem adds_addRack (canonical : Canonical g) :
    Adds addRack g ⟨g.racks.length⟩ { g.outline with racks := g.racks.length + 1 }
      (g.racks.length ≤ maxU64) := by
  simp only [Adds, addRack, nextRackId, wp_bind]
  refine wp_draw (fun id ids _ drawn fresh => ?_) (fun _ spent => ⟨rfl, fun both => ?_⟩)
  · simp only [wp_modify, wp_pure]
    obtain ⟨rfl, _⟩ := drawn _ canonical.aligned.rackIds
    refine ⟨rfl, by simp [outline], fun ready => { ready with racks := ?_ }⟩
    simpa using fresh _ ready.racks
  · exact not_fresh spent ⟨both.1.racks, both.2⟩

theorem adds_addNic (canonical : Canonical g) (rack : RackId) :
    Adds (addNic rack) g ⟨g.nics.length⟩ { g.outline with nics := g.outline.nics ++ [rack] }
      (rack.value < g.racks.length ∧ g.nics.length ≤ maxU64) := by
  simp only [Adds, addNic, nextNicId, wp_bind, wp_get, wp_throwIf]
  refine ⟨fun unknown => ⟨trivial, fun both => ?_⟩, fun known => ?_⟩
  · unfold TopologyGraph.findRack at unknown
    rw [canonical.aligned.racks.find, List.getElem?_eq_getElem both.2.1] at unknown
    cases unknown
  refine wp_draw (fun id ids _ drawn fresh => ?_) (fun _ spent => ⟨rfl, fun both => ?_⟩)
  · simp only [wp_modify, wp_pure]
    obtain ⟨rfl, _⟩ := drawn _ canonical.aligned.nicIds
    refine ⟨rfl, by simp [outline], fun ready => { ready with nics := ?_, racks := ?_ }⟩
    · simpa using fresh _ ready.nics
    · simpa using ready.racks
  · exact not_fresh spent ⟨both.1.nics, both.2.2⟩

theorem adds_addSpineSwitch (canonical : Canonical g) :
    Adds addSpineSwitch g ⟨g.switches.length⟩
      { g.outline with switches := g.outline.switches ++ [(.spine, none)] }
      (g.switches.length ≤ maxU64) := by
  simp only [Adds, addSpineSwitch, nextSwitchId, wp_bind]
  refine wp_draw (fun id ids _ drawn fresh => ?_) (fun _ spent => ⟨rfl, fun both => ?_⟩)
  · simp only [wp_modify, wp_pure]
    obtain ⟨rfl, _⟩ := drawn _ canonical.aligned.switchIds
    refine ⟨rfl, by simp [outline], fun ready => { ready with switches := ?_ }⟩
    simpa using fresh _ ready.switches
  · exact not_fresh spent ⟨both.1.switches, both.2⟩

theorem adds_addLeafSwitch (canonical : Canonical g) (rack : RackId) :
    Adds (addLeafSwitch rack) g ⟨g.switches.length⟩
      { g.outline with switches := g.outline.switches ++ [(.leaf, some rack)] }
      (rack.value < g.racks.length ∧ g.switches.length ≤ maxU64) := by
  simp only [Adds, addLeafSwitch, nextSwitchId, wp_bind, wp_get, wp_throwIf]
  refine ⟨fun unknown => ⟨trivial, fun both => ?_⟩, fun known => ?_⟩
  · unfold TopologyGraph.findRack at unknown
    rw [canonical.aligned.racks.find, List.getElem?_eq_getElem both.2.1] at unknown
    cases unknown
  refine wp_draw (fun id ids _ drawn fresh => ?_) (fun _ spent => ⟨rfl, fun both => ?_⟩)
  · simp only [wp_modify, wp_pure]
    obtain ⟨rfl, _⟩ := drawn _ canonical.aligned.switchIds
    refine ⟨rfl, by simp [outline], fun ready => { ready with switches := ?_, racks := ?_ }⟩
    · simpa using fresh _ ready.switches
    · simpa using ready.racks
  · exact not_fresh spent ⟨both.1.switches, both.2.2⟩

theorem outline_appendLink {a b : NodeId} (link : PhysicalLink) :
    (appendLink link a b g).outline = g.outline := by
  obtain ⟨_, _, _, same, _⟩ := @appendLink_eq g a b link
  rw [same]
  rfl

theorem ready_appendLink {a b : NodeId} {link : PhysicalLink} (ready : Ready { g with
    links := g.links ++ [link] }) : Ready (appendLink link a b g) := by
  obtain ⟨_, _, _, same, _⟩ := @appendLink_eq g a b link
  rw [same]
  exact { ready with }

theorem adds_addGpu (canonical : Canonical g) {attachedNic : NicId} {rack : RackId}
    (stands : g.outline.nics[attachedNic.value]? = some rack) :
    Adds (addGpu attachedNic) g ⟨g.gpus.length⟩
      { g.outline with
        gpus := g.outline.gpus ++ [(rack, attachedNic)]
        owners := g.outline.owners ++ [⟨.gpu, g.gpus.length⟩, .ofNic attachedNic] }
      (g.gpus.length ≤ maxU64 ∧ g.ports.length + 1 ≤ maxU64) := by
  have aligned := canonical.aligned
  -- two ports for each link, so the links are within range with the ports
  have links : g.ports.length + 1 ≤ maxU64 → g.links.length ≤ maxU64 := by
    have pairs := canonical.pairs
    omega
  simp only [Adds, addGpu, nextGpuId, nextPortId, nextLinkId, wp_bind, wp_get, wp_getOrThrow]
  refine ⟨fun nic found => ?_, fun unknown => ⟨trivial, fun _ => ?_⟩⟩
  -- an unknown NIC is excluded by the outline
  rotate_left
  · unfold TopologyGraph.findNic at unknown
    simp [outline, ← aligned.nics.find, unknown] at stands
  -- the rack of the new GPU is that of its NIC
  have isRack : nic.rack = rack := by
    have here := canonical.findNic found
    simpa [outline, here] using stands
  -- each draw may find its sequence spent, and then the bound is exceeded
  refine wp_draw (fun gpuId gpuIds _ gpuDrawn gpuFresh => ?_) (fun _ spent => ⟨rfl, fun both => ?_⟩)
  rotate_left
  · exact not_fresh spent ⟨both.1.gpus, both.2.1⟩
  refine wp_draw (fun gpuPort portIds portsLeft gpuPortDrawn portFresh => ?_)
    (fun _ spent => ⟨rfl, fun both => ?_⟩)
  rotate_left
  · exact not_fresh spent ⟨both.1.ports, by omega⟩
  refine wp_draw (fun nicPort portIds' _ nicPortDrawn portFresh' => ?_)
    (fun _ spent => ⟨rfl, fun both => ?_⟩)
  rotate_left
  · exact not_fresh spent ⟨portFresh _ both.1.ports, both.2.2⟩
  refine wp_draw (fun linkId linkIds linksLeft linkDrawn linkFresh => ?_)
    (fun _ spent => ⟨rfl, fun both => ?_⟩)
  rotate_left
  · exact not_fresh spent ⟨both.1.links, links both.2.2⟩
  simp only [wp_modify, wp_pure]
  have linksLeft : ¬ g.linkIds.exhausted = true := by simpa using linksLeft
  have portsLeft : ¬ g.portIds.exhausted = true := by simpa using portsLeft
  obtain ⟨rfl, _⟩ := gpuDrawn _ ((aligned.gpuIds.resolve_left linksLeft).resolve_left portsLeft)
  obtain ⟨rfl, nextPort⟩ := gpuPortDrawn _ (aligned.portIds.resolve_left linksLeft)
  obtain ⟨rfl, _⟩ := nicPortDrawn _ nextPort
  obtain ⟨rfl, _⟩ := linkDrawn _ aligned.linkIds
  -- all identifiers are the next ones, as nothing was spent
  refine ⟨rfl, ?_, fun ready => ready_appendLink ?_⟩
  · rw [outline_appendLink, isRack]
    simp only [outline, List.map_append, List.map_cons, List.map_nil, List.length_modify]
    rw [map_modify]
    intro _
    rfl
  · constructor
    · simpa using gpuFresh _ ready.gpus
    · simpa using ready.nics
    · exact ready.switches
    · simpa using ready.racks
    · simpa using portFresh' _ (portFresh _ ready.ports)
    · simpa using linkFresh _ ready.links

theorem adds_connectFabric (canonical : Canonical g) (a : NodeId) (roleA : PortRole) (b : NodeId)
    (roleB : PortRole) : ∃ value, Adds (connectFabric a roleA b roleB) g value
      { g.outline with owners := g.outline.owners ++ [a, b] }
      (g.outline.Contains a ∧ g.outline.Contains b ∧ a ≠ b ∧ a.kind ≠ .gpu ∧ b.kind ≠ .gpu ∧
        roleA ≠ .local ∧ roleB ≠ .local ∧ (¬ ∃ i, g.outline.Joins i a b) ∧
        g.ports.length + 1 ≤ maxU64) := by
  have aligned := canonical.aligned
  have links : g.ports.length + 1 ≤ maxU64 → g.links.length ≤ maxU64 := by
    have pairs := canonical.pairs
    omega
  refine ⟨⟨g.links.length⟩, ?_⟩
  simp only [Adds, connectFabric, nextPortId, nextLinkId, wp_bind, wp_get, wp_throwIf, wp_fromExcept,
    ← canonical.contains_outline]
  refine ⟨fun unknown => ⟨trivial, fun both => ?_⟩, fun known => ⟨fun same => ⟨trivial, fun both => ?_⟩,
    fun different => ⟨fun isGpu => ⟨trivial, fun both => ?_⟩, fun notGpu =>
      ⟨fun isLocal => ⟨trivial, fun both => ?_⟩, fun fabric => ⟨fun connected searched =>
        ⟨fun isConnected => ⟨trivial, fun both => ?_⟩, fun notConnected => ?_⟩,
          fun _ thrown => ⟨trivial, fun both => ?_⟩⟩⟩⟩⟩⟩
  · obtain ⟨_, isA, isB, _⟩ := both
    simp [isA, isB] at unknown
  · exact both.2.2.2.1 same
  · obtain ⟨_, _, _, _, notA, notB, _⟩ := both
    exact isGpu.elim notA notB
  · obtain ⟨_, _, _, _, _, _, notA, notB, _⟩ := both
    exact isLocal.elim notA notB
  · obtain ⟨found, ok, iff⟩ := canonical.directlyConnected_eq both.2.1 b
    rw [ok] at searched
    cases searched
    exact both.2.2.2.2.2.2.2.2.1 (iff.mp isConnected)
  · refine wp_draw (fun portA portIds portsLeft firstDrawn portFresh => ?_)
      (fun _ spent => ⟨rfl, fun both => ?_⟩)
    rotate_left
    · exact not_fresh spent ⟨both.1.ports, by omega⟩
    refine wp_draw (fun portB portIds' _ secondDrawn portFresh' => ?_)
      (fun _ spent => ⟨rfl, fun both => ?_⟩)
    rotate_left
    · exact not_fresh spent ⟨portFresh _ both.1.ports, both.2.2.2.2.2.2.2.2.2⟩
    refine wp_draw (fun linkId linkIds linksLeft linkDrawn linkFresh => ?_)
      (fun _ spent => ⟨rfl, fun both => ?_⟩)
    rotate_left
    · exact not_fresh spent ⟨both.1.links, links both.2.2.2.2.2.2.2.2.2⟩
    have linksLeft : g.linkIds.exhausted = false := linksLeft
    have atPort := aligned.portIds
    simp only [linksLeft, Bool.false_eq_true, false_or] at atPort
    obtain ⟨rfl, nextPort⟩ := firstDrawn _ atPort
    obtain ⟨rfl, _⟩ := secondDrawn _ nextPort
    obtain ⟨rfl, _⟩ := linkDrawn _ aligned.linkIds
    simp only [not_or] at notGpu
    refine wp_appendOwnerPort aligned.nics aligned.switches notGpu.1 ?_
    refine wp_appendOwnerPort ?_ ?_ notGpu.2 ?_
    · exact aligned.nics.map fun _ => rfl
    · exact aligned.switches.map fun _ => rfl
    simp only [wp_modify, wp_pure, List.map_map, giveNic_comp, giveSwitch_comp]
    refine ⟨trivial, ?_, fun ready => ready_appendLink ?_⟩
    · rw [outline_appendLink]
      simp only [outline, List.map_append, List.map_cons, List.map_nil, List.map_map]
      rfl
    · constructor
      · exact ready.gpus
      · simpa using ready.nics
      · simpa using ready.switches
      · exact ready.racks
      · simpa using portFresh' _ (portFresh _ ready.ports)
      · simpa using linkFresh _ ready.links
  · obtain ⟨found, ok, _⟩ := canonical.directlyConnected_eq both.2.1 b
    rw [ok] at thrown
    cases thrown

theorem Adds.outline_after {α : Type} {m : Action TopologyGraph α} {value : α} {next : Outline}
    {possible : Prop} (adds : Adds m g value next possible) :
    (after m g).outline = next ∨ (after m g).outline = g.outline := by
  unfold Adds wp at adds
  unfold TopologyGraph.after
  cases run : m g with
  | ok a g' =>
    rw [run] at adds
    exact .inl adds.2.1
  | error e g' =>
    rw [run] at adds
    exact .inr adds.1

theorem Adds.returns {α : Type} {m : Action TopologyGraph α} {value : α} {next : Outline}
    {possible : Prop} (adds : Adds m g value next possible) (ready : Ready g) (can : possible) :
    ∃ g', m g = .ok value g' ∧ g'.outline = next ∧ Ready g' := by
  unfold Adds wp at adds
  cases run : m g with
  | ok a g' =>
    rw [run] at adds
    obtain ⟨rfl, isNext, stays⟩ := adds
    exact ⟨g', rfl, isNext, stays ready⟩
  | error e g' =>
    rw [run] at adds
    exact absurd ⟨ready, can⟩ adds.2

theorem Adds.completes {α : Type} {m : Action TopologyGraph α} {value : α} {next : Outline}
    {possible : Prop} (adds : Adds m g value next possible) (ready : Ready g) (can : possible) :
    wp m (fun a g' => a = value ∧ g'.outline = next ∧ Ready g' ∧ g' = after m g)
      (fun _ _ => False) g := by
  obtain ⟨g', ok, isNext, ready'⟩ := adds.returns ready can
  exact wp_of_eq_ok ok ⟨rfl, isNext, ready', by simp [TopologyGraph.after, ok]⟩

end Outline

/-! ## GPUs and their NICs -/

end TopologyGraph

/-- Every GPU is linked to the NIC that it is attached to. -/
def Outline.Attached (o : Outline) : Prop :=
  ∀ i rack nic, o.gpus[i]? = some (rack, nic) → ∃ j, o.Joins j ⟨.gpu, i⟩ (.ofNic nic)

namespace TopologyGraph

variable {g : TopologyGraph}

theorem attached_addGpu (canonical : Canonical g) (attached : g.outline.Attached) (nic : NicId) :
    (after (addGpu nic) g).outline.Attached := by
  cases stands : g.outline.nics[nic.value]? with
  | none =>
    have unknown : g.findNic nic = none := by
      unfold TopologyGraph.findNic
      rw [canonical.aligned.nics.find]
      simpa [outline] using stands
    have same : after (addGpu nic) g = g := by
      simp only [after, addGpu, get_bind_apply, unknown]
      rfl
    rwa [same]
  | some rack =>
    rcases (adds_addGpu canonical stands).outline_after with added | same
    · rw [added]
      intro i home nic' found
      by_cases old : i < g.outline.gpus.length
      · rw [List.getElem?_append_left old] at found
        obtain ⟨j, joins⟩ := attached i home nic' found
        exact ⟨j, Outline.Joins.append joins _⟩
      · rw [List.getElem?_append_right (not_lt.mp old)] at found
        obtain ⟨small, isNew⟩ := List.getElem?_eq_some_iff.mp found
        have here : i = g.gpus.length := by
          simp [outline] at small old
          omega
        simp only [List.getElem_singleton, Prod.mk.injEq] at isNew
        obtain ⟨_, rfl⟩ := isNew
        subst here
        exact ⟨_, Outline.joins_new canonical.pairs_outline _ _⟩
    · rwa [same]

theorem Built.attached (built : Built g) : g.outline.Attached := by
  induction built with
  | empty =>
    intro i rack nic found
    cases found
  | addRack earlier ih =>
    rcases (adds_addRack earlier.canonical).outline_after with added | same
    · rw [added]
      exact ih
    · rwa [same]
  | addNic rack earlier ih =>
    rcases (adds_addNic earlier.canonical rack).outline_after with added | same
    · rw [added]
      exact ih
    · rwa [same]
  | addGpu nic earlier ih => exact attached_addGpu earlier.canonical ih nic
  | addLeafSwitch rack earlier ih =>
    rcases (adds_addLeafSwitch earlier.canonical rack).outline_after with added | same
    · rw [added]
      exact ih
    · rwa [same]
  | addSpineSwitch earlier ih =>
    rcases (adds_addSpineSwitch earlier.canonical).outline_after with added | same
    · rw [added]
      exact ih
    · rwa [same]
  | connectFabric a roleA b roleB earlier ih =>
    obtain ⟨value, adds⟩ := adds_connectFabric earlier.canonical a roleA b roleB
    rcases adds.outline_after with added | same
    · rw [added]
      intro i rack nic found
      obtain ⟨j, joins⟩ := ih i rack nic found
      exact ⟨j, joins.append _⟩
    · rwa [same]
  | setLinkState id state _ ih => rwa [outline_congr (plain_setLinkState id)]
  | setPortState id state _ ih => rwa [outline_congr (plain_setPortState id)]
  | setSwitchState id state _ ih => rwa [outline_congr (plain_setSwitchState id)]

end TopologyGraph

end Topology

end NexusLab
