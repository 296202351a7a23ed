import NexusLab.Topology.ClosGenerator

/-! # What a valid Clos is

A graph that was built and that the validator accepts has the links of the network and no others,
and is the generated graph up to numbering. -/

namespace NexusLab.Topology

open Foundation TopologyGraph

/-- The ports at the ends of a link belong to two nodes, one way round or the other. -/
def TopologyGraph.LinkJoins (g : TopologyGraph) (link : PhysicalLink) (u v : NodeId) : Prop :=
  ∃ a b, g.findPort link.endpointA = some a ∧ g.findPort link.endpointB = some b ∧
    (a.owner = u ∧ b.owner = v ∨ a.owner = v ∧ b.owner = u)

/-- One link of the graph joins the two nodes. -/
def TopologyGraph.JoinedOnce (g : TopologyGraph) (u v : NodeId) : Prop :=
  ∃! link, link ∈ g.links ∧ g.LinkJoins link u v

section Links

variable {c : ClosShape} {g : TopologyGraph} {u v : NodeId}

theorem linkJoins_iff (canonical : g.Canonical) {i : Nat} {link : PhysicalLink}
    (found : g.links[i]? = some link) : g.LinkJoins link u v ↔ g.outline.Joins i u v := by
  obtain ⟨_, first, second⟩ := canonical.directed_ends found .aToB
  have first : link.endpointA.value = 2 * i := first
  have second : link.endpointB.value = 2 * i + 1 := second
  have ownerA : ∀ w, g.outline.owners[2 * i]? = some w ↔
      ∃ port, g.findPort link.endpointA = some port ∧ port.owner = w := by
    intro w
    rw [owners_outline, ← first, canonical.ownerAt_eq]
  have ownerB : ∀ w, g.outline.owners[2 * i + 1]? = some w ↔
      ∃ port, g.findPort link.endpointB = some port ∧ port.owner = w := by
    intro w
    rw [owners_outline, ← second, canonical.ownerAt_eq]
  unfold Outline.Joins LinkJoins
  simp only [ownerA, ownerB]
  constructor
  · rintro ⟨a, b, isA, isB, ⟨ofA, ofB⟩ | ⟨ofA, ofB⟩⟩
    · exact .inl ⟨⟨a, isA, ofA⟩, b, isB, ofB⟩
    · exact .inr ⟨⟨a, isA, ofA⟩, b, isB, ofB⟩
  · rintro (⟨⟨a, isA, ofA⟩, b, isB, ofB⟩ | ⟨⟨a, isA, ofA⟩, b, isB, ofB⟩)
    · exact ⟨a, b, isA, isB, .inl ⟨ofA, ofB⟩⟩
    · exact ⟨a, b, isA, isB, .inr ⟨ofA, ofB⟩⟩

theorem ClosFrame.joinedOnce (frame : ClosFrame c g.outline) (canonical : g.Canonical)
    {x y : ClosNode c} {e : ClosLink c} (between : e.Between x y) :
    g.JoinedOnce (frame.node x) (frame.node y) := by
  have small := frame.link_lt canonical e
  have found : g.links[frame.link e]? = some g.links[frame.link e] :=
    List.getElem?_eq_getElem small
  refine ⟨g.links[frame.link e], ⟨List.getElem_mem small, ?_⟩, ?_⟩
  · exact (linkJoins_iff canonical found).mpr (frame.joins_iff.mpr ⟨e, rfl, between⟩)
  · rintro other ⟨member, joins⟩
    obtain ⟨i, isOther⟩ := List.mem_iff_getElem?.mp member
    obtain ⟨e', rfl, between'⟩ := frame.joins_iff.mp ((linkJoins_iff canonical isOther).mp joins)
    rw [between'.unique between, found] at isOther
    exact (Option.some.inj isOther).symm

end Links

/-- A valid Clos has one link between each GPU and its NIC, one between each NIC and the single leaf
of its rack, one for each leaf and spine, and no others, with the NICs and GPUs that were asked for.
It is the generated graph up to the numbering, the roles of fabric ports, the operational states and
which end of a link comes first. -/
theorem clos_validator_sound {g : TopologyGraph} {config : ClosConfig} (built : g.Built)
    (valid : validateClosTopology g config = .ok []) :
    (∀ gpu ∈ g.gpus, g.JoinedOnce (.ofGpu gpu.id) (.ofNic gpu.attachedNic)) ∧
    (∀ nic ∈ g.nics, ∃ rack ∈ g.racks, rack.id = nic.rack ∧ ∃ leaf, rack.leafSwitches = [leaf] ∧
      g.JoinedOnce (.ofNic nic.id) (.ofSwitch leaf)) ∧
    (∀ leaf ∈ g.switches, leaf.role = .leaf → ∀ spine ∈ g.switches, spine.role = .spine →
      g.JoinedOnce (.ofSwitch leaf.id) (.ofSwitch spine.id)) ∧
    (∀ link ∈ g.links,
      (∃ gpu ∈ g.gpus, g.LinkJoins link (.ofGpu gpu.id) (.ofNic gpu.attachedNic)) ∨
      (∃ nic ∈ g.nics, ∃ rack ∈ g.racks, rack.id = nic.rack ∧ ∃ leaf, rack.leafSwitches = [leaf] ∧
        g.LinkJoins link (.ofNic nic.id) (.ofSwitch leaf)) ∨
      (∃ leaf ∈ g.switches, leaf.role = .leaf ∧ ∃ spine ∈ g.switches, spine.role = .spine ∧
        g.LinkJoins link (.ofSwitch leaf.id) (.ofSwitch spine.id))) ∧
    (∀ nic ∈ g.nics, nic.attachedGpus.length = config.gpusPerNic) ∧
    (∀ rack ∈ g.racks, rack.nics.length = config.nicsPerLeaf) ∧
    ∃ clos, generateClos config = .ok clos ∧ Nonempty (Isomorphism g clos) := by
  have canonical := built.canonical
  obtain ⟨dimensions, accepted, _⟩ := returned_of_bind valid
  obtain ⟨frame⟩ := (validateClosTopology_iff built accepted).mp valid
  -- the rack at a place lists the leaf at that place and no other
  have rackOf : ∀ l : Fin config.shape.leaves, ∀ leaf : SwitchId,
      .ofSwitch leaf = frame.node (.leaf l) → ∃ rack ∈ g.racks, rack.id = ⟨l⟩ ∧
        rack.leafSwitches = [leaf] := by
    intro l leaf isLeaf
    have small : l.1 < g.racks.length := lt_of_lt_of_eq l.2 frame.racks.symm
    have id : g.racks[l.1].id = ⟨l⟩ :=
      StrongId.value_injective (canonical.aligned.racks _ _ (List.getElem?_eq_getElem small))
    refine ⟨_, List.getElem_mem small, id, ?_⟩
    rw [(canonical.racks _ (List.getElem_mem small)).2.2, id]
    exact frame.leavesOfRack_eq canonical isLeaf
  refine ⟨?_, ?_, ?_, ?_, ?_, ?_, ?_⟩
  -- each conjunct is read off the frame, which knows what stands where
  · intro gpu member
    obtain ⟨l, n, k, isGpu, _, isNic, _⟩ := frame.gpu_coordinates canonical member
    rw [isGpu, isNic]
    exact frame.joinedOnce canonical (e := .attachment l n k) (.inl ⟨rfl, rfl⟩)
  · intro nic member
    obtain ⟨l, n, isNic, home⟩ := frame.nic_coordinates canonical member
    obtain ⟨leaf, _, isLeaf, _⟩ := frame.leaf_at canonical l
    obtain ⟨rack, isRack, id, leaves⟩ := rackOf l leaf.id isLeaf
    refine ⟨rack, isRack, id.trans home.symm, leaf.id, leaves, ?_⟩
    rw [isNic, isLeaf]
    exact frame.joinedOnce canonical (e := .uplink l n) (.inl ⟨rfl, rfl⟩)
  · intro leaf isLeaf leafRole spine isSpine spineRole
    rcases frame.switch_coordinates canonical isLeaf with ⟨l, atLeaf, _⟩ | ⟨_, _, other, _⟩
    · rcases frame.switch_coordinates canonical isSpine with ⟨_, _, other, _⟩ | ⟨s, atSpine, _⟩
      · rw [spineRole] at other
        cases other
      · rw [atLeaf, atSpine]
        exact frame.joinedOnce canonical (e := .trunk l s) (.inl ⟨rfl, rfl⟩)
    · rw [leafRole] at other
      cases other
  · intro link member
    obtain ⟨i, found⟩ := List.mem_iff_getElem?.mp member
    have pairs := canonical.pairs_outline
    have small := (List.getElem?_eq_some_iff.mp found).1
    obtain ⟨e, rfl⟩ := frame.link_onto i (by omega)
    have joins := (linkJoins_iff canonical found).mpr (frame.joins e)
    -- a link is at one place of the frame, which says whom it joins
    cases e with
    | attachment l n k =>
      obtain ⟨gpu, isMember, isGpu, _, isNic, _⟩ := frame.gpu_at canonical l n k
      exact .inl ⟨gpu, isMember, by rwa [isGpu, isNic]⟩
    | uplink l n =>
      obtain ⟨nic, isMember, isNic, home⟩ := frame.nic_at canonical l n
      obtain ⟨leaf, _, isLeaf, _⟩ := frame.leaf_at canonical l
      obtain ⟨rack, isRack, id, leaves⟩ := rackOf l leaf.id isLeaf
      exact .inr (.inl ⟨nic, isMember, rack, isRack, id.trans home.symm, leaf.id, leaves,
        by rwa [isNic, isLeaf]⟩)
    | trunk l s =>
      obtain ⟨leaf, isMember, isLeaf, leafRole, _⟩ := frame.leaf_at canonical l
      obtain ⟨spine, isMember', isSpine, spineRole, _⟩ := frame.spine_at canonical s
      exact .inr (.inr ⟨leaf, isMember, leafRole, spine, isMember', spineRole,
        by rwa [isLeaf, isSpine]⟩)
  · intro nic member
    obtain ⟨l, n, isNic, _⟩ := frame.nic_coordinates canonical member
    rw [(canonical.nics nic member).2.1]
    exact frame.length_gpusOfNic canonical isNic
  · intro rack member
    have small : rack.id.value < config.shape.leaves := by
      rw [← frame.racks]
      exact (List.getElem?_eq_some_iff.mp (canonical.aligned.racks.mem member)).1
    rw [(canonical.racks rack member).2.1]
    exact frame.length_nicsOfRack canonical ⟨_, small⟩
  -- two frames of one shape are isomorphic over it
  · obtain ⟨clos, generated, stage⟩ := generateClos_stage accepted
    obtain ⟨overClos⟩ := @Stage.frame config.shape clos stage
    exact ⟨clos, generated, ⟨frame.isomorphism overClos canonical stage.built.canonical⟩⟩

/-- Two spines, and a rack that was built after them. -/
def spinesFirst : TopologyGraph :=
  after (connectFabric ⟨.switch, 2⟩ .fabricUplink ⟨.switch, 1⟩ .fabricUplink)
    (after (connectFabric ⟨.switch, 2⟩ .fabricDownlink ⟨.nic, 0⟩ .fabricUplink)
      (after (connectFabric ⟨.switch, 0⟩ .fabricUplink ⟨.switch, 2⟩ .fabricUplink)
        (after (addGpu ⟨0⟩) (after (addNic ⟨0⟩) (after (addLeafSwitch ⟨0⟩) (after addRack
          (after addSpineSwitch (after addSpineSwitch {}))))))))

theorem spinesFirst_built : spinesFirst.Built :=
  .connectFabric _ _ _ _ (.connectFabric _ _ _ _ (.connectFabric _ _ _ _ (.addGpu _ (.addNic _
    (.addLeafSwitch _ (.addRack (.addSpineSwitch (.addSpineSwitch .empty))))))))

theorem clos_validator_sound_spinesFirst :
    validateClosTopology spinesFirst ⟨1, 1, 1, 2⟩ = .ok [] ∧
      spinesFirst.JoinedOnce ⟨.switch, 2⟩ ⟨.switch, 1⟩ ∧
      ∃ clos, generateClos ⟨1, 1, 1, 2⟩ = .ok clos ∧ Nonempty (Isomorphism spinesFirst clos) := by
  have valid : validateClosTopology spinesFirst ⟨1, 1, 1, 2⟩ = .ok [] := by decide +kernel
  obtain ⟨_, _, trunks, _, _, _, generated⟩ := clos_validator_sound spinesFirst_built valid
  refine ⟨valid, ?_, generated⟩
  exact trunks ⟨⟨2⟩, some ⟨0⟩, .leaf, [⟨3⟩, ⟨4⟩, ⟨6⟩], .up⟩ (by decide +kernel) rfl
    ⟨⟨1⟩, none, .spine, [⟨7⟩], .up⟩ (by decide +kernel) rfl

end NexusLab.Topology
