import NexusLab.Topology.Clos
import NexusLab.Topology.Isomorphism
import NexusLab.Topology.ValidationExact

/-! # What the validator of a Clos accepts

The validator looks for the connections a Clos must have and compares the sizes of lists.  Over a
graph that was built that is enough: the connections it finds are as many as there are links, so
there are no others. -/

namespace NexusLab.Topology

open Foundation TopologyGraph Families

/-- The network a configuration asks for. -/
def ClosConfig.shape (config : ClosConfig) : ClosShape where
  leaves := config.gpuCount / config.gpusPerNic / config.nicsPerLeaf
  nicsPerLeaf := config.nicsPerLeaf
  gpusPerNic := config.gpusPerNic
  spines := config.spineCount

/-! ## Accepted configurations -/

theorem requirePositive_ok {topologyName fieldName : String} {value : Nat} {u : Unit}
    (ok : requirePositive topologyName fieldName value = .ok u) : 0 < value := by
  unfold requirePositive at ok
  split at ok
  · cases ok
  · omega

theorem checkedAdd_ok {topologyName : String} {left right sum : Nat}
    (ok : checkedAdd topologyName left right = .ok sum) (positive : 0 < right) :
    sum = left + right ∧ sum ≤ maxU64 := by
  unfold checkedAdd at ok
  split at ok
  · cases ok
  · cases ok
    exact ⟨rfl, by omega⟩

theorem checkedMultiply_ok {topologyName : String} {left right product : Nat}
    (ok : checkedMultiply topologyName left right = .ok product) :
    product = left * right ∧ product ≤ maxU64 := by
  unfold checkedMultiply at ok
  split at ok
  · cases ok
  · rename_i fits
    cases ok
    refine ⟨rfl, ?_⟩
    by_cases none : left = 0
    · simp [none]
    · have bound : right ≤ maxU64 / left := by
        by_contra large
        exact fits ⟨none, by omega⟩
      rw [Nat.mul_comm]
      exact (Nat.le_div_iff_mul_le (Nat.pos_of_ne_zero none)).mp bound

/-- What the dimensions of an accepted configuration say about its network. -/
structure ClosDimensions.Of (dimensions : ClosDimensions) (c : ClosShape) : Prop where
  leaves : 0 < c.leaves
  nicsPerLeaf : 0 < c.nicsPerLeaf
  gpusPerNic : 0 < c.gpusPerNic
  spines : 0 < c.spines
  gpuCount : dimensions.gpuCount = c.leaves * c.nicsPerLeaf * c.gpusPerNic
  nicCount : dimensions.nicCount = c.leaves * c.nicsPerLeaf
  leafCount : dimensions.leafCount = c.leaves
  spineCount : dimensions.spineCount = c.spines
  rackCount : dimensions.rackCount = c.leaves
  switchCount : dimensions.switchCount = c.leaves + c.spines
  linkCount : dimensions.linkCount =
    c.leaves * c.nicsPerLeaf * c.gpusPerNic + c.leaves * c.nicsPerLeaf + c.leaves * c.spines
  portCount : dimensions.portCount = 2 * dimensions.linkCount
  bounded : dimensions.portCount ≤ maxU64

theorem closDimensions_ok {config : ClosConfig} {dimensions : ClosDimensions}
    (ok : closDimensions config = .ok dimensions) :
    dimensions.Of config.shape := by
  unfold closDimensions at ok
  obtain ⟨_, gpus, ok⟩ := returned_of_bind ok
  obtain ⟨_, gpusPerNic, ok⟩ := returned_of_bind ok
  obtain ⟨_, nicsPerLeaf, ok⟩ := returned_of_bind ok
  obtain ⟨_, spines, ok⟩ := returned_of_bind ok
  -- the four checks for zero
  have gpus := requirePositive_ok gpus
  have gpusPerNic := requirePositive_ok gpusPerNic
  have nicsPerLeaf := requirePositive_ok nicsPerLeaf
  have spines := requirePositive_ok spines
  -- whole NICs and whole leaves, else it throws
  split at ok
  · cases ok
  rename_i wholeNics
  simp only [ne_eq, not_not] at wholeNics
  dsimp only at ok
  split at ok
  · cases ok
  rename_i wholeLeaves
  simp only [ne_eq, not_not] at wholeLeaves
  -- the checked counts
  obtain ⟨leafSpineLinks, isLeafSpine, ok⟩ := returned_of_bind ok
  obtain ⟨switchCount, isSwitch, ok⟩ := returned_of_bind ok
  obtain ⟨attachmentLinks, isAttachment, ok⟩ := returned_of_bind ok
  obtain ⟨linkCount, isLink, ok⟩ := returned_of_bind ok
  obtain ⟨portCount, isPort, ok⟩ := returned_of_bind ok
  cases ok
  -- what divides evenly multiplies back
  have nics : config.gpuCount / config.gpusPerNic * config.gpusPerNic = config.gpuCount :=
    Nat.div_mul_cancel (Nat.dvd_of_mod_eq_zero wholeNics)
  have leaves : config.gpuCount / config.gpusPerNic / config.nicsPerLeaf * config.nicsPerLeaf =
      config.gpuCount / config.gpusPerNic := Nat.div_mul_cancel (Nat.dvd_of_mod_eq_zero wholeLeaves)
  have positive : 0 < config.gpuCount / config.gpusPerNic / config.nicsPerLeaf := by
    by_contra none
    have isZero : config.gpuCount / config.gpusPerNic / config.nicsPerLeaf = 0 :=
      Nat.eq_zero_of_not_pos none
    rw [isZero, Nat.zero_mul] at leaves
    rw [← leaves, Nat.zero_mul] at nics
    omega
  have nicPositive : 0 < config.gpuCount / config.gpusPerNic := by
    rw [← leaves]
    exact Nat.mul_pos positive nicsPerLeaf
  obtain ⟨rfl, _⟩ := checkedMultiply_ok isLeafSpine
  obtain ⟨rfl, _⟩ := checkedAdd_ok isSwitch spines
  obtain ⟨rfl, _⟩ := checkedAdd_ok isAttachment nicPositive
  obtain ⟨rfl, _⟩ := checkedAdd_ok isLink (Nat.mul_pos positive spines)
  obtain ⟨rfl, portSmall⟩ := checkedMultiply_ok isPort
  exact {
    leaves := positive
    nicsPerLeaf, gpusPerNic, spines
    gpuCount := by simp only [ClosConfig.shape, leaves, nics]
    nicCount := leaves.symm
    leafCount := rfl
    spineCount := rfl
    rackCount := rfl
    switchCount := rfl
    linkCount := by simp only [ClosConfig.shape, leaves, nics]
    portCount := Nat.mul_comm ..
    bounded := portSmall }

/-! ## What the checks look for -/

namespace Validation

theorem allOf_iff {α : Type} {holds : α → Except Error Bool} {l : List α} :
    allOf holds l = .ok true ↔ ∀ a ∈ l, holds a = .ok true := by
  induction l with
  | nil => simp [allOf]
  | cons a l ih =>
    unfold allOf
    cases first : holds a with
    | error e => simp [first]
    | ok found =>
      cases found with
      | false => simp [first]
      | true => simp [first, ih]

theorem directlyConnected_iff {g : TopologyGraph} (canonical : g.Canonical) {u v : NodeId} :
    directlyConnected g u v = .ok true ↔ g.contains u = true ∧ ∃ i, g.outline.Joins i u v := by
  unfold directlyConnected outgoing
  by_cases known : g.contains u = true
  · rw [canonical.adjacency known, ok_bind, pure_eq_ok, Except.ok.injEq, List.any_eq_true,
      ← canonical.joined_iff, canonical.mem_targets]
    simp only [known, true_and]
    refine exists_congr fun arc => and_congr_right fun member => ?_
    obtain ⟨port, isPort⟩ := canonical.destination_port member
    simp [isPort]
  · simp [TopologyGraph.adjacency, known]

end Validation

/-- There are as many entities as the network has. -/
structure ClosCounts (c : ClosShape) (g : TopologyGraph) : Prop where
  gpuCount : g.gpus.length = c.leaves * c.nicsPerLeaf * c.gpusPerNic
  nicCount : g.nics.length = c.leaves * c.nicsPerLeaf
  rackCount : g.racks.length = c.leaves
  switchCount : g.switches.length = c.leaves + c.spines
  linkCount : g.links.length =
    c.leaves * c.nicsPerLeaf * c.gpusPerNic + c.leaves * c.nicsPerLeaf + c.leaves * c.spines

/-- What the validator finds out about a graph. -/
structure ClosShaped (c : ClosShape) (g : TopologyGraph) : Prop extends ClosCounts c g where
  spines : (Validation.switchesOf g .spine).length = c.spines
  racks : ∀ rack ∈ g.racks, ∃ leaf, rack.leafSwitches = [leaf] ∧
    rack.nics.length = c.nicsPerLeaf ∧
    (∀ id ∈ rack.nics, (∃ nic, g.findNic id = some nic ∧ nic.attachedGpus.length = c.gpusPerNic) ∧
      ∃ i, g.outline.Joins i (.ofNic id) (.ofSwitch leaf)) ∧
    ∀ spine ∈ Validation.switchesOf g .spine, ∃ i, g.outline.Joins i (.ofSwitch leaf) (.ofSwitch spine)

namespace Validation

theorem nicMatchesClos_ok {g : TopologyGraph} (canonical : g.Canonical) {config : ClosConfig}
    {leaf : SwitchId} {id : NicId} (ok : nicMatchesClos g config leaf id = .ok true) :
    (∃ nic, g.findNic id = some nic ∧ nic.attachedGpus.length = config.gpusPerNic) ∧
      ∃ i, g.outline.Joins i (.ofNic id) (.ofSwitch leaf) := by
  unfold nicMatchesClos at ok
  split at ok
  · cases ok
  · rename_i nic found
    split at ok
    · cases ok
    · rename_i size
      rw [ne_eq, not_not] at size
      exact ⟨⟨nic, found, size⟩, ((directlyConnected_iff canonical).mp ok).2⟩

theorem rackMatchesClos_ok {g : TopologyGraph} (canonical : g.Canonical) {config : ClosConfig}
    {rack : Rack} {spines : List SwitchId} (ok : rackMatchesClos g rack config spines = .ok true) :
    ∃ leaf, rack.leafSwitches = [leaf] ∧ rack.nics.length = config.nicsPerLeaf ∧
      (∀ id ∈ rack.nics,
        (∃ nic, g.findNic id = some nic ∧ nic.attachedGpus.length = config.gpusPerNic) ∧
        ∃ i, g.outline.Joins i (.ofNic id) (.ofSwitch leaf)) ∧
      ∀ spine ∈ spines, ∃ i, g.outline.Joins i (.ofSwitch leaf) (.ofSwitch spine) := by
  unfold rackMatchesClos at ok
  split at ok
  · rename_i leaf isLeaf
    by_cases sizes : rack.nics.length ≠ config.nicsPerLeaf ∨
        rack.gpus.length ≠ U64.mul config.nicsPerLeaf config.gpusPerNic
    · rw [if_pos sizes] at ok
      cases ok
    rw [if_neg sizes] at ok
    simp only [not_or, ne_eq, not_not] at sizes
    split at ok
    · cases ok
    split at ok
    · cases ok
    obtain ⟨nics, isNics, ok⟩ := returned_of_bind ok
    split at ok
    · rename_i all
      subst all
      refine ⟨leaf, isLeaf, sizes.1, ?_, ?_⟩
      · intro id member
        exact nicMatchesClos_ok canonical (allOf_iff.mp isNics id member)
      · intro spine member
        exact ((directlyConnected_iff canonical).mp (allOf_iff.mp ok spine member)).2
    · cases ok
  · cases ok

theorem closShaped_of_matches {g : TopologyGraph} (canonical : g.Canonical) {config : ClosConfig}
    {dimensions : ClosDimensions} (of : dimensions.Of config.shape)
    (ok : matchesClosShape g config dimensions = .ok true) : ClosShaped config.shape g := by
  unfold matchesClosShape at ok
  split at ok
  · cases ok
  rename_i counts
  simp only [not_or, ne_eq, not_not] at counts
  obtain ⟨gpus, nics, racks, switches, _, links⟩ := counts
  dsimp only at ok
  split at ok
  · cases ok
  rename_i roles
  simp only [not_or, ne_eq, not_not] at roles
  split at ok
  · cases ok
  exact {
    gpuCount := gpus.trans of.gpuCount
    nicCount := nics.trans of.nicCount
    rackCount := racks.trans of.rackCount
    switchCount := switches.trans of.switchCount
    linkCount := links.trans of.linkCount
    spines := roles.2.trans of.spineCount
    racks := fun rack member => rackMatchesClos_ok canonical (allOf_iff.mp ok rack member) }

end Validation

/-! ## A frame for what was accepted -/

/-- A list without repetitions, by position. -/
theorem exists_listing {α : Type} {l : List α} {n : Nat} (nodup : l.Nodup) (length : l.length = n) :
    ∃ f : Fin n → α, Function.Injective f ∧ ∀ i, f i ∈ l := by
  subst length
  exact ⟨l.get, List.nodup_iff_injective_get.mp nodup, fun i => List.get_mem l i⟩

/-- What stands at the coordinates of a Clos, before its links are looked at. -/
structure ClosPlaces (c : ClosShape) (g : TopologyGraph) where
  leafOf : Fin c.leaves → SwitchId
  nicOf : Fin c.leaves → Fin c.nicsPerLeaf → NicId
  gpuOf : Fin c.leaves → Fin c.nicsPerLeaf → Fin c.gpusPerNic → GpuId
  spineOf : Fin c.spines → SwitchId
  nic_injective : ∀ l, Function.Injective (nicOf l)
  gpu_injective : ∀ l n, Function.Injective (gpuOf l n)
  spine_injective : Function.Injective spineOf
  leaf : ∀ l, g.outline.switches[(leafOf l).value]? = some (.leaf, some ⟨l⟩)
  nic : ∀ l n, g.outline.nics[(nicOf l n).value]? = some ⟨l⟩
  gpu : ∀ l n k, g.outline.gpus[(gpuOf l n k).value]? = some (⟨l⟩, nicOf l n)
  spine : ∀ s, g.outline.switches[(spineOf s).value]? = some (.spine, none)
  uplink : ∀ l n, ∃ i, g.outline.Joins i (.ofNic (nicOf l n)) (.ofSwitch (leafOf l))
  trunk : ∀ l s, ∃ i, g.outline.Joins i (.ofSwitch (leafOf l)) (.ofSwitch (spineOf s))

section Accepted

variable {c : ClosShape} {g : TopologyGraph}

theorem outline_nic (canonical : g.Canonical) {id : NicId} {rack : RackId}
    (member : id ∈ g.nicsOfRack rack) : g.outline.nics[id.value]? = some rack := by
  obtain ⟨nic, isNic, rfl, rfl⟩ := mem_listed.mp member
  simp [outline, canonical.aligned.nics.mem isNic]

theorem outline_gpu (canonical : g.Canonical) {id : GpuId} {nic : NicId} {rack : RackId}
    (stands : g.outline.nics[nic.value]? = some rack) (member : id ∈ g.gpusOfNic nic) :
    g.outline.gpus[id.value]? = some (rack, nic) := by
  obtain ⟨gpu, isGpu, rfl, rfl⟩ := mem_listed.mp member
  obtain ⟨⟨nic, found, same⟩, _⟩ := canonical.gpus gpu isGpu
  have isRack : gpu.rack = rack := by
    rw [same]
    simpa [outline, found] using stands
  simp [outline, canonical.aligned.gpus.mem isGpu, isRack]

theorem outline_leaf (canonical : g.Canonical) {id : SwitchId} {rack : RackId}
    (member : id ∈ g.leavesOfRack rack) :
    g.outline.switches[id.value]? = some (.leaf, some rack) := by
  obtain ⟨s, isSwitch, isRack, rfl⟩ := mem_listed.mp member
  have role : s.role = .leaf := by
    rcases (canonical.switches s isSwitch).2 with ⟨role, _⟩ | ⟨_, none⟩
    · exact role
    · rw [none] at isRack
      cases isRack
  simp [outline, canonical.aligned.switches.mem isSwitch, role, isRack]

theorem outline_spine (canonical : g.Canonical) {id : SwitchId}
    (member : id ∈ Validation.switchesOf g .spine) :
    g.outline.switches[id.value]? = some (.spine, none) := by
  obtain ⟨s, isSwitch, rfl⟩ := List.mem_map.mp member
  obtain ⟨isSwitch, role⟩ := List.mem_filter.mp isSwitch
  have role : s.role = .spine := by simpa using role
  have isRack : s.rack = none := by
    rcases (canonical.switches s isSwitch).2 with ⟨other, _⟩ | ⟨_, none⟩
    · rw [role] at other
      cases other
    · exact none
  simp [outline, canonical.aligned.switches.mem isSwitch, role, isRack]

theorem nodup_switchesOf (canonical : g.Canonical) (role : SwitchRole) :
    (Validation.switchesOf g role).Nodup :=
  canonical.aligned.switches.nodup.sublist (List.filter_sublist.map _)

theorem ClosShaped.places (canonical : g.Canonical) (shaped : ClosShaped c g) :
    Nonempty (ClosPlaces c g) := by
  have racks : ∀ l : Fin c.leaves, ∃ rack ∈ g.racks, rack.id = ⟨l⟩ := by
    intro l
    have small : l.1 < g.racks.length := by
      rw [shaped.rackCount]
      exact l.2
    exact ⟨g.racks[l.1], List.getElem_mem small,
      StrongId.value_injective (canonical.aligned.racks _ _ (List.getElem?_eq_getElem small))⟩
  choose rackAt isRack rackId using racks
  choose leafOf isLeaf nicsLength nics spines using fun l => shaped.racks (rackAt l) (isRack l)
  have nicList : ∀ l, (rackAt l).nics = g.nicsOfRack ⟨l⟩ := by
    intro l
    rw [← rackId l]
    exact (canonical.racks _ (isRack l)).2.1
  choose nicOf nicInjective isNic using fun l =>
    exists_listing (α := NicId) (canonical.aligned.nics.listed_nodup)
      ((congrArg List.length (nicList l)).symm.trans (nicsLength l))
  have gpuList : ∀ l n, (g.gpusOfNic (nicOf l n)).length = c.gpusPerNic := by
    intro l n
    obtain ⟨⟨nic, found, size⟩, _⟩ := nics l (nicOf l n) (nicList l ▸ isNic l n)
    obtain ⟨here, isId⟩ := findDense_eq_some.mp found
    have attached := (canonical.nics nic (List.mem_of_getElem? here)).2.1
    rw [isId] at attached
    rw [← attached, size]
  choose gpuOf gpuInjective isGpu using fun l n =>
    exists_listing (α := GpuId) (canonical.aligned.gpus.listed_nodup) (gpuList l n)
  obtain ⟨spineOf, spineInjective, isSpine⟩ :=
    exists_listing (nodup_switchesOf canonical .spine) shaped.spines
  have leafMember : ∀ l : Fin c.leaves, leafOf l ∈ g.leavesOfRack ⟨l⟩ := by
    intro l
    have same := (canonical.racks _ (isRack l)).2.2
    rw [isLeaf l, rackId l] at same
    rw [← same]
    exact List.mem_singleton.mpr rfl
  exact ⟨{
    leafOf, nicOf, gpuOf, spineOf
    nic_injective := nicInjective
    gpu_injective := gpuInjective
    spine_injective := spineInjective
    leaf := fun l => outline_leaf canonical (leafMember l)
    nic := fun l n => outline_nic canonical (isNic l n)
    gpu := fun l n k => outline_gpu canonical (outline_nic canonical (isNic l n)) (isGpu l n k)
    spine := fun s => outline_spine canonical (isSpine s)
    uplink := fun l n => (nics l (nicOf l n) (nicList l ▸ isNic l n)).2
    trunk := fun l s => spines l (spineOf s) (isSpine s) }⟩

namespace ClosPlaces

variable (places : ClosPlaces c g)

def node : ClosNode c → NodeId
  | .gpu l n k => .ofGpu (places.gpuOf l n k)
  | .nic l n => .ofNic (places.nicOf l n)
  | .leaf l => .ofSwitch (places.leafOf l)
  | .spine s => .ofSwitch (places.spineOf s)

theorem nic_eq {l l' : Fin c.leaves} {n n' : Fin c.nicsPerLeaf}
    (same : places.nicOf l n = places.nicOf l' n') : l = l' ∧ n = n' := by
  have home := places.nic l n
  rw [same, places.nic l' n'] at home
  have leaf : l = l' := by
    apply Fin.ext
    simpa using home.symm
  subst leaf
  exact ⟨rfl, places.nic_injective l same⟩

theorem node_injective : Function.Injective places.node := by
  intro x y same
  cases x with
  | gpu l n k =>
    cases y with
    | gpu l' n' k' =>
      have sameGpu := NodeId.ofGpu_inj.mp same
      have home := places.gpu l n k
      rw [sameGpu, places.gpu l' n' k'] at home
      simp only [Option.some.injEq, Prod.mk.injEq] at home
      obtain ⟨rfl, rfl⟩ := places.nic_eq home.2.symm
      rw [places.gpu_injective l n sameGpu]
    | nic _ _ => cases same
    | leaf _ => cases same
    | spine _ => cases same
  | nic l n =>
    cases y with
    | nic l' n' =>
      obtain ⟨rfl, rfl⟩ := places.nic_eq (NodeId.ofNic_inj.mp same)
      rfl
    | gpu _ _ _ => cases same
    | leaf _ => cases same
    | spine _ => cases same
  | leaf l =>
    cases y with
    | leaf l' =>
      have home := places.leaf l
      rw [NodeId.ofSwitch_inj.mp same, places.leaf l'] at home
      have leaf : l = l' := by
        apply Fin.ext
        simpa using home.symm
      rw [leaf]
    | spine s =>
      have home := places.leaf l
      rw [NodeId.ofSwitch_inj.mp same, places.spine s] at home
      cases home
    | gpu _ _ _ => cases same
    | nic _ _ => cases same
  | spine s =>
    cases y with
    | spine s' => rw [places.spine_injective (NodeId.ofSwitch_inj.mp same)]
    | leaf l =>
      have home := places.leaf l
      rw [← NodeId.ofSwitch_inj.mp same, places.spine s] at home
      cases home
    | gpu _ _ _ => cases same
    | nic _ _ => cases same

theorem contains_node (canonical : g.Canonical) (x : ClosNode c) :
    places.node x ∈ g.nodes := by
  refine canonical.mem_nodes.mpr ?_
  rw [← count_outline]
  cases x with
  | gpu l n k => exact (List.getElem?_eq_some_iff.mp (places.gpu l n k)).1
  | nic l n => exact (List.getElem?_eq_some_iff.mp (places.nic l n)).1
  | leaf l => exact (List.getElem?_eq_some_iff.mp (places.leaf l)).1
  | spine s => exact (List.getElem?_eq_some_iff.mp (places.spine s)).1

/-- Every link of the network is there. -/
theorem linked (attached : g.outline.Attached) (e : ClosLink c) :
    ∃ i, g.outline.Joins i (places.node e.lower) (places.node e.upper) := by
  cases e with
  | attachment l n k => exact attached _ _ _ (places.gpu l n k)
  | uplink l n => exact places.uplink l n
  | trunk l s => exact places.trunk l s

/-- The places and the counts leave no room for another node or another link. -/
theorem frame {g : TopologyGraph} (places : ClosPlaces c g) (canonical : g.Canonical)
    (attached : g.outline.Attached) (counts : ClosCounts c g) : Nonempty (ClosFrame c g.outline) := by
  choose link joins using places.linked attached
  -- two places of one link would have the same ends
  have link_injective : Function.Injective link := by
    intro e e' same
    have unique := (joins e).unique (same ▸ joins e')
    refine ClosLink.Between.unique (x := e.lower) (y := e.upper) (.inl ⟨rfl, rfl⟩) ?_
    rcases unique with ⟨lower, upper⟩ | ⟨lower, upper⟩
    · exact .inl ⟨(places.node_injective lower).symm, (places.node_injective upper).symm⟩
    · exact .inr ⟨(places.node_injective upper).symm, (places.node_injective lower).symm⟩
  -- as many nodes as places, so the places take up all nodes
  have nodes : Finset.univ.image places.node = g.nodes.toFinset := by
    refine Finset.eq_of_subset_of_card_le ?_ ?_
    · intro n member
      obtain ⟨x, _, rfl⟩ := Finset.mem_image.mp member
      exact List.mem_toFinset.mpr (places.contains_node canonical x)
    · rw [Finset.card_image_of_injective _ places.node_injective, Finset.card_univ, card_closNode,
        List.toFinset_card_of_nodup canonical.nodup_nodes, length_nodes, counts.gpuCount,
        counts.nicCount, counts.switchCount]
  -- and likewise for the links
  have links : Finset.univ.image link = Finset.range g.links.length := by
    refine Finset.eq_of_subset_of_card_le ?_ ?_
    · intro i member
      obtain ⟨e, _, rfl⟩ := Finset.mem_image.mp member
      exact Finset.mem_range.mpr (canonical.joins_lt (joins e))
    · rw [Finset.card_image_of_injective _ link_injective, Finset.card_univ, card_closLink,
        Finset.card_range, counts.linkCount]
  exact ⟨{
    node := places.node
    link
    node_injective := places.node_injective
    node_onto := by
      intro n contained
      have member : n ∈ Finset.univ.image places.node := by
        rw [nodes, List.mem_toFinset]
        exact canonical.mem_nodes.mpr (canonical.contains.mp
          (canonical.contains_outline.mpr contained))
      obtain ⟨x, _, here⟩ := Finset.mem_image.mp member
      exact ⟨x, here⟩
    link_injective
    link_onto := by
      intro i small
      have pairs := canonical.pairs_outline
      have member : i ∈ Finset.univ.image link := by
        rw [links, Finset.mem_range]
        omega
      obtain ⟨e, _, here⟩ := Finset.mem_image.mp member
      exact ⟨e, here⟩
    joins
    racks := counts.rackCount
    gpu := fun l n k => ⟨_, _, rfl, rfl, places.gpu l n k⟩
    nic := fun l n => ⟨_, rfl, places.nic l n⟩
    leaf := fun l => ⟨_, rfl, places.leaf l⟩
    spine := fun s => ⟨_, rfl, places.spine s⟩ }⟩

end ClosPlaces

theorem ClosShaped.frame (built : g.Built) (shaped : ClosShaped c g) :
    Nonempty (ClosFrame c g.outline) := by
  obtain ⟨places⟩ := shaped.places built.canonical
  exact places.frame built.canonical built.attached shaped.toClosCounts

end Accepted

/-! ## What a graph over the network passes -/

theorem length_of_image {ι α : Type} [Fintype ι] [DecidableEq α] {l : List α} {f : ι → α}
    (nodup : l.Nodup) (injective : Function.Injective f) (iff : ∀ a, a ∈ l ↔ ∃ i, f i = a) :
    l.length = Fintype.card ι := by
  have same : l.toFinset = Finset.univ.image f := by
    ext a
    simp [iff]
  rw [← List.toFinset_card_of_nodup nodup, same, Finset.card_image_of_injective _ injective,
    Finset.card_univ]

theorem eq_singleton_of_mem {α : Type} {l : List α} {a : α} (nodup : l.Nodup)
    (iff : ∀ b, b ∈ l ↔ b = a) : l = [a] := by
  cases l with
  | nil => exact absurd ((iff a).mpr rfl) List.not_mem_nil
  | cons b l =>
    obtain rfl := (iff b).mp (List.mem_cons_self ..)
    have empty : l = [] := by
      rw [List.eq_nil_iff_forall_not_mem]
      intro other member
      obtain rfl := (iff other).mp (List.mem_cons_of_mem _ member)
      exact (List.nodup_cons.mp nodup).1 member
    rw [empty]

theorem mem_switchesOf {g : TopologyGraph} {id : SwitchId} {role : SwitchRole} :
    id ∈ Validation.switchesOf g role ↔ ∃ s ∈ g.switches, s.role = role ∧ s.id = id := by
  simp [Validation.switchesOf, and_assoc]

namespace ClosFrame

variable {c : ClosShape} {g : TopologyGraph} (frame : ClosFrame c g.outline)

include frame

theorem gpu_inj {l l' : Fin c.leaves} {n n' : Fin c.nicsPerLeaf} {k k' : Fin c.gpusPerNic}
    (same : frame.node (.gpu l n k) = frame.node (.gpu l' n' k')) : l = l' ∧ n = n' ∧ k = k' := by
  have nodes := frame.node_injective same
  cases nodes
  exact ⟨rfl, rfl, rfl⟩

theorem nic_inj {l l' : Fin c.leaves} {n n' : Fin c.nicsPerLeaf}
    (same : frame.node (.nic l n) = frame.node (.nic l' n')) : l = l' ∧ n = n' := by
  have nodes := frame.node_injective same
  cases nodes
  exact ⟨rfl, rfl⟩

/-! The lengths of the lists that the validator compares. -/

theorem length_gpus (canonical : g.Canonical) :
    g.gpus.length = c.leaves * c.nicsPerLeaf * c.gpusPerNic := by
  have nodup : (g.gpus.map fun x => NodeId.ofGpu x.id).Nodup := by
    have ids := canonical.aligned.gpus.nodup.map (f := NodeId.ofGpu) fun _ _ => NodeId.ofGpu_inj.mp
    rwa [List.map_map] at ids
  have counted := length_of_image
    (f := fun at_ : Fin c.leaves × Fin c.nicsPerLeaf × Fin c.gpusPerNic =>
      frame.node (.gpu at_.1 at_.2.1 at_.2.2)) nodup
    (by
      rintro ⟨l, n, k⟩ ⟨l', n', k'⟩ same
      obtain ⟨rfl, rfl, rfl⟩ := frame.gpu_inj same
      rfl)
    (by
      intro node
      constructor
      · intro member
        obtain ⟨x, isX, rfl⟩ := List.mem_map.mp member
        obtain ⟨l, n, k, here, _⟩ := frame.gpu_coordinates canonical isX
        exact ⟨(l, n, k), here.symm⟩
      · rintro ⟨⟨l, n, k⟩, rfl⟩
        obtain ⟨x, isX, here, _⟩ := frame.gpu_at canonical l n k
        exact List.mem_map.mpr ⟨x, isX, here⟩)
  simpa [Nat.mul_assoc] using counted

theorem length_nics (canonical : g.Canonical) : g.nics.length = c.leaves * c.nicsPerLeaf := by
  have nodup : (g.nics.map fun x => NodeId.ofNic x.id).Nodup := by
    have ids := canonical.aligned.nics.nodup.map (f := NodeId.ofNic) fun _ _ => NodeId.ofNic_inj.mp
    rwa [List.map_map] at ids
  have counted := length_of_image
    (f := fun at_ : Fin c.leaves × Fin c.nicsPerLeaf => frame.node (.nic at_.1 at_.2)) nodup
    (by
      rintro ⟨l, n⟩ ⟨l', n'⟩ same
      obtain ⟨rfl, rfl⟩ := frame.nic_inj same
      rfl)
    (by
      intro node
      constructor
      · intro member
        obtain ⟨x, isX, rfl⟩ := List.mem_map.mp member
        obtain ⟨l, n, here, _⟩ := frame.nic_coordinates canonical isX
        exact ⟨(l, n), here.symm⟩
      · rintro ⟨⟨l, n⟩, rfl⟩
        obtain ⟨x, isX, here, _⟩ := frame.nic_at canonical l n
        exact List.mem_map.mpr ⟨x, isX, here⟩)
  simpa using counted

theorem mem_spines (canonical : g.Canonical) {id : SwitchId} :
    id ∈ Validation.switchesOf g .spine ↔ ∃ s, frame.node (.spine s) = .ofSwitch id := by
  rw [mem_switchesOf]
  constructor
  · rintro ⟨x, isX, role, rfl⟩
    rcases frame.switch_coordinates canonical isX with ⟨_, _, other, _⟩ | ⟨s, here, _⟩
    · rw [role] at other
      cases other
    · exact ⟨s, here.symm⟩
  · rintro ⟨s, here⟩
    obtain ⟨x, isX, isNode, role, _⟩ := frame.spine_at canonical s
    exact ⟨x, isX, role, NodeId.ofSwitch_inj.mp (isNode.trans here)⟩

theorem mem_leaves (canonical : g.Canonical) {id : SwitchId} :
    id ∈ Validation.switchesOf g .leaf ↔ ∃ l, frame.node (.leaf l) = .ofSwitch id := by
  rw [mem_switchesOf]
  constructor
  · rintro ⟨x, isX, role, rfl⟩
    rcases frame.switch_coordinates canonical isX with ⟨l, here, _⟩ | ⟨_, _, other, _⟩
    · exact ⟨l, here.symm⟩
    · rw [role] at other
      cases other
  · rintro ⟨l, here⟩
    obtain ⟨x, isX, isNode, role, _⟩ := frame.leaf_at canonical l
    exact ⟨x, isX, role, NodeId.ofSwitch_inj.mp (isNode.trans here)⟩

theorem length_spines (canonical : g.Canonical) :
    (Validation.switchesOf g .spine).length = c.spines := by
  have counted := length_of_image (f := fun s : Fin c.spines => frame.node (.spine s))
    ((nodup_switchesOf canonical .spine).map (f := NodeId.ofSwitch) fun _ _ => NodeId.ofSwitch_inj.mp)
    (by
      intro s s' same
      have nodes := frame.node_injective same
      cases nodes
      rfl)
    (by
      intro node
      constructor
      · intro member
        obtain ⟨id, isSpine, rfl⟩ := List.mem_map.mp member
        exact (frame.mem_spines canonical).mp isSpine
      · rintro ⟨s, rfl⟩
        obtain ⟨x, _, here, _⟩ := frame.spine_at canonical s
        exact List.mem_map.mpr ⟨x.id, (frame.mem_spines canonical).mpr ⟨s, here.symm⟩, here⟩)
  simpa using counted

theorem length_leaves (canonical : g.Canonical) :
    (Validation.switchesOf g .leaf).length = c.leaves := by
  have counted := length_of_image (f := fun l : Fin c.leaves => frame.node (.leaf l))
    ((nodup_switchesOf canonical .leaf).map (f := NodeId.ofSwitch) fun _ _ => NodeId.ofSwitch_inj.mp)
    (by
      intro l l' same
      have nodes := frame.node_injective same
      cases nodes
      rfl)
    (by
      intro node
      constructor
      · intro member
        obtain ⟨id, isLeaf, rfl⟩ := List.mem_map.mp member
        exact (frame.mem_leaves canonical).mp isLeaf
      · rintro ⟨l, rfl⟩
        obtain ⟨x, _, here, _⟩ := frame.leaf_at canonical l
        exact List.mem_map.mpr ⟨x.id, (frame.mem_leaves canonical).mpr ⟨l, here.symm⟩, here⟩)
  simpa using counted

theorem length_switches (canonical : g.Canonical) : g.switches.length = c.leaves + c.spines := by
  have all := length_of_image (f := frame.node) canonical.nodup_nodes frame.node_injective (by
    intro n
    constructor
    · exact frame.coordinates canonical
    · rintro ⟨x, rfl⟩
      exact canonical.mem_nodes.mpr (canonical.contains.mp
        (canonical.contains_outline.mpr (frame.contains x))))
  rw [length_nodes, card_closNode, frame.length_gpus canonical, frame.length_nics canonical] at all
  omega

theorem length_links (canonical : g.Canonical) : g.links.length =
    c.leaves * c.nicsPerLeaf * c.gpusPerNic + c.leaves * c.nicsPerLeaf + c.leaves * c.spines := by
  have counted := length_of_image (f := fun e => (⟨frame.link e⟩ : LinkId))
    canonical.aligned.links.nodup
    (by
      intro e e' same
      exact frame.link_injective (congrArg StrongId.value same))
    (by
      intro id
      constructor
      · intro member
        obtain ⟨x, isX, rfl⟩ := List.mem_map.mp member
        obtain ⟨e, here, _⟩ := frame.link_coordinates canonical isX
        exact ⟨e, here.symm⟩
      · rintro ⟨e, rfl⟩
        obtain ⟨x, isX, here, _⟩ := frame.link_at canonical e
        exact List.mem_map.mpr ⟨x, isX, here⟩)
  rw [List.length_map] at counted
  rw [counted, card_closLink]

/-! The lists of one rack, one NIC and one switch. -/

theorem length_nicsOfRack (canonical : g.Canonical) (l : Fin c.leaves) :
    (g.nicsOfRack ⟨l⟩).length = c.nicsPerLeaf := by
  have nodup : (g.nicsOfRack ⟨l⟩).Nodup := canonical.aligned.nics.listed_nodup
  have counted := length_of_image (f := fun n : Fin c.nicsPerLeaf => frame.node (.nic l n))
    (nodup.map (f := NodeId.ofNic) fun _ _ => NodeId.ofNic_inj.mp)
    (by
      intro n n' same
      exact (frame.nic_inj same).2)
    (by
      intro node
      constructor
      · intro member
        obtain ⟨id, isNic, rfl⟩ := List.mem_map.mp member
        obtain ⟨x, isX, home, rfl⟩ := mem_listed.mp isNic
        obtain ⟨l', n, here, rack⟩ := frame.nic_coordinates canonical isX
        have same : l' = l := Fin.ext (congrArg StrongId.value (rack.symm.trans home))
        exact ⟨n, by rw [← same, here]⟩
      · rintro ⟨n, rfl⟩
        obtain ⟨x, isX, here, rack⟩ := frame.nic_at canonical l n
        exact List.mem_map.mpr ⟨x.id, mem_listed.mpr ⟨x, isX, rack, rfl⟩, here⟩)
  rw [List.length_map, Fintype.card_fin] at counted
  exact counted

theorem length_gpusOfRack (canonical : g.Canonical) (l : Fin c.leaves) :
    (g.gpusOfRack ⟨l⟩).length = c.nicsPerLeaf * c.gpusPerNic := by
  have nodup : (g.gpusOfRack ⟨l⟩).Nodup := canonical.aligned.gpus.listed_nodup
  have counted := length_of_image
    (f := fun at_ : Fin c.nicsPerLeaf × Fin c.gpusPerNic => frame.node (.gpu l at_.1 at_.2))
    (nodup.map (f := NodeId.ofGpu) fun _ _ => NodeId.ofGpu_inj.mp)
    (by
      rintro ⟨n, k⟩ ⟨n', k'⟩ same
      obtain ⟨_, rfl, rfl⟩ := frame.gpu_inj same
      rfl)
    (by
      intro node
      constructor
      · intro member
        obtain ⟨id, isGpu, rfl⟩ := List.mem_map.mp member
        obtain ⟨x, isX, home, rfl⟩ := mem_listed.mp isGpu
        obtain ⟨l', n, k, here, rack, _⟩ := frame.gpu_coordinates canonical isX
        have same : l' = l := Fin.ext (congrArg StrongId.value (rack.symm.trans home))
        exact ⟨(n, k), by rw [← same, here]⟩
      · rintro ⟨⟨n, k⟩, rfl⟩
        obtain ⟨x, isX, here, rack, _⟩ := frame.gpu_at canonical l n k
        exact List.mem_map.mpr ⟨x.id, mem_listed.mpr ⟨x, isX, rack, rfl⟩, here⟩)
  rw [List.length_map, Fintype.card_prod, Fintype.card_fin, Fintype.card_fin] at counted
  exact counted

theorem length_gpusOfNic (canonical : g.Canonical) {id : NicId} {l : Fin c.leaves}
    {n : Fin c.nicsPerLeaf} (isNic : .ofNic id = frame.node (.nic l n)) :
    (g.gpusOfNic id).length = c.gpusPerNic := by
  have nodup : (g.gpusOfNic id).Nodup := canonical.aligned.gpus.listed_nodup
  have counted := length_of_image (f := fun k : Fin c.gpusPerNic => frame.node (.gpu l n k))
    (nodup.map (f := NodeId.ofGpu) fun _ _ => NodeId.ofGpu_inj.mp)
    (by
      intro k k' same
      exact (frame.gpu_inj same).2.2)
    (by
      intro node
      constructor
      · intro member
        obtain ⟨gpu, isGpu, rfl⟩ := List.mem_map.mp member
        obtain ⟨x, isX, home, rfl⟩ := mem_listed.mp isGpu
        obtain ⟨l', n', k, here, _, nic, _⟩ := frame.gpu_coordinates canonical isX
        rw [home, isNic] at nic
        obtain ⟨rfl, rfl⟩ := frame.nic_inj nic
        exact ⟨k, here.symm⟩
      · rintro ⟨k, rfl⟩
        obtain ⟨x, isX, here, _, nic, _⟩ := frame.gpu_at canonical l n k
        have home : x.attachedNic = id := NodeId.ofNic_inj.mp (nic.trans isNic.symm)
        exact List.mem_map.mpr ⟨x.id, mem_listed.mpr ⟨x, isX, home, rfl⟩, here⟩)
  rw [List.length_map, Fintype.card_fin] at counted
  exact counted

theorem leavesOfRack_eq (canonical : g.Canonical) {id : SwitchId} {l : Fin c.leaves}
    (isLeaf : .ofSwitch id = frame.node (.leaf l)) : g.leavesOfRack ⟨l⟩ = [id] := by
  refine eq_singleton_of_mem canonical.aligned.switches.listed_nodup fun other => ?_
  constructor
  · intro member
    obtain ⟨x, isX, home, rfl⟩ := mem_listed.mp member
    rcases frame.switch_coordinates canonical isX with ⟨l', here, _, rack⟩ | ⟨_, _, _, none⟩
    · rw [rack] at home
      have same : l' = l := Fin.ext (congrArg StrongId.value (Option.some.inj home))
      rw [same, ← isLeaf] at here
      exact NodeId.ofSwitch_inj.mp here
    · rw [none] at home
      cases home
  · rintro rfl
    obtain ⟨x, isX, here, _, rack⟩ := frame.leaf_at canonical l
    exact mem_listed.mpr ⟨x, isX, rack, NodeId.ofSwitch_inj.mp (here.trans isLeaf.symm)⟩

theorem length_ports_leaf (canonical : g.Canonical) (l : Fin c.leaves) :
    (g.portsOwned (frame.node (.leaf l))).length = c.nicsPerLeaf + c.spines := by
  have nodup : (g.portsOwned (frame.node (.leaf l))).Nodup := canonical.aligned.ports.listed_nodup
  have counted := length_of_image
    (f := fun at_ : Fin c.nicsPerLeaf ⊕ Fin c.spines => (match at_ with
      | .inl n => ⟨frame.place (.uplink l n) true⟩
      | .inr s => ⟨frame.place (.trunk l s) false⟩ : PortId))
    nodup
    (by
      rintro (n | s) (n' | s') same
      · obtain ⟨link, _⟩ := frame.place_injective (congrArg StrongId.value same)
        cases link
        rfl
      · obtain ⟨link, _⟩ := frame.place_injective (congrArg StrongId.value same)
        cases link
      · obtain ⟨link, _⟩ := frame.place_injective (congrArg StrongId.value same)
        cases link
      · obtain ⟨link, _⟩ := frame.place_injective (congrArg StrongId.value same)
        cases link
        rfl)
    (by
      intro id
      constructor
      · intro member
        obtain ⟨x, isX, home, rfl⟩ := mem_listed.mp member
        obtain ⟨e, side, here, owner⟩ := frame.port_coordinates canonical isX
        have atEnd := frame.node_injective (owner.symm.trans home)
        cases e <;> cases side <;> cases atEnd
        · exact ⟨.inl _, here.symm⟩
        · exact ⟨.inr _, here.symm⟩
      · rintro ⟨n | s, rfl⟩
        · obtain ⟨x, isX, here, owner⟩ := frame.port_at canonical (.uplink l n) true
          exact mem_listed.mpr ⟨x, isX, owner, here⟩
        · obtain ⟨x, isX, here, owner⟩ := frame.port_at canonical (.trunk l s) false
          exact mem_listed.mpr ⟨x, isX, owner, here⟩)
  rw [Fintype.card_sum, Fintype.card_fin, Fintype.card_fin] at counted
  exact counted

theorem length_ports_spine (canonical : g.Canonical) (s : Fin c.spines) :
    (g.portsOwned (frame.node (.spine s))).length = c.leaves := by
  have nodup : (g.portsOwned (frame.node (.spine s))).Nodup := canonical.aligned.ports.listed_nodup
  have counted := length_of_image
    (f := fun l : Fin c.leaves => (⟨frame.place (.trunk l s) true⟩ : PortId)) nodup
    (by
      intro l l' same
      obtain ⟨link, _⟩ := frame.place_injective (congrArg StrongId.value same)
      cases link
      rfl)
    (by
      intro id
      constructor
      · intro member
        obtain ⟨x, isX, home, rfl⟩ := mem_listed.mp member
        obtain ⟨e, side, here, owner⟩ := frame.port_coordinates canonical isX
        have atEnd := frame.node_injective (owner.symm.trans home)
        cases e <;> cases side <;> cases atEnd
        exact ⟨_, here.symm⟩
      · rintro ⟨l, rfl⟩
        obtain ⟨x, isX, here, owner⟩ := frame.port_at canonical (.trunk l s) true
        exact mem_listed.mpr ⟨x, isX, owner, here⟩)
  rw [Fintype.card_fin] at counted
  exact counted

end ClosFrame

/-! ## The checks over a frame -/

namespace Validation

variable {config : ClosConfig} {dimensions : ClosDimensions} {g : TopologyGraph}

theorem connected_of_between (canonical : g.Canonical) {c : ClosShape}
    (frame : ClosFrame c g.outline) {x y : ClosNode c} {e : ClosLink c} (between : e.Between x y) :
    directlyConnected g (frame.node x) (frame.node y) = .ok true :=
  (directlyConnected_iff canonical).mpr ⟨canonical.contains_outline.mpr (frame.contains x),
    frame.link e, frame.joins_iff.mpr ⟨e, rfl, between⟩⟩

theorem nicMatchesClos_of_frame (canonical : g.Canonical) (frame : ClosFrame config.shape g.outline)
    {leaf : SwitchId} {l : Fin config.shape.leaves} (isLeaf : .ofSwitch leaf = frame.node (.leaf l))
    {id : NicId} (member : id ∈ g.nicsOfRack ⟨l⟩) : nicMatchesClos g config leaf id = .ok true := by
  obtain ⟨nic, isNic, home, rfl⟩ := mem_listed.mp member
  obtain ⟨l', n, here, rack⟩ := frame.nic_coordinates canonical isNic
  have same : l' = l := Fin.ext (congrArg StrongId.value (rack.symm.trans home))
  subst same
  have found : g.findNic nic.id = some nic :=
    findDense_eq_some.mpr ⟨canonical.aligned.nics.mem isNic, rfl⟩
  have attached : nic.attachedGpus.length = config.gpusPerNic := by
    rw [(canonical.nics nic isNic).2.1]
    exact frame.length_gpusOfNic canonical here
  simp only [nicMatchesClos, found, attached, ne_eq, not_true_eq_false, if_false, here, isLeaf]
  exact connected_of_between canonical frame (e := .uplink l' n) (.inl ⟨rfl, rfl⟩)

theorem rackMatchesClos_of_frame (canonical : g.Canonical) (of : dimensions.Of config.shape)
    (frame : ClosFrame config.shape g.outline) {rack : Rack} (member : rack ∈ g.racks) :
    rackMatchesClos g rack config (switchesOf g .spine) = .ok true := by
  have small : rack.id.value < config.shape.leaves := by
    rw [← frame.racks]
    exact (List.getElem?_eq_some_iff.mp (canonical.aligned.racks.mem member)).1
  obtain ⟨l, isRack⟩ : ∃ l : Fin config.shape.leaves, rack.id = ⟨l⟩ := ⟨⟨_, small⟩, rfl⟩
  obtain ⟨gpus, nics, leaves⟩ := canonical.racks rack member
  rw [isRack] at gpus nics leaves
  obtain ⟨leaf, isSwitch, isLeaf, _⟩ := frame.leaf_at canonical l
  rw [frame.leavesOfRack_eq canonical isLeaf] at leaves
  have gpuCount : rack.gpus.length = config.nicsPerLeaf * config.gpusPerNic := by
    rw [gpus]
    exact frame.length_gpusOfRack canonical l
  have nicCount : rack.nics.length = config.nicsPerLeaf := by
    rw [nics]
    exact frame.length_nicsOfRack canonical l
  have found : g.findSwitch leaf.id = some leaf :=
    findDense_eq_some.mpr ⟨canonical.aligned.switches.mem isSwitch, rfl⟩
  have portCount : leaf.ports.length = config.nicsPerLeaf + config.spineCount := by
    rw [(canonical.switches leaf isSwitch).1, isLeaf]
    exact frame.length_ports_leaf canonical l
  -- nothing wraps: both numbers are at most the number of links
  have fewLinks : config.nicsPerLeaf * config.gpusPerNic + (config.nicsPerLeaf + config.spineCount) ≤
      dimensions.linkCount := by
    have perLeaf : config.nicsPerLeaf * config.gpusPerNic ≤
        config.shape.leaves * config.nicsPerLeaf * config.gpusPerNic := by
      rw [Nat.mul_assoc]
      exact Nat.le_mul_of_pos_left _ of.leaves
    have nicsPerLeaf : config.nicsPerLeaf ≤ config.shape.leaves * config.nicsPerLeaf :=
      Nat.le_mul_of_pos_left _ of.leaves
    have spines : config.spineCount ≤ config.shape.leaves * config.spineCount :=
      Nat.le_mul_of_pos_left _ of.leaves
    have linkCount : dimensions.linkCount =
        config.shape.leaves * config.nicsPerLeaf * config.gpusPerNic +
          config.shape.leaves * config.nicsPerLeaf +
          config.shape.leaves * config.spineCount := of.linkCount
    omega
  have bounded := of.bounded
  have ports := of.portCount
  unfold maxU64 at bounded
  have product : U64.mul config.nicsPerLeaf config.gpusPerNic =
      config.nicsPerLeaf * config.gpusPerNic := U64.mul_eq (by omega)
  have sum : U64.add config.nicsPerLeaf config.spineCount =
      config.nicsPerLeaf + config.spineCount := U64.add_eq (by omega)
  have nicsMatch : allOf (nicMatchesClos g config leaf.id) rack.nics = .ok true := by
    refine allOf_iff.mpr fun id isNic => ?_
    exact nicMatchesClos_of_frame canonical frame isLeaf (nics ▸ isNic)
  have spinesMatch : allOf (fun spine => directlyConnected g (.ofSwitch leaf.id) (.ofSwitch spine))
      (switchesOf g .spine) = .ok true := by
    refine allOf_iff.mpr fun id isSpine => ?_
    obtain ⟨s, here⟩ := (frame.mem_spines canonical).mp isSpine
    rw [isLeaf, ← here]
    exact connected_of_between canonical frame (e := .trunk l s) (.inl ⟨rfl, rfl⟩)
  simp [rackMatchesClos, leaves, nicCount, gpuCount, product, sum, found, portCount, nicsMatch,
    spinesMatch]

theorem matchesClosShape_of_frame (canonical : g.Canonical) (of : dimensions.Of config.shape)
    (frame : ClosFrame config.shape g.outline) :
    matchesClosShape g config dimensions = .ok true := by
  have gpus := (frame.length_gpus canonical).trans of.gpuCount.symm
  have nics := (frame.length_nics canonical).trans of.nicCount.symm
  have racks : g.racks.length = dimensions.rackCount := frame.racks.trans of.rackCount.symm
  have switches := (frame.length_switches canonical).trans of.switchCount.symm
  have links := (frame.length_links canonical).trans of.linkCount.symm
  have ports : g.ports.length = dimensions.portCount := by
    rw [canonical.pairs, links, of.portCount]
  have leaves := (frame.length_leaves canonical).trans of.leafCount.symm
  have spines := (frame.length_spines canonical).trans of.spineCount.symm
  have all : allOf (fun rack => rackMatchesClos g rack config (switchesOf g .spine)) g.racks =
      .ok true :=
    allOf_iff.mpr fun rack member => rackMatchesClos_of_frame canonical of frame member
  simp only [matchesClosShape, gpus, nics, racks, switches, ports, links, leaves, spines, ne_eq,
    not_true_eq_false, or_self, if_false]
  refine (if_neg ?_).trans all
  rw [Bool.not_eq_true', Bool.not_eq_false, List.all_eq_true]
  intro id isSpine
  obtain ⟨spine, isSwitch, role, rfl⟩ := mem_switchesOf.mp isSpine
  have found : g.findSwitch spine.id = some spine :=
    findDense_eq_some.mpr ⟨canonical.aligned.switches.mem isSwitch, rfl⟩
  obtain ⟨s, here⟩ := (frame.mem_spines canonical).mp isSpine
  have count : spine.ports.length = dimensions.leafCount := by
    rw [(canonical.switches spine isSwitch).1, ← here, of.leafCount]
    exact frame.length_ports_spine canonical s
  simp [found, count]

end Validation

/-! ## A frame makes a valid topology -/

/-- In the network every node is joined to every other by links. -/
theorem closNetwork_connected {c : ClosShape} (leaves : 0 < c.leaves) (spines : 0 < c.spines)
    (x y : ClosNode c) : Relation.ReflTransGen (fun x y => ∃ e : ClosLink c, e.Between x y) x y := by
  -- every node is joined to the first spine, and back
  have upLeaf : ∀ l : Fin c.leaves, ∃ e : ClosLink c, e.Between (.leaf l) (.spine ⟨0, spines⟩) :=
    fun l => ⟨.trunk l ⟨0, spines⟩, .inl ⟨rfl, rfl⟩⟩
  have upNic : ∀ (l : Fin c.leaves) (n : Fin c.nicsPerLeaf),
      ∃ e : ClosLink c, e.Between (.nic l n) (.leaf l) :=
    fun l n => ⟨.uplink l n, .inl ⟨rfl, rfl⟩⟩
  have upGpu : ∀ (l : Fin c.leaves) (n : Fin c.nicsPerLeaf) (k : Fin c.gpusPerNic),
      ∃ e : ClosLink c, e.Between (.gpu l n k) (.nic l n) :=
    fun l n k => ⟨.attachment l n k, .inl ⟨rfl, rfl⟩⟩
  have downSpine : ∀ s : Fin c.spines, ∃ e : ClosLink c, e.Between (.spine s) (.leaf ⟨0, leaves⟩) :=
    fun s => ⟨.trunk ⟨0, leaves⟩ s, .inr ⟨rfl, rfl⟩⟩
  have toHub : ∀ z : ClosNode c,
      Relation.ReflTransGen (fun x y => ∃ e : ClosLink c, e.Between x y) z (.spine ⟨0, spines⟩) := by
    intro z
    cases z with
    | gpu l n k => exact .head (upGpu l n k) (.head (upNic l n) (.single (upLeaf l)))
    | nic l n => exact .head (upNic l n) (.single (upLeaf l))
    | leaf l => exact .single (upLeaf l)
    | spine s => exact .head (downSpine s) (.single (upLeaf _))
  have both : Std.Symm fun x y => ∃ e : ClosLink c, e.Between x y :=
    ⟨fun _ _ ⟨e, between⟩ => ⟨e, between.symm⟩⟩
  exact (toHub x).trans (Relation.ReflTransGen.stdSymm.symm _ _ (toHub y))

theorem ClosFrame.connected {c : ClosShape} {g : TopologyGraph} (frame : ClosFrame c g.outline)
    (canonical : g.Canonical) (leaves : 0 < c.leaves) (spines : 0 < c.spines) (x y : ClosNode c) :
    g.Connected (frame.node x) (frame.node y) := by
  refine Relation.ReflTransGen.lift frame.node ?_ _ _ (closNetwork_connected leaves spines x y)
  rintro a b ⟨e, between⟩
  exact canonical.linked_iff.mp (canonical.joined_iff.mpr
    ⟨_, frame.joins_iff.mpr ⟨e, rfl, between⟩⟩)

theorem validateTopology_of_frame {c : ClosShape} {dimensions : ClosDimensions} {g : TopologyGraph}
    (built : g.Built) (of : dimensions.Of c) (frame : ClosFrame c g.outline) :
    validateTopology g = .ok [] := by
  have canonical := built.canonical
  obtain ⟨report, ok, kinds, empty, named, disconnected, _⟩ := validation_of_built built
  have gpus : g.gpus ≠ [] := by
    intro none
    have count := frame.length_gpus canonical
    rw [none] at count
    have some_gpu := Nat.mul_pos (Nat.mul_pos of.leaves of.nicsPerLeaf) of.gpusPerNic
    simp only [List.length_nil] at count
    omega
  have first : ∃ x, frame.node x = ⟨.gpu, 0⟩ := by
    refine frame.node_onto _ ?_
    simp only [Outline.Contains, count_outline, TopologyGraph.count]
    exact List.length_pos_of_ne_nil gpus
  have clean : report = [] := by
    rw [List.eq_nil_iff_forall_not_mem]
    intro error member
    rcases kinds error member with isEmpty | isDisconnected
    · exact gpus (empty.mp ⟨error, member, isEmpty⟩)
    · obtain ⟨node, isNode⟩ := named error member isDisconnected
      obtain ⟨_, known, apart⟩ := (disconnected node).mp ⟨error, member, isDisconnected, isNode⟩
      obtain ⟨x, isFirst⟩ := first
      obtain ⟨y, isY⟩ := frame.coordinates canonical known
      exact apart (isFirst ▸ isY ▸ frame.connected canonical of.leaves of.spines x y)
  rw [ok, clean]

/-- Over graphs that were built the validator accepts exactly those that have a frame. -/
theorem validateClosTopology_iff {config : ClosConfig} {dimensions : ClosDimensions}
    {g : TopologyGraph} (built : g.Built) (accepted : closDimensions config = .ok dimensions) :
    validateClosTopology g config = .ok [] ↔ Nonempty (ClosFrame config.shape g.outline) := by
  have of := closDimensions_ok accepted
  constructor
  · intro valid
    unfold validateClosTopology at valid
    rw [accepted, ok_bind] at valid
    obtain ⟨report, _, valid⟩ := returned_of_bind valid
    split at valid
    · rename_i errors
      cases valid
      exact absurd rfl errors
    · obtain ⟨found, matched, valid⟩ := returned_of_bind valid
      cases found with
      | true => exact (Validation.closShaped_of_matches built.canonical of matched).frame built
      | false => simp at valid
  · rintro ⟨frame⟩
    simp [validateClosTopology, accepted, validateTopology_of_frame built of frame,
      Validation.matchesClosShape_of_frame built.canonical of frame]

end NexusLab.Topology
