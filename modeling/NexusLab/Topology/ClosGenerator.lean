import NexusLab.Topology.ClosValidation

/-! # What the generator of a Clos builds

The generator is followed through its loops by the numbers of things there are so far.  At the end
they are those of the network, everything stands at the coordinates that its number says, and the
graph has a frame. -/

namespace NexusLab.Topology

open Foundation TopologyGraph Families

/-- How far the generator has come. -/
structure Progress where
  racks : Nat := 0
  leaves : Nat := 0
  spines : Nat := 0
  nics : Nat := 0
  gpus : Nat := 0
  uplinks : Nat := 0
  trunks : List (SwitchId × SwitchId) := []

def Progress.links (p : Progress) : Nat := p.gpus + p.uplinks + p.trunks.length

/-- What the outline says at that point, with so many NICs on a leaf and GPUs on a NIC. -/
structure Reached (nicsPerLeaf gpusPerNic : Nat) (p : Progress) (o : Outline) : Prop where
  racks : o.racks = p.racks
  nics : o.nics = (List.range p.nics).map fun i => ⟨i / nicsPerLeaf⟩
  gpus : o.gpus =
    (List.range p.gpus).map fun j => (⟨j / gpusPerNic / nicsPerLeaf⟩, ⟨j / gpusPerNic⟩)
  switches : o.switches =
    (List.range p.leaves).map (fun i => (.leaf, some ⟨i⟩)) ++ List.replicate p.spines (.spine, none)
  owners : o.owners.length = 2 * p.links
  uplinked : ∀ i < p.uplinks, ∃ j, o.Joins j ⟨.nic, i⟩ ⟨.switch, i / nicsPerLeaf⟩
  onlyUplinks : ∀ j i s, o.Joins j ⟨.nic, i⟩ ⟨.switch, s⟩ → i < p.uplinks
  trunked : ∀ t ∈ p.trunks, ∃ j, o.Joins j (.ofSwitch t.1) (.ofSwitch t.2)
  onlyTrunks : ∀ j a b, o.Joins j (.ofSwitch a) (.ofSwitch b) →
    (a, b) ∈ p.trunks ∨ (b, a) ∈ p.trunks

/-- A new link joins what it joins and nothing else. -/
theorem joins_append {o : Outline} {links j : Nat} {a b u v : NodeId}
    (pairs : o.owners.length = 2 * links)
    (joins : ({ o with owners := o.owners ++ [a, b] } : Outline).Joins j u v) :
    o.Joins j u v ∨ a = u ∧ b = v ∨ a = v ∧ b = u := by
  by_cases old : j < links
  · left
    unfold Outline.Joins at joins ⊢
    simp only at joins
    rwa [List.getElem?_append_left (by omega), List.getElem?_append_left (by omega)] at joins
  · right
    have small : 2 * j < (o.owners ++ [a, b]).length := by
      rcases joins with ⟨found, _⟩ | ⟨found, _⟩ <;>
        exact (List.getElem?_eq_some_iff.mp found).1
    have here : j = links := by
      simp only [List.length_append, List.length_cons, List.length_nil] at small
      omega
    subst here
    rcases joins with ⟨first, second⟩ | ⟨first, second⟩
    · left
      simp only [← pairs, List.getElem?_append_right (le_refl _),
        Nat.sub_self, List.getElem?_cons_zero, Option.some.injEq] at first
      simp [← pairs] at second
      exact ⟨first, second⟩
    · right
      simp [← pairs] at first second
      exact ⟨first, second⟩

section Reached

variable {nicsPerLeaf gpusPerNic : Nat} {p : Progress} {o : Outline}

theorem reached_empty : Reached nicsPerLeaf gpusPerNic {} {} where
  racks := rfl
  nics := rfl
  gpus := rfl
  switches := rfl
  owners := rfl
  uplinked := by simp
  onlyUplinks := by simp [Outline.Joins]
  trunked := by simp
  onlyTrunks := by simp [Outline.Joins]

theorem Reached.addRack (reached : Reached nicsPerLeaf gpusPerNic p o) :
    Reached nicsPerLeaf gpusPerNic { p with racks := p.racks + 1 }
      { o with racks := p.racks + 1 } :=
  { reached with racks := rfl }

theorem Reached.addNic (reached : Reached nicsPerLeaf gpusPerNic p o) {rack : RackId}
    (home : p.nics / nicsPerLeaf = rack.value) :
    Reached nicsPerLeaf gpusPerNic { p with nics := p.nics + 1 } { o with nics := o.nics ++ [rack] } :=
  { reached with nics := by simp [reached.nics, List.range_succ, home] }

theorem Reached.addLeafSwitch (reached : Reached nicsPerLeaf gpusPerNic p o) {rack : RackId}
    (home : p.leaves = rack.value) (noSpines : p.spines = 0) :
    Reached nicsPerLeaf gpusPerNic { p with leaves := p.leaves + 1 }
      { o with switches := o.switches ++ [(.leaf, some rack)] } :=
  { reached with switches := by simp [reached.switches, List.range_succ, noSpines, home] }

theorem Reached.addSpineSwitch (reached : Reached nicsPerLeaf gpusPerNic p o) :
    Reached nicsPerLeaf gpusPerNic { p with spines := p.spines + 1 }
      { o with switches := o.switches ++ [(.spine, none)] } :=
  { reached with switches := by simp [reached.switches, List.replicate_succ'] }

theorem Reached.addGpu (reached : Reached nicsPerLeaf gpusPerNic p o) {rack : RackId} {nic : NicId}
    (onNic : p.gpus / gpusPerNic = nic.value) (inRack : nic.value / nicsPerLeaf = rack.value)
    (gpu : Nat) :
    Reached nicsPerLeaf gpusPerNic { p with gpus := p.gpus + 1 }
      { o with
        gpus := o.gpus ++ [(rack, nic)]
        owners := o.owners ++ [⟨.gpu, gpu⟩, .ofNic nic] } where
  racks := reached.racks
  nics := reached.nics
  gpus := by simp [reached.gpus, List.range_succ, onNic, inRack]
  switches := reached.switches
  owners := by simp [reached.owners, Progress.links]; omega
  uplinked i small := by
    obtain ⟨j, joins⟩ := reached.uplinked i small
    exact ⟨j, joins.append _⟩
  onlyUplinks j i s joins := by
    rcases joins_append reached.owners joins with old | ⟨isNic, _⟩ | ⟨isSwitch, _⟩
    · exact reached.onlyUplinks j i s old
    · cases isNic
    · cases isSwitch
  trunked t member := by
    obtain ⟨j, joins⟩ := reached.trunked t member
    exact ⟨j, joins.append _⟩
  onlyTrunks j a b joins := by
    rcases joins_append reached.owners joins with old | ⟨isGpu, _⟩ | ⟨isGpu, _⟩
    · exact reached.onlyTrunks j a b old
    · cases isGpu
    · cases isGpu

theorem Reached.uplink (reached : Reached nicsPerLeaf gpusPerNic p o) {leaf : SwitchId}
    (home : p.uplinks / nicsPerLeaf = leaf.value) :
    Reached nicsPerLeaf gpusPerNic { p with uplinks := p.uplinks + 1 }
      { o with owners := o.owners ++ [⟨.nic, p.uplinks⟩, .ofSwitch leaf] } where
  racks := reached.racks
  nics := reached.nics
  gpus := reached.gpus
  switches := reached.switches
  owners := by simp [reached.owners, Progress.links]; omega
  uplinked i small := by
    by_cases old : i < p.uplinks
    · obtain ⟨j, joins⟩ := reached.uplinked i old
      exact ⟨j, joins.append _⟩
    · have here : i = p.uplinks := by
        simp only at small
        omega
      subst here
      rw [home]
      exact ⟨_, Outline.joins_new reached.owners _ _⟩
  onlyUplinks j i s joins := by
    rcases joins_append reached.owners joins with old | ⟨isNic, _⟩ | ⟨isSwitch, _⟩
    · exact Nat.lt_succ_of_lt (reached.onlyUplinks j i s old)
    · cases isNic
      exact Nat.lt_succ_self _
    · cases isSwitch
  trunked t member := by
    obtain ⟨j, joins⟩ := reached.trunked t member
    exact ⟨j, joins.append _⟩
  onlyTrunks j a b joins := by
    rcases joins_append reached.owners joins with old | ⟨isNic, _⟩ | ⟨isNic, _⟩
    · exact reached.onlyTrunks j a b old
    · cases isNic
    · cases isNic

theorem Reached.trunk (reached : Reached nicsPerLeaf gpusPerNic p o) (leaf spine : SwitchId) :
    Reached nicsPerLeaf gpusPerNic { p with trunks := p.trunks ++ [(leaf, spine)] }
      { o with owners := o.owners ++ [.ofSwitch leaf, .ofSwitch spine] } where
  racks := reached.racks
  nics := reached.nics
  gpus := reached.gpus
  switches := reached.switches
  owners := by simp [reached.owners, Progress.links]; omega
  uplinked i small := by
    obtain ⟨j, joins⟩ := reached.uplinked i small
    exact ⟨j, joins.append _⟩
  onlyUplinks j i s joins := by
    rcases joins_append reached.owners joins with old | ⟨isSwitch, _⟩ | ⟨_, isSwitch⟩
    · exact reached.onlyUplinks j i s old
    · cases isSwitch
    · cases isSwitch
  trunked t member := by
    rcases List.mem_append.mp member with old | new
    · obtain ⟨j, joins⟩ := reached.trunked t old
      exact ⟨j, joins.append _⟩
    · rw [List.mem_singleton.mp new]
      exact ⟨_, Outline.joins_new reached.owners _ _⟩
  onlyTrunks j a b joins := by
    rcases joins_append reached.owners joins with old | ⟨isA, isB⟩ | ⟨isB, isA⟩
    · rcases reached.onlyTrunks j a b old with here | here
      · exact .inl (List.mem_append_left _ here)
      · exact .inr (List.mem_append_left _ here)
    · rw [NodeId.ofSwitch_inj] at isA isB
      subst isA isB
      exact .inl (by simp)
    · rw [NodeId.ofSwitch_inj] at isA isB
      subst isA isB
      exact .inr (by simp)

end Reached

/-! ## One call -/

structure Stage (nicsPerLeaf gpusPerNic : Nat) (p : Progress) (g : TopologyGraph) : Prop where
  built : g.Built
  ready : g.Ready
  reached : Reached nicsPerLeaf gpusPerNic p g.outline

namespace Stage

variable {nicsPerLeaf gpusPerNic : Nat} {p : Progress} {g : TopologyGraph}

theorem lengths (stage : Stage nicsPerLeaf gpusPerNic p g) :
    g.racks.length = p.racks ∧ g.nics.length = p.nics ∧ g.gpus.length = p.gpus ∧
      g.switches.length = p.leaves + p.spines ∧ g.ports.length = 2 * p.links := by
  refine ⟨stage.reached.racks, ?_, ?_, ?_, ?_⟩
  · simpa [outline] using congrArg List.length stage.reached.nics
  · simpa [outline] using congrArg List.length stage.reached.gpus
  · simpa [outline] using congrArg List.length stage.reached.switches
  · simpa [outline] using stage.reached.owners

theorem addRack (stage : Stage nicsPerLeaf gpusPerNic p g) (few : p.racks ≤ maxU64) :
    wp TopologyGraph.addRack (fun rack g' => rack = ⟨p.racks⟩ ∧
      Stage nicsPerLeaf gpusPerNic { p with racks := p.racks + 1 } g') (fun _ _ => False) g := by
  obtain ⟨racks, _⟩ := stage.lengths
  refine wp_mono ((adds_addRack stage.built.canonical).completes stage.ready (racks ▸ few)) ?_
    (fun _ _ none => none)
  rintro rack g' ⟨rfl, next, ready, isAfter⟩
  refine ⟨by rw [racks], ⟨isAfter ▸ stage.built.addRack, ready, ?_⟩⟩
  rw [next, racks]
  exact stage.reached.addRack

theorem addNic (stage : Stage nicsPerLeaf gpusPerNic p g) {rack : RackId}
    (known : rack.value < p.racks) (few : p.nics ≤ maxU64)
    (home : p.nics / nicsPerLeaf = rack.value) :
    wp (TopologyGraph.addNic rack) (fun nic g' => nic = ⟨p.nics⟩ ∧
      Stage nicsPerLeaf gpusPerNic { p with nics := p.nics + 1 } g') (fun _ _ => False) g := by
  obtain ⟨racks, nics, _⟩ := stage.lengths
  refine wp_mono ((adds_addNic stage.built.canonical rack).completes stage.ready
    ⟨racks ▸ known, nics ▸ few⟩) ?_ (fun _ _ none => none)
  rintro nic g' ⟨rfl, next, ready, isAfter⟩
  refine ⟨by rw [nics], ⟨isAfter ▸ stage.built.addNic rack, ready, ?_⟩⟩
  rw [next]
  exact stage.reached.addNic home

theorem addLeafSwitch (stage : Stage nicsPerLeaf gpusPerNic p g) {rack : RackId}
    (known : rack.value < p.racks) (few : p.leaves ≤ maxU64) (home : p.leaves = rack.value)
    (noSpines : p.spines = 0) :
    wp (TopologyGraph.addLeafSwitch rack) (fun leaf g' => leaf = ⟨p.leaves⟩ ∧
      Stage nicsPerLeaf gpusPerNic { p with leaves := p.leaves + 1 } g') (fun _ _ => False) g := by
  obtain ⟨racks, _, _, switches, _⟩ := stage.lengths
  rw [noSpines, Nat.add_zero] at switches
  refine wp_mono ((adds_addLeafSwitch stage.built.canonical rack).completes stage.ready
    ⟨racks ▸ known, switches ▸ few⟩) ?_ (fun _ _ none => none)
  rintro leaf g' ⟨rfl, next, ready, isAfter⟩
  refine ⟨by rw [switches], ⟨isAfter ▸ stage.built.addLeafSwitch rack, ready, ?_⟩⟩
  rw [next]
  exact stage.reached.addLeafSwitch home noSpines

theorem addSpineSwitch (stage : Stage nicsPerLeaf gpusPerNic p g)
    (few : p.leaves + p.spines ≤ maxU64) :
    wp TopologyGraph.addSpineSwitch (fun spine g' => spine = ⟨p.leaves + p.spines⟩ ∧
      Stage nicsPerLeaf gpusPerNic { p with spines := p.spines + 1 } g') (fun _ _ => False) g := by
  obtain ⟨_, _, _, switches, _⟩ := stage.lengths
  refine wp_mono ((adds_addSpineSwitch stage.built.canonical).completes stage.ready
    (switches ▸ few)) ?_ (fun _ _ none => none)
  rintro spine g' ⟨rfl, next, ready, isAfter⟩
  refine ⟨by rw [switches], ⟨isAfter ▸ stage.built.addSpineSwitch, ready, ?_⟩⟩
  rw [next]
  exact stage.reached.addSpineSwitch

theorem addGpu (stage : Stage nicsPerLeaf gpusPerNic p g) {nic : NicId}
    (known : nic.value < p.nics) (onNic : p.gpus / gpusPerNic = nic.value)
    (few : 2 * p.links + 1 ≤ maxU64) :
    wp (TopologyGraph.addGpu nic) (fun _ g' =>
      Stage nicsPerLeaf gpusPerNic { p with gpus := p.gpus + 1 } g') (fun _ _ => False) g := by
  obtain ⟨_, _, gpus, _, ports⟩ := stage.lengths
  have stands : g.outline.nics[nic.value]? = some ⟨nic.value / nicsPerLeaf⟩ := by
    simp [stage.reached.nics, known]
  have fewGpus : p.gpus ≤ maxU64 := by
    unfold Progress.links at few
    omega
  refine wp_mono ((adds_addGpu stage.built.canonical stands).completes stage.ready
    ⟨gpus ▸ fewGpus, ports ▸ few⟩) ?_ (fun _ _ none => none)
  rintro gpu g' ⟨rfl, next, ready, isAfter⟩
  refine ⟨isAfter ▸ stage.built.addGpu nic, ready, ?_⟩
  rw [next]
  exact stage.reached.addGpu onNic rfl _

theorem uplink (stage : Stage nicsPerLeaf gpusPerNic p g) {leaf : SwitchId}
    (nic : p.uplinks < p.nics) (known : leaf.value < p.leaves)
    (home : p.uplinks / nicsPerLeaf = leaf.value) (few : 2 * p.links + 1 ≤ maxU64) :
    wp (connectFabric (.ofNic ⟨p.uplinks⟩) .fabricUplink (.ofSwitch leaf) .fabricDownlink)
      (fun _ g' => Stage nicsPerLeaf gpusPerNic { p with uplinks := p.uplinks + 1 } g')
      (fun _ _ => False) g := by
  obtain ⟨_, nics, _, switches, ports⟩ := stage.lengths
  obtain ⟨value, adds⟩ := adds_connectFabric stage.built.canonical (.ofNic ⟨p.uplinks⟩)
    .fabricUplink (.ofSwitch leaf) .fabricDownlink
  refine wp_mono (adds.completes stage.ready ⟨?_, ?_, by nofun, by nofun, by nofun, by nofun,
    by nofun, ?_, ports ▸ few⟩) ?_ (fun _ _ none => none)
  · simp only [Outline.Contains, count_outline, count, NodeId.ofNic]
    omega
  · simp only [Outline.Contains, count_outline, count, NodeId.ofSwitch]
    omega
  · rintro ⟨j, joins⟩
    exact lt_irrefl _ (stage.reached.onlyUplinks j _ _ joins)
  · rintro link g' ⟨_, next, ready, isAfter⟩
    refine ⟨isAfter ▸ stage.built.connectFabric .., ready, ?_⟩
    rw [next]
    exact stage.reached.uplink home

theorem trunk (stage : Stage nicsPerLeaf gpusPerNic p g) {leaf spine : SwitchId}
    (knownLeaf : leaf.value < p.leaves + p.spines) (knownSpine : spine.value < p.leaves + p.spines)
    (different : leaf ≠ spine) (fresh : (leaf, spine) ∉ p.trunks) (fresh' : (spine, leaf) ∉ p.trunks)
    (few : 2 * p.links + 1 ≤ maxU64) :
    wp (connectFabric (.ofSwitch leaf) .fabricUplink (.ofSwitch spine) .fabricDownlink)
      (fun _ g' => Stage nicsPerLeaf gpusPerNic { p with trunks := p.trunks ++ [(leaf, spine)] } g')
      (fun _ _ => False) g := by
  obtain ⟨_, _, _, switches, ports⟩ := stage.lengths
  obtain ⟨value, adds⟩ := adds_connectFabric stage.built.canonical (.ofSwitch leaf)
    .fabricUplink (.ofSwitch spine) .fabricDownlink
  refine wp_mono (adds.completes stage.ready ⟨?_, ?_, ?_, by nofun, by nofun, by nofun,
    by nofun, ?_, ports ▸ few⟩) ?_ (fun _ _ none => none)
  · simpa only [Outline.Contains, count_outline, count, NodeId.ofSwitch, switches] using knownLeaf
  · simpa only [Outline.Contains, count_outline, count, NodeId.ofSwitch, switches] using knownSpine
  · rw [ne_eq, NodeId.ofSwitch_inj]
    exact different
  · rintro ⟨j, joins⟩
    exact (stage.reached.onlyTrunks j leaf spine joins).elim fresh fresh'
  · rintro link g' ⟨_, next, ready, isAfter⟩
    refine ⟨isAfter ▸ stage.built.connectFabric .., ready, ?_⟩
    rw [next]
    exact stage.reached.trunk leaf spine

end Stage

/-! ## Loops -/

/-- So many whole racks. -/
def wholeRacks (nicsPerLeaf gpusPerNic racks : Nat) : Progress where
  racks := racks
  leaves := racks
  nics := racks * nicsPerLeaf
  gpus := racks * nicsPerLeaf * gpusPerNic
  uplinks := racks * nicsPerLeaf

/-- So many racks, the last of which has its NICs only up to the given number of all NICs. -/
def partOfRack (gpusPerNic racks nics : Nat) : Progress where
  racks := racks
  leaves := racks
  nics := nics
  gpus := nics * gpusPerNic
  uplinks := nics

section Racks

variable {nicsPerLeaf gpusPerNic : Nat} {g : TopologyGraph}

theorem stage_addRackNic {rack nics : Nat} (positive : 0 < gpusPerNic)
    (stage : Stage nicsPerLeaf gpusPerNic (partOfRack gpusPerNic (rack + 1) nics) g)
    (home : nics / nicsPerLeaf = rack) (few : 2 * ((nics + 1) * gpusPerNic + (nics + 1)) ≤ maxU64) :
    wp (addRackNic gpusPerNic ⟨rack⟩ ⟨rack⟩) (fun _ g' =>
      Stage nicsPerLeaf gpusPerNic (partOfRack gpusPerNic (rack + 1) (nics + 1)) g')
      (fun _ _ => False) g := by
  have product : (nics + 1) * gpusPerNic = nics * gpusPerNic + gpusPerNic := Nat.succ_mul ..
  simp only [addRackNic, wp_bind]
  refine wp_mono (stage.addNic (Nat.lt_succ_self _) ?_ home) ?_ (fun _ _ none => none)
  · simp only [partOfRack]
    omega
  rintro nic g ⟨rfl, stage⟩
  -- the GPUs of the new NIC, one after the other
  refine wp_mono (wp_forM_range (fun k g => Stage nicsPerLeaf gpusPerNic
    { partOfRack gpusPerNic (rack + 1) nics with
      nics := nics + 1, gpus := nics * gpusPerNic + k } g) _ _ ?_ stage) ?_ (fun _ _ none => none)
  · intro k g less stage
    rw [wp_bind]
    refine wp_mono (stage.addGpu (Nat.lt_succ_self _) ?_ ?_) (fun _ g' h => h) (fun _ _ none => none)
    · simp only [partOfRack]
      rw [Nat.add_comm, Nat.add_mul_div_right _ _ positive, Nat.div_eq_of_lt less, Nat.zero_add]
    · simp only [Progress.links, partOfRack, List.length_nil]
      omega
  · rintro _ g stage
    refine wp_mono (stage.uplink (Nat.lt_succ_self _) (Nat.lt_succ_self _) home ?_) ?_
      (fun _ _ none => none)
    · simp only [Progress.links, partOfRack, List.length_nil]
      omega
    · intro _ g' stage'
      unfold partOfRack
      rw [product]
      exact stage'

theorem stage_addLeafRack {rack : Nat} (positive : 0 < gpusPerNic) (nicsPositive : 0 < nicsPerLeaf)
    (stage : Stage nicsPerLeaf gpusPerNic (wholeRacks nicsPerLeaf gpusPerNic rack) g)
    (few : 2 * ((rack + 1) * nicsPerLeaf * gpusPerNic + (rack + 1) * nicsPerLeaf) ≤ maxU64) :
    wp (addLeafRack nicsPerLeaf gpusPerNic) (fun leaf g' => leaf = ⟨rack⟩ ∧
      Stage nicsPerLeaf gpusPerNic (wholeRacks nicsPerLeaf gpusPerNic (rack + 1)) g')
      (fun _ _ => False) g := by
  have racksFew : rack + 1 ≤ (rack + 1) * nicsPerLeaf := Nat.le_mul_of_pos_right _ nicsPositive
  have nextNics : (rack + 1) * nicsPerLeaf = rack * nicsPerLeaf + nicsPerLeaf := Nat.succ_mul ..
  simp only [addLeafRack, wp_bind]
  refine wp_mono (stage.addRack ?_) ?_ (fun _ _ none => none)
  · simp only [wholeRacks]
    omega
  rintro _ g ⟨rfl, stage⟩
  refine wp_mono (stage.addLeafSwitch (Nat.lt_succ_self _) ?_ rfl rfl) ?_ (fun _ _ none => none)
  · simp only [wholeRacks]
    omega
  rintro leaf g ⟨rfl, stage⟩
  refine wp_mono (wp_forM_range (fun n g => Stage nicsPerLeaf gpusPerNic
    (partOfRack gpusPerNic (rack + 1) (rack * nicsPerLeaf + n)) g) _ _ ?_ stage) ?_
    (fun _ _ none => none)
  · intro n g less stage
    refine @stage_addRackNic _ _ g rack (rack * nicsPerLeaf + n) positive stage ?_ ?_
    · rw [Nat.add_comm, Nat.add_mul_div_right _ _ nicsPositive, Nat.div_eq_of_lt less, Nat.zero_add]
    · have upTo : rack * nicsPerLeaf + n + 1 ≤ (rack + 1) * nicsPerLeaf := by omega
      have gpus := Nat.mul_le_mul_right gpusPerNic upTo
      omega
  · rintro _ g stage
    refine ⟨rfl, ?_⟩
    unfold wholeRacks
    rw [nextNics]
    exact stage

/-- Leaves and spines by their numbers. -/
def leafIds (count : Nat) : List SwitchId := (List.range count).map StrongId.mk
def spineIds (leaves count : Nat) : List SwitchId := (List.range count).map fun s => ⟨leaves + s⟩

theorem stage_leaves {leaves : Nat} (positive : 0 < gpusPerNic) (nicsPositive : 0 < nicsPerLeaf)
    (stage : Stage nicsPerLeaf gpusPerNic {} g)
    (few : 2 * (leaves * nicsPerLeaf * gpusPerNic + leaves * nicsPerLeaf) ≤ maxU64) :
    wp ((List.range leaves).mapM fun _ => addLeafRack nicsPerLeaf gpusPerNic)
      (fun ids g' => ids = leafIds leaves ∧
        Stage nicsPerLeaf gpusPerNic (wholeRacks nicsPerLeaf gpusPerNic leaves) g')
      (fun _ _ => False) g := by
  refine wp_mono (wp_mapM (fun rest ids g => ids.length + rest.length = leaves ∧
    ids = leafIds ids.length ∧
    Stage nicsPerLeaf gpusPerNic (wholeRacks nicsPerLeaf gpusPerNic ids.length) g) _ _ ?_ _ [] _
      ⟨by simp, rfl, by simpa [wholeRacks] using stage⟩) ?_ (fun _ _ none => none)
  · rintro _ rest ids g ⟨length, isIds, stage⟩
    rw [List.length_cons] at length
    have soFar := Nat.mul_le_mul_right nicsPerLeaf (show ids.length + 1 ≤ leaves by omega)
    have gpus := Nat.mul_le_mul_right gpusPerNic soFar
    refine wp_mono (stage_addLeafRack positive nicsPositive stage (by omega)) ?_
      (fun _ _ none => none)
    rintro leaf g' ⟨rfl, stage'⟩
    rw [List.length_append, List.length_singleton]
    refine ⟨by omega, ?_, stage'⟩
    conv_lhs => rw [isIds]
    simp [leafIds, List.range_succ]
  · rintro ids g' ⟨length, isIds, stage'⟩
    simp only [List.nil_append, List.length_nil, Nat.add_zero] at length isIds stage'
    rw [length] at isIds stage'
    exact ⟨isIds, stage'⟩

theorem stage_spines {leaves spines : Nat}
    (stage : Stage nicsPerLeaf gpusPerNic (wholeRacks nicsPerLeaf gpusPerNic leaves) g)
    (few : leaves + spines ≤ maxU64) :
    wp ((List.range spines).mapM fun _ => addSpineSwitch)
      (fun ids g' => ids = spineIds leaves spines ∧
        Stage nicsPerLeaf gpusPerNic
          { wholeRacks nicsPerLeaf gpusPerNic leaves with spines := spines } g')
      (fun _ _ => False) g := by
  refine wp_mono (wp_mapM (fun rest ids g => ids.length + rest.length = spines ∧
    ids = spineIds leaves ids.length ∧ Stage nicsPerLeaf gpusPerNic
      { wholeRacks nicsPerLeaf gpusPerNic leaves with spines := ids.length } g) _ _ ?_ _ [] _
      ⟨by simp, rfl, stage⟩) ?_ (fun _ _ none => none)
  · rintro _ rest ids g ⟨length, isIds, stage⟩
    rw [List.length_cons] at length
    refine wp_mono (stage.addSpineSwitch ?_) ?_ (fun _ _ none => none)
    · simp only [wholeRacks]
      omega
    rintro spine g' ⟨rfl, stage'⟩
    rw [List.length_append, List.length_singleton]
    refine ⟨by omega, ?_, stage'⟩
    conv_lhs => rw [isIds]
    simp [spineIds, List.range_succ, wholeRacks]
  · rintro ids g' ⟨length, isIds, stage'⟩
    simp only [List.nil_append, List.length_nil, Nat.add_zero] at length isIds stage'
    rw [length] at isIds stage'
    exact ⟨isIds, stage'⟩

theorem mem_leafIds {count : Nat} {id : SwitchId} : id ∈ leafIds count ↔ id.value < count := by
  unfold leafIds
  rw [List.mem_map]
  constructor
  · rintro ⟨i, small, rfl⟩
    exact List.mem_range.mp small
  · intro small
    exact ⟨id.value, List.mem_range.mpr small, rfl⟩

theorem mem_spineIds {leaves count : Nat} {id : SwitchId} :
    id ∈ spineIds leaves count ↔ leaves ≤ id.value ∧ id.value < leaves + count := by
  unfold spineIds
  rw [List.mem_map]
  constructor
  · rintro ⟨i, small, rfl⟩
    have := List.mem_range.mp small
    simp only
    omega
  · rintro ⟨above, below⟩
    exact ⟨id.value - leaves, List.mem_range.mpr (by omega),
      StrongId.value_injective (by simp only; omega)⟩

theorem nodup_leafIds {count : Nat} : (leafIds count).Nodup := by
  refine List.nodup_range.map ?_
  intro a b same
  exact congrArg StrongId.value same

theorem nodup_spineIds {leaves count : Nat} : (spineIds leaves count).Nodup := by
  refine List.nodup_range.map ?_
  intro a b same
  exact Nat.add_left_cancel (congrArg StrongId.value same)

/-- One leaf with all spines; `done` are the leaves before it. -/
theorem stage_leafTrunks {leaves spines : Nat} {done rest : List SwitchId} {leaf : SwitchId}
    (order : done ++ leaf :: rest = leafIds leaves)
    (stage : Stage nicsPerLeaf gpusPerNic { wholeRacks nicsPerLeaf gpusPerNic leaves with
      spines := spines, trunks := done ×ˢ spineIds leaves spines } g)
    (few : 2 * (leaves * nicsPerLeaf * gpusPerNic + leaves * nicsPerLeaf + leaves * spines) ≤
      maxU64) :
    wp ((spineIds leaves spines).forM fun spine => do
        let _ ← connectFabric (.ofSwitch leaf) .fabricUplink (.ofSwitch spine) .fabricDownlink)
      (fun _ g' => Stage nicsPerLeaf gpusPerNic { wholeRacks nicsPerLeaf gpusPerNic leaves with
        spines := spines, trunks := (done ++ [leaf]) ×ˢ spineIds leaves spines } g')
      (fun _ _ => False) g := by
  have leafNodup : (done ++ leaf :: rest).Nodup := order ▸ nodup_leafIds
  have isLeaf : leaf ∈ leafIds leaves := by simp [← order]
  have leafSmall := mem_leafIds.mp isLeaf
  -- the trunks of this leaf are within the links that were counted
  have doneFew : (done.length + 1) * spines ≤ leaves * spines := by
    refine Nat.mul_le_mul_right _ ?_
    have length := congrArg List.length order
    simp [leafIds] at length
    omega
  have spineCount : (spineIds leaves spines).length = spines := by simp [spineIds]
  -- after some spines the trunks are those of the leaves before, and of this leaf to them
  refine wp_mono (wp_forM (fun todo g => ∃ before, before ++ todo = spineIds leaves spines ∧
    Stage nicsPerLeaf gpusPerNic { wholeRacks nicsPerLeaf gpusPerNic leaves with
      spines := spines
      trunks := done ×ˢ spineIds leaves spines ++ before.map (leaf, ·) } g) _ _ ?_ _ _
      ⟨[], rfl, by simpa using stage⟩) ?_ (fun _ _ none => none)
  · rintro spine todo g ⟨before, split, stage⟩
    have spineNodup : (before ++ spine :: todo).Nodup := split ▸ nodup_spineIds
    have isSpine : spine ∈ spineIds leaves spines := by simp [← split]
    have spineRange := mem_spineIds.mp isSpine
    have beforeFew : before.length + 1 ≤ spines := by
      have length := congrArg List.length split
      simp [spineCount] at length
      omega
    rw [wp_bind]
    refine wp_mono (stage.trunk ?_ ?_ ?_ ?_ ?_ ?_) ?_ (fun _ _ none => none)
    · simp only [wholeRacks]
      omega
    · exact spineRange.2
    · rintro rfl
      omega
    · intro member
      -- a trunk to this spine is new in either direction
      rcases List.mem_append.mp member with old | here
      · have isDone := (List.pair_mem_product.mp old).1
        exact (List.disjoint_of_nodup_append leafNodup) isDone (List.mem_cons_self ..)
      · obtain ⟨other, isBefore, same⟩ := List.mem_map.mp here
        cases same
        exact (List.disjoint_of_nodup_append spineNodup) isBefore (List.mem_cons_self ..)
    · intro member
      rcases List.mem_append.mp member with old | here
      · have isDone := (List.pair_mem_product.mp old).1
        have small := mem_leafIds.mp (order ▸ List.mem_append_left _ isDone)
        omega
      · obtain ⟨other, _, same⟩ := List.mem_map.mp here
        cases same
        omega
    · have product : (done.length + 1) * spines = done.length * spines + spines :=
        Nat.succ_mul ..
      simp only [Progress.links, wholeRacks, List.length_append, List.length_product,
        List.length_map, spineCount]
      omega
    · intro _ g' stage'
      refine ⟨before ++ [spine], by simpa using split, ?_⟩
      rw [List.map_append, List.map_singleton, ← List.append_assoc]
      exact stage'
  · rintro _ g' ⟨before, split, stage'⟩
    rw [List.append_nil] at split
    subst split
    have grown : (done ++ [leaf]) ×ˢ spineIds leaves spines =
        done ×ˢ spineIds leaves spines ++ (spineIds leaves spines).map (leaf, ·) := by
      simp [SProd.sprod, List.product]
    rw [grown]
    exact stage'

theorem stage_trunks {leaves spines : Nat}
    (stage : Stage nicsPerLeaf gpusPerNic { wholeRacks nicsPerLeaf gpusPerNic leaves with
      spines := spines } g)
    (few : 2 * (leaves * nicsPerLeaf * gpusPerNic + leaves * nicsPerLeaf + leaves * spines) ≤
      maxU64) :
    wp ((leafIds leaves).forM fun leaf => (spineIds leaves spines).forM fun spine => do
        let _ ← connectFabric (.ofSwitch leaf) .fabricUplink (.ofSwitch spine) .fabricDownlink)
      (fun _ g' => Stage nicsPerLeaf gpusPerNic { wholeRacks nicsPerLeaf gpusPerNic leaves with
        spines := spines, trunks := leafIds leaves ×ˢ spineIds leaves spines } g')
      (fun _ _ => False) g := by
  refine wp_mono (wp_forM (fun rest g => ∃ done, done ++ rest = leafIds leaves ∧
    Stage nicsPerLeaf gpusPerNic { wholeRacks nicsPerLeaf gpusPerNic leaves with
      spines := spines, trunks := done ×ˢ spineIds leaves spines } g) _ _ ?_ _ _
      ⟨[], rfl, stage⟩) ?_ (fun _ _ none => none)
  · rintro leaf rest g ⟨done, order, stage⟩
    refine wp_mono (stage_leafTrunks order stage few) ?_ (fun _ _ none => none)
    intro _ g' stage'
    exact ⟨done ++ [leaf], by simpa using order, stage'⟩
  · rintro _ g' ⟨done, order, stage'⟩
    rw [List.append_nil] at order
    subst order
    exact stage'

theorem buildLeafSpine_stage (config : LeafSpineConfig) (positive : 0 < config.gpusPerNic)
    (nicsPositive : 0 < config.nicsPerLeaf) (leavesPositive : 0 < config.leafCount)
    (few : 2 * (config.leafCount * config.nicsPerLeaf * config.gpusPerNic +
      config.leafCount * config.nicsPerLeaf + config.leafCount * config.spineCount) ≤ maxU64) :
    wp (buildLeafSpine config) (fun _ g => Stage config.nicsPerLeaf config.gpusPerNic
      { wholeRacks config.nicsPerLeaf config.gpusPerNic config.leafCount with
        spines := config.spineCount
        trunks := leafIds config.leafCount ×ˢ spineIds config.leafCount config.spineCount } g)
      (fun _ _ => False) {} := by
  have leavesFew : config.leafCount ≤ config.leafCount * config.nicsPerLeaf :=
    Nat.le_mul_of_pos_right _ nicsPositive
  have spinesFew : config.spineCount ≤ config.leafCount * config.spineCount :=
    Nat.le_mul_of_pos_left _ leavesPositive
  have start : Stage config.nicsPerLeaf config.gpusPerNic {} {} :=
    ⟨.empty, ready_empty, reached_empty⟩
  simp only [buildLeafSpine, wp_bind]
  refine wp_mono (stage_leaves positive nicsPositive start (by omega)) ?_ (fun _ _ none => none)
  rintro leaves g ⟨rfl, stage⟩
  refine wp_mono (stage_spines stage (by omega)) ?_ (fun _ _ none => none)
  rintro spines g ⟨rfl, stage⟩
  exact stage_trunks stage few

end Racks

/-! ## The whole generator -/

theorem checkedAdd_of {topologyName : String} {left right : Nat} (fits : left + right ≤ maxU64) :
    checkedAdd topologyName left right = .ok (left + right) := by
  unfold checkedAdd
  rw [if_neg (by omega)]

theorem checkedMultiply_of {topologyName : String} {left right : Nat}
    (fits : left * right ≤ maxU64) :
    checkedMultiply topologyName left right = .ok (left * right) := by
  unfold checkedMultiply
  rw [if_neg]
  rintro ⟨nonzero, large⟩
  rw [gt_iff_lt, Nat.div_lt_iff_lt_mul (Nat.pos_of_ne_zero nonzero), Nat.mul_comm] at large
  omega

theorem requirePositive_of {topologyName fieldName : String} {value : Nat} (positive : 0 < value) :
    requirePositive topologyName fieldName value = .ok () := by
  unfold requirePositive
  rw [if_neg (by omega)]

/-- Dimensions that were accepted once are accepted again. -/
theorem validateLeafSpineConfig_of {c : ClosShape} {dimensions : ClosDimensions}
    (of : dimensions.Of c) :
    validateLeafSpineConfig ⟨c.leaves, c.nicsPerLeaf, c.gpusPerNic, c.spines⟩ = .ok () := by
  have links := of.linkCount
  have ports := of.portCount
  have bounded := of.bounded
  have leavesFew : c.leaves ≤ c.leaves * c.nicsPerLeaf := Nat.le_mul_of_pos_right _ of.nicsPerLeaf
  have spinesFew : c.spines ≤ c.leaves * c.spines := Nat.le_mul_of_pos_left _ of.leaves
  simp only [validateLeafSpineConfig, requirePositive_of of.leaves, requirePositive_of of.nicsPerLeaf,
    requirePositive_of of.gpusPerNic, requirePositive_of of.spines, ok_bind]
  rw [checkedMultiply_of (by omega), ok_bind, checkedMultiply_of (by omega), ok_bind,
    checkedMultiply_of (by omega), ok_bind, checkedAdd_of (by omega), ok_bind,
    checkedAdd_of (by omega), ok_bind, checkedAdd_of (by omega), ok_bind,
    checkedMultiply_of (by omega), ok_bind]
  rfl

/-- The generator does not throw, and reaches the end of its loops. -/
theorem generateClos_stage {config : ClosConfig} {dimensions : ClosDimensions}
    (accepted : closDimensions config = .ok dimensions) :
    ∃ g, generateClos config = .ok g ∧ Stage config.nicsPerLeaf config.gpusPerNic
      { wholeRacks config.nicsPerLeaf config.gpusPerNic config.shape.leaves with
        spines := config.spineCount
        trunks := leafIds config.shape.leaves ×ˢ spineIds config.shape.leaves config.spineCount }
      g := by
  have of := closDimensions_ok accepted
  have bounded : 2 * dimensions.linkCount ≤ maxU64 := of.portCount ▸ of.bounded
  rw [of.linkCount] at bounded
  have built := buildLeafSpine_stage
    ⟨config.shape.leaves, config.nicsPerLeaf, config.gpusPerNic, config.spineCount⟩ of.gpusPerNic of.nicsPerLeaf of.leaves bounded
  have valid := validateLeafSpineConfig_of of
  have spineCount := of.spineCount
  unfold wp at built
  simp only [generateClos, accepted, ok_bind, generateLeafSpine, of.leafCount]
  rw [spineCount, show config.nicsPerLeaf = config.shape.nicsPerLeaf from rfl,
    show config.gpusPerNic = config.shape.gpusPerNic from rfl, valid, ok_bind]
  cases run : buildLeafSpine ⟨config.shape.leaves, config.nicsPerLeaf, config.gpusPerNic,
      config.spineCount⟩ {} with
  | ok u g =>
    rw [run] at built
    refine ⟨g, ?_, built⟩
    rw [show config.shape.nicsPerLeaf = config.nicsPerLeaf from rfl,
      show config.shape.gpusPerNic = config.gpusPerNic from rfl,
      show config.shape.spines = config.spineCount from rfl, run]
  | error e g =>
    rw [run] at built
    exact built.elim

/-- What the generator was at when it ended, by coordinates. -/
def finished (c : ClosShape) : Progress :=
  { wholeRacks c.nicsPerLeaf c.gpusPerNic c.leaves with
    spines := c.spines, trunks := leafIds c.leaves ×ˢ spineIds c.leaves c.spines }

section Finished

variable {c : ClosShape} {g : TopologyGraph}

theorem nic_lt (l : Fin c.leaves) (n : Fin c.nicsPerLeaf) :
    l * c.nicsPerLeaf + n < c.leaves * c.nicsPerLeaf := by
  have upTo := Nat.mul_le_mul_right c.nicsPerLeaf (Nat.succ_le_of_lt l.2)
  rw [Nat.succ_mul] at upTo
  have small := n.2
  omega

theorem gpu_lt (l : Fin c.leaves) (n : Fin c.nicsPerLeaf) (k : Fin c.gpusPerNic) :
    (l * c.nicsPerLeaf + n) * c.gpusPerNic + k < c.leaves * c.nicsPerLeaf * c.gpusPerNic := by
  have upTo := Nat.mul_le_mul_right c.gpusPerNic (Nat.succ_le_of_lt (nic_lt l n))
  rw [Nat.succ_mul] at upTo
  have small := k.2
  omega

theorem div_place {a n b : Nat} (less : b < n) : (a * n + b) / n = a := by
  rw [Nat.add_comm, Nat.add_mul_div_right _ _ (by omega), Nat.div_eq_of_lt less, Nat.zero_add]

/-- Everything stands at the place that its number says. -/
def Stage.places (stage : Stage c.nicsPerLeaf c.gpusPerNic (finished c) g) : ClosPlaces c g where
  leafOf l := ⟨l⟩
  nicOf l n := ⟨l * c.nicsPerLeaf + n⟩
  gpuOf l n k := ⟨(l * c.nicsPerLeaf + n) * c.gpusPerNic + k⟩
  spineOf s := ⟨c.leaves + s⟩
  nic_injective l n n' same := by
    simp only [StrongId.mk.injEq] at same
    omega
  gpu_injective l n k k' same := by
    simp only [StrongId.mk.injEq] at same
    omega
  spine_injective s s' same := by
    simp only [StrongId.mk.injEq] at same
    omega
  leaf l := by
    rw [stage.reached.switches, List.getElem?_append_left (by simp [finished, wholeRacks])]
    simp [finished, wholeRacks]
  nic l n := by
    simp [stage.reached.nics, finished, wholeRacks, nic_lt, div_place]
  gpu l n k := by
    simp [stage.reached.gpus, finished, wholeRacks, gpu_lt, div_place]
  spine s := by
    rw [stage.reached.switches, List.getElem?_append_right (by simp [finished, wholeRacks])]
    simp [finished, wholeRacks]
  uplink l n := by
    obtain ⟨j, joins⟩ := stage.reached.uplinked (l * c.nicsPerLeaf + n) (nic_lt l n)
    rw [div_place n.2] at joins
    exact ⟨j, joins⟩
  trunk l s := by
    refine stage.reached.trunked (⟨l⟩, ⟨c.leaves + s⟩) ?_
    refine List.pair_mem_product.mpr ⟨mem_leafIds.mpr l.2, mem_spineIds.mpr ?_⟩
    have small := s.2
    simp only
    omega

theorem Stage.counts (stage : Stage c.nicsPerLeaf c.gpusPerNic (finished c) g) :
    ClosCounts c g := by
  obtain ⟨racks, nics, gpus, switches, _⟩ := stage.lengths
  refine ⟨gpus, nics, racks, switches, ?_⟩
  have links := stage.reached.owners
  rw [stage.built.canonical.pairs_outline] at links
  have half : g.links.length = (finished c).links := by omega
  rw [half]
  simp [finished, wholeRacks, Progress.links, leafIds, spineIds, List.length_product]

theorem Stage.frame (stage : Stage c.nicsPerLeaf c.gpusPerNic (finished c) g) :
    Nonempty (ClosFrame c g.outline) :=
  stage.places.frame stage.built.canonical stage.built.attached stage.counts

end Finished

/-- A configuration whose dimensions were accepted is built with the entities they count, the GPUs
and the NICs in a row over the NICs and the racks, and the validator accepts what was built.  The
lists of the model have no bound, where a vector that is to be huge fails to reserve its memory. -/
theorem clos_generator {config : ClosConfig} {dimensions : ClosDimensions}
    (accepted : closDimensions config = .ok dimensions) :
    ∃ g, generateClos config = .ok g ∧ g.Built ∧ validateClosTopology g config = .ok [] ∧
      g.gpus.length = dimensions.gpuCount ∧ g.nics.length = dimensions.nicCount ∧
      g.racks.length = dimensions.rackCount ∧ g.switches.length = dimensions.switchCount ∧
      g.links.length = dimensions.linkCount ∧ g.ports.length = dimensions.portCount ∧
      (∀ gpu ∈ g.gpus, gpu.attachedNic.value = gpu.id.value / config.gpusPerNic) ∧
      (∀ nic ∈ g.nics, nic.rack.value = nic.id.value / config.nicsPerLeaf) ∧
      ∀ s ∈ g.switches, s.role = .leaf ∧ s.rack = some ⟨s.id.value⟩ ∧
          s.id.value < dimensions.leafCount ∨
        s.role = .spine ∧ s.rack = none ∧ dimensions.leafCount ≤ s.id.value := by
  have of := closDimensions_ok accepted
  obtain ⟨g, generated, stage⟩ := generateClos_stage accepted
  have stage : Stage config.shape.nicsPerLeaf config.shape.gpusPerNic (finished config.shape) g :=
    stage
  have canonical := stage.built.canonical
  have counts := stage.counts
  refine ⟨g, generated, stage.built, ?_, counts.gpuCount.trans of.gpuCount.symm,
    counts.nicCount.trans of.nicCount.symm, counts.rackCount.trans of.rackCount.symm,
    counts.switchCount.trans of.switchCount.symm, counts.linkCount.trans of.linkCount.symm, ?_, ?_,
    ?_, ?_⟩
  · exact (validateClosTopology_iff stage.built accepted).mpr stage.frame
  · have pairs := canonical.pairs
    have links := counts.linkCount
    rw [of.portCount, of.linkCount]
    omega
  -- the GPUs are listed in a row over the NICs, and the NICs over the racks
  · intro gpu member
    have found := canonical.aligned.gpus.mem member
    have listed : g.outline.gpus[gpu.id.value]? = some (gpu.rack, gpu.attachedNic) := by
      simp [outline, found]
    rw [stage.reached.gpus, List.getElem?_map, Option.map_eq_some_iff] at listed
    obtain ⟨i, isHere, same⟩ := listed
    obtain ⟨_, rfl⟩ := List.getElem?_eq_some_iff.mp isHere
    simp only [List.getElem_range, Prod.mk.injEq] at same
    rw [← same.2]
    rfl
  · intro nic member
    have found := canonical.aligned.nics.mem member
    have listed : g.outline.nics[nic.id.value]? = some nic.rack := by
      simp [outline, found]
    rw [stage.reached.nics, List.getElem?_map, Option.map_eq_some_iff] at listed
    obtain ⟨i, isHere, same⟩ := listed
    obtain ⟨_, rfl⟩ := List.getElem?_eq_some_iff.mp isHere
    rw [List.getElem_range] at same
    rw [← same]
    rfl
  · intro s member
    have found := canonical.aligned.switches.mem member
    have listed : g.outline.switches[s.id.value]? = some (s.role, s.rack) := by
      simp [outline, found]
    rw [stage.reached.switches] at listed
    rw [of.leafCount]
    -- the leaves come before the spines
    by_cases small : s.id.value < config.shape.leaves
    · rw [List.getElem?_append_left (by simpa [finished, wholeRacks] using small),
        List.getElem?_map, Option.map_eq_some_iff] at listed
      obtain ⟨i, isHere, same⟩ := listed
      obtain ⟨_, rfl⟩ := List.getElem?_eq_some_iff.mp isHere
      simp only [List.getElem_range, Prod.mk.injEq] at same
      exact .inl ⟨same.1.symm, same.2.symm, small⟩
    · rw [List.getElem?_append_right (by simpa [finished, wholeRacks] using small)] at listed
      obtain ⟨_, same⟩ := List.mem_replicate.mp (List.mem_of_getElem? listed)
      rw [Prod.mk.injEq] at same
      exact .inr ⟨same.1, same.2, Nat.le_of_not_lt small⟩

theorem clos_generator_two :
    closDimensions ⟨4, 2, 1, 2⟩ = .ok ⟨4, 2, 2, 2, 2, 4, 20, 10⟩ ∧
      ∃ g, generateClos ⟨4, 2, 1, 2⟩ = .ok g ∧ validateClosTopology g ⟨4, 2, 1, 2⟩ = .ok [] ∧
        g.links.length = 10 := by
  have accepted : closDimensions ⟨4, 2, 1, 2⟩ = .ok ⟨4, 2, 2, 2, 2, 4, 20, 10⟩ := by decide
  obtain ⟨g, generated, _, valid, _, _, _, _, links, _⟩ := clos_generator accepted
  exact ⟨accepted, g, generated, valid, links⟩

end NexusLab.Topology
