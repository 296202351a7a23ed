import NexusLab.Topology.Structure

/-! # Graphs that were built

`Built` are the graphs one can obtain: from the empty graph by the builders and the state changes,
throws included.  Every such graph is `Canonical`: an entity stands where its identifier points, the
ports come in pairs, one pair for each link, and every list that an entity or a node keeps of others
is what one reads off the entities themselves, in the order of their identifiers. -/

namespace NexusLab.Topology

open Foundation

/-! ## Entities at their index -/

section Dense

variable {ε Tag α : Type} {idOf : ε → StrongId Tag} {entities more : List ε} {entity : ε}
  {belongs : ε → Prop} [DecidablePred belongs]

/-- Every entity stands where its identifier points. -/
def Dense (idOf : ε → StrongId Tag) (entities : List ε) : Prop :=
  ∀ i entity, entities[i]? = some entity → (idOf entity).value = i

theorem Dense.find (dense : Dense idOf entities) (id : StrongId Tag) :
    findDense idOf entities id = entities[id.value]? := by
  unfold findDense
  cases found : entities[id.value]? with
  | none => rfl
  | some entity =>
    have same : idOf entity = id := by
      have value := dense _ entity found
      cases here : idOf entity
      cases id
      simp_all
    simp [same]

theorem Dense.append (dense : Dense idOf entities) (at_end : (idOf entity).value = entities.length) :
    Dense idOf (entities ++ [entity]) := by
  intro i other found
  by_cases old : i < entities.length
  · rw [List.getElem?_append_left old] at found
    exact dense i other found
  · rw [List.getElem?_append_right (not_lt.mp old)] at found
    obtain ⟨small, same⟩ := List.getElem?_eq_some_iff.mp found
    have here : i = entities.length := by
      simp at small
      omega
    subst here
    simp at same
    rw [← same, at_end]

theorem Dense.append_pair (dense : Dense idOf entities) {second : ε}
    (at_end : (idOf entity).value = entities.length)
    (after : (idOf second).value = entities.length + 1) :
    Dense idOf (entities ++ [entity, second]) := by
  have pair := (dense.append at_end).append (by simpa using after)
  rwa [List.append_assoc] at pair

theorem Dense.modify (dense : Dense idOf entities) {f : ε → ε}
    (keeps : ∀ entity, idOf (f entity) = idOf entity) (index : Nat) :
    Dense idOf (entities.modify index f) := by
  intro i other found
  rw [List.getElem?_modify] at found
  cases here : entities[i]? with
  | none => simp [here] at found
  | some entity =>
    rw [here] at found
    have old := dense i entity here
    by_cases same : index = i
    · simp [same] at found
      rw [← found, keeps, old]
    · simp [same] at found
      rw [← found, old]

theorem Dense.mem (dense : Dense idOf entities) (member : entity ∈ entities) :
    entities[(idOf entity).value]? = some entity := by
  obtain ⟨i, found⟩ := List.mem_iff_getElem?.mp member
  rwa [dense i entity found]

/-- The entities after a change to the one with a certain identifier. -/
theorem Dense.mem_modify (dense : Dense idOf entities) {f : ε → ε} {id : StrongId Tag}
    (member : entity ∈ entities.modify id.value f) :
    ∃ old ∈ entities, entity = if id = idOf old then f old else old := by
  obtain ⟨i, found⟩ := List.mem_iff_getElem?.mp member
  rw [List.getElem?_modify] at found
  cases here : entities[i]? with
  | none => simp [here] at found
  | some old =>
    have value := dense i old here
    refine ⟨old, List.mem_of_getElem? here, ?_⟩
    rw [here] at found
    by_cases same : id = idOf old
    · have index : id.value = i := by rw [same, value]
      simp [index] at found
      rw [if_pos same]
      exact found.symm
    · have index : id.value ≠ i := by
        rw [← value]
        exact fun h => same (StrongId.value_injective h)
      simp [index] at found
      rw [if_neg same]
      exact found.symm

/-- A change to the entity with a certain identifier is a change to those entities that have it. -/
theorem Dense.modify_eq_map (dense : Dense idOf entities) (f : ε → ε) (id : StrongId Tag) :
    entities.modify id.value f = entities.map fun e => if id = idOf e then f e else e := by
  apply List.ext_getElem?
  intro i
  rw [List.getElem?_modify, List.getElem?_map]
  cases here : entities[i]? with
  | none => rfl
  | some found =>
    have value := dense i found here
    have same : id.value = i ↔ id = idOf found := by
      rw [← value]
      exact StrongId.value_injective.eq_iff
    simp [same]

theorem Dense.map (dense : Dense idOf entities) {f : ε → ε}
    (keeps : ∀ entity, idOf (f entity) = idOf entity) : Dense idOf (entities.map f) := by
  intro i found isFound
  rw [List.getElem?_map] at isFound
  obtain ⟨old, isOld, rfl⟩ := Option.map_eq_some_iff.mp isFound
  rw [keeps]
  exact dense i old isOld

theorem exists_modify {f : ε → ε} {index position : Nat} (found : entities[position]? = some entity) :
    ∃ new, (entities.modify index f)[position]? = some new ∧ (new = entity ∨ new = f entity) := by
  rw [List.getElem?_modify, found]
  by_cases here : index = position
  · exact ⟨f entity, by simp [here], .inr rfl⟩
  · exact ⟨entity, by simp [here], .inl rfl⟩

theorem Dense.nodup (dense : Dense idOf entities) : (entities.map idOf).Nodup := by
  rw [List.nodup_iff_injective_getElem]
  intro i j same
  simp only [List.getElem_map] at same
  have left := dense i.1 _ (List.getElem?_eq_getElem (by simpa using i.2))
  have right := dense j.1 _ (List.getElem?_eq_getElem (by simpa using j.2))
  apply Fin.ext
  rw [← left, ← right, same]

/-- The identifiers of those entities that belong, in their order. -/
def listed (belongs : ε → Prop) [DecidablePred belongs] (idOf : ε → StrongId Tag)
    (entities : List ε) : List (StrongId Tag) :=
  entities.filterMap fun entity => if belongs entity then some (idOf entity) else none

@[simp] theorem listed_nil : listed belongs idOf ([] : List ε) = [] := rfl

@[simp] theorem listed_append :
    listed belongs idOf (entities ++ more) =
      listed belongs idOf entities ++ listed belongs idOf more := by
  simp [listed]

@[simp] theorem listed_singleton :
    listed belongs idOf [entity] = if belongs entity then [idOf entity] else [] := by
  unfold listed
  by_cases h : belongs entity <;> simp [h]

theorem mem_listed {id : StrongId Tag} :
    id ∈ listed belongs idOf entities ↔ ∃ entity ∈ entities, belongs entity ∧ idOf entity = id := by
  simp [listed]

theorem filterMap_modify {f : ε → ε} {view : ε → Option α} (keeps : ∀ entity, view (f entity) = view entity)
    (index : Nat) : (entities.modify index f).filterMap view = entities.filterMap view := by
  induction entities generalizing index with
  | nil => cases index <;> rfl
  | cons head tail ih =>
    cases index with
    | zero => simp [List.filterMap_cons, keeps]
    | succ index => simp [List.filterMap_cons, ih]

theorem listed_modify {f : ε → ε} (sameId : ∀ entity, idOf (f entity) = idOf entity)
    (sameHome : ∀ entity, belongs (f entity) ↔ belongs entity) (index : Nat) :
    listed belongs idOf (entities.modify index f) = listed belongs idOf entities := by
  refine filterMap_modify (fun entity => ?_) index
  simp only [sameHome, sameId]

theorem listed_map {f : ε → ε} (sameId : ∀ entity, idOf (f entity) = idOf entity)
    (sameHome : ∀ entity, belongs (f entity) ↔ belongs entity) :
    listed belongs idOf (entities.map f) = listed belongs idOf entities := by
  unfold listed
  rw [List.filterMap_map]
  congr 1
  funext entity
  simp only [Function.comp, sameHome, sameId]

theorem listed_sublist : List.Sublist (listed belongs idOf entities) (entities.map idOf) := by
  induction entities with
  | nil => exact .slnil
  | cons head tail ih =>
    unfold listed at ih ⊢
    by_cases h : belongs head
    · simp only [List.filterMap_cons, h, if_true, List.map_cons]
      exact ih.cons_cons _
    · simp only [List.filterMap_cons, h, if_false, List.map_cons]
      exact ih.cons _

theorem Dense.listed_nodup (dense : Dense idOf entities) : (listed belongs idOf entities).Nodup :=
  dense.nodup.sublist listed_sublist

/-- An entity that belongs is listed once. -/
theorem Dense.count_listed [DecidableEq (StrongId Tag)] (dense : Dense idOf entities)
    (member : entity ∈ entities) (here : belongs entity) :
    (listed belongs idOf entities).count (idOf entity) = 1 :=
  List.count_eq_one_of_mem dense.listed_nodup (mem_listed.mpr ⟨entity, member, here, rfl⟩)

end Dense

theorem NodeId.ofGpu_inj {a b : GpuId} : NodeId.ofGpu a = NodeId.ofGpu b ↔ a = b := by
  cases a
  cases b
  simp [NodeId.ofGpu]

theorem NodeId.ofNic_inj {a b : NicId} : NodeId.ofNic a = NodeId.ofNic b ↔ a = b := by
  cases a
  cases b
  simp [NodeId.ofNic]

theorem NodeId.ofSwitch_inj {a b : SwitchId} : NodeId.ofSwitch a = NodeId.ofSwitch b ↔ a = b := by
  cases a
  cases b
  simp [NodeId.ofSwitch]

/-! ## Canonical graphs -/

namespace TopologyGraph

/-- The arcs of a node, as stored. -/
def arcsOf (g : TopologyGraph) (node : NodeId) : List DirectedLink :=
  match node.kind with
  | .gpu => g.gpuAdjacency[node.value]?.getD []
  | .nic => g.nicAdjacency[node.value]?.getD []
  | .switch => g.switchAdjacency[node.value]?.getD []

/-- How many nodes there are of a kind. -/
def count (g : TopologyGraph) : NodeKind → Nat
  | .gpu => g.gpus.length
  | .nic => g.nics.length
  | .switch => g.switches.length

def portsOwned (g : TopologyGraph) (node : NodeId) : List PortId :=
  listed (fun port : Port => port.owner = node) Port.id g.ports

def gpusOfRack (g : TopologyGraph) (rack : RackId) : List GpuId :=
  listed (fun gpu : GpuWorker => gpu.rack = rack) GpuWorker.id g.gpus

def nicsOfRack (g : TopologyGraph) (rack : RackId) : List NicId :=
  listed (fun nic : Nic => nic.rack = rack) Nic.id g.nics

def leavesOfRack (g : TopologyGraph) (rack : RackId) : List SwitchId :=
  listed (fun s : Switch => s.rack = some rack) Switch.id g.switches

def gpusOfNic (g : TopologyGraph) (nic : NicId) : List GpuId :=
  listed (fun gpu : GpuWorker => gpu.attachedNic = nic) GpuWorker.id g.gpus

/-- The owner of the port at an index. -/
def ownerAt (g : TopologyGraph) (index : Nat) : Option NodeId := g.ports[index]?.map Port.owner

/-- The directions of the links that start at a node, in the order of the links. -/
def arcsFrom (g : TopologyGraph) (node : NodeId) : List DirectedLink :=
  (g.links.flatMap directedLinks).filter fun arc => g.ownerAt arc.source.value = some node

/-- What kind of link may join two ports. -/
def Joins (kind : LinkKind) (a b : Port) : Prop :=
  a.owner ≠ b.owner ∧
    (kind = .localAttachment ∧ a.owner.kind = .gpu ∧ b.owner.kind = .nic ∧ a.role = .local ∧
        b.role = .local ∨
      kind = .fabric ∧ a.owner.kind ≠ .gpu ∧ b.owner.kind ≠ .gpu ∧ a.role ≠ .local ∧
        b.role ≠ .local)

/-- The links at two indices join the same nodes. -/
def SameEnds (g : TopologyGraph) (i j : Nat) : Prop :=
  g.ownerAt (2 * i) = g.ownerAt (2 * j) ∧ g.ownerAt (2 * i + 1) = g.ownerAt (2 * j + 1) ∨
    g.ownerAt (2 * i) = g.ownerAt (2 * j + 1) ∧ g.ownerAt (2 * i + 1) = g.ownerAt (2 * j)

/-- The entities stand where their identifiers point, and the generators are in step with them.
Once links or ports have run out, none can be added, whatever the other generators say. -/
structure Aligned (g : TopologyGraph) : Prop where
  gpus : Dense GpuWorker.id g.gpus
  nics : Dense Nic.id g.nics
  switches : Dense Switch.id g.switches
  racks : Dense Rack.id g.racks
  ports : Dense Port.id g.ports
  links : Dense PhysicalLink.id g.links
  gpuIds : g.linkIds.exhausted = true ∨ g.portIds.exhausted = true ∨ g.gpuIds.At g.gpus.length
  nicIds : g.nicIds.At g.nics.length
  switchIds : g.switchIds.At g.switches.length
  rackIds : g.rackIds.At g.racks.length
  portIds : g.linkIds.exhausted = true ∨ g.portIds.At g.ports.length
  linkIds : g.linkIds.At g.links.length
  gpuLists : g.gpuAdjacency.length = g.gpus.length
  nicLists : g.nicAdjacency.length = g.nics.length
  switchLists : g.switchAdjacency.length = g.switches.length

/-- What the entities say about each other. -/
structure Canonical (g : TopologyGraph) : Prop where
  aligned : Aligned g
  racks : ∀ rack ∈ g.racks, rack.gpus = g.gpusOfRack rack.id ∧ rack.nics = g.nicsOfRack rack.id ∧
    rack.leafSwitches = g.leavesOfRack rack.id
  nics : ∀ nic ∈ g.nics, nic.rack.value < g.racks.length ∧
    nic.attachedGpus = g.gpusOfNic nic.id ∧ nic.ports = g.portsOwned (.ofNic nic.id)
  gpus : ∀ gpu ∈ g.gpus, (∃ nic, g.nics[gpu.attachedNic.value]? = some nic ∧ gpu.rack = nic.rack) ∧
    g.portsOwned (.ofGpu gpu.id) = [gpu.port]
  switches : ∀ s ∈ g.switches, s.ports = g.portsOwned (.ofSwitch s.id) ∧
    (s.role = .leaf ∧ (∃ rack, s.rack = some rack ∧ rack.value < g.racks.length) ∨
      s.role = .spine ∧ s.rack = none)
  owners : ∀ port ∈ g.ports, port.owner.value < g.count port.owner.kind
  gpuPorts : ∀ port ∈ g.ports, port.owner.kind = .gpu → port.role = .local
  pairs : g.ports.length = 2 * g.links.length
  links : ∀ i link, g.links[i]? = some link → ∃ a b, g.ports[2 * i]? = some a ∧
    g.ports[2 * i + 1]? = some b ∧ link.endpointA = a.id ∧ link.endpointB = b.id ∧
    Joins link.kind a b
  simple : ∀ i j, i < j → j < g.links.length → ¬ g.SameEnds i j
  arcs : ∀ node, node.value < g.count node.kind → g.arcsOf node = g.arcsFrom node

theorem aligned_empty : Aligned {} := by
  constructor <;> first
    | (intro i entity found; simp at found)
    | exact .inr rfl
    | exact .inr (.inr rfl)
    | exact .inr (.inr (.inr rfl))
    | rfl

theorem canonical_empty : Canonical {} where
  aligned := aligned_empty
  racks := by simp
  nics := by simp
  gpus := by simp
  switches := by simp
  owners := by simp
  gpuPorts := by simp
  pairs := rfl
  links := by simp
  simple := by simp
  arcs node small := by
    cases kind : node.kind <;> simp [kind, count] at small

/-! ## Builders -/

section Builders

variable {g : TopologyGraph}

theorem wp_nextId {generator : TopologyGraph → IdGenerator}
    {store : IdGenerator → TopologyGraph → TopologyGraph} {Q : Nat → TopologyGraph → Prop}
    {E : Error → TopologyGraph → Prop}
    (returns : ∀ value ids, (generator g).exhausted = false →
      (∀ count, (generator g).At count → value = count ∧ ids.At (count + 1)) →
      Q value (store ids g))
    (throws : ∀ e, (generator g).exhausted = true → E e g) : wp (nextId generator store) Q E g := by
  simp only [nextId, wp_bind, wp_get, wp_fromExcept, wp_modify, wp_pure]
  constructor
  · intro drawn isDrawn
    apply returns drawn.1 drawn.2
    · cases exhausted : (generator g).exhausted with
      | false => rfl
      | true => simp [IdGenerator.next, exhausted] at isDrawn
    · intro count here
      exact IdGenerator.next_at here isDrawn
  · intro e thrown
    exact throws e (IdGenerator.exhausted_of_next thrown)

/-- A throw of a builder leaves the graph canonical, too. -/
def Builds {α : Type} (m : Action TopologyGraph α) (g : TopologyGraph) : Prop :=
  wp m (fun _ g' => Canonical g') (fun _ g' => Canonical g') g

theorem Canonical.rack_lt (canonical : Canonical g) {gpu : GpuWorker} (member : gpu ∈ g.gpus) :
    gpu.rack.value < g.racks.length := by
  obtain ⟨nic, found, same⟩ := (canonical.gpus gpu member).1
  rw [same]
  exact (canonical.nics nic (List.mem_of_getElem? found)).1

theorem Canonical.nic_lt (canonical : Canonical g) {gpu : GpuWorker} (member : gpu ∈ g.gpus) :
    gpu.attachedNic.value < g.nics.length := by
  obtain ⟨nic, found, _⟩ := (canonical.gpus gpu member).1
  exact (List.getElem?_eq_some_iff.mp found).1

theorem listed_eq_nil {ε Tag : Type} {idOf : ε → StrongId Tag} {entities : List ε}
    {belongs : ε → Prop} [DecidablePred belongs] (none_belongs : ∀ entity ∈ entities, ¬ belongs entity) :
    listed belongs idOf entities = [] := by
  rw [List.eq_nil_iff_forall_not_mem]
  intro id member
  obtain ⟨entity, isMember, here, _⟩ := mem_listed.mp member
  exact none_belongs entity isMember here

theorem builds_addRack (canonical : Canonical g) : Builds addRack g := by
  unfold Builds addRack nextRackId
  rw [wp_bind]
  refine wp_nextId (fun id ids _ drawn => ?_) (fun _ _ => canonical)
  simp only [wp_bind, wp_modify, wp_pure]
  obtain ⟨rfl, next⟩ := drawn _ canonical.aligned.rackIds
  -- nothing names the new rack yet, so its lists are empty
  have fresh_nic : ∀ nic ∈ g.nics, nic.rack ≠ ⟨g.racks.length⟩ := by
    intro nic member same
    have small := (canonical.nics nic member).1
    simp [same] at small
  have fresh_gpu : ∀ gpu ∈ g.gpus, gpu.rack ≠ ⟨g.racks.length⟩ := by
    intro gpu member same
    have small := canonical.rack_lt member
    simp [same] at small
  have fresh_switch : ∀ s ∈ g.switches, s.rack ≠ some ⟨g.racks.length⟩ := by
    intro s member same
    cases (canonical.switches s member).2 with
    | inl leaf =>
      obtain ⟨_, rack, isRack, small⟩ := leaf
      rw [same] at isRack
      cases isRack
      simp at small
    | inr spine => simp [same] at spine
  constructor
  · exact { canonical.aligned with
      racks := canonical.aligned.racks.append rfl
      rackIds := by simpa using next }
  · intro rack member
    rw [List.mem_append, List.mem_singleton] at member
    cases member with
    | inl old => exact canonical.racks rack old
    | inr new =>
      subst new
      exact ⟨(listed_eq_nil fresh_gpu).symm, (listed_eq_nil fresh_nic).symm,
        (listed_eq_nil fresh_switch).symm⟩
  · intro nic member
    obtain ⟨small, rest⟩ := canonical.nics nic member
    refine ⟨?_, rest⟩
    simp
    omega
  · exact canonical.gpus
  -- what is left only speaks of the old racks
  · intro s member
    obtain ⟨ports, home⟩ := canonical.switches s member
    refine ⟨ports, ?_⟩
    cases home with
    | inl leaf =>
      obtain ⟨role, rack, isRack, small⟩ := leaf
      refine .inl ⟨role, rack, isRack, ?_⟩
      simp
      omega
    | inr spine => exact .inr spine
  · exact canonical.owners
  · exact canonical.gpuPorts
  · exact canonical.pairs
  · exact canonical.links
  · exact canonical.simple
  · exact canonical.arcs

/-! A node that is not there yet owns nothing. -/

section Fresh

variable {node : NodeId}

theorem Canonical.owner_ne (canonical : Canonical g) (fresh : g.count node.kind ≤ node.value) :
    ∀ port ∈ g.ports, port.owner ≠ node := by
  intro port member same
  have small := canonical.owners port member
  rw [same] at small
  omega

theorem Canonical.portsOwned_fresh (canonical : Canonical g)
    (fresh : g.count node.kind ≤ node.value) : g.portsOwned node = [] :=
  listed_eq_nil (canonical.owner_ne fresh)

theorem Canonical.arcsFrom_fresh (canonical : Canonical g)
    (fresh : g.count node.kind ≤ node.value) : g.arcsFrom node = [] := by
  unfold arcsFrom ownerAt
  rw [List.filter_eq_nil_iff]
  intro arc _ owned
  simp only [decide_eq_true_eq, Option.map_eq_some_iff] at owned
  obtain ⟨port, found, owner⟩ := owned
  exact canonical.owner_ne fresh port (List.mem_of_getElem? found) owner

theorem Aligned.arcsOf_fresh (aligned : Aligned g) (fresh : g.count node.kind ≤ node.value) :
    g.arcsOf node = [] := by
  have gpus := aligned.gpuLists
  have nics := aligned.nicLists
  have switches := aligned.switchLists
  unfold arcsOf
  cases kind : node.kind <;> simp only [kind, count] at fresh ⊢
  all_goals
    rw [List.getElem?_eq_none (by omega)]
    rfl

theorem Canonical.arcs_eq (canonical : Canonical g) (node : NodeId) :
    g.arcsOf node = g.arcsFrom node := by
  by_cases known : node.value < g.count node.kind
  · exact canonical.arcs node known
  · rw [canonical.aligned.arcsOf_fresh (not_lt.mp known),
      canonical.arcsFrom_fresh (not_lt.mp known)]

theorem getD_append_nil {α : Type} (lists : List (List α)) (index : Nat) :
    (lists ++ [[]])[index]?.getD [] = lists[index]?.getD [] := by
  by_cases old : index < lists.length
  · rw [List.getElem?_append_left old]
  · rw [List.getElem?_append_right (not_lt.mp old), List.getElem?_eq_none (not_lt.mp old)]
    cases index - lists.length <;> simp

end Fresh

theorem Canonical.findRack (canonical : Canonical g) {rack : RackId} (known : g.findRack rack ≠ none) :
    rack.value < g.racks.length := by
  unfold TopologyGraph.findRack at known
  rw [canonical.aligned.racks.find] at known
  by_contra large
  exact known (List.getElem?_eq_none (not_lt.mp large))

theorem builds_addNic (canonical : Canonical g) (rack : RackId) : Builds (addNic rack) g := by
  simp only [Builds, addNic, nextNicId, wp_bind, wp_get, wp_throwIf]
  refine ⟨fun _ => canonical, fun known => ?_⟩
  refine wp_nextId (fun id ids _ drawn => ?_) (fun _ _ => canonical)
  simp only [wp_modify, wp_pure]
  obtain ⟨rfl, next⟩ := drawn _ canonical.aligned.nicIds
  have known := canonical.findRack known
  have fresh_gpu : ∀ gpu ∈ g.gpus, gpu.attachedNic ≠ ⟨g.nics.length⟩ := by
    intro gpu member same
    have small := canonical.nic_lt member
    simp [same] at small
  constructor
  · exact { canonical.aligned with
      nics := canonical.aligned.nics.append rfl
      racks := by
        refine canonical.aligned.racks.modify ?_ _
        intro _
        rfl
      nicIds := by simpa using next
      rackIds := by simpa using canonical.aligned.rackIds
      nicLists := by simpa using canonical.aligned.nicLists }
  · intro found member
    obtain ⟨old, isOld, same⟩ := canonical.aligned.racks.mem_modify member
    obtain ⟨gpus, nics, leaves⟩ := canonical.racks old isOld
    unfold nicsOfRack gpusOfRack leavesOfRack at *
    by_cases here : rack = old.id
    · rw [if_pos here] at same
      subst same
      simp [gpus, nics, leaves, here]
    · rw [if_neg here] at same
      subst same
      simp [gpus, nics, leaves, here]
  · intro nic member
    rw [List.length_modify]
    rw [List.mem_append, List.mem_singleton] at member
    cases member with
    | inl old => exact canonical.nics nic old
    | inr new =>
      subst new
      refine ⟨known, (listed_eq_nil fresh_gpu).symm, (canonical.portsOwned_fresh ?_).symm⟩
      exact le_refl _
  · intro gpu member
    obtain ⟨⟨nic, found, same⟩, port⟩ := canonical.gpus gpu member
    refine ⟨⟨nic, ?_, same⟩, port⟩
    rw [List.getElem?_append_left (canonical.nic_lt member), found]
  · intro s member
    rw [List.length_modify]
    exact canonical.switches s member
  · intro port member
    have small := canonical.owners port member
    cases kind : port.owner.kind <;> simp only [kind, count] at small ⊢
    · exact small
    · simp
      omega
    · exact small
  · exact canonical.gpuPorts
  · exact canonical.pairs
  · exact canonical.links
  · exact canonical.simple
  · intro node _
    refine Eq.trans ?_ (canonical.arcs_eq node)
    unfold arcsOf
    cases node.kind <;> simp [getD_append_nil]

/-- Appending a switch, which nothing refers to yet. -/
theorem canonical_switch (canonical : Canonical g) {s : Switch} {racks : List Rack}
    {ids : IdGenerator} (isNew : s.id = ⟨g.switches.length⟩) (ports : s.ports = [])
    (home : s.role = .leaf ∧ (∃ rack, s.rack = some rack ∧ rack.value < g.racks.length) ∨
      s.role = .spine ∧ s.rack = none)
    (next : ids.At (g.switches.length + 1)) (sameLength : racks.length = g.racks.length)
    (dense : Dense Rack.id racks)
    (members : ∀ rack ∈ racks, rack.gpus = g.gpusOfRack rack.id ∧
      rack.nics = g.nicsOfRack rack.id ∧ rack.leafSwitches =
        g.leavesOfRack rack.id ++ if s.rack = some rack.id then [s.id] else []) :
    Canonical { g with
      switchIds := ids
      switches := g.switches ++ [s]
      switchAdjacency := g.switchAdjacency ++ [[]]
      racks } := by
  constructor
  · exact { canonical.aligned with
      switches := canonical.aligned.switches.append (by rw [isNew])
      racks := dense
      switchIds := by simpa using next
      rackIds := by simpa [sameLength] using canonical.aligned.rackIds
      switchLists := by simpa using canonical.aligned.switchLists }
  · intro rack member
    obtain ⟨gpus, nics, leaves⟩ := members rack member
    refine ⟨gpus, nics, ?_⟩
    rw [leaves]
    simp [leavesOfRack]
  · intro nic member
    simp only [sameLength]
    exact canonical.nics nic member
  · exact canonical.gpus
  · intro found member
    simp only [sameLength]
    rw [List.mem_append, List.mem_singleton] at member
    cases member with
    | inl old => exact canonical.switches found old
    | inr new =>
      subst new
      refine ⟨?_, home⟩
      rw [ports, isNew]
      exact (canonical.portsOwned_fresh (le_refl _)).symm
  · intro port member
    have small := canonical.owners port member
    cases kind : port.owner.kind <;> simp only [kind, count] at small ⊢
    · exact small
    · exact small
    · simp
      omega
  · exact canonical.gpuPorts
  · exact canonical.pairs
  · exact canonical.links
  · exact canonical.simple
  · intro node _
    refine Eq.trans ?_ (canonical.arcs_eq node)
    unfold arcsOf
    cases node.kind <;> simp [getD_append_nil]

theorem builds_addSpineSwitch (canonical : Canonical g) : Builds addSpineSwitch g := by
  simp only [Builds, addSpineSwitch, nextSwitchId, wp_bind]
  refine wp_nextId (fun id ids _ drawn => ?_) (fun _ _ => canonical)
  simp only [wp_modify, wp_pure]
  obtain ⟨rfl, next⟩ := drawn _ canonical.aligned.switchIds
  refine canonical_switch canonical rfl rfl (.inr ⟨rfl, rfl⟩) next rfl canonical.aligned.racks ?_
  intro rack member
  simpa using canonical.racks rack member

theorem builds_addLeafSwitch (canonical : Canonical g) (rack : RackId) :
    Builds (addLeafSwitch rack) g := by
  simp only [Builds, addLeafSwitch, nextSwitchId, wp_bind, wp_get, wp_throwIf]
  refine ⟨fun _ => canonical, fun known => ?_⟩
  refine wp_nextId (fun id ids _ drawn => ?_) (fun _ _ => canonical)
  simp only [wp_modify, wp_pure]
  obtain ⟨rfl, next⟩ := drawn _ canonical.aligned.switchIds
  have known := canonical.findRack known
  refine canonical_switch canonical rfl rfl (.inl ⟨rfl, rack, rfl, known⟩) next
    (List.length_modify ..) ?_ ?_
  · refine canonical.aligned.racks.modify ?_ _
    intro _
    rfl
  · intro found member
    obtain ⟨old, isOld, same⟩ := canonical.aligned.racks.mem_modify member
    obtain ⟨gpus, nics, leaves⟩ := canonical.racks old isOld
    by_cases here : rack = old.id
    · rw [if_pos here] at same
      subst same
      simp [gpus, nics, leaves, here]
    · rw [if_neg here] at same
      subst same
      simp [gpus, nics, leaves, here]

/-! ## A new link -/

section NewLink

variable {a b : NodeId} {link : PhysicalLink} {first second : Port}

/-- How many lists of arcs there are for a kind of node. -/
def lists (g : TopologyGraph) : NodeKind → Nat
  | .gpu => g.gpuAdjacency.length
  | .nic => g.nicAdjacency.length
  | .switch => g.switchAdjacency.length

theorem getElem?_modify_append {lists : List (List DirectedLink)} {arc : DirectedLink}
    {index position : Nat} (known : index < lists.length) :
    (lists.modify index (· ++ [arc]))[position]?.getD [] =
      lists[position]?.getD [] ++ if index = position then [arc] else [] := by
  rw [List.getElem?_modify]
  by_cases here : index = position
  · subst here
    rw [List.getElem?_eq_getElem known]
    simp
  · cases lists[position]? <;> simp [here]

theorem arcsOf_appendAdjacency {node : NodeId} {arc : DirectedLink}
    (known : a.value < g.lists a.kind) :
    (appendAdjacency a arc g).arcsOf node = g.arcsOf node ++ if a = node then [arc] else [] := by
  obtain ⟨kind, value⟩ := a
  obtain ⟨kind', value'⟩ := node
  unfold arcsOf appendAdjacency
  cases kind <;> cases kind' <;>
    simp only [lists, NodeId.mk.injEq, reduceCtorEq, false_and, true_and, if_false,
      List.append_nil] at known ⊢
  all_goals exact getElem?_modify_append known

theorem lists_appendAdjacency {kind : NodeKind} {arc : DirectedLink} :
    (appendAdjacency a arc g).lists kind = g.lists kind := by
  obtain ⟨kind', value⟩ := a
  unfold appendAdjacency
  cases kind' <;> cases kind <;> simp [lists]

theorem arcsOf_appendLink {node : NodeId} (known_a : a.value < g.lists a.kind)
    (known_b : b.value < g.lists b.kind) :
    (appendLink link a b g).arcsOf node = g.arcsOf node ++
      ((if a = node then [link.directed .aToB] else []) ++
        if b = node then [link.directed .bToA] else []) := by
  unfold appendLink
  rw [arcsOf_appendAdjacency, arcsOf_appendAdjacency, List.append_assoc]
  · rfl
  · exact known_a
  · rw [lists_appendAdjacency]
    exact known_b

/-- Links keep to the ports that came with them. -/
theorem Canonical.source_lt (canonical : Canonical g) {arc : DirectedLink}
    (member : arc ∈ g.links.flatMap directedLinks) : arc.source.value < g.ports.length := by
  obtain ⟨link, isLink, isArc⟩ := List.mem_flatMap.mp member
  obtain ⟨i, found⟩ := List.mem_iff_getElem?.mp isLink
  obtain ⟨a, b, isA, isB, endA, endB, _⟩ := canonical.links i link found
  have idA := canonical.aligned.ports _ a isA
  have idB := canonical.aligned.ports _ b isB
  have smallA := (List.getElem?_eq_some_iff.mp isA).1
  have smallB := (List.getElem?_eq_some_iff.mp isB).1
  simp only [directedLinks, List.mem_cons, List.not_mem_nil, or_false] at isArc
  cases isArc with
  | inl same =>
    subst same
    show link.endpointA.value < _
    rw [endA, idA]
    exact smallA
  | inr same =>
    subst same
    show link.endpointB.value < _
    rw [endB, idB]
    exact smallB

theorem arcsFrom_link (canonical : Canonical g) {g' : TopologyGraph} {node : NodeId}
    (ports : g'.ports = g.ports ++ [first, second]) (links : g'.links = g.links ++ [link])
    (endA : link.endpointA.value = g.ports.length)
    (endB : link.endpointB.value = g.ports.length + 1) :
    g'.arcsFrom node = g.arcsFrom node ++
      ((if first.owner = node then [link.directed .aToB] else []) ++
        if second.owner = node then [link.directed .bToA] else []) := by
  have old : ∀ arc ∈ g.links.flatMap directedLinks,
      g'.ownerAt arc.source.value = g.ownerAt arc.source.value := by
    intro arc member
    unfold ownerAt
    rw [ports, List.getElem?_append_left (canonical.source_lt member)]
  have at_first : g'.ownerAt g.ports.length = some first.owner := by
    simp [ownerAt, ports]
  have at_second : g'.ownerAt (g.ports.length + 1) = some second.owner := by
    simp [ownerAt, ports]
  unfold arcsFrom
  rw [links, List.flatMap_append, List.filter_append]
  congr 1
  · apply List.filter_congr
    intro arc member
    rw [old arc member]
  · have sourceA : (link.directed .aToB).source.value = g.ports.length := endA
    have sourceB : (link.directed .bToA).source.value = g.ports.length + 1 := endB
    simp only [List.flatMap_cons, List.flatMap_nil, List.append_nil, directedLinks,
      List.filter_cons, List.filter_nil, sourceA, sourceB, at_first, at_second, Option.some.injEq,
      decide_eq_true_eq]
    by_cases isA : first.owner = node <;> by_cases isB : second.owner = node <;> simp [isA, isB]

theorem portsOwned_pair {g' : TopologyGraph} {node : NodeId}
    (ports : g'.ports = g.ports ++ [first, second]) :
    g'.portsOwned node = g.portsOwned node ++
      ((if first.owner = node then [first.id] else []) ++
        if second.owner = node then [second.id] else []) := by
  have pair : ([first, second] : List Port) = [first] ++ [second] := rfl
  unfold portsOwned
  rw [ports, pair, listed_append, listed_append, listed_singleton, listed_singleton]

/-- Two new ports and the link between them. -/
structure Linking (g g' : TopologyGraph) (first second : Port) (link : PhysicalLink) : Prop where
  ports : g'.ports = g.ports ++ [first, second]
  links : g'.links = g.links ++ [link]
  firstId : first.id = ⟨g.ports.length⟩
  secondId : second.id = ⟨g.ports.length + 1⟩
  endA : link.endpointA = first.id
  endB : link.endpointB = second.id
  joins : Joins link.kind first second
  grows : ∀ kind, g.count kind ≤ g'.count kind
  knownFirst : first.owner.value < g'.count first.owner.kind
  knownSecond : second.owner.value < g'.count second.owner.kind
  apart : ∀ i, i < g.links.length →
    ¬ (g.ownerAt (2 * i) = some first.owner ∧ g.ownerAt (2 * i + 1) = some second.owner ∨
      g.ownerAt (2 * i) = some second.owner ∧ g.ownerAt (2 * i + 1) = some first.owner)
  arcs : ∀ node, g'.arcsOf node = g.arcsOf node ++
    ((if first.owner = node then [link.directed .aToB] else []) ++
      if second.owner = node then [link.directed .bToA] else [])

namespace Linking

variable {g' : TopologyGraph} (linking : Linking g g' first second link)

include linking

theorem ownerAt_old {index : Nat} (old : index < g.ports.length) :
    g'.ownerAt index = g.ownerAt index := by
  unfold ownerAt
  rw [linking.ports, List.getElem?_append_left old]

theorem ownerAt_first : g'.ownerAt g.ports.length = some first.owner := by
  simp [ownerAt, linking.ports]

theorem ownerAt_second : g'.ownerAt (g.ports.length + 1) = some second.owner := by
  simp [ownerAt, linking.ports]

theorem canonical_links (canonical : Canonical g) :
    ∀ i found, g'.links[i]? = some found → ∃ a b, g'.ports[2 * i]? = some a ∧
      g'.ports[2 * i + 1]? = some b ∧ found.endpointA = a.id ∧ found.endpointB = b.id ∧
      Joins found.kind a b := by
  have pairs := canonical.pairs
  intro i found isFound
  rw [linking.links] at isFound
  rw [linking.ports]
  by_cases old : i < g.links.length
  · rw [List.getElem?_append_left old] at isFound
    rw [List.getElem?_append_left (by omega), List.getElem?_append_left (by omega)]
    exact canonical.links i found isFound
  · rw [List.getElem?_append_right (not_lt.mp old)] at isFound
    obtain ⟨small, same⟩ := List.getElem?_eq_some_iff.mp isFound
    simp only [List.length_singleton] at small
    have here : i = g.links.length := by omega
    subst here
    simp only [Nat.sub_self, List.getElem_cons_zero] at same
    subst same
    refine ⟨first, second, ?_, ?_, linking.endA, linking.endB, linking.joins⟩
    · rw [← pairs]
      simp
    · rw [← pairs]
      simp

theorem canonical_simple (canonical : Canonical g) :
    ∀ i j, i < j → j < g'.links.length → ¬ g'.SameEnds i j := by
  have pairs := canonical.pairs
  intro i j less small
  rw [linking.links, List.length_append, List.length_singleton] at small
  unfold SameEnds
  by_cases old : j < g.links.length
  · rw [linking.ownerAt_old (by omega), linking.ownerAt_old (by omega),
      linking.ownerAt_old (by omega), linking.ownerAt_old (by omega)]
    exact canonical.simple i j less old
  · have here : j = g.links.length := by omega
    subst here
    rw [← pairs, linking.ownerAt_first, linking.ownerAt_second,
      linking.ownerAt_old (show 2 * i < g.ports.length by omega),
      linking.ownerAt_old (show 2 * i + 1 < g.ports.length by omega)]
    exact linking.apart i less

/-- With the members of the new graph in order, all of it is. -/
theorem canonical (canonical : Canonical g) (aligned : Aligned g')
    (racks : ∀ rack ∈ g'.racks, rack.gpus = g'.gpusOfRack rack.id ∧
      rack.nics = g'.nicsOfRack rack.id ∧ rack.leafSwitches = g'.leavesOfRack rack.id)
    (nics : ∀ nic ∈ g'.nics, nic.rack.value < g'.racks.length ∧
      nic.attachedGpus = g'.gpusOfNic nic.id ∧ nic.ports = g'.portsOwned (.ofNic nic.id))
    (gpus : ∀ gpu ∈ g'.gpus,
      (∃ nic, g'.nics[gpu.attachedNic.value]? = some nic ∧ gpu.rack = nic.rack) ∧
      g'.portsOwned (.ofGpu gpu.id) = [gpu.port])
    (switches : ∀ s ∈ g'.switches, s.ports = g'.portsOwned (.ofSwitch s.id) ∧
      (s.role = .leaf ∧ (∃ rack, s.rack = some rack ∧ rack.value < g'.racks.length) ∨
        s.role = .spine ∧ s.rack = none)) : Canonical g' := by
  have roles : ∀ port : Port, port = first ∨ port = second → port.owner.kind = .gpu →
      port.role = .local := by
    intro port isNew isGpu
    obtain ⟨_, attached | fabric⟩ := linking.joins
    · cases isNew with
      | inl same => exact same ▸ attached.2.2.2.1
      | inr same => exact same ▸ attached.2.2.2.2
    · cases isNew with
      | inl same => exact absurd (same ▸ isGpu) fabric.2.1
      | inr same => exact absurd (same ▸ isGpu) fabric.2.2.1
  constructor
  · exact aligned
  · exact racks
  · exact nics
  · exact gpus
  · exact switches
  · intro port member
    simp only [linking.ports, List.mem_append, List.mem_cons, List.not_mem_nil, or_false] at member
    obtain old | rfl | rfl := member
    · exact lt_of_lt_of_le (canonical.owners port old) (linking.grows _)
    · exact linking.knownFirst
    · exact linking.knownSecond
  · intro port member
    simp only [linking.ports, List.mem_append, List.mem_cons, List.not_mem_nil, or_false] at member
    cases member with
    | inl old => exact canonical.gpuPorts port old
    | inr new => exact roles port new
  · have pairs := canonical.pairs
    rw [linking.ports, linking.links]
    simp
    omega
  · exact linking.canonical_links canonical
  · exact linking.canonical_simple canonical
  · intro node _
    rw [linking.arcs, canonical.arcs_eq, arcsFrom_link canonical linking.ports linking.links]
    · rw [linking.endA, linking.firstId]
    · rw [linking.endB, linking.secondId]

end Linking

/-- A link changes the links and the lists of arcs, and nothing else. -/
theorem appendLink_eq : ∃ gpuLists nicLists switchLists,
    appendLink link a b g = { g with
      links := g.links ++ [link]
      gpuAdjacency := gpuLists
      nicAdjacency := nicLists
      switchAdjacency := switchLists } ∧
    gpuLists.length = g.gpuAdjacency.length ∧ nicLists.length = g.nicAdjacency.length ∧
    switchLists.length = g.switchAdjacency.length := by
  obtain ⟨kind, value⟩ := a
  obtain ⟨kind', value'⟩ := b
  unfold appendLink appendAdjacency
  cases kind <;> cases kind' <;> exact ⟨_, _, _, rfl, by simp, by simp, by simp⟩

end NewLink

/-- Drawing identifiers changes nothing that the entities say about each other. -/
theorem Canonical.redraw (canonical : Canonical g) {gpuIds portIds linkIds : IdGenerator}
    (aligned : Aligned { g with gpuIds, portIds, linkIds }) :
    Canonical { g with gpuIds, portIds, linkIds } :=
  { canonical with aligned := aligned }

theorem Canonical.lists_eq (canonical : Canonical g) (kind : NodeKind) :
    g.lists kind = g.count kind := by
  cases kind
  · exact canonical.aligned.gpuLists
  · exact canonical.aligned.nicLists
  · exact canonical.aligned.switchLists

theorem Canonical.findNic (canonical : Canonical g) {id : NicId} {nic : Nic}
    (found : g.findNic id = some nic) : g.nics[id.value]? = some nic := by
  unfold TopologyGraph.findNic at found
  rwa [canonical.aligned.nics.find] at found

/-- One GPU more, on a NIC. -/
def attach (g : TopologyGraph) (attachedNic : NicId) (rack : RackId)
    (gpuIds portIds linkIds : IdGenerator) : TopologyGraph :=
  { g with
    gpuIds, portIds, linkIds
    gpus := g.gpus ++ [⟨⟨g.gpus.length⟩, rack, attachedNic, ⟨g.ports.length⟩⟩]
    gpuAdjacency := g.gpuAdjacency ++ [[]]
    nics := g.nics.modify attachedNic.value fun n => { n with
      attachedGpus := n.attachedGpus ++ [⟨g.gpus.length⟩]
      ports := n.ports ++ [⟨g.ports.length + 1⟩] }
    racks := g.racks.modify rack.value fun r => { r with gpus := r.gpus ++ [⟨g.gpus.length⟩] }
    ports := g.ports ++ [⟨⟨g.ports.length⟩, ⟨.gpu, g.gpus.length⟩, .local, .up⟩,
      ⟨⟨g.ports.length + 1⟩, .ofNic attachedNic, .local, .up⟩] }

section Attach

variable {attachedNic : NicId} {nic : Nic} {gpuIds portIds linkIds : IdGenerator}

theorem linking_attach (canonical : Canonical g) (found : g.nics[attachedNic.value]? = some nic) :
    Linking g
      (appendLink ⟨⟨g.links.length⟩, ⟨g.ports.length⟩, ⟨g.ports.length + 1⟩, .localAttachment, .up⟩
        ⟨.gpu, g.gpus.length⟩ (.ofNic attachedNic)
        (g.attach attachedNic nic.rack gpuIds portIds linkIds))
      ⟨⟨g.ports.length⟩, ⟨.gpu, g.gpus.length⟩, .local, .up⟩
      ⟨⟨g.ports.length + 1⟩, .ofNic attachedNic, .local, .up⟩
      ⟨⟨g.links.length⟩, ⟨g.ports.length⟩, ⟨g.ports.length + 1⟩, .localAttachment, .up⟩ := by
  have known := (List.getElem?_eq_some_iff.mp found).1
  have aligned := canonical.aligned
  have fresh : ∀ index, g.ownerAt index ≠ some ⟨.gpu, g.gpus.length⟩ := by
    intro index same
    obtain ⟨port, isPort, owner⟩ := Option.map_eq_some_iff.mp same
    exact canonical.owner_ne (le_refl _) port (List.mem_of_getElem? isPort) owner
  constructor
  · rfl
  · rfl
  · rfl
  · rfl
  · rfl
  · rfl
  · exact ⟨by simp [NodeId.ofNic], .inl ⟨rfl, rfl, rfl, rfl, rfl⟩⟩
  · intro kind
    cases kind <;> simp [count, attach, appendLink, appendAdjacency, NodeId.ofNic]
  · simp [count, attach, appendLink, appendAdjacency, NodeId.ofNic]
  · simpa [count, attach, appendLink, appendAdjacency, NodeId.ofNic] using known
  · intro i _ same
    cases same with
    | inl ends => exact fresh _ ends.1
    | inr ends => exact fresh _ ends.2
  · intro node
    rw [arcsOf_appendLink]
    · congr 1
      unfold arcsOf attach
      cases node.kind <;> simp [getD_append_nil]
    · simp [lists, attach, aligned.gpuLists]
    · simpa [lists, attach, aligned.nicLists, NodeId.ofNic] using known

theorem canonical_attach (canonical : Canonical g) (found : g.nics[attachedNic.value]? = some nic)
    (nextGpu : gpuIds.At (g.gpus.length + 1)) (nextPort : portIds.At (g.ports.length + 1 + 1))
    (nextLink : linkIds.At (g.links.length + 1)) :
    Canonical
      (appendLink ⟨⟨g.links.length⟩, ⟨g.ports.length⟩, ⟨g.ports.length + 1⟩, .localAttachment, .up⟩
        ⟨.gpu, g.gpus.length⟩ (.ofNic attachedNic)
        (g.attach attachedNic nic.rack gpuIds portIds linkIds)) := by
  have aligned := canonical.aligned
  have linking := @linking_attach g attachedNic nic gpuIds portIds linkIds canonical found
  have isNic : nic.id = attachedNic := StrongId.value_injective (aligned.nics _ nic found)
  have known := (List.getElem?_eq_some_iff.mp found).1
  obtain ⟨gpuLists, nicLists, switchLists, same, gpuLength, nicLength, switchLength⟩ :=
    @appendLink_eq (g.attach attachedNic nic.rack gpuIds portIds linkIds) ⟨.gpu, g.gpus.length⟩
      (.ofNic attachedNic)
      ⟨⟨g.links.length⟩, ⟨g.ports.length⟩, ⟨g.ports.length + 1⟩, .localAttachment, .up⟩
  rw [same] at linking ⊢
  refine linking.canonical canonical ?_ ?_ ?_ ?_ ?_
  · exact {
      gpus := aligned.gpus.append rfl
      nics := by
        refine aligned.nics.modify ?_ _
        intro _
        rfl
      switches := aligned.switches
      racks := by
        refine aligned.racks.modify ?_ _
        intro _
        rfl
      ports := by
        rw [linking.ports]
        exact aligned.ports.append_pair rfl rfl
      links := aligned.links.append rfl
      gpuIds := .inr (.inr (by simpa [attach] using nextGpu))
      nicIds := by simpa [attach] using aligned.nicIds
      switchIds := aligned.switchIds
      rackIds := by simpa [attach] using aligned.rackIds
      portIds := .inr (by simpa [attach] using nextPort)
      linkIds := by simpa [attach] using nextLink
      gpuLists := by simpa [attach, aligned.gpuLists] using gpuLength
      nicLists := by simpa [attach, aligned.nicLists] using nicLength
      switchLists := by simpa [attach, aligned.switchLists] using switchLength }
  -- racks: that of the NIC has one GPU more
  · intro found member
    obtain ⟨old, isOld, isFound⟩ := aligned.racks.mem_modify member
    obtain ⟨gpus, nics, leaves⟩ := canonical.racks old isOld
    have sameNics : ∀ rack, listed (fun nic : Nic => nic.rack = rack) Nic.id
        (g.attach attachedNic nic.rack gpuIds portIds linkIds).nics = g.nicsOfRack rack := by
      intro rack
      refine listed_modify ?_ ?_ _
      · intro _
        rfl
      · intro _
        rfl
    by_cases here : nic.rack = old.id
    · rw [if_pos here] at isFound
      subst isFound
      refine ⟨?_, nics.trans (sameNics _).symm, leaves⟩
      simp [gpusOfRack, attach, gpus, here]
    · rw [if_neg here] at isFound
      subst isFound
      refine ⟨?_, nics.trans (sameNics _).symm, leaves⟩
      simp [gpusOfRack, attach, gpus, here]
  -- NICs: the attached one has one GPU and one port more
  · intro found member
    obtain ⟨old, isOld, isFound⟩ := aligned.nics.mem_modify member
    obtain ⟨home, gpus, ports⟩ := canonical.nics old isOld
    rw [portsOwned_pair linking.ports]
    by_cases here : attachedNic = old.id
    · rw [if_pos here] at isFound
      subst isFound
      simp [gpusOfNic, attach, gpus, ports, here, home, NodeId.ofNic]
    · rw [if_neg here] at isFound
      subst isFound
      have other : NodeId.ofNic attachedNic ≠ NodeId.ofNic found.id :=
        fun same => here (NodeId.ofNic_inj.mp same)
      have notGpu : (⟨.gpu, g.gpus.length⟩ : NodeId) ≠ .ofNic found.id := by simp [NodeId.ofNic]
      simp [gpusOfNic, attach, gpus, ports, here, home, other, notGpu]
  -- GPUs: the old ones are on their NICs, and the new one in the rack of its own
  · intro gpu member
    have notNic : NodeId.ofNic attachedNic ≠ .ofGpu gpu.id := by simp [NodeId.ofNic, NodeId.ofGpu]
    rw [portsOwned_pair linking.ports, if_neg notNic]
    have keepsRack : ∀ found : Nic, g.nics[gpu.attachedNic.value]? = some found →
        ∃ new, (g.attach attachedNic nic.rack gpuIds portIds linkIds).nics[gpu.attachedNic.value]? =
          some new ∧ found.rack = new.rack := by
      intro found isFound
      obtain ⟨new, isNew, kept | changed⟩ := exists_modify isFound
      · exact ⟨new, isNew, by rw [kept]⟩
      · exact ⟨new, isNew, by rw [changed]⟩
    replace member : gpu ∈ g.gpus ++ [⟨⟨g.gpus.length⟩, nic.rack, attachedNic, ⟨g.ports.length⟩⟩] :=
      member
    rw [List.mem_append, List.mem_singleton] at member
    cases member with
    | inl old =>
      obtain ⟨⟨nic', isNic', sameRack⟩, port⟩ := canonical.gpus gpu old
      have isOld : (⟨.gpu, g.gpus.length⟩ : NodeId) ≠ .ofGpu gpu.id := by
        have small := (List.getElem?_eq_some_iff.mp (aligned.gpus.mem old)).1
        simp only [NodeId.ofGpu, ne_eq, NodeId.mk.injEq, true_and]
        omega
      obtain ⟨new, isNew, rack⟩ := keepsRack nic' isNic'
      exact ⟨⟨new, isNew, sameRack.trans rack⟩, by rw [if_neg isOld, port]; rfl⟩
    | inr new =>
      subst new
      have fresh : g.portsOwned (.ofGpu ⟨g.gpus.length⟩) = [] :=
        canonical.portsOwned_fresh (le_refl _)
      refine ⟨keepsRack nic found, ?_⟩
      rw [fresh]
      simp [NodeId.ofGpu]
  -- switches: neither of the new ports is theirs
  · intro s member
    rw [portsOwned_pair linking.ports]
    obtain ⟨ports, home⟩ := canonical.switches s member
    simpa [ports, attach, NodeId.ofNic, NodeId.ofSwitch] using home

end Attach

theorem builds_addGpu (canonical : Canonical g) (attachedNic : NicId) :
    Builds (addGpu attachedNic) g := by
  simp only [Builds, addGpu, nextGpuId, nextPortId, nextLinkId, wp_bind, wp_get, wp_getOrThrow]
  refine ⟨fun nic found => ?_, fun _ => canonical⟩
  have aligned := canonical.aligned
  refine wp_nextId (fun gpuId gpuIds _ gpuDrawn => ?_) (fun _ _ => canonical)
  refine wp_nextId (fun gpuPort portIds portsLeft gpuPortDrawn => ?_) (fun _ spent => ?_)
  rotate_left
  · exact canonical.redraw { aligned with gpuIds := .inr (.inl spent) }
  refine wp_nextId (fun nicPort portIds' _ nicPortDrawn => ?_) (fun _ spent => ?_)
  rotate_left
  · exact canonical.redraw { aligned with
      gpuIds := .inr (.inl spent)
      portIds := .inr (.inl spent) }
  refine wp_nextId (fun linkId linkIds linksLeft linkDrawn => ?_) (fun _ spent => ?_)
  rotate_left
  · exact canonical.redraw { aligned with gpuIds := .inl spent, portIds := .inl spent }
  simp only [wp_modify, wp_pure]
  have linksLeft : ¬ g.linkIds.exhausted = true := by simpa using linksLeft
  have portsLeft : ¬ g.portIds.exhausted = true := by simpa using portsLeft
  obtain ⟨rfl, nextGpu⟩ := gpuDrawn _
    ((aligned.gpuIds.resolve_left linksLeft).resolve_left portsLeft)
  obtain ⟨rfl, nextPort⟩ := gpuPortDrawn _ (aligned.portIds.resolve_left linksLeft)
  obtain ⟨rfl, nextPort'⟩ := nicPortDrawn _ nextPort
  obtain ⟨rfl, nextLink⟩ := linkDrawn _ aligned.linkIds
  exact canonical_attach canonical (canonical.findNic found) nextGpu nextPort' nextLink

section Connect

variable {a b : NodeId} {roleA roleB : PortRole} {portIds linkIds : IdGenerator}

/-- What a node gets when a link joins it to another. -/
def givenPorts (a b : NodeId) (portA portB : PortId) (node : NodeId) : List PortId :=
  (if a = node then [portA] else []) ++ if b = node then [portB] else []

def giveNic (given : NodeId → List PortId) (n : Nic) : Nic :=
  { n with ports := n.ports ++ given (.ofNic n.id) }

def giveSwitch (given : NodeId → List PortId) (s : Switch) : Switch :=
  { s with ports := s.ports ++ given (.ofSwitch s.id) }

theorem giveNic_comp (first second : NodeId → List PortId) :
    giveNic second ∘ giveNic first = giveNic fun node => first node ++ second node := by
  funext n
  simp [giveNic]

theorem giveSwitch_comp (first second : NodeId → List PortId) :
    giveSwitch second ∘ giveSwitch first = giveSwitch fun node => first node ++ second node := by
  funext s
  simp [giveSwitch]

theorem wp_appendOwnerPort {owner : NodeId} {port : PortId} {Q : Unit → TopologyGraph → Prop}
    {E : Error → TopologyGraph → Prop} (nics : Dense Nic.id g.nics)
    (switches : Dense Switch.id g.switches) (notGpu : owner.kind ≠ .gpu)
    (returns : Q () { g with
      nics := g.nics.map (giveNic fun node => if owner = node then [port] else [])
      switches := g.switches.map (giveSwitch fun node => if owner = node then [port] else []) }) :
    wp (appendOwnerPort owner port) Q E g := by
  obtain ⟨kind, value⟩ := owner
  simp only [appendOwnerPort]
  cases kind with
  | gpu => exact absurd rfl notGpu
  | nic =>
    have sameSwitches : giveSwitch (fun node => if ⟨.nic, value⟩ = node then [port] else []) = id := by
      funext s
      simp [giveSwitch, NodeId.ofSwitch]
    have sameNics : g.nics.modify value (fun n => { n with ports := n.ports ++ [port] }) =
        g.nics.map (giveNic fun node => if ⟨.nic, value⟩ = node then [port] else []) := by
      refine (nics.modify_eq_map _ ⟨value⟩).trans (List.map_congr_left ?_)
      rintro ⟨⟨id⟩, rack, gpus, ports⟩ _
      by_cases here : value = id <;> simp [giveNic, NodeId.ofNic, here]
    simp only [wp_modify, sameNics]
    rwa [sameSwitches, List.map_id] at returns
  | switch =>
    have sameNics : giveNic (fun node => if ⟨.switch, value⟩ = node then [port] else []) = id := by
      funext n
      simp [giveNic, NodeId.ofNic]
    have sameSwitches : g.switches.modify value (fun s => { s with ports := s.ports ++ [port] }) =
        g.switches.map (giveSwitch fun node => if ⟨.switch, value⟩ = node then [port] else []) := by
      refine (switches.modify_eq_map _ ⟨value⟩).trans (List.map_congr_left ?_)
      rintro ⟨⟨id⟩, rack, role, ports, state⟩ _
      by_cases here : value = id <;> simp [giveSwitch, NodeId.ofSwitch, here]
    simp only [wp_modify, sameSwitches]
    rwa [sameNics, List.map_id] at returns

/-- Two ports more, one for each of two nodes. -/
def connect (g : TopologyGraph) (a : NodeId) (roleA : PortRole) (b : NodeId) (roleB : PortRole)
    (portIds linkIds : IdGenerator) : TopologyGraph :=
  { g with
    portIds, linkIds
    nics := g.nics.map (giveNic (givenPorts a b ⟨g.ports.length⟩ ⟨g.ports.length + 1⟩))
    switches := g.switches.map (giveSwitch (givenPorts a b ⟨g.ports.length⟩ ⟨g.ports.length + 1⟩))
    ports := g.ports ++ [⟨⟨g.ports.length⟩, a, roleA, .up⟩, ⟨⟨g.ports.length + 1⟩, b, roleB, .up⟩] }

theorem directlyConnected_search {arcs : List DirectedLink}
    (apart : directlyConnected.search g b arcs = .ok false) :
    ∀ arc ∈ arcs, ∃ port, g.findPort arc.destination = some port ∧ port.owner ≠ b := by
  induction arcs with
  | nil => simp
  | cons head tail ih =>
    unfold directlyConnected.search at apart
    split at apart
    · cases apart
    · rename_i port found
      split at apart
      · cases apart
      · intro arc member
        cases member with
        | head => exact ⟨port, found, ‹_›⟩
        | tail _ later => exact ih apart arc later

theorem Canonical.findPort (canonical : Canonical g) {id : PortId} {port : Port} :
    g.findPort id = some port ↔ g.ports[id.value]? = some port := by
  unfold TopologyGraph.findPort
  rw [canonical.aligned.ports.find]

theorem Canonical.contains (canonical : Canonical g) {node : NodeId} :
    g.contains node = true ↔ node.value < g.count node.kind := by
  obtain ⟨kind, value⟩ := node
  cases kind
  · simp [TopologyGraph.contains, TopologyGraph.findGpu, canonical.aligned.gpus.find, count]
  · simp [TopologyGraph.contains, TopologyGraph.findNic, canonical.aligned.nics.find, count]
  · simp [TopologyGraph.contains, TopologyGraph.findSwitch, canonical.aligned.switches.find, count]

theorem Canonical.adjacency (canonical : Canonical g) {node : NodeId}
    (known : g.contains node = true) : g.adjacency node = .ok (g.arcsFrom node) := by
  rw [← canonical.arcs_eq]
  obtain ⟨kind, value⟩ := node
  unfold TopologyGraph.adjacency arcsOf
  cases kind <;> simp [known]

/-- Both directions of a link, at the owners of its two ports. -/
theorem Canonical.mem_arcsFrom (canonical : Canonical g) (node : NodeId) {i : Nat}
    (known : i < g.links.length) :
    ∃ link, g.links[i]? = some link ∧ link.endpointA.value = 2 * i ∧
      link.endpointB.value = 2 * i + 1 ∧
      (g.ownerAt (2 * i) = some node → link.directed .aToB ∈ g.arcsFrom node) ∧
      (g.ownerAt (2 * i + 1) = some node → link.directed .bToA ∈ g.arcsFrom node) := by
  have found : g.links[i]? = some g.links[i] := List.getElem?_eq_getElem known
  obtain ⟨a, b, isA, isB, endA, endB, _⟩ := canonical.links i _ found
  have valueA : g.links[i].endpointA.value = 2 * i := by
    rw [endA]
    exact canonical.aligned.ports _ a isA
  have valueB : g.links[i].endpointB.value = 2 * i + 1 := by
    rw [endB]
    exact canonical.aligned.ports _ b isB
  refine ⟨g.links[i], found, valueA, valueB, ?_, ?_⟩
  · intro owned
    refine List.mem_filter.mpr ⟨?_, ?_⟩
    · exact List.mem_flatMap.mpr ⟨_, List.getElem_mem known, by simp [directedLinks]⟩
    · simpa [PhysicalLink.directed, valueA] using owned
  · intro owned
    refine List.mem_filter.mpr ⟨?_, ?_⟩
    · exact List.mem_flatMap.mpr ⟨_, List.getElem_mem known, by simp [directedLinks]⟩
    · simpa [PhysicalLink.directed, valueB] using owned

/-- No link joins two nodes that are not directly connected. -/
theorem Canonical.apart (canonical : Canonical g) (known : g.contains a = true)
    (notConnected : g.directlyConnected a b = .ok false) :
    ∀ i, i < g.links.length →
      ¬ (g.ownerAt (2 * i) = some a ∧ g.ownerAt (2 * i + 1) = some b ∨
        g.ownerAt (2 * i) = some b ∧ g.ownerAt (2 * i + 1) = some a) := by
  have searched : directlyConnected.search g b (g.arcsFrom a) = .ok false := by
    unfold directlyConnected at notConnected
    rwa [canonical.adjacency known] at notConnected
  have others := directlyConnected_search searched
  intro i small joined
  obtain ⟨link, _, endA, endB, fromA, fromB⟩ := canonical.mem_arcsFrom a small
  cases joined with
  | inl ends =>
    obtain ⟨port, found, owner⟩ := others _ (fromA ends.1)
    have isPort : g.ports[2 * i + 1]? = some port := by
      rw [← endB]
      exact canonical.findPort.mp found
    have isOwner := ends.2
    rw [ownerAt, isPort] at isOwner
    exact owner (Option.some.inj isOwner)
  | inr ends =>
    obtain ⟨port, found, owner⟩ := others _ (fromB ends.2)
    have isPort : g.ports[2 * i]? = some port := by
      rw [← endA]
      exact canonical.findPort.mp found
    have isOwner := ends.1
    rw [ownerAt, isPort] at isOwner
    exact owner (Option.some.inj isOwner)

theorem linking_connect (canonical : Canonical g) (knownA : g.contains a = true)
    (knownB : g.contains b = true) (different : a ≠ b) (notGpuA : a.kind ≠ .gpu)
    (notGpuB : b.kind ≠ .gpu) (fabricA : roleA ≠ .local) (fabricB : roleB ≠ .local)
    (notConnected : g.directlyConnected a b = .ok false) :
    Linking g
      (appendLink ⟨⟨g.links.length⟩, ⟨g.ports.length⟩, ⟨g.ports.length + 1⟩, .fabric, .up⟩ a b
        (g.connect a roleA b roleB portIds linkIds))
      ⟨⟨g.ports.length⟩, a, roleA, .up⟩ ⟨⟨g.ports.length + 1⟩, b, roleB, .up⟩
      ⟨⟨g.links.length⟩, ⟨g.ports.length⟩, ⟨g.ports.length + 1⟩, .fabric, .up⟩ := by
  have sameCount : ∀ kind, (g.connect a roleA b roleB portIds linkIds).count kind = g.count kind := by
    intro kind
    cases kind <;> simp [count, connect]
  have sameLists : ∀ kind, (g.connect a roleA b roleB portIds linkIds).lists kind = g.count kind :=
    canonical.lists_eq
  have sameArcs : ∀ node, (g.connect a roleA b roleB portIds linkIds).arcsOf node = g.arcsOf node :=
    fun _ => rfl
  have knownA := canonical.contains.mp knownA
  have knownB := canonical.contains.mp knownB
  have arcs : ∀ node, _ := fun node =>
    @arcsOf_appendLink (g.connect a roleA b roleB portIds linkIds) a b
      ⟨⟨g.links.length⟩, ⟨g.ports.length⟩, ⟨g.ports.length + 1⟩, .fabric, .up⟩ node
      (by rwa [sameLists]) (by rwa [sameLists])
  obtain ⟨gpuLists, nicLists, switchLists, same, _⟩ :=
    @appendLink_eq (g.connect a roleA b roleB portIds linkIds) a b
      ⟨⟨g.links.length⟩, ⟨g.ports.length⟩, ⟨g.ports.length + 1⟩, .fabric, .up⟩
  rw [same] at arcs ⊢
  constructor
  · rfl
  · rfl
  · rfl
  · rfl
  · rfl
  · rfl
  · exact ⟨different, .inr ⟨rfl, notGpuA, notGpuB, fabricA, fabricB⟩⟩
  · exact fun kind => le_of_eq (sameCount kind).symm
  · exact lt_of_lt_of_eq knownA (sameCount a.kind).symm
  · exact lt_of_lt_of_eq knownB (sameCount b.kind).symm
  · exact canonical.apart (canonical.contains.mpr knownA) notConnected
  · exact arcs

theorem canonical_connect (canonical : Canonical g) (knownA : g.contains a = true)
    (knownB : g.contains b = true) (different : a ≠ b) (notGpuA : a.kind ≠ .gpu)
    (notGpuB : b.kind ≠ .gpu) (fabricA : roleA ≠ .local) (fabricB : roleB ≠ .local)
    (notConnected : g.directlyConnected a b = .ok false)
    (nextPort : portIds.At (g.ports.length + 1 + 1)) (nextLink : linkIds.At (g.links.length + 1))
    (linksLeft : g.linkIds.exhausted = false) (portsLeft : g.portIds.exhausted = false) :
    Canonical
      (appendLink ⟨⟨g.links.length⟩, ⟨g.ports.length⟩, ⟨g.ports.length + 1⟩, .fabric, .up⟩ a b
        (g.connect a roleA b roleB portIds linkIds)) := by
  have aligned := canonical.aligned
  have linking := @linking_connect g a b roleA roleB portIds linkIds canonical knownA knownB
    different notGpuA notGpuB fabricA fabricB notConnected
  obtain ⟨gpuLists, nicLists, switchLists, same, gpuLength, nicLength, switchLength⟩ :=
    @appendLink_eq (g.connect a roleA b roleB portIds linkIds) a b
      ⟨⟨g.links.length⟩, ⟨g.ports.length⟩, ⟨g.ports.length + 1⟩, .fabric, .up⟩
  rw [same] at linking ⊢
  refine linking.canonical canonical ?_ ?_ ?_ ?_ ?_
  · exact {
      gpus := aligned.gpus
      nics := by
        refine aligned.nics.map ?_
        intro _
        rfl
      switches := by
        refine aligned.switches.map ?_
        intro _
        rfl
      racks := aligned.racks
      ports := by
        rw [linking.ports]
        exact aligned.ports.append_pair rfl rfl
      links := aligned.links.append rfl
      gpuIds := by
        have atNext := aligned.gpuIds
        simp only [linksLeft, portsLeft, Bool.false_eq_true, false_or] at atNext
        exact .inr (.inr atNext)
      nicIds := by simpa [connect] using aligned.nicIds
      switchIds := by simpa [connect] using aligned.switchIds
      rackIds := by simpa [connect] using aligned.rackIds
      portIds := .inr (by simpa [connect] using nextPort)
      linkIds := by simpa [connect] using nextLink
      gpuLists := by simpa [connect, aligned.gpuLists] using gpuLength
      nicLists := by simpa [connect, aligned.nicLists] using nicLength
      switchLists := by simpa [connect, aligned.switchLists] using switchLength }
  -- racks list NICs and leaves by their identifiers, which stay
  · intro rack member
    obtain ⟨gpus, nics, leaves⟩ := canonical.racks rack member
    refine ⟨gpus, nics.trans ?_, leaves.trans ?_⟩
    · refine (listed_map ?_ ?_).symm
      · intro _
        rfl
      · intro _
        rfl
    · refine (listed_map ?_ ?_).symm
      · intro _
        rfl
      · intro _
        rfl
  -- NICs and switches get the new port if they are an end of the link
  · intro nic member
    obtain ⟨old, isOld, rfl⟩ := List.mem_map.mp member
    obtain ⟨home, gpus, ports⟩ := canonical.nics old isOld
    refine ⟨home, gpus, ?_⟩
    rw [portsOwned_pair linking.ports]
    exact congrArg (· ++ _) ports
  -- GPUs have no fabric ports
  · intro gpu member
    obtain ⟨⟨nic, isNic, sameRack⟩, port⟩ := canonical.gpus gpu member
    refine ⟨⟨giveNic (givenPorts a b ⟨g.ports.length⟩ ⟨g.ports.length + 1⟩) nic, ?_, sameRack⟩, ?_⟩
    · simp [connect, isNic]
    · rw [portsOwned_pair linking.ports, port, if_neg, if_neg]
      · rfl
      · intro same
        exact notGpuB (congrArg NodeId.kind same)
      · intro same
        exact notGpuA (congrArg NodeId.kind same)
  · intro s member
    obtain ⟨old, isOld, rfl⟩ := List.mem_map.mp member
    obtain ⟨ports, home⟩ := canonical.switches old isOld
    refine ⟨?_, home⟩
    rw [portsOwned_pair linking.ports]
    exact congrArg (· ++ _) ports

theorem builds_connectFabric (canonical : Canonical g) (a : NodeId) (roleA : PortRole) (b : NodeId)
    (roleB : PortRole) : Builds (connectFabric a roleA b roleB) g := by
  have aligned := canonical.aligned
  simp only [Builds, connectFabric, nextPortId, nextLinkId, wp_bind, wp_get, wp_throwIf,
    wp_fromExcept]
  refine ⟨fun _ => canonical, fun known => ⟨fun _ => canonical, fun different =>
    ⟨fun _ => canonical, fun notGpu => ⟨fun _ => canonical, fun fabric =>
      ⟨fun connected searched => ⟨fun _ => canonical, fun notConnected => ?_⟩,
        fun _ _ => canonical⟩⟩⟩⟩⟩
  refine wp_nextId (fun portA portIds portsLeft firstDrawn => ?_) (fun _ _ => canonical)
  refine wp_nextId (fun portB portIds' _ secondDrawn => ?_) (fun _ spent => ?_)
  rotate_left
  · exact canonical.redraw { aligned with
      gpuIds := .inr (.inl spent)
      portIds := .inr (.inl spent) }
  refine wp_nextId (fun linkId linkIds linksLeft linkDrawn => ?_) (fun _ spent => ?_)
  rotate_left
  · exact canonical.redraw { aligned with gpuIds := .inl spent, portIds := .inl spent }
  have linksLeft : g.linkIds.exhausted = false := linksLeft
  have atPort := aligned.portIds
  simp only [linksLeft, Bool.false_eq_true, false_or] at atPort
  obtain ⟨rfl, nextPort⟩ := firstDrawn _ atPort
  obtain ⟨rfl, nextPort'⟩ := secondDrawn _ nextPort
  obtain ⟨rfl, nextLink⟩ := linkDrawn _ aligned.linkIds
  simp only [not_or, Bool.not_eq_false] at known notGpu fabric
  have apart : g.directlyConnected a b = .ok false := by
    cases connected with
    | false => exact searched
    | true => exact absurd rfl notConnected
  refine wp_appendOwnerPort aligned.nics aligned.switches notGpu.1 ?_
  refine wp_appendOwnerPort ?_ ?_ notGpu.2 ?_
  · refine aligned.nics.map ?_
    intro _
    rfl
  · refine aligned.switches.map ?_
    intro _
    rfl
  have final := canonical_connect canonical known.1 known.2 different notGpu.1 notGpu.2 fabric.1
    fabric.2 apart nextPort' nextLink linksLeft portsLeft
  simp only [wp_modify, wp_pure, List.map_map, giveNic_comp, giveSwitch_comp]
  exact final

end Connect

end Builders

/-! ## State changes -/

end TopologyGraph

def Switch.plain (s : Switch) : Switch := { s with state := .up }
def Port.plain (port : Port) : Port := { port with state := .up }
def PhysicalLink.plain (link : PhysicalLink) : PhysicalLink := { link with state := .up }

namespace TopologyGraph

/-- The graph without its operational states. -/
def plain (g : TopologyGraph) : TopologyGraph :=
  { g with
    operationalRevision := 0
    switches := g.switches.map Switch.plain
    ports := g.ports.map Port.plain
    links := g.links.map PhysicalLink.plain }

section Plain

variable {g g' : TopologyGraph} {state : OperationalState}

theorem map_modify {ε α : Type} {f : ε → ε} {view : ε → α} {entities : List ε}
    (keeps : ∀ entity, view (f entity) = view entity) (index : Nat) :
    (entities.modify index f).map view = entities.map view := by
  simp only [← List.filterMap_eq_map']
  refine filterMap_modify ?_ index
  intro entity
  rw [keeps]

theorem plain_setLinkState (id : LinkId) : (g.setLinkState id state).2.plain = g.plain := by
  unfold setLinkState
  split
  · rfl
  · split
    · split
      · rfl
      · simp only [plain]
        rw [map_modify]
        intro _
        rfl
    · rfl

theorem plain_setPortState (id : PortId) : (g.setPortState id state).2.plain = g.plain := by
  unfold setPortState
  split
  · rfl
  · split
    · split
      · rfl
      · simp only [plain]
        rw [map_modify]
        intro _
        rfl
    · rfl

theorem plain_setSwitchState (id : SwitchId) : (g.setSwitchState id state).2.plain = g.plain := by
  unfold setSwitchState
  split
  · rfl
  · split
    · split
      · rfl
      · simp only [plain]
        rw [map_modify]
        intro _
        rfl
    · rfl

/-! What is read off the entities does not look at their states. -/

theorem portsOwned_plain (node : NodeId) : g.plain.portsOwned node = g.portsOwned node := by
  refine listed_map ?_ ?_
  · intro _
    rfl
  · intro _
    rfl

theorem leavesOfRack_plain (rack : RackId) : g.plain.leavesOfRack rack = g.leavesOfRack rack := by
  refine listed_map ?_ ?_
  · intro _
    rfl
  · intro _
    rfl

theorem count_plain (kind : NodeKind) : g.plain.count kind = g.count kind := by
  cases kind
  · rfl
  · rfl
  · exact List.length_map ..

theorem ownerAt_plain (index : Nat) : g.plain.ownerAt index = g.ownerAt index := by
  simp only [ownerAt, plain, List.getElem?_map, Option.map_map]
  rfl

theorem arcsFrom_plain (node : NodeId) : g.plain.arcsFrom node = g.arcsFrom node := by
  have sameArcs : g.plain.links.flatMap directedLinks = g.links.flatMap directedLinks := by
    simp only [plain, List.flatMap_map]
    rfl
  simp only [arcsFrom, sameArcs, ownerAt_plain]

theorem Dense.of_map {ε Tag : Type} {idOf : ε → StrongId Tag} {entities : List ε} {f : ε → ε}
    (keeps : ∀ entity, idOf (f entity) = idOf entity) (dense : Dense idOf (entities.map f)) :
    Dense idOf entities := by
  intro i entity found
  rw [← keeps]
  exact dense i (f entity) (by simp [found])

theorem Aligned.plain (aligned : Aligned g) : Aligned g.plain :=
  { aligned with
    switches := aligned.switches.map fun _ => rfl
    ports := aligned.ports.map fun _ => rfl
    links := aligned.links.map fun _ => rfl
    switchIds := by simpa [TopologyGraph.plain] using aligned.switchIds
    portIds := by simpa [TopologyGraph.plain] using aligned.portIds
    linkIds := by simpa [TopologyGraph.plain] using aligned.linkIds
    switchLists := by simpa [TopologyGraph.plain] using aligned.switchLists }

theorem aligned_of_plain (aligned : Aligned g.plain) : Aligned g :=
  { aligned with
    switches := Dense.of_map (f := Switch.plain) (fun _ => rfl) aligned.switches
    ports := Dense.of_map (f := Port.plain) (fun _ => rfl) aligned.ports
    links := Dense.of_map (f := PhysicalLink.plain) (fun _ => rfl) aligned.links
    switchIds := by simpa [TopologyGraph.plain] using aligned.switchIds
    portIds := by simpa [TopologyGraph.plain] using aligned.portIds
    linkIds := by simpa [TopologyGraph.plain] using aligned.linkIds
    switchLists := by simpa [TopologyGraph.plain] using aligned.switchLists }

theorem Canonical.plain (canonical : Canonical g) : Canonical g.plain := by
  constructor
  · exact canonical.aligned.plain
  · intro rack member
    rw [leavesOfRack_plain]
    exact canonical.racks rack member
  · intro nic member
    rw [portsOwned_plain]
    exact canonical.nics nic member
  · intro gpu member
    rw [portsOwned_plain]
    exact canonical.gpus gpu member
  · intro s member
    obtain ⟨old, isOld, rfl⟩ := List.mem_map.mp member
    rw [portsOwned_plain]
    exact canonical.switches old isOld
  · intro port member
    obtain ⟨old, isOld, rfl⟩ := List.mem_map.mp member
    rw [count_plain]
    exact canonical.owners old isOld
  · intro port member
    obtain ⟨old, isOld, rfl⟩ := List.mem_map.mp member
    exact canonical.gpuPorts old isOld
  · simpa [TopologyGraph.plain] using canonical.pairs
  · intro i link found
    obtain ⟨old, isOld, rfl⟩ := Option.map_eq_some_iff.mp (List.getElem?_map ▸ found)
    obtain ⟨a, b, isA, isB, ends⟩ := canonical.links i old isOld
    exact ⟨a.plain, b.plain, by simp [TopologyGraph.plain, isA], by simp [TopologyGraph.plain, isB],
      ends⟩
  · intro i j less small
    simp only [SameEnds, ownerAt_plain]
    exact canonical.simple i j less (by simpa [TopologyGraph.plain] using small)
  · intro node small
    rw [arcsFrom_plain]
    exact canonical.arcs node (by rwa [count_plain] at small)

theorem canonical_of_plain (canonical : Canonical g.plain) : Canonical g := by
  constructor
  · exact aligned_of_plain canonical.aligned
  · intro rack member
    rw [← leavesOfRack_plain]
    exact canonical.racks rack member
  · intro nic member
    rw [← portsOwned_plain]
    exact canonical.nics nic member
  · intro gpu member
    rw [← portsOwned_plain]
    exact canonical.gpus gpu member
  · intro s member
    rw [← portsOwned_plain]
    exact canonical.switches s.plain (List.mem_map_of_mem member)
  · intro port member
    rw [← count_plain]
    exact canonical.owners port.plain (List.mem_map_of_mem member)
  · intro port member
    exact canonical.gpuPorts port.plain (List.mem_map_of_mem member)
  · simpa [TopologyGraph.plain] using canonical.pairs
  · intro i link found
    obtain ⟨a, b, isA, isB, ends⟩ := canonical.links i link.plain (by
      simp [TopologyGraph.plain, found])
    obtain ⟨oldA, isOldA, rfl⟩ := Option.map_eq_some_iff.mp (List.getElem?_map ▸ isA)
    obtain ⟨oldB, isOldB, rfl⟩ := Option.map_eq_some_iff.mp (List.getElem?_map ▸ isB)
    exact ⟨oldA, oldB, isOldA, isOldB, ends⟩
  · intro i j less small
    have apart := canonical.simple i j less (by simpa [TopologyGraph.plain] using small)
    simpa only [SameEnds, ownerAt_plain] using apart
  · intro node small
    rw [← arcsFrom_plain]
    exact canonical.arcs node (by rwa [count_plain])

theorem canonical_congr (same : g'.plain = g.plain) (canonical : Canonical g) : Canonical g' :=
  canonical_of_plain (same ▸ canonical.plain)

end Plain

/-! ## All graphs that can be built -/

/-- The graph a call leaves behind, however it ends. -/
def after {α : Type} (m : Action TopologyGraph α) (g : TopologyGraph) : TopologyGraph :=
  match m g with
  | .ok _ g' => g'
  | .error _ g' => g'

/-- Builder calls, throwing ones included, and state changes. -/
inductive Built : TopologyGraph → Prop where
  | empty : Built {}
  | addRack {g : TopologyGraph} : Built g → Built (after addRack g)
  | addNic {g : TopologyGraph} (rack : RackId) : Built g → Built (after (addNic rack) g)
  | addGpu {g : TopologyGraph} (nic : NicId) : Built g → Built (after (addGpu nic) g)
  | addLeafSwitch {g : TopologyGraph} (rack : RackId) :
    Built g → Built (after (addLeafSwitch rack) g)
  | addSpineSwitch {g : TopologyGraph} : Built g → Built (after addSpineSwitch g)
  | connectFabric {g : TopologyGraph} (a : NodeId) (roleA : PortRole) (b : NodeId)
    (roleB : PortRole) : Built g → Built (after (connectFabric a roleA b roleB) g)
  | setLinkState {g : TopologyGraph} (id : LinkId) (state : OperationalState) :
    Built g → Built (g.setLinkState id state).2
  | setPortState {g : TopologyGraph} (id : PortId) (state : OperationalState) :
    Built g → Built (g.setPortState id state).2
  | setSwitchState {g : TopologyGraph} (id : SwitchId) (state : OperationalState) :
    Built g → Built (g.setSwitchState id state).2

theorem Builds.canonical_after {α : Type} {m : Action TopologyGraph α} {g : TopologyGraph}
    (builds : Builds m g) : Canonical (after m g) := by
  unfold Builds wp at builds
  unfold after
  cases result : m g <;> simpa [result] using builds

theorem Built.canonical {g : TopologyGraph} (built : Built g) : Canonical g := by
  induction built with
  | empty => exact canonical_empty
  | addRack _ ih => exact (builds_addRack ih).canonical_after
  | addNic rack _ ih => exact (builds_addNic ih rack).canonical_after
  | addGpu nic _ ih => exact (builds_addGpu ih nic).canonical_after
  | addLeafSwitch rack _ ih => exact (builds_addLeafSwitch ih rack).canonical_after
  | addSpineSwitch _ ih => exact (builds_addSpineSwitch ih).canonical_after
  | connectFabric a roleA b roleB _ ih =>
    exact (builds_connectFabric ih a roleA b roleB).canonical_after
  | setLinkState id state _ ih => exact canonical_congr (plain_setLinkState id) ih
  | setPortState id state _ ih => exact canonical_congr (plain_setPortState id) ih
  | setSwitchState id state _ ih => exact canonical_congr (plain_setSwitchState id) ih

end TopologyGraph

end NexusLab.Topology
