import NexusLab.Topology.Connectivity

/-! # Validation of a topology

The validator goes over all entities and reports every relation that does not hold, and then every
node that no chain of links joins to the first GPU.  It trusts nothing: it looks identifiers up
afresh and counts what each list says. -/

namespace NexusLab.Topology

open Foundation

inductive ValidationErrorCode where
  | emptyTopology
  | nonDenseId
  | unknownReference
  | relationshipMismatch
  | portOwnershipMismatch
  | portLinkCountMismatch
  | linkEndpointMismatch
  | linkKindMismatch
  | adjacencyMismatch
  | disconnectedNode
  | topologyShapeMismatch
deriving DecidableEq

structure ValidationError where
  code : ValidationErrorCode
  message : String
  node : Option NodeId := none
  link : Option LinkId := none
deriving DecidableEq

/-- The errors, in the order in which they were found. -/
abbrev ValidationReport := List ValidationError

namespace Validation

/-- An error, unless the relation holds. -/
def require (holds : Prop) [Decidable holds] (error : ValidationError) : ValidationReport :=
  if holds then [] else [error]

/-! ## Identity -/

def hasDenseIds {ε Tag : Type} (idOf : ε → StrongId Tag) (entities : List ε) : Bool :=
  entities.zipIdx.all fun entry => (idOf entry.1).value = entry.2

def validateDense {ε Tag : Type} (idOf : ε → StrongId Tag) (entities : List ε)
    (entityKind : String) : ValidationReport :=
  require (hasDenseIds idOf entities = true)
    { code := .nonDenseId
      message := entityKind ++ " identifiers must be dense and index-aligned" }

def validateIdentity (g : TopologyGraph) : ValidationReport :=
  require (g.gpus ≠ [])
      { code := .emptyTopology, message := "topology must contain at least one GPU" } ++
    validateDense GpuWorker.id g.gpus "GPU" ++ validateDense Nic.id g.nics "NIC" ++
    validateDense Switch.id g.switches "switch" ++ validateDense Rack.id g.racks "rack" ++
    validateDense Port.id g.ports "port" ++ validateDense PhysicalLink.id g.links "link"

/-! ## Racks -/

def validateRackGpus (g : TopologyGraph) (rack : Rack) : ValidationReport :=
  rack.gpus.flatMap fun id =>
    match g.findGpu id with
    | none => [{ code := .unknownReference, message := "rack references an unknown GPU" }]
    | some gpu => require (gpu.rack = rack.id ∧ rack.gpus.count id = 1)
      { code := .relationshipMismatch
        message := "rack and GPU membership must be reciprocal"
        node := some (.ofGpu id) }

def validateRackNics (g : TopologyGraph) (rack : Rack) : ValidationReport :=
  rack.nics.flatMap fun id =>
    match g.findNic id with
    | none => [{ code := .unknownReference, message := "rack references an unknown NIC" }]
    | some nic => require (nic.rack = rack.id ∧ rack.nics.count id = 1)
      { code := .relationshipMismatch
        message := "rack and NIC membership must be reciprocal"
        node := some (.ofNic id) }

def validateRackSwitches (g : TopologyGraph) (rack : Rack) : ValidationReport :=
  rack.leafSwitches.flatMap fun id =>
    match g.findSwitch id with
    | none => [{ code := .unknownReference, message := "rack references an unknown switch" }]
    | some s => require
        (s.role = .leaf ∧ s.rack = some rack.id ∧ rack.leafSwitches.count id = 1)
      { code := .relationshipMismatch
        message := "rack and leaf-switch membership must be reciprocal"
        node := some (.ofSwitch id) }

def validateRacks (g : TopologyGraph) : ValidationReport :=
  g.racks.flatMap fun rack =>
    validateRackGpus g rack ++ validateRackNics g rack ++ validateRackSwitches g rack

/-! ## Nodes -/

def validateGpu (g : TopologyGraph) (gpu : GpuWorker) : ValidationReport :=
  match g.findNic gpu.attachedNic, g.findRack gpu.rack, g.findPort gpu.port with
  | some nic, some rack, some port =>
    require (nic.rack = gpu.rack ∧ nic.attachedGpus.count gpu.id = 1 ∧ rack.gpus.count gpu.id = 1)
        { code := .relationshipMismatch
          message := "GPU, NIC, and rack membership must be reciprocal"
          node := some (.ofGpu gpu.id) } ++
      require (port.owner = .ofGpu gpu.id ∧ port.role = .local)
        { code := .portOwnershipMismatch
          message := "GPU local port has an invalid owner or role"
          node := some (.ofGpu gpu.id) }
  -- one issue for all three, and no further checks
  | _, _, _ =>
    [{ code := .unknownReference
       message := "GPU references an unknown rack, NIC, or port"
       node := some (.ofGpu gpu.id) }]

def validateOwnedPorts (g : TopologyGraph) (owner : NodeId) (ports : List PortId) :
    ValidationReport :=
  ports.flatMap fun id =>
    match g.findPort id with
    | none =>
      [{ code := .unknownReference
         message := "node references an unknown port"
         node := some owner }]
    | some port => require (port.owner = owner ∧ ports.count id = 1)
      { code := .portOwnershipMismatch
        message := "port ownership must be reciprocal and unique"
        node := some owner }

def validateNicHome (g : TopologyGraph) (nic : Nic) : ValidationReport :=
  match g.findRack nic.rack with
  | none =>
    [{ code := .unknownReference
       message := "NIC references an unknown rack"
       node := some (.ofNic nic.id) }]
  | some rack => require (rack.nics.count nic.id = 1)
    { code := .relationshipMismatch
      message := "NIC and rack membership must be reciprocal"
      node := some (.ofNic nic.id) }

def validateAttachedGpus (g : TopologyGraph) (nic : Nic) : ValidationReport :=
  nic.attachedGpus.flatMap fun id =>
    match g.findGpu id with
    | none =>
      [{ code := .unknownReference
         message := "NIC references an unknown GPU"
         node := some (.ofNic nic.id) }]
    | some gpu => require (gpu.attachedNic = nic.id ∧ nic.attachedGpus.count id = 1)
      { code := .relationshipMismatch
        message := "NIC and GPU attachment must be reciprocal"
        node := some (.ofNic nic.id) }

def validateNic (g : TopologyGraph) (nic : Nic) : ValidationReport :=
  validateNicHome g nic ++ validateAttachedGpus g nic ++
    validateOwnedPorts g (.ofNic nic.id) nic.ports

def validateSwitchHome (g : TopologyGraph) (s : Switch) : ValidationReport :=
  match s.role with
  | .leaf =>
    -- no rack and an unknown one are the same issue
    match s.rack.bind g.findRack with
    | none =>
      [{ code := .unknownReference
         message := "leaf switch must reference a known rack"
         node := some (.ofSwitch s.id) }]
    | some rack => require (rack.leafSwitches.count s.id = 1)
      { code := .relationshipMismatch
        message := "leaf switch and rack membership must be reciprocal"
        node := some (.ofSwitch s.id) }
  | .spine => require (s.rack = none)
    { code := .relationshipMismatch
      message := "spine switch must not belong to a rack"
      node := some (.ofSwitch s.id) }

def validateSwitch (g : TopologyGraph) (s : Switch) : ValidationReport :=
  validateSwitchHome g s ++ validateOwnedPorts g (.ofSwitch s.id) s.ports

/-! ## Ports -/

/-- Counts no further than two. -/
def countPortEndpoint (counts : List Nat) (endpoint : PortId) : List Nat :=
  counts.modify endpoint.value fun count => if count < 2 then count + 1 else count

def portLinkCounts (g : TopologyGraph) : List Nat :=
  g.links.foldl
    (fun counts link => countPortEndpoint (countPortEndpoint counts link.endpointA) link.endpointB)
    (List.replicate g.ports.length 0)

def ownerReferences (g : TopologyGraph) (port : Port) : Bool :=
  match port.owner.kind with
  | .gpu =>
    match g.findGpu ⟨port.owner.value⟩ with
    | some gpu => gpu.port = port.id
    | none => false
  | .nic =>
    match g.findNic ⟨port.owner.value⟩ with
    | some nic => nic.ports.count port.id = 1
    | none => false
  | .switch =>
    match g.findSwitch ⟨port.owner.value⟩ with
    | some s => s.ports.count port.id = 1
    | none => false

def validatePort (g : TopologyGraph) (counts : List Nat) (port : Port) : ValidationReport :=
  require (ownerReferences g port = true)
      { code := .portOwnershipMismatch
        message := "port owner does not reference the port exactly once"
        node := some port.owner } ++
    require (counts[port.id.value]? = some 1)
      { code := .portLinkCountMismatch
        message := "every port must terminate exactly one physical link"
        node := some port.owner }

/-! ## Links -/

def validateLinkKind (link : PhysicalLink) (a b : Port) : ValidationReport :=
  let isGpuNic := a.owner.kind = .gpu ∧ b.owner.kind = .nic ∨ a.owner.kind = .nic ∧ b.owner.kind = .gpu
  let validLocal := link.kind = .localAttachment ∧ isGpuNic ∧ a.role = .local ∧ b.role = .local
  let validFabric := link.kind = .fabric ∧ a.owner.kind ≠ .gpu ∧ b.owner.kind ≠ .gpu ∧
    a.role ≠ .local ∧ b.role ≠ .local
  require (validLocal ∨ validFabric)
    { code := .linkKindMismatch
      message := "link kind, endpoint node kinds, and port roles are inconsistent"
      link := some link.id }

def validateAdjacency (g : TopologyGraph) (link : PhysicalLink) (a b : Port) :
    Except Error ValidationReport := do
  let fromA ← g.outgoing a.owner
  let mismatch : ValidationError :=
    { code := .adjacencyMismatch
      message := "physical link must have one directed arc from each endpoint"
      link := some link.id }
  -- the second list is looked at only when the first one is right
  if fromA.count (link.directed .aToB) ≠ 1 then return [mismatch]
  else
    let fromB ← g.outgoing b.owner
    return require (fromB.count (link.directed .bToA) = 1) mismatch

def validateLink (g : TopologyGraph) (link : PhysicalLink) : Except Error ValidationReport :=
  match g.findPort link.endpointA, g.findPort link.endpointB with
  | some a, some b =>
    -- the adjacency of an unknown owner is not looked at
    if g.contains a.owner = false ∨ g.contains b.owner = false then
      return [{ code := .unknownReference
                message := "physical link endpoint has an unknown owner"
                link := some link.id }]
    else do
      let adjacency ← validateAdjacency g link a b
      return require (a.id ≠ b.id ∧ a.owner ≠ b.owner)
          { code := .linkEndpointMismatch
            message := "physical link endpoints must be distinct nodes"
            link := some link.id } ++
        validateLinkKind link a b ++ adjacency
  | _, _ =>
    return [{ code := .unknownReference
              message := "physical link references an unknown endpoint"
              link := some link.id }]

/-! ## Connectivity -/

structure StructuralVisited where
  gpus : List Bool
  nics : List Bool
  switches : List Bool

namespace StructuralVisited

def create (g : TopologyGraph) : StructuralVisited where
  gpus := List.replicate g.gpus.length false
  nics := List.replicate g.nics.length false
  switches := List.replicate g.switches.length false

def values (visited : StructuralVisited) : NodeKind → List Bool
  | .gpu => visited.gpus
  | .nic => visited.nics
  | .switch => visited.switches

def contains (visited : StructuralVisited) (node : NodeId) : Bool :=
  (visited.values node.kind)[node.value]?.getD false

/-- Marks a node; `none` when there is no such node or it was marked before. -/
def mark (visited : StructuralVisited) (node : NodeId) : Option StructuralVisited :=
  match (visited.values node.kind)[node.value]? with
  | some false =>
    match node.kind with
    | .gpu => some { visited with gpus := visited.gpus.set node.value true }
    | .nic => some { visited with nics := visited.nics.set node.value true }
    | .switch => some { visited with switches := visited.switches.set node.value true }
  | _ => none

end StructuralVisited

/-- One arc of the node that the traversal is at. -/
def meet (g : TopologyGraph) (state : StructuralVisited × List NodeId) (arc : DirectedLink) :
    StructuralVisited × List NodeId :=
  match g.findPort arc.destination with
  | none => state
  | some port =>
    match state.1.mark port.owner with
    | none => state
    | some visited => (visited, state.2 ++ [port.owner])

/-- One node off the queue. -/
def traverse (g : TopologyGraph) (visited : StructuralVisited) (current : NodeId)
    (pending : List NodeId) : Except Error (StructuralVisited × List NodeId) := do
  let arcs ← g.outgoing current
  return arcs.foldl (meet g) (visited, pending)

def reportIfDisconnected (visited : StructuralVisited) (node : NodeId) : ValidationReport :=
  require (visited.contains node = true)
    { code := .disconnectedNode
      message := "topology node is disconnected from the GPU component"
      node := some node }

def validateConnectivity (g : TopologyGraph) : Except Error ValidationReport :=
  match g.gpus with
  | [] => return []
  | first :: _ => do
    let start := NodeId.ofGpu first.id
    let marked := ((StructuralVisited.create g).mark start).getD (.create g)
    let visited ← drain (.undefinedBehavior "more nodes than the graph has") (traverse g)
      g.nodes.length marked [start]
    return g.nodes.flatMap (reportIfDisconnected visited)

end Validation

open Validation in
def validateTopology (g : TopologyGraph) : Except Error ValidationReport := do
  let counts := portLinkCounts g
  let links ← g.links.mapM (validateLink g)
  let disconnected ← validateConnectivity g
  return validateIdentity g ++ validateRacks g ++ g.gpus.flatMap (validateGpu g) ++
    g.nics.flatMap (validateNic g) ++ g.switches.flatMap (validateSwitch g) ++
    g.ports.flatMap (validatePort g counts) ++ links.flatten ++ disconnected

end NexusLab.Topology
