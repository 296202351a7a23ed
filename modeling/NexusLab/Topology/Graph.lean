import NexusLab.Foundation.Exec
import NexusLab.Topology.Entities

/-! # The topology graph

Entities are stored densely: the identifier of an entity is its index.  Builders append, state
changes flip an operational state in place and count revisions, and queries read.  A builder that
throws keeps whatever identifiers it had drawn. -/

namespace NexusLab.Topology

open Foundation

structure TopologyGraph where
  gpuIds : IdGenerator := {}
  nicIds : IdGenerator := {}
  switchIds : IdGenerator := {}
  rackIds : IdGenerator := {}
  portIds : IdGenerator := {}
  linkIds : IdGenerator := {}
  operationalRevision : Nat := 0
  gpus : List GpuWorker := []
  nics : List Nic := []
  switches : List Switch := []
  racks : List Rack := []
  ports : List Port := []
  links : List PhysicalLink := []
  gpuAdjacency : List (List DirectedLink) := []
  nicAdjacency : List (List DirectedLink) := []
  switchAdjacency : List (List DirectedLink) := []
deriving DecidableEq

/-- The entity at the index its identifier names, if it is really that entity. -/
def findDense {ε Tag : Type} (idOf : ε → StrongId Tag) (entities : List ε) (id : StrongId Tag) :
    Option ε :=
  match entities[id.value]? with
  | some entity => if idOf entity = id then some entity else none
  | none => none

namespace TopologyGraph

/-! ## Queries -/

def findGpu (g : TopologyGraph) (id : GpuId) : Option GpuWorker := findDense GpuWorker.id g.gpus id
def findNic (g : TopologyGraph) (id : NicId) : Option Nic := findDense Nic.id g.nics id
def findSwitch (g : TopologyGraph) (id : SwitchId) : Option Switch :=
  findDense Switch.id g.switches id
def findRack (g : TopologyGraph) (id : RackId) : Option Rack := findDense Rack.id g.racks id
def findPort (g : TopologyGraph) (id : PortId) : Option Port := findDense Port.id g.ports id
def findLink (g : TopologyGraph) (id : LinkId) : Option PhysicalLink :=
  findDense PhysicalLink.id g.links id

def contains (g : TopologyGraph) (node : NodeId) : Bool :=
  match node.kind with
  | .gpu => (g.findGpu ⟨node.value⟩).isSome
  | .nic => (g.findNic ⟨node.value⟩).isSome
  | .switch => (g.findSwitch ⟨node.value⟩).isSome

/-- Only switches have an operational state of their own. -/
def nodeIsOperational (g : TopologyGraph) (node : NodeId) : Bool :=
  g.contains node &&
    (node.kind ≠ .switch ||
      match g.findSwitch ⟨node.value⟩ with
      | some switch => switch.state = .up
      | none => false)

/-- The adjacency list of a node the graph contains. -/
def adjacency (g : TopologyGraph) (node : NodeId) : Except Error (List DirectedLink) :=
  if g.contains node = false then
    .error (.outOfRange "cannot query adjacency for an unknown topology node")
  else
    let lists := match node.kind with
      | .gpu => g.gpuAdjacency
      | .nic => g.nicAdjacency
      | .switch => g.switchAdjacency
    .ok (lists[node.value]?.getD [])

def outgoing (g : TopologyGraph) (node : NodeId) : Except Error (List DirectedLink) :=
  g.adjacency node

/-- An arc is operational when it is a direction of its link and the link, both ports and both
end nodes are up. -/
def isOperational (g : TopologyGraph) (arc : DirectedLink) : Bool :=
  match g.findLink arc.id.link, g.findPort arc.source, g.findPort arc.destination with
  | some link, some source, some destination =>
    (directedLinks link).contains arc && link.state = .up && source.state = .up &&
      destination.state = .up && g.nodeIsOperational source.owner &&
      g.nodeIsOperational destination.owner
  | _, _, _ => false

/-- Whether some arc leaves `a` for a port of `b`. -/
def directlyConnected (g : TopologyGraph) (a b : NodeId) : Except Error Bool := do
  let arcs ← g.adjacency a
  -- `any_of` stops at the first hit, and at the first dangling port
  let rec search : List DirectedLink → Except Error Bool
    | [] => .ok false
    | arc :: rest =>
      match g.findPort arc.destination with
      | none => .error (.logicError "topology adjacency references an unknown port")
      | some port => if port.owner = b then .ok true else search rest
  search arcs

/-! ## Operational state -/

def setLinkState (g : TopologyGraph) (id : LinkId) (state : OperationalState) :
    Bool × TopologyGraph :=
  match g.findLink id with
  | none => (false, g)
  | some link =>
    if link.state ≠ state then
      if g.operationalRevision = maxU64 then (false, g)
      else
        (true, { g with
          operationalRevision := g.operationalRevision + 1
          links := g.links.modify id.value fun l => { l with state } })
    else (true, g)

def setPortState (g : TopologyGraph) (id : PortId) (state : OperationalState) :
    Bool × TopologyGraph :=
  match g.findPort id with
  | none => (false, g)
  | some port =>
    if port.state ≠ state then
      if g.operationalRevision = maxU64 then (false, g)
      else
        (true, { g with
          operationalRevision := g.operationalRevision + 1
          ports := g.ports.modify id.value fun p => { p with state } })
    else (true, g)

def setSwitchState (g : TopologyGraph) (id : SwitchId) (state : OperationalState) :
    Bool × TopologyGraph :=
  match g.findSwitch id with
  | none => (false, g)
  | some switch =>
    if switch.state ≠ state then
      if g.operationalRevision = maxU64 then (false, g)
      else
        (true, { g with
          operationalRevision := g.operationalRevision + 1
          switches := g.switches.modify id.value fun s => { s with state } })
    else (true, g)

/-! ## Builders -/

/-- Draws an identifier from one of the graph's generators. -/
def nextId (generator : TopologyGraph → IdGenerator)
    (store : IdGenerator → TopologyGraph → TopologyGraph) : Action TopologyGraph Nat := do
  let drawn ← fromExcept ((generator (← get)).next "topology ID sequence exhausted")
  modify (store drawn.2)
  return drawn.1

def nextGpuId : Action TopologyGraph Nat :=
  nextId gpuIds fun ids g => { g with gpuIds := ids }
def nextNicId : Action TopologyGraph Nat :=
  nextId nicIds fun ids g => { g with nicIds := ids }
def nextSwitchId : Action TopologyGraph Nat :=
  nextId switchIds fun ids g => { g with switchIds := ids }
def nextRackId : Action TopologyGraph Nat :=
  nextId rackIds fun ids g => { g with rackIds := ids }
def nextPortId : Action TopologyGraph Nat :=
  nextId portIds fun ids g => { g with portIds := ids }
def nextLinkId : Action TopologyGraph Nat :=
  nextId linkIds fun ids g => { g with linkIds := ids }

def appendAdjacency (node : NodeId) (arc : DirectedLink) (g : TopologyGraph) : TopologyGraph :=
  match node.kind with
  | .gpu => { g with gpuAdjacency := g.gpuAdjacency.modify node.value (· ++ [arc]) }
  | .nic => { g with nicAdjacency := g.nicAdjacency.modify node.value (· ++ [arc]) }
  | .switch => { g with switchAdjacency := g.switchAdjacency.modify node.value (· ++ [arc]) }

def appendLink (link : PhysicalLink) (a b : NodeId) (g : TopologyGraph) : TopologyGraph :=
  appendAdjacency b (link.directed .bToA)
    (appendAdjacency a (link.directed .aToB) { g with links := g.links ++ [link] })

def appendOwnerPort (owner : NodeId) (port : PortId) : Action TopologyGraph Unit :=
  match owner.kind with
  | .gpu => throw (.logicError "GPU workers have exactly one local port")
  | .nic => modify fun g =>
    { g with nics := g.nics.modify owner.value fun n => { n with ports := n.ports ++ [port] } }
  | .switch => modify fun g =>
    { g with
      switches := g.switches.modify owner.value fun s => { s with ports := s.ports ++ [port] } }

def addRack : Action TopologyGraph RackId := do
  let id ← nextRackId
  modify fun g => { g with racks := g.racks ++ [⟨⟨id⟩, [], [], []⟩] }
  return ⟨id⟩

def addNic (rack : RackId) : Action TopologyGraph NicId := do
  throwIf ((← get).findRack rack = none) (.invalidArgument "cannot add NIC to an unknown rack")
  let id ← nextNicId
  modify fun g => { g with
    nics := g.nics ++ [⟨⟨id⟩, rack, [], []⟩]
    nicAdjacency := g.nicAdjacency ++ [[]]
    racks := g.racks.modify rack.value fun r => { r with nics := r.nics ++ [⟨id⟩] } }
  return ⟨id⟩

def addGpu (attachedNic : NicId) : Action TopologyGraph GpuId := do
  let nic ← getOrThrow ((← get).findNic attachedNic)
    (.invalidArgument "cannot add GPU to an unknown NIC")
  -- all identifiers are drawn before any list changes
  let gpuId ← nextGpuId
  let gpuPort ← nextPortId
  let nicPort ← nextPortId
  let linkId ← nextLinkId
  let gpuNode : NodeId := ⟨.gpu, gpuId⟩
  let nicNode := NodeId.ofNic attachedNic
  modify fun g => { g with
    gpus := g.gpus ++ [⟨⟨gpuId⟩, nic.rack, attachedNic, ⟨gpuPort⟩⟩]
    gpuAdjacency := g.gpuAdjacency ++ [[]]
    nics := g.nics.modify attachedNic.value fun n =>
      { n with attachedGpus := n.attachedGpus ++ [⟨gpuId⟩], ports := n.ports ++ [⟨nicPort⟩] }
    racks := g.racks.modify nic.rack.value fun r => { r with gpus := r.gpus ++ [⟨gpuId⟩] }
    ports := g.ports ++
      [⟨⟨gpuPort⟩, gpuNode, .local, .up⟩, ⟨⟨nicPort⟩, nicNode, .local, .up⟩] }
  modify (appendLink ⟨⟨linkId⟩, ⟨gpuPort⟩, ⟨nicPort⟩, .localAttachment, .up⟩ gpuNode nicNode)
  return ⟨gpuId⟩

def addLeafSwitch (rack : RackId) : Action TopologyGraph SwitchId := do
  throwIf ((← get).findRack rack = none)
    (.invalidArgument "cannot add leaf switch to an unknown rack")
  let id ← nextSwitchId
  modify fun g => { g with
    switches := g.switches ++ [⟨⟨id⟩, some rack, .leaf, [], .up⟩]
    switchAdjacency := g.switchAdjacency ++ [[]]
    racks := g.racks.modify rack.value fun r => { r with leafSwitches := r.leafSwitches ++ [⟨id⟩] } }
  return ⟨id⟩

def addSpineSwitch : Action TopologyGraph SwitchId := do
  let id ← nextSwitchId
  modify fun g => { g with
    switches := g.switches ++ [⟨⟨id⟩, none, .spine, [], .up⟩]
    switchAdjacency := g.switchAdjacency ++ [[]] }
  return ⟨id⟩

def connectFabric (a : NodeId) (roleA : PortRole) (b : NodeId) (roleB : PortRole) :
    Action TopologyGraph LinkId := do
  throwIf ((← get).contains a = false ∨ (← get).contains b = false)
    (.invalidArgument "cannot connect an unknown topology node")
  throwIf (a = b) (.invalidArgument "cannot connect a topology node to itself")
  throwIf (a.kind = .gpu ∨ b.kind = .gpu)
    (.invalidArgument "GPU fabric connections must use the attached NIC")
  throwIf (roleA = .local ∨ roleB = .local)
    (.invalidArgument "fabric connections require fabric port roles")
  throwIf ((← fromExcept ((← get).directlyConnected a b)) = true)
    (.invalidArgument "parallel physical links are not supported")
  -- all identifiers are drawn before any list changes
  let portA ← nextPortId
  let portB ← nextPortId
  let linkId ← nextLinkId
  appendOwnerPort a ⟨portA⟩
  appendOwnerPort b ⟨portB⟩
  modify fun g => { g with
    ports := g.ports ++ [⟨⟨portA⟩, a, roleA, .up⟩, ⟨⟨portB⟩, b, roleB, .up⟩] }
  modify (appendLink ⟨⟨linkId⟩, ⟨portA⟩, ⟨portB⟩, .fabric, .up⟩ a b)
  return ⟨linkId⟩

end TopologyGraph

end NexusLab.Topology
