import NexusLab.Basic
import Mathlib.Data.Prod.Lex

/-! # Topology entities

Identifiers, nodes, ports and links.  A directed link is one direction of a physical link; its
identifier orders the directions of a link next to each other, which is the order in which the
transport runtime walks its services. -/

namespace NexusLab.Topology

structure GpuIdTag
structure NicIdTag
structure SwitchIdTag
structure RackIdTag
structure PortIdTag
structure LinkIdTag

abbrev GpuId := StrongId GpuIdTag
abbrev NicId := StrongId NicIdTag
abbrev SwitchId := StrongId SwitchIdTag
abbrev RackId := StrongId RackIdTag
abbrev PortId := StrongId PortIdTag
abbrev LinkId := StrongId LinkIdTag

inductive NodeKind where
  | gpu
  | nic
  | switch
deriving DecidableEq

inductive SwitchRole where
  | leaf
  | spine
deriving DecidableEq

inductive PortRole where
  | local
  | fabricDownlink
  | fabricUplink
deriving DecidableEq

inductive LinkKind where
  | localAttachment
  | fabric
deriving DecidableEq

inductive OperationalState where
  | up
  | down
deriving DecidableEq

inductive LinkDirection where
  | aToB
  | bToA
deriving DecidableEq

/-- The enumerator values, which order nodes and directions and label metrics. -/
def NodeKind.value : NodeKind → Nat
  | .gpu => 1
  | .nic => 2
  | .switch => 3

def LinkDirection.value : LinkDirection → Nat
  | .aToB => 1
  | .bToA => 2

structure NodeId where
  kind : NodeKind
  value : Nat
deriving DecidableEq

def NodeId.ofGpu (id : GpuId) : NodeId := ⟨.gpu, id.value⟩
def NodeId.ofNic (id : NicId) : NodeId := ⟨.nic, id.value⟩
def NodeId.ofSwitch (id : SwitchId) : NodeId := ⟨.switch, id.value⟩

/-- The default comparison of the source: member by member. -/
def NodeId.key (n : NodeId) : ℕ ×ₗ ℕ := toLex (n.kind.value, n.value)

theorem NodeId.key_injective : Function.Injective NodeId.key := by
  rintro ⟨k, v⟩ ⟨k', v'⟩ same
  have pair : (k.value, v) = (k'.value, v') := toLex.injective same
  cases k <;> cases k' <;> simp_all [NodeKind.value]

instance : LinearOrder NodeId := LinearOrder.lift' NodeId.key NodeId.key_injective

structure GpuWorker where
  id : GpuId
  rack : RackId
  attachedNic : NicId
  port : PortId
deriving DecidableEq

structure Nic where
  id : NicId
  rack : RackId
  attachedGpus : List GpuId
  ports : List PortId
deriving DecidableEq

structure Switch where
  id : SwitchId
  rack : Option RackId
  role : SwitchRole
  ports : List PortId
  state : OperationalState
deriving DecidableEq

structure Rack where
  id : RackId
  gpus : List GpuId
  nics : List NicId
  leafSwitches : List SwitchId
deriving DecidableEq

structure Port where
  id : PortId
  owner : NodeId
  role : PortRole
  state : OperationalState
deriving DecidableEq

structure PhysicalLink where
  id : LinkId
  endpointA : PortId
  endpointB : PortId
  kind : LinkKind
  state : OperationalState
deriving DecidableEq

structure DirectedLinkId where
  link : LinkId
  direction : LinkDirection
deriving DecidableEq

def DirectedLinkId.key (d : DirectedLinkId) : ℕ ×ₗ ℕ := toLex (d.link.value, d.direction.value)

theorem DirectedLinkId.key_injective : Function.Injective DirectedLinkId.key := by
  rintro ⟨⟨l⟩, d⟩ ⟨⟨l'⟩, d'⟩ same
  have pair : (l, d.value) = (l', d'.value) := toLex.injective same
  cases d <;> cases d' <;> simp_all [LinkDirection.value]

instance : LinearOrder DirectedLinkId :=
  LinearOrder.lift' DirectedLinkId.key DirectedLinkId.key_injective

structure DirectedLink where
  id : DirectedLinkId
  source : PortId
  destination : PortId
deriving DecidableEq

/-- One direction of a physical link. -/
def PhysicalLink.directed (link : PhysicalLink) : LinkDirection → DirectedLink
  | .aToB => ⟨⟨link.id, .aToB⟩, link.endpointA, link.endpointB⟩
  | .bToA => ⟨⟨link.id, .bToA⟩, link.endpointB, link.endpointA⟩

def directedLinks (link : PhysicalLink) : List DirectedLink :=
  [link.directed .aToB, link.directed .bToA]

end NexusLab.Topology
