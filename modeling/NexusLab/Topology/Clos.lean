import NexusLab.Topology.Validation

/-! # Leaf-spine and Clos topologies

A leaf-spine fabric is a rack for each leaf switch, with as many NICs in a rack and GPUs on a NIC
as asked for, and a link from every leaf to every spine.  A Clos configuration counts the same
fabric from its GPUs; the validator of a Clos counts it once more, by a way of its own. -/

namespace NexusLab.Topology

open Foundation

/-! ## Counts -/

namespace Families

def checkedAdd (topologyName : String) (left right : Nat) : Except Error Nat :=
  if maxU64 - left < right then
    .error (.overflowError (topologyName ++ " entity count overflow"))
  else .ok (left + right)

def checkedMultiply (topologyName : String) (left right : Nat) : Except Error Nat :=
  if left ≠ 0 ∧ right > maxU64 / left then
    .error (.overflowError (topologyName ++ " entity count overflow"))
  else .ok (left * right)

def requirePositive (topologyName fieldName : String) (value : Nat) : Except Error Unit :=
  if value = 0 then
    .error (.invalidArgument (topologyName ++ " " ++ fieldName ++ " must be positive"))
  else .ok ()

end Families

open Families

/-! ## Leaf-spine -/

structure LeafSpineConfig where
  leafCount : Nat
  nicsPerLeaf : Nat
  gpusPerNic : Nat
  spineCount : Nat
deriving DecidableEq

def validateLeafSpineConfig (config : LeafSpineConfig) : Except Error Unit := do
  requirePositive "leaf-spine" "leaf count" config.leafCount
  requirePositive "leaf-spine" "NICs per leaf" config.nicsPerLeaf
  requirePositive "leaf-spine" "GPUs per NIC" config.gpusPerNic
  requirePositive "leaf-spine" "spine count" config.spineCount
  let nicCount ← checkedMultiply "leaf-spine" config.leafCount config.nicsPerLeaf
  let gpuCount ← checkedMultiply "leaf-spine" nicCount config.gpusPerNic
  let leafSpineLinks ← checkedMultiply "leaf-spine" config.leafCount config.spineCount
  let attachmentLinks ← checkedAdd "leaf-spine" gpuCount nicCount
  let linkCount ← checkedAdd "leaf-spine" attachmentLinks leafSpineLinks
  let _ ← checkedAdd "leaf-spine" config.leafCount config.spineCount
  let _ ← checkedMultiply "leaf-spine" linkCount 2
  return ()

open TopologyGraph

/-- One NIC of a rack, with its GPUs and its link to the leaf. -/
def addRackNic (gpusPerNic : Nat) (rack : RackId) (leaf : SwitchId) : Action TopologyGraph Unit := do
  let nic ← addNic rack
  (List.range gpusPerNic).forM fun _ => do
    let _ ← addGpu nic
  let _ ← connectFabric (.ofNic nic) .fabricUplink (.ofSwitch leaf) .fabricDownlink

def addLeafRack (nicCount gpusPerNic : Nat) : Action TopologyGraph SwitchId := do
  let rack ← addRack
  let leaf ← addLeafSwitch rack
  (List.range nicCount).forM fun _ => addRackNic gpusPerNic rack leaf
  return leaf

/-- The body of the generator, on a graph to build in. -/
def buildLeafSpine (config : LeafSpineConfig) : Action TopologyGraph Unit := do
  let leaves ← (List.range config.leafCount).mapM fun _ =>
    addLeafRack config.nicsPerLeaf config.gpusPerNic
  let spines ← (List.range config.spineCount).mapM fun _ => addSpineSwitch
  leaves.forM fun leaf => spines.forM fun spine => do
    let _ ← connectFabric (.ofSwitch leaf) .fabricUplink (.ofSwitch spine) .fabricDownlink

def generateLeafSpine (config : LeafSpineConfig) : Except Error TopologyGraph := do
  validateLeafSpineConfig config
  -- a throw drops the graph that was being built
  match buildLeafSpine config {} with
  | .ok _ g => .ok g
  | .error e _ => .error e

/-! ## Clos -/

structure ClosConfig where
  gpuCount : Nat
  gpusPerNic : Nat
  nicsPerLeaf : Nat
  spineCount : Nat
deriving DecidableEq

structure ClosDimensions where
  gpuCount : Nat
  nicCount : Nat
  leafCount : Nat
  spineCount : Nat
  rackCount : Nat
  switchCount : Nat
  portCount : Nat
  linkCount : Nat
deriving DecidableEq

def closDimensions (config : ClosConfig) : Except Error ClosDimensions := do
  requirePositive "Clos" "GPU count" config.gpuCount
  requirePositive "Clos" "GPUs per NIC" config.gpusPerNic
  requirePositive "Clos" "NICs per leaf" config.nicsPerLeaf
  requirePositive "Clos" "spine count" config.spineCount
  if config.gpuCount % config.gpusPerNic ≠ 0 then
    .error (.invalidArgument "Clos GPU count must be divisible by GPUs per NIC")
  else
    let nicCount := config.gpuCount / config.gpusPerNic
    if nicCount % config.nicsPerLeaf ≠ 0 then
      .error (.invalidArgument "Clos NIC count must be divisible by NICs per leaf")
    else
      let leafCount := nicCount / config.nicsPerLeaf
      -- every product and sum is checked, so the counts fit a word
      let leafSpineLinks ← checkedMultiply "Clos topology" leafCount config.spineCount
      let switchCount ← checkedAdd "Clos topology" leafCount config.spineCount
      let attachmentLinks ← checkedAdd "Clos topology" config.gpuCount nicCount
      let linkCount ← checkedAdd "Clos topology" attachmentLinks leafSpineLinks
      let portCount ← checkedMultiply "Clos topology" linkCount 2
      return {
        gpuCount := config.gpuCount, nicCount, leafCount, spineCount := config.spineCount
        rackCount := leafCount, switchCount, portCount, linkCount }

def generateClos (config : ClosConfig) : Except Error TopologyGraph := do
  let dimensions ← closDimensions config
  generateLeafSpine ⟨dimensions.leafCount, config.nicsPerLeaf, config.gpusPerNic,
    dimensions.spineCount⟩

/-! ## Validation of a Clos -/

namespace Validation

/-- Whether some arc leaves the first node for a port of the second; ports that are missing are
passed over. -/
def directlyConnected (g : TopologyGraph) (source destination : NodeId) : Except Error Bool := do
  let arcs ← g.outgoing source
  return arcs.any fun arc =>
    match g.findPort arc.destination with
    | some port => port.owner = destination
    | none => false

/-- `all_of`, which stops at the first that does not hold. -/
def allOf {α : Type} (holds : α → Except Error Bool) : List α → Except Error Bool
  | [] => .ok true
  | a :: rest => do
    if ← holds a then allOf holds rest else return false

def nicMatchesClos (g : TopologyGraph) (config : ClosConfig) (leaf : SwitchId) (id : NicId) :
    Except Error Bool :=
  match g.findNic id with
  | none => .ok false
  | some nic =>
    if nic.attachedGpus.length ≠ config.gpusPerNic then .ok false
    else directlyConnected g (.ofNic id) (.ofSwitch leaf)

def rackMatchesClos (g : TopologyGraph) (rack : Rack) (config : ClosConfig)
    (spines : List SwitchId) : Except Error Bool := do
  let expectedGpuCount := U64.mul config.nicsPerLeaf config.gpusPerNic
  match rack.leafSwitches with
  | [leafId] =>
    if rack.nics.length ≠ config.nicsPerLeaf ∨ rack.gpus.length ≠ expectedGpuCount then
      return false
    else match g.findSwitch leafId with
      | none => return false
      | some leaf =>
        -- no port is left for a link beyond these
        if leaf.ports.length ≠ U64.add config.nicsPerLeaf config.spineCount then return false
        else if ← allOf (nicMatchesClos g config leafId) rack.nics then
          allOf (fun spine => directlyConnected g (.ofSwitch leafId) (.ofSwitch spine)) spines
        else return false
  | _ => return false

def switchesOf (g : TopologyGraph) (role : SwitchRole) : List SwitchId :=
  (g.switches.filter fun s => s.role = role).map Switch.id

def matchesClosShape (g : TopologyGraph) (config : ClosConfig) (expected : ClosDimensions) :
    Except Error Bool :=
  if g.gpus.length ≠ expected.gpuCount ∨ g.nics.length ≠ expected.nicCount ∨
      g.racks.length ≠ expected.rackCount ∨ g.switches.length ≠ expected.switchCount ∨
      g.ports.length ≠ expected.portCount ∨ g.links.length ≠ expected.linkCount then
    .ok false
  else
    let leaves := switchesOf g .leaf
    let spines := switchesOf g .spine
    if leaves.length ≠ expected.leafCount ∨ spines.length ≠ expected.spineCount then .ok false
    -- with one port for each leaf a spine has no other link
    else if ! spines.all fun id =>
        match g.findSwitch id with
        | some spine => spine.ports.length = expected.leafCount
        | none => false then
      .ok false
    else allOf (fun rack => rackMatchesClos g rack config spines) g.racks

end Validation

open Validation in
def validateClosTopology (g : TopologyGraph) (config : ClosConfig) :
    Except Error ValidationReport := do
  let expected ← closDimensions config
  let report ← validateTopology g
  if report ≠ [] then return report
  else if ← matchesClosShape g config expected then return report
  else return report ++
    [{ code := .topologyShapeMismatch
       message := "topology does not match the requested Clos profile" }]

end NexusLab.Topology
