import NexusLab.Foundation.OrderedMap
import NexusLab.Sim.Event
import NexusLab.Topology.Graph
import Mathlib.Data.List.Sort

/-! # GPUs and where jobs are placed

The inventory keeps the health and the owner of every GPU, in the order of their identifiers.  A
policy looks at it and places a job, lets it wait or rejects it. -/

namespace NexusLab.Scheduling

open Foundation NexusLab.Topology

/-! ## The inventory -/

structure Resource where
  gpu : GpuId
  rack : RackId
  nic : NicId
  healthy : Bool := true
  owner : Option JobId := none
deriving DecidableEq

/-- Nothing stands in the way of using the GPU. -/
def Resource.free (r : Resource) : Bool := r.healthy && r.owner.isNone

structure ResourceInventory where
  gpus : List Resource
deriving DecidableEq

namespace ResourceInventory

def create (graph : TopologyGraph) : Except Error ResourceInventory :=
  if graph.gpus = [] ∨ graph.gpus.length > 8192 then
    .error (.lengthError "scheduler inventory requires 1..8192 GPUs")
  else
    let gpus := graph.gpus.map fun gpu => (⟨gpu.id, gpu.rack, gpu.attachedNic, true, none⟩ : Resource)
    .ok ⟨gpus.insertionSort fun a b => a.gpu ≤ b.gpu⟩

/-- The position `std::lower_bound` finds. -/
def lowerBound (gpus : List Resource) (gpu : GpuId) : Nat :=
  (gpus.takeWhile fun r => r.gpu < gpu).length

/-- The positions of the workers, if all of them may be allocated; `unique` lists those before. -/
def positions (gpus : List Resource) : List GpuId → List GpuId → Except Error (List Nat)
  | [], _ => .ok []
  | id :: workers, unique =>
    match gpus[lowerBound gpus id]? with
    | none => .error (.invalidArgument "placement contains unavailable or duplicate GPU")
    | some found =>
      if found.gpu ≠ id ∨ found.healthy = false ∨ found.owner.isSome = true ∨ id ∈ unique then
        .error (.invalidArgument "placement contains unavailable or duplicate GPU")
      else do
        let rest ← positions gpus workers (id :: unique)
        return lowerBound gpus id :: rest

def allocate (job : JobId) (workers : List GpuId) (inventory : ResourceInventory) :
    Except Error ResourceInventory :=
  if workers = [] ∨ workers.length > inventory.gpus.length ∨
      inventory.gpus.any (fun r => r.owner = some job) = true then
    .error (.invalidArgument "invalid or duplicate allocation")
  else do
    let indices ← positions inventory.gpus workers []
    return ⟨indices.foldl (fun gpus index => gpus.modify index fun r => { r with owner := some job })
      inventory.gpus⟩

def release (job : JobId) (inventory : ResourceInventory) : ResourceInventory :=
  ⟨inventory.gpus.map fun r => if r.owner = some job then { r with owner := none } else r⟩

/-- The owner of the GPU, and the inventory after the change. -/
def setHealth (gpu : GpuId) (healthy : Bool) (inventory : ResourceInventory) :
    Except Error (Option JobId × ResourceInventory) :=
  let index := lowerBound inventory.gpus gpu
  match inventory.gpus[index]? with
  | none => .error (.invalidArgument "unknown scheduler GPU")
  | some found =>
    if found.gpu ≠ gpu then .error (.invalidArgument "unknown scheduler GPU")
    else .ok (found.owner, ⟨inventory.gpus.modify index fun r => { r with healthy }⟩)

end ResourceInventory

/-! ## Measures -/

/-- The number of free GPUs in each rack. -/
def freeByRack (gpus : List Resource) : OrderedMap RackId Nat :=
  (gpus.filter Resource.free).foldl
    (fun free r => free.insert r.rack ((free.find? r.rack).getD 0 + 1)) .empty

def fragmentation (gpus : List Resource) : Nat :=
  (gpus.filter Resource.free).length - (freeByRack gpus).values.foldl max 0

structure Locality where
  racks : Nat := 0
  nics : Nat := 0
  crossRackRingEdges : Nat := 0
deriving DecidableEq

def findResource (gpus : List Resource) (gpu : GpuId) : Except Error Resource :=
  match gpus.find? fun r => r.gpu = gpu with
  | some r => .ok r
  | none => .error (.outOfRange "map::at")

def locality (gpus : List Resource) (workers : List GpuId) : Except Error Locality := do
  let found ← workers.mapM (findResource gpus)
  let racks := found.map Resource.rack
  -- every worker with the next one around the ring
  let edges := (racks.zip (racks.rotate 1)).filter fun edge => edge.1 ≠ edge.2
  return ⟨racks.dedup.length, (found.map Resource.nic).dedup.length, edges.length⟩

/-! ## Policies -/

structure JobRequest where
  job : JobId
  workers : Nat
  priority : Nat
  pinned : List GpuId

inductive PlacementOutcome where
  | placed
  | waiting
  | rejected
deriving DecidableEq

def PlacementOutcome.value : PlacementOutcome → Nat
  | .placed => 1
  | .waiting => 2
  | .rejected => 3

structure Placement where
  outcome : PlacementOutcome
  workers : List GpuId
  reason : String
deriving DecidableEq

/-- A policy is a function of the request and the resources; one that is not built in may throw. -/
structure SchedulingPolicy where
  place : JobRequest → List Resource → Except Error Placement

structure Configuration where
  policy : String := "first-fit"
  seed : Nat := 42
  decisionEntries : Nat := 1000000
  allocationEntries : Nat := 1000000

structure PlacementDecision where
  job : JobId
  timestamp : SimTimeNs
  policy : String
  version : Nat
  priority : Nat
  requestedWorkers : Nat
  outcome : PlacementOutcome
  workers : List GpuId
  reason : String
  locality : Locality
  fragmentationBefore : Nat
  fragmentationAfter : Nat
deriving DecidableEq

def mix (value : Nat) : Nat :=
  let value := U64.mul (value ^^^ (value >>> 30)) 0xbf58476d1ce4e5b9
  let value := U64.mul (value ^^^ (value >>> 27)) 0x94d049bb133111eb
  value ^^^ (value >>> 31)

/-- Whether some pinned GPU is not available; `none` when the list itself is invalid. -/
def pinnedBlocked (gpus : List Resource) : List GpuId → List GpuId → Bool → Option Bool
  | [], _, blocked => some blocked
  | id :: pinned, unique, blocked =>
    match gpus.find? fun r => r.gpu = id with
    | none => none
    | some found =>
      if id ∈ unique then none
      else pinnedBlocked gpus pinned (id :: unique) (blocked || !found.free)

def placePinned (request : JobRequest) (gpus : List Resource) : Placement :=
  match pinnedBlocked gpus request.pinned [] false with
  | none => ⟨.rejected, [], "invalid pinned GPU list"⟩
  | some true => ⟨.waiting, [], "pinned GPUs unavailable"⟩
  | some false => ⟨.placed, request.pinned, "pinned rank order"⟩

/-- How many of the GPUs have the given value of a key. -/
def countOf {κ : Type} [DecidableEq κ] (key : Resource → κ) (gpus : List Resource) (k : κ) : Nat :=
  (gpus.filter fun r => key r = k).length

/-- The order of `compact`: the racks, and in a rack the NICs, with the most free GPUs first. -/
def compactBefore (free : List Resource) (a b : Resource) : Bool :=
  if a.rack ≠ b.rack then
    let countA := countOf Resource.rack free a.rack
    let countB := countOf Resource.rack free b.rack
    if countA ≠ countB then countA > countB else a.rack < b.rack
  else if a.nic ≠ b.nic then
    let countA := countOf Resource.nic free a.nic
    let countB := countOf Resource.nic free b.nic
    if countA ≠ countB then countA > countB else a.nic < b.nic
  else a.gpu < b.gpu

def compact (free : List Resource) : List Resource :=
  free.insertionSort fun a b => compactBefore free a b = true

def rackLocal (free : List Resource) (count : Nat) : List Resource :=
  match ((freeByRack free).entries.find? fun entry => entry.2 ≥ count) with
  | none => free
  | some (rack, _) => free.filter (fun r => r.rack = rack) ++ free.filter (fun r => r.rack ≠ rack)

def randomScore (seed : Nat) (job : JobId) (gpu : GpuId) : Nat :=
  mix (seed ^^^ mix (U64.add job.value 0x9e3779b97f4a7c15) ^^^ mix gpu.value)

def randomBefore (seed : Nat) (job : JobId) (a b : Resource) : Bool :=
  let left := randomScore seed job a.gpu
  let right := randomScore seed job b.gpu
  if left ≠ right then left < right else a.gpu < b.gpu

/-- The free GPUs in the order in which a policy takes them. -/
def order (name : String) (seed : Nat) (request : JobRequest) (free : List Resource) :
    List Resource :=
  let free := free.insertionSort fun a b => a.gpu ≤ b.gpu
  if name = "random" then
    free.insertionSort fun a b => randomBefore seed request.job a b = true
  else if name = "rack-local" then rackLocal free request.workers
  else if name = "compact" then compact free
  else free

def builtinPlace (name : String) (seed : Nat) (request : JobRequest) (gpus : List Resource) :
    Placement :=
  if request.workers = 0 ∨ request.workers > gpus.length ∨
      (request.pinned ≠ [] ∧ request.pinned.length ≠ request.workers) then
    ⟨.rejected, [], "request exceeds physical capacity or has invalid dimensions"⟩
  else if request.pinned ≠ [] then placePinned request gpus
  else
    let free := gpus.filter Resource.free
    if free.length < request.workers then ⟨.waiting, [], "insufficient free healthy GPUs"⟩
    else
      ⟨.placed, ((order name seed request free).take request.workers).map Resource.gpu,
        name ++ " deterministic rank order"⟩

def makePolicy (name : String) (seed : Nat) : Except Error SchedulingPolicy :=
  if name ≠ "first-fit" ∧ name ≠ "random" ∧ name ≠ "rack-local" ∧ name ≠ "compact" then
    .error (.invalidArgument "unknown scheduling policy")
  else .ok ⟨fun request gpus => .ok (builtinPlace name seed request gpus)⟩

end NexusLab.Scheduling
