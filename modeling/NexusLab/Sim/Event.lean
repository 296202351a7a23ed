import NexusLab.Collective.Planner
import NexusLab.Topology.Entities

/-! # Events

What the kernel schedules: a timestamp, a priority and the payload of one of the components.
Simulated time is a count of nanoseconds that fits in 64 bits; the checked additions below are
the only ways the source moves it. -/

namespace NexusLab

/-! ## Identifiers of the components -/

structure EventIdTag
structure TransferIdTag
structure ChunkIdTag
structure CollectiveIdTag
structure JobIdTag

abbrev EventId := StrongId EventIdTag
abbrev TransferId := StrongId TransferIdTag
abbrev ChunkId := StrongId ChunkIdTag
abbrev CollectiveId := StrongId CollectiveIdTag
abbrev JobId := StrongId JobIdTag

/-! ## Simulated time -/

abbrev SimTimeNs := Nat
abbrev SimDurationNs := Nat

namespace Sim

def checkedAdd (time : SimTimeNs) (duration : SimDurationNs) : Option SimTimeNs :=
  if duration > maxU64 - time then none else some (time + duration)

def checkedDifference (finish start : SimTimeNs) : Option SimDurationNs :=
  if finish < start then none else some (finish - start)

theorem checkedAdd_eq_some {time duration result : Nat}
    (h : checkedAdd time duration = some result) : result = time + duration := by
  unfold checkedAdd at h
  split at h
  · cases h
  · exact (Option.some.inj h).symm

theorem checkedDifference_of_le {finish start : Nat} (le : start ≤ finish) :
    checkedDifference finish start = some (finish - start) := if_neg (not_lt.mpr le)

end Sim

/-! ## Payloads -/

namespace Transport

structure ChunkArrivalEvent where
  chunk : ChunkId
  hopIndex : Nat
deriving DecidableEq

structure TransmissionCompleteEvent where
  link : Topology.LinkId
  chunk : ChunkId
  hopIndex : Nat
  direction : Topology.LinkDirection
deriving DecidableEq

structure LinkStateChangeEvent where
  link : Topology.LinkId
  state : Topology.OperationalState
deriving DecidableEq

structure PortStateChangeEvent where
  port : Topology.PortId
  state : Topology.OperationalState
deriving DecidableEq

structure SwitchStateChangeEvent where
  networkSwitch : Topology.SwitchId
  state : Topology.OperationalState
deriving DecidableEq

end Transport

namespace Workload

inductive WorkloadEventKind where
  | arrival
  | computeReady
  | cancel
  | workerFailure
  | gpuDown
  | gpuUp
deriving DecidableEq

structure WorkloadEvent where
  job : JobId
  kind : WorkloadEventKind
  worker : Nat := 0
  step : Nat := 0
  bucket : Nat := 0
deriving DecidableEq

end Workload

namespace Collective

structure LocalCompletionEvent where
  collective : CollectiveId
  round : Nat
  rank : Nat
  phase : Phase
deriving DecidableEq

end Collective

namespace Sim

inductive EventPriority where
  | critical
  | control
  | normal
  | background
deriving DecidableEq

def EventPriority.value : EventPriority → Nat
  | .critical => 0
  | .control => 64
  | .normal => 128
  | .background => 192

theorem EventPriority.value_injective : Function.Injective EventPriority.value := by
  intro a b same
  cases a <;> cases b <;> first | rfl | cases same

inductive EventPayload where
  | noOp (token : Nat)
  | chunkArrival (event : Transport.ChunkArrivalEvent)
  | transmissionComplete (event : Transport.TransmissionCompleteEvent)
  | linkStateChange (event : Transport.LinkStateChangeEvent)
  | portStateChange (event : Transport.PortStateChangeEvent)
  | switchStateChange (event : Transport.SwitchStateChangeEvent)
  | workload (event : Workload.WorkloadEvent)
  | localCompletion (event : Collective.LocalCompletionEvent)
deriving DecidableEq

structure EventSpec where
  timestamp : SimTimeNs
  priority : EventPriority := .normal
  payload : EventPayload
deriving DecidableEq

structure Event where
  timestamp : SimTimeNs
  priority : EventPriority
  id : EventId
  cause : Option EventId
  payload : EventPayload
deriving DecidableEq

end Sim

end NexusLab
