import NexusLab.Routing.Router

/-! # Collectives

What the executor of collectives reports. -/

namespace NexusLab.Collective

def Phase.value : Phase → Nat
  | .reduceScatter => 1
  | .allGather => 2
  | .succeeded => 3
  | .failed => 4
  | .cancelled => 5

structure CollectiveResult where
  id : CollectiveId
  outcome : Phase
  started : SimTimeNs
  finished : SimTimeNs
  plannedBytes : Nat
  issuedFabricBytes : Nat
  issuedLocalBytes : Nat
  deliveredBytes : Nat
  reason : String
deriving DecidableEq

structure CollectiveTimeline where
  id : CollectiveId
  timestamp : SimTimeNs
  phase : Phase
  round : Nat
deriving DecidableEq

end NexusLab.Collective
