import NexusLab.Sim.Event

/-! # The trace log

Every action of the kernel is appended as a record and folded into an FNV-1a hash. -/

namespace NexusLab.Sim

inductive TraceMode where
  | disabled
  | enabled
deriving DecidableEq

inductive TraceAction where
  | scheduled
  | dispatched
  | cancelled
  | stopRequested
  | completed
  | failed
deriving DecidableEq

def TraceAction.value : TraceAction → UInt8
  | .scheduled => 1
  | .dispatched => 2
  | .cancelled => 3
  | .stopRequested => 4
  | .completed => 5
  | .failed => 6

inductive EventPayloadKind where
  | noOp
  | chunkArrival
  | transmissionComplete
  | linkStateChange
  | portStateChange
  | switchStateChange
  | workload
  | localCollectiveCompletion
deriving DecidableEq

def EventPayloadKind.value : EventPayloadKind → UInt8
  | .noOp => 1
  | .chunkArrival => 2
  | .transmissionComplete => 3
  | .linkStateChange => 4
  | .portStateChange => 5
  | .switchStateChange => 6
  | .workload => 7
  | .localCollectiveCompletion => 8

def payloadKind : EventPayload → EventPayloadKind
  | .noOp _ => .noOp
  | .chunkArrival _ => .chunkArrival
  | .transmissionComplete _ => .transmissionComplete
  | .linkStateChange _ => .linkStateChange
  | .portStateChange _ => .portStateChange
  | .switchStateChange _ => .switchStateChange
  | .workload _ => .workload
  | .localCompletion _ => .localCollectiveCompletion

inductive StopReason where
  | requested
deriving DecidableEq

def StopReason.value : StopReason → UInt8
  | .requested => 1

structure TraceRecord where
  action : TraceAction
  recordedAt : SimTimeNs
  eventId : Option EventId
  cause : Option EventId
  eventTimestamp : Option SimTimeNs
  priority : Option EventPriority
  payloadKind : Option EventPayloadKind
  stopReason : Option StopReason
  error : Option String
deriving DecidableEq

/-! ## Hashing -/

def fnvPrime : UInt64 := 1099511628211
def fnvOffsetBasis : UInt64 := 14695981039346656037

def hashByte (hash : UInt64) (value : UInt8) : UInt64 := (hash ^^^ value.toUInt64) * fnvPrime

/-- The eight bytes of a word, least significant first. -/
def encodeU64 (value : Nat) : List UInt8 :=
  (List.range 8).map fun index => UInt8.ofNat (value >>> (index * 8))

/-- A presence byte, then the value. -/
def encodeOptional {α : Type} (encode : α → List UInt8) : Option α → List UInt8
  | none => [0]
  | some value => 1 :: encode value

def encodeError (error : String) : List UInt8 :=
  let bytes := textBytes error
  encodeU64 bytes.length ++ bytes

def encodeRecord (record : TraceRecord) : List UInt8 :=
  [record.action.value] ++ encodeU64 record.recordedAt ++
    encodeOptional (fun id => encodeU64 id.value) record.eventId ++
    encodeOptional (fun id => encodeU64 id.value) record.cause ++
    encodeOptional encodeU64 record.eventTimestamp ++
    encodeOptional (fun priority => [UInt8.ofNat priority.value]) record.priority ++
    encodeOptional (fun kind => [kind.value]) record.payloadKind ++
    encodeOptional (fun reason => [reason.value]) record.stopReason ++
    encodeOptional encodeError record.error

/-- Folds the bytes of a record into a hash. -/
def hashRecord (hash : UInt64) (record : TraceRecord) : UInt64 :=
  (encodeRecord record).foldl hashByte hash

structure TraceLog where
  mode : TraceMode
  records : List TraceRecord := []
  hash : UInt64 := fnvOffsetBasis
deriving DecidableEq

namespace TraceLog

def enabled (log : TraceLog) : Bool := log.mode = .enabled

def append (log : TraceLog) (record : TraceRecord) : TraceLog :=
  if log.enabled then
    { log with records := log.records ++ [record], hash := hashRecord log.hash record }
  else log

def reportedHash (log : TraceLog) : Option UInt64 := if log.enabled then some log.hash else none

end TraceLog

end NexusLab.Sim
