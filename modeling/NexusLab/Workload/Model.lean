import NexusLab.Collective.Runtime
import NexusLab.Scheduling.Policy

/-! # Jobs

What a training job asks for, the states it goes through, what the engine reports about it, and the
report of a run. -/

namespace NexusLab.Workload

open Sim Collective

inductive JobState where
  | scheduled
  | computing
  | overlapping
  | communicating
  | succeeded
  | failed
  | cancelled
  | waiting
deriving DecidableEq

def JobState.value : JobState → Nat
  | .scheduled => 1
  | .computing => 2
  | .overlapping => 3
  | .communicating => 4
  | .succeeded => 5
  | .failed => 6
  | .cancelled => 7
  | .waiting => 8

def JobState.terminal (state : JobState) : Bool :=
  state = .succeeded || state = .failed || state = .cancelled

inductive CollectiveKind where
  | allReduce
deriving DecidableEq

inductive CollectiveAlgorithm where
  | ring
deriving DecidableEq

structure JobSpec where
  name : String
  workers : List Topology.GpuId := []
  requestedWorkers : Nat := 0
  compute : List SimDurationNs := []
  arrival : SimTimeNs := 0
  steps : Nat := 1
  gradientBytes : Transport.ByteCount := 65536
  bucketBytes : Transport.ByteCount := 65536
  chunkBytes : Transport.ByteCount := 4096
  priority : Nat := 0
  overlap : Bool := false
  collective : CollectiveKind := .allReduce
  algorithm : CollectiveAlgorithm := .ring
deriving DecidableEq

structure WorkloadLimits where
  jobs : Nat := 10000
  workerEntries : Nat := 1000000
  computeEventEntries : Nat := 1000000
  workersPerJob : Nat := 8192
  stepsPerJob : Nat := 1000000
  bucketsPerStep : Nat := 4096
  computeEventsPerJob : Nat := 1000000
  timelineEntries : Nat := 1000000
deriving DecidableEq

def checkedSum (left right : Nat) : Except Error Nat :=
  if right > maxU64 - left then .error (.overflowError "workload quantity overflow")
  else .ok (left + right)

def checkedProduct (left right : Nat) : Except Error Nat :=
  if right ≠ 0 ∧ left > maxU64 / right then .error (.overflowError "workload quantity overflow")
  else .ok (left * right)

structure JobSnapshot where
  id : JobId
  state : JobState
  completedSteps : Nat
  arrival : SimTimeNs
  finished : Option SimTimeNs
  computeGpuNs : Nat
  idleGpuNs : Nat
  elapsedNs : Nat
  reason : String
  allocatedAt : Option SimTimeNs
  waitingNs : Nat := 0
deriving DecidableEq

structure JobTimeline where
  job : JobId
  timestamp : SimTimeNs
  state : JobState
  step : Nat
  bucket : Nat
  action : String
  collective : Option CollectiveId
deriving DecidableEq

structure TrainingReport where
  simulation : SimulationResult
  jobs : List JobSnapshot
  timeline : List JobTimeline
  collectives : List CollectiveResult
  collectiveTimeline : List CollectiveTimeline
  decisions : List Routing.RouteDecision
  maximumWaitingBytes : Nat := 0
  placements : List Scheduling.PlacementDecision
  telemetry : Telemetry.TelemetrySnapshot
deriving DecidableEq

end NexusLab.Workload
