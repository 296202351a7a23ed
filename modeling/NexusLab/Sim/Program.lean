import NexusLab.Foundation.Bisimulation
import NexusLab.Sim.Simulation

/-! # Handlers as programs

A handler reaches the kernel only through its context.  `Program` is what such a handler does: a
tree of context calls whose continuations see the outcome of each call, a throw included, so that
a handler may also recover from one.  A `Host` runs programs over any scheduler that offers the
calls and logs, in order, what was scheduled, cancelled, stopped and dispatched. -/

namespace NexusLab.Sim

open Foundation

/-! ## Programs -/

inductive Program (α : Type) where
  | done (value : α)
  | raise (error : Error)
  | schedule (specification : EventSpec) (next : Except Error EventId → Program α)
  | cancel (id : EventId) (next : Except Error Bool → Program α)
  | stop (reason : StopReason) (next : Except Error Unit → Program α)
  | now (next : SimTimeNs → Program α)
  | currentEventId (next : Except Error EventId → Program α)
  | cause (next : Except Error (Option EventId) → Program α)
  | randomU64 (next : Except Error Nat → Program α)
  | randomBelow (upperExclusive : UInt64) (next : Except Error Nat → Program α)

/-- The calls of a context. -/
structure Operations (σ : Type) where
  schedule : EventSpec → Action σ EventId
  cancel : EventId → Action σ Bool
  stop : StopReason → Action σ Unit
  now : σ → SimTimeNs
  currentEventId : Action σ EventId
  cause : Action σ (Option EventId)
  randomU64 : Action σ Nat
  randomBelow : UInt64 → Action σ Nat

/-! ## Hosts -/

inductive LogEntry where
  | scheduled (id : EventId)
  | cancelled (id : EventId)
  | stopped
  | dispatched (event : Event) (clock : SimTimeNs)
deriving DecidableEq

structure Host (σ δ : Type) where
  scheduler : σ
  memory : δ
  log : List LogEntry := []

namespace Host

variable {σ δ α : Type}

def schedulerLens : Lens (Host σ δ) σ where
  get := scheduler
  set s h := { h with scheduler := s }
  get_set _ _ := rfl
  set_get _ := rfl
  set_set _ _ _ := rfl

def note (entries : List LogEntry) : Action (Host σ δ) Unit :=
  modify fun h => { h with log := h.log ++ entries }

/-- Calls the scheduler and logs the call when it has an effect. -/
def call (m : Action σ α) (entries : Except Error α → List LogEntry) :
    Action (Host σ δ) (Except Error α) := do
  let outcome ← attempt (zoom schedulerLens m)
  note (entries outcome)
  return outcome

def scheduleEntries : Except Error EventId → List LogEntry
  | .ok id => [.scheduled id]
  | .error _ => []

def cancelEntries (id : EventId) : Except Error Bool → List LogEntry
  | .ok true => [.cancelled id]
  | _ => []

def stopEntries : Except Error Unit → List LogEntry
  | .ok _ => [.stopped]
  | .error _ => []

/-- Runs a program over the calls of a scheduler. -/
def interpret (operations : Operations σ) : Program α → Action (Host σ δ) α
  | .done value => pure value
  | .raise error => throw error
  | .schedule specification next => do
    let outcome ← call (operations.schedule specification) scheduleEntries
    interpret operations (next outcome)
  | .cancel id next => do
    let outcome ← call (operations.cancel id) (cancelEntries id)
    interpret operations (next outcome)
  | .stop reason next => do
    let outcome ← call (operations.stop reason) stopEntries
    interpret operations (next outcome)
  | .now next => do
    let time ← reads fun h => operations.now h.scheduler
    interpret operations (next time)
  | .currentEventId next => do
    let outcome ← call operations.currentEventId fun _ => []
    interpret operations (next outcome)
  | .cause next => do
    let outcome ← call operations.cause fun _ => []
    interpret operations (next outcome)
  | .randomU64 next => do
    let outcome ← call operations.randomU64 fun _ => []
    interpret operations (next outcome)
  | .randomBelow upperExclusive next => do
    let outcome ← call (operations.randomBelow upperExclusive) fun _ => []
    interpret operations (next outcome)

/-- Logs the dispatch, runs the handler on the payload and keeps the memory it returns. -/
def dispatch (operations : Operations σ) (current : σ → Option Event)
    (handler : δ → EventPayload → Program δ) (payload : EventPayload) : Action (Host σ δ) Unit := do
  let entries ← reads fun h => match current h.scheduler with
    | some event => [LogEntry.dispatched event (operations.now h.scheduler)]
    | none => []
  note entries
  let memory ← reads Host.memory
  let next ← interpret operations (handler memory payload)
  modify fun h => { h with memory := next }

end Host

/-! ## The kernel as a host's scheduler -/

namespace Kernel

def operations : Operations Kernel where
  schedule := schedule
  cancel := cancel
  stop := stop
  now k := k.sim.now
  currentEventId := currentEventId
  cause := currentCause
  randomU64 := randomU64
  randomBelow := randomBelow

/-- Calls made before the run, then the run itself, with `handler` as the dispatcher. -/
def hostedRun {δ : Type} (setup : Program Unit) (handler : δ → EventPayload → Program δ)
    (rounds : Nat) : Action (Host Kernel δ) (Option SimulationResult) := do
  let _ ← attempt (Host.interpret operations setup)
  run Host.schedulerLens (Host.dispatch operations (fun k => k.sim.currentEvent) handler) rounds

end Kernel

end NexusLab.Sim
