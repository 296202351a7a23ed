import NexusLab.Collective.Runs
import NexusLab.Workload.Collectives
import NexusLab.Workload.Events
import NexusLab.Workload.Readiness

/-! # Runs of the engine

In a run the engine is called in any order, and between its calls the rest of the program goes on as it
likes.  What is assumed of the rest: a run goes on from the calls that return, the executor gives every
collective an identifier of its own (`Issues`), and nobody but the engine reports about jobs.

* `EngineRun.kept`: what every state of a run has in common, over any executor.
* `EngineRun.contained`: on the ring executor, what the executor does between the calls is part of a run.
* `replay`: a run on the ring executor, move by move.
-/

namespace NexusLab.Workload

open Foundation Sim Telemetry Collective Scheduling NexusLab.Topology

variable {X : Type} {executor : CollectiveExecutor X} {issued : X → CollectiveId → Prop}
  {start w : Working X} {handed : List JobSnapshot}

/-! ## Runs -/

/-- A run, and the snapshots that it has handed over. -/
inductive EngineRun (executor : CollectiveExecutor X) (issued : X → CollectiveId → Prop)
    (start : Working X) : List JobSnapshot → Working X → Prop where
  | refl : EngineRun executor issued start [] start
  | handled {handed : List JobSnapshot} {w w' : Working X} {event : Event} {e : WorkloadEvent}
    (before : EngineRun executor issued start handed w)
    (current : (executor.sim w).currentEvent = some event) (payload : event.payload = .workload e)
    (ok : WorkloadEngine.handle executor e w = .ok () w') : EngineRun executor issued start handed w'
  | heard {handed : List JobSnapshot} {w w' : Working X} {completion : CollectiveResult}
    (before : EngineRun executor issued start handed w)
    (ok : WorkloadEngine.handleResult executor completion w = .ok () w') :
    EngineRun executor issued start handed w'
  | dispatched {handed : List JobSnapshot} {w w' : Working X}
    (before : EngineRun executor issued start handed w)
    (ok : WorkloadEngine.dispatchWaiting executor w = .ok () w') :
    EngineRun executor issued start handed w'
  | scheduled {handed : List JobSnapshot} {w w' : Working X} {specification : JobSpec} {id : JobId}
    (before : EngineRun executor issued start handed w) (word : specification.gradientBytes ≤ maxU64)
    (ok : WorkloadEngine.schedule executor specification w = .ok id w') :
    EngineRun executor issued start handed w'
  | controlled {handed : List JobSnapshot} {w w' : Working X} {job : JobId}
    {kind : WorkloadEventKind} {time : SimTimeNs} {worker : Nat} {id : EventId}
    (before : EngineRun executor issued start handed w)
    (ok : WorkloadEngine.scheduleControl executor job kind time worker w = .ok id w') :
    EngineRun executor issued start handed w'
  | gpuScheduled {handed : List JobSnapshot} {w w' : Working X} {gpu : GpuId} {healthy : Bool}
    {time : SimTimeNs} {id : EventId} (before : EngineRun executor issued start handed w)
    (ok : WorkloadEngine.scheduleGpuState executor gpu healthy time w = .ok id w') :
    EngineRun executor issued start handed w'
  | taken {handed more : List JobSnapshot} {w w' : Working X}
    (before : EngineRun executor issued start handed w)
    (ok : WorkloadEngine.takeCompleted w = .ok more w') :
    EngineRun executor issued start (handed ++ more) w'
  | passed {handed : List JobSnapshot} {w : Working X} {x : X} {events : List Event}
    (before : EngineRun executor issued start handed w)
    (run : KernelRun (executor.kernel.get w.outside) events (executor.kernel.get x))
    (word : (executor.simOf x).now ≤ maxU64)
    (ledger : (executor.kernel.get x).ledger = executor.ledger w)
    (keeps : ∀ id, issued w.outside id → issued x id) :
    EngineRun executor issued start handed { w with outside := x }

/-- How a run begins: the engine has just been created. -/
structure EngineStart (executor : CollectiveExecutor X) (start : Working X) : Prop where
  created : ∃ graph limits scheduling policy, (graph.gpus.map GpuWorker.id).Nodup ∧
    limits.bucketsPerStep ≤ maxU32 ∧
    WorkloadEngine.create graph limits scheduling policy = .ok start.engine
  valid : (executor.sim start).Valid
  word : (executor.sim start).now ≤ maxU64

/-- A created engine has no jobs, and nobody has a GPU. -/
theorem create_ok {graph : TopologyGraph} {limits : WorkloadLimits} {scheduling : Option Configuration}
    {policy : Option SchedulingPolicy} {engine : WorkloadEngine}
    (created : WorkloadEngine.create graph limits scheduling policy = .ok engine) :
    engine.limits = limits ∧ engine.jobs = .empty ∧ engine.assignments = .empty ∧
      engine.collectives = .empty ∧ engine.scheduling.isSome = engine.inventory.isSome ∧
      ∀ inventory, engine.inventory = some inventory → ResourceInventory.create graph = .ok inventory := by
  unfold WorkloadEngine.create at created
  dsimp only at created
  cases scheduling with
  | none =>
    dsimp only at created
    split at created
    · cases created
    · obtain ⟨made, isMade, created⟩ := returned_of_bind created
      cases isMade
      split at created
      · cases created
      · cases created
        exact ⟨rfl, rfl, rfl, rfl, rfl, by rintro _ ⟨⟩⟩
  | some configuration =>
    dsimp only at created
    -- the inventory is made first, then the policy by its name or the one that was given
    split at created
    · cases created
    · obtain ⟨inventory, isInventory, created⟩ := returned_of_bind created
      have rest : ∃ policy : SchedulingPolicy, engine =
          { limits, scheduling := some configuration, inventory := some inventory,
            policy := some policy } := by
        cases policy with
        | none =>
          obtain ⟨policy, _, created⟩ := returned_of_bind created
          obtain ⟨made, isMade, created⟩ := returned_of_bind created
          cases isMade
          split at created
          · cases created
          · cases created
            exact ⟨policy, rfl⟩
        | some policy =>
          obtain ⟨policy, _, created⟩ := returned_of_bind created
          obtain ⟨made, isMade, created⟩ := returned_of_bind created
          cases isMade
          split at created
          · cases created
          · cases created
            exact ⟨policy, rfl⟩
      obtain ⟨policy, rfl⟩ := rest
      exact ⟨rfl, rfl, rfl, rfl, rfl, fun _ same => by cases same; exact isInventory⟩

theorem EngineStart.standing (begins : EngineStart executor start) :
    Standing executor issued (fun _ => False) start ∧ start.engine.Conserving ∧
      start.engine.limits.bucketsPerStep ≤ maxU32 := by
  obtain ⟨graph, limits, scheduling, policy, unique, narrow, created⟩ := begins.created
  obtain ⟨isLimits, jobs, assignments, collectives, equipped, inventory⟩ := create_ok created
  -- every clause is about jobs, holders or owners, and there are none
  have nobody : ∀ {job record}, start.engine.jobs.find? job ≠ some record := by
    intro job record
    rw [jobs]
    rintro ⟨⟩
  have unheld : ∀ {job gpu}, ¬ start.engine.Holds job gpu := by
    rintro job gpu ⟨_, found, _⟩
    exact nobody found
  have unowned : ∀ made, start.engine.inventory = some made → ∀ r ∈ made.gpus, r.owner = none := by
    intro made isMade r member
    have madeOf := inventory made isMade
    unfold ResourceInventory.create at madeOf
    split at madeOf
    · cases madeOf
    · cases madeOf
      obtain ⟨gpu, _, rfl⟩ := List.mem_map.mp (List.mem_insertionSort _ |>.mp member)
      rfl
  refine ⟨⟨⟨⟨begins.valid, begins.word, ?_, ?_, ?_, ?_, ?_, ?_⟩, ⟨?_, ?_, ?_⟩, ?_⟩, ?_, ?_, ?_, ?_,
    equipped⟩, ?_, isLimits ▸ narrow⟩
  · exact fun found => absurd found nobody
  · exact fun found => absurd found nobody
  · exact fun found => absurd found nobody
  · exact fun found => absurd found nobody
  · exact fun found => absurd found nobody
  · intro id job
    show start.engine.collectives.find? id = some job ↔ _
    rw [collectives]
    refine ⟨by rintro ⟨⟩, ?_⟩
    rintro ⟨_, found, _⟩
    exact absurd found nobody
  · intro gpu job
    rw [assignments]
    exact ⟨by rintro ⟨⟩, fun held => absurd held unheld⟩
  · exact fun made isMade => ResourceInventory.create_ordered unique (inventory made isMade)
  · intro made isMade gpu job
    refine ⟨?_, fun held => absurd held unheld⟩
    rintro ⟨r, member, _, owned⟩
    rw [unowned made isMade r member] at owned
    cases owned
  · intro id owner isOwner
    rw [collectives] at isOwner
    cases isOwner
  · exact fun found => absurd found nobody
  · exact fun found => absurd found nobody
  · intro made isMade r member owner owned
    rw [unowned made isMade r member] at owned
    cases owned
  · exact fun found => absurd found nobody
  · exact .inr fun _ _ found => absurd found nobody

/-- What every call keeps, a run keeps. -/
theorem EngineRun.kept (run : EngineRun executor issued start handed w)
    (issues : Issues executor issued) (begins : EngineStart executor start) :
    Standing executor issued (fun _ => False) w ∧
      Course (executor.desk start) handed (executor.desk w) ∧
      w.engine.settings = start.engine.settings ∧
      (start.engine.IsSteady → w.engine.Conserving) := by
  obtain ⟨standing₀, conserving₀, narrow⟩ := @EngineStart.standing _ executor issued _ begins
  -- a call adds its own course to that of the run
  have call : ∀ {handed more : List JobSnapshot} {w w' : Working X},
      (Standing executor issued (fun _ => False) w ∧
        Course (executor.desk start) handed (executor.desk w) ∧
        w.engine.settings = start.engine.settings ∧ (start.engine.IsSteady → w.engine.Conserving)) →
      Kept executor issued w more w' →
      Standing executor issued (fun _ => False) w' ∧
        Course (executor.desk start) (handed ++ more) (executor.desk w') ∧
        w'.engine.settings = start.engine.settings ∧ (start.engine.IsSteady → w'.engine.Conserving) := by
    rintro handed more w w' ⟨_, course, settings, conserving⟩ ⟨done, conserves⟩
    exact ⟨done.standing, course.trans done.course, done.settings.trans settings,
      fun steady => conserves (steady.of_settings settings) (conserving steady)⟩
  induction run with
  | refl => exact ⟨standing₀, .refl, rfl, fun _ => conserving₀⟩
  | handled _ current payload ok ih =>
    have kept := wp_of_ok (ih.1.wp_handle issues current payload) ok
    simpa using call ih kept
  | heard _ ok ih =>
    have kept := wp_of_ok (ih.1.wp_handleResult issues) ok
    simpa using call ih kept
  | dispatched _ ok ih =>
    have kept := wp_of_ok (ih.1.wp_dispatch issues) ok
    simpa using call ih kept
  | @scheduled _ w _ _ _ _ word ok ih =>
    have limits : w.engine.limits = start.engine.limits := congrArg (·.1) ih.2.2.1
    have kept := wp_of_ok (ih.1.wp_schedule issues (limits ▸ narrow) word) ok
    simpa using call ih kept
  | controlled _ ok ih =>
    have kept := wp_of_ok (ih.1.wp_scheduleControl issues) ok
    simpa using call ih kept
  | gpuScheduled _ ok ih =>
    have kept := wp_of_ok (ih.1.wp_scheduleGpuState issues) ok
    simpa using call ih kept
  | taken _ ok ih =>
    have kept := wp_of_ok ih.1.wp_takeCompleted ok
    exact call ih kept
  -- between two calls the engine stands still
  | @passed handed w x events before run word ledger keeps ih =>
    obtain ⟨standing, course, settings, conserving⟩ := ih
    have passed : Standing executor issued (fun _ => False) { w with outside := x } ∧
        Course (executor.desk w) [] (executor.desk { w with outside := x }) :=
      standing.outside rfl ledger (run.onward standing.orderly.sound.valid) word keeps
    refine ⟨passed.1, ?_, settings, conserving⟩
    simpa using course.trans passed.2

/-! ## The ring executor between the calls -/

/-- What calls make of a kernel is a run of it. -/
theorem callKept_run (start : Kernel) : CallKept fun k => KernelRun start [] k where
  schedule _ _ run := wp_intro (fun _ _ ok => run.tail (.schedule ok)) fun _ _ _ => trivial
  cancel _ _ run := wp_intro (fun _ _ ok => run.tail (.cancel ok)) fun _ _ _ => trivial
  stop _ _ run := wp_intro (fun _ _ ok => run.tail (.stop ok)) fun _ _ _ => trivial
  randomU64 _ run := wp_intro (fun _ _ ok => run.tail (.randomU64 ok)) fun _ _ _ => trivial
  randomBelow _ _ run := wp_intro (fun _ _ ok => run.tail (.randomBelow ok)) fun _ _ _ => trivial
  observe _ _ _ run := wp_intro (fun _ _ ok => run.tail (.observe ok)) fun _ _ _ => trivial

section Ring

open NumberedRing

variable {start w w' : Working NumberedRing} {handed : List JobSnapshot} {α : Type}

theorem EngineRun.contained (before : EngineRun ringCollectives submitted start handed w)
    (begins : EngineStart ringCollectives start) {m : Action Ring α} (contained : Ring.Contained m)
    {a : α} {x : NumberedRing} (ok : lift m contained.keeps w.outside = .ok a x) :
    EngineRun ringCollectives submitted start handed { w with outside := x } := by
  obtain ⟨standing, _⟩ := before.kept issues_ring begins
  have sound := standing.orderly.sound
  have calls : ThroughCalls NumberedRing.kernelLens (lift m contained.keeps) :=
    calls_lift contained.keeps contained.calls
  have run := wp_of_ok (calls _ (callKept_run _) w.outside .refl) ok
  obtain ⟨evolves, ledger⟩ := wp_of_ok (wp_throughCalls calls sound.valid) ok
  obtain ⟨size, _⟩ := wp_of_ok (contained.numbered _ _ w.outside.numbered) (lift_ok _ ok)
  refine .passed before run ?_ ledger fun id known => ?_
  · show (NumberedRing.kernelLens.get x).sim.now ≤ maxU64
    rw [evolves.now]
    exact sound.word
  · unfold submitted at known ⊢
    rwa [size]

/-- A step of the simulation that reports about no job. -/
theorem EngineRun.stepped (before : EngineRun ringCollectives submitted start handed w)
    {m : Action Kernel α} (free : ∀ l, Preserves (fun k : Kernel => k.ledger = l) m) {a : α}
    {k : Kernel} {started : Option Event} (ok : m (NumberedRing.kernelLens.get w.outside) = .ok a k)
    (step : KernelStep (NumberedRing.kernelLens.get w.outside) started k)
    (word : k.sim.now ≤ maxU64) : EngineRun ringCollectives submitted start handed
      { w with outside := NumberedRing.kernelLens.set k w.outside } := by
  have ledger := wp_of_ok (free _ _ rfl) ok
  exact .passed before (.tail .refl step) word ledger fun _ known => known

end Ring

/-! ## Replays -/

/-- The moves of a replay: calls of the engine, steps of the simulation, the dispatch of an event to the
engine or the executor, and a completion of the fabric. -/
inductive EngineMove where
  | schedule (specification : JobSpec)
  | dispatchWaiting
  | hear
  | run
  | start
  | conclude
  | handle
  | deliver (completion : Transport.TransferCompletion)

namespace EngineMove

open NumberedRing

/-- The state after a call of the engine, provided that it returns. -/
def call {α : Type} (m : Action (Working NumberedRing) α) (w : Working NumberedRing) :
    Option (Working NumberedRing) :=
  if returns m w then some (finalState (m w)) else none

/-- The state after a step of the simulation. -/
def step {α : Type} (m : Action Kernel α) (w : Working NumberedRing) :
    Option (Working NumberedRing) :=
  let k := NumberedRing.kernelLens.get w.outside
  if returns m k ∧ (finalState (m k)).sim.now ≤ maxU64 then
    some { w with outside := NumberedRing.kernelLens.set (finalState (m k)) w.outside }
  else none

def play (w : Working NumberedRing) : EngineMove → Option (Working NumberedRing)
  | .schedule specification =>
    if specification.gradientBytes ≤ maxU64 then
      call (WorkloadEngine.schedule ringCollectives specification) w
    else none
  | .dispatchWaiting => call (WorkloadEngine.dispatchWaiting ringCollectives) w
  | .hear =>
    match w.outside.ring.executor.completed with
    | result :: _ => call (WorkloadEngine.handleResult ringCollectives result) w
    | [] => none
  | .run => step Kernel.beginRun w
  | .start => step Kernel.startNext w
  | .conclude => step Kernel.endDispatch w
  | .handle =>
    match (ringCollectives.sim w).currentEvent with
    | some ⟨_, _, _, _, .workload event⟩ => call (WorkloadEngine.handle ringCollectives event) w
    | some ⟨_, _, _, _, .localCompletion event⟩ =>
      match lift (Ring.handleLocalCompletion event)
        (Ring.contained_handleLocalCompletion event).keeps w.outside with
      | .ok _ x => some { w with outside := x }
      | .error _ _ => none
    | _ => none
  | .deliver completion =>
    match lift (Ring.handleTransfer completion)
      (Ring.contained_handleTransfer completion).keeps w.outside with
    | .ok _ x => some { w with outside := x }
    | .error _ _ => none

def replay (moves : List EngineMove) (w : Working NumberedRing) : Option (Working NumberedRing) :=
  moves.foldlM play w

end EngineMove

section Replay

open NumberedRing

variable {start w w' : Working NumberedRing} {handed : List JobSnapshot} {α : Type}

theorem call_ok {m : Action (Working NumberedRing) α} (played : EngineMove.call m w = some w') :
    ∃ a, m w = .ok a w' := by
  unfold EngineMove.call at played
  split at played
  · rename_i returned
    obtain ⟨a, final, ok⟩ := ok_of_returns returned
    rw [ok] at played
    cases played
    exact ⟨a, ok⟩
  · cases played

theorem EngineRun.step (before : EngineRun ringCollectives submitted start handed w)
    {m : Action Kernel α} (free : ∀ l, Preserves (fun k : Kernel => k.ledger = l) m)
    (isStep : ∀ {k k' : Kernel} {a : α}, m k = .ok a k' → ∃ started, KernelStep k started k')
    (played : EngineMove.step m w = some w') :
    EngineRun ringCollectives submitted start handed w' := by
  unfold EngineMove.step at played
  dsimp only at played
  split at played
  · rename_i returned
    obtain ⟨a, final, ok⟩ := ok_of_returns returned.1
    have word := returned.2
    rw [ok] at played word
    cases played
    obtain ⟨started, step⟩ := isStep ok
    exact before.stepped free ok step word
  · cases played

theorem EngineRun.play (before : EngineRun ringCollectives submitted start handed w)
    (begins : EngineStart ringCollectives start) {move : EngineMove} (played : move.play w = some w') :
    EngineRun ringCollectives submitted start handed w' := by
  cases move with
  | schedule specification =>
    simp only [EngineMove.play] at played
    split at played
    · rename_i word
      obtain ⟨_, ok⟩ := call_ok played
      exact .scheduled before word ok
    · cases played
  | dispatchWaiting =>
    obtain ⟨_, ok⟩ := call_ok played
    exact .dispatched before ok
  | hear =>
    simp only [EngineMove.play] at played
    split at played
    · obtain ⟨_, ok⟩ := call_ok played
      exact .heard before ok
    · cases played
  | run => exact before.step preserves_beginRun (fun ok => ⟨_, .beginRun ok⟩) played
  | start => exact before.step preserves_startNext (fun ok => ⟨_, .startNext ok⟩) played
  | conclude =>
    exact before.step (fun l => preserves_modifySim l _) (fun ok => ⟨_, .endDispatch ok⟩) played
  | handle =>
    simp only [EngineMove.play] at played
    split at played
    · rename_i current
      obtain ⟨_, ok⟩ := call_ok played
      exact .handled before current rfl ok
    · rename_i event current
      split at played
      · rename_i ok
        cases played
        exact before.contained begins (Ring.contained_handleLocalCompletion event) ok
      · cases played
    · cases played
  | deliver completion =>
    simp only [EngineMove.play] at played
    split at played
    · rename_i ok
      cases played
      exact before.contained begins (Ring.contained_handleTransfer completion) ok
    · cases played

theorem EngineRun.replay {moves : List EngineMove}
    (before : EngineRun ringCollectives submitted start handed w)
    (begins : EngineStart ringCollectives start) (played : EngineMove.replay moves w = some w') :
    EngineRun ringCollectives submitted start handed w' := by
  induction moves generalizing w with
  | nil =>
    cases played
    exact before
  | cons move moves ih =>
    simp only [EngineMove.replay, List.foldlM_cons, Option.bind_eq_bind,
      Option.bind_eq_some_iff] at played
    obtain ⟨middle, first, rest⟩ := played
    exact ih (before.play begins first) rest

end Replay

end NexusLab.Workload
