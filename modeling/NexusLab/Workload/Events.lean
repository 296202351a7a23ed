import NexusLab.Workload.Dispatch

/-! # What the engine is called with

The engine is called with the events of the simulation and the results of its collectives, with new
jobs and with orders for later.  After every such call all jobs are settled again. -/

namespace NexusLab.Workload

open Foundation Sim Telemetry Collective Scheduling NexusLab.Topology

variable {X : Type} {executor : CollectiveExecutor X} {issued : X → CollectiveId → Prop}
  {job : JobId} {w₀ w : Working X} {record : Record}

/-! ## Sizes of an accepted job -/

/-- The buckets are as many as the gradient takes. -/
theorem buckets_cover {gradient bucket : Nat} (some_ : 0 < gradient) (positive : 0 < bucket) :
    (gradient / bucket + (if gradient % bucket ≠ 0 then 1 else 0) - 1) * bucket < gradient ∧
      gradient ≤ (gradient / bucket + if gradient % bucket ≠ 0 then 1 else 0) * bucket := by
  have whole := Nat.div_add_mod' gradient bucket
  have rest := Nat.mod_lt gradient positive
  -- the last bucket is full, or it takes what is left over
  by_cases even : gradient % bucket = 0
  · rw [even, Nat.add_zero] at whole
    have any : 0 < gradient / bucket := by
      refine Nat.pos_of_ne_zero fun none => ?_
      rw [none, Nat.zero_mul] at whole
      exact some_.ne whole
    rw [if_neg (not_not.mpr even), Nat.add_zero]
    refine ⟨?_, whole.ge⟩
    calc (gradient / bucket - 1) * bucket
      _ < gradient / bucket * bucket := Nat.mul_lt_mul_of_pos_right (Nat.sub_one_lt any.ne') positive
      _ = gradient := whole
  · rw [if_pos even, Nat.add_sub_cancel, Nat.succ_mul]
    omega

/-- The sizes that the engine has seen to; without a scheduler the workers are named. -/
theorem measured_of_validate {engine : WorkloadEngine} {graph : TopologyGraph} {spec : JobSpec}
    {buckets : Nat} (ok : engine.validate graph spec = .ok buckets)
    (word : spec.gradientBytes ≤ maxU64) (isSpec : record.spec = spec)
    (isBuckets : record.buckets = buckets) : record.Measured ∧
      (engine.scheduling = none → spec.workers.length = spec.compute.length) := by
  unfold WorkloadEngine.validate at ok
  dsimp only at ok
  generalize isWorkers : (if spec.requestedWorkers ≠ 0 then spec.requestedWorkers
    else spec.workers.length) = workers at ok
  generalize isCount : (spec.gradientBytes / spec.bucketBytes +
    if spec.gradientBytes % spec.bucketBytes ≠ 0 then 1 else 0) = count at ok
  -- the checks of the source, in its order
  split at ok
  · cases ok
  rename_i requested
  split at ok
  · cases ok
  rename_i fine
  split at ok
  · cases ok
  obtain ⟨events, _, ok⟩ := returned_of_bind ok
  split at ok
  · cases ok
  obtain ⟨_, _, ok⟩ := returned_of_bind ok
  obtain ⟨_, _, ok⟩ := returned_of_bind ok
  cases ok
  simp only [not_or, ne_eq, not_not] at fine
  obtain ⟨_, _, _, _, crew, _, size, _, _, gradient, bucket, _⟩ := fine
  obtain ⟨covers, exhausts⟩ :=
    buckets_cover (Nat.pos_of_ne_zero gradient) (Nat.pos_of_ne_zero bucket)
  rw [isCount, ← isBuckets] at covers exhausts
  rw [← isSpec] at covers exhausts bucket word size
  refine ⟨⟨fun none => ?_, Nat.pos_of_ne_zero bucket, covers, exhausts, word⟩, fun unscheduled => ?_⟩
  · rw [none] at size
    exact crew size.symm
  · rw [← isSpec, size, ← isWorkers, if_neg fun ask => requested ⟨ask, .inl ?_⟩, isSpec]
    rw [unscheduled]
    rfl

/-! ## The health of a GPU -/

/-- The health of a GPU has changed; its owner may have one that is down. -/
theorem Standing.sensed {gpu : GpuId} {healthy : Bool} {owner : Option JobId}
    {inventory inventory' : ResourceInventory}
    (standing : Standing executor issued (fun _ => False) w)
    (isInventory : w.engine.inventory = some inventory)
    (set : inventory.setHealth gpu healthy = .ok (owner, inventory')) :
    Standing executor issued (fun job => healthy = false ∧ owner = some job)
      { w with engine := { w.engine with inventory := some inventory' } } := by
  have ordered := standing.orderly.exclusive.ordered inventory isInventory
  obtain ⟨⟨r, member, isGpu, owned⟩, gpus⟩ := ResourceInventory.setHealth_eq ordered set
  refine standing.changed (.sensed isInventory set) rfl rfl rfl ?_ ?_
  · rintro _ ⟨⟩ r' member' owner' owned' unspared
    rw [gpus] at member'
    obtain ⟨r'', member'', rfl⟩ := List.mem_map.mp member'
    split
    · rename_i here
      rw [if_pos here] at owned'
      have same : r'' = r := List.inj_on_of_nodup_map ordered.unique member'' member
        (here.trans isGpu.symm)
      refine Bool.eq_true_of_not_eq_false fun down => unspared ⟨down, ?_⟩
      rw [← owned, ← same]
      exact owned'
    · rename_i other
      rw [if_neg other] at owned'
      exact standing.healthy inventory isInventory r'' member'' owner' owned' id
  · rw [standing.equipped, isInventory]
    rfl

/-- Jobs that have no GPU have none that is down. -/
theorem Standing.healed {failing : JobId → Prop} (standing : Standing executor issued failing w)
    (nobody : ∀ job, failing job → ∀ gpu, ¬ w.engine.Holds job gpu) :
    Standing executor issued (fun _ => False) w := by
  refine ⟨standing.orderly, standing.settled, standing.served, ?_, standing.numbered,
    standing.equipped⟩
  intro inventory isInventory r member owner owned _
  refine standing.healthy inventory isInventory r member owner owned fun failing => ?_
  exact nobody owner failing r.gpu ((standing.orderly.exclusive.owners inventory isInventory _ _).mp
    ⟨r, member, rfl, owned⟩)

/-- A GPU goes down or comes up; a job that had it fails. -/
theorem Standing.wp_gpuState {event : WorkloadEvent}
    (standing : Standing executor issued (fun _ => False) w) (issues : Issues executor issued)
    (kind : event.kind = .gpuDown ∨ event.kind = .gpuUp) :
    wp (WorkloadEngine.gpuState executor event) (fun _ w' => Done executor issued w [] w' ∧
      w'.engine.admissionPending = true) (fun _ _ => True) w := by
  have tolerates : Tolerates executor fun _ => True := ⟨.all executor, trivial, trivial, trivial⟩
  unfold WorkloadEngine.gpuState
  rw [wp_bind, wp_get, wp_bind, wp_getOrThrow]
  refine ⟨fun inventory isInventory => ?_, fun _ => trivial⟩
  rw [wp_bind, wp_fromExcept]
  refine ⟨fun (owner, inventory') set => ?_, fun _ _ => trivial⟩
  have sensed := standing.sensed isInventory set
  have course : Course (executor.desk w) [] (executor.desk
      { w with engine := { w.engine with inventory := some inventory' } }) :=
    Course.refl.tail (.sensed isInventory set)
  -- what is left is the flag
  have last : ∀ w₂, Done executor issued w [] w₂ →
      wp (WorkloadEngine.modifyEngine fun engine => { engine with admissionPending := true })
        (fun _ w' => Done executor issued w [] w' ∧ w'.engine.admissionPending = true)
        (fun _ _ => True) w₂ := fun w₂ done => ⟨done.flagged true, rfl⟩
  rw [wp_bind]
  show wp _ _ _ ({ w with engine := { w.engine with inventory := some inventory' } } : Working X)
  dsimp only
  cases owner with
  | none =>
    exact last _ ⟨sensed.healed fun job failing => absurd failing.2 nofun, course, .refl, rfl⟩
  | some job =>
    rw [wp_bind, wp_runIf]
    refine ⟨fun down => ?_, fun notDown => ?_⟩
    · rw [wp_bind]
      unfold WorkloadEngine.jobAt
      rw [wp_bind, wp_get, wp_getOrThrow]
      refine ⟨fun record found => ?_, fun _ => trivial⟩
      -- the owner of the GPU has it, so the job is not over
      have ordered := standing.orderly.exclusive.ordered inventory isInventory
      obtain ⟨⟨r, member, isGpu, owned⟩, _⟩ := ResourceInventory.setHealth_eq ordered set
      obtain ⟨known, isKnown, holds⟩ :=
        (standing.orderly.exclusive.owners inventory isInventory r.gpu job).mp ⟨r, member, rfl, owned⟩
      cases isKnown.symm.trans found
      refine (Going.start sensed.orderly found).wp_finish issues tolerates holds.2.1 rfl nofun
        (fun _ => .inl (sensed.settled found)) fun w₂ reached ended => ?_
      have standing₂ := (reached.standing sensed).healed fun other failing gpu held => by
        obtain ⟨r, isRecord, _, alive, _⟩ := held
        cases failing.2
        exact absurd ((ended r isRecord).symm.trans alive) nofun
      obtain ⟨_, going, _⟩ := reached
      exact last w₂ ⟨standing₂, course.trans (.of_moves going.moves), going.called,
        going.settings_eq sensed.orderly⟩
    · have up := kind.resolve_left notDown
      refine last _ ⟨sensed.healed fun job failing => ?_, course, .refl, rfl⟩
      exact absurd (decide_eq_false_iff_not.mp failing.1) (not_not.mpr up)

/-! ## Events and results -/

/-- What every call gives. -/
def Kept (executor : CollectiveExecutor X) (issued : X → CollectiveId → Prop) (w₀ : Working X)
    (handed : List JobSnapshot) (w : Working X) : Prop :=
  Done executor issued w₀ handed w ∧
    (w₀.engine.IsSteady → w₀.engine.Conserving → w.engine.Conserving)

theorem Standing.kept (standing : Standing executor issued (fun _ => False) w₀)
    (reached : Reached executor issued job w₀ w) : Kept executor issued w₀ [] w :=
  ⟨(Done.refl standing).reached reached, reached.conserving standing⟩

theorem Standing.wp_handle {event : Event} {e : WorkloadEvent}
    (standing : Standing executor issued (fun _ => False) w) (issues : Issues executor issued)
    (current : (executor.sim w).currentEvent = some event) (payload : event.payload = .workload e) :
    wp (WorkloadEngine.handle executor e) (fun _ w' => Kept executor issued w [] w')
      (fun _ _ => True) w := by
  have tolerates : Tolerates executor fun _ => True := ⟨.all executor, trivial, trivial, trivial⟩
  have stays : Kept executor issued w [] w := ⟨.refl standing, fun _ conserving => conserving⟩
  have next : ∀ {job w'}, Reached executor issued job w w' → Kept executor issued w [] w' :=
    fun reached => standing.kept reached
  unfold WorkloadEngine.handle
  rw [wp_ite]
  refine ⟨fun kind => ?_, fun _ => ?_⟩
  · exact wp_mono (standing.wp_gpuState issues kind)
      (fun _ _ both => ⟨both.1, fun _ _ => .inl both.2⟩) (fun _ _ _ => trivial)
  rw [wp_bind]
  unfold WorkloadEngine.jobAt
  rw [wp_bind, wp_get, wp_getOrThrow]
  refine ⟨fun record found => ?_, fun _ => trivial⟩
  rw [wp_runIf]
  refine ⟨fun alive => ?_, fun _ => stays⟩
  have going := Going.start standing.orderly found
  have settled := standing.settled found
  -- a cancellation and the failure of a worker end a job that is settled
  have interrupt : ∀ {state : JobState} {reason : String}, state.terminal = true → state ≠ .succeeded →
      wp (WorkloadEngine.finish executor e.job state reason)
        (fun _ w' => Kept executor issued w [] w') (fun _ _ => True) w :=
    fun terminal unsuccessful => going.wp_finish issues tolerates alive terminal
      (fun succeeded => absurd succeeded unsuccessful) (fun _ => .inl settled)
      fun w' reached _ => next reached
  cases kind : e.kind with
  | arrival =>
    rw [wp_bind, wp_throwIf]
    refine ⟨fun _ => trivial, fun _ => ?_⟩
    rw [wp_bind]
    refine going.turn.wp_currentEventId current ?_
    rw [wp_bind, wp_throwIf]
    -- only the event that the job was given announces it
    refine ⟨fun _ => trivial, fun awaited => ?_⟩
    rw [wp_bind]
    refine going.turn.wp_modifyJob fun w₁ turn₁ => ?_
    exact going.wp_arrive issues tolerates settled current (not_not.mp awaited) turn₁
      fun w' reached => next reached
  | computeReady =>
    exact going.wp_computeReady issues tolerates settled alive current payload
      (fun _ => ⟨trivial, trivial⟩) fun w' reached => next reached
  | cancel => exact interrupt rfl nofun
  | workerFailure =>
    rw [wp_bind, wp_throwIf]
    exact ⟨fun _ => trivial, fun _ => interrupt rfl nofun⟩
  | gpuDown => trivial
  | gpuUp => trivial

/-- The engine hears of a collective that has ended. -/
theorem Standing.wp_handleResult {completion : CollectiveResult}
    (standing : Standing executor issued (fun _ => False) w) (issues : Issues executor issued) :
    wp (WorkloadEngine.handleResult executor completion) (fun _ w' => Kept executor issued w [] w')
      (fun _ _ => True) w := by
  have tolerates : Tolerates executor fun _ => True := ⟨.all executor, trivial, trivial, trivial⟩
  cases owner : w.engine.collectives.find? completion.id with
  | none =>
    unfold WorkloadEngine.handleResult
    rw [wp_bind, wp_get, wp_bind, wp_getOrThrow, owner]
    exact ⟨nofun, fun _ => trivial⟩
  | some job =>
    obtain ⟨record, found, _⟩ := (standing.orderly.sound.owners _ _).mp owner
    exact (Going.start standing.orderly found).wp_handleResult issues tolerates
      (standing.settled found) owner fun w' reached => standing.kept reached

theorem Standing.wp_dispatch (standing : Standing executor issued (fun _ => False) w)
    (issues : Issues executor issued) :
    wp (WorkloadEngine.dispatchWaiting executor) (fun _ w' => Kept executor issued w [] w')
      (fun _ _ => True) w :=
  wp_mono (standing.wp_dispatchWaiting issues)
    (fun _ _ all => ⟨all.1, fun steady conserving => .inr (all.2.1 steady conserving)⟩)
    (fun _ _ _ => trivial)

/-! ## New jobs and orders -/

/-- The kernel and the executor have gone on; the engine has not. -/
theorem Standing.outside {w' : Working X} (standing : Standing executor issued (fun _ => False) w)
    (engine_eq : w'.engine = w.engine) (ledger_eq : executor.ledger w' = executor.ledger w)
    (onward : Onward (executor.sim w) (executor.sim w')) (word : (executor.sim w').now ≤ maxU64)
    (keeps : ∀ id, issued w.outside id → issued w'.outside id) :
    Standing executor issued (fun _ => False) w' ∧
      Course (executor.desk w) [] (executor.desk w') := by
  have change : Change (executor.desk w) [] (executor.desk w') := by
    have passed : Change (executor.desk w) [] { executor.desk w with sim := executor.sim w' } :=
      .passed onward word
    have same : executor.desk w' = { executor.desk w with sim := executor.sim w' } := by
      unfold CollectiveExecutor.desk
      rw [engine_eq, ledger_eq]
    rwa [same]
  refine ⟨⟨⟨change.sound standing.orderly.sound,
      change.exclusive standing.orderly.sound standing.orderly.exclusive, fun id owner isOwner => ?_⟩,
    fun isRecord => ?_, ?_, ?_, ?_, ?_⟩, .next .refl change⟩
  · exact keeps id (standing.orderly.known id owner (engine_eq ▸ isOwner))
  · exact (standing.settled (engine_eq ▸ isRecord)).onward onward
  · rw [engine_eq]
    exact standing.served
  · rw [engine_eq]
    exact standing.healthy
  · rw [engine_eq]
    exact standing.numbered
  · rw [engine_eq]
    exact standing.equipped

/-- An order for later. -/
theorem Standing.wp_asks {time : SimTimeNs} {priority : EventPriority} {e : WorkloadEvent}
    (standing : Standing executor issued (fun _ => False) w) (issues : Issues executor issued) :
    wp (WorkloadEngine.onKernel executor (Kernel.schedule ⟨time, priority, .workload e⟩))
      (fun _ w' => Kept executor issued w [] w') (fun _ _ => True) w := by
  refine Turn.wp_asks (.all executor) standing.orderly.sound.valid (fun _ => trivial)
    fun id w' engine_eq ledger_eq evolves _ _ call => ?_
  obtain ⟨standing', course⟩ := standing.outside engine_eq ledger_eq
    (.of_evolves standing.orderly.sound.valid evolves)
    (evolves.now.le.trans standing.orderly.sound.word) fun _ known => issues.keeps call known
  exact ⟨⟨standing', course, .single call, by rw [engine_eq]⟩, fun _ conserving => engine_eq ▸ conserving⟩

theorem Standing.wp_scheduleControl {kind : WorkloadEventKind} {time : SimTimeNs} {worker : Nat}
    (standing : Standing executor issued (fun _ => False) w) (issues : Issues executor issued) :
    wp (WorkloadEngine.scheduleControl executor job kind time worker)
      (fun _ w' => Kept executor issued w [] w') (fun _ _ => True) w := by
  unfold WorkloadEngine.scheduleControl WorkloadEngine.jobAt
  simp only [wp_bind, wp_get, wp_getOrThrow, wp_throwIf]
  exact ⟨fun _ _ => ⟨fun _ => trivial, fun _ => standing.wp_asks issues⟩, fun _ => trivial⟩

theorem Standing.wp_scheduleGpuState {gpu : GpuId} {healthy : Bool} {time : SimTimeNs}
    (standing : Standing executor issued (fun _ => False) w) (issues : Issues executor issued) :
    wp (WorkloadEngine.scheduleGpuState executor gpu healthy time)
      (fun _ w' => Kept executor issued w [] w') (fun _ _ => True) w := by
  unfold WorkloadEngine.scheduleGpuState
  simp only [wp_bind, wp_get, wp_throwIf]
  exact ⟨fun _ => trivial, fun _ => standing.wp_asks issues⟩

theorem Standing.wp_takeCompleted (standing : Standing executor issued (fun _ => False) w) :
    wp (WorkloadEngine.takeCompleted (X := X)) (fun taken w' => Kept executor issued w taken w')
      (fun _ _ => True) w := by
  unfold WorkloadEngine.takeCompleted
  rw [wp_bind, wp_get, wp_bind]
  have change : Change (executor.desk w) w.engine.completed (executor.desk
      { w with engine := { w.engine with completed := [] } }) := .took
  exact ⟨⟨standing.changed change rfl rfl rfl standing.healthy standing.equipped,
    Course.refl.tail change, .refl, rfl⟩, fun _ conserving => conserving⟩

/-- A new job is entered. -/
theorem Standing.entered {w₁ w' : Working X} {workerEntries eventEntries : Nat}
    (standing : Standing executor issued (fun _ => False) w) (issues : Issues executor issued)
    (fresh : w.engine.jobs.find? record.id = none) (id : record.id = ⟨w.engine.jobs.size⟩)
    (state : record.state = .scheduled) (settled : record.Settled (executor.sim w₁))
    (measured : record.Measured) (accepted : record.Accepted)
    (sized : w.engine.inventory = none → record.spec.workers.length = record.spec.compute.length)
    (evolves : Evolves (executor.sim w) (executor.sim w₁))
    (call : Call executor w.outside w₁.outside)
    (ledger_eq : executor.ledger w₁ = executor.ledger w) (isNext : w' = { w₁ with
      engine := { w.engine with
        workerEntries, eventEntries, jobs := w.engine.jobs.insert record.id record } }) :
    Kept executor issued w [] w' := by
  subst isNext
  have onward := Onward.of_evolves standing.orderly.sound.valid evolves
  have unplaced := settled.unassigned state
  have entered : Change (executor.desk w) [] { executor.desk w with
      engine := { w.engine with
        workerEntries, eventEntries, jobs := w.engine.jobs.insert record.id record }
      sim := executor.sim w₁ } :=
    .entered fresh state settled measured accepted sized evolves
  have change : Change (executor.desk w) [] (executor.desk { w₁ with
      engine := { w.engine with
        workerEntries, eventEntries, jobs := w.engine.jobs.insert record.id record } }) := by
    show Change _ [] ⟨_, executor.sim w₁, executor.ledger w₁⟩
    rw [ledger_eq]
    exact entered
  have cases_ : ∀ {job r}, (w.engine.jobs.insert record.id record).find? job = some r →
      job = record.id ∧ r = record ∨ job ≠ record.id ∧ w.engine.jobs.find? job = some r :=
    OrderedMap.find?_insert_cases
  refine ⟨⟨⟨⟨change.sound standing.orderly.sound,
      change.exclusive standing.orderly.sound standing.orderly.exclusive,
      fun other owner isOwner => issues.keeps call (standing.orderly.known other owner isOwner)⟩,
    fun isRecord => ?_, fun isRecord alive assigned => ?_, standing.healthy, fun isRecord => ?_,
    standing.equipped⟩, .next .refl change, .single call, rfl⟩, fun _ conserving => ?_⟩
  · rcases cases_ isRecord with ⟨rfl, rfl⟩ | ⟨_, old⟩
    · exact settled
    · exact (standing.settled old).onward onward
  · rcases cases_ isRecord with ⟨rfl, rfl⟩ | ⟨_, old⟩
    · exact absurd (unplaced.unassigned.symm.trans assigned) nofun
    · exact standing.served old alive assigned
  -- the new identifier is the number of jobs before
  · show _ < (w.engine.jobs.insert record.id record).size
    rw [OrderedMap.size_insert_of_fresh fresh]
    rcases cases_ isRecord with ⟨rfl, rfl⟩ | ⟨_, old⟩
    · rw [id]
      exact Nat.lt_succ_self _
    · exact (standing.numbered old).trans (Nat.lt_succ_self _)
  · -- a job that is only scheduled does not wait yet
    refine conserving.imp (fun pending => pending) fun conserves job r isRecord waits free fits => ?_
    rcases cases_ isRecord with ⟨rfl, rfl⟩ | ⟨_, old⟩
    · exact absurd (state.symm.trans waits) nofun
    · exact conserves job r old waits free fits

theorem Standing.wp_schedule {specification : JobSpec}
    (standing : Standing executor issued (fun _ => False) w) (issues : Issues executor issued)
    (narrow : w.engine.limits.bucketsPerStep ≤ maxU32)
    (word : specification.gradientBytes ≤ maxU64) :
    wp (WorkloadEngine.schedule executor specification)
      (fun _ w' => Kept executor issued w [] w') (fun _ _ => True) w := by
  have sound := standing.orderly.sound
  unfold WorkloadEngine.schedule
  rw [wp_bind, wp_get]
  dsimp only
  rw [wp_bind, wp_fromExcept]
  refine ⟨fun buckets valid => ?_, fun _ _ => trivial⟩
  rw [wp_bind, wp_throwIf]
  refine ⟨fun _ => trivial, fun _ => ?_⟩
  rw [wp_bind, wp_throwIf]
  refine ⟨fun _ => trivial, fun _ => ?_⟩
  rw [wp_bind]
  refine Turn.wp_asks (.all executor) sound.valid (fun _ => trivial)
    fun event w₁ engine_eq ledger_eq evolves _ promised call => ?_
  rw [wp_bind]
  -- the identifiers given so far are below the number of jobs
  have fresh : w.engine.jobs.find? ⟨w.engine.jobs.size⟩ = none :=
    Option.eq_none_iff_forall_ne_some.mpr fun _ isRecord =>
      lt_irrefl _ (standing.numbered isRecord)
  generalize isNew : (
      { id := ⟨w.engine.jobs.size⟩
        spec := specification
        buckets
        arrivalEvent := some event } : Record) = record
  obtain ⟨id, state, isSpec, isBuckets⟩ : record.id = ⟨w.engine.jobs.size⟩ ∧
      record.state = .scheduled ∧ record.spec = specification ∧ record.buckets = buckets := by
    subst isNew
    exact ⟨rfl, rfl, rfl, rfl⟩
  have settled : record.Settled (executor.sim w₁) := by
    subst isNew
    exact .scheduled rfl ⟨rfl, rfl, rfl, rfl, rfl, rfl, rfl⟩ rfl promised.expects
  obtain ⟨measured, named⟩ := measured_of_validate valid word isSpec isBuckets
  have accepted : record.Accepted :=
    .of_validate narrow (isBuckets ▸ valid) (by rw [isSpec]) (by rw [isSpec])
  -- without an inventory there is no scheduler, and the job has named its workers
  have sized : w.engine.inventory = none →
      record.spec.workers.length = record.spec.compute.length := by
    intro alone
    have equipped := standing.equipped
    rw [alone, Option.isSome_none, Option.isSome_eq_false_iff, Option.isNone_iff_eq_none] at equipped
    rw [isSpec]
    exact named equipped
  rw [← id] at fresh
  show Kept executor issued w [] { w₁ with engine := { w₁.engine with
    workerEntries := _, eventEntries := _, jobs := w₁.engine.jobs.emplace _ record } }
  rw [engine_eq, ← id, OrderedMap.emplace_of_fresh fresh]
  exact standing.entered issues fresh id state settled measured accepted sized evolves call
    ledger_eq rfl

end NexusLab.Workload
