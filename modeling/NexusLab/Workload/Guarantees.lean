import NexusLab.Workload.Runs

/-! # What the engine guarantees

In every state that a run of the engine reaches, over any executor of collectives:

* `ownership_exclusive`: no GPU has two owners, and the books agree on who has it.
* `job_accounts`: the times of a job add up.
* `admission_conserves_work`: no waiting job that would be placed is left waiting.
* `step_protocol`: the collectives and events of a step of training are those that are due.

The run that each of them is shown on has the engine on the ring executor. -/

namespace NexusLab.Workload

open Foundation Sim Telemetry Collective Scheduling NexusLab.Topology NumberedRing

variable {X : Type} {executor : CollectiveExecutor X} {issued : X → CollectiveId → Prop}
  {start w : Working X} {handed : List JobSnapshot}

/-! ## Two jobs for three GPUs -/

theorem trioRing_numbered : Exchange.trioExchange.ring.Numbered := by
  refine ⟨rfl, fun id => ?_⟩
  simp [Exchange.trioExchange]

/-- The ring executor over three GPUs on two NICs. -/
def trioRing : NumberedRing := ⟨Exchange.trioExchange.ring, trioRing_numbered⟩

def createdEngine : WorkloadEngine :=
  match WorkloadEngine.create Exchange.trio {} (some {}) with
  | .ok engine => engine
  | .error _ => {}

def created : Working NumberedRing := ⟨createdEngine, trioRing⟩

theorem start_created : EngineStart ringCollectives created where
  created := ⟨Exchange.trio, {}, some {}, none, by decide, by decide, rfl⟩
  valid := valid_initial _
  word := Nat.zero_le _

/-- Two workers that reduce ten bytes. -/
def twoWorkers : JobSpec :=
  { name := "two workers"
    requestedWorkers := 2
    compute := [10, 20]
    gradientBytes := 10
    bucketBytes := 10
    chunkBytes := 10 }

/-- Both jobs arrive, and one of them gets its GPUs. -/
def placing : List EngineMove :=
  [.schedule twoWorkers, .schedule { twoWorkers with name := "two more" }, .run, .start, .handle,
    .conclude, .start, .handle, .dispatchWaiting]

/-- The workers of the job that runs are through with their bucket. -/
def reducing : List EngineMove :=
  placing ++ [.conclude, .start, .handle, .conclude, .start, .handle]

/-- The collective has ended, and with it the job; the other one gets its GPUs. -/
def ending : List EngineMove :=
  reducing ++ (List.replicate 4 [.conclude, .start, .handle]).flatten ++ [.hear, .dispatchWaiting]

/-- The state that a replay from the created engine ends in. -/
def replayed (moves : List EngineMove) : Working NumberedRing :=
  (EngineMove.replay moves created).getD created

theorem run_replayed {moves : List EngineMove} (played : (EngineMove.replay moves created).isSome = true) :
    EngineRun ringCollectives submitted created [] (replayed moves) := by
  obtain ⟨w, isPlayed⟩ := Option.isSome_iff_exists.mp played
  unfold replayed
  rw [isPlayed]
  exact EngineRun.refl.replay start_created isPlayed

theorem run_placing : EngineRun ringCollectives submitted created [] (replayed placing) :=
  run_replayed (by decide +kernel)

theorem run_reducing : EngineRun ringCollectives submitted created [] (replayed reducing) :=
  run_replayed (by decide +kernel)

theorem run_ending : EngineRun ringCollectives submitted created [] (replayed ending) :=
  run_replayed (by decide +kernel)

/-- The record that a fact is about. -/
theorem exists_of_any (jobs : OrderedMap JobId Record) (job : JobId) (P : Record → Prop)
    [DecidablePred P] (found : (jobs.find? job).any (fun record => decide (P record)) = true) :
    ∃ record, jobs.find? job = some record ∧ P record := by
  simpa only [Option.any_eq_true, decide_eq_true_eq] using found

/-! ## Who has which GPU -/

/-- In every state that a run reaches, no GPU is held by two jobs, the assignments and the inventory say
the same as the records of the jobs, and whatever GPU is held is up. -/
theorem ownership_exclusive (issues : Issues executor issued) (begins : EngineStart executor start)
    (run : EngineRun executor issued start handed w) :
    (∀ gpu job other record record', w.engine.jobs.find? job = some record → record.Holds gpu →
      w.engine.jobs.find? other = some record' → record'.Holds gpu → job = other) ∧
    (∀ gpu job, w.engine.assignments.find? gpu = some job ↔
      ∃ record, w.engine.jobs.find? job = some record ∧ record.Holds gpu) ∧
    ∀ inventory, w.engine.inventory = some inventory →
      (inventory.gpus.map Resource.gpu).Nodup ∧
      (∀ gpu job, (∃ r ∈ inventory.gpus, r.gpu = gpu ∧ r.owner = some job) ↔
        ∃ record, w.engine.jobs.find? job = some record ∧ record.Holds gpu) ∧
      ∀ r ∈ inventory.gpus, r.owner.isSome = true → r.healthy = true := by
  obtain ⟨standing, _⟩ := run.kept issues begins
  have exclusive := standing.orderly.exclusive
  refine ⟨fun gpu job other record record' found holds found' holds' => ?_, exclusive.assignments,
    fun inventory isInventory => ⟨?_, exclusive.owners inventory isInventory, fun r member owned => ?_⟩⟩
  · exact exclusive.unique ⟨record, found, holds⟩ ⟨record', found', holds'⟩
  · exact (exclusive.ordered inventory isInventory).unique
  · obtain ⟨owner, isOwner⟩ := Option.isSome_iff_exists.mp owned
    exact standing.healthy inventory isInventory r member owner isOwner id

theorem ownership_exclusive_ending :
    (∃ record, (replayed ending).engine.jobs.find? ⟨0⟩ = some record ∧ ⟨1⟩ ∈ record.spec.workers) ∧
    (∀ job record, (replayed ending).engine.jobs.find? job = some record → record.Holds ⟨1⟩ →
      job = ⟨1⟩) ∧
    ∃ inventory, (replayed ending).engine.inventory = some inventory ∧
      ∃ r ∈ inventory.gpus, r.gpu = ⟨1⟩ ∧ r.owner = some ⟨1⟩ ∧ r.healthy = true := by
  have named := exists_of_any (replayed ending).engine.jobs ⟨0⟩
    (fun record => ⟨1⟩ ∈ record.spec.workers) (by decide +kernel)
  have assigned : (replayed ending).engine.assignments.find? ⟨1⟩ = some ⟨1⟩ := by decide +kernel
  have equipped : (replayed ending).engine.inventory.isSome = true := by decide +kernel
  obtain ⟨inventory, isInventory⟩ := Option.isSome_iff_exists.mp equipped
  obtain ⟨exclusive, assignments, owners⟩ := ownership_exclusive issues_ring start_created run_ending
  obtain ⟨record, found, holds⟩ := (assignments _ _).mp assigned
  obtain ⟨_, owned, healthy⟩ := owners inventory isInventory
  obtain ⟨r, member, isGpu, isOwner⟩ := (owned ⟨1⟩ ⟨1⟩).mpr ⟨record, found, holds⟩
  refine ⟨named, fun job other found' holds' => exclusive _ _ _ _ _ found' holds' found holds,
    inventory, isInventory, r, member, isGpu, isOwner, healthy r member ?_⟩
  rw [isOwner]
  rfl

/-! ## The times on the books -/

/-- The time that a job has had its GPUs. -/
def Record.heldFor (record : Record) (ending : SimTimeNs) : Nat :=
  match record.allocatedAt with
  | some allocatedAt => ending - allocatedAt
  | none => 0

/-- In every state that a run reaches, and at every later time, an inspection of a job tells its account
unless the allocated GPU time does not fit in a word, and the account adds up. -/
theorem job_accounts (issues : Issues executor issued) (begins : EngineStart executor start)
    (run : EngineRun executor issued start handed w) {job : JobId} {record : Record}
    (found : w.engine.jobs.find? job = some record) {time : SimTimeNs}
    (later : (executor.sim w).now ≤ time) (word : time ≤ maxU64) :
    let ending := record.finished.getD time
    let account := record.account time
    ending ≤ time ∧
    record.inspect time = (if record.heldFor ending * record.spec.workers.length ≤ maxU64
      then .ok account else .error quantityOverflow) ∧
    account.computeGpuNs + account.idleGpuNs = record.heldFor ending * record.spec.workers.length ∧
    (record.spec.arrival ≤ ending → account.waitingNs + record.heldFor ending = account.elapsedNs) ∧
    (record.allocatedAt = none → account.computeGpuNs = 0) ∧
    (record.state = .succeeded →
      account.computeGpuNs = record.spec.steps * record.spec.compute.sum) ∧
    (record.allocatedAt.isSome = true → record.state ≠ .succeeded →
      account.computeGpuNs = record.step * record.spec.compute.sum +
        (record.spec.compute.map fun duration => min duration (ending - record.stepStarted)).sum) := by
  obtain ⟨standing, _⟩ := run.kept issues begins
  have accounts := (standing.settled found).accounts.later later
  have accepted := standing.orderly.sound.accepted found
  have held : ∀ ending, record.allocatedBy ending = record.heldFor ending * record.spec.workers.length := by
    intro ending
    unfold Record.allocatedBy Record.heldFor
    cases record.allocatedAt with
    | none => exact (Nat.zero_mul _).symm
    | some allocatedAt => rfl
  have bound := accounts.computeBy_le
  have inspected := accounts.inspect_eq word accepted.total
  rw [held] at bound inspected
  refine ⟨accounts.finished_le, inspected, ?_, fun arrived => ?_, fun unallocated => ?_,
    fun succeeded => ?_, fun allocated unsuccessful => ?_⟩
  · show record.computeBy time + (record.allocatedBy _ - record.computeBy time) = _
    rw [held]
    exact Nat.add_sub_cancel' bound
  · show record.allocatedAt.getD (record.finished.getD time) - record.spec.arrival + _ =
      record.finished.getD time - record.spec.arrival
    unfold Record.heldFor
    cases isAllocated : record.allocatedAt with
    | none => rfl
    | some allocatedAt =>
      -- the job waits until it has its GPUs, and has them until its end
      obtain ⟨before, after⟩ := accounts.allocated_le isAllocated
      show allocatedAt - record.spec.arrival + (record.finished.getD time - allocatedAt) = _
      rw [Nat.add_comm]
      exact Nat.sub_add_sub_cancel after before
  · have nothing : record.heldFor (record.finished.getD time) = 0 := by
      unfold Record.heldFor
      rw [unallocated]
    rw [nothing, Nat.zero_mul] at bound
    exact Nat.le_zero.mp bound
  · show record.computeBy time = _
    cases accounts with
    | idle _ _ _ other => exact absurd succeeded other
    | underway _ _ running => rw [succeeded] at running; cases running
    | closed _ ended _ _ _ _ _ success => simp [Record.computeBy, ended, success succeeded, Record.stepCompute]
  · show record.computeBy time = _
    cases accounts with
    | idle _ unallocated => rw [unallocated] at allocated; cases allocated
    | underway assigned _ running unfinished _ _ _ _ _ compute =>
      simp [Record.computeBy, assigned, running, unfinished, compute, Record.stepCompute,
        Record.stepComputeAfter]
    | closed _ ended isFinished _ _ _ _ _ interrupted =>
      obtain ⟨_, compute⟩ := interrupted unsuccessful
      simp [Record.computeBy, ended, isFinished, compute, Record.stepCompute, Record.stepComputeAfter]

theorem job_accounts_ending :
    (∃ record, (replayed ending).engine.jobs.find? ⟨0⟩ = some record ∧ record.state = .succeeded ∧
      (record.account 30).computeGpuNs = 30 ∧
      (record.account 30).computeGpuNs + (record.account 30).idleGpuNs = 44) ∧
    ∃ record, (replayed ending).engine.jobs.find? ⟨1⟩ = some record ∧ record.state ≠ .succeeded ∧
      record.inspect 30 = .ok (record.account 30) ∧ (record.account 30).computeGpuNs = 16 ∧
      (record.account 30).waitingNs + 8 = (record.account 30).elapsedNs := by
  obtain ⟨ended, isEnded, succeeded, facts⟩ := exists_of_any (replayed ending).engine.jobs ⟨0⟩
    (fun record => record.state = .succeeded ∧ record.allocatedAt = some 0 ∧
      record.finished = some 22 ∧ record.spec.steps = 1 ∧ record.spec.compute = [10, 20] ∧
      record.spec.workers.length = 2) (by decide +kernel)
  obtain ⟨running, isRunning, unfinished, runs⟩ := exists_of_any
    (replayed ending).engine.jobs ⟨1⟩ (fun record =>
      record.state ≠ .succeeded ∧ record.allocatedAt = some 22 ∧ record.finished = none ∧
      record.step = 0 ∧ record.stepStarted = 22 ∧ record.spec.compute = [10, 20] ∧
      record.spec.arrival = 0 ∧ record.spec.workers.length = 2) (by decide +kernel)
  have later : (ringCollectives.sim (replayed ending)).now ≤ 30 := by decide +kernel
  obtain ⟨_, _, adds, _, _, trained, _⟩ :=
    job_accounts issues_ring start_created run_ending isEnded later (by decide)
  obtain ⟨_, inspected, _, waited, _, _, trains⟩ :=
    job_accounts issues_ring start_created run_ending isRunning later (by decide)
  obtain ⟨allocated₀, finished₀, steps₀, compute₀, workers₀⟩ := facts
  obtain ⟨allocated₁, finished₁, step₁, began₁, compute₁, arrival₁, workers₁⟩ := runs
  refine ⟨⟨ended, isEnded, succeeded, ?_, adds.trans ?_⟩,
    running, isRunning, unfinished, inspected.trans ?_, ?_, ?_⟩
  · rw [trained succeeded, steps₀, compute₀]
    rfl
  · simp [Record.heldFor, allocated₀, finished₀, workers₀]
  · simp [Record.heldFor, allocated₁, finished₁, workers₁, maxU64]
  · rw [trains (by rw [allocated₁]; rfl) unfinished, step₁, compute₁, began₁, finished₁]
    rfl
  · have sum := waited (by rw [finished₁, arrival₁]; exact Nat.zero_le _)
    simpa [Record.heldFor, allocated₁, finished₁] using sum

/-! ## Work-conserving admission -/

/-- With a built-in policy, in every state that a run reaches a pass of admission is to come or no
waiting job would be placed; and after a pass none would. -/
theorem admission_conserves_work (issues : Issues executor issued) (begins : EngineStart executor start)
    (builtin : ∀ policy, start.engine.policy = some policy →
      ∃ name seed, makePolicy name seed = .ok policy)
    (run : EngineRun executor issued start handed w) :
    (w.engine.admissionPending = true ∨ ∀ job record, w.engine.jobs.find? job = some record →
      record.state = .waiting → ¬ w.engine.Fits record) ∧
    ∀ w', WorkloadEngine.dispatchWaiting executor w = .ok () w' → ∀ job record,
      w'.engine.jobs.find? job = some record → record.state = .waiting → ¬ w'.engine.Fits record := by
  have steady : start.engine.IsSteady := fun policy isPolicy => by
    obtain ⟨name, seed, made⟩ := builtin policy isPolicy
    exact steady_of_makePolicy made
  obtain ⟨standing, _, settings, conserving⟩ := run.kept issues begins
  refine ⟨(conserving steady).imp id fun conserves job record found waits fits => ?_,
    fun w' ok job record found waits fits => ?_⟩
  · have unplaced := ((standing.settled found).of_waiting waits).1
    exact conserves job record found waits unplaced.unassigned fits
  · have passed := wp_of_ok (standing.wp_dispatchWaiting issues) ok
    obtain ⟨done, conserves, _⟩ := passed
    have unplaced := ((done.standing.settled found).of_waiting waits).1
    exact conserves (steady.of_settings settings) (conserving steady) job record found waits
      unplaced.unassigned fits

theorem admission_conserves_work_placing : ∃ record,
    (replayed placing).engine.jobs.find? ⟨1⟩ = some record ∧ record.state = .waiting ∧
      ¬ (replayed placing).engine.Fits record := by
  have builtin : ∀ policy, created.engine.policy = some policy →
      ∃ name seed, makePolicy name seed = .ok policy := by
    intro policy isPolicy
    refine ⟨"first-fit", 42, ?_⟩
    have made : (makePolicy "first-fit" 42).toOption = created.engine.policy := rfl
    cases isMade : makePolicy "first-fit" 42 with
    | error e => rw [isMade, isPolicy] at made; cases made
    | ok other => rw [isMade, isPolicy] at made; exact congrArg Except.ok (Option.some.inj made)
  have conserves := (admission_conserves_work issues_ring start_created builtin run_placing).1
  have lowered : (replayed placing).engine.admissionPending = false := by decide +kernel
  obtain ⟨record, found, waits⟩ := exists_of_any (replayed placing).engine.jobs ⟨1⟩
    (fun record => record.state = .waiting) (by decide +kernel)
  have nothing := conserves.resolve_left (by rw [lowered]; exact Bool.false_ne_true)
  exact ⟨record, found, waits, nothing _ _ found waits⟩

/-! ## The steps of training -/

/-- The collective of each bucket has something to carry, and together they carry the gradient. -/
theorem Record.Measured.parts {record : Record} (measured : record.Measured) :
    (∀ bucket < record.buckets, 0 < min record.spec.bucketBytes
      (record.spec.gradientBytes - bucket * record.spec.bucketBytes)) ∧
    ((List.range record.buckets).map fun bucket => min record.spec.bucketBytes
      (record.spec.gradientBytes - bucket * record.spec.bucketBytes)).sum =
      record.spec.gradientBytes := by
  have positive := measured.bucket
  refine ⟨fun bucket inside => ?_, ?_⟩
  · have before : bucket * record.spec.bucketBytes ≤ (record.buckets - 1) * record.spec.bucketBytes :=
      Nat.mul_le_mul_right _ (Nat.le_sub_one_of_lt inside)
    exact lt_min positive (Nat.sub_pos_of_lt (before.trans_lt measured.covers))
  · -- the first buckets carry the gradient up to where the next one begins
    have upTo : ∀ n, ((List.range n).map fun bucket => min record.spec.bucketBytes
        (record.spec.gradientBytes - bucket * record.spec.bucketBytes)).sum =
        min (n * record.spec.bucketBytes) record.spec.gradientBytes := by
      intro n
      induction n with
      | zero => simp
      | succ n ih =>
        rw [List.range_succ, List.map_append, List.sum_append, ih, Nat.succ_mul]
        have grow : ∀ a b g : Nat, min a g + min b (g - a) = min (a + b) g := by omega
        simpa using grow _ _ _
    rw [upTo, min_eq_right measured.exhausts]

/-- In every state that a run reaches, the collectives that the engine waits for are those of the jobs,
one at most for each; and a job that has its GPUs and has not ended is in one of its steps: the first
buckets have been through all workers and their collectives, the collective of the next bucket runs if
and only if all workers are through with it, and every other event of the step is expected at its
time. -/
theorem step_protocol (issues : Issues executor issued) (begins : EngineStart executor start)
    (run : EngineRun executor issued start handed w) :
    (∀ id job, w.engine.collectives.find? id = some job ↔
      ∃ record, w.engine.jobs.find? job = some record ∧ record.activeCollective = some id) ∧
    ∀ job record, w.engine.jobs.find? job = some record →
      ((∀ bucket < record.buckets, 0 < min record.spec.bucketBytes
        (record.spec.gradientBytes - bucket * record.spec.bucketBytes)) ∧
      ((List.range record.buckets).map fun bucket => min record.spec.bucketBytes
        (record.spec.gradientBytes - bucket * record.spec.bucketBytes)).sum =
        record.spec.gradientBytes) ∧
      (record.assigned = true → record.state.terminal = false →
        record.step < record.spec.steps ∧ record.completedBuckets < record.buckets ∧
        (∀ bucket < record.completedBuckets,
          record.doneIn (record.slotOf bucket) = record.spec.workers.length) ∧
        (record.activeCollective.isSome = true ↔
          record.ready[record.completedBuckets]? = some record.spec.workers.length) ∧
        (∀ bucket < record.buckets, record.ready[bucket]? = some (record.doneIn (record.slotOf bucket))) ∧
        ∀ worker < record.spec.workers.length, ∀ index < record.eventsPerWorker,
          ∃ duration entry, record.spec.compute[worker]? = some duration ∧
            record.events[worker * record.eventsPerWorker + index]? = some entry ∧
            (∀ id, entry = some id → Expects (executor.sim w) id
              (record.computeEvent worker index duration)) ∧
            (entry = none → record.stepStarted + dueAfter duration record.eventsPerWorker index ≤
              (executor.sim w).now)) := by
  obtain ⟨standing, _⟩ := run.kept issues begins
  have sound := standing.orderly.sound
  refine ⟨sound.owners, fun job record found => ⟨(sound.measured found).parts, fun assigned alive => ?_⟩⟩
  have served := standing.served found alive assigned
  cases standing.settled found with
  | scheduled _ unplaced => cases unplaced.unassigned.symm.trans assigned
  | waiting _ unplaced => cases unplaced.unassigned.symm.trans assigned
  | ended terminal => cases terminal.symm.trans alive
  | training training =>
    have ready : ∀ bucket < record.buckets,
        record.ready[bucket]? = some (record.doneIn (record.slotOf bucket)) := by
      intro bucket inside
      rw [training.slots.ready]
      simp [inside]
    refine ⟨training.step, training.bucket, training.through, ?_, ready, training.slots.slot⟩
    rw [ready _ training.bucket, Option.some.injEq]
    -- the collective begins as soon as the last worker is through with the bucket
    refine ⟨training.served, fun all => ?_⟩
    by_contra inactive
    exact served (Option.not_isSome_iff_eq_none.mp inactive) all

theorem step_protocol_reducing :
    (∃ record id, (replayed placing).engine.jobs.find? ⟨0⟩ = some record ∧
      Expects (ringCollectives.sim (replayed placing)) id (record.computeEvent 1 0 20)) ∧
    ∃ record, (replayed reducing).engine.jobs.find? ⟨0⟩ = some record ∧
      record.activeCollective.isSome = true ∧ record.ready[record.completedBuckets]? = some 2 ∧
      (replayed reducing).engine.collectives.find? ⟨0⟩ = some ⟨0⟩ := by
  obtain ⟨record, found, assigned, alive, workers, events, duration, entry, none⟩ := exists_of_any
    (replayed placing).engine.jobs ⟨0⟩ (fun record =>
      record.assigned = true ∧ record.state.terminal = false ∧ record.spec.workers.length = 2 ∧
      record.eventsPerWorker = 1 ∧ record.spec.compute[1]? = some 20 ∧
      record.events[1]?.isSome = true ∧ record.events[1]? ≠ some none) (by decide +kernel)
  obtain ⟨reduces, isReducing, assigned', alive', workers', active⟩ := exists_of_any
    (replayed reducing).engine.jobs ⟨0⟩ (fun record =>
      record.assigned = true ∧ record.state.terminal = false ∧ record.spec.workers.length = 2 ∧
      record.activeCollective = some ⟨0⟩) (by decide +kernel)
  obtain ⟨_, placed⟩ := step_protocol issues_ring start_created run_placing
  obtain ⟨collectives, reduced⟩ := step_protocol issues_ring start_created run_reducing
  obtain ⟨_, _, _, _, _, expected⟩ := (placed ⟨0⟩ record found).2 assigned alive
  obtain ⟨_, _, _, begun, _⟩ := (reduced ⟨0⟩ reduces isReducing).2 assigned' alive'
  refine ⟨?_, reduces, isReducing, by rw [active]; rfl, ?_,
    (collectives _ _).mpr ⟨reduces, isReducing, active⟩⟩
  · obtain ⟨duration', entry', isDuration, isEntry, expects, _⟩ :=
      expected 1 (by rw [workers]; decide) 0 (by rw [events]; decide)
    rw [duration] at isDuration
    cases isDuration
    rw [events] at isEntry
    cases entry' with
    | none => exact absurd isEntry none
    | some id => exact ⟨record, id, found, expects id rfl⟩
  · rw [← workers']
    exact begun.mp (by rw [active]; rfl)

end NexusLab.Workload
