import NexusLab.Workload.Admission
import NexusLab.Workload.Ownership

/-! # The calls of the engine

Each function of the engine makes its moves one after the other.  `Going` is where a call about one
job has come; the rules below take it through the functions, and to the end of the call, where every
job is settled again. -/

namespace NexusLab.Workload

open Foundation Sim Telemetry Collective Scheduling NexusLab.Topology

variable {X : Type} {executor : CollectiveExecutor X} {issued : X → CollectiveId → Prop}
  {E : Error → Prop}

/-! ## Assumptions -/

/-- The executor gives every collective an identifier of its own: `issued` are those given away. -/
structure Issues (executor : CollectiveExecutor X) (issued : X → CollectiveId → Prop) : Prop where
  submit : ∀ {x x' : X} {request : CollectiveRequest} {id : CollectiveId},
    executor.submit request x = .ok id x' → ¬ issued x id ∧ issued x' id
  keeps : ∀ {x x' : X}, Call executor x x' → ∀ {id}, issued x id → issued x' id

theorem Issues.called (issues : Issues executor issued) {x x' : X} (called : Called executor x x')
    {id : CollectiveId} (known : issued x id) : issued x' id := by
  induction called with
  | refl => exact known
  | tail _ call ih => exact issues.keeps call ih

/-- The errors `E` cover, besides, what the engine itself runs out of. -/
structure Tolerates (executor : CollectiveExecutor X) (E : Error → Prop) : Prop where
  excuses : Excuses executor E
  overdrawn : E quantityOverflow
  decisions : E (.lengthError "scheduler decision limit exceeded")
  allocations : E (.lengthError "scheduler allocation record limit exceeded")

/-- The GPUs are the job's. -/
theorem Turn.wp_assign {x : X} {job : JobId} {engine : WorkloadEngine} {record : Record}
    {ledger : Ledger} {w : Working X} {workers : List GpuId} {Q : Unit → Working X → Prop}
    {E : Error → Working X → Prop} (turn : Turn executor x job engine record ledger w)
    (named : record.id = job)
    (next : ∀ w', Turn executor x job (engine.assigning job workers)
      (record.placed workers (executor.simOf x).now) ledger w' → Q () w') :
    wp (WorkloadEngine.assign executor job workers) Q E w := by
  unfold WorkloadEngine.assign
  rw [wp_bind]
  refine turn.wp_jobAt ?_
  rw [wp_bind]
  refine turn.wp_modifyEngine (fun _ _ => rfl) rfl fun w₁ turn₁ => ?_
  rw [named] at turn₁
  rw [wp_bind]
  refine turn₁.wp_now ?_
  exact turn₁.wp_modifyJob next

/-! ## Where a call has come -/

/-- The books are in order, and the engine waits only for collectives that the executor has issued. -/
structure Orderly (executor : CollectiveExecutor X) (issued : X → CollectiveId → Prop)
    (w : Working X) : Prop where
  sound : Sound (executor.desk w)
  exclusive : Exclusive w.engine
  known : ∀ id owner, w.engine.collectives.find? id = some owner → issued w.outside id

/-- A call about one job that began in `w₀`. -/
structure Going (executor : CollectiveExecutor X) (issued : X → CollectiveId → Prop) (job : JobId)
    (w₀ : Working X) (record : Record) (w : Working X) : Prop where
  orderly : Orderly executor issued w
  moves : Relation.ReflTransGen (Move job) (executor.desk w₀) (executor.desk w)
  called : Called executor w₀.outside w.outside
  evolves : Evolves (executor.sim w₀) (executor.sim w)
  found : w.engine.jobs.find? job = some record

namespace Going

variable {job : JobId} {w₀ w : Working X} {record : Record}

theorem start (orderly : Orderly executor issued w) (found : w.engine.jobs.find? job = some record) :
    Going executor issued job w record w :=
  ⟨orderly, .refl, .refl, .refl _, found⟩

theorem sound (going : Going executor issued job w₀ record w) : Sound (executor.desk w) :=
  going.orderly.sound

theorem accepted (going : Going executor issued job w₀ record w) : record.Accepted :=
  going.sound.accepted going.found

theorem stage (going : Going executor issued job w₀ record w) : record.Stage (executor.sim w) :=
  going.sound.staged going.found

theorem turn (going : Going executor issued job w₀ record w) :
    Turn executor w.outside job w.engine record (executor.ledger w) w := .start going.found

/-- One more move. -/
theorem step (going : Going executor issued job w₀ record w)
    {f : WorkloadEngine → WorkloadEngine} {record' : Record} {reports : List (JobTransition × Bool)}
    {ledger' : Ledger} {w' : Working X}
    (turn : Turn executor w.outside job (f w.engine) record' ledger' w')
    (jobs : (f w.engine).jobs = w.engine.jobs)
    (reported : Reported record.id (executor.sim w).now reports (executor.ledger w) ledger')
    (move : Shift job record record' f reports (executor.desk w) (executor.desk w') →
      Move job (executor.desk w) (executor.desk w'))
    (known : ∀ id owner, (f w.engine).collectives.find? id = some owner → issued w'.outside id) :
    Going executor issued job w₀ record' w' := by
  -- the state of the turn is the shift that the move asks for
  have moved := move
    { found := going.found
      engine_eq := by
        have same := turn.engine_eq
        rw [jobs] at same
        exact same
      evolves := turn.evolves
      reported := by
        rw [← turn.ledger_eq] at reported
        exact reported }
  refine ⟨⟨moved.sound going.sound, moved.exclusive going.sound going.orderly.exclusive, ?_⟩,
    going.moves.tail moved, going.called.trans turn.called, going.evolves.trans turn.evolves,
    turn.found⟩
  intro id owner isOwner
  rw [turn.engine_eq] at isOwner
  exact known id owner isOwner

/-- One more move, by which the engine waits for no other collective than before. -/
theorem quiet (going : Going executor issued job w₀ record w) (issues : Issues executor issued)
    {f : WorkloadEngine → WorkloadEngine} {record' : Record} {reports : List (JobTransition × Bool)}
    {ledger' : Ledger} {w' : Working X}
    (turn : Turn executor w.outside job (f w.engine) record' ledger' w')
    (jobs : (f w.engine).jobs = w.engine.jobs)
    (collectives : ∀ id owner, (f w.engine).collectives.find? id = some owner →
      w.engine.collectives.find? id = some owner)
    (reported : Reported record.id (executor.sim w).now reports (executor.ledger w) ledger')
    (move : Shift job record record' f reports (executor.desk w) (executor.desk w') →
      Move job (executor.desk w) (executor.desk w')) :
    Going executor issued job w₀ record' w' :=
  going.step turn jobs reported move fun id owner isOwner =>
    issues.called turn.called (going.orderly.known id owner (collectives id owner isOwner))

end Going

/-- The call is over, and its job is settled. -/
def Reached (executor : CollectiveExecutor X) (issued : X → CollectiveId → Prop) (job : JobId)
    (w₀ w : Working X) : Prop :=
  ∃ record, Going executor issued job w₀ record w ∧ record.Settled (executor.sim w) ∧
    (record.state.terminal = false → record.assigned = true → record.Served)

namespace Going

variable {job : JobId} {w₀ w : Working X} {record : Record}

/-! ## The end of a job -/

/-- The only error of the accounting is that the allocated time does not fit. -/
theorem inspect_error (tolerates : Tolerates executor E) {r : Record} {time : SimTimeNs}
    (accounts : r.Accounts time) (word : time ≤ maxU64)
    (fits : r.spec.steps * r.stepCompute ≤ maxU64) {e : Error}
    (threw : r.inspect time = .error e) : E e := by
  rw [accounts.inspect_eq word fits] at threw
  split at threw
  · cases threw
  · cases threw
    exact tolerates.overdrawn

theorem wp_finish {state : JobState} {reason : String} {Q : Unit → Working X → Prop}
    (going : Going executor issued job w₀ record w) (issues : Issues executor issued)
    (tolerates : Tolerates executor E) (alive : record.state.terminal = false)
    (terminal : state.terminal = true)
    (success : state = .succeeded → record.step = record.spec.steps)
    (interrupted : state ≠ .succeeded →
      record.Settled (executor.sim w) ∨ record.Arriving (executor.sim w))
    (next : ∀ w', Reached executor issued job w₀ w' → (∀ record',
      w'.engine.jobs.find? job = some record' → record'.state.terminal = true) → Q () w') :
    wp (WorkloadEngine.finish executor job state reason) Q (fun e _ => E e) w := by
  have stage := going.stage
  have accepted := going.accepted
  have word := going.sound.word
  have now : (executor.simOf w.outside).now = (executor.sim w).now := rfl
  refine going.turn.wp_finish tolerates.excuses going.sound.valid now alive
    (fun id member => stage.owned accepted alive member) ?_ ?_ ?_
  · intro unsuccessful assigned e threw
    have accounts : record.Accounts (executor.sim w).now := by
      rcases interrupted unsuccessful with settled | arriving
      · exact settled.accounts
      · exact arriving.unplaced.accounts alive _
    exact inspect_error tolerates accounts word accepted.total threw
  · intro compute computed e threw
    have settled : (record.ended state reason (executor.sim w).now compute).Settled
        (executor.sim w) := stage.ended accepted alive terminal success interrupted computed
    exact inspect_error tolerates settled.accounts word accepted.total threw
  · intro compute snapshot ledger' w' computed inspected recorded turn
    have settled : (record.ended state reason (executor.sim w).now compute).Settled
        (executor.sim w) := stage.ended accepted alive terminal success interrupted computed
    refine next w' ⟨_, going.quiet issues (f := fun engine =>
        { (engine.released record).traced (record.ended state reason (executor.sim w).now compute)
            (executor.sim w).now "job_terminal" with
          completed := engine.completed ++ [snapshot] })
      turn rfl (fun _ _ known => known) (.one recorded)
      (fun shift => .ended stage alive terminal success interrupted computed inspected shift),
      settled.onward (turn.onward going.sound.valid), fun running => ?_⟩ fun record' isRecord => ?_
    · exact absurd (terminal.symm.trans running) nofun
    · cases turn.found.symm.trans isRecord
      exact terminal

/-! ## A step of training -/

theorem wp_startStep {allocatedAt : SimTimeNs} {Q : Unit → Working X → Prop}
    (going : Going executor issued job w₀ record w) (issues : Issues executor issued)
    (tolerates : Tolerates executor E) (resting : record.Resting allocatedAt (executor.sim w))
    (more : record.step < record.spec.steps)
    (next : ∀ w', Reached executor issued job w₀ w' → Q () w') :
    wp (WorkloadEngine.startStep executor job) Q (fun e _ => E e) w := by
  have accepted := going.accepted
  have crew := (going.sound.measured going.found).crew
  have now : (executor.simOf w.outside).now = (executor.sim w).now := rfl
  refine going.turn.wp_startStep tolerates.excuses going.sound.valid now
    (fun worker isWorker none => ?_) accepted fun events ledger' w' filled recorded turn => ?_
  · -- every worker has a duration
    rw [resting.paid.workers] at isWorker
    rw [List.getElem?_eq_getElem isWorker] at none
    cases none
  have training := resting.stepping turn.evolves accepted more filled
  refine next w' ⟨_, going.quiet issues (f := fun engine => engine.traced
      { record.stepping (executor.sim w).now with events } (executor.sim w).now
        "step_compute_started")
    turn rfl (fun _ _ known => known) (.one recorded)
    (fun shift => .began resting more filled shift),
    .training training, fun _ _ _ whole => ?_⟩
  -- nobody is through with the first bucket yet
  have some_ : 0 < record.spec.workers.length := by
    rw [resting.paid.workers]
    exact List.length_pos_iff.mpr crew
  have isFirst : record.slotOf 0 = 0 := by simp [Record.slotOf]
  have first : events[0 * record.eventsPerWorker + record.slotOf 0]? = some none :=
    Record.eq_none_of_doneIn whole some_
  obtain ⟨_, _, _, isEvent, _⟩ := filled.slot 0 0 accepted.eventsPerWorker_pos
    (by simpa using Nat.mul_pos some_ accepted.eventsPerWorker_pos)
  rw [isFirst] at first
  cases first.symm.trans isEvent

/-- The bytes before the next bucket fit, since they are less than the gradient. -/
theorem consumed_fits {allocatedAt : SimTimeNs} (training : record.Training allocatedAt (executor.sim w))
    (measured : record.Measured) :
    checkedProduct record.completedBuckets record.spec.bucketBytes =
      .ok (record.completedBuckets * record.spec.bucketBytes) := by
  have before := Nat.mul_le_mul_right record.spec.bucketBytes (Nat.le_sub_one_of_lt training.bucket)
  rw [checkedProduct_eq, if_pos (before.trans (measured.covers.le.trans measured.word))]

theorem wp_startCollective {allocatedAt : SimTimeNs} {Q : Unit → Working X → Prop}
    (going : Going executor issued job w₀ record w) (issues : Issues executor issued)
    (tolerates : Tolerates executor E) (training : record.Training allocatedAt (executor.sim w))
    (next : ∀ w', Reached executor issued job w₀ w' → Q () w') :
    wp (WorkloadEngine.startCollective executor job) Q (fun e _ => E e) w := by
  have turn := going.turn
  unfold WorkloadEngine.startCollective
  rw [wp_bind]
  refine turn.wp_jobAt ?_
  rw [wp_runIf]
  -- a collective is running already
  refine ⟨fun inactive => ?_, fun active => next w ⟨record, going, .training training, fun _ _ none =>
    absurd none active⟩⟩
  have isReady : record.ready[record.completedBuckets]? =
      some (record.doneIn (record.slotOf record.completedBuckets)) := by
    rw [training.slots.ready]
    simp [training.bucket]
  rw [isReady, wp_bind, wp_getOrThrow]
  refine ⟨fun ready same => ?_, nofun⟩
  cases same
  -- somebody is not through with the bucket yet
  rw [wp_runIf]
  refine ⟨fun all => ?_, fun some_ => next w ⟨record, going, .training training, fun _ _ _ => some_⟩⟩
  rw [wp_bind, consumed_fits training (going.sound.measured going.found), fromExcept_of_ok, wp_pure]
  dsimp only
  rw [wp_bind]
  refine turn.wp_submit tolerates.excuses going.sound.valid fun id w₁ ok submitted => ?_
  -- the executor has not given the identifier before
  obtain ⟨unknown, known⟩ := issues.submit ok
  have fresh : w.engine.collectives.find? id = none := Option.eq_none_iff_forall_ne_some.mpr
    fun owner isOwner => unknown (going.orderly.known id owner isOwner)
  have joins : { w.engine with collectives := w.engine.collectives.emplace id record.id } =
      w.engine.joining id job := by
    rw [OrderedMap.emplace_of_fresh fresh, going.sound.named going.found]
    rfl
  have now : (executor.simOf w₁.outside).now = (executor.sim w).now := submitted.now
  rw [wp_bind]
  refine submitted.rebased.wp_modifyJob fun w₂ turn₂ => ?_
  rw [wp_bind]
  refine turn₂.wp_modifyEngine (fun _ _ => rfl) rfl fun w₃ turn₃ => ?_
  rw [joins] at turn₃
  rw [wp_bind]
  refine turn₃.wp_modifyJob fun w₄ turn₄ => ?_
  rw [wp_bind]
  refine turn₄.wp_trace tolerates.excuses fun w₅ turn₅ => ?_
  rw [now] at turn₅
  refine turn₅.wp_emitJob tolerates.excuses fun ledger' w₆ recorded turn₆ => ?_
  rw [now] at recorded
  have joined := training.joined id all
  refine next w₆ ⟨record.joined id, going.step (f := fun engine => (engine.joining id job).traced
      (record.joined id) (executor.sim w).now "bucket_collective_started")
    (turn₆.after submitted.evolves submitted.called) rfl (.one recorded)
    (fun shift => .joined training inactive all fresh shift) ?_,
    .training (joined.onward ((turn₆.after submitted.evolves submitted.called).onward
      going.sound.valid)), fun _ _ => nofun⟩
  -- the new identifier has been issued just now, the others were before
  intro other owner isOwner
  rcases OrderedMap.find?_insert_cases isOwner with ⟨rfl, rfl⟩ | ⟨_, old⟩
  · exact issues.called turn₆.called known
  · exact issues.called (submitted.called.trans turn₆.called) (going.orderly.known other owner old)

/-! ## A worker is through with a bucket -/

/-- The job expects this event. -/
structure Awaits (record : Record) (e : WorkloadEvent) (event : Event) : Prop where
  active : record.state ≠ .scheduled ∧ record.state ≠ .waiting
  step : e.step = record.step
  isWorker : e.worker < record.spec.workers.length
  isBucket : e.bucket < record.buckets
  pending : record.events[record.positionOf e.worker e.bucket]? = some (some event.id)

/-- The counters of a step, and the report about the first worker. -/
theorem wp_mark {worker bucket : Nat} {Q : Unit → Working X → Prop}
    (going : Going executor issued job w₀ record w) (tolerates : Tolerates executor E)
    {rest : Action (Working X) Unit}
    (next : ∀ ledger' w', Reported record.id (executor.sim w).now
        (if bucket = record.buckets - 1 ∧ (record.marked worker bucket).computeComplete = 1 ∧
          record.spec.workers.length > 1
          then [(.stragglerStarted, record.activeCollective.isSome)] else [])
        (executor.ledger w) ledger' →
      Turn executor w.outside job w.engine (record.marked worker bucket) ledger' w' →
      wp rest Q (fun e _ => E e) w') :
    wp (do
      WorkloadEngine.modifyJob job fun r =>
        { r with events := r.events.set (record.positionOf worker bucket) none }.readied bucket
      runIf (bucket = record.buckets - 1) do
        WorkloadEngine.modifyJob job fun record =>
          { record with computeComplete := record.computeComplete + 1 }
        runIf ((← WorkloadEngine.jobAt job).computeComplete = 1 ∧ record.spec.workers.length > 1) do
          WorkloadEngine.emitJob executor job .stragglerStarted worker
      rest) Q (fun e _ => E e) w := by
  rw [wp_bind]
  refine going.turn.wp_modifyJob fun w₁ turn₁ => ?_
  rw [wp_bind, wp_runIf]
  refine ⟨fun isLast => ?_, fun notLast => ?_⟩
  · have marks : record.marked worker bucket = { { record with
        events := record.events.set (record.positionOf worker bucket) none }.readied bucket with
        computeComplete := record.computeComplete + 1 } := by
      simp [Record.marked, Record.readied, isLast]
    rw [wp_bind]
    refine turn₁.wp_modifyJob fun w₂ turn₂ => ?_
    rw [wp_bind]
    refine turn₂.wp_jobAt ?_
    rw [wp_runIf]
    have turn₂ : Turn executor w.outside job w.engine (record.marked worker bucket)
      (executor.ledger w) w₂ := marks ▸ turn₂
    have count : (record.marked worker bucket).computeComplete = record.computeComplete + 1 := by
      rw [marks]
    refine ⟨fun first => ?_, fun later => ?_⟩
    · refine turn₂.wp_emitJob tolerates.excuses fun ledger' w₃ recorded turn₃ => ?_
      rw [if_pos ⟨isLast, count.trans first.1, first.2⟩] at next
      exact next ledger' w₃ (.one recorded) turn₃
    · rw [if_neg fun all => later ⟨count.symm.trans all.2.1, all.2.2⟩] at next
      exact next _ w₂ rfl turn₂
  · have marks : record.marked worker bucket = { record with
        events := record.events.set (record.positionOf worker bucket) none }.readied bucket := by
      simp [Record.marked, Record.readied, notLast]
    rw [if_neg fun all => notLast all.1] at next
    exact next _ w₁ rfl (marks ▸ turn₁)

theorem Awaits.last {allocatedAt : SimTimeNs} {e : WorkloadEvent} {event : Event}
    (awaits : Awaits record e event) (training : record.Training allocatedAt (executor.sim w))
    (valid : (executor.sim w).Valid) (current : (executor.sim w).currentEvent = some event)
    (payload : event.payload = .workload e) (overlap : record.spec.overlap = false) :
    e.bucket = record.buckets - 1 := by
  obtain ⟨duration, _, asked, _⟩ := training.slots.asked valid current awaits.isWorker
    (Record.slotOf_lt awaits.isBucket) awaits.pending
  have same : EventPayload.workload e = (record.computeEvent e.worker (record.slotOf e.bucket)
      duration).payload := payload.symm.trans (congrArg EventSpec.payload asked)
  have bucket := congrArg WorkloadEvent.bucket (EventPayload.workload.inj same)
  simpa [overlap] using bucket

theorem wp_computeReady {e : WorkloadEvent} {event : Event} {Q : Unit → Working X → Prop}
    (going : Going executor issued job w₀ record w) (issues : Issues executor issued)
    (tolerates : Tolerates executor E) (settled : record.Settled (executor.sim w))
    (alive : record.state.terminal = false)
    (current : (executor.sim w).currentEvent = some event) (payload : event.payload = .workload e)
    (unexpected : ¬ Awaits record e event → E (.logicError "stale workload compute event") ∧
      E (.logicError "unexpected compute completion"))
    (next : ∀ w', Reached executor issued job w₀ w' → Q () w') :
    wp (WorkloadEngine.computeReady executor job e) Q (fun e _ => E e) w := by
  have turn := going.turn
  have valid := going.sound.valid
  unfold WorkloadEngine.computeReady
  rw [wp_bind]
  refine turn.wp_jobAt ?_
  rw [wp_bind, wp_throwIf]
  refine ⟨fun stale => (unexpected fun awaits => ?_).1, fun fitting => ?_⟩
  · rcases stale with scheduled | waiting | step | worker | bucket
    · exact awaits.active.1 scheduled
    · exact awaits.active.2 waiting
    · exact step awaits.step
    · exact absurd awaits.isWorker (not_lt.mpr worker)
    · exact absurd awaits.isBucket (not_lt.mpr bucket)
  simp only [not_or, not_not, ge_iff_le, not_le, ne_eq] at fitting
  obtain ⟨notScheduled, notWaiting, isStep, isWorker, isBucket⟩ := fitting
  -- a settled job that is neither scheduled nor waiting nor over trains
  have trains : ∃ allocatedAt, record.Training allocatedAt (executor.sim w) := by
    cases settled with
    | scheduled state => exact absurd state notScheduled
    | waiting state => exact absurd state notWaiting
    | training training => exact ⟨_, training⟩
    | ended terminal => exact absurd (terminal.symm.trans alive) nofun
  obtain ⟨allocatedAt, training⟩ := trains
  have isSlot : record.slotOf e.bucket < record.eventsPerWorker := Record.slotOf_lt isBucket
  obtain ⟨_, entry, _, isEntry, _⟩ := training.slots.slot e.worker isWorker _ isSlot
  have isPending : record.events[e.worker * record.eventsPerWorker +
      if record.spec.overlap then e.bucket else 0]? = some entry := isEntry
  dsimp only
  rw [isPending, wp_bind, wp_getOrThrow]
  refine ⟨fun known same => ?_, nofun⟩
  cases same
  rw [wp_bind, wp_throwIf]
  refine ⟨fun none => (unexpected fun awaits => ?_).2, fun _ => ?_⟩
  · rw [none] at isEntry
    cases isEntry.symm.trans awaits.pending
  rw [wp_bind]
  refine turn.wp_currentEventId current ?_
  rw [wp_bind, wp_throwIf]
  refine ⟨fun other => (unexpected fun awaits => other ?_).2, fun same => ?_⟩
  · exact Option.some.inj (isEntry.symm.trans awaits.pending)
  rw [not_not] at same
  subst same
  have awaits : Awaits record e event :=
    ⟨⟨notScheduled, notWaiting⟩, isStep, isWorker, isBucket, isEntry⟩
  have last := awaits.last training valid current payload
  have computed := training.computed valid current isWorker isBucket last isEntry
  refine going.wp_mark tolerates fun ledger₁ w₁ marked turn₁ => ?_
  have reach : ∀ ledger₂ w₂, Reported record.id (executor.sim w).now
      ((record.computed e.worker e.bucket).reports e.bucket) (executor.ledger w) ledger₂ →
      Turn executor w.outside job
        (w.engine.through (record.computed e.worker e.bucket) (executor.sim w).now)
        (record.computed e.worker e.bucket) ledger₂ w₂ →
      wp (WorkloadEngine.startCollective executor job) Q (fun e _ => E e) w₂ := by
    intro ledger₂ w₂ reported turn₂
    have going₂ := going.quiet issues
      (f := fun engine => engine.through (record.computed e.worker e.bucket) (executor.sim w).now)
      turn₂ (by unfold WorkloadEngine.through; split <;> rfl)
      (fun _ _ known => (w.engine.through_apart _ _).1 ▸ known) reported
      (fun shift => .computed training current isWorker isBucket last isEntry shift)
    exact going₂.wp_startCollective issues tolerates (computed.onward (turn₂.onward valid)) next
  rw [wp_bind]
  refine turn₁.wp_jobAt ?_
  rw [wp_bind, wp_runIf]
  have count : (record.computed e.worker e.bucket).computeComplete =
      (record.marked e.worker e.bucket).computeComplete := rfl
  refine ⟨fun all => ?_, fun some_ => ?_⟩
  · have whole : (record.computed e.worker e.bucket).computeComplete =
      (record.computed e.worker e.bucket).spec.workers.length := count.trans all
    rw [wp_bind, wp_runIf]
    -- whether a collective is running decides the state that is reported
    have report : ∀ w₂, Turn executor w.outside job w.engine (record.computed e.worker e.bucket)
        ledger₁ w₂ → wp (do
          WorkloadEngine.trace executor job "step_compute_finished"
          WorkloadEngine.emitJob executor job .computeCompleted e.worker)
          (fun _ w => wp (WorkloadEngine.startCollective executor job) Q (fun e _ => E e) w)
          (fun e _ => E e) w₂ := by
      intro w₂ turn₂
      rw [wp_bind]
      refine turn₂.wp_trace tolerates.excuses fun w₃ turn₃ => ?_
      refine turn₃.wp_emitJob tolerates.excuses fun ledger₂ w₄ recorded turn₄ => ?_
      refine reach ledger₂ w₄ (marked.append ?_) ?_
      · rw [if_pos whole]
        exact .one recorded
      · unfold WorkloadEngine.through
        rw [if_pos whole]
        exact turn₄
    refine ⟨fun running => ?_, fun idle => ?_⟩
    · refine turn₁.wp_modifyJob fun w₂ turn₂ => report w₂ ?_
      have computes : record.computed e.worker e.bucket =
          { record.marked e.worker e.bucket with state := .communicating } := by
        unfold Record.computed
        rw [if_pos ⟨all, running⟩]
      rw [computes]
      exact turn₂
    · refine report w₁ ?_
      have computes : record.computed e.worker e.bucket = record.marked e.worker e.bucket := by
        unfold Record.computed
        rw [if_neg fun both => idle both.2]
        rfl
      rw [computes]
      exact turn₁
  · have computes : record.computed e.worker e.bucket = record.marked e.worker e.bucket := by
      unfold Record.computed
      rw [if_neg fun both => some_ both.1]
      rfl
    refine reach ledger₁ w₁ ?_ ?_
    · have none := marked.append .nil
      unfold Record.reports
      rw [if_neg (show ¬ (record.computed e.worker e.bucket).computeComplete =
        (record.computed e.worker e.bucket).spec.workers.length from some_)]
      exact none
    · unfold WorkloadEngine.through
      rw [if_neg (show ¬ (record.computed e.worker e.bucket).computeComplete =
        (record.computed e.worker e.bucket).spec.workers.length from some_), computes]
      exact turn₁

/-! ## A collective has ended -/

/-- Each worker's duration is put on the books. -/
theorem wp_forM_paid {x : X} {engine : WorkloadEngine} {ledger : Ledger} {Q : Unit → Working X → Prop} :
    ∀ (durations : List SimDurationNs) {record : Record} {w : Working X},
      Turn executor x job engine record ledger w →
      record.computeGpuNs + durations.sum ≤ maxU64 →
      (∀ w', Turn executor x job engine
          { record with computeGpuNs := record.computeGpuNs + durations.sum } ledger w' → Q () w') →
      wp (durations.forM fun duration => do
        let total ← fromExcept (checkedSum (← WorkloadEngine.jobAt job).computeGpuNs duration)
        WorkloadEngine.modifyJob job fun record => { record with computeGpuNs := total })
        Q (fun e _ => E e) w
  | [], _, w, turn, _, next => next w turn
  | duration :: durations, record, w, turn, fits, next => by
    rw [List.sum_cons] at fits next
    have total : checkedSum record.computeGpuNs duration = .ok (record.computeGpuNs + duration) := by
      rw [checkedSum_eq _ _ (by omega), if_pos (by omega)]
    rw [List.forM, wp_bind, wp_bind]
    refine turn.wp_jobAt ?_
    rw [total, fromExcept_of_ok, wp_bind, wp_pure]
    refine turn.wp_modifyJob fun w₁ turn₁ => ?_
    refine wp_forM_paid durations turn₁ ?_ fun w₂ turn₂ => next w₂ ?_
    · rwa [Nat.add_assoc]
    · rwa [Nat.add_assoc] at turn₂

theorem wp_completeBucket {id : CollectiveId} {allocatedAt : SimTimeNs} {Q : Unit → Working X → Prop}
    (going : Going executor issued job w₀ record w) (issues : Issues executor issued)
    (tolerates : Tolerates executor E) (training : record.Training allocatedAt (executor.sim w))
    (owner : w.engine.collectives.find? id = some job) {w₁ : Working X}
    (turn : Turn executor w.outside job (w.engine.hearing id) record (executor.ledger w) w₁)
    (next : ∀ w', Reached executor issued job w₀ w' → Q () w') :
    wp (WorkloadEngine.completeBucket executor job) Q (fun e _ => E e) w₁ := by
  have valid := going.sound.valid
  have accepted := going.accepted
  have isActive : record.activeCollective.isSome = true := by
    rw [going.sound.active_of_owner going.found owner]
    rfl
  have erased : ∀ other o, (w.engine.hearing id).collectives.find? other = some o →
      w.engine.collectives.find? other = some o := fun _ _ known =>
    (OrderedMap.find?_of_erase known).2
  unfold WorkloadEngine.completeBucket
  rw [wp_bind]
  refine turn.wp_trace tolerates.excuses fun w₂ turn₂ => ?_
  rw [wp_bind]
  refine turn₂.wp_emitJob tolerates.excuses fun ledger₃ w₃ recorded turn₃ => ?_
  rw [wp_bind]
  refine turn₃.wp_modifyJob fun w₄ turn₄ => ?_
  rw [wp_bind]
  refine turn₄.wp_jobAt ?_
  rw [wp_ite]
  refine ⟨fun last => ?_, fun notLast => ?_⟩
  · -- the step is over
    have last : record.completedBuckets + 1 = record.buckets := last
    have rested := training.stepped accepted isActive last
    unfold WorkloadEngine.completeStep
    rw [wp_bind]
    refine turn₄.wp_jobAt ?_
    rw [wp_bind]
    -- the steps before and this one are within the compute of the whole job
    have total : record.computeGpuNs + record.stepCompute ≤ maxU64 := by
      have paid := training.paid.compute
      have more := Nat.mul_le_mul_right record.stepCompute (Nat.succ_le_of_lt training.step)
      rw [Nat.succ_mul] at more
      rw [paid]
      exact more.trans accepted.total
    refine wp_forM_paid record.spec.compute turn₄ total fun w₅ turn₅ => ?_
    rw [wp_bind]
    refine turn₅.wp_emitJob tolerates.excuses fun ledger₆ w₆ recorded₆ turn₆ => ?_
    rw [wp_bind]
    refine turn₆.wp_modifyJob fun w₇ turn₇ => ?_
    have turn₇ : Turn executor w.outside job ((w.engine.hearing id).traced record (executor.sim w).now
      "bucket_collective_completed") record.stepped ledger₆ w₇ := turn₇
    have going₇ := going.quiet issues
      (f := fun engine => (engine.hearing id).traced record (executor.sim w).now
        "bucket_collective_completed") turn₇ rfl erased
      ((Reported.one recorded).append (.one recorded₆))
      (fun shift => .stepped training owner last shift)
    have rested₇ := rested.onward (turn₇.onward valid)
    rw [wp_bind]
    refine turn₇.wp_jobAt ?_
    rw [wp_ite]
    -- the last step ends the job, and any other one is followed by the next
    refine ⟨fun all => ?_, fun more => ?_⟩
    · exact going₇.wp_finish issues tolerates rested₇.paid.running rfl (fun _ => all)
        (fun other => absurd rfl other) fun w' reached _ => next w' reached
    · exact going₇.wp_startStep issues tolerates rested₇
        (lt_of_le_of_ne rested₇.step more) next
  -- the collective of the next bucket starts if all workers are through with it
  · have more : record.completedBuckets + 1 < record.buckets :=
      lt_of_le_of_ne training.bucket notLast
    have advanced := training.advanced isActive more
    rw [wp_bind]
    refine turn₄.wp_modifyJob fun w₅ turn₅ => ?_
    have turn₅ : Turn executor w.outside job ((w.engine.hearing id).traced record (executor.sim w).now
      "bucket_collective_completed") record.advanced ledger₃ w₅ := turn₅
    have going₅ := going.quiet issues
      (f := fun engine => (engine.hearing id).traced record (executor.sim w).now
        "bucket_collective_completed") turn₅ rfl erased (.one recorded)
      (fun shift => .advanced training owner more shift)
    exact going₅.wp_startCollective issues tolerates (advanced.onward (turn₅.onward valid)) next

/-- The engine hears of the collective of a job. -/
theorem wp_handleResult {completion : CollectiveResult} {Q : Unit → Working X → Prop}
    (going : Going executor issued job w₀ record w) (issues : Issues executor issued)
    (tolerates : Tolerates executor E) (settled : record.Settled (executor.sim w))
    (owner : w.engine.collectives.find? completion.id = some job)
    (next : ∀ w', Reached executor issued job w₀ w' → Q () w') :
    wp (WorkloadEngine.handleResult executor completion) Q (fun e _ => E e) w := by
  have valid := going.sound.valid
  have erased : ∀ other o, (w.engine.hearing completion.id).collectives.find? other = some o →
      w.engine.collectives.find? other = some o := fun _ _ known =>
    (OrderedMap.find?_of_erase known).2
  unfold WorkloadEngine.handleResult
  rw [wp_bind, wp_get, wp_bind, wp_getOrThrow, owner]
  refine ⟨fun known same => ?_, nofun⟩
  cases same
  rw [wp_bind]
  refine going.turn.wp_jobAt ?_
  rw [wp_bind]
  refine going.turn.wp_modifyEngine (fun _ _ => rfl) rfl fun w₁ turn₁ => ?_
  have turn₁ : Turn executor w.outside job (w.engine.hearing completion.id) record
    (executor.ledger w) w₁ := turn₁
  rw [wp_ite]
  refine ⟨fun terminal => ?_, fun alive => ?_⟩
  · -- the job has ended before its collective
    refine turn₁.wp_modifyJob fun w₂ turn₂ => ?_
    have turn₂ : Turn executor w.outside job (w.engine.hearing completion.id) record.left
      (executor.ledger w) w₂ := turn₂
    refine next w₂ ⟨record.left, going.quiet issues
      (f := fun engine => engine.hearing completion.id) turn₂ rfl erased .nil
      (fun shift => .outlived settled terminal owner shift), ?_, fun running => ?_⟩
    · cases settled with
      | scheduled state => rw [state] at terminal; cases terminal
      | waiting state => rw [state] at terminal; cases terminal
      | training training => exact absurd (training.running.symm.trans terminal) nofun
      | ended _ accounts isFinished announced =>
        have left : record.left.Settled (executor.sim w) :=
          .ended terminal accounts.left isFinished announced
        exact left.onward (turn₂.onward valid)
    · exact absurd (terminal.symm.trans running) nofun
  · -- only a job that trains has a collective
    have active := going.sound.active_of_owner going.found owner
    have trains : ∃ allocatedAt, record.Training allocatedAt (executor.sim w) := by
      cases settled with
      | scheduled _ unplaced => exact absurd (unplaced.inactive.symm.trans active) nofun
      | waiting _ unplaced => exact absurd (unplaced.inactive.symm.trans active) nofun
      | training training => exact ⟨_, training⟩
      | ended terminal => exact absurd terminal alive
    obtain ⟨allocatedAt, training⟩ := trains
    rw [wp_ite]
    -- a collective that failed ends its job, and any other one its bucket
    refine ⟨fun _ => ?_, fun _ => ?_⟩
    · rw [wp_bind]
      refine turn₁.wp_emitJob tolerates.excuses fun ledger₂ w₂ recorded turn₂ => ?_
      rw [wp_bind]
      refine turn₂.wp_modifyJob fun w₃ turn₃ => ?_
      have turn₃ : Turn executor w.outside job (w.engine.hearing completion.id) record.left
        ledger₂ w₃ := turn₃
      have going₃ := going.quiet issues (f := fun engine => engine.hearing completion.id) turn₃ rfl
        erased (.one recorded) (fun shift => .failed training owner shift)
      have left := training.left.onward (turn₃.onward valid)
      exact going₃.wp_finish issues tolerates left.running rfl nofun
        (fun _ => .inl (.training left)) fun w' reached _ => next w' reached
    · exact going.wp_completeBucket issues tolerates training owner turn₁ next

/-! ## A job arrives -/

theorem wp_arrive {event : Event} {Q : Unit → Working X → Prop}
    (going : Going executor issued job w₀ record w) (issues : Issues executor issued)
    (tolerates : Tolerates executor E) (settled : record.Settled (executor.sim w))
    (current : (executor.sim w).currentEvent = some event)
    (awaited : record.arrivalEvent = some event.id) {w₁ : Working X}
    (turn : Turn executor w.outside job w.engine record.announced (executor.ledger w) w₁)
    (next : ∀ w', Reached executor issued job w₀ w' → Q () w') :
    wp (WorkloadEngine.arrive executor job) Q (fun e _ => E e) w₁ := by
  have valid := going.sound.valid
  unfold WorkloadEngine.arrive
  rw [wp_bind]
  refine turn.wp_emitJob tolerates.excuses fun ledger₂ w₂ recorded turn₂ => ?_
  have going₂ := going.quiet issues (f := fun engine => engine) turn₂ rfl (fun _ _ known => known)
    (.one recorded) (fun shift => .announced settled current awaited shift)
  have arriving := (settled.announced valid current awaited).onward (turn₂.onward valid)
  have word := going₂.sound.word
  have named : record.announced.id = job := going₂.sound.named going₂.found
  have turn₂ := going₂.turn
  rw [wp_bind]
  refine turn₂.wp_jobAt ?_
  rw [wp_bind, wp_get, wp_ite]
  refine ⟨fun scheduler => ?_, fun alone => ?_⟩
  · -- the job waits for the scheduler
    rw [wp_bind]
    refine turn₂.wp_modifyJob fun w₃ turn₃ => ?_
    rw [wp_bind]
    refine turn₃.wp_trace tolerates.excuses fun w₄ turn₄ => ?_
    rw [wp_bind]
    refine turn₄.wp_emitJob tolerates.excuses fun ledger₅ w₅ recorded₅ turn₅ => ?_
    refine turn₅.wp_modifyEngine (fun _ _ => rfl) rfl fun w₆ turn₆ => ?_
    have turn₆ : Turn executor w₂.outside job
      { w₂.engine.traced record.announced.queued (executor.sim w₂).now "job_waiting" with
        admissionPending := true } record.announced.queued ledger₅ w₆ := turn₆
    have going₆ := going₂.quiet issues
      (f := fun engine => { engine.traced record.announced.queued (executor.sim w₂).now
        "job_waiting" with admissionPending := true }) turn₆ rfl (fun _ _ known => known)
      (.one recorded₅) (fun shift => .queued arriving scheduler shift)
    refine next w₆ ⟨_, going₆, arriving.queued.onward (turn₆.onward going₂.sound.valid),
      fun _ assigned => ?_⟩
    have unassigned := arriving.unplaced.unassigned
    exact absurd (unassigned.symm.trans assigned) nofun
  · have alone : w₂.engine.inventory = none := Option.not_isSome_iff_eq_none.mp alone
    rw [wp_ite]
    -- without a scheduler the job is pinned: it fails if one of its GPUs is taken
    refine ⟨fun taken => ?_, fun free => ?_⟩
    · exact going₂.wp_finish issues tolerates (by rw [arriving.state]; rfl) rfl nofun
        (fun _ => .inr arriving) fun w' reached _ => next w' reached
    · have unassigned : ∀ gpu ∈ record.announced.spec.workers,
          w₂.engine.assignments.find? gpu = none := by
        intro gpu isWorker
        refine Option.eq_none_iff_forall_ne_some.mpr fun owner isOwner => free ?_
        exact List.any_eq_true.mpr ⟨gpu, isWorker, OrderedMap.contains_iff.mpr ⟨owner, isOwner⟩⟩
      rw [wp_bind]
      refine turn₂.wp_assign named fun w₃ turn₃ => ?_
      rw [wp_bind]
      refine turn₃.wp_emitJob tolerates.excuses fun ledger₄ w₄ recorded₄ turn₄ => ?_
      have going₄ := going₂.quiet issues
        (f := fun engine => engine.assigning job record.announced.spec.workers) turn₄ rfl
        (fun _ _ known => known) (.one recorded₄)
        (fun shift => .pinned arriving alone unassigned shift)
      have placed := arriving.unplaced.placed (by rw [arriving.state]; rfl) arriving.announced
        arriving.past (going₂.sound.sized going₂.found arriving.unplaced.unassigned alone)
      exact going₄.wp_startStep issues tolerates (placed.onward (turn₄.onward going₂.sound.valid))
        (arriving.unplaced.step ▸ going₂.accepted.steps_pos) next

end Going

end NexusLab.Workload
