import NexusLab.Workload.Turn

/-! # The parts of a job's life

What each function of the engine makes of the record of a job, of the engine and of the ledger. -/

namespace NexusLab.Workload

open Foundation Sim Telemetry Collective

/-! ## The end of a job -/

/-- The record of a job that has ended. -/
def Record.ended (record : Record) (state : JobState) (reason : String) (time : SimTimeNs)
    (compute : Nat) : Record :=
  { record with
    computeGpuNs := compute
    arrivalEvent := none
    state
    reason
    finished := some time }

/-- The compute on the books of a job at its end: that of an interrupted step is added. -/
def Record.ComputedAtEnd (record : Record) (state : JobState) (time : SimTimeNs) (compute : Nat) :
    Prop :=
  if state ≠ .succeeded ∧ record.assigned = true then
    ∃ snapshot, record.inspect time = .ok snapshot ∧ snapshot.computeGpuNs = compute
  else compute = record.computeGpuNs

/-! ## The start of a step -/

/-- The record at the start of a step, before its events are scheduled. -/
def Record.stepping (record : Record) (time : SimTimeNs) : Record :=
  { record with
    state := .computing
    stepStarted := time
    completedBuckets := 0
    computeComplete := 0
    ready := List.replicate record.buckets 0
    events := List.replicate (record.spec.workers.length * record.eventsPerWorker) none }

/-- What is asked of the simulation for one event of a worker in the current step. -/
def Record.computeEvent (record : Record) (worker index : Nat) (duration : SimDurationNs) :
    EventSpec :=
  ⟨record.stepStarted + dueAfter duration record.eventsPerWorker index, .normal,
    .workload ⟨record.id, .computeReady, worker, record.step,
      if record.spec.overlap then index else record.buckets - 1⟩⟩

/-- The first `n` events of the step are scheduled, one after the other, and no more. -/
structure Record.Filled (record : Record) (n : Nat) (events : List (Option EventId))
    (sim : Simulation) : Prop where
  length : events.length = record.spec.workers.length * record.eventsPerWorker
  slot : ∀ worker index, index < record.eventsPerWorker →
    worker * record.eventsPerWorker + index < n → ∃ id duration,
      record.spec.compute[worker]? = some duration ∧
      events[worker * record.eventsPerWorker + index]? = some (some id) ∧
      Promised id (record.computeEvent worker index duration) sim
  empty : ∀ position, n ≤ position → position < events.length → events[position]? = some none
  issued : ∀ id, some id ∈ events → sim.eventIds.Issued id.value
  ordered : ∀ (earlier later : Nat) (first second : EventId), earlier < later →
    events[earlier]? = some (some first) → events[later]? = some (some second) →
    first.value < second.value

/-- The position of an event tells its worker and its index. -/
theorem position_injective {worker worker' index index' count : Nat} (inside : index < count)
    (inside' : index' < count)
    (same : worker * count + index = worker' * count + index') : worker = worker' ∧ index = index' := by
  have positive : 0 < count := by omega
  have divided := congrArg (· / count) same
  have rest := congrArg (· % count) same
  simp only [Nat.mul_comm _ count, Nat.mul_add_div positive, Nat.div_eq_of_lt inside,
    Nat.div_eq_of_lt inside', Nat.mul_add_mod, Nat.mod_eq_of_lt inside, Nat.mod_eq_of_lt inside',
    Nat.add_zero] at divided rest
  exact ⟨divided, rest⟩

theorem position_lt {worker workers index count : Nat} (isWorker : worker < workers)
    (inside : index < count) : worker * count + index < workers * count :=
  calc worker * count + index
    _ < worker * count + count := Nat.add_lt_add_left inside _
    _ = (worker + 1) * count := (Nat.succ_mul _ _).symm
    _ ≤ workers * count := Nat.mul_le_mul_right _ isWorker

namespace Record.Filled

variable {record : Record} {n : Nat} {events : List (Option EventId)} {sim sim' : Simulation}

theorem evolves (filled : record.Filled n events sim) (evolves : Evolves sim sim') :
    record.Filled n events sim' where
  length := filled.length
  slot worker index isIndex before := by
    obtain ⟨id, duration, isDuration, isEvent, promised⟩ := filled.slot worker index isIndex before
    exact ⟨id, duration, isDuration, isEvent, promised.evolves evolves⟩
  empty := filled.empty
  issued id member := evolves.issued (filled.issued id member)
  ordered := filled.ordered

theorem initial : record.Filled 0 (List.replicate
    (record.spec.workers.length * record.eventsPerWorker) none) sim where
  length := List.length_replicate ..
  slot _ _ _ before := absurd before (Nat.not_lt_zero _)
  empty position _ inside := by
    rw [List.length_replicate] at inside
    exact List.getElem?_replicate_of_lt inside
  issued _ member := nomatch (List.mem_replicate.mp member).2
  ordered _ _ _ _ _ isFirst _ := nomatch (List.mem_replicate.mp (List.mem_of_getElem? isFirst)).2

/-- One more event. -/
theorem next {worker index : Nat} {duration : SimDurationNs} {id : EventId}
    (filled : record.Filled n events sim) (evolves : Evolves sim sim')
    (position : n = worker * record.eventsPerWorker + index)
    (isWorker : worker < record.spec.workers.length) (isIndex : index < record.eventsPerWorker)
    (isDuration : record.spec.compute[worker]? = some duration)
    (promised : Promised id (record.computeEvent worker index duration) sim')
    (fresh : ∀ value, sim.eventIds.Issued value → value < id.value) :
    record.Filled (n + 1) (events.set n (some id)) sim' := by
  have inside : n < events.length := by
    rw [filled.length, position]
    exact position_lt isWorker isIndex
  have here : (events.set n (some id))[n]? = some (some id) := List.getElem?_set_self inside
  have elsewhere : ∀ p, p ≠ n → (events.set n (some id))[p]? = events[p]? := fun p other =>
    List.getElem?_set_ne (Ne.symm other)
  have later : ∀ p other, n < p → (events.set n (some id))[p]? ≠ some (some other) := by
    intro p other after isEvent
    rw [elsewhere p (by omega)] at isEvent
    have bound := (List.getElem?_eq_some_iff.mp isEvent).1
    rw [filled.empty p after.le bound] at isEvent
    cases isEvent
  refine ⟨(List.length_set ..).trans filled.length, ?_, ?_, ?_, ?_⟩
  · intro other otherIndex isOtherIndex before
    rcases Nat.lt_succ_iff_lt_or_eq.mp before with less | same
    · obtain ⟨known, time, isTime, isEvent, was⟩ := filled.slot other otherIndex isOtherIndex less
      exact ⟨known, time, isTime, (elsewhere _ less.ne).trans isEvent, was.evolves evolves⟩
    · obtain ⟨rfl, rfl⟩ := position_injective isOtherIndex isIndex (same.trans position)
      exact ⟨id, duration, isDuration, same ▸ here, promised⟩
  · intro p after bound
    rw [List.length_set] at bound
    rw [elsewhere p (by omega)]
    exact filled.empty p (by omega) bound
  · intro other member
    rcases List.mem_or_eq_of_mem_set member with member | same
    · exact evolves.issued (filled.issued other member)
    · cases same
      exact promised.issued
  · intro earlier later' first second less isFirst isSecond
    rcases Nat.lt_trichotomy later' n with before | rfl | after
    · rw [elsewhere _ before.ne] at isSecond
      rw [elsewhere _ (less.trans before).ne] at isFirst
      exact filled.ordered earlier later' first second less isFirst isSecond
    · rw [here] at isSecond
      cases isSecond
      rw [elsewhere _ less.ne] at isFirst
      exact fresh _ (filled.issued first (List.mem_of_getElem? isFirst))
    · exact absurd isSecond (later later' second after)

end Record.Filled

namespace WorkloadEngine

/-- The engine once it has given the GPUs of a job back. -/
def released (engine : WorkloadEngine) (record : Record) : WorkloadEngine :=
  { engine with
    assignments := if record.assigned = true
      then record.spec.workers.foldl OrderedMap.erase engine.assignments else engine.assignments
    inventory := engine.inventory.map fun inventory => inventory.release record.id
    admissionPending := engine.inventory.isSome || engine.admissionPending }

end WorkloadEngine

namespace Turn

variable {X : Type} {executor : CollectiveExecutor X} {E : Error → Prop} {x : X} {job : JobId}
  {engine : WorkloadEngine} {record : Record} {ledger : Ledger} {w : Working X}

theorem wp_cancelActive {Q : Unit → Working X → Prop}
    (turn : Turn executor x job engine record ledger w) (excuses : Excuses executor E)
    (valid : (executor.simOf x).Valid) (active : Option CollectiveId)
    (next : ∀ w', Turn executor x job engine record ledger w' → Q () w') :
    wp (match active with
      | some id => WorkloadEngine.onOutside (executor.cancel id)
      | none => pure ()) Q (fun e _ => E e) w := by
  cases active with
  | none => exact next w turn
  | some id => exact turn.wp_cancelCollective excuses valid next

theorem wp_withdraw {Q : Unit → Working X → Prop}
    (turn : Turn executor x job engine record ledger w) (excuses : Excuses executor E)
    (valid : (executor.simOf x).Valid)
    (owned : ∀ id, some id ∈ record.events ∨ record.arrivalEvent = some id →
      Owned (executor.simOf x) id)
    (next : ∀ w', Turn executor x job engine { record with arrivalEvent := none } ledger w' →
      Q () w') :
    wp (WorkloadEngine.withdraw executor job) Q (fun e _ => E e) w := by
  unfold WorkloadEngine.withdraw
  rw [wp_bind]
  refine turn.wp_jobAt ?_
  rw [wp_bind]
  refine turn.wp_forM (fun event isEvent w turn => ?_) (fun w turn => ?_)
  · cases event with
    | none => exact turn
    | some id =>
      rw [wp_bind]
      have own := (owned id (.inl isEvent)).onward (turn.onward valid)
      exact turn.wp_cancel excuses own fun _ _ turn => turn
  cases arrival : record.arrivalEvent with
  | none =>
    have same : { record with arrivalEvent := none } = record := by rw [← arrival]
    exact wp_cancelActive (same.symm ▸ turn) excuses valid record.activeCollective next
  | some id =>
    dsimp only
    rw [wp_bind]
    have own := (owned id (.inr arrival)).onward (turn.onward valid)
    refine turn.wp_cancel excuses own fun _ w turn => ?_
    rw [wp_bind]
    exact turn.wp_modifyJob fun w turn =>
      turn.wp_cancelActive excuses valid record.activeCollective next

theorem wp_giveBack {Q : Unit → Working X → Prop} {E : Error → Working X → Prop}
    {assignments : OrderedMap Topology.GpuId JobId}
    (turn : Turn executor x job { engine with assignments } record ledger w)
    (same : assignments = (engine.released record).assignments)
    (next : ∀ w', Turn executor x job (engine.released record) record ledger w' → Q () w') :
    wp (WorkloadEngine.modifyEngine fun engine =>
      match engine.inventory with
      | some inventory => { engine with
          inventory := some (inventory.release record.id), admissionPending := true }
      | none => engine) Q E w := by
  subst same
  refine turn.wp_modifyEngine (fun engine jobs => ?_) ?_ fun w turn => next w ?_
  · cases inventory : engine.inventory <;> simp [inventory]
  · cases engine.inventory <;> simp
  · unfold WorkloadEngine.released at turn ⊢
    cases inventory : engine.inventory with
    | none => simpa [inventory] using turn
    | some given => simpa [inventory] using turn

theorem wp_releaseWorkers {Q : Unit → Working X → Prop} {E : Error → Working X → Prop}
    (turn : Turn executor x job engine record ledger w)
    (next : ∀ w', Turn executor x job (engine.released record) record ledger w' → Q () w') :
    wp (WorkloadEngine.releaseWorkers job) Q E w := by
  unfold WorkloadEngine.releaseWorkers
  rw [wp_bind]
  refine turn.wp_jobAt ?_
  rw [wp_bind, wp_runIf]
  refine ⟨fun assigned => ?_, fun unassigned => ?_⟩
  · refine turn.wp_modifyEngine (fun _ _ => rfl) rfl fun w turn => turn.wp_giveBack ?_ next
    exact (if_pos assigned).symm
  · exact turn.wp_giveBack (if_neg unassigned).symm next

theorem wp_finish {state : JobState} {reason : String} {time : SimTimeNs} {Q : Unit → Working X → Prop}
    (turn : Turn executor x job engine record ledger w) (excuses : Excuses executor E)
    (valid : (executor.simOf x).Valid) (now : (executor.simOf x).now = time)
    (alive : record.state.terminal = false)
    (owned : ∀ id, some id ∈ record.events ∨ record.arrivalEvent = some id →
      Owned (executor.simOf x) id)
    (first : state ≠ .succeeded → record.assigned = true → ∀ e, record.inspect time = .error e → E e)
    (last : ∀ compute, record.ComputedAtEnd state time compute → ∀ e,
      (record.ended state reason time compute).inspect time = .error e → E e)
    (next : ∀ compute snapshot ledger' w', record.ComputedAtEnd state time compute →
      (record.ended state reason time compute).inspect time = .ok snapshot →
      ledger.Recorded record.id time (WorkloadEngine.terminalTransition state)
        record.activeCollective.isSome ledger' →
      Turn executor x job
        { (engine.released record).traced (record.ended state reason time compute) time
            "job_terminal" with completed := engine.completed ++ [snapshot] }
        (record.ended state reason time compute) ledger' w' → Q () w') :
    wp (WorkloadEngine.finish executor job state reason) Q (fun e _ => E e) w := by
  subst now
  unfold WorkloadEngine.finish
  rw [wp_bind]
  refine turn.wp_jobAt ?_
  rw [wp_runIf]
  refine ⟨fun _ => ?_, fun ended => absurd alive ended⟩
  rw [wp_bind]
  refine turn.wp_now ?_
  -- what comes after the compute time is settled is the same for every end
  have rest : ∀ compute w, record.ComputedAtEnd state (executor.simOf x).now compute →
      Turn executor x job engine { record with computeGpuNs := compute } ledger w → wp (do
        WorkloadEngine.withdraw executor job
        WorkloadEngine.releaseWorkers job
        WorkloadEngine.modifyJob job fun record =>
          { record with state, reason, finished := some (executor.simOf x).now }
        WorkloadEngine.trace executor job "job_terminal"
        let snapshot ← fromExcept ((← WorkloadEngine.jobAt job).inspect (executor.simOf x).now)
        WorkloadEngine.modifyEngine fun engine =>
          { engine with completed := engine.completed ++ [snapshot] }
        WorkloadEngine.emitJob executor job (WorkloadEngine.terminalTransition state)
        WorkloadEngine.emitTerminalMetrics executor snapshot) Q
        (fun e _ => E e) w := by
    intro compute w computed turn
    rw [wp_bind]
    refine turn.wp_withdraw excuses valid owned fun w turn => ?_
    rw [wp_bind]
    refine turn.wp_releaseWorkers fun w turn => ?_
    rw [wp_bind]
    refine turn.wp_modifyJob fun w turn => ?_
    rw [wp_bind]
    refine turn.wp_trace excuses fun w turn => ?_
    rw [wp_bind]
    refine turn.wp_jobAt ?_
    rw [wp_bind, wp_fromExcept]
    refine ⟨fun snapshot inspected => ?_, fun e threw => last compute computed e threw⟩
    rw [wp_bind]
    refine turn.wp_modifyEngine (fun _ _ => rfl) rfl fun w turn => ?_
    rw [wp_bind]
    refine turn.wp_emitJob excuses fun ledger w recorded turn => ?_
    refine turn.wp_quiet excuses (fun k => ?_) fun w turn =>
      next compute snapshot ledger w computed inspected recorded turn
    refine (JobFree.fromExcept _).bind fun _ => (jobFree_record (by nofun)).bind fun _ =>
      (jobFree_record (by nofun)).bind fun _ => (jobFree_record (by nofun)).bind fun _ =>
      (jobFree_record (by nofun)).bind fun _ => (jobFree_record (by nofun)).bind fun _ =>
      (JobFree.fromExcept _).bind fun _ => jobFree_record (by nofun)
  rw [wp_bind, wp_runIf]
  -- an interrupted step is charged up to now
  refine ⟨fun interrupted => ?_, fun whole => ?_⟩
  · rw [wp_bind, wp_fromExcept]
    refine ⟨fun snapshot inspected => ?_, first interrupted.1 interrupted.2⟩
    refine turn.wp_modifyJob fun w turn => rest _ w ?_ turn
    unfold Record.ComputedAtEnd
    rw [if_pos interrupted]
    exact ⟨snapshot, inspected, rfl⟩
  · refine rest record.computeGpuNs w ?_ turn
    unfold Record.ComputedAtEnd
    rw [if_neg whole]

theorem wp_scheduleCompute {base : Record} {worker index : Nat} {events : List (Option EventId)}
    {Q : Unit → Working X → Prop}
    (turn : Turn executor x job engine { base with events } ledger w)
    (excuses : Excuses executor E) (valid : (executor.simOf x).Valid)
    (inRange : base.spec.compute[worker]? = none →
      E (.undefinedBehavior "compute duration out of range"))
    (accepted : base.Accepted) (began : base.stepStarted = (executor.simOf x).now)
    (isWorker : worker < base.spec.workers.length) (isIndex : index < base.eventsPerWorker)
    (filled : base.Filled (worker * base.eventsPerWorker + index) events (executor.sim w))
    (next : ∀ events w',
      base.Filled (worker * base.eventsPerWorker + (index + 1)) events (executor.sim w') →
      Turn executor x job engine { base with events } ledger w' → Q () w') :
    wp (WorkloadEngine.scheduleCompute executor job worker index) Q (fun e _ => E e) w := by
  unfold WorkloadEngine.scheduleCompute
  rw [wp_bind]
  refine turn.wp_jobAt ?_
  rw [wp_bind, wp_getOrThrow]
  refine ⟨fun duration isDuration => ?_, inRange⟩
  obtain ⟨_, word⟩ := accepted.durations duration (List.mem_of_getElem? isDuration)
  have offset : WorkloadEngine.computeOffset duration
      (Record.eventsPerWorker { base with events }) index =
      .ok (dueAfter duration base.eventsPerWorker index) :=
    computeOffset_eq word accepted.eventsPerWorker_le isIndex
  rw [wp_bind, offset, fromExcept_of_ok, wp_pure, wp_bind]
  refine turn.wp_now ?_
  rw [wp_bind, wp_getOrThrow]
  refine ⟨fun time isTime => ?_, fun _ => excuses.time⟩
  obtain rfl : (executor.simOf x).now + dueAfter duration base.eventsPerWorker index = time := by
    unfold Sim.checkedAdd at isTime
    split at isTime
    · cases isTime
    · exact Option.some.inj isTime
  dsimp only
  rw [wp_bind]
  refine turn.wp_schedule excuses valid (Nat.le_add_right _ _) fun id w evolves fresh promised turn => ?_
  have asked : base.computeEvent worker index duration =
      ⟨(executor.simOf x).now + dueAfter duration base.eventsPerWorker index, .normal,
        .workload ⟨base.id, .computeReady, worker, base.step,
          if base.spec.overlap then index else base.buckets - 1⟩⟩ := by
    unfold Record.computeEvent
    rw [began]
  have stepped := filled.next evolves rfl isWorker isIndex isDuration (asked ▸ promised) fresh
  refine turn.rebased.wp_modifyJob fun w' rebased => ?_
  exact next _ w' (stepped.evolves rebased.evolves) (rebased.after turn.evolves turn.called)

theorem wp_startStep {time : SimTimeNs} {Q : Unit → Working X → Prop}
    (turn : Turn executor x job engine record ledger w) (excuses : Excuses executor E)
    (valid : (executor.simOf x).Valid) (now : (executor.simOf x).now = time)
    (inRange : ∀ worker < record.spec.workers.length, record.spec.compute[worker]? = none →
      E (.undefinedBehavior "compute duration out of range"))
    (accepted : record.Accepted)
    (next : ∀ events ledger' w',
      (record.stepping time).Filled (record.spec.workers.length * record.eventsPerWorker) events
        (executor.sim w') →
      ledger.Recorded record.id time .computeStarted record.activeCollective.isSome ledger' →
      Turn executor x job
        (engine.traced { record.stepping time with events } time "step_compute_started")
        { record.stepping time with events } ledger' w' → Q () w') :
    wp (WorkloadEngine.startStep executor job) Q (fun e _ => E e) w := by
  subst now
  unfold WorkloadEngine.startStep
  rw [wp_bind]
  refine turn.wp_now ?_
  rw [wp_bind]
  refine turn.wp_modifyJob fun w turn => ?_
  rw [wp_bind]
  refine turn.wp_jobAt ?_
  have acceptedStep : (record.stepping (executor.simOf x).now).Accepted :=
    ⟨accepted.steps_pos, accepted.durations, accepted.buckets_pos, accepted.buckets_word,
      accepted.total⟩
  -- after `n` events the first `n` slots are filled
  let Reached (n : Nat) (w : Working X) : Prop := ∃ events,
    (record.stepping (executor.simOf x).now).Filled n events (executor.sim w) ∧
    Turn executor x job engine { record.stepping (executor.simOf x).now with events } ledger w
  have empty : Reached 0 w := ⟨_, .initial, turn⟩
  -- the inner loop fills the slots of one worker
  have workerDone : ∀ worker w, worker < record.spec.workers.length →
      Reached (worker * record.eventsPerWorker) w →
      wp ((List.range record.eventsPerWorker).forM fun index =>
        WorkloadEngine.scheduleCompute executor job worker index)
        (fun _ w' => Reached ((worker + 1) * record.eventsPerWorker) w')
        (fun e _ => E e) w := by
    intro worker w isWorker reached
    rw [Nat.succ_mul]
    refine wp_forM_range (fun index w => Reached (worker * record.eventsPerWorker + index) w) _ _
      (fun index w isIndex reached => ?_) reached
    obtain ⟨events, filled, turn⟩ := reached
    exact turn.wp_scheduleCompute excuses valid (inRange worker isWorker) acceptedStep rfl isWorker isIndex filled
      fun events w' filled turn => ⟨events, filled, turn⟩
  rw [wp_bind]
  -- and the outer loop those of all workers
  refine wp_mono (wp_forM_range (fun worker w => Reached (worker * record.eventsPerWorker) w) _ _
    workerDone (by rw [Nat.zero_mul]; exact empty)) (fun _ w reached => ?_) (fun _ _ threw => threw)
  obtain ⟨events, filled, turn⟩ := reached
  rw [wp_bind]
  have now : (executor.simOf w.outside).now = (executor.simOf x).now := turn.now
  refine turn.rebased.wp_trace excuses fun w rebased => ?_
  rw [now] at rebased
  refine rebased.wp_emitJob excuses fun ledger w recorded rebased => ?_
  rw [now] at recorded
  exact next events ledger w (filled.evolves rebased.evolves) recorded (rebased.after turn.evolves turn.called)

end Turn

end NexusLab.Workload
