import Mathlib.Algebra.Order.Floor.Div
import NexusLab.Sim.KernelRuns
import NexusLab.Workload.Lifecycle

/-! # When the gradients are ready

The events of a worker in a step are due at the shares of its duration, rounded up.  The source takes
the quotient and the remainder of the duration apart, and nothing it computes on the way overflows.
So the events of a worker are asked for in the order of the buckets and dispatched in this order. -/

namespace NexusLab.Workload

open Foundation Sim Telemetry Collective

/-! ## The shares of a duration -/

section Shares

variable {duration events index : Nat}

/-- The share of the first events, rounded up. -/
theorem dueAfter_eq_ceilDiv (positive : 0 < events) :
    dueAfter duration events index = duration * (index + 1) ⌈/⌉ events := by
  rw [Nat.ceilDiv_eq_add_pred_div, dueAfter]
  calc duration / events * (index + 1) + (duration % events * (index + 1) + events - 1) / events
    _ = (events * (duration / events * (index + 1)) +
          (duration % events * (index + 1) + events - 1)) / events :=
      (Nat.mul_add_div positive _ _).symm
    _ = (duration * (index + 1) + events - 1) / events := by
      conv_rhs => rw [← Nat.div_add_mod duration events]
      rw [Nat.add_mul, Nat.mul_assoc, Nat.add_assoc]
      congr 1
      omega

theorem dueAfter_pos (worked : 0 < duration) (inside : index < events) :
    0 < dueAfter duration events index := by
  have positive : 0 < events := by omega
  have share : 0 < duration * (index + 1) := Nat.mul_pos worked (Nat.succ_pos index)
  rw [dueAfter_eq_ceilDiv positive, Nat.ceilDiv_eq_add_pred_div]
  exact Nat.div_pos (by omega) positive

/-- The values on the way to an offset are those of the words they are computed in. -/
structure OffsetFits (duration events index : Nat) : Prop where
  fraction : index + 1 ≤ maxU32
  whole : duration / events * (index + 1) ≤ maxU64
  rest : duration % events * (index + 1) ≤ maxU64
  raised : duration % events * (index + 1) + events ≤ maxU64
  lowered : 1 ≤ duration % events * (index + 1) + events
  total : duration / events * (index + 1) +
    (duration % events * (index + 1) + events - 1) / events ≤ maxU64

theorem OffsetFits.of_words (word : duration ≤ maxU64) (few : events ≤ maxU32)
    (inside : index < events) : OffsetFits duration events index := by
  have total : dueAfter duration events index ≤ maxU64 := (dueAfter_le inside).trans word
  have raised : duration % events * (index + 1) + events ≤ maxU64 := by
    have less := Nat.mod_lt duration (show 0 < events by omega)
    calc duration % events * (index + 1) + events
      _ ≤ (events - 1) * events + events :=
        Nat.add_le_add_right (Nat.mul_le_mul (by omega) (by omega)) _
      _ = events * events := by
        rw [Nat.sub_one_mul, Nat.sub_add_cancel (Nat.le_mul_of_pos_left _ (by omega))]
      _ ≤ maxU32 * maxU32 := Nat.mul_le_mul few few
      _ ≤ maxU64 := by decide
  exact {
    fraction := Nat.le_trans inside few
    whole := (Nat.le_add_right _ _).trans total
    rest := (Nat.le_add_right _ _).trans raised
    raised := raised
    lowered := by omega
    total := total }

end Shares

/-! ## The events of a worker -/

namespace Record

variable {record : Record} {events : List (Option EventId)} {sim : Simulation} {worker : Nat}
  {duration : SimDurationNs}

/-- What a worker has asked for in the order of the buckets. -/
structure AskedInOrder (record : Record) (worker : Nat) (duration : SimDurationNs)
    (events : List (Option EventId)) (asked : List (EventId × EventSpec)) : Prop where
  length : asked.length = record.eventsPerWorker
  slot : ∀ index, index < record.eventsPerWorker → ∃ id,
    asked[index]? = some (id, record.computeEvent worker index duration) ∧
    events[worker * record.eventsPerWorker + index]? = some (some id)

/-- The events of a worker are asked for in the order of their keys. -/
theorem Filled.asked (filled : record.Filled
      (record.spec.workers.length * record.eventsPerWorker) events sim)
    (isWorker : worker < record.spec.workers.length)
    (isDuration : record.spec.compute[worker]? = some duration) :
    ∃ asked, record.AskedInOrder worker duration events asked ∧ InKeyOrder asked ∧
      ∀ p ∈ asked, Promised p.1 p.2 sim := by
  have slot : ∀ index, index < record.eventsPerWorker → ∃ id,
      events[worker * record.eventsPerWorker + index]? = some (some id) ∧
      Promised id (record.computeEvent worker index duration) sim := by
    intro index inside
    obtain ⟨id, duration', isDuration', isEvent, promised⟩ :=
      filled.slot worker index inside (position_lt isWorker inside)
    cases Option.some.inj (isDuration.symm.trans isDuration')
    exact ⟨id, isEvent, promised⟩
  have : Nonempty EventId := ⟨⟨0⟩⟩
  choose! idAt isEvent promised using slot
  refine ⟨(List.range record.eventsPerWorker).map fun index =>
    (idAt index, record.computeEvent worker index duration), ⟨by simp, fun index inside => ?_⟩, ?_, ?_⟩
  · exact ⟨idAt index, by simp [inside], isEvent index inside⟩
  · refine List.pairwise_map.mpr (List.Pairwise.imp_of_mem ?_ List.pairwise_lt_range)
    intro earlier later isEarlier isLater less
    rw [List.mem_range] at isEarlier isLater
    have ids : (idAt earlier).value < (idAt later).value :=
      filled.ordered _ _ _ _ (Nat.add_lt_add_left less _) (isEvent earlier isEarlier)
        (isEvent later isLater)
    refine ⟨?_, fun same => absurd (congrArg StrongId.value same) ids.ne⟩
    -- a later event is due no sooner, and at the same time it has the larger identifier
    have due : record.stepStarted + dueAfter duration record.eventsPerWorker earlier ≤
        record.stepStarted + dueAfter duration record.eventsPerWorker later :=
      Nat.add_le_add_left (dueAfter_mono less.le) _
    unfold askedKey
    rw [Prod.Lex.toLex_lt_toLex]
    rcases due.lt_or_eq with sooner | together
    · exact .inl sooner
    · refine .inr ⟨together, Prod.Lex.toLex_lt_toLex.mpr (.inr ⟨rfl, ids⟩)⟩
  · intro p member
    obtain ⟨index, inside, rfl⟩ := List.mem_map.mp member
    exact promised index (List.mem_range.mp inside)

end Record

/-! ## Readiness -/

/-- The initial simulation has nothing to come. -/
theorem valid_initial (rng : DeterministicRng) : ({ rng } : Simulation).Valid where
  pending id := by simp [EventQueue.empty]
  unique := List.nodup_nil
  cancelled_subset := Finset.empty_subset _
  future _ member := absurd member List.not_mem_nil
  issued _ member := absurd member List.not_mem_nil
  current := nofun

/-- A step that has started has asked for all its events. -/
theorem startStep_ok {X : Type} {executor : CollectiveExecutor X} {w w' : Working X} {job : JobId}
    {record : Record} (found : w.engine.jobs.find? job = some record) (accepted : record.Accepted)
    (valid : (executor.sim w).Valid) (ok : WorkloadEngine.startStep executor job w = .ok () w') :
    ∃ events, (record.stepping (executor.sim w).now).Filled
        (record.spec.workers.length * record.eventsPerWorker) events (executor.sim w') ∧
      w'.engine.jobs.find? job = some { record.stepping (executor.sim w).now with events } ∧
      (executor.sim w').Valid := by
  have turn := @Turn.start _ executor _ _ _ found
  refine wp_of_ok (E := fun _ _ => True)
    (turn.wp_startStep (Q := fun _ w' => ∃ events, (record.stepping (executor.sim w).now).Filled
        (record.spec.workers.length * record.eventsPerWorker) events (executor.sim w') ∧
      w'.engine.jobs.find? job = some { record.stepping (executor.sim w).now with events } ∧
      (executor.sim w').Valid) (.all executor) valid rfl (fun _ _ _ => trivial) accepted
      fun events _ w' filled _ turn => ?_) ok
  exact ⟨events, filled, turn.found, turn.evolves.valid valid⟩

/-- The events of each worker of a step of an accepted job are due at the shares of its duration,
rounded up, and whatever happens afterwards they are dispatched in the order of the buckets. -/
theorem readiness_in_order {X : Type} {executor : CollectiveExecutor X} {engine : WorkloadEngine}
    {graph : Topology.TopologyGraph} {spec : JobSpec} {start : Kernel} {rng : DeterministicRng}
    {earlier : List Event} {w w' : Working X} {job : JobId} {record : Record}
    (word : engine.limits.bucketsPerStep ≤ maxU32)
    (accepted : engine.validate graph spec = .ok record.buckets)
    (isSpec : record.spec = { spec with workers := record.spec.workers })
    (initial : start.sim = { rng })
    (reached : KernelRun start earlier (executor.kernel.get w.outside))
    (found : w.engine.jobs.find? job = some record)
    (ok : WorkloadEngine.startStep executor job w = .ok () w') :
    (∀ duration ∈ spec.compute, ∀ index < record.eventsPerWorker,
      OffsetFits duration record.eventsPerWorker index ∧
      WorkloadEngine.computeOffset duration record.eventsPerWorker index =
        .ok (duration * (index + 1) ⌈/⌉ record.eventsPerWorker) ∧
      1 ≤ duration * (index + 1) ⌈/⌉ record.eventsPerWorker ∧
      (∀ later, index ≤ later → duration * (index + 1) ⌈/⌉ record.eventsPerWorker ≤
        duration * (later + 1) ⌈/⌉ record.eventsPerWorker) ∧
      (index + 1 = record.eventsPerWorker →
        duration * (index + 1) ⌈/⌉ record.eventsPerWorker = duration)) ∧
      ∃ stepping, w'.engine.jobs.find? job = some stepping ∧
        stepping.eventsPerWorker = record.eventsPerWorker ∧
        ∀ worker < record.spec.workers.length, ∀ duration, spec.compute[worker]? = some duration →
          ∃ asked, asked.length = record.eventsPerWorker ∧
            (∀ index < record.eventsPerWorker, ∃ id,
              stepping.events[worker * record.eventsPerWorker + index]? = some (some id) ∧
              asked[index]? = some (id,
                ⟨(executor.sim w).now + duration * (index + 1) ⌈/⌉ record.eventsPerWorker, .normal,
                  .workload ⟨record.id, .computeReady, worker, record.step,
                    if record.spec.overlap then index else record.buckets - 1⟩⟩)) ∧
            ∀ dispatched k, KernelRun (executor.kernel.get w'.outside) dispatched k →
              (dispatchedOf asked dispatched).Sublist asked := by
  have compute : record.spec.compute = spec.compute := by rw [isSpec]
  -- what was accepted has durations, buckets and totals within words
  have fine : record.Accepted := .of_validate word accepted (by rw [isSpec]) compute
  have positive := fine.eventsPerWorker_pos
  have valid : (executor.sim w).Valid := reached.valid (initial ▸ valid_initial rng)
  have few := fine.eventsPerWorker_le
  refine ⟨fun duration isDuration index inside => ?_, ?_⟩
  · obtain ⟨worked, fits⟩ := fine.durations duration (compute ▸ isDuration)
    simp only [← dueAfter_eq_ceilDiv positive]
    exact ⟨.of_words fits few inside, computeOffset_eq fits few inside, dueAfter_pos worked inside,
      fun later le => dueAfter_mono le, fun last =>
        (congrArg _ (Nat.eq_sub_of_add_eq last)).trans (dueAfter_last positive)⟩
  -- the run of the step fills the slots worker by worker
  · obtain ⟨events, filled, kept, evolved⟩ := startStep_ok found fine valid ok
    refine ⟨_, kept, rfl, fun worker isWorker duration isDuration => ?_⟩
    obtain ⟨asked, slots, inOrder, promised⟩ :=
      filled.asked isWorker (show record.spec.compute[worker]? = some duration from compute ▸ isDuration)
    refine ⟨asked, slots.length, fun index inside => ?_, fun dispatched k run =>
      run.dispatched_in_order evolved inOrder promised⟩
    obtain ⟨id, isAsked, isEvent⟩ := slots.slot index inside
    refine ⟨id, isEvent, isAsked.trans ?_⟩
    rw [← dueAfter_eq_ceilDiv positive]
    rfl

/-! A worker that computes for 10 ns has three buckets, due after 4, 7 and 10 ns. -/

def threeBuckets : JobSpec :=
  { name := "three buckets"
    requestedWorkers := 1
    compute := [10]
    gradientBytes := 3
    bucketBytes := 1
    overlap := true }

def threeBucketsRecord : Record :=
  { id := ⟨0⟩, spec := { threeBuckets with workers := [⟨0⟩] }, buckets := 3 }

def threeBucketsEngine : WorkloadEngine :=
  { scheduling := some {}, jobs := OrderedMap.empty.insert ⟨0⟩ threeBucketsRecord }

theorem middleWord_lt (_ : Nat) : 2 ^ 63 < 2 ^ 64 := by decide

theorem middleWord_recurrent (threshold : Nat) (small : threshold < 2 ^ 63) (n : Nat) :
    ∃ later ≥ n, threshold ≤ 2 ^ 63 := ⟨n, le_refl n, le_of_lt small⟩

def freshKernel : Kernel where
  sim := { rng := ⟨⟨fun _ => 2 ^ 63, middleWord_lt, middleWord_recurrent⟩, 0⟩ }
  probe :=
    { trace := { mode := .disabled }
      session := { configuration := { mode := .off }, nextSampleTimestamp := none } }

/-- Every collective is the first one, and nothing happens to it. -/
def idleExecutor : CollectiveExecutor Kernel where
  kernel := ⟨id, fun k _ => k, fun _ _ => rfl, fun _ => rfl, fun _ _ _ => rfl⟩
  graph _ := {}
  submit _ := pure ⟨0⟩
  cancel _ := pure ()
  submit_calls _ _ _ := .pure _
  cancel_calls _ _ _ := .pure _

theorem readiness_in_order_threeBuckets : ∃ w' : Working Kernel,
    WorkloadEngine.startStep idleExecutor ⟨0⟩ ⟨threeBucketsEngine, freshKernel⟩ = .ok () w' ∧
      WorkloadEngine.computeOffset 10 3 1 = .ok 7 ∧
      ∃ asked, asked.length = 3 ∧ ∀ dispatched k, KernelRun w'.outside dispatched k →
        (dispatchedOf asked dispatched).Sublist asked := by
  obtain ⟨_, w', ok⟩ := ok_of_returns
    (show returns (WorkloadEngine.startStep idleExecutor ⟨0⟩) ⟨threeBucketsEngine, freshKernel⟩ =
      true by decide +kernel)
  obtain ⟨offsets, stepping, _, _, workers⟩ := @readiness_in_order _ _ threeBucketsEngine {}
    threeBuckets freshKernel _ _ _ _ _ threeBucketsRecord (by decide) (by decide +kernel) rfl rfl
    .refl rfl ok
  obtain ⟨asked, length, _, inOrder⟩ := workers 0 (by decide) 10 rfl
  exact ⟨w', ok, (offsets 10 (by decide) 1 (by decide)).2.1, asked, length, inOrder⟩

end NexusLab.Workload
