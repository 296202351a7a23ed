import Mathlib.Algebra.BigOperators.Group.List.Basic
import Mathlib.Algebra.Order.BigOperators.Group.List
import Mathlib.Tactic.Ring
import NexusLab.Workload.Engine

/-! # The accounts of a job

`Accounts` says what the times and the compute on the books of a job have to do with each other.
Where it holds, an inspection tells the whole truth or finds that the allocated time does not fit. -/

namespace NexusLab.Workload

open Foundation Sim

/-! ## Checked arithmetic -/

def quantityOverflow : Error := .overflowError "workload quantity overflow"

theorem checkedSum_eq (left right : Nat) (fits : left ≤ maxU64) : checkedSum left right =
    if left + right ≤ maxU64 then .ok (left + right) else .error quantityOverflow := by
  unfold checkedSum quantityOverflow
  split <;> split <;> first | rfl | omega

theorem checkedProduct_eq (left right : Nat) : checkedProduct left right =
    if left * right ≤ maxU64 then .ok (left * right) else .error quantityOverflow := by
  unfold checkedProduct quantityOverflow
  rcases Nat.eq_zero_or_pos right with rfl | positive
  · simp
  · have beyond : left > maxU64 / right ↔ ¬ left * right ≤ maxU64 := by
      rw [gt_iff_lt, Nat.div_lt_iff_lt_mul positive, not_le]
    by_cases fits : left * right ≤ maxU64
    · rw [if_neg (fun both => beyond.mp both.2 fits), if_pos fits]
    · rw [if_pos ⟨positive.ne', beyond.mpr fits⟩, if_neg fits]

theorem foldlM_checkedSum (f : Nat → Nat) : ∀ (values : List Nat) (total : Nat),
    total + (values.map f).sum ≤ maxU64 →
    values.foldlM (fun total value => checkedSum total (f value)) total =
      .ok (total + (values.map f).sum)
  | [], total, _ => rfl
  | value :: values, total, fits => by
    rw [List.map_cons, List.sum_cons] at fits ⊢
    have first : checkedSum total (f value) = .ok (total + f value) := by
      rw [checkedSum_eq _ _ (by omega), if_pos (by omega)]
    rw [List.foldlM_cons, first]
    refine (foldlM_checkedSum f values (total + f value) (by omega)).trans ?_
    rw [Nat.add_assoc]

/-! ## The offsets of a step -/

/-- The exact offset of the `index`-th event of a worker. -/
def dueAfter (duration eventsPerWorker index : Nat) : Nat :=
  duration / eventsPerWorker * (index + 1) +
    (duration % eventsPerWorker * (index + 1) + eventsPerWorker - 1) / eventsPerWorker

/-- The last event comes when the worker is done. -/
theorem dueAfter_last {duration events : Nat} (positive : 0 < events) :
    dueAfter duration events (events - 1) = duration := by
  unfold dueAfter
  rw [Nat.sub_add_cancel positive]
  have round : (duration % events * events + events - 1) / events = duration % events := by
    rw [Nat.add_sub_assoc positive, Nat.mul_comm, Nat.mul_add_div positive,
      Nat.div_eq_of_lt (by omega), Nat.add_zero]
  rw [round]
  exact Nat.div_add_mod' duration events

/-- Later events of a worker come later. -/
theorem dueAfter_mono {duration events index later : Nat} (le : index ≤ later) :
    dueAfter duration events index ≤ dueAfter duration events later := by
  unfold dueAfter
  have next : index + 1 ≤ later + 1 := Nat.succ_le_succ le
  have scaled := Nat.mul_le_mul_left (duration % events) next
  exact Nat.add_le_add (Nat.mul_le_mul_left _ next) (Nat.div_le_div_right (by omega))

theorem dueAfter_le {duration events index : Nat} (inside : index < events) :
    dueAfter duration events index ≤ duration :=
  (dueAfter_mono (Nat.le_sub_one_of_lt inside)).trans_eq (dueAfter_last (by omega))

/-- The offset never overflows. -/
theorem computeOffset_eq {duration events index : Nat} (word : duration ≤ maxU64)
    (few : events ≤ maxU32) (inside : index < events) :
    WorkloadEngine.computeOffset duration events index = .ok (dueAfter duration events index) := by
  have bound := @dueAfter_le duration events index inside
  have rest : duration % events * (index + 1) + events ≤ events * events := by
    have less := Nat.mod_lt duration (show 0 < events by omega)
    calc duration % events * (index + 1) + events
      _ ≤ (events - 1) * events + events :=
        Nat.add_le_add_right (Nat.mul_le_mul (by omega) (by omega)) _
      _ = events * events := by
        rw [Nat.sub_one_mul, Nat.sub_add_cancel (Nat.le_mul_of_pos_left _ (by omega))]
  have square : events * events < 2 ^ 64 :=
    (Nat.mul_le_mul few few).trans_lt (by decide)
  have whole := bound.trans word
  unfold dueAfter at whole ⊢
  have product : checkedProduct (duration / events) (index + 1) =
      .ok (duration / events * (index + 1)) := by
    rw [checkedProduct_eq, if_pos ((Nat.le_add_right _ _).trans whole)]
  have remainder : checkedProduct (duration % events) (index + 1) =
      .ok (duration % events * (index + 1)) := by
    rw [checkedProduct_eq, if_pos (by unfold maxU64; omega)]
  unfold WorkloadEngine.computeOffset
  dsimp only
  rw [product, ok_bind, remainder, ok_bind, U64.add_eq (by omega), U64.sub_eq (by omega) (by omega),
    checkedSum_eq _ _ ((Nat.le_add_right _ _).trans whole), if_pos whole]

/-! ## The compute of a step -/

namespace Record

/-- The compute of a whole step, over all workers. -/
def stepCompute (record : Record) : Nat := record.spec.compute.sum

/-- The compute of the current step after some time of it. -/
def stepComputeAfter (record : Record) (elapsed : Nat) : Nat :=
  (record.spec.compute.map fun duration => min duration elapsed).sum

theorem stepComputeAfter_le (record : Record) (elapsed : Nat) :
    record.stepComputeAfter elapsed ≤ record.stepCompute := by
  unfold stepComputeAfter stepCompute
  conv_rhs => rw [← List.map_id' record.spec.compute]
  exact List.sum_le_sum fun duration _ => min_le_left _ _

theorem stepComputeAfter_le_elapsed (record : Record) (elapsed : Nat) :
    record.stepComputeAfter elapsed ≤ elapsed * record.spec.compute.length := by
  have bound := List.sum_le_card_nsmul (record.spec.compute.map fun duration => min duration elapsed)
    elapsed (by simp only [List.mem_map]; rintro _ ⟨d, _, rfl⟩; exact min_le_right _ _)
  rw [List.length_map, Nat.nsmul_eq_mul, Nat.mul_comm] at bound
  exact bound

/-- What the accounting takes for the compute of the job at a time. -/
def computeBy (record : Record) (time : SimTimeNs) : Nat :=
  if record.assigned = true ∧ record.state.terminal = false then
    record.computeGpuNs + record.stepComputeAfter (time - record.stepStarted)
  else record.computeGpuNs

/-- The GPU time of the job until some time. -/
def allocatedBy (record : Record) (time : SimTimeNs) : Nat :=
  match record.allocatedAt with
  | some allocatedAt => (time - allocatedAt) * record.spec.workers.length
  | none => 0

/-- How the job stands at a time. -/
def account (record : Record) (time : SimTimeNs) : JobSnapshot :=
  let end_ := record.finished.getD time
  { id := record.id
    state := record.state
    completedSteps := record.step
    arrival := record.spec.arrival
    finished := record.finished
    computeGpuNs := record.computeBy time
    idleGpuNs := record.allocatedBy end_ - record.computeBy time
    elapsedNs := end_ - record.spec.arrival
    reason := record.reason
    allocatedAt := record.allocatedAt
    waitingNs := record.allocatedAt.getD end_ - record.spec.arrival }

/-- What the engine has seen to before it accepts a job. -/
structure Accepted (record : Record) : Prop where
  steps_pos : 0 < record.spec.steps
  durations : ∀ duration ∈ record.spec.compute, 0 < duration ∧ duration ≤ maxU64
  buckets_pos : 0 < record.buckets
  buckets_word : record.buckets ≤ maxU32
  total : record.spec.steps * record.stepCompute ≤ maxU64

theorem Accepted.eventsPerWorker_pos {record : Record} (accepted : record.Accepted) :
    0 < record.eventsPerWorker := by
  unfold eventsPerWorker
  split
  · exact accepted.buckets_pos
  · exact Nat.one_pos

theorem Accepted.eventsPerWorker_le {record : Record} (accepted : record.Accepted) :
    record.eventsPerWorker ≤ maxU32 := by
  unfold eventsPerWorker
  split
  · exact accepted.buckets_word
  · decide

/-- The books of a job that has no GPU, of one that trains and of one that has ended. -/
inductive Accounts (record : Record) (now : SimTimeNs) : Prop where
  | idle (unassigned : record.assigned = false) (unallocated : record.allocatedAt = none)
      (nothing : record.computeGpuNs = 0) (unsuccessful : record.state ≠ .succeeded)
      (past : ∀ finished, record.finished = some finished → finished ≤ now)
  | underway {allocatedAt : SimTimeNs} (assigned : record.assigned = true)
      (allocated : record.allocatedAt = some allocatedAt)
      (running : record.state.terminal = false) (unfinished : record.finished = none)
      (workers : record.spec.workers.length = record.spec.compute.length)
      (arrived : record.spec.arrival ≤ allocatedAt) (began : allocatedAt ≤ record.stepStarted)
      (past : record.stepStarted ≤ now) (step : record.step < record.spec.steps)
      (compute : record.computeGpuNs = record.step * record.stepCompute)
      (earned : record.step * record.stepCompute ≤
        (record.stepStarted - allocatedAt) * record.spec.compute.length)
  | closed {allocatedAt finished : SimTimeNs} (allocated : record.allocatedAt = some allocatedAt)
      (ended : record.state.terminal = true) (isFinished : record.finished = some finished)
      (workers : record.spec.workers.length = record.spec.compute.length)
      (arrived : record.spec.arrival ≤ allocatedAt) (began : allocatedAt ≤ finished)
      (past : finished ≤ now)
      (success : record.state = .succeeded →
        record.computeGpuNs = record.spec.steps * record.stepCompute)
      (interrupted : record.state ≠ .succeeded → record.stepStarted ≤ finished ∧
        record.computeGpuNs = record.step * record.stepCompute +
          record.stepComputeAfter (finished - record.stepStarted))
      (earned : record.computeGpuNs ≤ (finished - allocatedAt) * record.spec.compute.length)

namespace Accounts

variable {record : Record} {now time : SimTimeNs}

theorem later (accounts : record.Accounts now) (later : now ≤ time) : record.Accounts time := by
  cases accounts with
  | idle unassigned unallocated nothing unsuccessful past =>
    exact .idle unassigned unallocated nothing unsuccessful
      fun finished isFinished => (past finished isFinished).trans later
  | underway assigned allocated running unfinished workers arrived began past step compute earned =>
    exact .underway assigned allocated running unfinished workers arrived began (past.trans later)
      step compute earned
  | closed allocated ended isFinished workers arrived began past success interrupted earned =>
    exact .closed allocated ended isFinished workers arrived began (past.trans later) success
      interrupted earned

/-- Nobody computes for longer than he has the GPU. -/
theorem computeBy_le (accounts : record.Accounts time) :
    record.computeBy time ≤ record.allocatedBy (record.finished.getD time) := by
  cases accounts with
  | idle unassigned unallocated nothing _ _ => simp [computeBy, unassigned, nothing]
  | @underway a assigned allocated running unfinished workers arrived began past step compute earned =>
    have partial_ := record.stepComputeAfter_le_elapsed (time - record.stepStarted)
    have split := (Nat.sub_add_sub_cancel past began).symm
    simp only [computeBy, allocatedBy, assigned, running, unfinished, allocated, workers, compute,
      Option.getD_none, split, Nat.add_mul, true_and, if_true]
    rw [Nat.add_comm]
    exact Nat.add_le_add partial_ earned
  | closed allocated ended isFinished workers arrived began past success interrupted earned =>
    simpa [computeBy, allocatedBy, ended, isFinished, allocated, workers] using earned

theorem finished_le (accounts : record.Accounts time) : record.finished.getD time ≤ time := by
  cases accounts with
  | idle _ _ _ _ past =>
    cases isFinished : record.finished with
    | none => exact le_rfl
    | some finished => exact past finished isFinished
  | underway _ _ _ unfinished => rw [unfinished]; exact le_rfl
  | closed _ _ isFinished _ _ _ past => rw [isFinished]; exact past

/-- A job that has its GPUs has arrived before, and got them before its end. -/
theorem allocated_le (accounts : record.Accounts time) {allocatedAt : SimTimeNs}
    (allocated : record.allocatedAt = some allocatedAt) :
    record.spec.arrival ≤ allocatedAt ∧ allocatedAt ≤ record.finished.getD time := by
  cases accounts with
  | idle _ unallocated => rw [unallocated] at allocated; cases allocated
  | underway _ isAllocated _ unfinished _ arrived began past =>
    rw [isAllocated] at allocated
    cases allocated
    rw [unfinished]
    exact ⟨arrived, began.trans past⟩
  | closed isAllocated _ isFinished _ arrived began past =>
    rw [isAllocated] at allocated
    cases allocated
    rw [isFinished]
    exact ⟨arrived, began⟩

/-- Nobody is in a step before it began. -/
theorem stepStarted_le (accounts : record.Accounts time) (assigned : record.assigned = true)
    (running : record.state.terminal = false) : record.stepStarted ≤ time := by
  cases accounts with
  | idle unassigned => rw [unassigned] at assigned; cases assigned
  | underway _ _ _ _ _ _ _ past => exact past
  | closed _ ended => rw [ended] at running; cases running

/-- The sum of the compute never overflows. -/
theorem inspectCompute_eq (accounts : record.Accounts time)
    (fits : record.spec.steps * record.stepCompute ≤ maxU64) :
    record.inspectCompute time = .ok (record.computeBy time) := by
  unfold inspectCompute computeBy
  by_cases running : record.assigned = true ∧ record.state.terminal = false
  · rw [if_pos running, if_pos running,
      if_neg (not_lt.mpr (accounts.stepStarted_le running.1 running.2))]
    refine foldlM_checkedSum (fun duration => min duration (time - record.stepStarted)) _ _ ?_
    have whole := record.stepComputeAfter_le (time - record.stepStarted)
    cases accounts with
    | idle unassigned => rw [unassigned] at running; cases running.1
    | underway _ _ _ _ _ _ _ _ step compute =>
      rw [compute]
      calc record.step * record.stepCompute + record.stepComputeAfter (time - record.stepStarted)
        _ ≤ record.step * record.stepCompute + record.stepCompute := Nat.add_le_add_left whole _
        _ = (record.step + 1) * record.stepCompute := (Nat.succ_mul _ _).symm
        _ ≤ record.spec.steps * record.stepCompute := Nat.mul_le_mul_right _ step
        _ ≤ maxU64 := fits
    | closed _ ended => rw [ended] at running; cases running.2
  · rw [if_neg running, if_neg running]

/-- The allocated time is found, unless it does not fit. -/
theorem inspectAllocated_eq (accounts : record.Accounts time) (word : time ≤ maxU64) :
    record.inspectAllocated (record.finished.getD time) =
      if record.allocatedBy (record.finished.getD time) ≤ maxU64
      then .ok (record.allocatedBy (record.finished.getD time)) else .error quantityOverflow := by
  unfold inspectAllocated allocatedBy
  cases allocated : record.allocatedAt with
  | none => rfl
  | some allocatedAt =>
    have bound : record.finished.getD time < 2 ^ 64 := by
      have := accounts.finished_le.trans word
      unfold maxU64 at this
      exact Nat.lt_of_le_pred (by decide) this
    dsimp only
    rw [U64.sub_eq (accounts.allocated_le allocated).2 bound]
    exact checkedProduct_eq _ _

/-- A job that has not arrived has no GPU and has done nothing. -/
theorem account_early (accounts : record.Accounts time)
    (early : record.finished.getD time < record.spec.arrival) :
    record.allocatedAt = none ∧ record.computeBy time = 0 := by
  have unallocated : record.allocatedAt = none := by
    refine Option.eq_none_iff_forall_ne_some.mpr fun allocatedAt allocated => ?_
    obtain ⟨arrived, began⟩ := accounts.allocated_le allocated
    exact absurd (arrived.trans began) (not_le.mpr early)
  have bound := accounts.computeBy_le
  unfold allocatedBy at bound
  rw [unallocated] at bound
  exact ⟨unallocated, Nat.le_zero.mp bound⟩

/-- How long the job has waited is found. -/
theorem waiting_eq (accounts : record.Accounts time) (word : time ≤ maxU64)
    (arrived : record.spec.arrival ≤ record.finished.getD time) :
    U64.sub (record.allocatedAt.getD (record.finished.getD time)) record.spec.arrival =
      record.allocatedAt.getD (record.finished.getD time) - record.spec.arrival := by
  have ends := accounts.finished_le.trans word
  unfold maxU64 at ends
  have bounds : record.spec.arrival ≤ record.allocatedAt.getD (record.finished.getD time) ∧
      record.allocatedAt.getD (record.finished.getD time) ≤ record.finished.getD time := by
    cases allocated : record.allocatedAt with
    | none => exact ⟨arrived, le_rfl⟩
    | some allocatedAt => exact accounts.allocated_le allocated
  exact U64.sub_eq bounds.1 (Nat.lt_of_le_pred (by decide) (bounds.2.trans ends))

/-- An inspection tells how the job stands, unless its allocated time does not fit. -/
theorem inspect_eq (accounts : record.Accounts time) (word : time ≤ maxU64)
    (fits : record.spec.steps * record.stepCompute ≤ maxU64) :
    record.inspect time = if record.allocatedBy (record.finished.getD time) ≤ maxU64
      then .ok (record.account time) else .error quantityOverflow := by
  unfold inspect account
  dsimp only
  by_cases early : record.finished.getD time < record.spec.arrival
  · obtain ⟨unallocated, nothing⟩ := accounts.account_early early
    have none_ : record.allocatedBy (record.finished.getD time) = 0 := by
      simp only [allocatedBy, unallocated]
    rw [if_pos early, none_, if_pos (Nat.zero_le _), nothing, unallocated, Option.getD_none,
      Nat.sub_eq_zero_of_le early.le]
  · rw [if_neg early, accounts.inspectCompute_eq fits, ok_bind,
      accounts.inspectAllocated_eq word, accounts.waiting_eq word (not_lt.mp early)]
    by_cases amount : record.allocatedBy (record.finished.getD time) ≤ maxU64
    · rw [if_pos amount, if_pos amount, ok_bind, if_neg (not_lt.mpr accounts.computeBy_le)]
      rfl
    · rw [if_neg amount, if_neg amount, error_bind]

end Accounts

end Record

/-! ## Accepted jobs -/

/-- What the check of the workers has added up. -/
theorem validateWorkers_ok {graph : Topology.TopologyGraph} {spec : JobSpec} :
    ∀ {compute : List SimDurationNs} {workers unique : List Topology.GpuId} {before total : Nat},
      before ≤ maxU64 →
      WorkloadEngine.validateWorkers graph spec workers compute unique before = .ok total →
      total = before + compute.sum ∧ total ≤ maxU64 ∧ ∀ duration ∈ compute, 0 < duration
  | [], workers, unique, before, total, word, ok => by
    cases ok
    exact ⟨rfl, word, nofun⟩
  | duration :: compute, workers, unique, before, total, word, ok => by
    unfold WorkloadEngine.validateWorkers at ok
    split at ok
    · cases ok
    · rename_i usable
      obtain ⟨next, added, ok⟩ := returned_of_bind ok
      obtain ⟨_, _, ok⟩ := returned_of_bind ok
      obtain ⟨_, _, ok⟩ := returned_of_bind ok
      rw [checkedSum_eq _ _ word] at added
      split at added
      · rename_i fits
        cases added
        obtain ⟨rfl, small, positive⟩ := validateWorkers_ok fits ok
        refine ⟨by rw [List.sum_cons, Nat.add_assoc], small, fun other member => ?_⟩
        rcases List.mem_cons.mp member with rfl | later
        · exact Nat.pos_of_ne_zero fun zero => usable (.inr zero)
        · exact positive other later
      · cases added

/-- The record of a job whose specification the engine has accepted. -/
theorem Record.Accepted.of_validate {engine : WorkloadEngine} {graph : Topology.TopologyGraph}
    {spec : JobSpec} {record : Record} (word : engine.limits.bucketsPerStep ≤ maxU32)
    (ok : engine.validate graph spec = .ok record.buckets) (steps : record.spec.steps = spec.steps)
    (compute : record.spec.compute = spec.compute) : record.Accepted := by
  unfold WorkloadEngine.validate at ok
  dsimp only at ok
  generalize (if spec.requestedWorkers ≠ 0 then spec.requestedWorkers else spec.workers.length) =
    workers at ok
  generalize isBuckets : (spec.gradientBytes / spec.bucketBytes +
    if spec.gradientBytes % spec.bucketBytes ≠ 0 then 1 else 0) = buckets at ok
  -- each check that failed would have thrown
  split at ok
  · cases ok
  · split at ok
    · cases ok
    · rename_i sound
      split at ok
      · cases ok
      · rename_i few
        obtain ⟨events, _, ok⟩ := returned_of_bind ok
        split at ok
        · cases ok
        · obtain ⟨total, added, ok⟩ := returned_of_bind ok
          obtain ⟨product, multiplied, returned⟩ := returned_of_bind ok
          cases returned
          obtain ⟨rfl, small, positive⟩ := validateWorkers_ok (Nat.zero_le _) added
          rw [Nat.zero_add] at small multiplied
          -- the checked product bounds the compute of all steps
          have fits : spec.compute.sum * spec.steps ≤ maxU64 := by
            rw [checkedProduct_eq] at multiplied
            by_contra large
            rw [if_neg large] at multiplied
            cases multiplied
          refine ⟨?_, fun duration member => ?_, ?_, ?_, ?_⟩
          · exact steps ▸ Nat.pos_of_ne_zero fun zero => sound (by tauto)
          · rw [compute] at member
            have part := List.single_le_sum (fun _ _ => Nat.zero_le _) _ member
            exact ⟨positive duration member, part.trans small⟩
          · rw [← isBuckets]
            have gradient : spec.gradientBytes ≠ 0 := fun zero => sound (by tauto)
            -- a gradient that divides evenly has a whole bucket; any other one a short one
            by_cases whole : spec.gradientBytes % spec.bucketBytes = 0
            · have size : spec.gradientBytes / spec.bucketBytes ≠ 0 := by
                intro none
                have parts := Nat.div_add_mod spec.gradientBytes spec.bucketBytes
                rw [none, whole] at parts
                exact gradient parts.symm
              exact Nat.add_pos_left (Nat.pos_of_ne_zero size) _
            · rw [if_pos whole]
              exact Nat.succ_pos _
          · exact (not_lt.mp few).trans word
          · unfold stepCompute
            rwa [steps, compute, Nat.mul_comm]

end NexusLab.Workload
