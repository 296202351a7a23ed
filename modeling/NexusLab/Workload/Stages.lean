import NexusLab.Workload.Lifecycle

/-! # The stages of a job

A job is scheduled, it waits, it trains, or it has ended.  In a step of training every event of every
worker is either still expected or over, and the counters of the record say how many are over.  Each
update that the engine makes of a record takes it from one stage to the next. -/

namespace NexusLab.Workload

open Foundation Sim Collective

/-! ## Counting -/

/-- One more of the numbers below `n` has the property. -/
theorem countP_range_flip {p q : Nat → Bool} {k : Nat} (before : p k = false) (after : q k = true)
    (others : ∀ other, other ≠ k → q other = p other) : ∀ {n : Nat}, k < n →
    (List.range n).countP q = (List.range n).countP p + 1
  | n + 1, inside => by
    rw [List.range_succ, List.countP_append, List.countP_append]
    rcases Nat.lt_succ_iff_lt_or_eq.mp inside with less | rfl
    · -- the number counted anew is among the earlier ones
      have rest := countP_range_flip before after others less
      have last := others n less.ne'
      simp only [List.countP_singleton, last]
      omega
    · have same : (List.range k).countP q = (List.range k).countP p :=
        List.countP_congr fun other member => by
          rw [others other (List.mem_range.mp member).ne]
      simp [same, before, after]

theorem countP_range_congr {p q : Nat → Bool} {n : Nat} (same : ∀ k < n, q k = p k) :
    (List.range n).countP q = (List.range n).countP p :=
  List.countP_congr fun k member => by rw [same k (List.mem_range.mp member)]

namespace Record

/-! ## Updates -/

/-- The arrival is under way. -/
def announced (record : Record) : Record := { record with arrivalEvent := none }

def queued (record : Record) : Record := { record with state := .waiting }

/-- The job has its GPUs. -/
def placed (record : Record) (workers : List Topology.GpuId) (time : SimTimeNs) : Record :=
  { record with
    spec := { record.spec with workers }
    assigned := true
    allocatedAt := some time }

/-- The slot of a bucket among the events of a worker. -/
def slotOf (record : Record) (bucket : Nat) : Nat := if record.spec.overlap then bucket else 0

/-- Where the event of a worker for a bucket is. -/
def positionOf (record : Record) (worker bucket : Nat) : Nat :=
  worker * record.eventsPerWorker + record.slotOf bucket

/-- A worker is through with a bucket. -/
def marked (record : Record) (worker bucket : Nat) : Record :=
  { record with
    events := record.events.set (record.positionOf worker bucket) none
    ready := if record.spec.overlap then record.ready.modify bucket (· + 1)
      else record.ready.map (· + 1)
    computeComplete := if bucket = record.buckets - 1 then record.computeComplete + 1
      else record.computeComplete }

/-- Perhaps it was the last worker of the step, while a collective is running. -/
def computed (record : Record) (worker bucket : Nat) : Record :=
  { record.marked worker bucket with
    state := if (record.marked worker bucket).computeComplete = record.spec.workers.length ∧
      record.activeCollective.isSome = true then .communicating else record.state }

/-- The collective of the next bucket is running. -/
def joined (record : Record) (id : CollectiveId) : Record :=
  { record with
    activeCollective := some id
    state := if record.computeComplete = record.spec.workers.length then .communicating
      else .overlapping }

def left (record : Record) : Record := { record with activeCollective := none }

/-- One more bucket is through, and it was not the last one. -/
def advanced (record : Record) : Record :=
  { record with
    activeCollective := none
    completedBuckets := record.completedBuckets + 1
    state := if record.computeComplete = record.spec.workers.length then .communicating
      else .computing }

/-- The last bucket of a step is through. -/
def stepped (record : Record) : Record :=
  { record with
    activeCollective := none
    completedBuckets := record.completedBuckets + 1
    computeGpuNs := record.computeGpuNs + record.stepCompute
    step := record.step + 1 }

/-! ## Stages -/

/-- The job has no GPU, and nothing of it has begun. -/
structure Unplaced (record : Record) : Prop where
  unassigned : record.assigned = false
  unallocated : record.allocatedAt = none
  nothing : record.computeGpuNs = 0
  unfinished : record.finished = none
  step : record.step = 0
  inactive : record.activeCollective = none
  events : record.events = []

/-- At `time` the job has earned what it has computed, in the GPU time since it was allocated. -/
structure Paid (record : Record) (allocatedAt time : SimTimeNs) : Prop where
  assigned : record.assigned = true
  allocated : record.allocatedAt = some allocatedAt
  running : record.state.terminal = false
  unfinished : record.finished = none
  workers : record.spec.workers.length = record.spec.compute.length
  arrived : record.spec.arrival ≤ allocatedAt
  began : allocatedAt ≤ time
  compute : record.computeGpuNs = record.step * record.stepCompute
  earned : record.step * record.stepCompute ≤
    (time - allocatedAt) * record.spec.compute.length

/-- How many workers are through with the events in a slot. -/
def doneIn (record : Record) (slot : Nat) : Nat :=
  (List.range record.spec.workers.length).countP fun worker =>
    decide (record.events[worker * record.eventsPerWorker + slot]? = some none)

/-- The events of the current step: each of them is expected, or it is over and its time has come. -/
structure Slots (record : Record) (sim : Simulation) : Prop where
  length : record.events.length = record.spec.workers.length * record.eventsPerWorker
  slot : ∀ worker < record.spec.workers.length, ∀ index < record.eventsPerWorker,
    ∃ duration entry, record.spec.compute[worker]? = some duration ∧
      record.events[worker * record.eventsPerWorker + index]? = some entry ∧
      (∀ id, entry = some id → Expects sim id (record.computeEvent worker index duration)) ∧
      (entry = none → record.stepStarted + dueAfter duration record.eventsPerWorker index ≤ sim.now)
  ready : record.ready =
    (List.range record.buckets).map fun bucket => record.doneIn (record.slotOf bucket)
  complete : record.computeComplete = record.doneIn (record.slotOf (record.buckets - 1))

/-- The job trains. -/
structure Training (record : Record) (allocatedAt : SimTimeNs) (sim : Simulation) : Prop where
  paid : record.Paid allocatedAt record.stepStarted
  past : record.stepStarted ≤ sim.now
  step : record.step < record.spec.steps
  slots : record.Slots sim
  bucket : record.completedBuckets < record.buckets
  through : ∀ bucket < record.completedBuckets,
    record.doneIn (record.slotOf bucket) = record.spec.workers.length
  served : record.activeCollective.isSome = true →
    record.doneIn (record.slotOf record.completedBuckets) = record.spec.workers.length
  active : record.state = .computing ∨ record.state = .overlapping ∨ record.state = .communicating
  announced : record.arrivalEvent = none

/-- A step is over, or none has begun yet. -/
structure Resting (record : Record) (allocatedAt : SimTimeNs) (sim : Simulation) : Prop where
  paid : record.Paid allocatedAt sim.now
  step : record.step ≤ record.spec.steps
  inactive : record.activeCollective = none
  announced : record.arrivalEvent = none
  done : ∀ id, some id ∉ record.events

/-- Where a job is between two calls. -/
inductive Settled (record : Record) (sim : Simulation) : Prop where
  | scheduled {id : EventId} (state : record.state = .scheduled) (unplaced : record.Unplaced)
    (awaited : record.arrivalEvent = some id)
    (expected : Expects sim id ⟨record.spec.arrival, .normal,
      .workload { job := record.id, kind := .arrival }⟩)
  | waiting (state : record.state = .waiting) (unplaced : record.Unplaced)
    (announced : record.arrivalEvent = none) (past : record.spec.arrival ≤ sim.now)
  | training {allocatedAt : SimTimeNs} (training : record.Training allocatedAt sim)
  | ended (terminal : record.state.terminal = true) (accounts : record.Accounts sim.now)
    (isFinished : record.finished.isSome = true) (announced : record.arrivalEvent = none)

/-- A bucket that all workers are through with has its collective. -/
def Served (record : Record) : Prop :=
  record.activeCollective = none →
    record.doneIn (record.slotOf record.completedBuckets) ≠ record.spec.workers.length

/-- The sizes of an accepted job: it has workers, and its buckets cover the gradient. -/
structure Measured (record : Record) : Prop where
  crew : record.spec.compute ≠ []
  bucket : 0 < record.spec.bucketBytes
  covers : (record.buckets - 1) * record.spec.bucketBytes < record.spec.gradientBytes
  exhausts : record.spec.gradientBytes ≤ record.buckets * record.spec.bucketBytes
  word : record.spec.gradientBytes ≤ maxU64

/-- The arrival has come, and nothing has been made of it yet. -/
structure Arriving (record : Record) (sim : Simulation) : Prop where
  state : record.state = .scheduled
  unplaced : record.Unplaced
  announced : record.arrivalEvent = none
  past : record.spec.arrival ≤ sim.now

/-- Where a job is within a call. -/
inductive Stage (record : Record) (sim : Simulation) : Prop where
  | settled (settled : record.Settled sim)
  | arriving (arriving : record.Arriving sim)
  | resting {allocatedAt : SimTimeNs} (resting : record.Resting allocatedAt sim)

/-! ## Time passes -/

section Onward

variable {record : Record} {allocatedAt time : SimTimeNs} {sim sim' : Simulation}

theorem Paid.later (paid : record.Paid allocatedAt time) {later : SimTimeNs}
    (le : time ≤ later) : record.Paid allocatedAt later :=
  { paid with
    began := paid.began.trans le
    earned := paid.earned.trans (Nat.mul_le_mul_right _ (Nat.sub_le_sub_right le _)) }

theorem Slots.onward (slots : record.Slots sim) (onward : Onward sim sim') : record.Slots sim' :=
  { slots with
    slot := fun worker isWorker index isIndex => by
      obtain ⟨duration, entry, isDuration, isEntry, expected, past⟩ :=
        slots.slot worker isWorker index isIndex
      exact ⟨duration, entry, isDuration, isEntry, fun id isId => onward.expects (expected id isId),
        fun none => (past none).trans onward.now⟩ }

theorem Training.onward (training : record.Training allocatedAt sim) (onward : Onward sim sim') :
    record.Training allocatedAt sim' :=
  { training with
    past := training.past.trans onward.now
    slots := training.slots.onward onward }

theorem Settled.onward (settled : record.Settled sim) (onward : Onward sim sim') :
    record.Settled sim' := by
  cases settled with
  | scheduled state unplaced awaited expected =>
    exact .scheduled state unplaced awaited (onward.expects expected)
  | waiting state unplaced announced past =>
    exact .waiting state unplaced announced (past.trans onward.now)
  | training training => exact .training (training.onward onward)
  | ended terminal accounts isFinished announced =>
    exact .ended terminal (accounts.later onward.now) isFinished announced

theorem Arriving.onward (arriving : record.Arriving sim) (onward : Onward sim sim') :
    record.Arriving sim' :=
  { arriving with past := arriving.past.trans onward.now }

theorem Resting.onward (resting : record.Resting allocatedAt sim) (onward : Onward sim sim') :
    record.Resting allocatedAt sim' :=
  { resting with paid := resting.paid.later onward.now }

theorem Stage.onward (stage : record.Stage sim) (onward : Onward sim sim') :
    record.Stage sim' := by
  cases stage with
  | settled settled => exact .settled (settled.onward onward)
  | arriving arriving => exact .arriving (arriving.onward onward)
  | resting resting => exact .resting (resting.onward onward)

end Onward

/-! ## What a stage says -/

section Stages

variable {record : Record} {allocatedAt time : SimTimeNs} {sim sim' : Simulation}

theorem Training.running (training : record.Training allocatedAt sim) :
    record.state.terminal = false := training.paid.running

theorem Training.not_waiting (training : record.Training allocatedAt sim) :
    record.state ≠ .waiting := by
  rcases training.active with state | state | state <;> rw [state] <;> nofun

/-- The books of a job that trains. -/
theorem Training.accounts (training : record.Training allocatedAt sim) :
    record.Accounts sim.now :=
  let paid := training.paid
  .underway paid.assigned paid.allocated paid.running paid.unfinished paid.workers paid.arrived
    paid.began training.past training.step paid.compute paid.earned

theorem Unplaced.accounts (unplaced : record.Unplaced) (running : record.state.terminal = false)
    (time : SimTimeNs) : record.Accounts time :=
  .idle unplaced.unassigned unplaced.unallocated unplaced.nothing
    (fun succeeded => by rw [succeeded] at running; cases running)
    (fun finished isFinished => by rw [unplaced.unfinished] at isFinished; cases isFinished)

theorem Settled.accounts (settled : record.Settled sim) : record.Accounts sim.now := by
  cases settled with
  | scheduled state unplaced => exact unplaced.accounts (by rw [state]; rfl) _
  | waiting state unplaced => exact unplaced.accounts (by rw [state]; rfl) _
  | training training => exact training.accounts
  | ended _ accounts => exact accounts

/-- The events that the engine may take back are its own. -/
theorem Slots.owned (slots : record.Slots sim) {id : EventId} (member : some id ∈ record.events)
    (positive : 0 < record.eventsPerWorker) : Owned sim id := by
  obtain ⟨position, isPosition⟩ := List.mem_iff_getElem?.mp member
  have bound := (List.getElem?_eq_some_iff.mp isPosition).1
  rw [slots.length] at bound
  -- the position of the event tells its worker and its index
  have isWorker : position / record.eventsPerWorker < record.spec.workers.length :=
    (Nat.div_lt_iff_lt_mul positive).mpr bound
  obtain ⟨duration, entry, _, isEntry, expected, _⟩ := slots.slot _ isWorker
    (position % record.eventsPerWorker) (Nat.mod_lt _ positive)
  rw [Nat.div_add_mod' position record.eventsPerWorker, isPosition] at isEntry
  exact ⟨_, _, rfl, expected id (Option.some.inj isEntry).symm⟩

theorem Stage.owned (stage : record.Stage sim) (accepted : record.Accepted)
    (running : record.state.terminal = false) {id : EventId}
    (member : some id ∈ record.events ∨ record.arrivalEvent = some id) : Owned sim id := by
  have unplaced : record.Unplaced → record.arrivalEvent = none → Owned sim id := by
    intro unplaced announced
    simp [unplaced.events, announced] at member
  cases stage with
  | settled settled =>
    cases settled with
    | scheduled _ unplaced awaited expected =>
      have isId := member.resolve_left (by simp [unplaced.events])
      rw [awaited] at isId
      cases isId
      exact ⟨_, _, rfl, expected⟩
    | waiting _ noGpu announced _ => exact unplaced noGpu announced
    | training training =>
      have isEvent := member.resolve_right (by simp [training.announced])
      exact training.slots.owned isEvent accepted.eventsPerWorker_pos
    | ended terminal => rw [running] at terminal; cases terminal
  | arriving arriving => exact unplaced arriving.unplaced arriving.announced
  | resting resting =>
    rcases member with member | arrival
    · exact absurd member (resting.done id)
    · rw [resting.announced] at arrival; cases arrival

end Stages

/-! ## The counters of a step -/

section Counters

variable {record : Record} {worker bucket : Nat}

theorem slotOf_lt (isBucket : bucket < record.buckets) :
    record.slotOf bucket < record.eventsPerWorker := by
  unfold slotOf eventsPerWorker
  split <;> omega

/-- The slot of the event is counted once more, the others as before. -/
theorem doneIn_set {index slot : Nat} {id : EventId} {events : List (Option EventId)}
    (isWorker : worker < record.spec.workers.length) (isIndex : index < record.eventsPerWorker)
    (isSlot : slot < record.eventsPerWorker)
    (isEvents : events = record.events.set (worker * record.eventsPerWorker + index) none)
    (pending : record.events[worker * record.eventsPerWorker + index]? = some (some id)) :
    { record with events }.doneIn slot =
      if slot = index then record.doneIn slot + 1 else record.doneIn slot := by
  subst isEvents
  have bound := (List.getElem?_eq_some_iff.mp pending).1
  -- only the event of this worker in this slot has changed
  have elsewhere : ∀ other, other * record.eventsPerWorker + slot ≠
      worker * record.eventsPerWorker + index →
      (record.events.set (worker * record.eventsPerWorker + index) none)[
        other * record.eventsPerWorker + slot]? =
      record.events[other * record.eventsPerWorker + slot]? := fun other differs =>
    List.getElem?_set_ne differs.symm
  unfold doneIn
  split
  · rename_i same
    subst same
    -- this worker is counted anew
    refine countP_range_flip (k := worker) ?_ ?_ (fun other differs => ?_) isWorker
    · simp [pending]
    · simp only [decide_eq_true_eq]
      exact List.getElem?_set_self bound
    · have apart : other * record.eventsPerWorker + slot ≠
          worker * record.eventsPerWorker + slot :=
        fun same => differs (position_injective isIndex isIndex same).1
      exact congrArg (fun entry => decide (entry = some none)) (elsewhere other apart)
  · rename_i differs
    refine countP_range_congr fun other _ => ?_
    have apart : other * record.eventsPerWorker + slot ≠
        worker * record.eventsPerWorker + index :=
      fun same => differs (position_injective isSlot isIndex same).2
    exact congrArg (fun entry => decide (entry = some none)) (elsewhere other apart)

/-- Where all workers are through with a slot, every event in it is over. -/
theorem eq_none_of_doneIn {slot : Nat} (all : record.doneIn slot = record.spec.workers.length)
    (isWorker : worker < record.spec.workers.length) :
    record.events[worker * record.eventsPerWorker + slot]? = some none := by
  unfold doneIn at all
  have every := List.countP_eq_length.mp (all.trans List.length_range.symm)
  simpa using every worker (List.mem_range.mpr isWorker)

end Counters

/-! ## From stage to stage -/

section Updates

variable {record : Record} {allocatedAt : SimTimeNs} {sim sim' : Simulation}

/-- The event that the job waits for has come, and so its time. -/
theorem Settled.announced (settled : record.Settled sim) (valid : sim.Valid) {event : Event}
    (current : sim.currentEvent = some event) (awaited : record.arrivalEvent = some event.id) :
    record.announced.Arriving sim := by
  -- only a scheduled job has an arrival to come
  cases settled with
  | scheduled state unplaced isId expected =>
    rw [awaited] at isId
    cases isId
    have asked := expected.current event current rfl
    have time : record.spec.arrival = event.timestamp := (congrArg EventSpec.timestamp asked).symm
    have now := (valid.current event current).2.2
    exact ⟨state, ⟨unplaced.unassigned, unplaced.unallocated, unplaced.nothing, unplaced.unfinished,
      unplaced.step, unplaced.inactive, unplaced.events⟩, rfl, (time.trans now).le⟩
  | waiting _ _ announced => rw [announced] at awaited; cases awaited
  | training training => rw [training.announced] at awaited; cases awaited
  | ended _ _ _ announced => rw [announced] at awaited; cases awaited

theorem Arriving.queued (arriving : record.Arriving sim) : record.queued.Settled sim :=
  let unplaced := arriving.unplaced
  .waiting rfl ⟨unplaced.unassigned, unplaced.unallocated, unplaced.nothing, unplaced.unfinished,
    unplaced.step, unplaced.inactive, unplaced.events⟩ arriving.announced arriving.past

/-- A job that has just been placed has not computed yet. -/
theorem Unplaced.placed (unplaced : record.Unplaced) (running : record.state.terminal = false)
    (announced : record.arrivalEvent = none) (past : record.spec.arrival ≤ sim.now)
    {workers : List Topology.GpuId} (count : workers.length = record.spec.compute.length) :
    (record.placed workers sim.now).Resting sim.now sim where
  paid :=
    { assigned := rfl
      allocated := rfl
      running := running
      unfinished := unplaced.unfinished
      workers := count
      arrived := past
      began := le_rfl
      compute := by simp [Record.placed, unplaced.step, unplaced.nothing]
      earned := by simp [Record.placed, unplaced.step] }
  step := by simp [Record.placed, unplaced.step]
  inactive := unplaced.inactive
  announced := announced
  done := by simp [Record.placed, unplaced.events]

/-- All events of a new step are expected. -/
theorem Resting.stepping (resting : record.Resting allocatedAt sim) (evolves : Evolves sim sim')
    (accepted : record.Accepted) (more : record.step < record.spec.steps)
    {events : List (Option EventId)}
    (filled : (record.stepping sim.now).Filled
      (record.spec.workers.length * record.eventsPerWorker) events sim') :
    { record.stepping sim.now with events }.Training allocatedAt sim' := by
  have expected : ∀ worker < record.spec.workers.length, ∀ index < record.eventsPerWorker,
      ∃ duration id, record.spec.compute[worker]? = some duration ∧
        events[worker * record.eventsPerWorker + index]? = some (some id) ∧
        Expects sim' id ((record.stepping sim.now).computeEvent worker index duration) := by
    intro worker isWorker index isIndex
    obtain ⟨id, duration, isDuration, isEvent, promised⟩ :=
      filled.slot worker index isIndex (position_lt isWorker isIndex)
    exact ⟨duration, id, isDuration, isEvent, promised.expects⟩
  -- nobody is through with anything
  have nothing : ∀ slot < record.eventsPerWorker,
      { record.stepping sim.now with events }.doneIn slot = 0 := by
    intro slot isSlot
    refine List.countP_eq_zero.mpr fun worker isWorker => ?_
    obtain ⟨_, id, _, isEvent, _⟩ := expected worker (List.mem_range.mp isWorker) slot isSlot
    have isEvent' : events[worker * { record.stepping sim.now with events }.eventsPerWorker +
        slot]? = some (some id) := isEvent
    simp [isEvent']
  exact
    { paid := { resting.paid with running := rfl }
      past := evolves.now.ge
      step := more
      slots :=
        { length := filled.length
          slot := fun worker isWorker index isIndex => by
            obtain ⟨duration, id, isDuration, isEvent, expects⟩ :=
              expected worker isWorker index isIndex
            exact ⟨duration, some id, isDuration, isEvent, fun _ same => Option.some.inj same ▸ expects,
              nofun⟩
          ready := by
            refine List.ext_getElem? fun bucket => ?_
            by_cases isBucket : bucket < record.buckets
            · have none := nothing (record.slotOf bucket) (slotOf_lt isBucket)
              simp only [Record.stepping, List.getElem?_replicate, isBucket, if_true,
                List.getElem?_map, List.getElem?_range, Option.map_some]
              exact congrArg some none.symm
            · simp [Record.stepping, isBucket]
          complete := (nothing _ (slotOf_lt (Nat.sub_one_lt accepted.buckets_pos.ne'))).symm }
      bucket := accepted.buckets_pos
      through := nofun
      served := fun isActive => absurd isActive (by simp [Record.stepping, resting.inactive])
      active := .inl rfl
      announced := resting.announced }

/-- What was asked for under the identifier of a pending event is the event that is dispatched. -/
theorem Slots.asked (slots : record.Slots sim) (valid : sim.Valid) {event : Event} {worker index : Nat}
    (current : sim.currentEvent = some event) (isWorker : worker < record.spec.workers.length)
    (isIndex : index < record.eventsPerWorker)
    (pending : record.events[worker * record.eventsPerWorker + index]? = some (some event.id)) :
    ∃ duration, record.spec.compute[worker]? = some duration ∧
      eventSpecification event = record.computeEvent worker index duration ∧
      record.stepStarted + dueAfter duration record.eventsPerWorker index = sim.now := by
  obtain ⟨duration, entry, isDuration, isEntry, expected, _⟩ :=
    slots.slot worker isWorker index isIndex
  rw [pending] at isEntry
  have asked := (expected event.id (Option.some.inj isEntry).symm).current event current rfl
  have time : event.timestamp = record.stepStarted +
      dueAfter duration record.eventsPerWorker index := congrArg EventSpec.timestamp asked
  exact ⟨duration, isDuration, asked, time.symm.trans (valid.current event current).2.2⟩

/-- An event of the step is over. -/
theorem Slots.computed (slots : record.Slots sim) (valid : sim.Valid) {event : Event}
    {worker bucket : Nat} (current : sim.currentEvent = some event)
    (isWorker : worker < record.spec.workers.length) (isBucket : bucket < record.buckets)
    (last : record.spec.overlap = false → bucket = record.buckets - 1)
    (pending : record.events[record.positionOf worker bucket]? = some (some event.id)) :
    (record.computed worker bucket).Slots sim := by
  have isSlot : record.slotOf bucket < record.eventsPerWorker := slotOf_lt isBucket
  -- one slot has one more worker that is through
  have counted : ∀ slot < record.eventsPerWorker, (record.computed worker bucket).doneIn slot =
      if slot = record.slotOf bucket then record.doneIn slot + 1 else record.doneIn slot :=
    fun slot inside => doneIn_set isWorker isSlot inside rfl pending
  refine ⟨?_, fun other isOther index isIndex => ?_, ?_, ?_⟩
  · exact (List.length_set ..).trans slots.length
  · -- the event that is over, or another one
    by_cases same : other * record.eventsPerWorker + index = record.positionOf worker bucket
    · obtain ⟨rfl, rfl⟩ := position_injective isIndex isSlot same
      obtain ⟨duration, isDuration, _, now⟩ := slots.asked valid current isWorker isSlot pending
      exact ⟨duration, none, isDuration,
        List.getElem?_set_self (List.getElem?_eq_some_iff.mp pending).1, nofun, fun _ => now.le⟩
    · obtain ⟨duration, entry, isDuration, isEntry, rest⟩ := slots.slot other isOther index isIndex
      exact ⟨duration, entry, isDuration,
        (List.getElem?_set_ne (fun is => same is.symm)).trans isEntry, rest⟩
  · refine List.ext_getElem? fun other => ?_
    by_cases isOther : other < record.buckets
    · have count := counted (record.slotOf other) (slotOf_lt isOther)
      have before : record.ready[other]? = some (record.doneIn (record.slotOf other)) := by
        rw [slots.ready]
        simp [isOther]
      have goal : (record.computed worker bucket).ready[other]? =
          some ((record.computed worker bucket).doneIn (record.slotOf other)) := by
        rw [count]
        simp only [Record.computed, Record.marked]
        by_cases overlap : record.spec.overlap = true
        · simp only [overlap, if_true, List.getElem?_modify, before, slotOf]
          by_cases same : other = bucket
          · simp [same]
          · simp [same, Ne.symm same]
        · simp [overlap, before, slotOf]
      rw [goal]
      simp [isOther, Record.computed, Record.marked, slotOf]
    · have short : record.ready.length = record.buckets := by rw [slots.ready]; simp
      have outside : (record.computed worker bucket).ready.length = record.buckets := by
        simp only [Record.computed, Record.marked]
        split <;> simp [short]
      rw [List.getElem?_eq_none (by omega), List.getElem?_eq_none (by
        simp only [List.length_map, List.length_range]
        exact not_lt.mp isOther)]
  · have positive : record.buckets - 1 < record.buckets := by omega
    have count := counted (record.slotOf (record.buckets - 1)) (slotOf_lt positive)
    refine Eq.trans ?_ count.symm
    -- without overlap every bucket has the one slot of its worker
    have sameSlot : record.slotOf (record.buckets - 1) = record.slotOf bucket ↔
        bucket = record.buckets - 1 := by
      unfold slotOf
      by_cases overlap : record.spec.overlap = true
      · simp [overlap, eq_comm]
      · simpa [overlap] using last (by simpa using overlap)
    simp only [sameSlot, ← slots.complete]
    rfl

/-- A slot where all workers are through stays so. -/
theorem doneIn_computed {worker bucket slot : Nat} {id : EventId} (isSlot : slot < record.eventsPerWorker)
    (isWorker : worker < record.spec.workers.length) (isBucket : bucket < record.buckets)
    (pending : record.events[record.positionOf worker bucket]? = some (some id))
    (all : record.doneIn slot = record.spec.workers.length) :
    (record.computed worker bucket).doneIn slot = record.spec.workers.length := by
  have counted : (record.computed worker bucket).doneIn slot =
      if slot = record.slotOf bucket then record.doneIn slot + 1 else record.doneIn slot :=
    doneIn_set isWorker (slotOf_lt isBucket) isSlot rfl pending
  rw [counted]
  split
  · rename_i same
    -- then the event would be over already
    have isDone := eq_none_of_doneIn all isWorker
    rw [same] at isDone
    cases isDone.symm.trans pending
  · exact all

theorem Training.computed (training : record.Training allocatedAt sim) (valid : sim.Valid)
    {event : Event} {worker bucket : Nat} (current : sim.currentEvent = some event)
    (isWorker : worker < record.spec.workers.length) (isBucket : bucket < record.buckets)
    (last : record.spec.overlap = false → bucket = record.buckets - 1)
    (pending : record.events[record.positionOf worker bucket]? = some (some event.id)) :
    (record.computed worker bucket).Training allocatedAt sim where
  paid :=
    { training.paid with
      running := by
        simp only [Record.computed]
        split
        · rfl
        · exact training.running }
  past := training.past
  step := training.step
  slots := training.slots.computed valid current isWorker isBucket last pending
  bucket := training.bucket
  through other isOther := by
    have inside := isOther.trans training.bucket
    exact doneIn_computed (slotOf_lt inside) isWorker isBucket pending (training.through other isOther)
  served isActive :=
    doneIn_computed (slotOf_lt training.bucket) isWorker isBucket pending (training.served isActive)
  active := by
    simp only [Record.computed]
    split
    · exact .inr (.inr rfl)
    · exact training.active
  announced := training.announced

/-- The next collective is of a bucket that all workers are through with. -/
theorem Training.joined (training : record.Training allocatedAt sim) (id : CollectiveId)
    (all : record.doneIn (record.slotOf record.completedBuckets) = record.spec.workers.length) :
    (record.joined id).Training allocatedAt sim :=
  { training with
    paid := { training.paid with running := by unfold Record.joined; dsimp only; split <;> rfl }
    slots := ⟨training.slots.length, training.slots.slot, training.slots.ready,
      training.slots.complete⟩
    served := fun _ => all
    active := by unfold Record.joined; dsimp only; split <;> simp }

theorem Training.left (training : record.Training allocatedAt sim) :
    record.left.Training allocatedAt sim :=
  { training with
    paid := { training.paid with }
    slots := ⟨training.slots.length, training.slots.slot, training.slots.ready,
      training.slots.complete⟩
    served := nofun }

theorem Training.advanced (training : record.Training allocatedAt sim)
    (isActive : record.activeCollective.isSome = true)
    (more : record.completedBuckets + 1 < record.buckets) :
    record.advanced.Training allocatedAt sim :=
  { training with
    paid := { training.paid with running := by unfold Record.advanced; dsimp only; split <;> rfl }
    slots := ⟨training.slots.length, training.slots.slot, training.slots.ready,
      training.slots.complete⟩
    bucket := more
    through := fun bucket isBucket => by
      rcases Nat.lt_succ_iff_lt_or_eq.mp isBucket with less | rfl
      · exact training.through bucket less
      · exact training.served isActive
    served := nofun
    active := by unfold Record.advanced; dsimp only; split <;> simp }

/-- After the last bucket every worker has been through the step, and nothing of it is to come. -/
theorem Training.stepped (training : record.Training allocatedAt sim) (accepted : record.Accepted)
    (isActive : record.activeCollective.isSome = true)
    (last : record.completedBuckets + 1 = record.buckets) :
    record.stepped.Resting allocatedAt sim := by
  have all : ∀ bucket < record.buckets,
      record.doneIn (record.slotOf bucket) = record.spec.workers.length := by
    intro bucket isBucket
    rcases Nat.lt_succ_iff_lt_or_eq.mp (last ▸ isBucket) with less | rfl
    · exact training.through bucket less
    · exact training.served isActive
  have lastSlot : record.slotOf (record.buckets - 1) = record.eventsPerWorker - 1 := by
    unfold slotOf eventsPerWorker
    split <;> rfl
  have positive := accepted.eventsPerWorker_pos
  -- every worker has computed for its whole duration
  have worked : record.stepCompute ≤ (sim.now - record.stepStarted) * record.spec.compute.length := by
    have each : ∀ duration ∈ record.spec.compute, duration ≤ sim.now - record.stepStarted := by
      intro duration member
      obtain ⟨worker, isDuration⟩ := List.mem_iff_getElem?.mp member
      have bound := (List.getElem?_eq_some_iff.mp isDuration).1
      rw [← training.paid.workers] at bound
      obtain ⟨known, entry, isKnown, isEntry, _, past⟩ := training.slots.slot worker bound
        (record.eventsPerWorker - 1) (Nat.sub_one_lt positive.ne')
      have done := eq_none_of_doneIn (all (record.buckets - 1)
        (Nat.sub_one_lt accepted.buckets_pos.ne')) bound
      rw [lastSlot, isEntry] at done
      rw [isDuration] at isKnown
      cases isKnown
      have due := past (Option.some.inj done)
      rw [dueAfter_last positive] at due
      exact Nat.le_sub_of_add_le' due
    have sum := List.sum_le_card_nsmul record.spec.compute _ each
    rwa [Nat.nsmul_eq_mul, Nat.mul_comm] at sum
  -- the time since the allocation, up to this step and in it
  have split : (record.stepStarted - allocatedAt) + (sim.now - record.stepStarted) =
      sim.now - allocatedAt := by
    rw [Nat.add_comm]
    exact Nat.sub_add_sub_cancel training.past training.paid.began
  refine ⟨{ training.paid with began := training.paid.began.trans training.past, compute := ?_, earned := ?_ },
    training.step, rfl, training.announced, fun id member => ?_⟩
  · calc record.computeGpuNs + record.stepCompute
      _ = record.step * record.stepCompute + record.stepCompute := by rw [training.paid.compute]
      _ = (record.step + 1) * record.stepCompute := (Nat.succ_mul _ _).symm
  · calc (record.step + 1) * record.stepCompute
      _ = record.step * record.stepCompute + record.stepCompute := Nat.succ_mul _ _
      _ ≤ (record.stepStarted - allocatedAt) * record.spec.compute.length +
          (sim.now - record.stepStarted) * record.spec.compute.length :=
        Nat.add_le_add training.paid.earned worked
      _ = (sim.now - allocatedAt) * record.spec.compute.length := by rw [← split, Nat.add_mul]
  · -- each event lies in a slot where all workers are through
    obtain ⟨position, isPosition⟩ := List.mem_iff_getElem?.mp member
    have isPosition : record.events[position]? = some (some id) := isPosition
    have bound := (List.getElem?_eq_some_iff.mp isPosition).1
    rw [training.slots.length] at bound
    have isWorker : position / record.eventsPerWorker < record.spec.workers.length :=
      (Nat.div_lt_iff_lt_mul positive).mpr bound
    have isSlot := Nat.mod_lt position positive
    have whole : record.doneIn (position % record.eventsPerWorker) = record.spec.workers.length := by
      by_cases overlap : record.spec.overlap = true
      · have slots : record.eventsPerWorker = record.buckets := by simp [eventsPerWorker, overlap]
        have inside := all (position % record.eventsPerWorker) (slots ▸ isSlot)
        simpa [slotOf, overlap] using inside
      · have slots : record.eventsPerWorker = 1 := by simp [eventsPerWorker, overlap]
        have first := all 0 accepted.buckets_pos
        simpa [slotOf, overlap, slots, Nat.mod_one] using first
    have done := eq_none_of_doneIn whole isWorker
    rw [Nat.div_add_mod' position record.eventsPerWorker, isPosition] at done
    cases done

end Updates

/-! ## The end -/

section End

variable {record : Record} {allocatedAt time : SimTimeNs} {sim : Simulation} {state : JobState}
  {reason : String}

/-- An inspection tells the compute. -/
theorem Accounts.compute_of_inspect (accounts : record.Accounts time)
    (fits : record.spec.steps * record.stepCompute ≤ maxU64) {snapshot : JobSnapshot}
    (ok : record.inspect time = .ok snapshot) : snapshot.computeGpuNs = record.computeBy time := by
  unfold inspect at ok
  dsimp only at ok
  split at ok
  · rename_i early
    cases ok
    exact (accounts.account_early early).2.symm
  · rw [accounts.inspectCompute_eq fits, ok_bind] at ok
    obtain ⟨allocated, _, ok⟩ := returned_of_bind ok
    split at ok
    · cases ok
    · cases ok
      rfl

theorem Unplaced.ended (unplaced : record.Unplaced) (unsuccessful : state ≠ .succeeded) {compute : Nat}
    (computed : record.ComputedAtEnd state time compute) :
    (record.ended state reason time compute).Accounts time := by
  unfold ComputedAtEnd at computed
  rw [if_neg (by simp [unplaced.unassigned])] at computed
  refine .idle unplaced.unassigned unplaced.unallocated (computed.trans unplaced.nothing)
    unsuccessful fun finished isFinished => ?_
  cases isFinished
  exact le_rfl

/-- A job that is interrupted is paid for its part of the step. -/
theorem Training.ended (training : record.Training allocatedAt sim) (accepted : record.Accepted)
    (terminal : state.terminal = true) (unsuccessful : state ≠ .succeeded) {compute : Nat}
    (computed : record.ComputedAtEnd state sim.now compute) :
    (record.ended state reason sim.now compute).Accounts sim.now := by
  have paid := training.paid
  unfold ComputedAtEnd at computed
  rw [if_pos ⟨unsuccessful, paid.assigned⟩] at computed
  obtain ⟨snapshot, inspected, rfl⟩ := computed
  have isCompute := training.accounts.compute_of_inspect accepted.total inspected
  have bound := training.accounts.computeBy_le
  simp only [computeBy, allocatedBy, paid.assigned, paid.running, paid.unfinished, paid.allocated,
    paid.workers, paid.compute, Option.getD_none, and_self, if_true] at isCompute bound
  exact .closed paid.allocated terminal rfl paid.workers paid.arrived (paid.began.trans training.past)
    le_rfl (fun succeeded => absurd succeeded unsuccessful)
    (fun _ => ⟨training.past, isCompute⟩) (isCompute.le.trans bound)

/-- A job that succeeds has computed all its steps. -/
theorem Resting.ended (resting : record.Resting allocatedAt sim)
    (all : record.step = record.spec.steps) {compute : Nat}
    (computed : record.ComputedAtEnd .succeeded sim.now compute) :
    (record.ended .succeeded reason sim.now compute).Accounts sim.now := by
  have paid := resting.paid
  unfold ComputedAtEnd at computed
  rw [if_neg (by simp)] at computed
  subst computed
  refine .closed paid.allocated rfl rfl paid.workers paid.arrived paid.began le_rfl (fun _ => ?_)
    (fun unsuccessful => absurd rfl unsuccessful) (paid.compute.le.trans paid.earned)
  exact paid.compute.trans (congrArg (· * record.stepCompute) all)

/-- Every way to end. -/
theorem Stage.ended (stage : record.Stage sim) (accepted : record.Accepted)
    (alive : record.state.terminal = false) (terminal : state.terminal = true)
    (success : state = .succeeded → record.step = record.spec.steps)
    (interrupted : state ≠ .succeeded → record.Settled sim ∨ record.Arriving sim) {compute : Nat}
    (computed : record.ComputedAtEnd state sim.now compute) :
    (record.ended state reason sim.now compute).Settled sim := by
  refine .ended terminal ?_ rfl rfl
  by_cases succeeded : state = .succeeded
  · subst succeeded
    have all := success rfl
    have some_ := accepted.steps_pos
    -- no other stage has gone through all its steps
    cases stage with
    | settled settled =>
      cases settled with
      | scheduled _ unplaced => rw [unplaced.step] at all; omega
      | waiting _ unplaced => rw [unplaced.step] at all; omega
      | training training => exact absurd all training.step.ne
      | ended ended => rw [alive] at ended; cases ended
    | arriving arriving => rw [arriving.unplaced.step] at all; omega
    | resting resting => exact resting.ended all computed
  · rcases interrupted succeeded with settled | arriving
    · cases settled with
      | scheduled _ unplaced => exact unplaced.ended succeeded computed
      | waiting _ unplaced => exact unplaced.ended succeeded computed
      | training training => exact training.ended accepted terminal succeeded computed
      | ended ended => rw [alive] at ended; cases ended
    · exact arriving.unplaced.ended succeeded computed

theorem Accounts.left (accounts : record.Accounts time) : record.left.Accounts time := by
  cases accounts with
  | idle unassigned unallocated nothing unsuccessful past =>
    exact .idle unassigned unallocated nothing unsuccessful past
  | underway assigned allocated running unfinished workers arrived began past step compute earned =>
    exact .underway assigned allocated running unfinished workers arrived began past step compute
      earned
  | closed allocated ended isFinished workers arrived began past success interrupted earned =>
    exact .closed allocated ended isFinished workers arrived began past success interrupted earned

end End

end Record

end NexusLab.Workload
