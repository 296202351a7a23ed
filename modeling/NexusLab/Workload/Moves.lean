import NexusLab.Scheduling.Inventory
import NexusLab.Workload.Stages

/-! # The moves of the engine

Every call of the engine is a sequence of moves: each takes one job a step further, or leaves the jobs
alone.  A move says exactly what becomes of the books, of the reports about the job and of the
simulation, and under which condition the engine makes it; so what all moves keep holds in every run. -/

namespace NexusLab.Workload

open Foundation Sim Telemetry Collective Scheduling

/-! ## Desks -/

/-- The books of the engine, with the simulation and the ledger of the telemetry. -/
structure Desk where
  engine : WorkloadEngine
  sim : Simulation
  ledger : Ledger

def CollectiveExecutor.desk {X : Type} (executor : CollectiveExecutor X) (w : Working X) : Desk :=
  ⟨w.engine, executor.sim w, executor.ledger w⟩

/-- The reports about a job, one after the other, each with whether a collective was running. -/
def Reported (job : JobId) (time : SimTimeNs) : List (JobTransition × Bool) → Ledger → Ledger → Prop
  | [], l, l' => l' = l
  | (transition, active) :: rest, l, l' =>
    ∃ m, l.Recorded job time transition active m ∧ Reported job time rest m l'

theorem Reported.nil {job : JobId} {time : SimTimeNs} {l : Ledger} : Reported job time [] l l := rfl

theorem Reported.one {job : JobId} {time : SimTimeNs} {transition : JobTransition} {active : Bool}
    {l l' : Ledger} (recorded : l.Recorded job time transition active l') :
    Reported job time [(transition, active)] l l' := ⟨l', recorded, rfl⟩

theorem Reported.append {job : JobId} {time : SimTimeNs} : ∀ {first second : List (JobTransition × Bool)}
    {l l' l'' : Ledger}, Reported job time first l l' → Reported job time second l' l'' →
      Reported job time (first ++ second) l l''
  | [], _, _, _, _, rfl, second => second
  | _ :: _, _, _, _, _, ⟨m, recorded, rest⟩, second => ⟨m, recorded, rest.append second⟩

/-- The record of one job, the rest of the books and the ledger have changed. -/
structure Shift (job : JobId) (record record' : Record) (f : WorkloadEngine → WorkloadEngine)
    (reports : List (JobTransition × Bool)) (d d' : Desk) : Prop where
  found : d.engine.jobs.find? job = some record
  engine_eq : d'.engine = { f d.engine with jobs := d.engine.jobs.insert job record' }
  evolves : Evolves d.sim d'.sim
  reported : Reported record.id d.sim.now reports d.ledger d'.ledger

namespace WorkloadEngine

/-- The GPUs are the job's. -/
def assigning (engine : WorkloadEngine) (job : JobId) (workers : List Topology.GpuId) :
    WorkloadEngine :=
  { engine with
    assignments := workers.foldl (fun assignments gpu => assignments.emplace gpu job)
      engine.assignments }

def decided (engine : WorkloadEngine) (decision : PlacementDecision) : WorkloadEngine :=
  { engine with placements := engine.placements ++ [decision] }

def allocating (engine : WorkloadEngine) (inventory : ResourceInventory)
    (workers : List Topology.GpuId) : WorkloadEngine :=
  { engine with
    inventory := some inventory
    allocationEntries := engine.allocationEntries + workers.length }

def joining (engine : WorkloadEngine) (id : CollectiveId) (job : JobId) : WorkloadEngine :=
  { engine with collectives := engine.collectives.insert id job }

def hearing (engine : WorkloadEngine) (id : CollectiveId) : WorkloadEngine :=
  { engine with collectives := engine.collectives.erase id }

/-- What the last worker of a step leaves in the timeline. -/
def through (engine : WorkloadEngine) (record : Record) (time : SimTimeNs) : WorkloadEngine :=
  if record.computeComplete = record.spec.workers.length then
    engine.traced record time "step_compute_finished"
  else engine

end WorkloadEngine

/-- What a worker that is through with a bucket reports. -/
def Record.reports (record : Record) (bucket : Nat) : List (JobTransition × Bool) :=
  (if bucket = record.buckets - 1 ∧ record.computeComplete = 1 ∧ record.spec.workers.length > 1
    then [(.stragglerStarted, record.activeCollective.isSome)] else []) ++
  (if record.computeComplete = record.spec.workers.length
    then [(.computeCompleted, record.activeCollective.isSome)] else [])

/-! ## Moves -/

/-- A move of a job. -/
inductive Move (job : JobId) (d d' : Desk) : Prop where
  | announced {record : Record} {event : Event} (settled : record.Settled d.sim)
    (current : d.sim.currentEvent = some event) (awaited : record.arrivalEvent = some event.id)
    (shift : Shift job record record.announced (fun engine => engine)
      [(.arrived, record.activeCollective.isSome)] d d')
  | queued {record : Record} (arriving : record.Arriving d.sim)
    (scheduler : d.engine.inventory.isSome = true)
    (shift : Shift job record record.queued
      (fun engine => { engine.traced record.queued d.sim.now "job_waiting" with
        admissionPending := true })
      [(.waiting, record.activeCollective.isSome)] d d')
  | pinned {record : Record} (arriving : record.Arriving d.sim)
    (alone : d.engine.inventory = none)
    (free : ∀ gpu ∈ record.spec.workers, d.engine.assignments.find? gpu = none)
    (shift : Shift job record (record.placed record.spec.workers d.sim.now)
      (fun engine => engine.assigning job record.spec.workers)
      [(.admitted, record.activeCollective.isSome)] d d')
  | placed {record : Record} {inventory inventory' : ResourceInventory}
    {workers : List Topology.GpuId} {decision : PlacementDecision} {reason : String}
    (settled : record.Settled d.sim) (waiting : record.state = .waiting)
    (isInventory : d.engine.inventory = some inventory)
    (allocated : inventory.allocate job workers = .ok inventory')
    (count : workers.length = record.spec.compute.length)
    (shift : Shift job record ({ record with reason }.placed workers d.sim.now)
      (fun engine => (((engine.allocating inventory' workers).decided decision).assigning job
        workers).traced ({ record with reason }.placed workers d.sim.now) d.sim.now "job_allocated")
      [(.admitted, record.activeCollective.isSome)] d d')
  | declined {record : Record} {decision : PlacementDecision} {reason : String}
    (settled : record.Settled d.sim) (waiting : record.state = .waiting)
    (shift : Shift job record { record with reason } (fun engine => engine.decided decision) [] d d')
  | began {record : Record} {allocatedAt : SimTimeNs} {events : List (Option EventId)}
    (resting : record.Resting allocatedAt d.sim) (more : record.step < record.spec.steps)
    (filled : (record.stepping d.sim.now).Filled
      (record.spec.workers.length * record.eventsPerWorker) events d'.sim)
    (shift : Shift job record { record.stepping d.sim.now with events }
      (fun engine => engine.traced { record.stepping d.sim.now with events } d.sim.now
        "step_compute_started")
      [(.computeStarted, record.activeCollective.isSome)] d d')
  | computed {record : Record} {allocatedAt : SimTimeNs} {event : Event} {worker bucket : Nat}
    (training : record.Training allocatedAt d.sim) (current : d.sim.currentEvent = some event)
    (isWorker : worker < record.spec.workers.length) (isBucket : bucket < record.buckets)
    (last : record.spec.overlap = false → bucket = record.buckets - 1)
    (pending : record.events[record.positionOf worker bucket]? = some (some event.id))
    (shift : Shift job record (record.computed worker bucket)
      (fun engine => engine.through (record.computed worker bucket) d.sim.now)
      ((record.computed worker bucket).reports bucket) d d')
  | joined {record : Record} {allocatedAt : SimTimeNs} {id : CollectiveId}
    (training : record.Training allocatedAt d.sim) (inactive : record.activeCollective = none)
    (all : record.doneIn (record.slotOf record.completedBuckets) = record.spec.workers.length)
    (fresh : d.engine.collectives.find? id = none)
    (shift : Shift job record (record.joined id)
      (fun engine => (engine.joining id job).traced (record.joined id) d.sim.now
        "bucket_collective_started") [(.collectiveStarted, true)] d d')
  | outlived {record : Record} {id : CollectiveId} (settled : record.Settled d.sim)
    (terminal : record.state.terminal = true)
    (owner : d.engine.collectives.find? id = some job)
    (shift : Shift job record record.left (fun engine => engine.hearing id) [] d d')
  | failed {record : Record} {allocatedAt : SimTimeNs} {id : CollectiveId}
    (training : record.Training allocatedAt d.sim)
    (owner : d.engine.collectives.find? id = some job)
    (shift : Shift job record record.left (fun engine => engine.hearing id)
      [(.collectiveCompleted, record.activeCollective.isSome)] d d')
  | advanced {record : Record} {allocatedAt : SimTimeNs} {id : CollectiveId}
    (training : record.Training allocatedAt d.sim)
    (owner : d.engine.collectives.find? id = some job)
    (more : record.completedBuckets + 1 < record.buckets)
    (shift : Shift job record record.advanced
      (fun engine => (engine.hearing id).traced record d.sim.now "bucket_collective_completed")
      [(.collectiveCompleted, record.activeCollective.isSome)] d d')
  | stepped {record : Record} {allocatedAt : SimTimeNs} {id : CollectiveId}
    (training : record.Training allocatedAt d.sim)
    (owner : d.engine.collectives.find? id = some job)
    (last : record.completedBuckets + 1 = record.buckets)
    (shift : Shift job record record.stepped
      (fun engine => (engine.hearing id).traced record d.sim.now "bucket_collective_completed")
      [(.collectiveCompleted, record.activeCollective.isSome), (.stepCompleted, false)] d d')
  | ended {record : Record} {state : JobState} {reason : String} {compute : Nat}
    {snapshot : JobSnapshot} (stage : record.Stage d.sim) (alive : record.state.terminal = false)
    (terminal : state.terminal = true)
    (success : state = .succeeded → record.step = record.spec.steps)
    (interrupted : state ≠ .succeeded → record.Settled d.sim ∨ record.Arriving d.sim)
    (computed : record.ComputedAtEnd state d.sim.now compute)
    (inspected : (record.ended state reason d.sim.now compute).inspect d.sim.now = .ok snapshot)
    (shift : Shift job record (record.ended state reason d.sim.now compute)
      (fun engine => { (engine.released record).traced
          (record.ended state reason d.sim.now compute) d.sim.now "job_terminal" with
        completed := engine.completed ++ [snapshot] })
      [(WorkloadEngine.terminalTransition state, record.activeCollective.isSome)] d d')

namespace Shift

variable {job : JobId} {record record' : Record} {f : WorkloadEngine → WorkloadEngine}
  {reports : List (JobTransition × Bool)} {d d' : Desk}

theorem jobs_eq (shift : Shift job record record' f reports d d') :
    d'.engine.jobs = d.engine.jobs.insert job record' := by rw [shift.engine_eq]

theorem assignments_eq (shift : Shift job record record' f reports d d') :
    d'.engine.assignments = (f d.engine).assignments := by rw [shift.engine_eq]

theorem inventory_eq (shift : Shift job record record' f reports d d') :
    d'.engine.inventory = (f d.engine).inventory := by rw [shift.engine_eq]

theorem find?_self (shift : Shift job record record' f reports d d') :
    d'.engine.jobs.find? job = some record' := by
  rw [shift.jobs_eq]
  exact OrderedMap.find?_insert_self _ _ _

theorem find?_of_ne (shift : Shift job record record' f reports d d') {other : JobId}
    (differs : other ≠ job) : d'.engine.jobs.find? other = d.engine.jobs.find? other := by
  rw [shift.jobs_eq]
  exact OrderedMap.find?_insert_of_ne _ _ differs

theorem now (shift : Shift job record record' f reports d d') : d'.sim.now = d.sim.now :=
  shift.evolves.now

/-- The record is the one that has changed, or another one that has not. -/
theorem cases_find? (shift : Shift job record record' f reports d d') {other : JobId} {r : Record}
    (isRecord : d'.engine.jobs.find? other = some r) :
    other = job ∧ r = record' ∨ other ≠ job ∧ d.engine.jobs.find? other = some r := by
  -- only the record of the job has been replaced
  by_cases same : other = job
  · subst same
    rw [shift.find?_self] at isRecord
    exact .inl ⟨rfl, (Option.some.inj isRecord).symm⟩
  · rw [shift.find?_of_ne same] at isRecord
    exact .inr ⟨same, isRecord⟩

end Shift

/-- Every move is about the record of its job. -/
theorem Move.shift {job : JobId} {d d' : Desk} (move : Move job d d') :
    ∃ record record' f reports, Shift job record record' f reports d d' := by
  cases move <;> exact ⟨_, _, _, _, ‹_›⟩

/-- The other jobs stay as they are. -/
theorem Move.elsewhere {job other : JobId} {d d' : Desk} (move : Move job d d')
    (differs : other ≠ job) : d'.engine.jobs.find? other = d.engine.jobs.find? other := by
  obtain ⟨_, _, _, _, shift⟩ := move.shift
  exact shift.find?_of_ne differs

/-! ## What all moves keep -/

/-- The books are in order: every job is at some stage, and the engine knows whose collective it hears
of. -/
structure Sound (d : Desk) : Prop where
  valid : d.sim.Valid
  word : d.sim.now ≤ maxU64
  named : ∀ {job record}, d.engine.jobs.find? job = some record → record.id = job
  measured : ∀ {job record}, d.engine.jobs.find? job = some record → record.Measured
  accepted : ∀ {job record}, d.engine.jobs.find? job = some record → record.Accepted
  staged : ∀ {job record}, d.engine.jobs.find? job = some record → record.Stage d.sim
  sized : ∀ {job record}, d.engine.jobs.find? job = some record → record.assigned = false →
    d.engine.inventory = none → record.spec.workers.length = record.spec.compute.length
  owners : ∀ id job, d.engine.collectives.find? id = some job ↔
    ∃ record, d.engine.jobs.find? job = some record ∧ record.activeCollective = some id

namespace Sound

variable {job : JobId} {record record' : Record} {f : WorkloadEngine → WorkloadEngine}
  {reports : List (JobTransition × Bool)} {d d' : Desk} {id : CollectiveId}

/-- What a record keeps through all moves. -/
structure Keeping (record record' : Record) : Prop where
  id : record'.id = record.id
  steps : record'.spec.steps = record.spec.steps
  compute : record'.spec.compute = record.spec.compute
  gradientBytes : record'.spec.gradientBytes = record.spec.gradientBytes
  bucketBytes : record'.spec.bucketBytes = record.spec.bucketBytes
  buckets : record'.buckets = record.buckets
  sized : record'.assigned = false →
    record.assigned = false ∧ record'.spec.workers = record.spec.workers

theorem Keeping.of_eq (id : record'.id = record.id) (spec : record'.spec = record.spec)
    (buckets : record'.buckets = record.buckets) (assigned : record'.assigned = record.assigned) :
    Keeping record record' :=
  ⟨id, by rw [spec], by rw [spec], by rw [spec], by rw [spec], buckets,
    fun unassigned => ⟨assigned ▸ unassigned, by rw [spec]⟩⟩

theorem Keeping.accepted (keeping : Keeping record record') (accepted : record.Accepted) :
    record'.Accepted where
  steps_pos := keeping.steps ▸ accepted.steps_pos
  durations := keeping.compute ▸ accepted.durations
  buckets_pos := keeping.buckets ▸ accepted.buckets_pos
  buckets_word := keeping.buckets ▸ accepted.buckets_word
  total := by
    have total := accepted.total
    unfold Record.stepCompute at total ⊢
    rwa [keeping.steps, keeping.compute]

theorem Keeping.measured (keeping : Keeping record record') (measured : record.Measured) :
    record'.Measured where
  crew := keeping.compute ▸ measured.crew
  bucket := keeping.bucketBytes ▸ measured.bucket
  covers := by
    rw [keeping.buckets, keeping.bucketBytes, keeping.gradientBytes]
    exact measured.covers
  exhausts := by
    rw [keeping.buckets, keeping.bucketBytes, keeping.gradientBytes]
    exact measured.exhausts
  word := keeping.gradientBytes ▸ measured.word

/-- One record has gone to another stage. -/
theorem shifted (sound : Sound d) (shift : Shift job record record' f reports d d')
    (keeping : Keeping record record')
    (inventory : (f d.engine).inventory = none → d.engine.inventory = none)
    (owners : ∀ id owner, (f d.engine).collectives.find? id = some owner ↔
      ∃ r, d'.engine.jobs.find? owner = some r ∧ r.activeCollective = some id)
    (stage : record'.Stage d'.sim) : Sound d' where
  valid := shift.evolves.valid sound.valid
  word := shift.now.le.trans sound.word
  measured isRecord := by
    rcases shift.cases_find? isRecord with ⟨rfl, rfl⟩ | ⟨_, old⟩
    · exact keeping.measured (sound.measured shift.found)
    · exact sound.measured old
  named isRecord := by
    rcases shift.cases_find? isRecord with ⟨rfl, rfl⟩ | ⟨_, old⟩
    · exact keeping.id.trans (sound.named shift.found)
    · exact sound.named old
  accepted isRecord := by
    rcases shift.cases_find? isRecord with ⟨rfl, rfl⟩ | ⟨_, old⟩
    · exact keeping.accepted (sound.accepted shift.found)
    · exact sound.accepted old
  staged isRecord := by
    rcases shift.cases_find? isRecord with ⟨rfl, rfl⟩ | ⟨_, old⟩
    · exact stage
    · exact (sound.staged old).onward (.of_evolves sound.valid shift.evolves)
  sized isRecord unassigned alone := by
    rw [shift.inventory_eq] at alone
    rcases shift.cases_find? isRecord with ⟨rfl, rfl⟩ | ⟨_, old⟩
    · obtain ⟨before, workers⟩ := keeping.sized unassigned
      rw [workers, keeping.compute]
      exact sound.sized shift.found before (inventory alone)
    · exact sound.sized old unassigned (inventory alone)
  owners id owner := by
    rw [← owners, shift.engine_eq]

/-- The move is about no collective. -/
theorem owners_same (sound : Sound d) (shift : Shift job record record' f reports d d')
    (collectives : (f d.engine).collectives = d.engine.collectives)
    (active : record'.activeCollective = record.activeCollective) (id : CollectiveId)
    (owner : JobId) : (f d.engine).collectives.find? id = some owner ↔
      ∃ r, d'.engine.jobs.find? owner = some r ∧ r.activeCollective = some id := by
  rw [collectives, sound.owners]
  by_cases same : owner = job
  · subst same
    simp [shift.find?_self, shift.found, active]
  · rw [shift.find?_of_ne same]

/-- The job has a collective now. -/
theorem owners_joined (sound : Sound d) (shift : Shift job record record' f reports d d')
    (collectives : (f d.engine).collectives = d.engine.collectives.insert id job)
    (inactive : record.activeCollective = none) (active : record'.activeCollective = some id)
    (fresh : d.engine.collectives.find? id = none) (other : CollectiveId) (owner : JobId) :
    (f d.engine).collectives.find? other = some owner ↔
      ∃ r, d'.engine.jobs.find? owner = some r ∧ r.activeCollective = some other := by
  -- a collective that nobody owned was nobody's active one
  have unowned : ∀ owner r, d.engine.jobs.find? owner = some r → r.activeCollective ≠ some id := by
    intro owner r isRecord isActive
    have owned := (sound.owners id owner).mpr ⟨r, isRecord, isActive⟩
    rw [fresh] at owned
    cases owned
  rw [collectives, OrderedMap.find?_insert]
  by_cases same : owner = job
  · subst same
    simp only [shift.find?_self, Option.some.injEq, exists_eq_left', active]
    by_cases isOther : other = id
    · simp [isOther]
    · rw [if_neg isOther, sound.owners]
      simp [shift.found, inactive, Ne.symm isOther]
  · rw [shift.find?_of_ne same]
    by_cases isOther : other = id
    · subst isOther
      rw [if_pos rfl]
      constructor
      · exact fun isOwner => absurd (Option.some.inj isOwner).symm same
      · rintro ⟨r, isRecord, isActive⟩
        exact absurd isActive (unowned owner r isRecord)
    · rw [if_neg isOther, sound.owners]

/-- The engine has heard of the collective of the job. -/
theorem owners_heard (sound : Sound d) (shift : Shift job record record' f reports d d')
    (collectives : (f d.engine).collectives = d.engine.collectives.erase id)
    (owned : d.engine.collectives.find? id = some job) (inactive : record'.activeCollective = none)
    (other : CollectiveId) (owner : JobId) :
    (f d.engine).collectives.find? other = some owner ↔
      ∃ r, d'.engine.jobs.find? owner = some r ∧ r.activeCollective = some other := by
  obtain ⟨known, isKnown, active⟩ := (sound.owners id job).mp owned
  rw [shift.found] at isKnown
  cases isKnown
  rw [collectives, OrderedMap.find?_erase]
  by_cases same : owner = job
  · subst same
    simp only [shift.find?_self, Option.some.injEq, exists_eq_left', inactive]
    by_cases isOther : other = id
    · simp [isOther]
    · rw [if_neg isOther, sound.owners]
      simp [shift.found, active, Ne.symm isOther]
  · rw [shift.find?_of_ne same]
    by_cases isOther : other = id
    · subst isOther
      rw [if_pos rfl, ← sound.owners, owned]
      simp [Ne.symm same]
    · rw [if_neg isOther, sound.owners]

/-- The job of a collective is waiting for it. -/
theorem active_of_owner (sound : Sound d) (found : d.engine.jobs.find? job = some record)
    (owned : d.engine.collectives.find? id = some job) : record.activeCollective = some id := by
  obtain ⟨known, isKnown, active⟩ := (sound.owners id job).mp owned
  rw [found] at isKnown
  cases isKnown
  exact active

/-- A move that leaves the collectives and the inventory alone. -/
theorem moved (sound : Sound d) (shift : Shift job record record' f reports d d')
    (keeping : Keeping record record')
    (apart : (f d.engine).collectives = d.engine.collectives ∧
      ((f d.engine).inventory = none → d.engine.inventory = none))
    (active : record'.activeCollective = record.activeCollective)
    (stage : record'.Stage d.sim) : Sound d' :=
  sound.shifted shift keeping apart.2 (sound.owners_same shift apart.1 active)
    (stage.onward (.of_evolves sound.valid shift.evolves))

/-- A move by which the engine hears of a collective. -/
theorem heard (sound : Sound d) (shift : Shift job record record' f reports d d')
    (keeping : Keeping record record')
    (apart : (f d.engine).collectives = d.engine.collectives.erase id ∧
      (f d.engine).inventory = d.engine.inventory)
    (owned : d.engine.collectives.find? id = some job) (inactive : record'.activeCollective = none)
    (stage : record'.Stage d.sim) : Sound d' :=
  sound.shifted shift keeping (fun alone => apart.2 ▸ alone)
    (sound.owners_heard shift apart.1 owned inactive)
    (stage.onward (.of_evolves sound.valid shift.evolves))

end Sound

/-- What the timeline has nothing to do with. -/
theorem WorkloadEngine.through_elsewhere {α : Type} (engine : WorkloadEngine) (record : Record)
    (time : SimTimeNs) {g : WorkloadEngine → α}
    (apart : ∀ engine timeline, g { engine with timeline } = g engine) :
    g (engine.through record time) = g engine := by
  unfold WorkloadEngine.through
  split
  · exact apart _ _
  · rfl

theorem WorkloadEngine.through_apart (engine : WorkloadEngine) (record : Record) (time : SimTimeNs) :
    (engine.through record time).collectives = engine.collectives ∧
      (engine.through record time).inventory = engine.inventory :=
  ⟨engine.through_elsewhere record time fun _ _ => rfl,
    engine.through_elsewhere record time fun _ _ => rfl⟩

/-- A waiting job is not placed, and has arrived. -/
theorem Record.Settled.of_waiting {record : Record} {sim : Simulation} (settled : record.Settled sim)
    (waiting : record.state = .waiting) : record.Unplaced ∧ record.arrivalEvent = none ∧
      record.spec.arrival ≤ sim.now := by
  cases settled with
  | scheduled state => rw [waiting] at state; cases state
  | waiting _ unplaced announced past => exact ⟨unplaced, announced, past⟩
  | training training =>
    have active := training.active
    simp [waiting] at active
  | ended terminal => rw [waiting] at terminal; cases terminal

theorem Record.Unplaced.reasoned {record : Record} (unplaced : record.Unplaced) (reason : String) :
    { record with reason }.Unplaced :=
  ⟨unplaced.unassigned, unplaced.unallocated, unplaced.nothing, unplaced.unfinished, unplaced.step,
    unplaced.inactive, unplaced.events⟩

/-- Every move keeps the books in order. -/
theorem Move.sound {job : JobId} {d d' : Desk} (move : Move job d d') (sound : Sound d) :
    Sound d' := by
  have valid := sound.valid
  cases move with
  | announced settled current awaited shift =>
    exact sound.moved shift (.of_eq rfl rfl rfl rfl) ⟨rfl, fun alone => alone⟩ rfl
      (.arriving (settled.announced valid current awaited))
  | queued arriving scheduler shift =>
    exact sound.moved shift (.of_eq rfl rfl rfl rfl) ⟨rfl, fun alone => alone⟩ rfl
      (.settled arriving.queued)
  | pinned arriving alone free shift =>
    have unplaced := arriving.unplaced
    have count := sound.sized shift.found unplaced.unassigned alone
    exact sound.moved shift ⟨rfl, rfl, rfl, rfl, rfl, rfl, nofun⟩ ⟨rfl, fun alone => alone⟩ rfl
      (.resting (unplaced.placed (by rw [arriving.state]; rfl) arriving.announced arriving.past count))
  | @placed record inventory inventory' workers decision reason settled waiting isInventory allocated
      count shift =>
    obtain ⟨unplaced, announced, past⟩ := settled.of_waiting waiting
    have running : { record with reason }.state.terminal = false := by
      show record.state.terminal = false
      rw [waiting]
      rfl
    exact sound.moved shift ⟨rfl, rfl, rfl, rfl, rfl, rfl, nofun⟩ ⟨rfl, nofun⟩ rfl
      (.resting ((unplaced.reasoned reason).placed running announced past count))
  | declined settled waiting shift =>
    obtain ⟨unplaced, announced, past⟩ := settled.of_waiting waiting
    exact sound.moved shift (.of_eq rfl rfl rfl rfl) ⟨rfl, fun alone => alone⟩ rfl
      (.settled (.waiting waiting (unplaced.reasoned _) announced past))
  | @began record allocatedAt events resting more filled shift =>
    -- the events of the step are expected only once they have been asked for
    have training := resting.stepping shift.evolves (sound.accepted shift.found) more filled
    exact sound.shifted shift (.of_eq rfl rfl rfl rfl) (fun alone => alone)
      (sound.owners_same shift rfl rfl) (.settled (.training training))
  | @computed record allocatedAt event worker bucket training current isWorker isBucket last pending
      shift =>
    have apart := d.engine.through_apart (record.computed worker bucket) d.sim.now
    exact sound.moved shift (.of_eq rfl rfl rfl rfl) ⟨apart.1, fun alone => apart.2 ▸ alone⟩ rfl
      (.settled (.training (training.computed valid current isWorker isBucket last pending)))
  | @joined record allocatedAt id training inactive all fresh shift =>
    exact sound.shifted shift (.of_eq rfl rfl rfl rfl) (fun alone => alone)
      (sound.owners_joined shift rfl inactive rfl fresh)
      (Record.Stage.onward (.settled (.training (training.joined id all)))
        (.of_evolves valid shift.evolves))
  | outlived settled terminal owner shift =>
    have accounts := settled.accounts
    cases settled with
    | scheduled state => rw [state] at terminal; cases terminal
    | waiting state => rw [state] at terminal; cases terminal
    | training training => rw [training.running] at terminal; cases terminal
    | ended _ _ isFinished announced =>
      exact sound.heard shift (.of_eq rfl rfl rfl rfl) ⟨rfl, rfl⟩ owner rfl
        (.settled (.ended terminal accounts.left isFinished announced))
  | failed training owner shift =>
    exact sound.heard shift (.of_eq rfl rfl rfl rfl) ⟨rfl, rfl⟩ owner rfl
      (.settled (.training training.left))
  | advanced training owner more shift =>
    have active := sound.active_of_owner shift.found owner
    exact sound.heard shift (.of_eq rfl rfl rfl rfl) ⟨rfl, rfl⟩ owner rfl
      (.settled (.training (training.advanced (by rw [active]; rfl) more)))
  | stepped training owner last shift =>
    have active := sound.active_of_owner shift.found owner
    exact sound.heard shift (.of_eq rfl rfl rfl rfl) ⟨rfl, rfl⟩ owner rfl
      (.resting (training.stepped (sound.accepted shift.found) (by rw [active]; rfl) last))
  | @ended record state reason compute snapshot stage alive terminal success interrupted computed
      inspected shift =>
    have settled : (record.ended state reason d.sim.now compute).Settled d.sim :=
      stage.ended (sound.accepted shift.found) alive terminal success interrupted computed
    refine sound.moved shift (.of_eq rfl rfl rfl rfl) ⟨rfl, fun alone => ?_⟩ rfl (.settled settled)
    exact Option.map_eq_none_iff.mp alone

end NexusLab.Workload
