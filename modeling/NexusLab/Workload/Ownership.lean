import NexusLab.Workload.Moves

/-! # Who has which GPU

Ownership is kept in three places: in the record of a job, in the assignments of the engine and, with
a scheduler, in its inventory.  All three say the same after every move. -/

namespace NexusLab.Workload

open Foundation Sim Collective Scheduling NexusLab.Topology

/-! ## Assignments -/

theorem find?_foldl_emplace {job : JobId} (gpu : GpuId) : ∀ (workers : List GpuId)
    (assignments : OrderedMap GpuId JobId), (∀ worker ∈ workers, assignments.find? worker = none ∨
      assignments.find? worker = some job) →
    (workers.foldl (fun assignments worker => assignments.emplace worker job) assignments).find? gpu =
      if gpu ∈ workers then some job else assignments.find? gpu
  | [], assignments, _ => by simp
  | worker :: workers, assignments, free => by
    obtain ⟨here, others⟩ := List.forall_mem_cons.mp free
    -- whether the worker was free or the job's already, it is the job's now
    have emplaced : ∀ other, (assignments.emplace worker job).find? other =
        if other = worker then some job else assignments.find? other := by
      intro other
      rcases here with none | own
      · rw [OrderedMap.emplace_of_fresh none, OrderedMap.find?_insert]
      · have known : assignments.contains worker = true := OrderedMap.contains_iff.mpr ⟨job, own⟩
        simp only [OrderedMap.emplace, known, if_true]
        by_cases same : other = worker
        · simp [same, own]
        · simp [same]
    rw [List.foldl_cons, find?_foldl_emplace gpu workers _ fun other member => ?_, emplaced]
    · by_cases isWorker : gpu = worker <;> by_cases later : gpu ∈ workers <;> simp [isWorker, later]
    · rw [emplaced]
      split
      · exact .inr rfl
      · exact others other member

theorem find?_foldl_erase (gpu : GpuId) : ∀ (workers : List GpuId)
    (assignments : OrderedMap GpuId JobId), (workers.foldl OrderedMap.erase assignments).find? gpu =
      if gpu ∈ workers then none else assignments.find? gpu
  | [], assignments => by simp
  | worker :: workers, assignments => by
    rw [List.foldl_cons, find?_foldl_erase gpu workers, OrderedMap.find?_erase]
    by_cases isWorker : gpu = worker <;> by_cases later : gpu ∈ workers <;> simp [isWorker, later]

/-! ## The invariant -/

/-- The job has the GPU, as its record has it. -/
def Record.Holds (record : Record) (gpu : GpuId) : Prop :=
  record.assigned = true ∧ record.state.terminal = false ∧ gpu ∈ record.spec.workers

def WorkloadEngine.Holds (engine : WorkloadEngine) (job : JobId) (gpu : GpuId) : Prop :=
  ∃ record, engine.jobs.find? job = some record ∧ record.Holds gpu

/-- The three places agree. -/
structure Exclusive (engine : WorkloadEngine) : Prop where
  assignments : ∀ gpu job, engine.assignments.find? gpu = some job ↔ engine.Holds job gpu
  ordered : ∀ inventory, engine.inventory = some inventory → Ordered inventory.gpus
  owners : ∀ inventory, engine.inventory = some inventory → ∀ gpu job,
    (∃ r ∈ inventory.gpus, r.gpu = gpu ∧ r.owner = some job) ↔ engine.Holds job gpu

/-- Nobody has a GPU that is down, unless it is one of the `failing` jobs. -/
def WorkloadEngine.Healthy (engine : WorkloadEngine) (failing : JobId → Prop) : Prop :=
  ∀ inventory, engine.inventory = some inventory → ∀ r ∈ inventory.gpus, ∀ owner,
    r.owner = some owner → ¬ failing owner → r.healthy = true

namespace Exclusive

variable {engine engine' : WorkloadEngine} {job : JobId} {record record' : Record} {gpu : GpuId}
  {f : WorkloadEngine → WorkloadEngine} {reports : List (Telemetry.JobTransition × Bool)}
  {d d' : Desk}

/-- No GPU is held by two jobs. -/
theorem unique (exclusive : Exclusive engine) {other : JobId} (here : engine.Holds job gpu)
    (there : engine.Holds other gpu) : job = other := by
  rw [← exclusive.assignments] at here there
  rw [here] at there
  exact Option.some.inj there

/-- What is free in the inventory is nobody's. -/
theorem unassigned (exclusive : Exclusive engine) {inventory : ResourceInventory}
    (isInventory : engine.inventory = some inventory)
    (free : ∃ r ∈ inventory.gpus, r.gpu = gpu ∧ r.owner = none) :
    engine.assignments.find? gpu = none := by
  obtain ⟨r, member, isGpu, unowned⟩ := free
  refine Option.eq_none_iff_forall_ne_some.mpr fun owner isOwner => ?_
  have held := (exclusive.assignments gpu owner).mp isOwner
  obtain ⟨r', member', isGpu', owned⟩ := (exclusive.owners inventory isInventory gpu owner).mpr held
  -- a GPU is in the inventory once
  have same : r = r' := List.inj_on_of_nodup_map (exclusive.ordered inventory isInventory).unique
    member member' (isGpu.trans isGpu'.symm)
  rw [← same, unowned] at owned
  cases owned

theorem holds_self (shift : Shift job record record' f reports d d') :
    d'.engine.Holds job gpu ↔ record'.Holds gpu := by
  unfold WorkloadEngine.Holds
  simp [shift.find?_self]

theorem holds_of_ne (shift : Shift job record record' f reports d d') {other : JobId}
    (differs : other ≠ job) : d'.engine.Holds other gpu ↔ d.engine.Holds other gpu := by
  unfold WorkloadEngine.Holds
  rw [shift.find?_of_ne differs]

theorem holds_before (shift : Shift job record record' f reports d d') :
    d.engine.Holds job gpu ↔ record.Holds gpu := by
  unfold WorkloadEngine.Holds
  simp [shift.found]

/-- A move by which nobody gets or loses a GPU. -/
theorem kept (exclusive : Exclusive d.engine) (shift : Shift job record record' f reports d d')
    (apart : (f d.engine).assignments = d.engine.assignments ∧
      (f d.engine).inventory = d.engine.inventory)
    (same : ∀ gpu, record'.Holds gpu ↔ record.Holds gpu) : Exclusive d'.engine := by
  have holds : ∀ gpu owner, d'.engine.Holds owner gpu ↔ d.engine.Holds owner gpu := by
    intro gpu owner
    by_cases isJob : owner = job
    · subst isJob
      rw [holds_self shift, holds_before shift, same]
    · exact holds_of_ne shift isJob
  have assignments := shift.assignments_eq.trans apart.1
  have inventory := shift.inventory_eq.trans apart.2
  refine ⟨fun gpu owner => ?_, fun inventory' isInventory => ?_,
    fun inventory' isInventory gpu owner => ?_⟩
  · rw [assignments, holds, exclusive.assignments]
  · exact exclusive.ordered inventory' (inventory ▸ isInventory)
  · rw [holds, exclusive.owners inventory' (inventory ▸ isInventory)]

/-- A move by which the job gets GPUs that were nobody's. -/
theorem given (exclusive : Exclusive d.engine) (shift : Shift job record record' f reports d d')
    {workers : List GpuId} (before : ∀ gpu, ¬ record.Holds gpu)
    (after : ∀ gpu, record'.Holds gpu ↔ gpu ∈ workers)
    (free : ∀ gpu ∈ workers, d.engine.assignments.find? gpu = none)
    (assignments : (f d.engine).assignments =
      workers.foldl (fun assignments gpu => assignments.emplace gpu job) d.engine.assignments)
    (inventory : ∀ inventory', (f d.engine).inventory = some inventory' → ∃ inventory,
      d.engine.inventory = some inventory ∧ inventory.allocate job workers = .ok inventory') :
    Exclusive d'.engine := by
  -- the job holds the GPUs it is given, and all others hold what they held
  have holds : ∀ gpu owner, d'.engine.Holds owner gpu ↔
      if gpu ∈ workers then owner = job else d.engine.Holds owner gpu := by
    intro gpu owner
    by_cases isJob : owner = job
    · subst isJob
      rw [holds_self shift, holds_before shift, after]
      -- a given GPU was nobody's
      by_cases isWorker : gpu ∈ workers <;> simp [isWorker, before]
    · rw [holds_of_ne shift isJob]
      by_cases isWorker : gpu ∈ workers
      · have unheld : ¬ d.engine.Holds owner gpu := by
          rw [← exclusive.assignments, free gpu isWorker]
          nofun
        simp [isWorker, isJob, unheld]
      · simp [isWorker]
  refine ⟨fun gpu owner => ?_, fun inventory' isInventory => ?_,
    fun inventory' isInventory gpu owner => ?_⟩
  · rw [shift.assignments_eq, holds, assignments,
      find?_foldl_emplace gpu workers _ fun worker member => .inl (free worker member)]
    by_cases isWorker : gpu ∈ workers
    · simp [isWorker, eq_comm]
    · simp [isWorker, exclusive.assignments]
  · rw [shift.inventory_eq] at isInventory
    obtain ⟨known, isKnown, allocated⟩ := inventory inventory' isInventory
    exact ResourceInventory.allocate_ordered (exclusive.ordered known isKnown) allocated
  · rw [shift.inventory_eq] at isInventory
    obtain ⟨known, isKnown, allocated⟩ := inventory inventory' isInventory
    -- the inventory marks the given GPUs and leaves the others
    obtain ⟨_, available, gpus⟩ :=
      ResourceInventory.allocate_eq (exclusive.ordered known isKnown) allocated
    rw [holds, gpus]
    by_cases isWorker : gpu ∈ workers
    · obtain ⟨r, member, isGpu, _⟩ := available gpu isWorker
      rw [if_pos isWorker]
      constructor
      · rintro ⟨r', member', isGpu', owned⟩
        obtain ⟨r'', _, rfl⟩ := List.mem_map.mp member'
        split at owned
        · exact (Option.some.inj owned).symm
        · rename_i other
          rw [if_neg other] at isGpu'
          exact absurd (isGpu' ▸ isWorker) other
      · rintro rfl
        refine ⟨{ r with owner := some owner }, List.mem_map.mpr ⟨r, member, ?_⟩, isGpu, rfl⟩
        rw [if_pos (isGpu ▸ isWorker)]
    · rw [if_neg isWorker, ← exclusive.owners known isKnown]
      constructor
      · rintro ⟨r', member', isGpu', owned⟩
        obtain ⟨r'', member'', rfl⟩ := List.mem_map.mp member'
        split at owned
        · rename_i other
          rw [if_pos other] at isGpu'
          exact absurd (isGpu' ▸ other) isWorker
        · rename_i other
          rw [if_neg other] at isGpu'
          exact ⟨r'', member'', isGpu', owned⟩
      · rintro ⟨r, member, isGpu, owned⟩
        refine ⟨r, List.mem_map.mpr ⟨r, member, ?_⟩, isGpu, owned⟩
        rw [if_neg (isGpu ▸ isWorker)]

/-- A move by which the job gives all its GPUs back. -/
theorem returned (exclusive : Exclusive d.engine) (shift : Shift job record record' f reports d d')
    (named : record.id = job) (alive : record.state.terminal = false)
    (after : ∀ gpu, ¬ record'.Holds gpu)
    (assignments : (f d.engine).assignments = (d.engine.released record).assignments)
    (inventory : (f d.engine).inventory = (d.engine.released record).inventory) :
    Exclusive d'.engine := by
  -- the job holds nothing any more, and all others hold what they held
  have holds : ∀ gpu owner, d'.engine.Holds owner gpu ↔ owner ≠ job ∧ d.engine.Holds owner gpu := by
    intro gpu owner
    by_cases isJob : owner = job
    · subst isJob
      simp [holds_self shift, after]
    · simp [holds_of_ne shift isJob, isJob]
  refine ⟨fun gpu owner => ?_, fun inventory' isInventory => ?_,
    fun inventory' isInventory gpu owner => ?_⟩
  · rw [shift.assignments_eq, holds, assignments, ← exclusive.assignments]
    by_cases assigned : record.assigned = true
    · simp only [WorkloadEngine.released, assigned, if_true, find?_foldl_erase]
      by_cases isWorker : gpu ∈ record.spec.workers
      · -- a worker of the job was the job's
        have own := (exclusive.assignments gpu job).mpr
          ((holds_before shift).mpr ⟨assigned, alive, isWorker⟩)
        simp [isWorker, own, eq_comm]
      -- a GPU that is not among its workers was not the job's
      · have notOwn : d.engine.assignments.find? gpu ≠ some job := by
          intro own
          exact isWorker ((holds_before shift).mp ((exclusive.assignments gpu job).mp own)).2.2
        simp only [isWorker, if_false]
        constructor
        · exact fun isOwner => ⟨fun same => notOwn (same ▸ isOwner), isOwner⟩
        · exact fun both => both.2
    · have notOwn : d.engine.assignments.find? gpu ≠ some job := by
        intro own
        exact assigned ((holds_before shift).mp ((exclusive.assignments gpu job).mp own)).1
      simp only [WorkloadEngine.released, assigned]
      constructor
      · exact fun isOwner => ⟨fun same => notOwn (same ▸ isOwner), isOwner⟩
      · exact fun both => both.2
  · rw [shift.inventory_eq] at isInventory
    have isInventory : (d.engine.released record).inventory = some inventory' :=
      inventory ▸ isInventory
    obtain ⟨known, isKnown, rfl⟩ := Option.map_eq_some_iff.mp isInventory
    exact ResourceInventory.release_ordered (exclusive.ordered known isKnown)
  · rw [shift.inventory_eq] at isInventory
    have isInventory : (d.engine.released record).inventory = some inventory' :=
      inventory ▸ isInventory
    obtain ⟨known, isKnown, rfl⟩ := Option.map_eq_some_iff.mp isInventory
    rw [holds, ← exclusive.owners known isKnown, named]
    simp only [ResourceInventory.release, List.mem_map]
    constructor
    · rintro ⟨_, ⟨r, member, rfl⟩, isGpu, owned⟩
      -- the inventory frees what the job owned and leaves the others
      -- the inventory frees what the job owned and leaves the others
      split at owned
      · cases owned
      · rename_i other
        rw [if_neg other] at isGpu
        exact ⟨fun same => other (same ▸ owned), r, member, isGpu, owned⟩
    · rintro ⟨other, r, member, isGpu, owned⟩
      refine ⟨r, ⟨r, member, if_neg fun own => other ?_⟩, isGpu, owned⟩
      exact Option.some.inj (owned.symm.trans own)

end Exclusive

/-- A job that goes on holds what it held. -/
theorem Record.holds_congr {record record' : Record} (assigned : record'.assigned = record.assigned)
    (workers : record'.spec.workers = record.spec.workers)
    (terminal : record'.state.terminal = record.state.terminal) (gpu : GpuId) :
    record'.Holds gpu ↔ record.Holds gpu := by
  unfold Record.Holds
  rw [assigned, workers, terminal]

theorem Record.Unplaced.holds {record : Record} (unplaced : record.Unplaced) (gpu : GpuId) :
    ¬ record.Holds gpu := fun held => by
  rw [Record.Holds, unplaced.unassigned] at held
  cases held.1

/-- After every move the three places agree. -/
theorem Move.exclusive {job : JobId} {d d' : Desk} (move : Move job d d') (sound : Sound d)
    (exclusive : Exclusive d.engine) : Exclusive d'.engine := by
  cases move with
  | announced settled current awaited shift =>
    exact exclusive.kept shift ⟨rfl, rfl⟩ (Record.holds_congr rfl rfl rfl)
  | queued arriving scheduler shift =>
    exact exclusive.kept shift ⟨rfl, rfl⟩
      (Record.holds_congr rfl rfl (by rw [arriving.state]; rfl))
  | pinned arriving alone free shift =>
    refine exclusive.given shift arriving.unplaced.holds (fun gpu => ?_) free rfl
      (fun inventory' isInventory => ?_)
    · simp [Record.Holds, Record.placed, arriving.state, JobState.terminal]
    -- without a scheduler there is no inventory
    · cases alone.symm.trans isInventory
  | @placed record inventory inventory' workers decision reason settled waiting isInventory allocated
      count shift =>
    obtain ⟨unplaced, _, _⟩ := settled.of_waiting waiting
    obtain ⟨_, available, _⟩ :=
      ResourceInventory.allocate_eq (exclusive.ordered inventory isInventory) allocated
    refine exclusive.given shift unplaced.holds (fun gpu => ?_)
      (fun gpu (member : gpu ∈ workers) => ?_) rfl (fun inventory'' isNew => ⟨inventory, isInventory, ?_⟩)
    · simp [Record.Holds, Record.placed, waiting, JobState.terminal]
    · obtain ⟨r, isResource, isGpu, _, unowned⟩ := available gpu member
      exact exclusive.unassigned isInventory ⟨r, isResource, isGpu, unowned⟩
    · cases isNew
      exact allocated
  | declined settled waiting shift =>
    exact exclusive.kept shift ⟨rfl, rfl⟩ (Record.holds_congr rfl rfl rfl)
  | began resting more filled shift =>
    exact exclusive.kept shift ⟨rfl, rfl⟩
      (Record.holds_congr rfl rfl (by rw [resting.paid.running]; rfl))
  | @computed record allocatedAt event worker bucket training current isWorker isBucket last pending
      shift =>
    have running := (training.computed sound.valid current isWorker isBucket last pending).running
    have apart : (d.engine.through (record.computed worker bucket) d.sim.now).assignments =
        d.engine.assignments := by
      unfold WorkloadEngine.through
      split <;> rfl
    exact exclusive.kept shift ⟨apart, (d.engine.through_apart _ _).2⟩
      (Record.holds_congr rfl rfl (running.trans training.running.symm))
  | @joined record allocatedAt id training inactive all fresh shift =>
    exact exclusive.kept shift ⟨rfl, rfl⟩
      (Record.holds_congr rfl rfl ((training.joined id all).running.trans training.running.symm))
  | outlived settled terminal owner shift =>
    exact exclusive.kept shift ⟨rfl, rfl⟩ (Record.holds_congr rfl rfl rfl)
  | failed training owner shift =>
    exact exclusive.kept shift ⟨rfl, rfl⟩ (Record.holds_congr rfl rfl rfl)
  | advanced training owner more shift =>
    have active := sound.active_of_owner shift.found owner
    have running := (training.advanced (by rw [active]; rfl) more).running
    exact exclusive.kept shift ⟨rfl, rfl⟩
      (Record.holds_congr rfl rfl (running.trans training.running.symm))
  | stepped training owner last shift =>
    exact exclusive.kept shift ⟨rfl, rfl⟩ (Record.holds_congr rfl rfl rfl)
  | ended stage alive terminal success interrupted computed inspected shift =>
    refine exclusive.returned shift (sound.named shift.found) alive (fun gpu held => ?_) rfl rfl
    -- a terminal job holds nothing
    cases terminal.symm.trans held.2.1

/-- A GPU that is given away is healthy. -/
theorem Move.healthy {job : JobId} {d d' : Desk} {failing : JobId → Prop} (move : Move job d d')
    (exclusive : Exclusive d.engine) (healthy : d.engine.Healthy failing) :
    d'.engine.Healthy failing := by
  -- most moves leave the inventory as it is
  have kept : ∀ {record record' f reports}, Shift job record record' f reports d d' →
      (f d.engine).inventory = d.engine.inventory → d'.engine.Healthy failing := by
    intro record record' f reports shift same inventory isInventory
    exact healthy inventory (same ▸ shift.inventory_eq ▸ isInventory)
  cases move with
  | announced settled current awaited shift => exact kept shift rfl
  | queued arriving scheduler shift => exact kept shift rfl
  | pinned arriving alone free shift => exact kept shift rfl
  -- only a placement gives GPUs away
  | @placed record inventory inventory' workers decision reason settled waiting isInventory allocated
      count shift =>
    intro inventory'' isNew r member owner owned unspared
    rw [shift.inventory_eq] at isNew
    cases isNew
    obtain ⟨_, available, gpus⟩ :=
      ResourceInventory.allocate_eq (exclusive.ordered inventory isInventory) allocated
    rw [gpus] at member
    obtain ⟨r', member', rfl⟩ := List.mem_map.mp member
    split
    · -- a worker was available, and it is in the inventory once
      rename_i isWorker
      obtain ⟨r'', member'', isGpu, fine, _⟩ := available r'.gpu isWorker
      have same : r' = r'' := List.inj_on_of_nodup_map
        (exclusive.ordered inventory isInventory).unique member' member'' isGpu.symm
      exact same ▸ fine
    · rename_i other
      rw [if_neg other] at owned
      exact healthy inventory isInventory r' member' owner owned unspared
  | declined settled waiting shift => exact kept shift rfl
  | began resting more filled shift => exact kept shift rfl
  | computed training current isWorker isBucket last pending shift =>
    exact kept shift (d.engine.through_apart _ _).2
  | joined training inactive all fresh shift => exact kept shift rfl
  | outlived settled terminal owner shift => exact kept shift rfl
  | failed training owner shift => exact kept shift rfl
  | advanced training owner more shift => exact kept shift rfl
  | stepped training owner last shift => exact kept shift rfl
  -- an end only takes them back
  | ended stage alive terminal success interrupted computed inspected shift =>
    intro inventory' isNew r member owner owned unspared
    rw [shift.inventory_eq] at isNew
    obtain ⟨known, isKnown, rfl⟩ := Option.map_eq_some_iff.mp isNew
    obtain ⟨r', member', rfl⟩ := List.mem_map.mp member
    split at owned
    · cases owned
    · rename_i other
      rw [if_neg other]
      exact healthy known isKnown r' member' owner owned unspared

end NexusLab.Workload
