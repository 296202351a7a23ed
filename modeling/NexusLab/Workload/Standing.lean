import NexusLab.Workload.Calls

/-! # Between two calls

Between two calls of the engine every job is settled and the three places agree on who has which GPU.
Besides, no GPU lies idle while a job waits that could have it, unless a pass of admission is still to
come. -/

namespace NexusLab.Workload

open Foundation Sim Telemetry Collective Scheduling NexusLab.Topology

/-! ## Policies -/

/-- What the policy places with fewer free GPUs, it places with more. -/
def Steady (policy : SchedulingPolicy) : Prop :=
  ∀ {request : JobRequest} {gpus gpus' : List Resource} {placement' : Placement}, UniqueGpus gpus →
    Busier gpus gpus' → policy.place request gpus' = .ok placement' →
    placement'.outcome = .placed → ∃ placement, policy.place request gpus = .ok placement ∧
      placement.outcome = .placed

theorem steady_of_makePolicy {name : String} {seed : Nat} {policy : SchedulingPolicy}
    (builtin : makePolicy name seed = .ok policy) : Steady policy := by
  intro request gpus gpus' placement' unique busier answered placed
  have place := WorkloadEngine.place_of_makePolicy builtin request
  rw [place gpus'] at answered
  cases answered
  exact ⟨_, place gpus, placed_of_busier unique busier placed⟩

namespace WorkloadEngine

/-- What the engine was set up with. -/
def settings (engine : WorkloadEngine) :
    WorkloadLimits × Option Configuration × Option SchedulingPolicy :=
  (engine.limits, engine.scheduling, engine.policy)

def IsSteady (engine : WorkloadEngine) : Prop := ∀ policy, engine.policy = some policy → Steady policy

theorem IsSteady.of_settings {engine engine' : WorkloadEngine} (steady : engine.IsSteady)
    (settings : engine'.settings = engine.settings) : engine'.IsSteady := fun policy isPolicy =>
  steady policy ((congrArg (·.2.2) settings).symm.trans isPolicy)

/-- The policy would place the job now. -/
def Fits (engine : WorkloadEngine) (record : Record) : Prop :=
  ∃ inventory policy placement, engine.inventory = some inventory ∧ engine.policy = some policy ∧
    policy.place (request record) inventory.gpus = .ok placement ∧ placement.outcome = .placed

/-- Of the jobs that wait, none but the `untried` ones could be placed. -/
def Conserves (engine : WorkloadEngine) (untried : JobId → Prop) : Prop :=
  ∀ job record, engine.jobs.find? job = some record → record.state = .waiting →
    record.assigned = false → engine.Fits record → untried job

/-- A pass of admission is to come, or no job waits that could be placed. -/
def Conserving (engine : WorkloadEngine) : Prop :=
  engine.admissionPending = true ∨ engine.Conserves fun _ => False

end WorkloadEngine

/-! ## Busier views -/

/-- A GPU, whoever has it. -/
def bare (r : Resource) : Resource := { r with owner := none }

/-- The GPUs of an engine with a scheduler. -/
def WorkloadEngine.machines (engine : WorkloadEngine) : Option (List Resource) :=
  engine.inventory.map fun inventory => inventory.gpus.map bare

theorem WorkloadEngine.machines_released (engine : WorkloadEngine) (record : Record) :
    (engine.released record).machines = engine.machines := by
  have bared : ∀ r : Resource, bare (if r.owner = some record.id then { r with owner := none } else r) =
      bare r := fun r => by
    split <;> rfl
  simp [machines, released, ResourceInventory.release, Function.comp_def, bared]

/-- The view has become busier: nobody who had a GPU has lost it. -/
theorem Exclusive.busier {engine engine' : WorkloadEngine} (exclusive : Exclusive engine)
    (exclusive' : Exclusive engine') (machines : engine'.machines = engine.machines)
    (kept : ∀ gpu job, engine.Holds job gpu → ∃ job', engine'.Holds job' gpu)
    {inventory inventory' : ResourceInventory} (isInventory : engine.inventory = some inventory)
    (isInventory' : engine'.inventory = some inventory') :
    Busier inventory.gpus inventory'.gpus := by
  have same : inventory'.gpus.map bare = inventory.gpus.map bare := by
    simpa [WorkloadEngine.machines, isInventory, isInventory'] using machines
  have length : inventory.gpus.length = inventory'.gpus.length := by
    simpa using (congrArg List.length same).symm
  refine List.forall₂_iff_get.mpr ⟨length, fun position inside inside' => ?_⟩
  have bared : bare (inventory'.gpus.get ⟨position, inside'⟩) =
      bare (inventory.gpus.get ⟨position, inside⟩) := by
    have at_ := congrArg (·[position]?) same
    simpa [inside, inside'] using at_
  have isGpu : (bare (inventory'.gpus.get ⟨position, inside'⟩)).gpu =
      (bare (inventory.gpus.get ⟨position, inside⟩)).gpu := congrArg Resource.gpu bared
  have healthy : (bare (inventory'.gpus.get ⟨position, inside'⟩)).healthy =
      (bare (inventory.gpus.get ⟨position, inside⟩)).healthy := congrArg Resource.healthy bared
  refine ⟨isGpu, fun free => ?_⟩
  rw [Resource.free, Bool.and_eq_true, Option.isNone_iff_eq_none] at free ⊢
  refine ⟨healthy ▸ free.1, Option.eq_none_iff_forall_ne_some.mpr fun owner isOwner => ?_⟩
  -- whoever had the GPU, somebody has it still
  obtain ⟨owner', held⟩ := kept _ owner ((exclusive.owners inventory isInventory _ owner).mp
    ⟨_, List.get_mem _ _, rfl, isOwner⟩)
  obtain ⟨r, member, here, owned⟩ := (exclusive'.owners inventory' isInventory' _ owner').mpr held
  have one : r = inventory'.gpus.get ⟨position, inside'⟩ := List.inj_on_of_nodup_map
    (exclusive'.ordered inventory' isInventory').unique member (List.get_mem _ _)
    (here.trans isGpu.symm)
  rw [one, free.2] at owned
  cases owned

/-- What does not fit is not made to fit by a busier view. -/
theorem WorkloadEngine.Fits.back {engine engine' : WorkloadEngine} {record : Record}
    (fits : engine'.Fits record) (exclusive : Exclusive engine)
    (settings : engine'.settings = engine.settings) (steady : engine.IsSteady)
    (machines : engine'.machines = engine.machines)
    (busier : ∀ inventory inventory', engine.inventory = some inventory →
      engine'.inventory = some inventory' → Busier inventory.gpus inventory'.gpus) :
    engine.Fits record := by
  obtain ⟨inventory', p, placement', isInventory', isPolicy, answered, placed⟩ := fits
  have isPolicy : engine.policy = some p := (congrArg (·.2.2) settings).symm.trans isPolicy
  cases known : engine.inventory with
  | none => simp [WorkloadEngine.machines, known, isInventory'] at machines
  | some inventory =>
    obtain ⟨placement, isPlacement, isPlaced⟩ := steady p isPolicy
      (exclusive.ordered inventory known).unique (busier inventory inventory' known isInventory')
      answered placed
    exact ⟨inventory, p, placement, known, isPolicy, isPlacement, isPlaced⟩

/-! ## What moves do to the view -/

section Moves

variable {job : JobId} {record record' : Record} {f : WorkloadEngine → WorkloadEngine}
  {reports : List (JobTransition × Bool)} {d d' : Desk}

/-- Apart from the jobs, the engine is what the move makes of it. -/
theorem Shift.apart {α : Type} (shift : Shift job record record' f reports d d')
    (g : WorkloadEngine → α) (jobs : ∀ engine jobs, g { engine with jobs } = g engine) :
    g d'.engine = g (f d.engine) := by
  rw [shift.engine_eq]
  exact jobs _ _

/-- No move changes what the engine was set up with. -/
theorem Move.settings_eq (move : Move job d d') : d'.engine.settings = d.engine.settings := by
  have all : ∃ record record' f reports, Shift job record record' f reports d d' ∧
      (f d.engine).settings = d.engine.settings := by
    cases move with
    | computed _ _ _ _ _ _ shift =>
      exact ⟨_, _, _, _, shift, d.engine.through_elsewhere _ _ fun _ _ => rfl⟩
    | announced _ _ _ shift | queued _ _ shift | pinned _ _ _ shift | placed _ _ _ _ _ shift
    | declined _ _ shift | began _ _ _ shift | joined _ _ _ _ shift | outlived _ _ _ shift
    | failed _ _ shift | advanced _ _ _ shift | stepped _ _ _ shift | ended _ _ _ _ _ _ _ shift =>
      exact ⟨_, _, _, _, shift, rfl⟩
  obtain ⟨_, _, _, _, shift, same⟩ := all
  exact (shift.apart WorkloadEngine.settings fun _ _ => rfl).trans same

theorem Move.size_eq (move : Move job d d') : d'.engine.jobs.size = d.engine.jobs.size := by
  obtain ⟨_, _, _, _, shift⟩ := move.shift
  rw [shift.jobs_eq]
  exact OrderedMap.size_insert_of_found shift.found

/-- No GPU comes or goes, or changes its health. -/
theorem Move.machines_eq (move : Move job d d') (exclusive : Exclusive d.engine) :
    d'.engine.machines = d.engine.machines := by
  -- the machines are no part of the jobs
  have kept : ∀ {record record' f reports}, Shift job record record' f reports d d' →
      (f d.engine).machines = d.engine.machines → d'.engine.machines = d.engine.machines :=
    fun shift same => (shift.apart WorkloadEngine.machines fun _ _ => rfl).trans same
  cases move with
  | computed _ _ _ _ _ _ shift =>
    exact kept shift (d.engine.through_elsewhere _ _ fun _ _ => rfl)
  | @placed record inventory inventory' workers decision reason settled waiting isInventory allocated
      count shift =>
    obtain ⟨_, _, gpus⟩ :=
      ResourceInventory.allocate_eq (exclusive.ordered inventory isInventory) allocated
    refine kept shift ?_
    -- an allocation changes the owners only
    have bared : ∀ r : Resource, bare (if r.gpu ∈ workers then { r with owner := some job } else r) =
        bare r := fun r => by
      split <;> rfl
    show some (inventory'.gpus.map bare) = d.engine.machines
    simp [WorkloadEngine.machines, isInventory, gpus, Function.comp_def, bared]
  | @ended record _ _ _ _ _ _ _ _ _ _ _ shift =>
    exact kept shift (d.engine.machines_released record)
  | announced _ _ _ shift | queued _ _ shift | pinned _ _ _ shift
  | declined _ _ shift | began _ _ _ shift | joined _ _ _ _ shift | outlived _ _ _ shift
  | failed _ _ shift | advanced _ _ _ shift | stepped _ _ _ shift => exact kept shift rfl

/-- What has been placed or has ended does not wait again. -/
def Record.Begun (record : Record) : Prop := record.assigned = true ∨ record.state.terminal = true

theorem Move.begun (move : Move job d d') (found : d.engine.jobs.find? job = some record)
    (begun : record.Begun) : ∃ record', d'.engine.jobs.find? job = some record' ∧ record'.Begun := by
  have one : ∀ {r r' f reports}, Shift job r r' f reports d d' → (r.Begun → r'.Begun) →
      ∃ record', d'.engine.jobs.find? job = some record' ∧ record'.Begun := by
    intro r r' f reports shift goes
    have same := shift.found
    rw [found] at same
    cases same
    exact ⟨r', shift.find?_self, goes begun⟩
  cases move with
  | announced _ _ _ shift | declined _ _ shift | outlived _ _ _ shift => exact one shift id
  | queued arriving _ shift =>
    exact one shift fun begun => .inl (begun.resolve_right (by rw [arriving.state]; nofun))
  | pinned _ _ _ shift | placed _ _ _ _ _ shift => exact one shift fun _ => .inl rfl
  | began resting _ _ shift => exact one shift fun _ => .inl resting.paid.assigned
  | computed training _ _ _ _ _ shift => exact one shift fun _ => .inl training.paid.assigned
  | joined training _ _ _ shift => exact one shift fun _ => .inl training.paid.assigned
  | failed training _ shift => exact one shift fun _ => .inl training.paid.assigned
  | advanced training _ _ shift => exact one shift fun _ => .inl training.paid.assigned
  | stepped training _ _ shift => exact one shift fun _ => .inl training.paid.assigned
  | ended _ _ terminal _ _ _ _ shift => exact one shift fun _ => .inr terminal

theorem Record.Settled.not_begun {record : Record} {sim : Simulation} (settled : record.Settled sim)
    (waiting : record.state = .waiting) : ¬ record.Begun := by
  obtain ⟨unplaced, _, _⟩ := settled.of_waiting waiting
  rintro (assigned | terminal)
  · exact absurd (unplaced.unassigned.symm.trans assigned) nofun
  · rw [waiting] at terminal
    cases terminal

end Moves

/-! ## Admission is not forgotten -/

section Conservation

variable {job : JobId} {d d' : Desk} {untried : JobId → Prop}

/-- Every move that lets a job fit asks for a pass of admission. -/
theorem Move.conserves (move : Move job d d') (sound : Sound d) (exclusive : Exclusive d.engine)
    (steady : d.engine.IsSteady)
    (before : d.engine.admissionPending = true ∨ d.engine.Conserves untried) :
    d'.engine.admissionPending = true ∨ d'.engine.Conserves untried := by
  have exclusive' := move.exclusive sound exclusive
  have settings := move.settings_eq
  have machines := move.machines_eq exclusive
  -- no GPU is taken from anyone, and the job waits only if it did before
  have kept : ∀ {record record' f reports}, Shift job record record' f reports d d' →
      (f d.engine).admissionPending = d.engine.admissionPending →
      (∀ gpu, record.Holds gpu → record'.Holds gpu) →
      (record'.state = .waiting → record'.assigned = false → record.state = .waiting ∧
        record.assigned = false ∧ WorkloadEngine.request record' = WorkloadEngine.request record) →
      d'.engine.admissionPending = true ∨ d'.engine.Conserves untried := by
    intro record record' f reports shift pending holds back
    refine before.imp (fun flag => ?_) fun conserves other r isRecord waiting unassigned fits => ?_
    · rw [shift.apart WorkloadEngine.admissionPending fun _ _ => rfl, pending]
      exact flag
    · have fits := fits.back exclusive settings steady machines
        fun inventory inventory' isInventory isInventory' =>
          exclusive.busier exclusive' machines (fun gpu owner held => ⟨owner, ?_⟩) isInventory
            isInventory'
      · rcases shift.cases_find? isRecord with ⟨rfl, rfl⟩ | ⟨_, old⟩
        · obtain ⟨waits, free, same⟩ := back waiting unassigned
          unfold WorkloadEngine.Fits at fits
          rw [same] at fits
          exact conserves _ _ shift.found waits free fits
        · exact conserves other r old waiting unassigned fits
      · by_cases isJob : owner = job
        · subst isJob
          rw [Exclusive.holds_before shift] at held
          exact (Exclusive.holds_self shift).mpr (holds gpu held)
        · exact (Exclusive.holds_of_ne shift isJob).mpr held
  cases move with
  | announced _ _ _ shift =>
    exact kept shift rfl (fun _ held => held) fun waiting free => ⟨waiting, free, rfl⟩
  | queued arriving scheduler shift =>
    exact .inl (shift.apart WorkloadEngine.admissionPending fun _ _ => rfl)
  | pinned arriving _ _ shift =>
    exact kept shift rfl (fun gpu held => absurd held (arriving.unplaced.holds gpu)) nofun
  | placed settled waiting _ _ _ shift =>
    obtain ⟨unplaced, _, _⟩ := settled.of_waiting waiting
    exact kept shift rfl (fun gpu held => absurd held (unplaced.holds gpu)) nofun
  | declined settled waiting shift =>
    exact kept shift rfl (fun _ held => held) fun _ free => ⟨waiting, free, rfl⟩
  | began resting _ _ shift =>
    exact kept shift rfl (fun gpu held => ⟨held.1, rfl, held.2.2⟩) nofun
  | computed training current isWorker isBucket last pending shift =>
    have after := training.computed sound.valid current isWorker isBucket last pending
    exact kept shift (d.engine.through_elsewhere _ _ fun _ _ => rfl)
      (fun gpu held => ⟨held.1, after.running, held.2.2⟩) fun waiting => absurd waiting after.not_waiting
  | @joined _ _ id training _ all _ shift =>
    have after := training.joined id all
    exact kept shift rfl (fun gpu held => ⟨held.1, after.running, held.2.2⟩)
      fun waiting => absurd waiting after.not_waiting
  | outlived settled terminal _ shift =>
    exact kept shift rfl (fun _ held => held) fun waiting free => ⟨waiting, free, rfl⟩
  | failed training _ shift =>
    exact kept shift rfl (fun _ held => held) fun waiting free => ⟨waiting, free, rfl⟩
  | advanced training owner more shift =>
    have active := sound.active_of_owner shift.found owner
    have after := training.advanced (by rw [active]; rfl) more
    exact kept shift rfl (fun gpu held => ⟨held.1, after.running, held.2.2⟩)
      fun waiting => absurd waiting after.not_waiting
  | stepped training _ _ shift =>
    exact kept shift rfl (fun _ held => held) fun waiting free => ⟨waiting, free, rfl⟩
  | @ended record state reason compute snapshot _ _ terminal _ _ _ _ shift =>
    cases known : d.engine.inventory with
    | none =>
      -- without a scheduler nothing fits
      refine .inr fun _ _ _ _ _ ⟨inventory, _, _, isInventory, _⟩ => ?_
      simp [shift.inventory_eq, WorkloadEngine.released, WorkloadEngine.traced, known] at isInventory
    -- the GPUs go back to the inventory, and the flag is raised
    | some inventory =>
      refine .inl ?_
      rw [shift.apart WorkloadEngine.admissionPending fun _ _ => rfl]
      simp [WorkloadEngine.released, WorkloadEngine.traced, known]

end Conservation

/-! ## After a call -/

variable {X : Type} {executor : CollectiveExecutor X} {issued : X → CollectiveId → Prop}

/-- Between two calls; a GPU of a `failing` job may be down. -/
structure Standing (executor : CollectiveExecutor X) (issued : X → CollectiveId → Prop)
    (failing : JobId → Prop) (w : Working X) : Prop where
  orderly : Orderly executor issued w
  settled : ∀ {job record}, w.engine.jobs.find? job = some record →
    record.Settled (executor.sim w)
  served : ∀ {job record}, w.engine.jobs.find? job = some record → record.state.terminal = false →
    record.assigned = true → record.Served
  healthy : w.engine.Healthy failing
  numbered : ∀ {job record}, w.engine.jobs.find? job = some record →
    job.value < w.engine.jobs.size
  equipped : w.engine.scheduling.isSome = w.engine.inventory.isSome

/-- What one move keeps, all moves of a call keep. -/
theorem keep_of_moves {job : JobId} {d d' : Desk} {P : Desk → Prop} (sound : Sound d)
    (exclusive : Exclusive d.engine)
    (step : ∀ {d d' : Desk}, Move job d d' → Sound d → Exclusive d.engine → P d → P d')
    (moves : Relation.ReflTransGen (Move job) d d') (start : P d) : P d' := by
  have all : Sound d' ∧ Exclusive d'.engine ∧ P d' := by
    induction moves with
    | refl => exact ⟨sound, exclusive, start⟩
    | tail _ move ih =>
      obtain ⟨sound, exclusive, kept⟩ := ih
      exact ⟨move.sound sound, move.exclusive sound exclusive, step move sound exclusive kept⟩
  exact all.2.2

namespace Going

variable {job : JobId} {w₀ w : Working X} {record : Record}

theorem elsewhere (going : Going executor issued job w₀ record w) {other : JobId}
    (differs : other ≠ job) : w.engine.jobs.find? other = w₀.engine.jobs.find? other := by
  have kept : ∀ {d d' : Desk}, Relation.ReflTransGen (Move job) d d' →
      d'.engine.jobs.find? other = d.engine.jobs.find? other := by
    intro d d' moves
    induction moves with
    | refl => rfl
    | tail _ move ih => exact (move.elsewhere differs).trans ih
  exact kept going.moves

/-- The job was known before. -/
theorem known (going : Going executor issued job w₀ record w) :
    ∃ r, w₀.engine.jobs.find? job = some r := by
  rcases Relation.ReflTransGen.cases_head going.moves with same | ⟨_, move, _⟩
  · have found : (executor.desk w₀).engine.jobs.find? job = some record := same ▸ going.found
    exact ⟨record, found⟩
  · obtain ⟨_, _, _, _, shift⟩ := move.shift
    exact ⟨_, shift.found⟩

theorem onward (going : Going executor issued job w₀ record w) (orderly : Orderly executor issued w₀) :
    Onward (executor.sim w₀) (executor.sim w) := .of_evolves orderly.sound.valid going.evolves

theorem settings_eq (going : Going executor issued job w₀ record w)
    (orderly : Orderly executor issued w₀) : w.engine.settings = w₀.engine.settings :=
  keep_of_moves (P := fun d => d.engine.settings = w₀.engine.settings) orderly.sound
    orderly.exclusive (fun move _ _ same => move.settings_eq.trans same) going.moves rfl

theorem size_eq (going : Going executor issued job w₀ record w)
    (orderly : Orderly executor issued w₀) : w.engine.jobs.size = w₀.engine.jobs.size :=
  keep_of_moves (P := fun d => d.engine.jobs.size = w₀.engine.jobs.size) orderly.sound
    orderly.exclusive (fun move _ _ same => move.size_eq.trans same) going.moves rfl

theorem machines_eq (going : Going executor issued job w₀ record w)
    (orderly : Orderly executor issued w₀) : w.engine.machines = w₀.engine.machines :=
  keep_of_moves (P := fun d => d.engine.machines = w₀.engine.machines) orderly.sound
    orderly.exclusive (fun move _ exclusive same => (move.machines_eq exclusive).trans same)
    going.moves rfl

/-- A call about a job that has no GPU frees none. -/
theorem busier (going : Going executor issued job w₀ record w) (orderly : Orderly executor issued w₀)
    {record₀ : Record} (found : w₀.engine.jobs.find? job = some record₀)
    (without : ∀ gpu, ¬ record₀.Holds gpu) {inventory inventory' : ResourceInventory}
    (isInventory : w₀.engine.inventory = some inventory)
    (isInventory' : w.engine.inventory = some inventory') :
    Busier inventory.gpus inventory'.gpus := by
  refine orderly.exclusive.busier going.orderly.exclusive (going.machines_eq orderly)
    (fun gpu owner held => ⟨owner, ?_⟩) isInventory isInventory'
  by_cases isJob : owner = job
  · subst isJob
    obtain ⟨r, isRecord, holds⟩ := held
    rw [found] at isRecord
    cases isRecord
    exact absurd holds (without gpu)
  · unfold WorkloadEngine.Holds
    rwa [going.elsewhere isJob]

theorem begun (going : Going executor issued job w₀ record w) (orderly : Orderly executor issued w₀)
    {record₀ : Record} (found : w₀.engine.jobs.find? job = some record₀) (begun : record₀.Begun) :
    record.Begun := by
  have kept := keep_of_moves (P := fun d => ∃ r, d.engine.jobs.find? job = some r ∧ r.Begun)
    orderly.sound orderly.exclusive
    (fun move _ _ known => move.begun known.choose_spec.1 known.choose_spec.2) going.moves
    ⟨record₀, found, begun⟩
  obtain ⟨r, isRecord, begun⟩ := kept
  have same : w.engine.jobs.find? job = some r := isRecord
  rw [going.found] at same
  cases same
  exact begun

theorem after {w₁ : Working X} {record₁ : Record} (first : Going executor issued job w₀ record₁ w₁)
    (second : Going executor issued job w₁ record w) : Going executor issued job w₀ record w :=
  ⟨second.orderly, first.moves.trans second.moves, first.called.trans second.called,
    first.evolves.trans second.evolves, second.found⟩

end Going

namespace Reached

variable {job : JobId} {w₀ w : Working X} {failing : JobId → Prop}

theorem after {w₁ : Working X} {record₁ : Record} (first : Going executor issued job w₀ record₁ w₁)
    (reached : Reached executor issued job w₁ w) : Reached executor issued job w₀ w := by
  obtain ⟨record, going, rest⟩ := reached
  exact ⟨record, first.after going, rest⟩

/-- A call about one job leaves all jobs settled. -/
theorem standing (reached : Reached executor issued job w₀ w)
    (standing : Standing executor issued failing w₀) : Standing executor issued failing w := by
  obtain ⟨record, going, settled, served⟩ := reached
  have onward := going.onward standing.orderly
  -- no job has come during the call
  have known : ∀ {other r}, w.engine.jobs.find? other = some r →
      ∃ r₀, w₀.engine.jobs.find? other = some r₀ := by
    intro other r isRecord
    by_cases isJob : other = job
    · exact isJob ▸ going.known
    · exact ⟨r, going.elsewhere isJob ▸ isRecord⟩
  refine ⟨going.orderly, fun {other r} isRecord => ?_, fun {other r} isRecord running assigned => ?_, ?_,
    fun isRecord => ?_, ?_⟩
  · by_cases isJob : other = job
    · subst isJob
      cases going.found.symm.trans isRecord
      exact settled
    · exact (standing.settled (going.elsewhere isJob ▸ isRecord)).onward onward
  · by_cases isJob : other = job
    · subst isJob
      cases going.found.symm.trans isRecord
      exact served running assigned
    · exact standing.served (going.elsewhere isJob ▸ isRecord) running assigned
  · exact keep_of_moves (P := fun d => d.engine.Healthy failing) standing.orderly.sound
      standing.orderly.exclusive (fun move _ exclusive healthy => move.healthy exclusive healthy)
      going.moves standing.healthy
  · obtain ⟨r₀, found⟩ := known isRecord
    exact (standing.numbered found).trans_eq (going.size_eq standing.orderly).symm
  · have scheduling : w.engine.scheduling = w₀.engine.scheduling :=
      congrArg (·.2.1) (going.settings_eq standing.orderly)
    have inventory := congrArg Option.isSome (going.machines_eq standing.orderly)
    simp only [WorkloadEngine.machines, Option.isSome_map] at inventory
    rw [scheduling, inventory]
    exact standing.equipped

theorem conserving (reached : Reached executor issued job w₀ w)
    (standing : Standing executor issued failing w₀)
    (steady : w₀.engine.IsSteady) (before : w₀.engine.Conserving) : w.engine.Conserving := by
  obtain ⟨record, going, _⟩ := reached
  have all := keep_of_moves
    (P := fun d => d.engine.settings = w₀.engine.settings ∧ d.engine.Conserving)
    standing.orderly.sound standing.orderly.exclusive (fun move sound exclusive kept =>
      ⟨move.settings_eq.trans kept.1,
        move.conserves sound exclusive (steady.of_settings kept.1) kept.2⟩)
    going.moves ⟨rfl, before⟩
  exact all.2

end Reached

end NexusLab.Workload
