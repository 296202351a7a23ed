import NexusLab.Workload.Changes

/-! # Passes of admission

A pass tries the waiting jobs one after the other.  What is placed takes GPUs from the view, and what
is not placed would not be placed later in the pass either; so after the pass no job waits that could
be placed. -/

namespace NexusLab.Workload

open Foundation Sim Telemetry Collective Scheduling NexusLab.Topology

variable {X : Type} {executor : CollectiveExecutor X} {issued : X → CollectiveId → Prop}
  {job : JobId} {w₀ w : Working X} {record : Record}

/-! ## One job -/

theorem Turn.wp_allocate {x : X} {engine : WorkloadEngine} {ledger : Ledger} {owner : JobId}
    {configuration : Configuration} {inventory : ResourceInventory} {placement : Placement}
    {Q : ResourceInventory × Locality → Working X → Prop}
    (turn : Turn executor x job engine record ledger w)
    (kept : placement.outcome ≠ .placed → Q (inventory, {}) w)
    (given : placement.outcome = .placed → ∀ inventory' locality w',
      inventory.allocate owner placement.workers = .ok inventory' →
      Turn executor x job (engine.allocating inventory' placement.workers) record ledger w' →
      Q (inventory', locality) w') :
    wp (WorkloadEngine.allocate configuration inventory owner placement) Q (fun _ _ => True) w := by
  unfold WorkloadEngine.allocate
  rw [wp_ite]
  refine ⟨fun placed => ?_, fun other => kept other⟩
  rw [wp_bind, wp_get]
  dsimp only
  rw [wp_bind, wp_throwIf]
  refine ⟨fun _ => trivial, fun _ => ?_⟩
  rw [wp_bind, wp_fromExcept]
  refine ⟨fun inventory' allocated => ?_, fun _ _ => trivial⟩
  rw [wp_bind]
  refine turn.wp_modifyEngine (f := fun engine => engine.allocating inventory' placement.workers)
    (fun _ _ => rfl) rfl fun w₁ turn₁ => ?_
  rw [wp_bind, wp_fromExcept]
  exact ⟨fun locality _ => given placed inventory' locality w₁ allocated turn₁, fun _ _ => trivial⟩

theorem Turn.wp_emitPlacement {x : X} {engine : WorkloadEngine} {ledger : Ledger}
    {decision : PlacementDecision} {id : PlacementDecisionId} {Q : Unit → Working X → Prop}
    (turn : Turn executor x job engine record ledger w)
    (next : ∀ w', Turn executor x job engine record ledger w' → Q () w') :
    wp (WorkloadEngine.emitPlacement executor decision id) Q (fun _ _ => True) w := by
  refine turn.wp_quiet (.all executor) (fun k => ?_) next
  exact (JobFree.fromExcept _).bind fun _ => (jobFree_record (by nofun)).bind fun _ =>
    (JobFree.fromExcept _).bind fun _ => (jobFree_record (by nofun)).bind fun _ =>
    .runIf ((jobFree_record (by nofun)).bind fun _ => (jobFree_record (by nofun)).bind fun _ =>
      jobFree_record (by nofun))

/-- The decision is put on record. -/
theorem Turn.wp_decide {x : X} {engine : WorkloadEngine} {ledger : Ledger}
    {decision : SimTimeNs → PlacementDecision} {id : PlacementDecisionId} {reason : String}
    {rest : Action (Working X) Unit} {Q : Unit → Working X → Prop}
    (turn : Turn executor x job engine record ledger w)
    (next : ∀ w', Turn executor x job (engine.decided (decision (executor.simOf x).now))
      { record with reason } ledger w' → wp rest Q (fun _ _ => True) w') :
    wp (do
      let time ← WorkloadEngine.now executor
      WorkloadEngine.modifyEngine fun engine =>
        { engine with placements := engine.placements ++ [decision time] }
      WorkloadEngine.emitPlacement executor (decision time) id
      WorkloadEngine.modifyJob job fun record => { record with reason }
      rest) Q (fun _ _ => True) w := by
  rw [wp_bind]
  refine turn.wp_now ?_
  rw [wp_bind]
  refine turn.wp_modifyEngine (f := fun engine => engine.decided _) (fun _ _ => rfl) rfl
    fun w₁ turn₁ => ?_
  rw [wp_bind]
  refine turn₁.wp_emitPlacement fun w₂ turn₂ => ?_
  rw [wp_bind]
  exact turn₂.wp_modifyJob next

/-- A job is tried.  If it goes on waiting, the policy does not place it. -/
theorem Going.wp_admitJob {Q : Unit → Working X → Prop}
    (going : Going executor issued job w₀ record w) (issues : Issues executor issued)
    (settled : record.Settled (executor.sim w)) (waiting : record.state = .waiting)
    (next : ∀ w', Reached executor issued job w₀ w' →
      (∀ record', w'.engine.jobs.find? job = some record' → record'.state = .waiting →
        ¬ w.engine.Fits record') → Q () w') :
    wp (WorkloadEngine.admitJob executor job) Q (fun _ _ => True) w := by
  have tolerates : Tolerates executor fun _ => True := ⟨.all executor, trivial, trivial, trivial⟩
  have turn := going.turn
  have valid := going.sound.valid
  have named := going.sound.named going.found
  obtain ⟨unplaced, announced, past⟩ := settled.of_waiting waiting
  unfold WorkloadEngine.admitJob
  rw [wp_bind, wp_get]
  dsimp only
  rw [wp_bind, wp_getOrThrow]
  refine ⟨fun configuration isConfiguration => ?_, fun _ => trivial⟩
  rw [wp_bind, wp_throwIf]
  refine ⟨fun _ => trivial, fun _ => ?_⟩
  rw [wp_bind, wp_getOrThrow]
  refine ⟨fun inventory isInventory => ?_, fun _ => trivial⟩
  rw [wp_bind, wp_getOrThrow]
  refine ⟨fun policy isPolicy => ?_, fun _ => trivial⟩
  rw [wp_bind]
  refine turn.wp_jobAt ?_
  rw [wp_bind, wp_fromExcept]
  refine ⟨fun placement answered => ?_, fun _ _ => trivial⟩
  rw [wp_bind, wp_fromExcept]
  refine ⟨fun _ checked => ?_, fun _ _ => trivial⟩
  -- the policy's answer, whichever it is, tells whether the job fits
  have unfit : placement.outcome ≠ .placed → ∀ reason,
      ¬ w.engine.Fits { record with reason } := by
    rintro other reason ⟨_, _, _, sameInventory, samePolicy, sameAnswer, placed⟩
    rw [isInventory] at sameInventory
    rw [isPolicy] at samePolicy
    cases sameInventory
    cases samePolicy
    rw [show WorkloadEngine.request { record with reason } = WorkloadEngine.request record from rfl,
      answered] at sameAnswer
    cases sameAnswer
    exact other placed
  rw [wp_bind]
  refine turn.wp_allocate (fun other => ?_) fun placed inventory' locality w₁ allocated turn₁ => ?_
  · refine turn.wp_decide fun w₂ turn₂ => ?_
    have going₂ := going.quiet issues (f := fun engine => engine.decided _) turn₂ rfl
      (fun _ _ known => known) .nil (fun shift => .declined settled waiting shift)
    have settled₂ : Record.Settled { record with reason := placement.reason } (executor.sim w₂) :=
      .waiting waiting (unplaced.reasoned _) announced (past.trans (turn₂.onward valid).now)
    cases outcome : placement.outcome with
    | placed => exact absurd outcome other
    | waiting =>
      refine next w₂ ⟨_, going₂, settled₂, fun _ assigned => ?_⟩ fun record' isRecord _ => ?_
      · exact absurd (unplaced.unassigned.symm.trans assigned) nofun
      · cases turn₂.found.symm.trans isRecord
        exact unfit other _
    | rejected =>
      refine going₂.wp_finish issues tolerates (by rw [waiting]; rfl) rfl nofun
        (fun _ => .inl settled₂) fun w' reached ended => next w' reached fun record' isRecord waits => ?_
      have terminal := ended record' isRecord
      rw [waits] at terminal
      cases terminal
  · refine turn₁.wp_decide fun w₂ turn₂ => ?_
    rw [placed]
    -- `checkPlacement` has refused a placement of any other size
    have count : placement.workers.length = record.spec.compute.length := by
      by_contra other
      unfold WorkloadEngine.checkPlacement at checked
      rw [if_pos (show placement.outcome = .placed ∧ _ from ⟨placed, .inl other⟩)] at checked
      split at checked <;> cases checked
    rw [named] at allocated
    rw [wp_bind]
    refine turn₂.wp_assign (by exact named) fun w₃ turn₃ => ?_
    rw [wp_bind]
    refine turn₃.wp_trace tolerates.excuses fun w₄ turn₄ => ?_
    rw [wp_bind]
    refine turn₄.wp_emitJob tolerates.excuses fun ledger₅ w₅ recorded₅ turn₅ => ?_
    have running : { record with reason := placement.reason }.state.terminal = false := by
      show record.state.terminal = false
      rw [waiting]
      rfl
    have placed₀ : Record.Resting _ _ (executor.sim w) :=
      (unplaced.reasoned placement.reason).placed running announced past count
    have resting := placed₀.onward (turn₅.onward valid)
    have going₅ := going.quiet issues turn₅ rfl (fun _ _ known => known) (.one recorded₅)
      (fun shift => .placed settled waiting isInventory allocated count shift)
    refine (Going.start going₅.orderly going₅.found).wp_startStep issues tolerates resting
      (unplaced.step ▸ going.accepted.steps_pos) fun w' reached => ?_
    refine next w' (reached.after going₅) fun record' isRecord waits => ?_
    -- a job that has been placed does not wait
    obtain ⟨final, last, settled', _⟩ := reached
    cases last.found.symm.trans isRecord
    exact absurd (last.begun going₅.orderly going₅.found (.inl rfl)) (settled'.not_begun waits)

/-! ## All waiting jobs -/

/-- A change that is about no job. -/
theorem Standing.changed {failing failing' : JobId → Prop} {handed : List JobSnapshot} {w' : Working X}
    (standing : Standing executor issued failing w)
    (change : Change (executor.desk w) handed (executor.desk w')) (outside : w'.outside = w.outside)
    (jobs : w'.engine.jobs = w.engine.jobs) (collectives : w'.engine.collectives = w.engine.collectives)
    (healthy : w'.engine.Healthy failing')
    (equipped : w'.engine.scheduling.isSome = w'.engine.inventory.isSome) :
    Standing executor issued failing' w' := by
  have sim : executor.sim w' = executor.sim w := by rw [CollectiveExecutor.sim, outside]; rfl
  refine ⟨⟨change.sound standing.orderly.sound,
    change.exclusive standing.orderly.sound standing.orderly.exclusive, ?_⟩, ?_, ?_, healthy, ?_, equipped⟩
  · rw [outside, collectives]
    exact standing.orderly.known
  · rw [jobs, sim]
    exact standing.settled
  · rw [jobs]
    exact standing.served
  · rw [jobs]
    exact standing.numbered

/-- A call has ended: it has taken the books on their course, and every job is settled again. -/
structure Done (executor : CollectiveExecutor X) (issued : X → CollectiveId → Prop)
    (w₀ : Working X) (handed : List JobSnapshot) (w : Working X) : Prop where
  standing : Standing executor issued (fun _ => False) w
  course : Course (executor.desk w₀) handed (executor.desk w)
  called : Called executor w₀.outside w.outside
  settings : w.engine.settings = w₀.engine.settings

namespace Done

variable {handed more : List JobSnapshot}

theorem refl (standing : Standing executor issued (fun _ => False) w) :
    Done executor issued w [] w := ⟨standing, .refl, .refl, rfl⟩

/-- A call about one job. -/
theorem reached {w₁ : Working X} (done : Done executor issued w₀ handed w₁)
    (reached : Reached executor issued job w₁ w) : Done executor issued w₀ handed w := by
  have standing := reached.standing done.standing
  obtain ⟨_, going, _⟩ := reached
  refine ⟨standing, ?_, done.called.trans going.called,
    (going.settings_eq done.standing.orderly).trans done.settings⟩
  have course := done.course.trans (.of_moves going.moves)
  rwa [List.append_nil] at course

/-- The flag says that a pass of admission is to come, or none. -/
theorem flagged {w₁ : Working X} (done : Done executor issued w₀ handed w₁) (pending : Bool) :
    Done executor issued w₀ handed
      { w₁ with engine := { w₁.engine with admissionPending := pending } } :=
  have change : Change (executor.desk w₁) [] (executor.desk
      { w₁ with engine := { w₁.engine with admissionPending := pending } }) := .flagged pending
  ⟨done.standing.changed change rfl rfl rfl done.standing.healthy done.standing.equipped,
    done.course.next change, done.called, done.settings⟩

end Done

/-- The jobs of a pass: those that wait, each once. -/
theorem mem_waitingJobs {engine : WorkloadEngine}
    (named : ∀ {job record}, engine.jobs.find? job = some record → record.id = job)
    {record : Record} : record ∈ WorkloadEngine.waitingJobs engine ↔
      engine.jobs.find? record.id = some record ∧ record.state = .waiting := by
  unfold WorkloadEngine.waitingJobs
  rw [List.mem_insertionSort, List.mem_filter, OrderedMap.values, List.mem_map, decide_eq_true_iff]
  refine and_congr_left fun _ => ⟨?_, fun found => ?_⟩
  · rintro ⟨⟨job, _⟩, member, rfl⟩
    have found := OrderedMap.find?_eq_some_iff.mpr member
    exact (named found).symm ▸ found
  · exact ⟨(record.id, record), OrderedMap.find?_eq_some_iff.mp found, rfl⟩

theorem nodup_waitingJobs {engine : WorkloadEngine}
    (named : ∀ {job record}, engine.jobs.find? job = some record → record.id = job) :
    ((WorkloadEngine.waitingJobs engine).map Record.id).Nodup := by
  -- every job is filed under its own identifier
  have keys : engine.jobs.values.map Record.id = engine.jobs.keys := by
    unfold OrderedMap.values OrderedMap.keys
    rw [List.map_map]
    refine List.map_congr_left fun entry member => ?_
    exact named (OrderedMap.find?_eq_some_iff.mpr member)
  have distinct : (engine.jobs.values.map Record.id).Nodup := keys ▸ engine.jobs.keys_nodup
  exact ((List.perm_insertionSort _ _).map Record.id).nodup_iff.mpr
    (distinct.sublist (List.filter_sublist.map Record.id))

/-- Where a pass has come. -/
structure Trying (executor : CollectiveExecutor X) (issued : X → CollectiveId → Prop)
    (w₀ : Working X) (rest : List Record) (w : Working X) : Prop where
  done : Done executor issued w₀ [] w
  distinct : (rest.map Record.id).Nodup
  waiting : ∀ record ∈ rest, w.engine.jobs.find? record.id = some record ∧ record.state = .waiting
  conserves : w₀.engine.IsSteady → w.engine.Conserves fun job => job ∈ rest.map Record.id

theorem Trying.wp_admitJob {rest : List Record} {record : Record}
    (trying : Trying executor issued w₀ (record :: rest) w) (issues : Issues executor issued) :
    wp (WorkloadEngine.admitJob executor record.id)
      (fun _ w' => Trying executor issued w₀ rest w') (fun _ _ => True) w := by
  have standing := trying.done.standing
  obtain ⟨here, others⟩ := List.forall_mem_cons.mp trying.waiting
  obtain ⟨first, distinct⟩ := List.nodup_cons.mp trying.distinct
  have settled := standing.settled here.1
  refine (Going.start standing.orderly here.1).wp_admitJob issues settled here.2
    fun w' reached unfit => ?_
  have done := trying.done.reached reached
  obtain ⟨last, going, settled', _⟩ := reached
  have elsewhere : ∀ {other}, other ≠ record.id →
      w'.engine.jobs.find? other = w.engine.jobs.find? other := going.elsewhere
  refine ⟨done, distinct, fun other member => ?_, fun steady job r isRecord waits free fits => ?_⟩
  · have differs : other.id ≠ record.id := fun same => first (List.mem_map.mpr ⟨other, member, same⟩)
    rw [elsewhere differs]
    exact others other member
  · -- what fits now would have fitted before this job was tried
    have without := (settled.of_waiting here.2).1.holds
    have fits := fits.back standing.orderly.exclusive (going.settings_eq standing.orderly)
      (steady.of_settings trying.done.settings) (going.machines_eq standing.orderly)
      fun _ _ isInventory isInventory' => going.busier standing.orderly here.1 without isInventory
        isInventory'
    by_cases isJob : job = record.id
    · subst isJob
      exact absurd fits (unfit r isRecord waits)
    · rw [elsewhere isJob] at isRecord
      rcases List.mem_cons.mp (trying.conserves steady job r isRecord waits free fits) with same | later
      · exact absurd same isJob
      · exact later

/-- A pass tries all jobs that wait; afterwards none waits that could be placed. -/
theorem Standing.wp_dispatchWaiting (standing : Standing executor issued (fun _ => False) w)
    (issues : Issues executor issued) :
    wp (WorkloadEngine.dispatchWaiting executor) (fun _ w' => Done executor issued w [] w' ∧
      (w.engine.IsSteady → w.engine.Conserving → w'.engine.Conserves fun _ => False) ∧
      (w.engine.inventory.isSome = true → w'.engine.admissionPending = false))
      (fun _ _ => True) w := by
  have named : ∀ {job record}, w.engine.jobs.find? job = some record → record.id = job :=
    standing.orderly.sound.named
  unfold WorkloadEngine.dispatchWaiting
  rw [wp_bind, wp_get]
  dsimp only
  rw [wp_runIf]
  refine ⟨fun _ => ?_, fun idle => ⟨.refl standing, fun steady conserving => ?_, fun scheduler => ?_⟩⟩
  · rw [wp_bind]
    show wp _ _ _ ({ w with engine := { w.engine with admissionPending := false } } : Working X)
    rw [wp_bind]
    -- the flag is down, and every job that waits is yet to be tried
    have start : Trying executor issued w (WorkloadEngine.waitingJobs w.engine)
        { w with engine := { w.engine with admissionPending := false } } :=
      { done := (Done.refl standing).flagged false
        distinct := nodup_waitingJobs named
        waiting := fun record member => (mem_waitingJobs named).mp member
        conserves := fun _ job record isRecord waits _ _ => by
          have same := named isRecord
          exact List.mem_map.mpr ⟨record, (mem_waitingJobs named).mpr ⟨same ▸ isRecord, waits⟩, same⟩ }
    refine wp_mono (wp_forM (Trying executor issued w) _ (fun _ _ => True)
      (fun record rest w₁ trying => trying.wp_admitJob issues) _ _ start) (fun _ w₁ tried => ?_)
      (fun _ _ _ => trivial)
    refine ⟨tried.done.flagged false, fun steady _ job record isRecord waits free fits => ?_,
      fun _ => rfl⟩
    exact absurd (tried.conserves steady job record isRecord waits free fits) List.not_mem_nil
  · -- no pass is due, or there is no scheduler
    rcases conserving with pending | conserves
    · intro job record isRecord waits free fits
      obtain ⟨inventory, _, _, isInventory, _⟩ := fits
      exact absurd ⟨pending, by rw [isInventory]; rfl⟩ idle
    · exact conserves
  · rw [scheduler] at idle
    simpa using idle

end NexusLab.Workload
