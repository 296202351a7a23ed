import NexusLab.Sim.Onward
import NexusLab.Workload.Accounts

/-! # The turn of a job

A call of the engine works on one job at a time.  `Turn` says how far it has come: what the record of
the job, the rest of the engine and the ledger are by now, and that the simulation and the executor
have only been called.  Each step of a call has its rule here.
-/

namespace NexusLab.Workload

open Foundation Sim Telemetry Collective

/-! ## Errors -/

/-- The errors `E` cover what the parts that the engine is given may throw, and what has run out. -/
structure Excuses {X : Type} (executor : CollectiveExecutor X) (E : Error → Prop) : Prop where
  telemetry : ∀ e, e.origin = .telemetry → E e
  finished : E (.logicError "cannot schedule on a finished simulation")
  exhausted : E (.overflowError "event ID sequence exhausted")
  timeline : E (.lengthError "workload timeline limit exceeded")
  time : E (.overflowError "compute event time overflow")
  submit : ∀ {request : CollectiveRequest} {x x' : X} {e : Error},
    executor.submit request x = .error e x' → E e
  cancel : ∀ {id : CollectiveId} {x x' : X} {e : Error}, executor.cancel id x = .error e x' → E e

theorem Excuses.all {X : Type} (executor : CollectiveExecutor X) :
    Excuses executor fun _ => True :=
  ⟨fun _ _ => trivial, trivial, trivial, trivial, trivial, fun _ => trivial, fun _ => trivial⟩

/-- The engine with one more entry of the timeline. -/
def WorkloadEngine.traced (engine : WorkloadEngine) (record : Record) (time : SimTimeNs)
    (action : String) : WorkloadEngine :=
  { engine with
    timeline := engine.timeline ++ [⟨record.id, time, record.state, record.step,
      record.completedBuckets, action, record.activeCollective⟩] }

section Rules

variable {X : Type} {executor : CollectiveExecutor X}

def CollectiveExecutor.sim (executor : CollectiveExecutor X) (w : Working X) : Simulation :=
  (executor.kernel.get w.outside).sim

def CollectiveExecutor.ledger (executor : CollectiveExecutor X) (w : Working X) : Ledger :=
  (executor.kernel.get w.outside).ledger

/-- The simulation in the rest of the program. -/
def CollectiveExecutor.simOf (executor : CollectiveExecutor X) (x : X) : Simulation :=
  (executor.kernel.get x).sim

/-- The event of this identifier is one of the engine's, if it is still to come. -/
def Owned (sim : Simulation) (id : EventId) : Prop :=
  ∃ specification event, specification.payload = .workload event ∧ Expects sim id specification

theorem Owned.onward {sim sim' : Simulation} {id : EventId} (owned : Owned sim id)
    (onward : Onward sim sim') : Owned sim' id := by
  obtain ⟨specification, event, payload, expected⟩ := owned
  exact ⟨specification, event, payload, onward.expects expected⟩

/-- One call of the engine into the rest of the program. -/
inductive Call (executor : CollectiveExecutor X) : X → X → Prop where
  | observe {x : X} (probe : Instrumentation) :
    Call executor x (executor.kernel.set { executor.kernel.get x with probe } x)
  | schedule {x : X} {event : WorkloadEvent} {time : SimTimeNs} {priority : EventPriority}
    {id : EventId} {k : Kernel}
    (ok : Kernel.schedule ⟨time, priority, .workload event⟩ (executor.kernel.get x) = .ok id k) :
    Call executor x (executor.kernel.set k x)
  | cancelEvent {x : X} {id : EventId} {known : Bool} {k : Kernel}
    (owned : Owned (executor.simOf x) id)
    (ok : Kernel.cancel id (executor.kernel.get x) = .ok known k) :
    Call executor x (executor.kernel.set k x)
  | submit {x x' : X} {request : CollectiveRequest} {id : CollectiveId}
    (ok : executor.submit request x = .ok id x') : Call executor x x'
  | cancel {x x' : X} {id : CollectiveId} (ok : executor.cancel id x = .ok () x') :
    Call executor x x'

/-- What the calls of the engine make of the rest of the program. -/
abbrev Called (executor : CollectiveExecutor X) : X → X → Prop :=
  Relation.ReflTransGen (Call executor)

/-- Since `x` the record of the job has become `record`, the rest of the engine `engine`, and the
ledger `ledger`. -/
structure Turn (executor : CollectiveExecutor X) (x : X) (job : JobId) (engine : WorkloadEngine)
    (record : Record) (ledger : Ledger) (w : Working X) : Prop where
  engine_eq : w.engine = { engine with jobs := engine.jobs.insert job record }
  ledger_eq : executor.ledger w = ledger
  evolves : Evolves (executor.simOf x) (executor.sim w)
  called : Called executor x w.outside

variable {E : Error → Prop} {x : X} {job : JobId} {engine : WorkloadEngine} {record : Record}
  {ledger : Ledger} {w : Working X}

namespace Turn

theorem start {record : Record} (found : w.engine.jobs.find? job = some record) :
    Turn executor w.outside job w.engine record (executor.ledger w) w :=
  ⟨by rw [OrderedMap.insert_of_find? found], rfl, .refl _, .refl⟩

theorem found (turn : Turn executor x job engine record ledger w) :
    w.engine.jobs.find? job = some record := by
  rw [turn.engine_eq]
  exact OrderedMap.find?_insert_self _ _ _

/-- The rest of a call, seen from where it has come. -/
theorem rebased (turn : Turn executor x job engine record ledger w) :
    Turn executor w.outside job engine record ledger w :=
  ⟨turn.engine_eq, turn.ledger_eq, .refl _, .refl⟩

theorem after {earlier : X} (turn : Turn executor x job engine record ledger w)
    (evolves : Evolves (executor.simOf earlier) (executor.simOf x))
    (called : Called executor earlier x) : Turn executor earlier job engine record ledger w :=
  ⟨turn.engine_eq, turn.ledger_eq, evolves.trans turn.evolves, called.trans turn.called⟩

theorem now (turn : Turn executor x job engine record ledger w) :
    (executor.sim w).now = (executor.simOf x).now := turn.evolves.now

theorem onward (turn : Turn executor x job engine record ledger w)
    (valid : (executor.simOf x).Valid) : Onward (executor.simOf x) (executor.sim w) :=
  .of_evolves valid turn.evolves

theorem wp_modifyJob {f : Record → Record} {Q : Unit → Working X → Prop}
    {E : Error → Working X → Prop} (turn : Turn executor x job engine record ledger w)
    (next : ∀ w', Turn executor x job engine (f record) ledger w' → Q () w') :
    wp (WorkloadEngine.modifyJob job f) Q E w := by
  refine next _ ⟨?_, turn.ledger_eq, turn.evolves, turn.called⟩
  have adjusted : (engine.jobs.insert job record).adjust job f = engine.jobs.insert job (f record) := by
    refine OrderedMap.ext_find? fun other => ?_
    by_cases same : other = job
    · subst same
      simp
    · simp [same]
  show { w.engine with jobs := w.engine.jobs.adjust job f } = _
  rw [turn.engine_eq, adjusted]

theorem wp_modifyEngine {f : WorkloadEngine → WorkloadEngine} {Q : Unit → Working X → Prop}
    {E : Error → Working X → Prop} (turn : Turn executor x job engine record ledger w)
    (apart : ∀ engine jobs, f { engine with jobs } = { f engine with jobs })
    (jobs : (f engine).jobs = engine.jobs)
    (next : ∀ w', Turn executor x job (f engine) record ledger w' → Q () w') :
    wp (WorkloadEngine.modifyEngine f) Q E w := by
  refine next _ ⟨?_, turn.ledger_eq, turn.evolves, turn.called⟩
  show f w.engine = _
  rw [turn.engine_eq, apart, jobs]

theorem wp_jobAt {Q : Record → Working X → Prop} {E : Error → Working X → Prop}
    (turn : Turn executor x job engine record ledger w) (next : Q record w) :
    wp (WorkloadEngine.jobAt job) Q E w := by
  simp only [WorkloadEngine.jobAt, wp_bind, wp_get, wp_getOrThrow, turn.found]
  exact ⟨fun _ same => (Option.some.inj same) ▸ next, by rintro ⟨⟩⟩

theorem wp_now {Q : SimTimeNs → Working X → Prop} {E : Error → Working X → Prop}
    (turn : Turn executor x job engine record ledger w) (next : Q (executor.simOf x).now w) :
    wp (WorkloadEngine.now executor) Q E w := by
  show Q (executor.sim w).now w
  rw [turn.now]
  exact next

/-! Calls of the simulation. -/

/-- The world after the kernel has changed. -/
def withKernel (executor : CollectiveExecutor X) (k : Kernel) (w : Working X) : Working X :=
  { w with outside := executor.kernel.set k w.outside }

theorem wp_onKernel {α : Type} {m : Action Kernel α} {Q : α → Working X → Prop}
    {E : Error → Working X → Prop} :
    wp (WorkloadEngine.onKernel executor m) Q E w ↔
      wp m (fun a k => Q a (withKernel executor k w)) (fun e k => E e (withKernel executor k w))
        (executor.kernel.get w.outside) := by
  unfold WorkloadEngine.onKernel WorkloadEngine.onOutside
  rw [wp_zoom, wp_zoom]
  rfl

theorem withKernel_kernel (k : Kernel) :
    executor.kernel.get (withKernel executor k w).outside = k := executor.kernel.get_set _ _

theorem sim_withKernel (k : Kernel) : executor.sim (withKernel executor k w) = k.sim :=
  congrArg Kernel.sim (withKernel_kernel k)

theorem moved (turn : Turn executor x job engine record ledger w) {k : Kernel}
    (evolves : Evolves (executor.sim w) k.sim)
    (call : Call executor w.outside (withKernel executor k w).outside) :
    Turn executor x job engine record k.ledger (withKernel executor k w) := by
  refine ⟨turn.engine_eq, ?_, turn.evolves.trans ?_, turn.called.tail call⟩
  · rw [CollectiveExecutor.ledger, withKernel_kernel]
  · rwa [sim_withKernel]

/-- A telemetry step. -/
theorem observed (turn : Turn executor x job engine record ledger w) {k : Kernel}
    (same : ∃ probe, k = { executor.kernel.get w.outside with probe }) :
    Turn executor x job engine record k.ledger (withKernel executor k w) := by
  obtain ⟨probe, rfl⟩ := same
  exact turn.moved (.refl _) (.observe probe)

/-- A telemetry step that is about no job. -/
theorem wp_quiet {m : Kernel → Action Instrumentation Unit} {Q : Unit → Working X → Prop}
    (turn : Turn executor x job engine record ledger w) (excuses : Excuses executor E)
    (free : ∀ k, JobFree (m k))
    (next : ∀ w', Turn executor x job engine record ledger w' → Q () w') :
    wp (WorkloadEngine.onKernel executor (Kernel.observe m)) Q (fun e _ => E e) w := by
  rw [wp_onKernel]
  have kept := preserves_observe (P := fun k => k.ledger = ledger) (m := m)
    (fun _ _ same kept => kept.trans same) free (executor.kernel.get w.outside) turn.ledger_eq
  refine wp_mono (wp_and (Kernel.wp_observe
    (Q := fun _ k => ∃ probe, k = { executor.kernel.get w.outside with probe })
    (E := fun e _ => e.origin = .telemetry) (fun probe _ => ⟨probe, rfl⟩)
    (fun _ _ origin _ => origin)) kept)
    (fun _ k both => next _ ?_) (fun e _ both => excuses.telemetry e both.1)
  have observed := turn.observed both.1
  rwa [both.2] at observed

/-- A report about the job. -/
theorem wp_emitJob {transition : JobTransition} {worker : Nat} {Q : Unit → Working X → Prop}
    (turn : Turn executor x job engine record ledger w) (excuses : Excuses executor E)
    (next : ∀ ledger' w', ledger.Recorded record.id (executor.simOf x).now transition
      record.activeCollective.isSome ledger' →
      Turn executor x job engine record ledger' w' → Q () w') :
    wp (WorkloadEngine.emitJob executor job transition worker) Q (fun e _ => E e) w := by
  unfold WorkloadEngine.emitJob
  rw [wp_bind]
  refine turn.wp_jobAt ?_
  rw [wp_onKernel]
  refine wp_mono (wp_and (@wp_observe_job _ _ record.id (executor.simOf x).now transition
    record.activeCollective.isSome ?_) (Kernel.wp_observe
    (Q := fun _ k => ∃ probe, k = { executor.kernel.get w.outside with probe })
    (E := fun _ _ => True) (fun probe _ => ⟨probe, rfl⟩) (fun _ _ _ _ => trivial)))
    (fun _ k both => ?_) (fun e _ both => excuses.telemetry e both.1)
  · simp only [wp_bind, wp_fromExcept]
    refine ⟨fun correlation _ => ?_, fun _ _ => trivial⟩
    have time : (executor.kernel.get w.outside).sim.now = (executor.simOf x).now := turn.now
    rw [time]
    exact wp_record_job rfl _
  · have recorded : (executor.ledger w).Recorded record.id (executor.simOf x).now transition
        record.activeCollective.isSome k.ledger := both.1.2
    rw [turn.ledger_eq] at recorded
    exact next _ _ recorded (turn.observed both.2)

/-- A new event is as it was asked for, and its identifier follows on those of before. -/
theorem wp_asks {time : SimTimeNs} {priority : EventPriority} {event : WorkloadEvent}
    {Q : EventId → Working X → Prop} (excuses : Excuses executor E)
    (valid : (executor.sim w).Valid)
    (past : time < (executor.sim w).now →
      E (.invalidArgument "cannot schedule an event in the simulated past"))
    (next : ∀ id w', w'.engine = w.engine → executor.ledger w' = executor.ledger w →
      Evolves (executor.sim w) (executor.sim w') →
      (∀ value, (executor.sim w).eventIds.Issued value → value < id.value) →
      Promised id ⟨time, priority, .workload event⟩ (executor.sim w') →
      Call executor w.outside w'.outside → Q id w') :
    wp (WorkloadEngine.onKernel executor (Kernel.schedule ⟨time, priority, .workload event⟩)) Q
      (fun e _ => E e) w := by
  rw [wp_onKernel]
  have kept := (callKept_ledger (executor.ledger w)).schedule ⟨time, priority, .workload event⟩
    (executor.kernel.get w.outside) rfl
  have answered := wp_intro (m := Kernel.schedule ⟨time, priority, .workload event⟩)
    (Q := fun id k => Kernel.schedule ⟨time, priority, .workload event⟩
      (executor.kernel.get w.outside) = .ok id k)
    (E := fun _ _ => True) (s := executor.kernel.get w.outside) (fun _ _ ok => ok)
    (fun _ _ _ => trivial)
  refine wp_mono (wp_and (wp_and (Kernel.wp_schedule_full
    (Q := fun id k => (∀ value, (executor.sim w).eventIds.Issued value → value < id.value) ∧
      Promised id ⟨time, priority, .workload event⟩ k.sim ∧ Evolves (executor.sim w) k.sim)
    (E := fun e _ => E e) valid ?_ ?_ ?_ ?_
    (fun e _ origin _ => excuses.telemetry e origin)) kept) answered) (fun id k all => ?_)
    (fun e _ all => all.1.1)
  · exact fun _ => excuses.finished
  · exact fun _ => past
  · exact fun _ _ _ => excuses.exhausted
  · intro opened future remaining probe _
    refine ⟨fun value issued => ?_, .scheduled valid _ remaining,
      .step (.scheduled _ opened future remaining)⟩
    have left : (executor.sim w).eventIds.exhausted = false := remaining
    exact issued.resolve_right (by simp [left])
  · obtain ⟨⟨⟨follows, promised, evolves⟩, same⟩, ok⟩ := all
    rw [← sim_withKernel (w := w) k] at promised evolves
    refine next id (withKernel executor k w) rfl ?_ evolves follows promised (.schedule ok)
    rw [CollectiveExecutor.ledger, withKernel_kernel]
    exact same

theorem wp_schedule {time : SimTimeNs} {priority : EventPriority} {event : WorkloadEvent}
    {Q : EventId → Working X → Prop} (turn : Turn executor x job engine record ledger w)
    (excuses : Excuses executor E) (valid : (executor.simOf x).Valid)
    (ahead : (executor.simOf x).now ≤ time)
    (next : ∀ id w', Evolves (executor.sim w) (executor.sim w') →
      (∀ value, (executor.sim w).eventIds.Issued value → value < id.value) →
      Promised id ⟨time, priority, .workload event⟩ (executor.sim w') →
      Turn executor x job engine record ledger w' → Q id w') :
    wp (WorkloadEngine.onKernel executor (Kernel.schedule ⟨time, priority, .workload event⟩)) Q
      (fun e _ => E e) w := by
  refine wp_asks excuses (turn.evolves.valid valid) (fun past => ?_)
    fun id w' engine_eq ledger_eq evolves follows promised call => ?_
  · rw [turn.now] at past
    exact absurd past (not_lt.mpr ahead)
  · exact next id w' evolves follows promised ⟨engine_eq.trans turn.engine_eq,
      ledger_eq.trans turn.ledger_eq, turn.evolves.trans evolves, turn.called.tail call⟩

theorem wp_cancel {id : EventId} {Q : Bool → Working X → Prop}
    (turn : Turn executor x job engine record ledger w) (excuses : Excuses executor E)
    (owned : Owned (executor.sim w) id)
    (next : ∀ answer w', Turn executor x job engine record ledger w' → Q answer w') :
    wp (WorkloadEngine.onKernel executor (Kernel.cancel id)) Q (fun e _ => E e) w := by
  rw [wp_onKernel]
  have kept := (callKept_ledger ledger).cancel id (executor.kernel.get w.outside) turn.ledger_eq
  have answered := wp_intro (m := Kernel.cancel id)
    (Q := fun known k => Kernel.cancel id (executor.kernel.get w.outside) = .ok known k)
    (E := fun _ _ => True) (s := executor.kernel.get w.outside) (fun _ _ ok => ok)
    (fun _ _ _ => trivial)
  refine wp_mono (wp_and (wp_and (Kernel.wp_cancel_full
    (Q := fun _ k => Evolves (executor.sim w) k.sim)
    (E := fun e _ => E e) (fun _ _ _ => .refl _)
    (fun _ pending _ _ _ => .step (.cancelled id pending))
    (fun e _ origin _ => excuses.telemetry e origin)) kept) answered)
    (fun answer k all => next _ _ ?_) (fun e _ all => all.1.1)
  have moved := turn.moved all.1.1 (.cancelEvent owned all.2)
  rwa [all.1.2] at moved

theorem wp_currentEventId {event : Event} {Q : EventId → Working X → Prop}
    {E : Error → Working X → Prop} (turn : Turn executor x job engine record ledger w)
    (current : (executor.simOf x).currentEvent = some event) (next : Q event.id w) :
    wp (WorkloadEngine.onKernel executor Kernel.currentEventId) Q E w := by
  have isCurrent : (executor.kernel.get w.outside).sim.currentEvent = some event :=
    turn.evolves.currentEvent.trans current
  have same : withKernel executor (executor.kernel.get w.outside) w = w := by
    unfold withKernel
    rw [executor.kernel.set_get]
  rw [wp_onKernel]
  simp only [Kernel.currentEventId, wp_bind, wp_get, wp_getOrThrow, wp_pure, isCurrent, same]
  exact ⟨fun other isOther => (Option.some.inj isOther) ▸ next, by rintro ⟨⟩⟩

/-! Calls of the executor. -/

theorem wp_submit {request : CollectiveRequest} {Q : CollectiveId → Working X → Prop}
    (turn : Turn executor x job engine record ledger w) (excuses : Excuses executor E)
    (valid : (executor.simOf x).Valid)
    (next : ∀ id w', executor.submit request w.outside = .ok id w'.outside →
      Turn executor x job engine record ledger w' → Q id w') :
    wp (WorkloadEngine.onOutside (executor.submit request)) Q (fun e _ => E e) w := by
  unfold WorkloadEngine.onOutside
  rw [wp_zoom]
  have calls := wp_throughCalls (executor.submit_calls request) (turn.evolves.valid valid)
  refine wp_mono (wp_and calls (wp_intro
    (Q := fun id y => executor.submit request w.outside = .ok id y)
    (E := fun e _ => E e) (fun _ _ ok => ok) (fun _ _ threw => excuses.submit threw)))
    (fun id y both => next id { w with outside := y } both.2 ?_) (fun _ _ both => both.2)
  exact ⟨turn.engine_eq, both.1.2.trans turn.ledger_eq, turn.evolves.trans both.1.1,
    turn.called.tail (.submit both.2)⟩

theorem wp_cancelCollective {id : CollectiveId} {Q : Unit → Working X → Prop}
    (turn : Turn executor x job engine record ledger w) (excuses : Excuses executor E)
    (valid : (executor.simOf x).Valid)
    (next : ∀ w', Turn executor x job engine record ledger w' → Q () w') :
    wp (WorkloadEngine.onOutside (executor.cancel id)) Q (fun e _ => E e) w := by
  unfold WorkloadEngine.onOutside
  rw [wp_zoom]
  have calls := wp_throughCalls (executor.cancel_calls id) (turn.evolves.valid valid)
  refine wp_mono (wp_and calls (wp_intro
    (Q := fun _ y => executor.cancel id w.outside = .ok () y)
    (E := fun e _ => E e) (fun _ _ ok => ok) (fun _ _ threw => excuses.cancel threw)))
    (fun _ y both => next { w with outside := y } ?_) (fun _ _ both => both.2)
  exact ⟨turn.engine_eq, both.1.2.trans turn.ledger_eq, turn.evolves.trans both.1.1,
    turn.called.tail (.cancel both.2)⟩

/-! Loops and notes. -/

theorem wp_forM {α : Type} {f : α → Action (Working X) PUnit} {E : Error → Working X → Prop}
    {as : List α} {Q : Unit → Working X → Prop}
    (turn : Turn executor x job engine record ledger w)
    (step : ∀ a ∈ as, ∀ w, Turn executor x job engine record ledger w →
      wp (f a) (fun _ w' => Turn executor x job engine record ledger w') E w)
    (next : ∀ w', Turn executor x job engine record ledger w' → Q () w') :
    wp (as.forM f) Q E w := by
  have all := Foundation.wp_forM (fun rest w => (∀ a ∈ rest, a ∈ as) ∧
    Turn executor x job engine record ledger w) f E (fun a rest w h => by
      obtain ⟨here, later⟩ := List.forall_mem_cons.mp h.1
      exact wp_mono (step a here w h.2) (fun _ _ turn => ⟨later, turn⟩) (fun _ _ h => h)) as w
  exact wp_mono (all ⟨fun _ member => member, turn⟩) (fun _ w' h => next w' h.2) (fun _ _ h => h)

theorem wp_trace {action : String} {Q : Unit → Working X → Prop}
    (turn : Turn executor x job engine record ledger w) (excuses : Excuses executor E)
    (next : ∀ w', Turn executor x job (engine.traced record (executor.simOf x).now action) record
      ledger w' → Q () w') :
    wp (WorkloadEngine.trace executor job action) Q (fun e _ => E e) w := by
  unfold WorkloadEngine.trace
  rw [wp_bind]
  refine turn.wp_jobAt ?_
  rw [wp_bind]
  refine turn.wp_now ?_
  simp only [wp_bind, wp_get, wp_throwIf]
  refine ⟨fun _ => excuses.timeline, fun _ => ?_⟩
  exact turn.wp_modifyEngine (fun _ _ => rfl) rfl next

end Turn

end Rules

end NexusLab.Workload
