import NexusLab.Sim.KernelSpec

/-! # What the components may do to the simulation

A component reaches the simulation through the calls of its context, and the telemetry through its
sink.  `CallKept` properties are those that no such call undoes, so they survive whatever a component
does (`ThroughCalls`).

* `Evolves` is what all calls together may make of a simulation.
* `Ledger` is the part of the telemetry that only reports about jobs change.
* `ThroughCalls.bind` and the rules beside it read the property off the text of an action.
-/

namespace NexusLab.Sim

open Foundation Telemetry

/-! ## The ledger of the jobs -/

/-- Whether there is telemetry, and what it attributes to the jobs. -/
structure Ledger where
  enabled : Bool
  jobs : Option (OrderedMap JobId JobState)

def sessionLedger (s : TelemetrySession) : Ledger := ⟨s.enabled, s.summary.map SummaryBuilder.jobs⟩

def Instrumentation.ledger (p : Instrumentation) : Ledger := sessionLedger p.session

def Kernel.ledger (k : Kernel) : Ledger := k.probe.ledger

/-- The ledger after a job has been reported. -/
def Ledger.Recorded (l : Ledger) (job : JobId) (timestamp : SimTimeNs) (transition : JobTransition)
    (collectiveActive : Bool) (l' : Ledger) : Prop :=
  if l.enabled then
    ∃ jobs next, l.jobs = some jobs ∧
      jobTransition (jobs.find? job) job timestamp transition collectiveActive = .ok next ∧
      l' = { l with jobs := some (jobs.insert job next) }
  else l' = l

/-- A report that is about no job. -/
def JobFree {α : Type} (m : Action Instrumentation α) : Prop :=
  ∀ l, Keeps (fun p => p.ledger = l) m

theorem keeps_modify {σ : Type} {P : σ → Prop} {f : σ → σ} (kept : ∀ s, P s → P (f s)) :
    Keeps (ε := Error) P (modify f) := fun s h => kept s h

theorem keeps_zoom {σ τ α : Type} {P : σ → Prop} (l : Lens σ τ) {m : Action τ α}
    (kept : ∀ s, P s → wp m (fun _ t => P (l.set t s)) (fun _ t => P (l.set t s)) (l.get s)) :
    Keeps P (zoom l m) := by
  intro s h
  rw [wp_zoom]
  exact kept s h

/-- An observation that is about no job leaves the summary's jobs. -/
theorem keeps_consume {timestamp : SimTimeNs} {correlation : Correlation}
    {observation : TelemetryObservation} (free : ∀ value, observation ≠ .job value)
    (jobs : OrderedMap JobId JobState) : Keeps (fun b : SummaryBuilder => b.jobs = jobs)
      (SummaryBuilder.consume timestamp correlation observation) := by
  unfold SummaryBuilder.consume
  refine Keeps.get.bind fun b => (Keeps.fromExcept _).bind fun _ => Keeps.bind ?_ fun _ => ?_
  · exact keeps_zoom _ fun s h => wp_intro (fun _ _ _ => h) (fun _ _ _ => h)
  · cases observation with
    | job value => exact absurd rfl (free value)
    | _ => exact keeps_modify fun _ h => h

theorem keeps_onSummary {m : Action SummaryBuilder Unit} (l : Ledger)
    (kept : ∀ jobs, Keeps (fun b : SummaryBuilder => b.jobs = jobs) m) :
    Keeps (fun s => sessionLedger s = l) (TelemetrySession.onSummary m) := by
  intro s h
  unfold TelemetrySession.onSummary TelemetrySession.requireSummary
  simp only [wp_bind, wp_get, wp_getOrThrow]
  refine ⟨fun b isSummary => ?_, fun _ => h⟩
  have spec := kept b.jobs b rfl
  have written : ∀ next : SummaryBuilder, next.jobs = b.jobs →
      sessionLedger { s with summary := some next } = l := by
    intro next same
    rw [← h]
    simp only [sessionLedger, isSummary, Option.map_some, same]
    rfl
  unfold wp at spec
  cases run : m b with
  | ok _ next =>
    rw [run] at spec
    simp only [wp_modify]
    exact written next spec
  | error e next =>
    rw [run] at spec
    simp only [wp_bind, wp_modify, wp_throw]
    exact written next spec

theorem keeps_emitFrames (l : Ledger) (timestamp : SimTimeNs) (inclusive : Bool) : ∀ fuel,
    Keeps (fun s => sessionLedger s = l)
      (TelemetrySession.emitFrames timestamp inclusive fuel)
  | 0 => .pure _
  | fuel + 1 => by
    unfold TelemetrySession.emitFrames
    refine Keeps.get.bind fun s => ?_
    cases s.nextSampleTimestamp with
    | none => exact .pure _
    | some next =>
      refine Keeps.runIf (Keeps.bind ?_ fun _ => Keeps.bind (keeps_modify ?_) fun _ =>
        keeps_emitFrames l timestamp inclusive fuel)
      · unfold TelemetrySession.appendSampleFrame TelemetrySession.requireSummary
        exact (Keeps.get.bind fun _ => Keeps.getOrThrow _ _).bind fun _ => Keeps.get.bind fun _ =>
          (Keeps.throwIf _).bind fun _ => keeps_modify fun _ h => h
      · intro s h
        unfold TelemetrySession.advanceSampleTimestamp
        split <;> exact h

theorem keeps_emitSamplesUntil (l : Ledger) (timestamp : SimTimeNs) (inclusive : Bool) :
    Keeps (fun s => sessionLedger s = l)
      (TelemetrySession.emitSamplesUntil timestamp inclusive) := by
  unfold TelemetrySession.emitSamplesUntil
  refine Keeps.get.bind fun _ => Keeps.runIf (Keeps.bind ?_ fun snapshots => ?_)
  · unfold TelemetrySession.requireSummary
    exact Keeps.get.bind fun _ => Keeps.getOrThrow _ _
  · refine Keeps.ite (keeps_emitFrames l timestamp inclusive _) (keeps_modify fun s h => ?_)
    unfold TelemetrySession.skipEmptySampleBoundaries
    cases s.nextSampleTimestamp with
    | none => exact h
    | some first =>
      dsimp only
      generalize (if inclusive = true then timestamp else timestamp - 1) = lastEligible
      split
      · exact h
      · split
        · exact h
        · split <;> exact h

theorem keeps_retain (l : Ledger) {timestamp : SimTimeNs} {correlation : Correlation}
    {observation : TelemetryObservation} (edges : Nat) : Keeps (fun s => sessionLedger s = l)
      (modify (TelemetrySession.retain timestamp correlation observation edges) :
        Action TelemetrySession Unit) := by
  refine keeps_modify fun s h => ?_
  unfold TelemetrySession.retain
  dsimp only
  split <;> split <;> exact h

namespace JobFree

variable {α β : Type}

theorem bind {m : Action Instrumentation α} {f : α → Action Instrumentation β} (first : JobFree m)
    (second : ∀ a, JobFree (f a)) : JobFree (m >>= f) := fun l =>
  (first l).bind fun a => second a l

theorem runIf {c : Prop} [Decidable c] {m : Action Instrumentation Unit} (free : JobFree m) :
    JobFree (runIf c m) := fun l => Keeps.runIf (free l)

theorem fromExcept (r : Except Error α) : JobFree (fromExcept r) := fun _ => Keeps.fromExcept r

theorem throwIf {c : Prop} [Decidable c] (e : Error) : JobFree (throwIf c e) :=
  fun _ => Keeps.throwIf e

theorem get : JobFree (MonadState.get : Action Instrumentation Instrumentation) :=
  fun _ => Keeps.get

theorem throw (e : Error) : JobFree (MonadExcept.throw e : Action Instrumentation α) :=
  fun _ => Keeps.throw e

theorem modify {f : Instrumentation → Instrumentation} (kept : ∀ p, (f p).ledger = p.ledger) :
    JobFree (modify f) := fun _ => keeps_modify fun p h => (kept p).trans h

theorem catching {m : Action Instrumentation α} {f : Error → Action Instrumentation α}
    (body : JobFree m) (handler : ∀ e, JobFree (f e)) : JobFree (catching m f) := fun l =>
  Keeps.catching (body l) fun e => handler e l

end JobFree

theorem jobFree_record {timestamp : SimTimeNs} {correlation : Correlation}
    {observation : TelemetryObservation} (free : ∀ value, observation ≠ .job value) :
    JobFree (Instrumentation.record timestamp correlation observation) := by
  intro l
  have session : Keeps (fun s => sessionLedger s = l)
      (TelemetrySession.record timestamp correlation observation) := by
    unfold TelemetrySession.record TelemetrySession.requireSummary
    refine Keeps.get.bind fun s => Keeps.runIf (Keeps.get.bind fun s => (Keeps.throwIf _).bind
      fun _ => (Keeps.throwIf _).bind fun _ => ?_)
    have rest : ∀ {m : Action TelemetrySession Unit}, Keeps (fun s => sessionLedger s = l) m →
        Keeps (fun s => sessionLedger s = l) (do
          fromExcept ((← TelemetrySession.requireSummary).validate timestamp correlation observation)
          TelemetrySession.emitSamplesUntil timestamp false
          TelemetrySession.onSummary (SummaryBuilder.consume timestamp correlation observation)
          m
          modify fun s => { s with lastTimestamp := some timestamp }) := by
      intro m kept
      unfold TelemetrySession.requireSummary
      exact (Keeps.get.bind fun _ => Keeps.getOrThrow _ _).bind fun _ =>
        (Keeps.fromExcept _).bind fun _ => (keeps_emitSamplesUntil l _ _).bind fun _ =>
        (keeps_onSummary l (keeps_consume free)).bind fun _ => kept.bind fun _ =>
        keeps_modify fun s h => h
    exact Keeps.ite ((Keeps.fromExcept _).bind fun edges => rest (Keeps.runIf (keeps_retain l edges)))
      (rest (Keeps.runIf (keeps_retain l _)))
  exact keeps_zoom _ fun p h => session p.session h

/-! ## Reports about jobs -/

section Reports

variable {timestamp : SimTimeNs} {correlation : Correlation} {value : JobObservation} {job : JobId}

/-- The summary folds the transition of a job into its state. -/
theorem wp_consume_job (about : correlation.job = some job) (b : SummaryBuilder) :
    wp (SummaryBuilder.consume timestamp correlation (.job value))
      (fun _ b' => ∃ next, jobTransition (b.jobs.find? job) job timestamp value.transition
        correlation.collective.isSome = .ok next ∧ b'.jobs = b.jobs.insert job next)
      (fun _ _ => True) b := by
  simp only [SummaryBuilder.consume, wp_bind, wp_get, wp_fromExcept, about, wp_zoom,
    applyMetricObservation, wp_pure, wp_getOrThrow, wp_runIf, wp_modify]
  refine ⟨fun _ _ => ⟨fun id same => ⟨fun next transition => ?_, fun _ _ => trivial⟩,
    fun _ => trivial⟩, fun _ _ => trivial⟩
  cases same
  refine ⟨fun _ => ?_, fun _ => ⟨next, transition, rfl⟩⟩
  unfold SummaryBuilder.applyTerminalMetrics
  rw [wp_zoom]
  exact wp_intro (fun _ _ _ => ⟨next, transition, rfl⟩) (fun _ _ _ => trivial)

theorem wp_onSummary_job (about : correlation.job = some job) {s : TelemetrySession}
    (on : s.enabled = true) :
    wp (TelemetrySession.onSummary (SummaryBuilder.consume timestamp correlation (.job value)))
      (fun _ s' => (sessionLedger s).Recorded job timestamp value.transition
        correlation.collective.isSome (sessionLedger s')) (fun _ _ => True) s := by
  unfold TelemetrySession.onSummary TelemetrySession.requireSummary
  simp only [wp_bind, wp_get, wp_getOrThrow]
  refine ⟨fun b isSummary => ?_, fun _ => trivial⟩
  have spec := @wp_consume_job timestamp correlation value job about b
  unfold wp at spec
  cases run : SummaryBuilder.consume timestamp correlation (.job value) b with
  | error e b' => exact trivial
  | ok _ b' =>
    rw [run] at spec
    obtain ⟨next, transition, jobs⟩ := spec
    simp only [wp_modify, Ledger.Recorded]
    rw [if_pos (show (sessionLedger s).enabled = true from on)]
    refine ⟨b.jobs, next, by simp [sessionLedger, isSummary], transition, ?_⟩
    simp only [sessionLedger, Option.map_some, jobs]
    rfl

theorem wp_record_job (about : correlation.job = some job) (p : Instrumentation) :
    wp (Instrumentation.record timestamp correlation (.job value))
      (fun _ p' => p.ledger.Recorded job timestamp value.transition correlation.collective.isSome
        p'.ledger) (fun _ _ => True) p := by
  unfold Instrumentation.record
  rw [wp_zoom]
  show wp (TelemetrySession.record timestamp correlation (.job value))
    (fun _ s' => (sessionLedger p.session).Recorded job timestamp value.transition
      correlation.collective.isSome (sessionLedger s')) (fun _ _ => True) p.session
  generalize p.session = s
  unfold TelemetrySession.record TelemetrySession.requireSummary
  simp only [wp_bind, wp_get, wp_runIf, wp_throwIf]
  refine ⟨fun mode => ⟨fun _ => trivial, fun _ => ⟨fun _ => trivial, fun _ => ?_⟩⟩, fun mode => ?_⟩
  · have on : s.enabled = true := decide_eq_true mode
    have rest : ∀ {m : Action TelemetrySession Unit},
        (∀ l, Keeps (fun s => sessionLedger s = l) m) → wp (do
          fromExcept ((← TelemetrySession.requireSummary).validate timestamp correlation
            (.job value))
          TelemetrySession.emitSamplesUntil timestamp false
          TelemetrySession.onSummary (SummaryBuilder.consume timestamp correlation (.job value))
          m
          modify fun s => { s with lastTimestamp := some timestamp })
        (fun _ s' => (sessionLedger s).Recorded job timestamp value.transition
          correlation.collective.isSome (sessionLedger s')) (fun _ _ => True) s := by
      intro m kept
      unfold TelemetrySession.requireSummary
      simp only [wp_bind, wp_get, wp_getOrThrow, wp_fromExcept]
      refine ⟨fun _ _ => ⟨fun _ _ => ?_, fun _ _ => trivial⟩, fun _ => trivial⟩
      refine wp_mono (keeps_emitSamplesUntil (sessionLedger s) timestamp false s rfl)
        (fun _ s₁ same => ?_) (fun _ _ _ => trivial)
      have on₁ : s₁.enabled = true := (congrArg Ledger.enabled same).trans on
      refine wp_mono (wp_onSummary_job about on₁) (fun _ s₂ reported => ?_) (fun _ _ _ => trivial)
      refine wp_mono (kept (sessionLedger s₂) s₂ rfl) (fun _ s₃ same₃ => ?_) (fun _ _ _ => trivial)
      rw [wp_modify]
      show (sessionLedger s).Recorded job timestamp value.transition correlation.collective.isSome
        (sessionLedger s₃)
      rw [same₃, ← same]
      exact reported
    rw [wp_ite]
    refine ⟨fun _ => ?_, fun _ => rest fun l => Keeps.runIf (keeps_retain l _)⟩
    rw [wp_bind, wp_fromExcept]
    exact ⟨fun edges _ => rest fun l => Keeps.runIf (keeps_retain l _), fun _ _ => trivial⟩
  · rw [Ledger.Recorded, if_neg]
    exact fun on => mode (of_decide_eq_true on)

end Reports

/-! ## What calls make of a simulation -/

theorem issued_advancedIds {sim : Simulation} {value : Nat} (issued : sim.eventIds.Issued value) :
    sim.advancedIds.Issued value := by
  unfold Simulation.advancedIds
  split
  · exact .inr rfl
  · rcases issued with less | exhausted
    · exact .inl (Nat.lt_succ_of_lt less)
    · exact .inr exhausted

/-- One change that a call makes. -/
inductive CallStep : Simulation → Simulation → Prop where
  | scheduled {sim : Simulation} (specification : EventSpec) (opened : sim.lifecycle ≠ .finished)
    (future : sim.now ≤ specification.timestamp) (remaining : sim.eventIds.exhausted = false) :
    CallStep sim (sim.scheduled specification)
  | cancelled {sim : Simulation} (id : EventId) (pending : id ∈ sim.pendingIds) :
    CallStep sim (sim.cancelled id)
  | stopped {sim : Simulation} (reason : Option StopReason) :
    CallStep sim { sim with stopReason := reason }
  | drawn {sim : Simulation} (rng : DeterministicRng) : CallStep sim { sim with rng }

/-- What any calls may make of a simulation. -/
inductive Evolves : Simulation → Simulation → Prop where
  | refl (sim : Simulation) : Evolves sim sim
  | tail {sim sim' sim'' : Simulation} (evolves : Evolves sim sim') (step : CallStep sim' sim'') :
    Evolves sim sim''

namespace Evolves

theorem step {sim sim' : Simulation} (step : CallStep sim sim') : Evolves sim sim' :=
  .tail (.refl sim) step

theorem trans {sim sim' sim'' : Simulation} (first : Evolves sim sim')
    (second : Evolves sim' sim'') : Evolves sim sim'' := by
  induction second with
  | refl => exact first
  | tail _ step ih => exact ih.tail step

/-- What every step keeps, all of them keep. -/
theorem keeps {P : Simulation → Prop} (stepKept : ∀ {sim sim'}, CallStep sim sim' → P sim → P sim')
    {sim sim' : Simulation} (evolves : Evolves sim sim') (holds : P sim) : P sim' := by
  induction evolves with
  | refl => exact holds
  | tail _ step ih => exact stepKept step ih

theorem valid {sim sim' : Simulation} (evolves : Evolves sim sim') (valid : sim.Valid) :
    sim'.Valid := by
  refine evolves.keeps (P := Simulation.Valid) (fun step valid => ?_) valid
  cases step with
  | scheduled specification opened future remaining => exact valid.scheduled remaining future
  | cancelled id pending => exact valid.cancelled pending
  | stopped reason =>
    exact ⟨valid.pending, valid.unique, valid.cancelled_subset, valid.future, valid.issued,
      valid.current⟩
  | drawn rng =>
    exact ⟨valid.pending, valid.unique, valid.cancelled_subset, valid.future, valid.issued,
      valid.current⟩

theorem now {sim sim' : Simulation} (evolves : Evolves sim sim') : sim'.now = sim.now := by
  refine evolves.keeps (P := fun other => other.now = sim.now) (fun step same => ?_) rfl
  cases step <;> exact same

theorem currentEvent {sim sim' : Simulation} (evolves : Evolves sim sim') :
    sim'.currentEvent = sim.currentEvent := by
  refine evolves.keeps (P := fun other => other.currentEvent = sim.currentEvent)
    (fun step same => ?_) rfl
  cases step <;> exact same

theorem issued {sim sim' : Simulation} (evolves : Evolves sim sim') {value : Nat}
    (issued : sim.eventIds.Issued value) : sim'.eventIds.Issued value := by
  refine evolves.keeps (P := fun other => other.eventIds.Issued value) (fun step issued => ?_) issued
  cases step with
  | scheduled => exact issued_advancedIds issued
  | _ => exact issued

end Evolves

def eventSpecification (event : Event) : EventSpec := ⟨event.timestamp, event.priority, event.payload⟩

/-- The event of this identifier, while it is to come or is dispatched, is as it was asked for. -/
structure Promised (id : EventId) (specification : EventSpec) (sim : Simulation) : Prop where
  issued : sim.eventIds.Issued id.value
  queued : ∀ event ∈ sim.eventQueue.events, event.id = id → eventSpecification event = specification
  current : ∀ event, sim.currentEvent = some event → event.id = id →
    eventSpecification event = specification

namespace Promised

variable {id : EventId} {specification : EventSpec} {sim sim' : Simulation}

theorem evolves (promised : Promised id specification sim) (evolves : Evolves sim sim') :
    Promised id specification sim' := by
  refine evolves.keeps (P := Promised id specification) (fun {sim sim'} step promised => ?_) promised
  cases step with
  | scheduled new opened future remaining =>
    refine ⟨issued_advancedIds promised.issued, fun event member same => ?_, promised.current⟩
    rcases EventQueue.mem_push.mp member with rfl | member
    · refine absurd promised.issued ?_
      rw [← same]
      exact Simulation.not_issued_next remaining
    · exact promised.queued event member same
  | cancelled id pending => exact ⟨promised.issued, promised.queued, promised.current⟩
  | stopped reason => exact ⟨promised.issued, promised.queued, promised.current⟩
  | drawn rng => exact ⟨promised.issued, promised.queued, promised.current⟩

/-- An event that has just been scheduled is as it was asked for. -/
theorem scheduled (valid : sim.Valid) (specification : EventSpec)
    (remaining : sim.eventIds.exhausted = false) :
    Promised (sim.eventFor specification).id specification (sim.scheduled specification) := by
  have fresh := Simulation.not_issued_next remaining
  refine ⟨?_, fun event member same => ?_, fun event isCurrent same => ?_⟩
  · show sim.advancedIds.Issued sim.eventIds.nextValue
    unfold Simulation.advancedIds
    split
    · exact .inr rfl
    · exact .inl (Nat.lt_succ_self _)
  · rcases EventQueue.mem_push.mp member with rfl | member
    · rfl
    · exact absurd same (valid.eventFor_id_ne remaining specification member)
  · refine absurd (valid.current event isCurrent).1 ?_
    rw [same]
    exact fresh

end Promised

/-! ## What calls keep -/

/-- A property of the kernel that no call of a component undoes. -/
structure CallKept (P : Kernel → Prop) : Prop where
  schedule : ∀ specification, Preserves P (Kernel.schedule specification)
  cancel : ∀ id, Preserves P (Kernel.cancel id)
  stop : ∀ reason, Preserves P (Kernel.stop reason)
  randomU64 : Preserves P Kernel.randomU64
  randomBelow : ∀ upperExclusive, Preserves P (Kernel.randomBelow upperExclusive)
  observe : ∀ m : Kernel → Action Instrumentation Unit, (∀ k, JobFree (m k)) →
    Preserves P (Kernel.observe m)

/-- The action reaches the kernel by calls only. -/
def ThroughCalls {X α : Type} (kernel : Lens X Kernel) (m : Action X α) : Prop :=
  ∀ P, CallKept P → Preserves (fun x => P (kernel.get x)) m

theorem preserves_instrument {P : Kernel → Prop} {m : Kernel → Action Instrumentation Unit}
    (kept : ∀ k p, P k → p.ledger = k.ledger → P { k with probe := p })
    (free : ∀ k, JobFree (m k)) : Preserves P (Kernel.instrument m) := by
  intro k h
  rw [Kernel.wp_instrument_iff]
  exact wp_mono (free k k.ledger k.probe rfl) (fun _ p same => kept k _ h same)
    (fun _ _ _ => trivial)

/-- A report about a job changes the ledger only, and only while there is telemetry. -/
theorem wp_observe_job {k : Kernel} {m : Kernel → Action Instrumentation Unit} {job : JobId}
    {timestamp : SimTimeNs} {transition : JobTransition} {active : Bool}
    (reports : wp (m k) (fun _ p => k.ledger.Recorded job timestamp transition active p.ledger)
      (fun _ _ => True) k.probe) :
    wp (Kernel.observe m) (fun _ k' => k'.sim = k.sim ∧
        k.ledger.Recorded job timestamp transition active k'.ledger)
      (fun e _ => e.origin = .telemetry) k := by
  unfold Kernel.observe
  rw [Kernel.wp_instrument_iff, wp_runIf]
  refine ⟨fun on => ?_, fun off => ⟨rfl, ?_⟩⟩
  · exact wp_mono reports (fun _ _ recorded => ⟨rfl, recorded⟩) (fun _ _ _ => rfl)
  · rw [Ledger.Recorded, if_neg (show ¬ k.ledger.enabled = true from off)]

/-- What only the ledger of the telemetry may break is kept by observations. -/
theorem preserves_observe {P : Kernel → Prop} {m : Kernel → Action Instrumentation Unit}
    (kept : ∀ k p, P k → p.ledger = k.ledger → P { k with probe := p })
    (free : ∀ k, JobFree (m k)) : Preserves P (Kernel.observe m) :=
  preserves_instrument kept fun k => (free k).runIf

theorem CallKept.and {P Q : Kernel → Prop} (left : CallKept P) (right : CallKept Q) :
    CallKept fun k => P k ∧ Q k where
  schedule specification k h := wp_mono
    (wp_and (left.schedule specification k h.1) (right.schedule specification k h.2))
    (fun _ _ both => both) (fun _ _ both => both.1)
  cancel id k h := wp_mono (wp_and (left.cancel id k h.1) (right.cancel id k h.2))
    (fun _ _ both => both) (fun _ _ both => both.1)
  stop reason k h := wp_mono (wp_and (left.stop reason k h.1) (right.stop reason k h.2))
    (fun _ _ both => both) (fun _ _ both => both.1)
  randomU64 k h := wp_mono (wp_and (left.randomU64 k h.1) (right.randomU64 k h.2))
    (fun _ _ both => both) (fun _ _ both => both.1)
  randomBelow upperExclusive k h := wp_mono
    (wp_and (left.randomBelow upperExclusive k h.1) (right.randomBelow upperExclusive k h.2))
    (fun _ _ both => both) (fun _ _ both => both.1)
  observe m free k h := wp_mono (wp_and (left.observe m free k h.1) (right.observe m free k h.2))
    (fun _ _ both => both) (fun _ _ both => both.1)

/-- The simulation only ever evolves on a valid one. -/
theorem callKept_evolves {sim : Simulation} (valid : sim.Valid) :
    CallKept fun k => Evolves sim k.sim where
  schedule specification k evolves := Kernel.wp_schedule_full (evolves.valid valid)
    (fun _ => trivial) (fun _ _ => trivial) (fun _ _ _ => trivial)
    (fun opened future remaining _ _ => evolves.tail (.scheduled specification opened future remaining))
    (fun _ _ _ _ => trivial)
  cancel id k evolves := Kernel.wp_cancel_full (fun _ _ _ => evolves)
    (fun _ pending _ _ _ => evolves.tail (.cancelled id pending)) (fun _ _ _ _ => trivial)
  stop reason k evolves := by
    simp only [Kernel.stop, wp_bind, wp_get, wp_throwIf, wp_getOrThrow, wp_runIf]
    refine ⟨fun _ => trivial, fun _ => ⟨fun event _ => ⟨fun _ => ?_, fun _ => evolves⟩,
      fun _ => trivial⟩⟩
    refine Kernel.wp_instrument (fun _ _ => ?_) (fun _ _ _ _ => trivial)
    rw [Kernel.wp_modifySim]
    exact Kernel.wp_observe (fun _ _ => evolves.tail (.stopped _)) (fun _ _ _ _ => trivial)
  randomU64 k evolves := evolves.tail (.drawn _)
  randomBelow upperExclusive k evolves := by
    simp only [Kernel.randomBelow, wp_bind, wp_get, wp_fromExcept, Kernel.wp_modifySim, wp_pure]
    exact ⟨fun _ _ => evolves.tail (.drawn _), fun _ _ => trivial⟩
  observe m free := preserves_observe (fun _ _ evolves _ => evolves) free

/-! The calls report nothing about jobs. -/

theorem preserves_modifySim (l : Ledger) (f : Simulation → Simulation) :
    Preserves (fun k : Kernel => k.ledger = l) (Kernel.modifySim f) := fun _ h => h

theorem preserves_emit (l : Ledger) {report : Kernel → Action Instrumentation Unit}
    (free : ∀ k, JobFree (report k)) :
    Preserves (fun k : Kernel => k.ledger = l) (Kernel.emit report) := by
  refine preserves_observe (fun _ _ h same => same.trans h) fun k => (free k).catching fun e => ?_
  exact JobFree.bind (JobFree.modify fun _ => rfl) fun _ => JobFree.throw e

theorem preserves_emitSimulationObservation (l : Ledger) (transition : SimulationTransition)
    (event cause : Option EventId) : Preserves (fun k : Kernel => k.ledger = l)
      (Kernel.emitSimulationObservation transition event cause) :=
  preserves_emit l fun _ => jobFree_record nofun

theorem preserves_plainCounter (l : Ledger) (metric : MetricId) (amount : Nat) :
    Preserves (fun k : Kernel => k.ledger = l)
      (Kernel.emitMetric fun _ => .ok (Kernel.plainCounter metric amount)) :=
  preserves_emit l fun _ => jobFree_record nofun

theorem preserves_recordEvent (l : Ledger) (action : TraceAction) (metadata : EventTraceMetadata)
    (reason : Option StopReason) :
    Preserves (fun k : Kernel => k.ledger = l) (Kernel.recordEvent action metadata reason) :=
  preserves_instrument (fun _ _ h same => same.trans h) fun _ => JobFree.modify fun _ => rfl

theorem preserves_eraseMetadata (l : Ledger) (id : EventId) :
    Preserves (fun k : Kernel => k.ledger = l) (Kernel.eraseMetadata id) :=
  preserves_instrument (fun _ _ h same => same.trans h) fun _ => JobFree.modify fun _ => rfl

theorem preserves_insertMetadata (l : Ledger) (event : Event) :
    Preserves (fun k : Kernel => k.ledger = l) (Kernel.insertMetadata event) :=
  preserves_instrument (fun _ _ h same => same.trans h) fun _ => JobFree.runIf
    (JobFree.get.bind fun _ => (JobFree.throwIf _).bind fun _ => JobFree.modify fun _ => rfl)

/-! Nor does a run of its own. -/

theorem preserves_popDispatchable (l : Ledger) : ∀ rounds,
    Preserves (fun k : Kernel => k.ledger = l) (Kernel.popDispatchable rounds)
  | 0 => .pure _
  | rounds + 1 => by
    unfold Kernel.popDispatchable
    refine Preserves.get.bind fun k => ?_
    cases k.sim.eventQueue.pop with
    | none => exact .pure _
    | some popped =>
      exact (preserves_modifySim l _).bind fun _ => (preserves_eraseMetadata l _).bind fun _ =>
        .ite (preserves_popDispatchable l rounds) (.pure _)

theorem preserves_startNext (l : Ledger) :
    Preserves (fun k : Kernel => k.ledger = l) Kernel.startNext := by
  unfold Kernel.startNext Kernel.nextDispatchableEvent Kernel.beginDispatch
  refine (Preserves.get.bind fun _ => preserves_popDispatchable l _).bind fun next => ?_
  cases next with
  | none => exact .pure _
  | some event =>
    refine Preserves.bind ?_ fun _ => .pure _
    exact (preserves_modifySim l _).bind fun _ => (preserves_emitSimulationObservation l _ _ _).bind
      fun _ => (preserves_plainCounter l _ _).bind fun _ => preserves_recordEvent l _ _ _

theorem preserves_beginRun (l : Ledger) :
    Preserves (fun k : Kernel => k.ledger = l) Kernel.beginRun := by
  unfold Kernel.beginRun
  exact Preserves.get.bind fun _ => (Preserves.throwIf _).bind fun _ => preserves_modifySim l _

/-! Hence the ledger is kept by calls. -/

theorem callKept_ledger (l : Ledger) : CallKept fun k => k.ledger = l where
  schedule specification := by
    unfold Kernel.schedule Kernel.nextEventId
    refine Preserves.get.bind fun _ => (Preserves.throwIf _).bind fun _ => Preserves.get.bind
      fun _ => (Preserves.throwIf _).bind fun _ => Preserves.bind ?_ fun id => ?_
    · exact Preserves.get.bind fun _ => (Preserves.fromExcept _).bind fun _ =>
        (preserves_modifySim l _).bind fun _ => .pure _
    · refine Preserves.get.bind fun _ => Preserves.get.bind fun _ => (Preserves.throwIf _).bind
        fun _ => (preserves_modifySim l _).bind fun _ => Preserves.bind ?_ fun _ =>
        (preserves_recordEvent l _ _ _).bind fun _ =>
        (preserves_emitSimulationObservation l _ _ _).bind fun _ => .pure _
      refine Preserves.catching ((preserves_insertMetadata l _).bind fun _ =>
        preserves_modifySim l _) fun e k => ?_
      simp only [wp_bind, Kernel.wp_modifySim]
      exact Kernel.wp_instrument (fun _ _ => trivial) (fun _ _ _ _ => trivial)
  cancel id := by
    unfold Kernel.cancel Kernel.requireMetadata Kernel.cancel.reportCancelled
    refine Preserves.get.bind fun _ => Preserves.get.bind fun _ => Preserves.ite (.pure _) ?_
    refine Preserves.bind (preserves_instrument (fun _ _ h same => same.trans h)
      fun _ => JobFree.throwIf _) fun _ => Preserves.get.bind fun _ => Preserves.ite (.pure _) ?_
    refine (preserves_modifySim l _).bind fun _ => Preserves.bind ?_ fun _ => .pure _
    refine Preserves.get.bind fun k => (preserves_emitSimulationObservation l _ _ _).bind fun _ =>
      (preserves_plainCounter l _ _).bind fun _ => ?_
    cases Kernel.cancelMetadata id k.probe
    · exact .pure _
    · exact preserves_recordEvent l _ _ _
  stop reason := by
    unfold Kernel.stop
    exact Preserves.get.bind fun _ => (Preserves.throwIf _).bind fun _ => Preserves.get.bind fun _ =>
      (Preserves.getOrThrow _ _).bind fun _ => Preserves.get.bind fun _ => Preserves.runIf
        ((preserves_recordEvent l _ _ _).bind fun _ => (preserves_modifySim l _).bind fun _ =>
          preserves_emitSimulationObservation l _ _ _)
  randomU64 := fun _ h => h
  randomBelow upperExclusive := Preserves.get.bind fun _ => (Preserves.fromExcept _).bind fun _ =>
    (preserves_modifySim l _).bind fun _ => .pure _
  observe m free := preserves_observe (fun _ _ h same => same.trans h) free

/-- What an action may make of the simulation and of the ledger. -/
theorem wp_throughCalls {X α : Type} {kernel : Lens X Kernel} {m : Action X α} {x : X}
    (calls : ThroughCalls kernel m) (valid : (kernel.get x).sim.Valid) :
    wp m (fun _ x' => Evolves (kernel.get x).sim (kernel.get x').sim ∧
      (kernel.get x').ledger = (kernel.get x).ledger) (fun _ _ => True) x :=
  calls _ ((callKept_evolves valid).and (callKept_ledger _)) x ⟨.refl _, rfl⟩

/-! ## Actions through calls -/

namespace ThroughCalls

variable {X Y α β : Type} {kernel : Lens X Kernel} {m : Action X α}

theorem pure (a : α) : ThroughCalls kernel (Pure.pure a) := fun _ _ => .pure a

theorem throw (e : Error) : ThroughCalls kernel (MonadExcept.throw e : Action X α) :=
  fun _ _ => .throw e

theorem get : ThroughCalls kernel (MonadState.get : Action X X) := fun _ _ => .get

theorem reads (f : X → β) : ThroughCalls kernel (Foundation.reads f) := fun _ _ => .reads f

theorem bind {f : α → Action X β} (first : ThroughCalls kernel m)
    (second : ∀ a, ThroughCalls kernel (f a)) : ThroughCalls kernel (m >>= f) :=
  fun P kept => (first P kept).bind fun a => second a P kept

theorem ite {c : Prop} [Decidable c] {n : Action X α} (yes : ThroughCalls kernel m)
    (no : ThroughCalls kernel n) : ThroughCalls kernel (if c then m else n) :=
  fun P kept => .ite (yes P kept) (no P kept)

theorem throwIf {c : Prop} [Decidable c] (e : Error) :
    ThroughCalls kernel (Foundation.throwIf c e) := fun _ _ => .throwIf e

theorem runIf {c : Prop} [Decidable c] {m : Action X Unit} (calls : ThroughCalls kernel m) :
    ThroughCalls kernel (Foundation.runIf c m) := fun P kept => .runIf (calls P kept)

theorem getOrThrow (o : Option α) (e : Error) :
    ThroughCalls kernel (Foundation.getOrThrow o e) := fun _ _ => .getOrThrow o e

theorem fromExcept (r : Except Error α) : ThroughCalls kernel (Foundation.fromExcept r) :=
  fun _ _ => .fromExcept r

theorem forM {f : α → Action X PUnit} {as : List α} (each : ∀ a, ThroughCalls kernel (f a)) :
    ThroughCalls kernel (as.forM f) := fun P kept => .forM fun a _ => each a P kept

/-- A write that leaves the kernel alone. -/
theorem modify {f : X → X} (same : ∀ x, kernel.get (f x) = kernel.get x) :
    ThroughCalls kernel (modify f : Action X PUnit) :=
  fun _ _ => .modify fun x holds => (same x).symm ▸ holds

/-- A part that has the kernel of the whole. -/
theorem zoom {part : Lens X Y} {inner : Lens Y Kernel} {m : Action Y α}
    (calls : ThroughCalls inner m) (same : ∀ x, kernel.get x = inner.get (part.get x)) :
    ThroughCalls kernel (Foundation.zoom part m) := by
  intro P kept x holds
  rw [same] at holds
  have through := Preserves.zoom part (calls P kept) x holds
  refine wp_mono through (fun _ x' holds' => ?_) (fun _ _ _ => trivial)
  rw [same]
  exact holds'

/-- A part that the kernel is no part of. -/
theorem zoom_apart {part : Lens X Y} {m : Action Y α}
    (same : ∀ y x, kernel.get (part.set y x) = kernel.get x) :
    ThroughCalls kernel (Foundation.zoom part m) := by
  intro P _ x holds
  rw [wp_zoom]
  refine wp_intro (fun _ y _ => ?_) (fun _ _ _ => trivial)
  rw [same]
  exact holds

/-- An operation of the kernel itself. -/
theorem onKernel {m : Action Kernel α} (kept : ∀ P, CallKept P → Preserves P m) :
    ThroughCalls kernel (Foundation.zoom kernel m) := fun P callKept => .zoom kernel (kept P callKept)

theorem schedule (specification : EventSpec) :
    ThroughCalls kernel (Foundation.zoom kernel (Kernel.schedule specification)) :=
  onKernel fun _ kept => kept.schedule specification

theorem observe {m : Kernel → Action Instrumentation Unit} (free : ∀ k, JobFree (m k)) :
    ThroughCalls kernel (Foundation.zoom kernel (Kernel.observe m)) :=
  onKernel fun _ kept => kept.observe m free

theorem currentEventId : ThroughCalls kernel (Foundation.zoom kernel Kernel.currentEventId) :=
  onKernel fun _ _ => Preserves.get.bind fun _ => (Preserves.getOrThrow _ _).bind fun _ => .pure _

end ThroughCalls

end NexusLab.Sim
