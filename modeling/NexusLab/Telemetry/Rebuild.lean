import NexusLab.Foundation.Bisimulation
import NexusLab.Telemetry.Sampling

/-! # Summaries do not depend on the mode

What a session retains depends on its mode and its limits, what it summarizes does not: the series
and the jobs are functions of the accepted observations.  A session that retains everything keeps
enough to build its summary again. -/

namespace NexusLab.Telemetry

open Foundation

namespace SummaryBuilder

/-- Summaries that differ in their limits at most. -/
structure Agrees (b b' : SummaryBuilder) : Prop where
  series : b.metrics.series = b'.metrics.series
  jobs : b.jobs = b'.jobs

theorem Agrees.transitionOf {b b' : SummaryBuilder} (agree : Agrees b b')
    (timestamp : SimTimeNs) (correlation : Correlation) (observation : TelemetryObservation) :
    b.transitionOf timestamp correlation observation =
      b'.transitionOf timestamp correlation observation := by
  cases observation with
  | job value =>
    unfold SummaryBuilder.transitionOf
    rw [agree.jobs]
  | _ => rfl

theorem Agrees.consumed {b b' : SummaryBuilder} (agree : Agrees b b')
    (timestamp : SimTimeNs) (correlation : Correlation) (observation : TelemetryObservation) :
    Agrees (b.consumed timestamp correlation observation)
      (b'.consumed timestamp correlation observation) := by
  unfold SummaryBuilder.consumed
  rw [agree.transitionOf timestamp correlation observation, agree.series]
  cases b'.transitionOf timestamp correlation observation with
  | none => exact ⟨rfl, agree.jobs⟩
  | some entry =>
    refine ⟨rfl, ?_⟩
    show b.jobs.insert _ _ = b'.jobs.insert _ _
    rw [agree.jobs]

theorem Agrees.after {b b' : SummaryBuilder} (agree : Agrees b b') (calls : List Observed) :
    Agrees (b.after calls) (b'.after calls) := by
  induction calls generalizing b b' with
  | nil => exact agree
  | cons call calls ih => exact ih (agree.consumed _ _ _)

theorem Agrees.finishedAt {b b' : SummaryBuilder} (agree : Agrees b b') (timestamp : SimTimeNs) :
    Agrees (b.finishedAt timestamp) (b'.finishedAt timestamp) := by
  refine ⟨agree.series, ?_⟩
  show closedJobs timestamp b.jobs b.jobs.entries = closedJobs timestamp b'.jobs b'.jobs.entries
  rw [agree.jobs]

theorem Agrees.metricSnapshots {b b' : SummaryBuilder} (agree : Agrees b b') :
    b.metricSnapshots = b'.metricSnapshots := by
  unfold SummaryBuilder.metricSnapshots MetricRegistry.snapshots
  rw [agree.series]

theorem Agrees.jobAttributions {b b' : SummaryBuilder} (agree : Agrees b b') :
    b.jobAttributions = b'.jobAttributions := by
  unfold SummaryBuilder.jobAttributions
  rw [agree.jobs]

theorem create_agrees {series boundaries series' boundaries' : Nat} {b b' : SummaryBuilder}
    (ok : create series boundaries = .ok b) (ok' : create series' boundaries' = .ok b') :
    Agrees b b' := by
  have empty : ∀ {series boundaries : Nat} {b : SummaryBuilder},
      create series boundaries = .ok b → b.metrics.series = .empty ∧ b.jobs = .empty := by
    intro series boundaries b ok
    unfold create MetricRegistry.create at ok
    split at ok
    · cases ok
    · cases valid : validateMetricCatalog metricCatalog boundaries with
      | error e => rw [valid] at ok; cases ok
      | ok _ => rw [valid] at ok; cases ok; exact ⟨rfl, rfl⟩
  exact ⟨(empty ok).1.trans (empty ok').1.symm, (empty ok).2.trans (empty ok').2.symm⟩

/-- Feeds retained records to a summary, in order. -/
def replay (records : List TelemetryRecord) : Action SummaryBuilder Unit :=
  records.forM fun record => consume record.timestamp record.correlation record.observation

theorem replay_append_ok {records : List TelemetryRecord} {record : TelemetryRecord}
    {b c d : SummaryBuilder} (first : replay records b = .ok () c)
    (second : consume record.timestamp record.correlation record.observation c = .ok () d) :
    replay (records ++ [record]) b = .ok () d := by
  unfold replay at first ⊢
  rw [List.forM_eq_forM] at first ⊢
  rw [List.forM_append, bind_of_ok first, List.forM_cons, bind_of_ok second]
  rfl

end SummaryBuilder

namespace TelemetrySession

/-- The record a session makes of a call. -/
def recordOf (id : Nat) (call : Observed) : TelemetryRecord :=
  ⟨call.correlation, call.observation, ⟨id⟩, call.timestamp⟩

/-- A session that retains every call it accepts, numbered from zero. -/
structure Retained (b : SummaryBuilder) (calls : List Observed) (s : TelemetrySession) : Prop where
  records : s.records = calls.mapIdx recordOf
  nextId : s.recordIdsExhausted = false → s.nextRecordId = calls.length
  replays : SummaryBuilder.replay s.records b = .ok () (b.after calls)

theorem admitRecord_fresh {s : TelemetrySession} {correlation : Correlation}
    {observation : TelemetryObservation} {edges : Nat}
    (ok : s.admitRecord correlation observation = .ok edges) : s.recordIdsExhausted = false := by
  unfold admitRecord at ok
  split at ok
  · cases ok
  · split at ok
    · cases ok
    · cases added : checkedAddSize s.retainedEdges (correlationEdgeCount correlation) with
      | error e => rw [added] at ok; cases ok
      | ok count =>
        rw [added, ok_bind] at ok
        split at ok
        · cases ok
        · split at ok
          · cases ok
          · rename_i unused
            simpa using unused

/-- What an accepted call adds to a session that retains it. -/
theorem committed_of_retains {s : TelemetrySession} {observation : TelemetryObservation}
    (keeps : s.retains observation = true) (b : SummaryBuilder) (timestamp : SimTimeNs)
    (correlation : Correlation) (edges : Nat) :
    let t := s.committed b timestamp correlation observation edges
    t.records = s.records ++ [⟨correlation, observation, ⟨s.nextRecordId⟩, timestamp⟩] ∧
      t.nextRecordId = (if s.nextRecordId = maxU64 then s.nextRecordId else s.nextRecordId + 1) ∧
      t.recordIdsExhausted =
        (if s.nextRecordId = maxU64 then true else s.recordIdsExhausted) := by
  unfold committed
  simp only [keeps, if_true, retain_eq]
  exact ⟨trivial, trivial, trivial⟩

theorem Retained.record {configuration : TelemetryConfiguration} {b : SummaryBuilder}
    {calls : List Observed} {call : Observed} {s s' : TelemetrySession}
    (full : configuration.mode = .full) (reached : Reached configuration b calls s)
    (retained : Retained b calls s)
    (ok : TelemetrySession.record call.timestamp call.correlation call.observation s = .ok () s') :
    Retained b (calls ++ [call]) s' := by
  have mode : s.configuration.mode = .full := reached.configuration_eq ▸ full
  have enabled : s.configuration.mode ≠ .off := by rw [mode]; decide
  obtain ⟨edges, t, checked, emitted, consumes, rfl⟩ := record_ok enabled reached.summary ok
  obtain ⟨samples, next, rfl⟩ := wp_of_ok (emitSamplesUntil_frame s) emitted
  obtain ⟨_, _, admitted, _⟩ := checks_ok checked
  have keeps : s.retains call.observation = true := by simp [retains, mode]
  have fresh : s.recordIdsExhausted = false := by
    unfold admission at admitted
    rw [if_pos keeps] at admitted
    exact admitRecord_fresh admitted
  have id : s.nextRecordId = calls.length := retained.nextId fresh
  have kept : (s.withSamples samples next).retains call.observation = true := keeps
  obtain ⟨records, nextId, exhausted⟩ := committed_of_retains kept (b.after calls) call.timestamp
    call.correlation edges
  have appended : ((s.withSamples samples next).committed (b.after calls) call.timestamp
      call.correlation call.observation edges).records =
        s.records ++ [recordOf calls.length call] := by
    rw [records, ← id]
    rfl
  refine ⟨?_, ?_, ?_⟩
  · rw [appended, retained.records, List.mapIdx_append]
    simp
  · rw [nextId, exhausted]
    show (if s.nextRecordId = maxU64 then true else s.recordIdsExhausted) = false →
      (if s.nextRecordId = maxU64 then s.nextRecordId else s.nextRecordId + 1) = _
    split
    · intro impossible
      cases impossible
    · intro _
      rw [id, List.length_append]
      rfl
  · rw [appended]
    refine SummaryBuilder.replay_append_ok retained.replays ?_
    rw [SummaryBuilder.after_append]
    exact consumes

theorem Retained.recordAll {configuration : TelemetryConfiguration} {b : SummaryBuilder}
    (full : configuration.mode = .full) : ∀ {rest calls : List Observed}
    {s s' : TelemetrySession}, Reached configuration b calls s → Retained b calls s →
    TelemetrySession.recordAll rest s = .ok () s' → Retained b (calls ++ rest) s' := by
  have enabled : configuration.mode ≠ .off := by rw [full]; decide
  intro rest
  induction rest with
  | nil =>
    intro calls s s' _ retained ok
    cases ok
    simpa using retained
  | cons call rest ih =>
    intro calls s s' reached retained ok
    unfold TelemetrySession.recordAll at ok
    rw [forM_cons_apply] at ok
    obtain ⟨_, t, first, others⟩ := ok_of_bind ok
    have whole := ih (reached.record enabled first) (retained.record full reached first) others
    rwa [List.append_assoc] at whole

/-- A finalized session summarizes the calls it accepted. -/
theorem Reached.finalize {configuration : TelemetryConfiguration} {b : SummaryBuilder}
    {calls : List Observed} {s s' : TelemetrySession} {final : SimTimeNs}
    (enabled : configuration.mode ≠ .off) (reached : Reached configuration b calls s)
    (ok : TelemetrySession.finalize final s = .ok () s') :
    SummaryBuilder.finalize final (b.after calls) = .ok () ((b.after calls).finishedAt final) ∧
      s'.records = s.records ∧
      s'.metricSnapshots = ((b.after calls).finishedAt final).metricSnapshots ∧
      s'.jobAttributions = ((b.after calls).finishedAt final).jobAttributions := by
  have mode : s.configuration.mode ≠ .off := reached.configuration_eq ▸ enabled
  obtain ⟨_, _, t, emitted, closes, rfl⟩ := finalize_ok mode reached.summary ok
  obtain ⟨samples, next, rfl⟩ := wp_of_ok (emitSamplesUntil_frame s) emitted
  exact ⟨closes, rfl, rfl, rfl⟩

/-- Sessions in whatever enabled modes, and under whatever limits, that accept the same calls
summarize them alike; and a session that retains everything has one record for each call, numbered
from zero, which is enough to rebuild its summary. -/
theorem summaries_mode_independent {configuration configuration' : TelemetryConfiguration}
    {s₀ s s' t₀ t t' : TelemetrySession} {calls : List Observed} {final : SimTimeNs}
    (enabled : configuration.mode ≠ .off) (enabled' : configuration'.mode ≠ .off)
    (created : create configuration = .ok s₀) (created' : create configuration' = .ok t₀)
    (recorded : recordAll calls s₀ = .ok () s) (recorded' : recordAll calls t₀ = .ok () t)
    (finalized : finalize final s = .ok () s') (finalized' : finalize final t = .ok () t') :
    s'.metricSnapshots = t'.metricSnapshots ∧ s'.jobAttributions = t'.jobAttributions ∧
      (configuration.mode = .full →
        s'.records = calls.mapIdx recordOf ∧
        ∃ rebuilt rebuilt', SummaryBuilder.create configuration.limits.metricSeries
            configuration.limits.histogramBoundaries = .ok rebuilt ∧
          (SummaryBuilder.replay s'.records >>= fun _ => SummaryBuilder.finalize final) rebuilt =
            .ok () rebuilt' ∧
          rebuilt'.metricSnapshots = s'.metricSnapshots ∧
          rebuilt'.jobAttributions = s'.jobAttributions) := by
  obtain ⟨b, made, _, rfl⟩ := create_ok enabled created
  obtain ⟨b', made', _, rfl⟩ := create_ok enabled' created'
  have reached : Reached configuration b calls s :=
    (Reached.fresh configuration b).recordAll enabled recorded
  have reached' : Reached configuration' b' calls t :=
    (Reached.fresh configuration' b').recordAll enabled' recorded'
  obtain ⟨closes, records, metrics, jobs⟩ := reached.finalize enabled finalized
  obtain ⟨_, _, metrics', jobs'⟩ := reached'.finalize enabled' finalized'
  have agree := ((SummaryBuilder.create_agrees made made').after calls).finishedAt final
  refine ⟨?_, ?_, ?_⟩
  · rw [metrics, metrics', agree.metricSnapshots]
  · rw [jobs, jobs', agree.jobAttributions]
  · intro full
    have start : Retained b [] (fresh configuration b) := ⟨rfl, fun _ => rfl, rfl⟩
    have retained : Retained b calls s :=
      start.recordAll full (Reached.fresh configuration b) recorded
    refine ⟨?_, b, (b.after calls).finishedAt final, made, ?_, metrics.symm, jobs.symm⟩
    · rw [records, retained.records]
    · rw [records, bind_of_ok retained.replays]
      exact closes

def ofJob (timestamp : SimTimeNs) (transition : JobTransition) : Observed :=
  ⟨timestamp, { job := some ⟨0⟩ }, .job ⟨transition, 0, 0, 0, 2⟩⟩

/-- A job that waits, computes, reduces and is done, with a counter in between. -/
def trainedOnce : List Observed :=
  [ofJob 0 .arrived, ofJob 0 .waiting, ofJob 4 .admitted, ofJob 4 .computeStarted,
    ⟨4, {}, .counter ⟨.simulationDispatchedEvents, .none, 3⟩⟩, ofJob 10 .computeCompleted,
    ofJob 10 .synchronizationStarted, ofJob 15 .collectiveStarted, ofJob 22 .collectiveCompleted,
    ofJob 22 .stepCompleted, ofJob 22 .succeeded]

def trainedAttribution : JobAttributionSnapshot :=
  { job := ⟨0⟩, schedulingWaitNs := 4, computeNs := 6, communicationNs := 7,
    synchronizationWaitNs := 5, terminal := true }

theorem summaries_mode_independent_trainedOnce : ∃ s₀ s s' t₀ t t',
    create { mode := .full } = .ok s₀ ∧ create { mode := .summary } = .ok t₀ ∧
    recordAll trainedOnce s₀ = .ok () s ∧ recordAll trainedOnce t₀ = .ok () t ∧
    finalize 25 s = .ok () s' ∧ finalize 25 t = .ok () t' ∧
    s'.metricSnapshots = t'.metricSnapshots ∧ t'.jobAttributions = [trainedAttribution] ∧
    s'.records = trainedOnce.mapIdx recordOf ∧
    ∃ rebuilt rebuilt',
      (SummaryBuilder.replay s'.records >>= fun _ => SummaryBuilder.finalize 25) rebuilt =
        .ok () rebuilt' ∧ rebuilt'.jobAttributions = [trainedAttribution] := by
  have created : create { mode := .full } = .ok (fresh { mode := .full } SummaryBuilder.fresh) :=
    create_default (by decide) (by decide) rfl rfl
  have created' : create { mode := .summary } =
      .ok (fresh { mode := .summary } SummaryBuilder.fresh) :=
    create_default (by decide) (by decide) rfl rfl
  have made : returns (recordAll trainedOnce >>= fun _ => finalize 25)
      (fresh { mode := .full } SummaryBuilder.fresh) = true := by decide +kernel
  have made' : returns (recordAll trainedOnce >>= fun _ => finalize 25)
      (fresh { mode := .summary } SummaryBuilder.fresh) = true := by decide +kernel
  have attributes : (finalState ((recordAll trainedOnce >>= fun _ => finalize 25)
      (fresh { mode := .full } SummaryBuilder.fresh))).jobAttributions = [trainedAttribution] := by
    decide +kernel
  obtain ⟨_, s', run⟩ := ok_of_returns made
  obtain ⟨_, s, recorded, finalized⟩ := ok_of_bind run
  obtain ⟨_, t', run'⟩ := ok_of_returns made'
  obtain ⟨_, t, recorded', finalized'⟩ := ok_of_bind run'
  rw [run, finalState_ok] at attributes
  obtain ⟨metrics, jobs, full⟩ := summaries_mode_independent (by decide) (by decide) created created'
    recorded recorded' finalized finalized'
  obtain ⟨records, rebuilt, rebuilt', _, replays, _, again⟩ := full rfl
  exact ⟨_, s, s', _, t, t', created, created', recorded, recorded', finalized, finalized',
    metrics, jobs.symm.trans attributes, records, rebuilt, rebuilt', replays, again.trans attributes⟩

end TelemetrySession

end NexusLab.Telemetry
