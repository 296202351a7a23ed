import NexusLab.Telemetry.Sampling

/-! # Rejected calls

A call may throw after it has stored frames: the sample limit is met frame by frame.  Then the
session is ahead of the calls it accepted, with the frames of boundaries that no accepted
observation has passed.  As long as no observation at or before such a boundary is accepted later,
nothing else can tell the rejected calls from calls that were never made. -/

namespace NexusLab.Telemetry

open Foundation

inductive TelemetryCall where
  | record (call : Observed)
  | finalize (timestamp : SimTimeNs)

/-- The values of a call are 64-bit values. -/
def TelemetryCall.Fits : TelemetryCall → Prop
  | .record call => call.timestamp ≤ maxU64 ∧ call.observation.Fits
  | .finalize timestamp => timestamp ≤ maxU64

instance : DecidablePred TelemetryCall.Fits
  | .record call => inferInstanceAs (Decidable (call.timestamp ≤ maxU64 ∧ call.observation.Fits))
  | .finalize timestamp => inferInstanceAs (Decidable (timestamp ≤ maxU64))

/-- The limits a session checks against are 64-bit values. -/
structure TelemetryConfiguration.Fits (configuration : TelemetryConfiguration) : Prop where
  interval : configuration.sampleIntervalNs ≤ maxU64
  series : configuration.limits.metricSeries ≤ maxU64
  samples : configuration.limits.samples ≤ maxU64

def SummaryBuilder.consumeAll (calls : List Observed) : Action SummaryBuilder Unit :=
  calls.forM fun call => consume call.timestamp call.correlation call.observation

namespace TelemetrySession

def perform : TelemetryCall → Action TelemetrySession Unit
  | .record call => record call.timestamp call.correlation call.observation
  | .finalize timestamp => finalize timestamp

/-- Makes the calls one after another, going on after a throw: the calls that were accepted and the
session in the end. -/
def attempt (s : TelemetrySession) : List TelemetryCall → List TelemetryCall × TelemetrySession
  | [] => ([], s)
  | call :: rest =>
    match perform call s with
    | .ok _ t => (call :: (attempt t rest).1, (attempt t rest).2)
    | .error _ t => attempt t rest

def observations (calls : List TelemetryCall) : List Observed :=
  calls.filterMap fun
    | .record call => some call
    | .finalize _ => none

/-- A sample tells the value its series had after the observations up to its timestamp. -/
def SampleLawful (b : SummaryBuilder) (calls : List Observed) (sample : MetricSample) : Prop :=
  ∃ b' series, SummaryBuilder.consumeAll (upTo calls sample.timestamp) b = .ok () b' ∧
    b'.metrics.find sample.metric sample.labels = some series ∧ series.kind = sample.kind ∧
    series.scalar = sample.value

/-- The rejected calls among those made have had no effect: the session summarizes and retains
what the accepted ones alone would have left, and its samples are those of the accepted
observations. -/
structure RejectedWithoutEffect (s₀ : TelemetrySession) (calls : List TelemetryCall) : Prop where
  metrics : (s₀.attempt calls).2.metricSnapshots =
    (s₀.attempt (s₀.attempt calls).1).2.metricSnapshots
  jobs : (s₀.attempt calls).2.jobAttributions =
    (s₀.attempt (s₀.attempt calls).1).2.jobAttributions
  records : (s₀.attempt calls).2.records = (s₀.attempt (s₀.attempt calls).1).2.records
  nextRecordId : (s₀.attempt calls).2.nextRecordId =
    (s₀.attempt (s₀.attempt calls).1).2.nextRecordId
  edges : (s₀.attempt calls).2.retainedEdges =
    (s₀.attempt (s₀.attempt calls).1).2.retainedEdges
  samples : ∀ sample ∈ (s₀.attempt calls).2.samples, ∃ b, s₀.summary = some b ∧
    SampleLawful b (observations (s₀.attempt calls).1) sample

/-- A record call that passes the checks made before sampling is later than every sample retained
so far. -/
def Clear (s : TelemetrySession) : TelemetryCall → Prop
  | .record call => ∀ b edges, s.summary = some b →
      s.checks b call.timestamp call.correlation call.observation = .ok edges →
      ∀ sample ∈ s.samples, sample.timestamp < call.timestamp
  | .finalize _ => True

/-- The session a call leaves, whether it was accepted or not. -/
def left (call : TelemetryCall) (s : TelemetrySession) : TelemetrySession :=
  match perform call s with
  | .ok _ t => t
  | .error _ t => t

/-- Every call of the run is made in a state in which it is clear. -/
def ClearRun (s : TelemetrySession) : List TelemetryCall → Prop
  | [] => True
  | call :: rest => s.Clear call ∧ ClearRun (s.left call) rest

/-! ## Runs of accepted calls -/

def performAll (calls : List TelemetryCall) : Action TelemetrySession Unit := calls.forM perform

theorem performAll_append_ok {calls : List TelemetryCall} {call : TelemetryCall}
    {s t u : TelemetrySession} (first : performAll calls s = .ok () t)
    (second : perform call t = .ok () u) : performAll (calls ++ [call]) s = .ok () u := by
  unfold performAll at first ⊢
  rw [List.forM_eq_forM] at first ⊢
  rw [List.forM_append, bind_of_ok first, List.forM_cons, bind_of_ok second]
  rfl

/-- Calls that are all accepted are attempted with the same result. -/
theorem attempt_of_performAll : ∀ {calls : List TelemetryCall} {s t : TelemetrySession},
    performAll calls s = .ok () t → s.attempt calls = (calls, t) := by
  intro calls
  induction calls with
  | nil => intro s t ok; cases ok; rfl
  | cons call rest ih =>
    intro s t ok
    unfold performAll at ok
    rw [forM_cons_apply] at ok
    obtain ⟨_, u, first, others⟩ := ok_of_bind ok
    unfold attempt
    simp only [first]
    rw [ih others]

theorem performAll_records {calls : List Observed} (s : TelemetrySession) :
    performAll (calls.map .record) s = recordAll calls s := by
  unfold performAll recordAll
  rw [List.forM_eq_forM, List.forM_eq_forM, List.forM_map]
  rfl

/-- The general shape of a run: an invariant that ties the session to the accepted calls. -/
theorem attempt_invariant {I : List TelemetryCall → TelemetrySession → Prop}
    {P : TelemetryCall → Prop}
    (accepted : ∀ done s t call, I done s → P call → s.Clear call →
      perform call s = .ok () t → I (done ++ [call]) t)
    (rejected : ∀ done s t e call, I done s → P call → s.Clear call →
      perform call s = .error e t → I done t) :
    ∀ {calls : List TelemetryCall} {done : List TelemetryCall} {s : TelemetrySession},
      I done s → (∀ call ∈ calls, P call) → s.ClearRun calls →
      I (done ++ (s.attempt calls).1) (s.attempt calls).2 := by
  intro calls
  induction calls with
  | nil =>
    intro done s holds _ _
    simpa [attempt] using holds
  | cons call rest ih =>
    intro done s holds fits clear
    have here := fits call List.mem_cons_self
    have later : ∀ other ∈ rest, P other :=
      fun other member => fits other (List.mem_cons_of_mem _ member)
    obtain ⟨clearHere, clearLater⟩ := clear
    unfold attempt
    unfold left at clearLater
    cases run : perform call s with
    | ok _ t =>
      rw [run] at clearLater
      have whole := ih (accepted done s t call holds here clearHere run) later clearLater
      rw [List.append_assoc] at whole
      exact whole
    | error e t =>
      rw [run] at clearLater
      exact ih (rejected done s t e call holds here clearHere run) later clearLater

/-! ## Emission under the sample limit -/

theorem sampledTo_trans (s : TelemetrySession) (snapshots : List MetricSeriesSnapshot)
    {n m p : Nat} (first : n ≤ m) (second : m ≤ p) :
    (s.sampledTo snapshots n m).sampledTo snapshots m p = s.sampledTo snapshots n p := by
  unfold sampledTo withSamples
  simp only [List.append_assoc]
  rw [frames_append _ _ first second]

theorem length_sampledTo_mono (s : TelemetrySession) (snapshots : List MetricSeriesSnapshot)
    {n m p : Nat} (first : n ≤ m) (second : m ≤ p) :
    (s.sampledTo snapshots n m).samples.length ≤ (s.sampledTo snapshots n p).samples.length := by
  rw [← sampledTo_trans s snapshots first second]
  unfold sampledTo withSamples
  simp

/-- Emission succeeds when the frames it would store are known to fit. -/
theorem emitSamplesUntil_of_fits {s : TelemetrySession} {b : SummaryBuilder} {n limit : Nat}
    {timestamp : SimTimeNs} (inclusive : Bool) (sampling : s.retainsSamples = true)
    (positive : 0 < s.configuration.sampleIntervalNs) (small : timestamp ≤ maxU64)
    (known : s.summary = some b)
    (place : s.nextSampleTimestamp = boundary s.configuration.sampleIntervalNs n)
    (limited : s.configuration.limits.samples ≤ maxU64)
    (enough : max n (passed s.configuration.sampleIntervalNs timestamp inclusive) ≤ limit)
    (fits : (s.sampledTo b.metricSnapshots n limit).samples.length ≤
      s.configuration.limits.samples) :
    emitSamplesUntil timestamp inclusive s = .ok () (s.sampledTo b.metricSnapshots n
      (max n (passed s.configuration.sampleIntervalNs timestamp inclusive))) := by
  have spec := emitSamplesUntil_spec inclusive sampling positive small known place
  cases run : emitSamplesUntil timestamp inclusive s with
  | ok _ t => rw [wp_of_ok spec run]
  | error e t =>
    obtain ⟨_, m, ⟨le, full⟩, before, _⟩ := wp_of_error spec run
    have one : (s.sampledTo b.metricSnapshots n (m + 1)).samples.length =
        (s.sampledTo b.metricSnapshots n m).samples.length +
          (sampleFrame b.metricSnapshots ((m + 1) * s.configuration.sampleIntervalNs)).length := by
      rw [← sampledTo_trans s b.metricSnapshots le (Nat.le_succ m)]
      show ((s.sampledTo _ n m).samples ++ frames _ _ m (m + 1)).length = _
      rw [frames_succ _ _ (Nat.lt_succ_self m), frames_self, List.append_nil, List.length_append]
      rfl
    have within := length_sampledTo_mono s b.metricSnapshots (show n ≤ m + 1 by omega)
      (Nat.le_trans (Nat.le_trans before (Nat.le_max_right n _)) enough)
    have below : s.configuration.limits.samples < 2 ^ 64 := Nat.lt_of_le_of_lt limited (by decide)
    rw [U64.sub_eq (by omega) below] at full
    omega

/-! ## A session ahead of its accepted calls -/

/-- A sampling session that accepted the calls and holds the frames of `m` boundaries, where `r` is
the session that only the accepted calls have reached. -/
structure Ahead (configuration : TelemetryConfiguration) (b : SummaryBuilder)
    (s₀ : TelemetrySession) (calls : List Observed) (r : TelemetrySession) (m : Nat)
    (s : TelemetrySession) : Prop where
  runs : recordAll calls s₀ = .ok () r
  reached : Reached configuration b calls r
  sampled : Sampled b calls r
  sound : (b.after calls).Sound
  le : passed r.configuration.sampleIntervalNs (lastTime calls) false ≤ m
  state : s = r.sampledTo (b.after calls).metricSnapshots
    (passed r.configuration.sampleIntervalNs (lastTime calls) false) m
  series : passed r.configuration.sampleIntervalNs (lastTime calls) false < m →
    (b.after calls).metricSnapshots.any (fun series => isSampledMetricKind series.kind) = true
  short : s.samples.length ≤ s.configuration.limits.samples

section Ahead

variable {configuration : TelemetryConfiguration} {b : SummaryBuilder}
variable {s₀ r s t : TelemetrySession} {calls : List Observed} {call : Observed} {m : Nat}
variable {timestamp : SimTimeNs} {inclusive : Bool} {e : Error}

theorem Ahead.summary (ahead : Ahead configuration b s₀ calls r m s) :
    s.summary = some (b.after calls) := by
  rw [ahead.state]
  exact ahead.reached.summary

theorem Ahead.configuration_eq (ahead : Ahead configuration b s₀ calls r m s) :
    s.configuration = configuration := by
  rw [ahead.state]
  exact ahead.reached.configuration_eq

theorem Ahead.place (ahead : Ahead configuration b s₀ calls r m s) :
    s.nextSampleTimestamp = boundary s.configuration.sampleIntervalNs m := by
  rw [ahead.state]
  rfl

theorem Ahead.sampledTo (ahead : Ahead configuration b s₀ calls r m s) {p : Nat} (le : m ≤ p) :
    s.sampledTo (b.after calls).metricSnapshots m p =
      r.sampledTo (b.after calls).metricSnapshots
        (passed r.configuration.sampleIntervalNs (lastTime calls) false) p := by
  rw [ahead.state]
  exact sampledTo_trans r _ ahead.le le

/-- Frames stored before a throw leave the session further ahead. -/
theorem Ahead.stopped (ahead : Ahead configuration b s₀ calls r m s)
    (sampling : s.retainsSamples = true) (positive : 0 < s.configuration.sampleIntervalNs)
    (fits : configuration.Fits) (small : timestamp ≤ maxU64)
    (thrown : emitSamplesUntil timestamp inclusive s = .error e t) :
    ∃ m', Ahead configuration b s₀ calls r m' t := by
  have spec := emitSamplesUntil_spec inclusive sampling positive small
    ahead.summary ahead.place
  obtain ⟨_, m', ⟨le, full⟩, _, out⟩ := wp_of_error spec thrown
  have limited : s.configuration.limits.samples ≤ maxU64 := ahead.configuration_eq ▸ fits.samples
  have short := wp_of_error (emitSamplesUntil_length timestamp inclusive limited ahead.short) thrown
  have same : t.configuration = s.configuration := by rw [out]; rfl
  refine ⟨m', {
    runs := ahead.runs
    reached := ahead.reached
    sampled := ahead.sampled
    sound := ahead.sound
    le := Nat.le_trans ahead.le le
    state := by rw [out, ahead.sampledTo le]
    series := ?_
    short := by rw [same]; exact short }⟩
  -- the frame that did not fit has samples
  intro _
  by_contra none
  rw [sampleFrame_eq_nil (Bool.eq_false_of_not_eq_true none)] at full
  exact absurd full (Nat.not_lt_zero _)

/-- A call that fits the checks is only thrown out by the sample limit. -/
theorem Ahead.consumes (ahead : Ahead configuration b s₀ calls r m s) {edges : Nat}
    (small : call.timestamp ≤ maxU64) (fits : call.observation.Fits)
    (checked : s.checks (b.after calls) call.timestamp call.correlation call.observation =
      .ok edges) :
    SummaryBuilder.consume call.timestamp call.correlation call.observation (b.after calls) =
      .ok () ((b.after calls).consumed call.timestamp call.correlation call.observation) :=
  SummaryBuilder.consume_of_valid ahead.sound small fits (checks_ok checked).2.2.2

theorem Ahead.record_rejected (ahead : Ahead configuration b s₀ calls r m s)
    (enabled : configuration.mode ≠ .off) (sampling : s.retainsSamples = true)
    (positive : 0 < s.configuration.sampleIntervalNs) (fits : configuration.Fits)
    (callFits : (TelemetryCall.record call).Fits)
    (thrown : TelemetrySession.record call.timestamp call.correlation call.observation s =
      .error e t) : ∃ m', Ahead configuration b s₀ calls r m' t := by
  have mode : s.configuration.mode ≠ .off := ahead.configuration_eq ▸ enabled
  rw [record_eq mode ahead.summary] at thrown
  cases checked : s.checks (b.after calls) call.timestamp call.correlation call.observation with
  | error e' =>
    rw [checked] at thrown
    cases thrown
    exact ⟨m, ahead⟩
  | ok edges =>
    rw [checked] at thrown
    have rest : commit s call.timestamp call.correlation call.observation edges s =
      .error e t := thrown
    cases emitted : emitSamplesUntil call.timestamp false s with
    | error e' u =>
      unfold commit at rest
      rw [bind_of_error emitted] at rest
      cases rest
      exact ahead.stopped sampling positive fits callFits.1 emitted
    | ok _ u =>
      rw [commit_of_ok edges ahead.summary emitted (ahead.consumes callFits.1 callFits.2 checked)] at rest
      cases rest

/-- The boundary of a stored frame lies before a call that is clear. -/
theorem Ahead.boundary_le (ahead : Ahead configuration b s₀ calls r m s)
    (positive : 0 < s.configuration.sampleIntervalNs)
    (clear : ∀ sample ∈ s.samples, sample.timestamp < timestamp)
    (further : passed r.configuration.sampleIntervalNs (lastTime calls) false < m) :
    m ≤ passed s.configuration.sampleIntervalNs timestamp false := by
  obtain ⟨series, member, kind⟩ := List.any_eq_true.mp (ahead.series further)
  have stored : (⟨series.metric, series.labels, series.kind, series.scalar,
      m * s.configuration.sampleIntervalNs⟩ : MetricSample) ∈ s.samples := by
    have same : s.configuration = r.configuration := by rw [ahead.state]; rfl
    rw [same, ahead.state]
    refine List.mem_append_right _ (List.mem_flatMap.mpr ⟨m, ?_, ?_⟩)
    · rw [List.mem_range'_1]
      omega
    · unfold sampleFrame
      rw [List.mem_map]
      exact ⟨series, List.mem_filter.mpr ⟨member, kind⟩, rfl⟩
  have earlier : m * s.configuration.sampleIntervalNs < timestamp := clear _ stored
  unfold passed lastEligible
  rw [Nat.le_div_iff_mul_le positive]
  exact Nat.le_sub_one_of_lt earlier

theorem Ahead.record_accepted (ahead : Ahead configuration b s₀ calls r m s)
    (enabled : configuration.mode ≠ .off) (sampling : s.retainsSamples = true)
    (positive : 0 < configuration.sampleIntervalNs) (fits : configuration.Fits)
    (callFits : (TelemetryCall.record call).Fits) (clear : s.Clear (.record call))
    (ok : TelemetrySession.record call.timestamp call.correlation call.observation s = .ok () t) :
    ∃ r' m', Ahead configuration b s₀ (calls ++ [call]) r' m' t := by
  have mode : s.configuration.mode ≠ .off := ahead.configuration_eq ▸ enabled
  have step : 0 < s.configuration.sampleIntervalNs := ahead.configuration_eq ▸ positive
  have limited : s.configuration.limits.samples ≤ maxU64 := ahead.configuration_eq ▸ fits.samples
  obtain ⟨edges, u, checked, emitted, consumes, rfl⟩ := record_ok mode ahead.summary ok
  have spec := emitSamplesUntil_spec false sampling step callFits.1 ahead.summary
    ahead.place
  have short := wp_of_ok (emitSamplesUntil_length call.timestamp false limited ahead.short)
    emitted
  have out := wp_of_ok spec emitted
  rw [ahead.sampledTo (Nat.le_max_left m _)] at out
  have same : s.configuration = r.configuration := by rw [ahead.state]; rfl
  have reaches : max m (passed s.configuration.sampleIntervalNs call.timestamp false) =
      max (passed r.configuration.sampleIntervalNs (lastTime calls) false)
        (passed r.configuration.sampleIntervalNs call.timestamp false) := by
    have le := ahead.le
    rcases Nat.lt_or_eq_of_le le with further | equal
    · have before := ahead.boundary_le step (clear _ _ ahead.summary checked) further
      rw [same] at before ⊢
      omega
    · rw [same, equal]
  rw [reaches] at out
  rw [same] at short
  -- the accepted calls alone emit the same frames, and then they are level
  have modeR : r.configuration.mode ≠ .off := same ▸ mode
  have samplingR : r.retainsSamples = true := by
    rw [ahead.state] at sampling
    exact sampling
  have emittedR := emitSamplesUntil_of_fits false samplingR (same ▸ step)
    callFits.1 ahead.reached.summary ahead.sampled.place (same ▸ limited) (Nat.le_refl _)
    (out ▸ short)
  rw [← out] at emittedR
  have checkedR : r.checks (b.after calls) call.timestamp call.correlation call.observation =
      .ok edges := by
    rw [ahead.state] at checked
    exact checked
  have okR : TelemetrySession.record call.timestamp call.correlation call.observation r =
      .ok () (u.committed (b.after calls) call.timestamp call.correlation call.observation
        edges) := by
    rw [record_eq modeR ahead.reached.summary, checkedR]
    exact commit_of_ok edges ahead.reached.summary emittedR consumes
  have reached := ahead.reached.record enabled okR
  have sampled := ahead.sampled.record enabled positive samplingR callFits.1 ahead.reached okR
  have runs : recordAll (calls ++ [call]) s₀ = .ok () (u.committed (b.after calls)
      call.timestamp call.correlation call.observation edges) := by
    rw [recordAll_append, bind_of_ok ahead.runs]
    unfold recordAll
    rw [forM_cons_apply, bind_of_ok okR]
    rfl
  refine ⟨_, _, {
    runs := runs
    reached := reached
    sampled := sampled
    sound := ?_
    le := Nat.le_refl _
    state := (sampledTo_self sampled.place _).symm
    series := fun less => absurd less (Nat.lt_irrefl _)
    short := ?_ }⟩
  · rw [SummaryBuilder.after_append]
    exact ahead.sound.consumed callFits.1
      (SummaryBuilder.validate_ok (checks_ok checked).2.2.2)
  · obtain ⟨configured, _, _, _, samples, _⟩ := committed_fields u (b.after calls)
      call.timestamp call.correlation call.observation edges
    have unchanged : u.configuration = r.configuration := by rw [out]; rfl
    rw [samples, configured, unchanged]
    exact short

/-- A finalization that is due throws only while it emits samples. -/
theorem finalize_eq {b : SummaryBuilder} (enabled : s.configuration.mode ≠ .off)
    (known : s.summary = some b) (unsealed : s.isFinalized = false)
    (ordered : ∀ last, s.lastTimestamp = some last → last ≤ timestamp)
    (closes : SummaryBuilder.finalize timestamp b = .ok () (b.finishedAt timestamp)) :
    finalize timestamp s =
      match emitSamplesUntil timestamp true s with
      | .ok _ t => .ok () (t.finishedAt b timestamp)
      | .error e t => .error e t := by
  have late : ¬ (s.configuration.mode ≠ .off ∧ s.lastTimestamp.any (timestamp < ·) = true) := by
    cases last : s.lastTimestamp with
    | none => simp
    | some time => simpa [enabled] using ordered time last
  unfold finalize
  rw [get_bind_apply, throwIf, if_neg (by simp [unsealed]), pure_bind, throwIf, if_neg late,
    pure_bind]
  cases emitted : emitSamplesUntil timestamp true s with
  | error e t => rw [bind_of_error emitted]
  | ok _ t =>
    obtain ⟨samples, next, rfl⟩ := wp_of_ok (emitSamplesUntil_frame s) emitted
    have found : requireSummary (s.withSamples samples next) = .ok b _ := requireSummary_eq known
    have summarized : onSummary (SummaryBuilder.finalize timestamp) (s.withSamples samples next) =
        .ok () { s.withSamples samples next with summary := some (b.finishedAt timestamp) } := by
      unfold onSummary
      rw [bind_of_ok found, closes]
      rfl
    rw [bind_of_ok emitted, runIf, if_pos (by rw [known]; rfl), bind_of_ok summarized]
    rfl

/-- A finalization that is not due changes nothing. -/
theorem finalize_refused
    (refused : s.isFinalized = true ∨
      s.configuration.mode ≠ .off ∧ s.lastTimestamp.any (timestamp < ·) = true) :
    ∃ e, finalize timestamp s = .error e s := by
  unfold finalize
  rw [get_bind_apply, throwIf]
  split
  · exact ⟨_, rfl⟩
  · rename_i unsealed
    rcases refused with sealed_ | late
    · exact absurd sealed_ unsealed
    · rw [pure_bind, throwIf, if_pos late]
      exact ⟨_, rfl⟩

theorem after_finalized (b : SummaryBuilder) (calls : List Observed) :
    (b.after calls).finalized = b.finalized := by
  induction calls using List.reverseRecOn with
  | nil => rfl
  | append_singleton calls call ih =>
    rw [SummaryBuilder.after_append, SummaryBuilder.consumed_finalized, ih]

theorem after_lastTimestamp {b : SummaryBuilder} (new : b.lastTimestamp = none)
    (calls : List Observed) :
    (b.after calls).lastTimestamp = calls.getLast?.map Observed.timestamp := by
  induction calls using List.reverseRecOn with
  | nil => exact new
  | append_singleton calls call ih => simp

/-- A summary that nothing has been fed to. -/
structure SummaryBuilder.New (b : SummaryBuilder) : Prop where
  unsealed : b.finalized = false
  last : b.lastTimestamp = none

theorem Ahead.closes (ahead : Ahead configuration b s₀ calls r m s) (new : SummaryBuilder.New b)
    (small : timestamp ≤ maxU64)
    (ordered : ∀ last, s.lastTimestamp = some last → last ≤ timestamp) :
    SummaryBuilder.finalize timestamp (b.after calls) =
      .ok () ((b.after calls).finishedAt timestamp) := by
  have last : s.lastTimestamp = (b.after calls).lastTimestamp := by
    rw [ahead.state, after_lastTimestamp new.last]
    exact ahead.reached.last
  exact SummaryBuilder.finalize_of_sound ahead.sound small
    ((after_finalized b calls).trans new.unsealed) (fun time known => ordered time (last.trans known))

theorem Ahead.unsealed (ahead : Ahead configuration b s₀ calls r m s) : s.isFinalized = false := by
  rw [ahead.state]
  exact ahead.reached.unsealed

theorem Ahead.finalize_rejected (ahead : Ahead configuration b s₀ calls r m s)
    (new : SummaryBuilder.New b) (enabled : configuration.mode ≠ .off)
    (sampling : s.retainsSamples = true) (positive : 0 < s.configuration.sampleIntervalNs)
    (fits : configuration.Fits) (small : timestamp ≤ maxU64)
    (thrown : finalize timestamp s = .error e t) :
    ∃ m', Ahead configuration b s₀ calls r m' t := by
  have mode : s.configuration.mode ≠ .off := ahead.configuration_eq ▸ enabled
  by_cases late : s.lastTimestamp.any (timestamp < ·) = true
  · obtain ⟨e', refused⟩ := finalize_refused (Or.inr ⟨mode, late⟩)
    rw [refused] at thrown
    cases thrown
    exact ⟨m, ahead⟩
  · have ordered : ∀ last, s.lastTimestamp = some last → last ≤ timestamp := by
      intro last known
      rw [known] at late
      simpa using late
    rw [finalize_eq mode ahead.summary ahead.unsealed ordered
      (ahead.closes new small ordered)] at thrown
    cases emitted : emitSamplesUntil timestamp true s with
    | ok _ u => rw [emitted] at thrown; cases thrown
    | error e' u =>
      rw [emitted] at thrown
      cases thrown
      exact ahead.stopped sampling positive fits small emitted

/-- The samples of a session ahead are lawful for the calls it accepted. -/
theorem Ahead.lawful (ahead : Ahead configuration b s₀ calls r m s)
    (positive : 0 < configuration.sampleIntervalNs) {p : Nat} (le : m ≤ p) :
    (s.sampledTo (b.after calls).metricSnapshots m p).samples =
      lawfulSamples b configuration.sampleIntervalNs calls p := by
  have step : 0 < r.configuration.sampleIntervalNs := ahead.reached.configuration_eq ▸ positive
  have before : ∀ other ∈ calls, other.timestamp ≤
      (passed r.configuration.sampleIntervalNs (lastTime calls) false + 1) *
        r.configuration.sampleIntervalNs :=
    fun other member => Nat.le_trans (ahead.reached.ordered other member) (le_next_boundary step _)
  rw [ahead.sampledTo le, ← ahead.reached.configuration_eq]
  show r.samples ++ frames _ _ _ _ = _
  rw [ahead.sampled.samples, lawfulSamples_extend (Nat.le_trans ahead.le le) before]

/-- A finalized session, where `r` is the one that only the accepted calls have reached. -/
structure Sealed (configuration : TelemetryConfiguration) (b : SummaryBuilder)
    (s₀ : TelemetrySession) (calls : List Observed) (final : SimTimeNs) (r : TelemetrySession)
    (m : Nat) (s : TelemetrySession) : Prop where
  reached : ∃ r₀, recordAll calls s₀ = .ok () r₀ ∧ Reached configuration b calls r₀
  runs : performAll (calls.map .record ++ [.finalize final]) s₀ = .ok () r
  isSealed : s.isFinalized = true
  configuration_eq : s.configuration = configuration
  summary : s.summary = some ((b.after calls).finishedAt final)
  state : s = r.withSamples s.samples s.nextSampleTimestamp
  samples : s.samples = lawfulSamples b configuration.sampleIntervalNs calls m

theorem Ahead.finalize_accepted (ahead : Ahead configuration b s₀ calls r m s) (enabled : configuration.mode ≠ .off)
    (sampling : s.retainsSamples = true) (positive : 0 < configuration.sampleIntervalNs)
    (fits : configuration.Fits) (small : timestamp ≤ maxU64)
    (ok : finalize timestamp s = .ok () t) :
    ∃ r' m', Sealed configuration b s₀ calls timestamp r' m' t := by
  have mode : s.configuration.mode ≠ .off := ahead.configuration_eq ▸ enabled
  have step : 0 < s.configuration.sampleIntervalNs := ahead.configuration_eq ▸ positive
  have limited : s.configuration.limits.samples ≤ maxU64 := ahead.configuration_eq ▸ fits.samples
  have same : s.configuration = r.configuration := by rw [ahead.state]; rfl
  obtain ⟨_, ordered, u, emitted, closes, rfl⟩ := finalize_ok mode ahead.summary ok
  have out := wp_of_ok (emitSamplesUntil_spec true sampling step small
    ahead.summary ahead.place) emitted
  have short := wp_of_ok (emitSamplesUntil_length timestamp true limited ahead.short) emitted
  have lawful := ahead.lawful positive (Nat.le_max_left m
    (passed s.configuration.sampleIntervalNs timestamp true))
  rw [← out] at lawful
  rw [ahead.sampledTo (Nat.le_max_left m _)] at out
  -- the accepted calls alone emit no more than is stored already
  have samplingR : r.retainsSamples = true := by
    rw [ahead.state] at sampling
    exact sampling
  have lessFrames : max (passed r.configuration.sampleIntervalNs (lastTime calls) false)
      (passed r.configuration.sampleIntervalNs timestamp true) ≤
      max m (passed s.configuration.sampleIntervalNs timestamp true) := by
    have le := ahead.le
    rw [same]
    omega
  have emittedR := emitSamplesUntil_of_fits true samplingR (same ▸ step) small
    ahead.reached.summary ahead.sampled.place (same ▸ limited) lessFrames
    (by rw [← out, ← same]; exact short)
  have orderedR : ∀ last, r.lastTimestamp = some last → last ≤ timestamp := by
    rw [ahead.state] at ordered
    exact ordered
  have okR := finalize_eq (same ▸ mode) ahead.reached.summary ahead.reached.unsealed orderedR closes
  rw [emittedR] at okR
  refine ⟨_, _, {
    reached := ⟨r, ahead.runs, ahead.reached⟩
    runs := performAll_append_ok ((performAll_records s₀).trans ahead.runs) okR
    isSealed := rfl
    configuration_eq := ?_
    summary := rfl
    state := ?_
    samples := lawful }⟩
  · show u.configuration = configuration
    rw [out]
    exact ahead.reached.configuration_eq
  · rw [out]
    rfl

theorem Sealed.refuses {final : SimTimeNs}
    (sealed_ : Sealed configuration b s₀ calls final r m s) (enabled : configuration.mode ≠ .off)
    (call : TelemetryCall) :
    ∃ e, perform call s = .error e s := by
  have mode : s.configuration.mode ≠ .off := sealed_.configuration_eq ▸ enabled
  cases call with
  | record call =>
    show ∃ e, record call.timestamp call.correlation call.observation s = .error e s
    rw [record_eq mode sealed_.summary, checks, if_pos sealed_.isSealed]
    exact ⟨_, rfl⟩
  | finalize timestamp => exact finalize_refused (Or.inl sealed_.isSealed)

end Ahead

/-! ## A session that keeps no samples -/

/-- A session without samples, level with its accepted calls. -/
structure Quiet (configuration : TelemetryConfiguration) (s₀ : TelemetrySession)
    (done : List TelemetryCall) (s : TelemetrySession) : Prop where
  runs : performAll done s₀ = .ok () s
  configuration_eq : s.configuration = configuration
  samples : s.samples = []
  none : configuration.mode = .off → s.summary = none
  summary : configuration.mode ≠ .off → ∃ b, s.summary = some b ∧
    (s.isFinalized = false → b.Sound ∧ b.finalized = false ∧ b.lastTimestamp = s.lastTimestamp)

section Quiet

variable {configuration : TelemetryConfiguration} {s₀ s t : TelemetrySession}
variable {done : List TelemetryCall} {call : TelemetryCall} {e : Error}

theorem record_off (observed : Observed) (off : s.configuration.mode = .off) :
    record observed.timestamp observed.correlation observed.observation s = .ok () s := by
  unfold record
  rw [get_bind_apply, runIf, if_neg (by simp [off])]
  rfl

theorem finalize_off (timestamp : SimTimeNs) (off : s.configuration.mode = .off)
    (none : s.summary = none) (unsealed : s.isFinalized = false) :
    finalize timestamp s = .ok () { s with lastTimestamp := some timestamp, isFinalized := true } := by
  have silent : s.retainsSamples = false := by simp [retainsSamples, off]
  unfold finalize
  rw [get_bind_apply, throwIf, if_neg (by simp [unsealed]), pure_bind, throwIf,
    if_neg (by simp [off]), pure_bind, bind_of_ok (emitSamplesUntil_off silent timestamp true),
    runIf, if_neg (by simp [none]), pure_bind]
  rfl

/-- An enabled session without samples: what each call does to it. -/
theorem Quiet.step_enabled (quiet : Quiet configuration s₀ done s)
    (enabled : configuration.mode ≠ .off) (silent : s.retainsSamples = false)
    (fits : call.Fits) :
    (∃ e, perform call s = .error e s) ∨
      ∃ t, perform call s = .ok () t ∧ Quiet configuration s₀ (done ++ [call]) t := by
  have mode : s.configuration.mode ≠ .off := quiet.configuration_eq ▸ enabled
  obtain ⟨b, known, state⟩ := quiet.summary enabled
  cases call with
  | record observed =>
    have run : record observed.timestamp observed.correlation observed.observation s = _ :=
      record_eq mode known
    -- all refusals of a record come from its checks, before anything changes
    cases checked : s.checks b observed.timestamp observed.correlation observed.observation with
    | error e =>
      rw [checked] at run
      exact .inl ⟨e, run⟩
    | ok edges =>
      rw [checked] at run
      obtain ⟨unsealed, _, _, valid⟩ := checks_ok checked
      obtain ⟨sound, notFinal, _⟩ := state unsealed
      -- once they have passed, the summary consumes it
      have consumes := SummaryBuilder.consume_of_valid sound fits.1 fits.2 valid
      have ok := run.trans (commit_of_ok edges known
        (emitSamplesUntil_off silent observed.timestamp false) consumes)
      obtain ⟨configured, sealed_, summarized, timed, samples, _⟩ := committed_fields s b
        observed.timestamp observed.correlation observed.observation edges
      refine .inr ⟨_, ok, {
        runs := performAll_append_ok quiet.runs ok
        configuration_eq := configured.trans quiet.configuration_eq
        samples := samples.trans quiet.samples
        none := fun off => absurd off enabled
        summary := fun _ => ⟨_, summarized, fun _ => ⟨?_, ?_, ?_⟩⟩ }⟩
      · exact sound.consumed fits.1 (SummaryBuilder.validate_ok valid)
      · rw [SummaryBuilder.consumed_finalized]
        exact notFinal
      · rw [SummaryBuilder.consumed_lastTimestamp, timed]
  | finalize timestamp =>
    -- finalizing refuses at once or goes through
    by_cases refused : s.isFinalized = true ∨
        s.configuration.mode ≠ .off ∧ s.lastTimestamp.any (timestamp < ·) = true
    · exact .inl (finalize_refused refused)
    · rw [not_or, not_and] at refused
      have unsealed : s.isFinalized = false := Bool.eq_false_of_not_eq_true refused.1
      have ordered : ∀ last, s.lastTimestamp = some last → last ≤ timestamp := by
        intro last here
        have late := refused.2 mode
        rw [here] at late
        simpa using late
      obtain ⟨sound, notFinal, last⟩ := state unsealed
      have closes := SummaryBuilder.finalize_of_sound sound fits notFinal
        (fun time here => ordered time (last.symm.trans here))
      have ok := finalize_eq mode known unsealed ordered closes
      rw [emitSamplesUntil_off silent timestamp true] at ok
      exact .inr ⟨_, ok, {
        runs := performAll_append_ok quiet.runs ok
        configuration_eq := quiet.configuration_eq
        samples := quiet.samples
        none := fun off => absurd off enabled
        summary := fun _ => ⟨_, rfl, fun open_ => absurd open_ (by simp [finishedAt])⟩ }⟩

theorem Quiet.step_off (quiet : Quiet configuration s₀ done s)
    (off : configuration.mode = .off) :
    (∃ e, perform call s = .error e s) ∨
      ∃ t, perform call s = .ok () t ∧ Quiet configuration s₀ (done ++ [call]) t := by
  have mode : s.configuration.mode = .off := quiet.configuration_eq ▸ off
  cases call with
  | record observed =>
    have ok := record_off observed mode
    exact .inr ⟨s, ok, { quiet with runs := performAll_append_ok quiet.runs ok }⟩
  | finalize timestamp =>
    cases sealed_ : s.isFinalized with
    | true => exact .inl (finalize_refused (Or.inl sealed_))
    | false =>
      have ok := finalize_off timestamp mode (quiet.none off) sealed_
      exact .inr ⟨_, ok, {
        runs := performAll_append_ok quiet.runs ok
        configuration_eq := quiet.configuration_eq
        samples := quiet.samples
        none := quiet.none
        summary := fun enabled => absurd off enabled }⟩

end Quiet


/-! ## What the accepted calls leave -/

theorem consumeAll_of_recordAll {configuration : TelemetryConfiguration} {b : SummaryBuilder}
    (enabled : configuration.mode ≠ .off) : ∀ {rest calls : List Observed}
    {s s' : TelemetrySession}, Reached configuration b calls s → recordAll rest s = .ok () s' →
    SummaryBuilder.consumeAll rest (b.after calls) = .ok () (b.after (calls ++ rest)) := by
  intro rest
  induction rest with
  | nil =>
    intro calls s s' _ _
    rw [List.append_nil]
    rfl
  | cons call rest ih =>
    intro calls s s' reached ok
    have mode : s.configuration.mode ≠ .off := reached.configuration_eq ▸ enabled
    unfold recordAll at ok
    rw [forM_cons_apply] at ok
    obtain ⟨_, t, first, others⟩ := ok_of_bind ok
    obtain ⟨_, _, _, _, consumes, _⟩ := record_ok mode reached.summary first
    have later := ih (reached.record enabled first) others
    rw [SummaryBuilder.after_append, List.append_assoc] at later
    unfold SummaryBuilder.consumeAll at later ⊢
    rw [forM_cons_apply, bind_of_ok consumes]
    exact later

theorem find_of_mem_sampleFrame {b : SummaryBuilder} {time : SimTimeNs} {sample : MetricSample}
    (member : sample ∈ sampleFrame b.metricSnapshots time) :
    sample.timestamp = time ∧ ∃ series, b.metrics.find sample.metric sample.labels = some series ∧
      series.kind = sample.kind ∧ series.scalar = sample.value := by
  unfold sampleFrame at member
  obtain ⟨series, stored, rfl⟩ := List.mem_map.mp member
  obtain ⟨entry, found, rfl⟩ := List.mem_map.mp (List.mem_of_mem_filter stored)
  refine ⟨rfl, MetricRegistry.snapshotOf entry.1 entry.2, ?_, rfl, rfl⟩
  have here : b.metrics.series.find? entry.1 = some entry.2 :=
    OrderedMap.find?_eq_some_iff.mpr found
  show (b.metrics.series.find? entry.1).map (MetricRegistry.snapshotOf entry.1) = _
  rw [here]
  rfl

theorem sampleLawful_of_mem {configuration : TelemetryConfiguration} {b : SummaryBuilder}
    {calls : List Observed} {r : TelemetrySession} {m interval : Nat} {sample : MetricSample}
    (enabled : configuration.mode ≠ .off)
    (runs : recordAll calls (fresh configuration b) = .ok () r)
    (member : sample ∈ lawfulSamples b interval calls m) : SampleLawful b calls sample := by
  have start := Reached.fresh configuration b
  have increasing := (start.recordAll enabled runs).increasing
  unfold lawfulSamples at member
  obtain ⟨k, _, inFrame⟩ := List.mem_flatMap.mp member
  obtain ⟨stamped, series, found, kind, value⟩ := find_of_mem_sampleFrame inFrame
  obtain ⟨t, run⟩ := recordAll_upTo (k * interval) increasing runs
  refine ⟨b.after (upTo calls (k * interval)), series, ?_, found, kind, value⟩
  rw [stamped]
  exact consumeAll_of_recordAll enabled start run

theorem observations_map (calls : List Observed) :
    observations (calls.map TelemetryCall.record) = calls := by
  unfold observations
  rw [List.filterMap_map]
  exact List.filterMap_some

theorem observations_append (first second : List TelemetryCall) :
    observations (first ++ second) = observations first ++ observations second :=
  List.filterMap_append

/-- A session that differs from the accepted calls' own in its samples at most, and whose samples
are lawful for them, shows no effect of the rejected calls. -/
theorem rejectedWithoutEffect_of_level {s₀ r : TelemetrySession} {calls : List TelemetryCall}
    (runs : performAll (s₀.attempt calls).1 s₀ = .ok () r)
    (state : (s₀.attempt calls).2 =
      r.withSamples (s₀.attempt calls).2.samples (s₀.attempt calls).2.nextSampleTimestamp)
    (samples : ∀ sample ∈ (s₀.attempt calls).2.samples, ∃ b, s₀.summary = some b ∧
      SampleLawful b (observations (s₀.attempt calls).1) sample) :
    RejectedWithoutEffect s₀ calls := by
  have level := attempt_of_performAll runs
  refine ⟨?_, ?_, ?_, ?_, ?_, samples⟩ <;> rw [level, state] <;> rfl

theorem SummaryBuilder.New.of_create {series boundaries : Nat} {b : SummaryBuilder}
    (ok : SummaryBuilder.create series boundaries = .ok b) : SummaryBuilder.New b := by
  unfold SummaryBuilder.create MetricRegistry.create at ok
  split at ok
  · cases ok
  · cases valid : validateMetricCatalog metricCatalog boundaries with
    | error e => rw [valid] at ok; cases ok
    | ok _ => rw [valid] at ok; cases ok; exact ⟨rfl, rfl⟩

/-- Sampling sessions: in a clear run they are ahead or sealed all along. -/
theorem rejected_without_effect_sampling {configuration : TelemetryConfiguration}
    {b : SummaryBuilder} {calls : List TelemetryCall}
    (sampling : configuration.mode = .sampled ∨ configuration.mode = .full)
    (fits : configuration.Fits) (positive : 0 < configuration.sampleIntervalNs)
    (made : SummaryBuilder.create configuration.limits.metricSeries
      configuration.limits.histogramBoundaries = .ok b)
    (callsFit : ∀ call ∈ calls, call.Fits) (clear : (fresh configuration b).ClearRun calls) :
    RejectedWithoutEffect (fresh configuration b) calls := by
  have enabled : configuration.mode ≠ .off := by
    rcases sampling with mode | mode <;> rw [mode] <;> decide
  have new := SummaryBuilder.New.of_create made
  have keeps : ∀ s : TelemetrySession, s.configuration = configuration →
      s.retainsSamples = true := by
    intro s same
    unfold retainsSamples
    rw [same]
    simpa using sampling
  -- a session is ahead of its observations until it is finalized, and then sealed
  let I : List TelemetryCall → TelemetrySession → Prop := fun done s =>
    (∃ observed r m, done = observed.map .record ∧
      Ahead configuration b (fresh configuration b) observed r m s) ∨
    ∃ observed final r m, done = observed.map .record ++ [.finalize final] ∧
      Sealed configuration b (fresh configuration b) observed final r m s
  have accepted : ∀ done s t call, I done s → call.Fits → s.Clear call →
      perform call s = .ok () t → I (done ++ [call]) t := by
    rintro done s t call (⟨observed, r, m, rfl, ahead⟩ | ⟨observed, final, r, m, _, sealed_⟩) here
      clear ok
    · have samples := keeps s ahead.configuration_eq
      cases call with
      | record next =>
        obtain ⟨r', m', further⟩ := ahead.record_accepted enabled samples positive fits here clear ok
        exact .inl ⟨observed ++ [next], r', m', by simp, further⟩
      | finalize final =>
        obtain ⟨r', m', closed⟩ := ahead.finalize_accepted enabled samples positive fits here ok
        exact .inr ⟨observed, final, r', m', rfl, closed⟩
    · obtain ⟨e, refused⟩ := sealed_.refuses enabled call
      rw [refused] at ok
      cases ok
  have rejected : ∀ done s t e call, I done s → call.Fits → s.Clear call →
      perform call s = .error e t → I done t := by
    rintro done s t e call (⟨observed, r, m, rfl, ahead⟩ | ⟨observed, final, r, m, same, sealed_⟩)
      here clear thrown
    · have samples := keeps s ahead.configuration_eq
      have step : 0 < s.configuration.sampleIntervalNs := ahead.configuration_eq ▸ positive
      cases call with
      | record next =>
        obtain ⟨m', further⟩ := ahead.record_rejected enabled samples step fits here thrown
        exact .inl ⟨observed, r, m', rfl, further⟩
      | finalize final =>
        obtain ⟨m', further⟩ := ahead.finalize_rejected new enabled samples step fits here thrown
        exact .inl ⟨observed, r, m', rfl, further⟩
    · obtain ⟨e', refused⟩ := sealed_.refuses enabled call
      rw [refused] at thrown
      cases thrown
      exact .inr ⟨observed, final, r, m, same, sealed_⟩
  have start : I [] (fresh configuration b) := by
    have sampled := Sampled.fresh b fits.interval
    exact .inl ⟨[], fresh configuration b, _, rfl, {
      runs := rfl
      reached := Reached.fresh configuration b
      sampled := sampled
      sound := SummaryBuilder.sound_create fits.series made
      le := Nat.le_refl _
      state := (sampledTo_self sampled.place _).symm
      series := fun less => absurd less (Nat.lt_irrefl _)
      short := Nat.zero_le _ }⟩
  have whole := attempt_invariant accepted rejected start callsFit clear
  rw [List.nil_append] at whole
  rcases whole with ⟨observed, r, m, same, ahead⟩ | ⟨observed, final, r, m, same, sealed_⟩
  · refine rejectedWithoutEffect_of_level (r := r) ?_ ?_ ?_
    · rw [same, performAll_records]
      exact ahead.runs
    · rw [ahead.state]
      rfl
    · intro sample member
      have lawful := ahead.lawful positive (Nat.le_refl m)
      rw [sampledTo_self ahead.place] at lawful
      rw [lawful] at member
      rw [same, observations_map]
      exact ⟨b, rfl, sampleLawful_of_mem enabled ahead.runs member⟩
  · obtain ⟨r₀, recorded, _⟩ := sealed_.reached
    refine rejectedWithoutEffect_of_level (same ▸ sealed_.runs) sealed_.state ?_
    intro sample member
    rw [sealed_.samples] at member
    have all : observations (observed.map TelemetryCall.record ++ [.finalize final]) = observed := by
      rw [observations_append, observations_map]
      exact List.append_nil observed
    rw [same, all]
    exact ⟨b, rfl, sampleLawful_of_mem enabled recorded member⟩

/-- Sessions that keep no samples: they are level with their accepted calls all along. -/
theorem rejected_without_effect_quiet {configuration : TelemetryConfiguration}
    {s₀ : TelemetrySession} {calls : List TelemetryCall}
    (silent : ¬ (configuration.mode = .sampled ∨ configuration.mode = .full))
    (start : Quiet configuration s₀ [] s₀)
    (callsFit : ∀ call ∈ calls, call.Fits) (clear : s₀.ClearRun calls) :
    RejectedWithoutEffect s₀ calls := by
  have step : ∀ done s call, Quiet configuration s₀ done s → call.Fits →
      (∃ e, perform call s = .error e s) ∨
        ∃ t, perform call s = .ok () t ∧ Quiet configuration s₀ (done ++ [call]) t := by
    intro done s call quiet here
    by_cases off : configuration.mode = .off
    · exact quiet.step_off off
    · refine quiet.step_enabled off ?_ here
      unfold retainsSamples
      rw [quiet.configuration_eq]
      simpa using silent
  have whole := attempt_invariant (I := Quiet configuration s₀) (P := TelemetryCall.Fits) ?_ ?_
    start callsFit clear
  · rw [List.nil_append] at whole
    refine rejectedWithoutEffect_of_level whole.runs rfl ?_
    intro sample member
    rw [whole.samples] at member
    exact absurd member List.not_mem_nil
  · intro done s t call quiet here _ ok
    rcases step done s call quiet here with ⟨e, refused⟩ | ⟨u, accepted, next⟩
    · rw [refused] at ok
      cases ok
    · rw [accepted] at ok
      cases ok
      exact next
  · intro done s t e call quiet here _ thrown
    rcases step done s call quiet here with ⟨e', refused⟩ | ⟨u, accepted, _⟩
    · rw [refused] at thrown
      cases thrown
      exact quiet
    · rw [accepted] at thrown
      cases thrown

/-- In a run in which every record call that passes its checks is later than the samples retained
before it, rejected calls have no effect. -/
theorem rejected_calls_without_effect {configuration : TelemetryConfiguration}
    {s₀ : TelemetrySession} {calls : List TelemetryCall} (fits : configuration.Fits)
    (callsFit : ∀ call ∈ calls, call.Fits) (created : create configuration = .ok s₀)
    (clear : s₀.ClearRun calls) : RejectedWithoutEffect s₀ calls := by
  by_cases off : configuration.mode = .off
  · have start : s₀.configuration = configuration ∧ s₀.samples = [] ∧ s₀.summary = none := by
      unfold create at created
      cases valid : validateConfiguration configuration with
      | error e => rw [valid] at created; cases created
      | ok _ =>
        rw [valid, ok_bind] at created
        simp only [if_pos off] at created
        cases created
        exact ⟨rfl, rfl, rfl⟩
    have silent : ¬ (configuration.mode = .sampled ∨ configuration.mode = .full) := by
      rw [off]
      decide
    exact rejected_without_effect_quiet silent
      ⟨rfl, start.1, start.2.1, fun _ => start.2.2, fun enabled => absurd off enabled⟩ callsFit clear
  · obtain ⟨b, made, valid, rfl⟩ := create_ok off created
    by_cases sampling : configuration.mode = .sampled ∨ configuration.mode = .full
    · exact rejected_without_effect_sampling sampling fits (positive_of_valid valid) made callsFit
        clear
    · have new := SummaryBuilder.New.of_create made
      have sound := SummaryBuilder.sound_create fits.series made
      exact rejected_without_effect_quiet sampling
        ⟨rfl, rfl, rfl, fun mode => absurd mode off,
          fun _ => ⟨b, rfl, fun _ => ⟨sound, new.unsealed, new.last⟩⟩⟩ callsFit clear

/-- Room for one sample. -/
def oneSample : TelemetryConfiguration :=
  { mode := .sampled, sampleIntervalNs := 10, limits := { samples := 1 } }

def dispatched (timestamp : SimTimeNs) (amount : Nat) : TelemetryCall :=
  .record ⟨timestamp, {}, .counter ⟨.simulationDispatchedEvents, .none, amount⟩⟩

theorem oneSample_created : create oneSample = .ok (fresh oneSample SummaryBuilder.fresh) :=
  create_default (by decide) (by decide) rfl rfl

/-- A call at 15 comes after the frame that the rejected call at 21 has left. -/
theorem rejected_calls_without_effect_oneSample :
    RejectedWithoutEffect (fresh oneSample SummaryBuilder.fresh)
      [dispatched 0 2, dispatched 21 1, dispatched 15 3] := by
  refine rejected_calls_without_effect ⟨by decide, by decide, by decide⟩ (by decide)
    oneSample_created ⟨?_, ?_, ?_, trivial⟩
  · exact fun _ _ _ _ => by decide +kernel
  · exact fun _ _ _ _ => by decide +kernel
  · exact fun _ _ _ _ => by decide +kernel

/-- The call at 21 throws at its second frame, and its first one, of time 10, stays; the call at 5
is accepted afterwards, and the sample is not the value at its time. -/
theorem dispatched_five : (match SummaryBuilder.consumeAll (upTo (observations
    ((fresh oneSample SummaryBuilder.fresh).attempt
      [dispatched 0 2, dispatched 21 1, dispatched 5 3]).1) 10) SummaryBuilder.fresh with
    | .ok _ c => (c.metrics.find .simulationDispatchedEvents .none).map (·.scalar)
    | .error _ _ => none) = some 5 := by decide +kernel

theorem rejected_call_leaves_stale_sample :
    create oneSample = .ok (fresh oneSample SummaryBuilder.fresh) ∧
      ¬ RejectedWithoutEffect (fresh oneSample SummaryBuilder.fresh)
        [dispatched 0 2, dispatched 21 1, dispatched 5 3] := by
  refine ⟨oneSample_created, fun claim => ?_⟩
  have stored : (⟨.simulationDispatchedEvents, .none, .counter, 2, 10⟩ : MetricSample) ∈
      ((fresh oneSample SummaryBuilder.fresh).attempt
        [dispatched 0 2, dispatched 21 1, dispatched 5 3]).2.samples := by decide +kernel
  obtain ⟨b, known, b', series, run, found, _, value⟩ := claim.samples _ stored
  cases known
  have same : (match SummaryBuilder.consumeAll (upTo (observations
      ((fresh oneSample SummaryBuilder.fresh).attempt
        [dispatched 0 2, dispatched 21 1, dispatched 5 3]).1) 10) SummaryBuilder.fresh with
      | .ok _ c => (c.metrics.find .simulationDispatchedEvents .none).map (·.scalar)
      | .error _ _ => none) = some 2 := by
    have here : b'.metrics.find .simulationDispatchedEvents .none = some series := found
    rw [run]
    show (b'.metrics.find .simulationDispatchedEvents .none).map _ = _
    rw [here]
    exact congrArg some value
  rw [dispatched_five] at same
  cases same

end TelemetrySession

end NexusLab.Telemetry
