import NexusLab.Telemetry.Session
import NexusLab.Telemetry.SummarySpec

/-! # Sampling

Samples are emitted late: an observation emits the frames of the boundaries before its timestamp,
and finalization those up to its own.  Counted in boundaries, both are one law: after `n` boundaries
have passed, the frames of the boundaries `n + 1 … m` follow, each with the series as they are.
Skipping boundaries while no series exists is the case of empty frames. -/

namespace NexusLab.Telemetry

open Foundation

namespace TelemetrySession

/-! ## Boundaries -/

/-- The next boundary after `n` of them, unless it lies beyond the 64-bit range. -/
def boundary (interval n : Nat) : Option SimTimeNs :=
  if (n + 1) * interval ≤ maxU64 then some ((n + 1) * interval) else none

/-- The last timestamp whose boundary is due. -/
def lastEligible (timestamp : SimTimeNs) (inclusive : Bool) : SimTimeNs :=
  if inclusive then timestamp else timestamp - 1

/-- How many boundaries are due at a timestamp. -/
def passed (interval : Nat) (timestamp : SimTimeNs) (inclusive : Bool) : Nat :=
  lastEligible timestamp inclusive / interval

theorem sampleDue_iff {interval n : Nat} {timestamp : SimTimeNs} {inclusive : Bool}
    (positive : 0 < interval) :
    sampleDue ((n + 1) * interval) timestamp inclusive = true ↔
      n < passed interval timestamp inclusive := by
  have grown : interval ≤ (n + 1) * interval := Nat.le_mul_of_pos_left interval (Nat.succ_pos n)
  unfold passed lastEligible
  rw [← Nat.succ_le_iff, Nat.le_div_iff_mul_le positive]
  generalize bound : (n + 1) * interval = due at grown
  have time : ∀ t : Nat, sampleDue due t inclusive = true ↔
      due ≤ (if inclusive then t else t - 1) := by
    intro t
    have plain : sampleDue due t inclusive =
      (decide (due < t) || (inclusive && decide (due = t))) := rfl
    rw [plain]
    cases inclusive <;> simp <;> omega
  exact time timestamp

theorem boundary_none {interval n : Nat} {timestamp : SimTimeNs} (inclusive : Bool)
    (positive : 0 < interval) (small : timestamp ≤ maxU64) (none : boundary interval n = none) :
    passed interval timestamp inclusive ≤ n := by
  unfold boundary at none
  split at none
  · cases none
  · rename_i beyond
    have eligible : lastEligible timestamp inclusive ≤ maxU64 := by
      unfold lastEligible
      split
      · exact small
      · exact Nat.le_trans (Nat.sub_le _ _) small
    unfold passed
    exact Nat.lt_succ_iff.mp ((Nat.div_lt_iff_lt_mul positive).mpr
      (Nat.lt_of_le_of_lt eligible (Nat.not_le.mp beyond)))

theorem boundary_some {interval n : Nat} {next : SimTimeNs}
    (some : boundary interval n = some next) :
    next = (n + 1) * interval ∧ (n + 1) * interval ≤ maxU64 := by
  unfold boundary at some
  split at some
  · cases some
    exact ⟨rfl, ‹_›⟩
  · cases some

theorem boundary_advance {interval n : Nat} (within : (n + 1) * interval ≤ maxU64) :
    (if interval > maxU64 - (n + 1) * interval then none
      else some ((n + 1) * interval + interval)) = boundary interval (n + 1) := by
  unfold boundary
  rw [Nat.succ_mul (n + 1) interval]
  split <;> split <;> first | rfl | omega

/-! ## Frames -/

/-- The frames of the boundaries `n + 1 … m`. -/
def frames (interval : Nat) (snapshots : List MetricSeriesSnapshot) (n m : Nat) :
    List MetricSample :=
  (List.range' (n + 1) (m - n)).flatMap fun k => sampleFrame snapshots (k * interval)

@[simp] theorem frames_self (interval : Nat) (snapshots : List MetricSeriesSnapshot) (n : Nat) :
    frames interval snapshots n n = [] := by
  simp [frames]

theorem frames_succ (interval : Nat) (snapshots : List MetricSeriesSnapshot) {n m : Nat}
    (less : n < m) : frames interval snapshots n m =
      sampleFrame snapshots ((n + 1) * interval) ++ frames interval snapshots (n + 1) m := by
  unfold frames
  obtain ⟨count, rfl⟩ : ∃ count, m = n + 1 + count := ⟨m - (n + 1), by omega⟩
  rw [show n + 1 + count - n = count + 1 by omega, Nat.add_sub_cancel_left, List.range'_succ,
    List.flatMap_cons]

theorem frames_append (interval : Nat) (snapshots : List MetricSeriesSnapshot) {n m p : Nat}
    (first : n ≤ m) (second : m ≤ p) :
    frames interval snapshots n m ++ frames interval snapshots m p =
      frames interval snapshots n p := by
  unfold frames
  obtain ⟨a, rfl⟩ := Nat.exists_eq_add_of_le first
  obtain ⟨b, rfl⟩ := Nat.exists_eq_add_of_le second
  rw [← List.flatMap_append, show n + a - n = a by omega, show n + a + b - (n + a) = b by omega,
    show n + a + b - n = a + b by omega, show n + a + 1 = n + 1 + a by omega,
    List.range'_append_1]

theorem sampleFrame_eq_nil {snapshots : List MetricSeriesSnapshot}
    (none : snapshots.any (fun snapshot => isSampledMetricKind snapshot.kind) = false)
    (timestamp : SimTimeNs) : sampleFrame snapshots timestamp = [] := by
  unfold sampleFrame
  rw [List.filter_eq_nil_iff.mpr, List.map_nil]
  intro snapshot member sampled
  rw [List.any_eq_false] at none
  exact none snapshot member sampled

theorem frames_eq_nil {snapshots : List MetricSeriesSnapshot}
    (none : snapshots.any (fun snapshot => isSampledMetricKind snapshot.kind) = false)
    (interval n m : Nat) : frames interval snapshots n m = [] := by
  unfold frames
  rw [List.flatMap_eq_nil_iff]
  intro k _
  exact sampleFrame_eq_nil none _

/-! ## Emission -/

/-- A session with other samples and another next boundary. -/
def withSamples (s : TelemetrySession) (samples : List MetricSample)
    (next : Option SimTimeNs) : TelemetrySession :=
  { s with samples, nextSampleTimestamp := next }

/-- A session that has passed `n` boundaries, once it has passed `m`. -/
def sampledTo (s : TelemetrySession) (snapshots : List MetricSeriesSnapshot) (n m : Nat) :
    TelemetrySession :=
  s.withSamples (s.samples ++ frames s.configuration.sampleIntervalNs snapshots n m)
    (boundary s.configuration.sampleIntervalNs m)

def sampleLimit : Error := .lengthError "telemetry sample limit exceeded"

section Emission

variable {s : TelemetrySession} {b : SummaryBuilder} {n : Nat}
variable {timestamp : SimTimeNs} {inclusive : Bool}

theorem sampledTo_self (at_ : s.nextSampleTimestamp = boundary s.configuration.sampleIntervalNs n)
    (snapshots : List MetricSeriesSnapshot) : s.sampledTo snapshots n n = s := by
  unfold sampledTo withSamples
  rw [frames_self, List.append_nil, ← at_]

/-- One more frame and then the rest. -/
theorem sampledTo_step {m : Nat} (snapshots : List MetricSeriesSnapshot) (less : n < m) :
    (s.sampledTo snapshots n (n + 1)).sampledTo snapshots (n + 1) m =
      s.sampledTo snapshots n m := by
  unfold sampledTo withSamples
  simp only [List.append_assoc]
  rw [frames_append _ _ (Nat.le_succ n) less]

theorem requireSummary_eq (known : s.summary = some b) : requireSummary s = .ok b s := by
  unfold requireSummary
  rw [get_bind_apply, known]
  rfl

theorem appendSampleFrame_eq (known : s.summary = some b) (at_ : SimTimeNs) :
    appendSampleFrame at_ s =
      if (sampleFrame b.metricSnapshots at_).length >
          U64.sub s.configuration.limits.samples s.samples.length then
        .error sampleLimit s
      else .ok () { s with samples := s.samples ++ sampleFrame b.metricSnapshots at_ } := by
  unfold appendSampleFrame
  rw [bind_of_ok (requireSummary_eq known), get_bind_apply, throwIf]
  split <;> rfl

/-- The frame of the next boundary and the move past it. -/
theorem frame_step (known : s.summary = some b)
    (within : (n + 1) * s.configuration.sampleIntervalNs ≤ maxU64) :
    (appendSampleFrame ((n + 1) * s.configuration.sampleIntervalNs) >>= fun _ =>
        modify fun t => t.advanceSampleTimestamp ((n + 1) * s.configuration.sampleIntervalNs)) s =
      if (sampleFrame b.metricSnapshots ((n + 1) * s.configuration.sampleIntervalNs)).length >
          U64.sub s.configuration.limits.samples s.samples.length then
        .error sampleLimit s
      else .ok () (s.sampledTo b.metricSnapshots n (n + 1)) := by
  have single : frames s.configuration.sampleIntervalNs b.metricSnapshots n (n + 1) =
      sampleFrame b.metricSnapshots ((n + 1) * s.configuration.sampleIntervalNs) := by
    rw [frames_succ _ _ (Nat.lt_succ_self n), frames_self, List.append_nil]
  have appended := appendSampleFrame_eq known ((n + 1) * s.configuration.sampleIntervalNs)
  by_cases full : (sampleFrame b.metricSnapshots
      ((n + 1) * s.configuration.sampleIntervalNs)).length >
        U64.sub s.configuration.limits.samples s.samples.length
  · rw [if_pos full] at appended ⊢
    exact bind_of_error appended
  · rw [if_neg full] at appended ⊢
    rw [bind_of_ok appended]
    unfold sampledTo withSamples
    rw [single, ← boundary_advance within]
    show EStateM.Result.ok _ (advanceSampleTimestamp _ _) = _
    unfold advanceSampleTimestamp
    split <;> rfl

/-- Why emission stopped at `m` boundaries. -/
def StoppedAt (s : TelemetrySession) (snapshots : List MetricSeriesSnapshot) (n m : Nat) : Prop :=
  n ≤ m ∧ (sampleFrame snapshots ((m + 1) * s.configuration.sampleIntervalNs)).length >
    U64.sub s.configuration.limits.samples (s.sampledTo snapshots n m).samples.length

/-- Emitting frame by frame passes every due boundary, or stops before the first frame that does
not fit. -/
theorem emitFrames_spec (inclusive : Bool) (small : timestamp ≤ maxU64) : ∀ (fuel : Nat) {s : TelemetrySession}
    {n : Nat}, 0 < s.configuration.sampleIntervalNs → s.summary = some b →
    s.nextSampleTimestamp = boundary s.configuration.sampleIntervalNs n →
    passed s.configuration.sampleIntervalNs timestamp inclusive - n ≤ fuel →
    wp (emitFrames timestamp inclusive fuel)
      (fun _ t => t = s.sampledTo b.metricSnapshots n
        (max n (passed s.configuration.sampleIntervalNs timestamp inclusive)))
      (fun e t => e = sampleLimit ∧ ∃ m, s.StoppedAt b.metricSnapshots n m ∧
        m < passed s.configuration.sampleIntervalNs timestamp inclusive ∧
        t = s.sampledTo b.metricSnapshots n m) s := by
  intro fuel
  -- on the fuel, of which there is as much as there are frames due
  induction fuel with
  | zero =>
    intro s n _ known place enough
    rw [Nat.max_eq_left (Nat.le_of_sub_eq_zero (Nat.le_zero.mp enough)), sampledTo_self place]
    rfl
  | succ fuel ih =>
    intro s n positive known place enough
    unfold emitFrames
    rw [wp_bind, wp_get]
    cases next : s.nextSampleTimestamp with
    | none =>
      have done := boundary_none inclusive positive small
        (place.symm.trans next)
      rw [Nat.max_eq_left done, sampledTo_self place]
      rfl
    | some due =>
      obtain ⟨rfl, within⟩ := boundary_some (place.symm.trans next)
      simp only
      rw [wp_runIf, sampleDue_iff positive]
      constructor
      · intro isDue
        have step := frame_step known within
        have rest := ih (s := s.sampledTo b.metricSnapshots n (n + 1)) (n := n + 1) positive known
          rfl (show passed s.configuration.sampleIntervalNs timestamp inclusive - (n + 1) ≤ fuel
            by omega)
        -- a frame and its advance: either both happen or the limit is met before
        have both : wp (appendSampleFrame ((n + 1) * s.configuration.sampleIntervalNs) >>= fun _ =>
            modify fun t => t.advanceSampleTimestamp ((n + 1) * s.configuration.sampleIntervalNs))
            (fun _ t => t = s.sampledTo b.metricSnapshots n (n + 1))
            (fun e t => e = sampleLimit ∧ t = s ∧ s.StoppedAt b.metricSnapshots n n) s := by
          unfold wp
          rw [step]
          split at step
          · rename_i full
            rw [if_pos full]
            refine ⟨rfl, rfl, Nat.le_refl n, ?_⟩
            rwa [sampledTo_self place]
          · rename_i fits
            rw [if_neg fits]
        rw [wp_bind]
        refine wp_mono (wp_bind _ _ _ _ _ |>.mp both) ?_ ?_
        · intro _ t advanced
          rw [wp_modify] at advanced
          rw [wp_bind, wp_modify, advanced]
          refine wp_mono rest ?_ ?_
          · rintro _ t' rfl
            rw [Nat.max_eq_right (Nat.le_of_lt isDue), ← sampledTo_step _ isDue]
            exact congrArg (sampledTo _ _ _) (Nat.max_eq_right isDue)
          · rintro e t' ⟨rfl, m, ⟨later, full⟩, before, rfl⟩
            rw [sampledTo_step _ (Nat.lt_of_succ_le later)] at full ⊢
            exact ⟨rfl, m, ⟨Nat.le_of_succ_le later, full⟩, before, rfl⟩
        · rintro e t ⟨rfl, rfl, stopped⟩
          exact ⟨rfl, n, stopped, isDue, (sampledTo_self place _).symm⟩
      · intro notDue
        rw [Nat.max_eq_left (Nat.le_of_not_lt notDue), sampledTo_self place]

/-- The closed form of the skip: it passes every due boundary at once. -/
theorem skipEmptySampleBoundaries_eq (positive : 0 < s.configuration.sampleIntervalNs)
    (small : timestamp ≤ maxU64)
    (place : s.nextSampleTimestamp = boundary s.configuration.sampleIntervalNs n) :
    s.skipEmptySampleBoundaries timestamp inclusive =
      s.withSamples s.samples (boundary s.configuration.sampleIntervalNs
        (max n (passed s.configuration.sampleIntervalNs timestamp inclusive))) := by
  -- nothing is due
  have stay : passed s.configuration.sampleIntervalNs timestamp inclusive ≤ n →
      s = s.withSamples s.samples (boundary s.configuration.sampleIntervalNs
        (max n (passed s.configuration.sampleIntervalNs timestamp inclusive))) := by
    intro done
    rw [Nat.max_eq_left done, ← place]
    rfl
  unfold skipEmptySampleBoundaries
  cases next : s.nextSampleTimestamp with
  | none => exact stay (boundary_none inclusive positive small (place.symm.trans next))
  | some first =>
    obtain ⟨rfl, within⟩ := boundary_some (place.symm.trans next)
    have eligibleTime : (if inclusive = true then timestamp else timestamp - 1) =
      lastEligible timestamp inclusive := rfl
    simp only [eligibleTime]
    split
    · rename_i start
      refine stay ?_
      unfold passed lastEligible
      rw [start.1, start.2]
      simp
    · split
      · rename_i notYet
        refine stay (Nat.lt_succ_iff.mp ((Nat.div_lt_iff_lt_mul positive).mpr ?_))
        exact notYet
      · rename_i begun reached
        have eligible : lastEligible timestamp inclusive ≤ maxU64 := by
          unfold lastEligible
          split
          · exact small
          · exact Nat.le_trans (Nat.sub_le _ _) small
        have due : (n + 1) * s.configuration.sampleIntervalNs ≤
            lastEligible timestamp inclusive := Nat.le_of_not_lt reached
        have count : n + 1 ≤ passed s.configuration.sampleIntervalNs timestamp inclusive :=
          (Nat.le_div_iff_mul_le positive).mpr due
        obtain ⟨more, whole⟩ := Nat.exists_eq_add_of_le count
        -- the division finds how many boundaries are due beyond the next one
        have intervals : (lastEligible timestamp inclusive -
            (n + 1) * s.configuration.sampleIntervalNs) / s.configuration.sampleIntervalNs =
              more := by
          rw [Nat.mul_comm (n + 1), Nat.sub_mul_div]
          show passed s.configuration.sampleIntervalNs timestamp inclusive - (n + 1) = more
          omega
        have last : (n + 1) * s.configuration.sampleIntervalNs +
            more * s.configuration.sampleIntervalNs =
              (n + more + 1) * s.configuration.sampleIntervalNs := by
          rw [← Nat.add_mul]
          congr 1
          omega
        -- the last due boundary is a word, and the advance after it saturates
        have inside : (n + more + 1) * s.configuration.sampleIntervalNs ≤ maxU64 := by
          refine Nat.le_trans ?_ eligible
          rw [show n + more + 1 = passed s.configuration.sampleIntervalNs timestamp inclusive by
            omega]
          exact Nat.div_mul_le_self _ _
        have target : boundary s.configuration.sampleIntervalNs
            (max n (passed s.configuration.sampleIntervalNs timestamp inclusive)) =
              boundary s.configuration.sampleIntervalNs (n + more + 1) := by
          congr 1
          omega
        rw [target, ← boundary_advance inside, intervals, last]
        split <;> rfl

theorem passed_le (interval : Nat) (timestamp : SimTimeNs) (inclusive : Bool) :
    passed interval timestamp inclusive ≤ timestamp + 1 := by
  refine Nat.le_succ_of_le (Nat.le_trans (Nat.div_le_self _ _) ?_)
  unfold lastEligible
  split
  · exact Nat.le_refl _
  · exact Nat.sub_le _ _

/-- Without a series to sample, stepping from boundary to boundary and skipping are the same. -/
theorem emitFrames_empty (inclusive : Bool) (positive : 0 < s.configuration.sampleIntervalNs)
    (small : timestamp ≤ maxU64) (known : s.summary = some b)
    (place : s.nextSampleTimestamp = boundary s.configuration.sampleIntervalNs n)
    (none : b.metricSnapshots.any (fun snapshot => isSampledMetricKind snapshot.kind) = false) :
    emitFrames timestamp inclusive (timestamp + 1) s =
      .ok () (s.skipEmptySampleBoundaries timestamp inclusive) := by
  have spec := emitFrames_spec inclusive small (timestamp + 1) positive known place
    (Nat.le_trans (Nat.sub_le _ _) (passed_le _ _ _))
  rw [skipEmptySampleBoundaries_eq positive small place]
  cases run : emitFrames timestamp inclusive (timestamp + 1) s with
  | ok _ t =>
    have state := wp_of_ok spec run
    rw [state]
    unfold sampledTo
    rw [frames_eq_nil none, List.append_nil]
  | error e t =>
    obtain ⟨_, m, ⟨_, full⟩, _⟩ := wp_of_error spec run
    rw [sampleFrame_eq_nil none] at full
    exact absurd full (Nat.not_lt_zero _)

/-- A session that keeps samples passes every due boundary, or stops before the first frame that
does not fit. -/
theorem emitSamplesUntil_spec (inclusive : Bool) (sampling : s.retainsSamples = true)
    (positive : 0 < s.configuration.sampleIntervalNs) (small : timestamp ≤ maxU64)
    (known : s.summary = some b)
    (place : s.nextSampleTimestamp = boundary s.configuration.sampleIntervalNs n) :
    wp (emitSamplesUntil timestamp inclusive)
      (fun _ t => t = s.sampledTo b.metricSnapshots n
        (max n (passed s.configuration.sampleIntervalNs timestamp inclusive)))
      (fun e t => e = sampleLimit ∧ ∃ m, s.StoppedAt b.metricSnapshots n m ∧
        m < passed s.configuration.sampleIntervalNs timestamp inclusive ∧
        t = s.sampledTo b.metricSnapshots n m) s := by
  have spec := emitFrames_spec inclusive small (timestamp + 1) positive known place
    (Nat.le_trans (Nat.sub_le _ _) (passed_le _ _ _))
  unfold emitSamplesUntil
  rw [wp_bind, wp_get, wp_runIf]
  refine ⟨fun _ => ?_, fun other => absurd sampling other⟩
  rw [wp_bind]
  refine wp_of_eq_ok (requireSummary_eq known) ?_
  simp only
  split
  · exact spec
  · rename_i empty
    have none := Bool.eq_false_of_not_eq_true empty
    have stepped := emitFrames_empty inclusive positive small known place none
    have reached := wp_of_ok spec stepped
    rw [wp_modify]
    exact reached

theorem emitSamplesUntil_off (silent : s.retainsSamples = false) (timestamp : SimTimeNs)
    (inclusive : Bool) : emitSamplesUntil timestamp inclusive s = .ok () s := by
  unfold emitSamplesUntil
  rw [get_bind_apply, runIf, if_neg (by simp [silent])]
  rfl

/-- What every frame and every move of the boundary preserves, emission preserves. -/
theorem emitFrames_invariant {I : TelemetrySession → Prop}
    (frame : ∀ s at_, I s → wp (appendSampleFrame at_) (fun _ t => I t) (fun _ t => I t) s)
    (advance : ∀ s at_, I s → I (s.advanceSampleTimestamp at_)) :
    ∀ (fuel : Nat) (s : TelemetrySession), I s →
      wp (emitFrames timestamp inclusive fuel) (fun _ t => I t) (fun _ t => I t) s := by
  intro fuel
  induction fuel with
  | zero => intro s holds; exact holds
  | succ fuel ih =>
    intro s holds
    unfold emitFrames
    rw [wp_bind, wp_get]
    cases s.nextSampleTimestamp with
    | none => exact holds
    | some next =>
      simp only
      rw [wp_runIf]
      refine ⟨fun _ => ?_, fun _ => holds⟩
      rw [wp_bind]
      refine wp_mono (frame s next holds) ?_ (fun _ _ same => same)
      intro _ t kept
      rw [wp_bind, wp_modify]
      exact ih _ (advance t next kept)

theorem skipEmptySampleBoundaries_frame (s : TelemetrySession) (timestamp : SimTimeNs)
    (inclusive : Bool) : ∃ next,
      s.skipEmptySampleBoundaries timestamp inclusive = s.withSamples s.samples next := by
  have same : ∃ next, s = s.withSamples s.samples next := ⟨s.nextSampleTimestamp, rfl⟩
  unfold skipEmptySampleBoundaries
  split
  · exact same
  · split
    · exact same
    · have eligibleTime : (if inclusive = true then timestamp else timestamp - 1) =
        lastEligible timestamp inclusive := rfl
      simp only [eligibleTime]
      split
      · exact same
      · split <;> exact ⟨_, rfl⟩

theorem emitSamplesUntil_invariant {I : TelemetrySession → Prop}
    (frame : ∀ s at_, I s → wp (appendSampleFrame at_) (fun _ t => I t) (fun _ t => I t) s)
    (move : ∀ s next, I s → I (s.withSamples s.samples next)) (holds : I s) :
    wp (emitSamplesUntil timestamp inclusive) (fun _ t => I t) (fun _ t => I t) s := by
  have advance : ∀ s at_, I s → I (s.advanceSampleTimestamp at_) := by
    intro s at_ holds
    unfold advanceSampleTimestamp
    split <;> exact move s _ holds
  unfold emitSamplesUntil requireSummary
  simp only [wp_bind, wp_get, wp_runIf, wp_getOrThrow, wp_ite, wp_modify]
  refine ⟨fun _ => ⟨fun b _ => ⟨fun _ => emitFrames_invariant frame advance _ _ holds,
    fun _ => ?_⟩, fun _ => holds⟩, fun _ => holds⟩
  obtain ⟨next, skipped⟩ := skipEmptySampleBoundaries_frame s timestamp inclusive
  rw [skipped]
  exact move s next holds

/-- One frame either fits and is appended, or nothing changes. -/
theorem appendSampleFrame_cases (s : TelemetrySession) (at_ : SimTimeNs) :
    wp (appendSampleFrame at_)
      (fun _ t => ∃ frame : List MetricSample,
        t = s.withSamples (s.samples ++ frame) s.nextSampleTimestamp ∧
        frame.length ≤ U64.sub s.configuration.limits.samples s.samples.length)
      (fun _ t => t = s) s := by
  cases known : s.summary with
  | none =>
    unfold appendSampleFrame requireSummary
    rw [wp_bind, wp_bind, wp_get, known]
    rfl
  | some b =>
    have run := appendSampleFrame_eq known at_
    refine wp_intro ?_ ?_
    · intro _ t ok
      rw [ok] at run
      split at run
      · cases run
      · rename_i fits
        cases run
        exact ⟨_, rfl, Nat.le_of_not_lt fits⟩
    · intro e t thrown
      rw [thrown] at run
      split at run
      · cases run
        rfl
      · cases run

/-- Emission changes the samples and the next boundary only. -/
theorem emitSamplesUntil_frame (s : TelemetrySession) :
    wp (emitSamplesUntil timestamp inclusive)
      (fun _ t => ∃ samples next, t = s.withSamples samples next)
      (fun _ t => ∃ samples next, t = s.withSamples samples next) s := by
  refine emitSamplesUntil_invariant ?_ ?_ ⟨s.samples, s.nextSampleTimestamp, rfl⟩
  · rintro _ at_ ⟨samples, next, rfl⟩
    refine wp_mono (appendSampleFrame_cases _ at_) ?_ ?_
    · rintro _ _ ⟨frame, rfl, _⟩
      exact ⟨samples ++ frame, next, rfl⟩
    · rintro _ _ rfl
      exact ⟨samples, next, rfl⟩
  · rintro _ next ⟨samples, _, rfl⟩
    exact ⟨samples, next, rfl⟩

/-- Samples stay within their limit. -/
theorem emitSamplesUntil_length (timestamp : SimTimeNs) (inclusive : Bool)
    (limited : s.configuration.limits.samples ≤ maxU64)
    (within : s.samples.length ≤ s.configuration.limits.samples) :
    wp (emitSamplesUntil timestamp inclusive)
      (fun _ t => t.samples.length ≤ s.configuration.limits.samples)
      (fun _ t => t.samples.length ≤ s.configuration.limits.samples) s := by
  have both : wp (emitSamplesUntil timestamp inclusive)
      (fun _ t => t.configuration = s.configuration ∧
        t.samples.length ≤ s.configuration.limits.samples)
      (fun _ t => t.configuration = s.configuration ∧
        t.samples.length ≤ s.configuration.limits.samples) s := by
    refine emitSamplesUntil_invariant ?_ ?_ ⟨rfl, within⟩
    · rintro u at_ ⟨same, short⟩
      refine wp_mono (appendSampleFrame_cases u at_) ?_ ?_
      · rintro _ _ ⟨frame, rfl, fits⟩
        have below : s.configuration.limits.samples < 2 ^ 64 :=
          Nat.lt_of_le_of_lt limited (by decide)
        rw [same, U64.sub_eq short below] at fits
        refine ⟨same, ?_⟩
        show (u.samples ++ frame).length ≤ _
        rw [List.length_append]
        omega
      · rintro _ _ rfl
        exact ⟨same, short⟩
    · rintro u next ⟨same, short⟩
      exact ⟨same, short⟩
  exact wp_mono both (fun _ _ kept => kept.2) (fun _ _ kept => kept.2)

end Emission

/-! ## Calls -/

/-- The edge count after the observation, if the limits allow it to be retained. -/
def admission (s : TelemetrySession) (correlation : Correlation)
    (observation : TelemetryObservation) : Except Error Nat :=
  if s.retains observation then s.admitRecord correlation observation else .ok s.retainedEdges

/-- The checks `record` makes before it touches anything; they yield the new edge count. -/
def checks (s : TelemetrySession) (b : SummaryBuilder) (timestamp : SimTimeNs)
    (correlation : Correlation) (observation : TelemetryObservation) : Except Error Nat :=
  if s.isFinalized then .error (.logicError "cannot record telemetry after finalization")
  else if s.lastTimestamp.any (timestamp < ·) then
    .error (.invalidArgument "telemetry observation timestamp regressed")
  else do
    let edges ← s.admission correlation observation
    b.validate timestamp correlation observation
    return edges

/-- What `record` writes after its samples are out. -/
def committed (s : TelemetrySession) (b : SummaryBuilder) (timestamp : SimTimeNs)
    (correlation : Correlation) (observation : TelemetryObservation) (edges : Nat) :
    TelemetrySession :=
  let summarized : TelemetrySession :=
    { s with summary := some (b.consumed timestamp correlation observation) }
  let retained := if s.retains observation then
    retain timestamp correlation observation edges summarized else summarized
  { retained with lastTimestamp := some timestamp }

/-- The part of `record` after its checks. -/
def commit (s₀ : TelemetrySession) (timestamp : SimTimeNs) (correlation : Correlation)
    (observation : TelemetryObservation) (edges : Nat) : Action TelemetrySession Unit := do
  emitSamplesUntil timestamp false
  onSummary (SummaryBuilder.consume timestamp correlation observation)
  runIf (s₀.retains observation = true) (modify (retain timestamp correlation observation edges))
  modify fun s => { s with lastTimestamp := some timestamp }

section Calls

variable {s s' : TelemetrySession} {b : SummaryBuilder}
variable {timestamp : SimTimeNs} {correlation : Correlation} {observation : TelemetryObservation}

/-- `retain`, field by field. -/
theorem retain_eq (edges : Nat) : retain timestamp correlation observation edges s =
    { s with
      records := s.records ++ [⟨correlation, observation, ⟨s.nextRecordId⟩, timestamp⟩]
      retainedEdges := edges
      retainedDecisions :=
        if isDecisionObservation observation then s.retainedDecisions + 1 else s.retainedDecisions
      retainedDomainRecords :=
        if isDecisionObservation observation then s.retainedDomainRecords
        else s.retainedDomainRecords + 1
      nextRecordId := if s.nextRecordId = maxU64 then s.nextRecordId else s.nextRecordId + 1
      recordIdsExhausted := if s.nextRecordId = maxU64 then true else s.recordIdsExhausted } := by
  unfold retain
  by_cases full : s.nextRecordId = maxU64 <;>
    cases isDecisionObservation observation <;> simp [full]

theorem record_eq (enabled : s.configuration.mode ≠ .off) (known : s.summary = some b) :
    record timestamp correlation observation s =
      match s.checks b timestamp correlation observation with
      | .error e => .error e s
      | .ok edges => commit s timestamp correlation observation edges s := by
  unfold record checks
  rw [get_bind_apply, runIf, if_pos enabled, get_bind_apply, throwIf]
  split
  · rfl
  · rw [pure_bind, throwIf]
    split
    · rfl
    · rw [pure_bind]
      have tail : ∀ edges : Nat, (do
          fromExcept ((← requireSummary).validate timestamp correlation observation)
          emitSamplesUntil timestamp false
          onSummary (SummaryBuilder.consume timestamp correlation observation)
          runIf (s.retains observation = true)
            (modify (retain timestamp correlation observation edges))
          modify fun s => { s with lastTimestamp := some timestamp } :
            Action TelemetrySession Unit) s =
          match (b.validate timestamp correlation observation >>= fun _ => .ok edges :
            Except Error Nat) with
          | .error e => .error e s
          | .ok edges => commit s timestamp correlation observation edges s := by
        intro edges
        rw [bind_of_ok (requireSummary_eq known)]
        cases b.validate timestamp correlation observation <;> rfl
      unfold admission
      by_cases keeps : s.retains observation = true
      · rw [if_pos keeps, if_pos keeps]
        cases s.admitRecord correlation observation with
        | error e => rfl
        | ok edges => exact tail edges
      · rw [if_neg keeps, if_neg keeps]
        exact tail s.retainedEdges

/-- The rest of `record`, once its samples are out and its observation is consumed. -/
theorem commit_of_ok {t : TelemetrySession} (edges : Nat) (known : s.summary = some b)
    (emitted : emitSamplesUntil timestamp false s = .ok () t)
    (consumes : SummaryBuilder.consume timestamp correlation observation b =
      .ok () (b.consumed timestamp correlation observation)) :
    commit s timestamp correlation observation edges s =
      .ok () (t.committed b timestamp correlation observation edges) := by
  have frame := wp_of_ok (emitSamplesUntil_frame s) emitted
  obtain ⟨samples, next, rfl⟩ := frame
  have summarized : onSummary (SummaryBuilder.consume timestamp correlation observation)
      (s.withSamples samples next) = .ok () { s.withSamples samples next with
        summary := some (b.consumed timestamp correlation observation) } := by
    have found : requireSummary (s.withSamples samples next) = .ok b _ := requireSummary_eq known
    unfold onSummary
    rw [bind_of_ok found, consumes]
    rfl
  unfold commit committed
  rw [bind_of_ok emitted, bind_of_ok summarized]
  have keeps : (s.withSamples samples next).retains observation = s.retains observation := rfl
  rw [keeps, runIf]
  split <;> rfl

/-- What a record call that returned went through. -/
theorem record_ok (enabled : s.configuration.mode ≠ .off) (known : s.summary = some b)
    (ok : record timestamp correlation observation s = .ok () s') :
    ∃ edges t, s.checks b timestamp correlation observation = .ok edges ∧
      emitSamplesUntil timestamp false s = .ok () t ∧
      SummaryBuilder.consume timestamp correlation observation b =
        .ok () (b.consumed timestamp correlation observation) ∧
      s' = t.committed b timestamp correlation observation edges := by
  rw [record_eq enabled known] at ok
  cases checked : s.checks b timestamp correlation observation with
  | error e => rw [checked] at ok; cases ok
  | ok edges =>
    rw [checked] at ok
    have whole : commit s timestamp correlation observation edges s = .ok () s' := ok
    unfold commit at whole
    obtain ⟨_, t, emitted, rest⟩ := ok_of_bind whole
    have consumes : SummaryBuilder.consume timestamp correlation observation b =
        .ok () (b.consumed timestamp correlation observation) := by
      obtain ⟨samples, next, rfl⟩ := wp_of_ok (emitSamplesUntil_frame s) emitted
      have found : requireSummary (s.withSamples samples next) = .ok b _ := requireSummary_eq known
      obtain ⟨_, u, summarized, _⟩ := ok_of_bind rest
      unfold onSummary at summarized
      rw [bind_of_ok found] at summarized
      cases consumed : SummaryBuilder.consume timestamp correlation observation b with
      | error e c => rw [consumed] at summarized; cases summarized
      | ok _ c => rw [(SummaryBuilder.consume_ok consumed).2]
    refine ⟨edges, t, rfl, emitted, consumes, ?_⟩
    have result := commit_of_ok edges known emitted consumes
    have same := whole.symm.trans result
    cases same
    rfl

/-- The session after a finalization whose samples are out. -/
def finishedAt (s : TelemetrySession) (b : SummaryBuilder) (timestamp : SimTimeNs) :
    TelemetrySession :=
  { s with
    summary := some (b.finishedAt timestamp)
    lastTimestamp := some timestamp
    isFinalized := true }

/-- What a finalization that returned went through. -/
theorem finalize_ok (enabled : s.configuration.mode ≠ .off) (known : s.summary = some b)
    (ok : finalize timestamp s = .ok () s') :
    s.isFinalized = false ∧ (∀ last, s.lastTimestamp = some last → last ≤ timestamp) ∧
      ∃ t, emitSamplesUntil timestamp true s = .ok () t ∧
        SummaryBuilder.finalize timestamp b = .ok () (b.finishedAt timestamp) ∧
        s' = t.finishedAt b timestamp := by
  unfold finalize at ok
  rw [get_bind_apply] at ok
  obtain ⟨_, _, unsealed, rest⟩ := ok_of_bind ok
  obtain ⟨unsealed', rfl⟩ := throwIf_ok unsealed
  obtain ⟨_, _, ordered, rest⟩ := ok_of_bind rest
  obtain ⟨ordered', rfl⟩ := throwIf_ok ordered
  obtain ⟨_, t, emitted, rest⟩ := ok_of_bind rest
  obtain ⟨samples, next, rfl⟩ := wp_of_ok (emitSamplesUntil_frame s) emitted
  have found : requireSummary (s.withSamples samples next) = .ok b _ := requireSummary_eq known
  refine ⟨by simpa using unsealed', ?_, s.withSamples samples next, emitted, ?_⟩
  · intro last here
    simpa [enabled, here] using ordered'
  · obtain ⟨_, u, closed, stored⟩ := ok_of_bind rest
    cases stored
    rw [known] at closed
    have closes : onSummary (SummaryBuilder.finalize timestamp)
      (s.withSamples samples next) = .ok () u := closed
    unfold onSummary at closes
    rw [bind_of_ok found] at closes
    cases done : SummaryBuilder.finalize timestamp b with
    | error e c => rw [done] at closes; cases closes
    | ok _ c =>
      rw [done] at closes
      cases closes
      rw [(SummaryBuilder.finalize_ok done).2.2]
      exact ⟨rfl, rfl⟩

end Calls

/-! ## Runs of record calls -/

end TelemetrySession

/-- The arguments of one record call. -/
structure Observed where
  timestamp : SimTimeNs
  correlation : Correlation
  observation : TelemetryObservation

/-- The summary after the observations, whatever its limits. -/
def SummaryBuilder.after (b : SummaryBuilder) (calls : List Observed) : SummaryBuilder :=
  calls.foldl (fun b call => b.consumed call.timestamp call.correlation call.observation) b

@[simp] theorem SummaryBuilder.after_append (b : SummaryBuilder) (calls : List Observed)
    (call : Observed) : b.after (calls ++ [call]) =
      (b.after calls).consumed call.timestamp call.correlation call.observation := by
  simp [after]

namespace TelemetrySession

def recordAll (calls : List Observed) : Action TelemetrySession Unit :=
  calls.forM fun call => record call.timestamp call.correlation call.observation

/-- The calls up to a time. -/
def upTo (calls : List Observed) (time : SimTimeNs) : List Observed :=
  calls.filter fun call => call.timestamp ≤ time

theorem upTo_eq_self {calls : List Observed} {time : SimTimeNs}
    (before : ∀ call ∈ calls, call.timestamp ≤ time) : upTo calls time = calls := by
  unfold upTo
  rw [List.filter_eq_self]
  intro call member
  simpa using before call member

theorem upTo_append_of_lt {calls : List Observed} {call : Observed} {time : SimTimeNs}
    (later : time < call.timestamp) : upTo (calls ++ [call]) time = upTo calls time := by
  have out : ¬ call.timestamp ≤ time := Nat.not_le.mpr later
  unfold upTo
  rw [List.filter_append]
  simp [out]

/-- The samples the law asks for after `n` boundaries: each boundary sees the observations up to
its own time. -/
def lawfulSamples (b : SummaryBuilder) (interval : Nat) (calls : List Observed) (n : Nat) :
    List MetricSample :=
  (List.range' 1 n).flatMap fun k =>
    sampleFrame (b.after (upTo calls (k * interval))).metricSnapshots (k * interval)

theorem lawfulSamples_extend {b : SummaryBuilder} {interval : Nat} {calls : List Observed}
    {n m : Nat} (le : n ≤ m) (before : ∀ call ∈ calls, call.timestamp ≤ (n + 1) * interval) :
    lawfulSamples b interval calls n ++ frames interval (b.after calls).metricSnapshots n m =
      lawfulSamples b interval calls m := by
  obtain ⟨count, rfl⟩ := Nat.exists_eq_add_of_le le
  unfold lawfulSamples frames
  rw [show n + count - n = count by omega, ← List.range'_append_1, List.flatMap_append,
    Nat.add_comm 1 n]
  congr 1
  apply List.flatMap_congr
  intro k member
  have reached : n + 1 ≤ k := (List.mem_range'_1.mp member).1
  rw [upTo_eq_self]
  intro call here
  exact Nat.le_trans (before call here) (Nat.mul_le_mul_right interval reached)

theorem lawfulSamples_append {b : SummaryBuilder} {interval : Nat} {calls : List Observed}
    {call : Observed} {n : Nat} (later : ∀ k, 1 ≤ k → k ≤ n → k * interval < call.timestamp) :
    lawfulSamples b interval (calls ++ [call]) n = lawfulSamples b interval calls n := by
  unfold lawfulSamples
  apply List.flatMap_congr
  intro k member
  obtain ⟨first, last⟩ := List.mem_range'_1.mp member
  rw [upTo_append_of_lt (later k first (by omega))]


theorem recordAll_append (first second : List Observed) (s : TelemetrySession) :
    recordAll (first ++ second) s = (recordAll first >>= fun _ => recordAll second) s := by
  unfold recordAll
  rw [List.forM_eq_forM, List.forM_append]

def lastTime (calls : List Observed) : SimTimeNs := (calls.getLast?.map Observed.timestamp).getD 0

@[simp] theorem lastTime_append (calls : List Observed) (call : Observed) :
    lastTime (calls ++ [call]) = call.timestamp := by
  simp [lastTime]

/-- An enabled session after calls that it all accepted. -/
structure Reached (configuration : TelemetryConfiguration) (b : SummaryBuilder)
    (calls : List Observed) (s : TelemetrySession) : Prop where
  configuration_eq : s.configuration = configuration
  unsealed : s.isFinalized = false
  summary : s.summary = some (b.after calls)
  last : s.lastTimestamp = calls.getLast?.map Observed.timestamp
  ordered : ∀ call ∈ calls, call.timestamp ≤ lastTime calls
  increasing : calls.Pairwise fun a b => a.timestamp ≤ b.timestamp

theorem Reached.last_le {configuration : TelemetryConfiguration} {b : SummaryBuilder}
    {calls : List Observed} {s : TelemetrySession} (reached : Reached configuration b calls s)
    {timestamp : SimTimeNs} (later : ∀ last, s.lastTimestamp = some last → last ≤ timestamp) :
    lastTime calls ≤ timestamp := by
  unfold lastTime
  rw [← reached.last]
  cases known : s.lastTimestamp with
  | none => exact Nat.zero_le _
  | some last => exact later last known

theorem checks_ok {s : TelemetrySession} {b : SummaryBuilder} {timestamp : SimTimeNs}
    {correlation : Correlation} {observation : TelemetryObservation} {edges : Nat}
    (ok : s.checks b timestamp correlation observation = .ok edges) :
    s.isFinalized = false ∧ (∀ last, s.lastTimestamp = some last → last ≤ timestamp) ∧
      s.admission correlation observation = .ok edges ∧
      b.validate timestamp correlation observation = .ok () := by
  unfold checks at ok
  split at ok
  · cases ok
  · rename_i unsealed
    split at ok
    · cases ok
    · rename_i ordered
      cases admitted : s.admission correlation observation with
      | error e => rw [admitted] at ok; cases ok
      | ok count =>
        rw [admitted, ok_bind] at ok
        cases valid : b.validate timestamp correlation observation with
        | error e => rw [valid] at ok; cases ok
        | ok _ =>
          rw [valid] at ok
          cases ok
          refine ⟨by simpa using unsealed, ?_, rfl, rfl⟩
          intro last known
          rw [known] at ordered
          simpa using ordered

theorem committed_fields (s : TelemetrySession) (b : SummaryBuilder) (timestamp : SimTimeNs)
    (correlation : Correlation) (observation : TelemetryObservation) (edges : Nat) :
    let t := s.committed b timestamp correlation observation edges
    t.configuration = s.configuration ∧ t.isFinalized = s.isFinalized ∧
      t.summary = some (b.consumed timestamp correlation observation) ∧
      t.lastTimestamp = some timestamp ∧ t.samples = s.samples ∧
      t.nextSampleTimestamp = s.nextSampleTimestamp := by
  unfold committed
  simp only [retain_eq]
  split <;> simp

/-- An accepted call leads on. -/
theorem Reached.record {configuration : TelemetryConfiguration} {b : SummaryBuilder}
    {calls : List Observed} {call : Observed} {s s' : TelemetrySession}
    (enabled : configuration.mode ≠ .off) (reached : Reached configuration b calls s)
    (ok : TelemetrySession.record call.timestamp call.correlation call.observation s = .ok () s') :
    Reached configuration b (calls ++ [call]) s' := by
  have mode : s.configuration.mode ≠ .off := reached.configuration_eq ▸ enabled
  obtain ⟨edges, t, checked, emitted, _, rfl⟩ := record_ok mode reached.summary ok
  obtain ⟨samples, next, rfl⟩ := wp_of_ok (emitSamplesUntil_frame s) emitted
  obtain ⟨_, later, _⟩ := checks_ok checked
  have latest := reached.last_le later
  obtain ⟨configured, sealed_, summarized, timed, _, _⟩ := committed_fields
    (s.withSamples samples next) (b.after calls) call.timestamp call.correlation call.observation
    edges
  exact {
    configuration_eq := configured.trans reached.configuration_eq
    unsealed := sealed_.trans reached.unsealed
    summary := by rw [summarized, SummaryBuilder.after_append]
    last := by rw [timed]; simp
    ordered := by
      intro other member
      rw [lastTime_append]
      rcases List.mem_append.mp member with earlier | here
      · exact Nat.le_trans (reached.ordered other earlier) latest
      · rw [List.mem_singleton.mp here]
    increasing := by
      rw [List.pairwise_append]
      refine ⟨reached.increasing, List.pairwise_singleton _ _, ?_⟩
      intro first earlier second here
      rw [List.mem_singleton.mp here]
      exact Nat.le_trans (reached.ordered first earlier) latest }

theorem Reached.recordAll {configuration : TelemetryConfiguration} {b : SummaryBuilder}
    (enabled : configuration.mode ≠ .off) : ∀ {rest calls : List Observed}
    {s s' : TelemetrySession}, Reached configuration b calls s →
    TelemetrySession.recordAll rest s = .ok () s' →
    Reached configuration b (calls ++ rest) s' := by
  intro rest
  induction rest with
  | nil =>
    intro calls s s' reached ok
    cases ok
    simpa using reached
  | cons call rest ih =>
    intro calls s s' reached ok
    unfold TelemetrySession.recordAll at ok
    rw [forM_cons_apply] at ok
    obtain ⟨_, t, first, others⟩ := ok_of_bind ok
    have whole := ih (reached.record enabled first) others
    rwa [List.append_assoc] at whole

/-- A sampling session after the calls: the boundaries before the last of them have passed, with
lawful samples. -/
structure Sampled (b : SummaryBuilder) (calls : List Observed) (s : TelemetrySession) : Prop where
  place : s.nextSampleTimestamp = boundary s.configuration.sampleIntervalNs
    (passed s.configuration.sampleIntervalNs (lastTime calls) false)
  samples : s.samples = lawfulSamples b s.configuration.sampleIntervalNs calls
    (passed s.configuration.sampleIntervalNs (lastTime calls) false)

theorem passed_mono {interval : Nat} {first second : SimTimeNs} {inclusive : Bool}
    (le : first ≤ second) : passed interval first false ≤ passed interval second inclusive := by
  refine Nat.div_le_div_right ?_
  unfold lastEligible
  cases inclusive with
  | false => exact Nat.sub_le_sub_right le 1
  | true => exact Nat.le_trans (Nat.sub_le _ _) le

/-- The boundary after the passed ones is not before the timestamp. -/
theorem le_next_boundary {interval : Nat} (positive : 0 < interval) (timestamp : SimTimeNs) :
    timestamp ≤ (passed interval timestamp false + 1) * interval := by
  have beyond : ∀ t : Nat, t ≤ ((t - 1) / interval + 1) * interval := by
    intro t
    have split := Nat.lt_mul_div_succ (t - 1) positive
    rw [Nat.mul_comm] at split
    omega
  exact beyond timestamp

/-- A passed boundary lies before the timestamp. -/
theorem boundary_lt {interval k : Nat} {timestamp : SimTimeNs} (positive : 0 < interval)
    (first : 1 ≤ k) (within : k ≤ passed interval timestamp false) :
    k * interval < timestamp := by
  have before : ∀ t : Nat, k ≤ (t - 1) / interval → k * interval < t := by
    intro t le
    have multiple := (Nat.le_div_iff_mul_le positive).mp le
    have grown : interval ≤ k * interval := Nat.le_mul_of_pos_left interval first
    omega
  exact before timestamp within

theorem Sampled.record {configuration : TelemetryConfiguration} {b : SummaryBuilder}
    {calls : List Observed} {call : Observed} {s s' : TelemetrySession}
    (enabled : configuration.mode ≠ .off) (positive : 0 < configuration.sampleIntervalNs)
    (sampling : s.retainsSamples = true) (small : call.timestamp ≤ maxU64)
    (reached : Reached configuration b calls s) (sampled : Sampled b calls s)
    (ok : TelemetrySession.record call.timestamp call.correlation call.observation s = .ok () s') :
    Sampled b (calls ++ [call]) s' := by
  have mode : s.configuration.mode ≠ .off := reached.configuration_eq ▸ enabled
  have step : 0 < s.configuration.sampleIntervalNs := reached.configuration_eq ▸ positive
  obtain ⟨edges, t, checked, emitted, _, rfl⟩ := record_ok mode reached.summary ok
  obtain ⟨_, later, _⟩ := checks_ok checked
  have latest := reached.last_le later
  have spec := emitSamplesUntil_spec false sampling step small reached.summary
    sampled.place
  have after := wp_of_ok spec emitted
  subst after
  have grows : passed s.configuration.sampleIntervalNs (lastTime calls) false ≤
    passed s.configuration.sampleIntervalNs call.timestamp false := passed_mono latest
  rw [Nat.max_eq_right grows]
  obtain ⟨configured, _, _, _, sampleEq, nextEq⟩ := committed_fields
    (s.sampledTo (b.after calls).metricSnapshots
      (passed s.configuration.sampleIntervalNs (lastTime calls) false)
      (passed s.configuration.sampleIntervalNs call.timestamp false))
    (b.after calls) call.timestamp call.correlation call.observation edges
  refine ⟨?_, ?_⟩
  · rw [nextEq, configured, lastTime_append]
    rfl
  · rw [sampleEq, configured, lastTime_append]
    show s.samples ++ frames _ _ _ _ = lawfulSamples b s.configuration.sampleIntervalNs _
      (passed s.configuration.sampleIntervalNs call.timestamp false)
    have before : ∀ other ∈ calls, other.timestamp ≤
        (passed s.configuration.sampleIntervalNs (lastTime calls) false + 1) *
          s.configuration.sampleIntervalNs :=
      fun other member => Nat.le_trans (reached.ordered other member) (le_next_boundary step _)
    rw [sampled.samples, lawfulSamples_extend grows before,
      lawfulSamples_append fun k first within => boundary_lt step first within]

theorem Sampled.recordAll {configuration : TelemetryConfiguration} {b : SummaryBuilder}
    (enabled : configuration.mode ≠ .off) (positive : 0 < configuration.sampleIntervalNs)
    (sampling : configuration.mode = .sampled ∨ configuration.mode = .full) :
    ∀ {rest calls : List Observed} {s s' : TelemetrySession},
    (∀ call ∈ rest, call.timestamp ≤ maxU64) → Reached configuration b calls s →
    Sampled b calls s → TelemetrySession.recordAll rest s = .ok () s' →
    Sampled b (calls ++ rest) s' := by
  intro rest
  induction rest with
  | nil =>
    intro calls s s' _ _ sampled ok
    cases ok
    simpa using sampled
  | cons call rest ih =>
    intro calls s s' small reached sampled ok
    unfold TelemetrySession.recordAll at ok
    rw [forM_cons_apply] at ok
    obtain ⟨_, t, first, others⟩ := ok_of_bind ok
    have keeps : s.retainsSamples = true := by
      unfold retainsSamples
      rw [reached.configuration_eq]
      simpa using sampling
    have next := sampled.record enabled positive keeps (small call List.mem_cons_self) reached first
    have whole := ih (fun other member => small other (List.mem_cons_of_mem _ member))
      (reached.record enabled first) next others
    rwa [List.append_assoc] at whole

/-- A new enabled session. -/
def fresh (configuration : TelemetryConfiguration) (b : SummaryBuilder) : TelemetrySession where
  configuration := configuration
  nextSampleTimestamp := some configuration.sampleIntervalNs
  summary := some b

theorem create_ok {configuration : TelemetryConfiguration} {s : TelemetrySession}
    (enabled : configuration.mode ≠ .off) (ok : create configuration = .ok s) :
    ∃ b, SummaryBuilder.create configuration.limits.metricSeries
        configuration.limits.histogramBoundaries = .ok b ∧
      validateConfiguration configuration = .ok () ∧
      s = fresh configuration b := by
  unfold create at ok
  cases valid : validateConfiguration configuration with
  | error e => rw [valid] at ok; cases ok
  | ok _ =>
    rw [valid, ok_bind] at ok
    simp only [if_neg enabled] at ok
    cases made : SummaryBuilder.create configuration.limits.metricSeries
        configuration.limits.histogramBoundaries with
    | error e => rw [made] at ok; cases ok
    | ok b =>
      rw [made] at ok
      cases ok
      exact ⟨b, rfl, rfl, rfl⟩

/-- An enabled session under the default limits of series and boundaries. -/
theorem create_default {configuration : TelemetryConfiguration}
    (enabled : configuration.mode ≠ .off)
    (positive : ¬ (configuration.sampleIntervalNs = 0 ∨ configuration.limits.metricSeries = 0 ∨
      configuration.limits.decisionRecords = 0 ∨ configuration.limits.domainRecords = 0 ∨
      configuration.limits.samples = 0 ∨ configuration.limits.histogramBoundaries = 0 ∨
      configuration.limits.correlationEdges = 0 ∨ configuration.limits.serializedBytes = 0))
    (series : configuration.limits.metricSeries = 100000)
    (boundaries : configuration.limits.histogramBoundaries = 64) :
    create configuration = .ok (fresh configuration SummaryBuilder.fresh) := by
  have valid : validateConfiguration configuration = .ok () := by
    unfold validateConfiguration
    rw [if_neg positive, boundaries]
    exact validateMetricCatalog_default
  unfold create
  rw [valid, ok_bind]
  simp only [if_neg enabled, series, boundaries, SummaryBuilder.create_default]
  rfl

theorem positive_of_valid {configuration : TelemetryConfiguration}
    (valid : validateConfiguration configuration = .ok ()) :
    0 < configuration.sampleIntervalNs := by
  unfold validateConfiguration at valid
  split at valid
  · cases valid
  · rename_i nonzero
    exact Nat.pos_of_ne_zero fun zero => nonzero (Or.inl zero)

theorem Reached.fresh (configuration : TelemetryConfiguration) (b : SummaryBuilder) :
    Reached configuration b [] (fresh configuration b) := by
  exact ⟨rfl, rfl, rfl, rfl, fun _ member => absurd member List.not_mem_nil, List.Pairwise.nil⟩

theorem Sampled.fresh {configuration : TelemetryConfiguration} (b : SummaryBuilder)
    (small : configuration.sampleIntervalNs ≤ maxU64) :
    Sampled b [] (fresh configuration b) := by
  have start : passed configuration.sampleIntervalNs (lastTime []) false = 0 := by
    simp [passed, lastEligible, lastTime]
  refine ⟨?_, ?_⟩
  · show some configuration.sampleIntervalNs = boundary configuration.sampleIntervalNs
      (passed configuration.sampleIntervalNs (lastTime []) false)
    rw [start]
    simp [boundary, small]
  · show [] = lawfulSamples b configuration.sampleIntervalNs []
      (passed configuration.sampleIntervalNs (lastTime []) false)
    rw [start]
    rfl

/-- Of calls in time order, those up to a time come first. -/
theorem upTo_prefix : ∀ {calls : List Observed},
    calls.Pairwise (fun a b => a.timestamp ≤ b.timestamp) → ∀ time,
    ∃ rest, calls = upTo calls time ++ rest := by
  intro calls
  induction calls with
  | nil => intro _ _; exact ⟨[], rfl⟩
  | cons call calls ih =>
    intro increasing time
    obtain ⟨first, others⟩ := List.pairwise_cons.mp increasing
    by_cases early : call.timestamp ≤ time
    · obtain ⟨rest, same⟩ := ih others time
      refine ⟨rest, ?_⟩
      have kept : upTo (call :: calls) time = call :: upTo calls time := by
        simp [upTo, early]
      rw [kept, List.cons_append, ← same]
    · have none : upTo (call :: calls) time = [] := by
        unfold upTo
        rw [List.filter_eq_nil_iff]
        intro other member
        rcases List.mem_cons.mp member with rfl | later
        · simpa using early
        · have bound := first other later
          simp only [decide_eq_true_eq]
          exact fun here => early (Nat.le_trans bound here)
      exact ⟨call :: calls, by rw [none]; rfl⟩

theorem recordAll_upTo {calls : List Observed} {s s' : TelemetrySession} (time : SimTimeNs)
    (increasing : calls.Pairwise fun a b => a.timestamp ≤ b.timestamp)
    (ok : recordAll calls s = .ok () s') : ∃ t, recordAll (upTo calls time) s = .ok () t := by
  obtain ⟨rest, same⟩ := upTo_prefix increasing time
  rw [same, recordAll_append] at ok
  obtain ⟨_, t, first, _⟩ := ok_of_bind ok
  exact ⟨t, first⟩

/-! ## The sampling law -/

def sampleKey (sample : MetricSample) : MetricSeriesKey := ⟨sample.metric, sample.labels⟩

/-- A frame at a time: one sample for every counter and gauge the session holds, with its value,
in the order of metric and labels. -/
structure IsFrame (s : TelemetrySession) (time : SimTimeNs) (frame : List MetricSample) : Prop where
  increasing : (frame.map sampleKey).Pairwise (· < ·)
  exactly : ∀ sample, sample ∈ frame ↔ ∃ series ∈ s.metricSnapshots,
    (series.kind = .counter ∨ series.kind = .gauge) ∧
      sample = ⟨series.metric, series.labels, series.kind, series.scalar, time⟩

theorem isFrame_sampleFrame (s : TelemetrySession) (time : SimTimeNs) :
    s.IsFrame time (sampleFrame s.metricSnapshots time) := by
  refine ⟨?_, ?_⟩
  · unfold metricSnapshots
    cases s.summary with
    | none => exact List.Pairwise.nil
    | some b =>
      have keys : b.metricSnapshots.Pairwise fun x y =>
          (⟨x.metric, x.labels⟩ : MetricSeriesKey) < ⟨y.metric, y.labels⟩ := by
        unfold SummaryBuilder.metricSnapshots MetricRegistry.snapshots
        rw [List.pairwise_map]
        exact b.metrics.series.sorted
      unfold sampleFrame
      rw [List.map_map, List.pairwise_map]
      exact keys.filter _
  · intro sample
    unfold sampleFrame
    simp only [List.mem_map, List.mem_filter, isSampledMetricKind, Bool.or_eq_true,
      decide_eq_true_eq]
    constructor
    · rintro ⟨series, ⟨member, kind⟩, rfl⟩
      exact ⟨series, member, kind, rfl⟩
    · rintro ⟨series, member, kind, rfl⟩
      exact ⟨series, ⟨member, kind⟩, rfl⟩

/-- What a finalized sampling session retains: for every multiple of the interval up to the final
time one frame, with the series as the observations up to that multiple left them.  While nothing
is to be sampled, the skip that jumps over boundaries does what stepping over them would. -/
theorem sampling_law {configuration : TelemetryConfiguration} {s₀ s s' : TelemetrySession}
    {calls : List Observed} {final : SimTimeNs}
    (sampling : configuration.mode = .sampled ∨ configuration.mode = .full)
    (intervalSmall : configuration.sampleIntervalNs ≤ maxU64)
    (small : ∀ call ∈ calls, call.timestamp ≤ maxU64) (finalSmall : final ≤ maxU64)
    (created : create configuration = .ok s₀) (recorded : recordAll calls s₀ = .ok () s)
    (finalized : finalize final s = .ok () s') :
    ∃ sessionAt : SimTimeNs → TelemetrySession,
      (∀ time, recordAll (upTo calls time) s₀ = .ok () (sessionAt time)) ∧
      (∃ frame : Nat → List MetricSample,
        s'.samples = (List.range' 1 (final / configuration.sampleIntervalNs)).flatMap frame ∧
        ∀ k, (sessionAt (k * configuration.sampleIntervalNs)).IsFrame
          (k * configuration.sampleIntervalNs) (frame k)) ∧
      ∀ time timestamp inclusive, timestamp ≤ maxU64 →
        (sessionAt time).metricSnapshots.any
          (fun series => isSampledMetricKind series.kind) = false →
        emitFrames timestamp inclusive (timestamp + 1) (sessionAt time) =
          .ok () ((sessionAt time).skipEmptySampleBoundaries timestamp inclusive) := by
  have enabled : configuration.mode ≠ .off := by
    rcases sampling with mode | mode <;> rw [mode] <;> decide
  obtain ⟨b, _, valid, rfl⟩ := create_ok enabled created
  have positive := positive_of_valid valid
  have start := Reached.fresh configuration b
  have startSampled := Sampled.fresh b intervalSmall
  have reached : Reached configuration b calls s := start.recordAll enabled recorded
  have sampled : Sampled b calls s :=
    startSampled.recordAll enabled positive sampling small start recorded
  -- the session after the calls up to a time
  have sessions : ∀ time, ∃ t,
      recordAll (upTo calls time) (fresh configuration b) = .ok () t ∧
      Reached configuration b (upTo calls time) t ∧ Sampled b (upTo calls time) t := by
    intro time
    obtain ⟨t, run⟩ := recordAll_upTo time reached.increasing recorded
    exact ⟨t, run, start.recordAll enabled run, startSampled.recordAll enabled positive sampling
      (fun call member => small call (List.mem_of_mem_filter member)) start run⟩
  choose sessionAt runs reaches samples using sessions
  refine ⟨sessionAt, runs, ?_, ?_⟩
  · refine ⟨fun k => sampleFrame (sessionAt (k * configuration.sampleIntervalNs)).metricSnapshots
      (k * configuration.sampleIntervalNs), ?_, fun k => isFrame_sampleFrame _ _⟩
    have keeps : s.retainsSamples = true := by
      unfold retainsSamples
      rw [reached.configuration_eq]
      simpa using sampling
    have mode : s.configuration.mode ≠ .off := reached.configuration_eq ▸ enabled
    have step : 0 < s.configuration.sampleIntervalNs := reached.configuration_eq ▸ positive
    obtain ⟨_, ordered, t, emitted, _, rfl⟩ := finalize_ok mode reached.summary finalized
    have spec := emitSamplesUntil_spec true keeps step finalSmall reached.summary
      sampled.place
    have out := wp_of_ok spec emitted
    subst out
    have grows : passed s.configuration.sampleIntervalNs (lastTime calls) false ≤
      passed s.configuration.sampleIntervalNs final true := passed_mono (reached.last_le ordered)
    have before : ∀ other ∈ calls, other.timestamp ≤
        (passed s.configuration.sampleIntervalNs (lastTime calls) false + 1) *
          s.configuration.sampleIntervalNs :=
      fun other member => Nat.le_trans (reached.ordered other member) (le_next_boundary step _)
    show s.samples ++ frames _ _ _ _ = _
    rw [Nat.max_eq_right grows, sampled.samples, lawfulSamples_extend grows before,
      reached.configuration_eq]
    unfold lawfulSamples
    apply List.flatMap_congr
    intro k _
    unfold metricSnapshots
    rw [(reaches (k * configuration.sampleIntervalNs)).summary]
  · intro time timestamp inclusive timeSmall none
    have here := reaches time
    refine emitFrames_empty inclusive ?_ timeSmall here.summary (samples time).place ?_
    · rw [here.configuration_eq]
      exact positive
    · unfold metricSnapshots at none
      rw [here.summary] at none
      exact none

/-- A session that samples every ten nanoseconds. -/
def tenNanoseconds : TelemetryConfiguration := { mode := .sampled, sampleIntervalNs := 10 }

def dispatchedTwice : List Observed :=
  [⟨0, {}, .counter ⟨.simulationDispatchedEvents, .none, 2⟩⟩,
   ⟨10, {}, .counter ⟨.simulationDispatchedEvents, .none, 3⟩⟩,
   ⟨11, {}, .gauge ⟨.simulationFinalTimeNs, .none, 11⟩⟩]

theorem sampling_law_dispatchedTwice : ∃ s₀ s s', create tenNanoseconds = .ok s₀ ∧
    recordAll dispatchedTwice s₀ = .ok () s ∧ finalize 25 s = .ok () s' ∧
    ∃ sessionAt : SimTimeNs → TelemetrySession, ∃ frame : Nat → List MetricSample,
      s'.samples = frame 1 ++ frame 2 ∧ (sessionAt 10).IsFrame 10 (frame 1) ∧
      (sessionAt 20).IsFrame 20 (frame 2) := by
  have created : create tenNanoseconds = .ok (fresh tenNanoseconds SummaryBuilder.fresh) :=
    create_default (by decide) (by decide) rfl rfl
  have made : returns (recordAll dispatchedTwice >>= fun _ => finalize 25)
      (fresh tenNanoseconds SummaryBuilder.fresh) = true := by decide +kernel
  obtain ⟨_, s', run⟩ := ok_of_returns made
  obtain ⟨_, s, recorded, finalized⟩ := ok_of_bind run
  have small : ∀ call ∈ dispatchedTwice, call.timestamp ≤ maxU64 := by decide
  have finalSmall : (25 : SimTimeNs) ≤ maxU64 := by decide
  obtain ⟨sessionAt, _, ⟨frame, samples, isFrame⟩, _⟩ := sampling_law (Or.inl rfl) (by decide)
    small finalSmall created recorded finalized
  refine ⟨_, s, s', created, recorded, finalized, sessionAt, frame, ?_, isFrame 1, isFrame 2⟩
  rw [samples]
  simp [tenNanoseconds, List.range']

end TelemetrySession

end NexusLab.Telemetry
