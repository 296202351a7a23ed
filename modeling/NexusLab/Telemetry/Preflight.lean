import NexusLab.Telemetry.SummarySpec

/-! # Checks and changes

The registry's checks and its operations are separate code, and so are those of the summary.  An
operation throws exactly when its check does, throws the same, and then changes nothing. -/

namespace NexusLab.Telemetry

open Foundation

/-! ## The registry -/

/-- An operation of the registry on one series. -/
inductive RegistryOperation where
  | increment (metric : MetricId) (labels : MetricLabels) (amount : Nat)
  | setGauge (metric : MetricId) (labels : MetricLabels) (value : Nat)
  | observe (metric : MetricId) (labels : MetricLabels) (value : Nat)

namespace RegistryOperation

def run : RegistryOperation → Action MetricRegistry Unit
  | increment metric labels amount => MetricRegistry.increment metric labels amount
  | setGauge metric labels value => MetricRegistry.setGauge metric labels value
  | observe metric labels value => MetricRegistry.observe metric labels value

/-- The check that goes with an operation. -/
def validate (r : MetricRegistry) : RegistryOperation → Except Error Unit
  | increment metric labels amount => r.validateIncrement metric labels amount
  | setGauge metric labels _ => r.validateSetGauge metric labels
  | observe metric labels value => r.validateObserve metric labels value

def value : RegistryOperation → Nat
  | increment _ _ amount => amount
  | setGauge _ _ value => value
  | observe _ _ value => value

def kind : RegistryOperation → MetricKind
  | increment .. => .counter
  | setGauge .. => .gauge
  | observe .. => .histogram

def key : RegistryOperation → MetricSeriesKey
  | increment metric labels _ => ⟨metric, labels⟩
  | setGauge metric labels _ => ⟨metric, labels⟩
  | observe metric labels _ => ⟨metric, labels⟩

/-- The series once the operation has been accepted. -/
def applied (series : SeriesMap) : RegistryOperation → SeriesMap
  | increment metric labels amount => MetricRegistry.incremented series metric labels amount
  | setGauge metric labels value => MetricRegistry.gauged series metric labels value
  | observe metric labels value => MetricRegistry.observed series metric labels value

end RegistryOperation

namespace MetricRegistry

variable {r : MetricRegistry} {metric : MetricId} {labels : MetricLabels}

/-- A series that is not accepted is not created. -/
theorem requireSeries_error {expected : MetricKind} {e : Error}
    (refused : r.validateSeries metric labels expected = .error e) :
    requireSeries metric labels expected r = .error e r := by
  unfold requireSeries
  rw [get_bind_apply, refused]
  rfl

/-- A series that exists is handed out as it is. -/
theorem requireSeries_found {expected : MetricKind} {state : MetricSeriesState}
    (accepted : r.validateSeries metric labels expected = .ok (some state)) :
    requireSeries metric labels expected r = .ok state r := by
  unfold requireSeries
  rw [get_bind_apply, accepted]
  rfl

theorem increment_error {amount : Nat} {e : Error}
    (refused : r.validateIncrement metric labels amount = .error e) :
    increment metric labels amount r = .error e r := by
  unfold validateIncrement at refused
  unfold increment
  cases valid : r.validateSeries metric labels .counter with
  | error e' =>
    rw [valid] at refused
    cases refused
    exact bind_of_error (requireSeries_error valid)
  | ok found =>
    rw [valid, ok_bind] at refused
    cases found with
    | none => cases refused
    | some state =>
      dsimp only at refused
      rw [bind_of_ok (requireSeries_found valid)]
      cases added : checkedAdd valueOverflow state.scalar amount with
      | ok total => rw [added] at refused; cases refused
      | error e' =>
        rw [added] at refused
        cases refused
        rfl

theorem setGauge_error {value : Nat} {e : Error}
    (refused : r.validateSetGauge metric labels = .error e) :
    setGauge metric labels value r = .error e r := by
  unfold validateSetGauge at refused
  unfold setGauge
  cases valid : r.validateSeries metric labels .gauge with
  | error e' =>
    rw [valid] at refused
    cases refused
    exact bind_of_error (requireSeries_error valid)
  | ok found => rw [valid] at refused; cases refused

theorem observe_error {value : Nat} {e : Error}
    (refused : r.validateObserve metric labels value = .error e) :
    observe metric labels value r = .error e r := by
  unfold validateObserve at refused
  unfold observe
  cases valid : r.validateSeries metric labels .histogram with
  | error e' =>
    rw [valid] at refused
    cases refused
    exact bind_of_error (requireSeries_error valid)
  | ok found =>
    obtain ⟨definition, accepts⟩ := validateSeries_ok valid
    rw [valid, ok_bind] at refused
    cases found with
    | none => cases refused
    | some state =>
      simp only [accepts.known, ok_bind] at refused
      rw [bind_of_ok (requireSeries_found valid), accepts.known, fromExcept_of_ok, pure_bind]
      cases counted : observedState definition state value with
      | ok next => rw [counted] at refused; cases refused
      | error e' =>
        rw [counted] at refused
        cases refused
        rfl

end MetricRegistry

namespace RegistryOperation

open MetricRegistry

variable {r : MetricRegistry}

theorem run_of_valid {operation : RegistryOperation} (fits : operation.value ≤ maxU64)
    (ok : operation.validate r = .ok ()) :
    operation.run r = .ok () (r.withSeries (operation.applied r.series)) := by
  cases operation with
  | increment metric labels amount => exact increment_of_valid fits ok
  | setGauge metric labels value => exact setGauge_of_valid ok
  | observe metric labels value => exact observe_of_valid fits ok

theorem run_of_refused {operation : RegistryOperation} {e : Error}
    (refused : operation.validate r = .error e) : operation.run r = .error e r := by
  cases operation with
  | increment metric labels amount => exact increment_error refused
  | setGauge metric labels value => exact setGauge_error refused
  | observe metric labels value => exact observe_error refused

/-- The check decides how the operation goes. -/
theorem run_eq {operation : RegistryOperation} (fits : operation.value ≤ maxU64) :
    operation.run r = match operation.validate r with
      | .ok () => .ok () (r.withSeries (operation.applied r.series))
      | .error e => .error e r := by
  cases checked : operation.validate r with
  | ok _ => exact run_of_valid fits checked
  | error e => exact run_of_refused checked

end RegistryOperation

/-! ## The summary -/

/-- A closed job is as sound as an open one. -/
theorem JobState.Sound.closed {state : JobState} {timestamp : SimTimeNs} (sound : state.Sound)
    (ordered : state.lastTransition ≤ timestamp) (small : timestamp ≤ maxU64) :
    (SummaryBuilder.closedState timestamp state).Sound ∧
      (SummaryBuilder.closedState timestamp state).lastTransition ≤ timestamp := by
  unfold SummaryBuilder.closedState
  by_cases ended : state.snapshot.terminal = true
  · rw [if_pos ended]
    exact ⟨sound, ordered⟩
  · rw [if_neg ended]
    have alive : state.phase ≠ .terminal := fun terminal => ended (sound.ends.mpr terminal)
    refine ⟨⟨?_, small, ?_⟩, le_rfl⟩
    · rw [SummaryBuilder.elapsed_eq ordered small, total_addedInterval _ _ alive]
      calc state.snapshot.total + (timestamp - state.lastTransition)
        _ ≤ state.lastTransition + (timestamp - state.lastTransition) :=
          Nat.add_le_add_right sound.covered _
        _ = timestamp := Nat.add_sub_of_le ordered
    · rw [addedInterval_terminal]
      exact sound.ends

/-- A call leads from one state to another, whether it returns or throws. -/
def Leads {σ α : Type} (m : Action σ α) (s s' : σ) : Prop :=
  (∃ a, m s = .ok a s') ∨ ∃ e, m s = .error e s'

namespace SummaryBuilder

variable {b b' : SummaryBuilder} {timestamp : SimTimeNs} {correlation : Correlation}
  {observation : TelemetryObservation}

theorem Sound.finishedAt (sound : b.Sound) (small : timestamp ≤ maxU64)
    (ordered : ∀ last, b.lastTimestamp = some last → last ≤ timestamp) :
    (b.finishedAt timestamp).Sound := by
  have closed : ∀ job state, (b.finishedAt timestamp).jobs.find? job = some state →
      state.Sound ∧ state.lastTransition ≤ timestamp := by
    intro job state found
    rw [find?_finishedAt] at found
    obtain ⟨before, known, rfl⟩ := Option.map_eq_some_iff.mp found
    obtain ⟨last, isLast, past⟩ := sound.ordered job before known
    exact (sound.jobs job before known).closed (Nat.le_trans past (ordered last isLast)) small
  exact {
    limit := sound.limit
    small := sound.small
    room := sound.room
    jobs := fun job state found => (closed job state found).1
    ordered := fun job state found => ⟨timestamp, rfl, (closed job state found).2⟩ }

/-- What `consume` refuses it refuses before it changes anything. -/
theorem consume_of_refused {e : Error}
    (refused : b.validate timestamp correlation observation = .error e) :
    consume timestamp correlation observation b = .error e b := by
  unfold consume
  rw [get_bind_apply, refused]
  rfl

theorem consume_eq (sound : b.Sound) (small : timestamp ≤ maxU64) (fits : observation.Fits) :
    consume timestamp correlation observation b =
      match b.validate timestamp correlation observation with
      | .ok () => .ok () (b.consumed timestamp correlation observation)
      | .error e => .error e b := by
  cases checked : b.validate timestamp correlation observation with
  | ok _ => exact consume_of_valid sound small fits checked
  | error e => exact consume_of_refused checked

theorem finalize_error (sound : b.Sound) (small : timestamp ≤ maxU64) {e : Error}
    (threw : finalize timestamp b = .error e b') : b' = b := by
  by_cases sealed : b.finalized = true
  · unfold finalize at threw
    rw [get_bind_apply, throwIf, if_pos sealed] at threw
    cases threw
    rfl
  · by_cases late : b.lastTimestamp.any (timestamp < ·) = true
    · unfold finalize at threw
      rw [get_bind_apply, throwIf, if_neg sealed, pure_bind, get_bind_apply, throwIf, if_pos late]
        at threw
      cases threw
      rfl
    · have ordered : ∀ last, b.lastTimestamp = some last → last ≤ timestamp := by
        intro last known
        rw [known] at late
        simpa using late
      rw [finalize_of_sound sound small (by simpa using sealed) ordered] at threw
      cases threw

/-- The summaries that calls lead to, whether they return or throw. -/
inductive Reachable : SummaryBuilder → Prop where
  | created {series boundaries : Nat} {b : SummaryBuilder} (small : series ≤ maxU64)
      (ok : create series boundaries = .ok b) : Reachable b
  | consumed {b b' : SummaryBuilder} {timestamp : SimTimeNs} {correlation : Correlation}
      {observation : TelemetryObservation} (before : Reachable b) (small : timestamp ≤ maxU64)
      (fits : observation.Fits)
      (leads : Leads (consume timestamp correlation observation) b b') : Reachable b'
  | finalized {b b' : SummaryBuilder} {timestamp : SimTimeNs} (before : Reachable b)
      (small : timestamp ≤ maxU64) (leads : Leads (finalize timestamp) b b') : Reachable b'

theorem Reachable.sound (reachable : b.Reachable) : b.Sound := by
  induction reachable with
  | created small ok => exact sound_create small ok
  | @consumed b b' timestamp correlation observation before small fits leads sound =>
    rcases leads with ⟨_, ok⟩ | ⟨e, threw⟩
    · obtain ⟨valid, rfl⟩ := consume_ok ok
      exact sound.consumed small (validate_ok valid)
    · rw [consume_eq sound small fits] at threw
      split at threw
      · cases threw
      · cases threw
        exact sound
  | finalized before small leads sound =>
    rcases leads with ⟨_, ok⟩ | ⟨e, threw⟩
    · obtain ⟨_, ordered, rfl⟩ := finalize_ok ok
      exact sound.finishedAt small ordered
    · rw [finalize_error sound small threw]
      exact sound

end SummaryBuilder

/-! ## Agreement -/

/-- The checks of the registry and of the summary throw exactly when what they check would throw,
and what throws has changed nothing. -/
theorem preflight_agrees {r : MetricRegistry} {operation : RegistryOperation}
    (value : operation.value ≤ maxU64) {b : SummaryBuilder} (reachable : b.Reachable)
    {timestamp : SimTimeNs} (small : timestamp ≤ maxU64) {observation : TelemetryObservation}
    (fits : observation.Fits) (correlation : Correlation) :
    ((∃ e, operation.validate r = .error e) ↔ ∃ e r', operation.run r = .error e r') ∧
      (∀ e r', operation.run r = .error e r' → operation.validate r = .error e ∧ r' = r) ∧
      ((∃ e, b.validate timestamp correlation observation = .error e) ↔
        ∃ e b', SummaryBuilder.consume timestamp correlation observation b = .error e b') ∧
      ∀ e b', SummaryBuilder.consume timestamp correlation observation b = .error e b' →
        b.validate timestamp correlation observation = .error e ∧ b' = b := by
  have operated : ∀ e r', operation.run r = .error e r' →
      operation.validate r = .error e ∧ r' = r := by
    intro e r' threw
    rw [RegistryOperation.run_eq value] at threw
    split at threw
    · cases threw
    · rename_i e checked
      cases threw
      exact ⟨checked, rfl⟩
  have consumed : ∀ e b', SummaryBuilder.consume timestamp correlation observation b = .error e b' →
      b.validate timestamp correlation observation = .error e ∧ b' = b := by
    intro e b' threw
    rw [SummaryBuilder.consume_eq reachable.sound small fits] at threw
    split at threw
    · cases threw
    · rename_i e checked
      cases threw
      exact ⟨checked, rfl⟩
  refine ⟨⟨fun ⟨e, refused⟩ => ?_, fun ⟨e, r', threw⟩ => ?_⟩, operated,
    ⟨fun ⟨e, refused⟩ => ?_, fun ⟨e, b', threw⟩ => ?_⟩, consumed⟩
  · exact ⟨e, r, RegistryOperation.run_of_refused refused⟩
  · exact ⟨e, (operated e r' threw).1⟩
  · exact ⟨e, b, SummaryBuilder.consume_of_refused refused⟩
  · exact ⟨e, (consumed e b' threw).1⟩

/-- Room for two series, one less than a job's end needs. -/
def twoSeries : SummaryBuilder := { metrics := { maximumSeries := 2 }, maximumMetricSeries := 2 }

theorem twoSeries_created : SummaryBuilder.create 2 64 = .ok twoSeries := by
  unfold SummaryBuilder.create MetricRegistry.create
  rw [if_neg (by decide), validateMetricCatalog_default]
  rfl

/-- The end of a job does not fit into two series: check and commit both refuse it. -/
theorem preflight_agrees_twoSeries :
    let ended : TelemetryObservation := .job ⟨.failed, 0, 0, 0, 1⟩
    let correlation : Correlation := { job := some ⟨1⟩ }
    (∃ e, twoSeries.validate 10 correlation ended = .error e) ∧
      ∃ e b', SummaryBuilder.consume 10 correlation ended twoSeries = .error e b' := by
  intro ended correlation
  have refused : ∃ e, twoSeries.validate 10 correlation ended = .error e :=
    ⟨.lengthError "telemetry metric series limit exceeded", by decide +kernel⟩
  have agrees := @preflight_agrees twoSeries.metrics (.increment .simulationRngDraws .none 3)
    (by decide) twoSeries (.created (by decide) twoSeries_created) 10 (by decide) ended (by decide)
    correlation
  exact ⟨refused, agrees.2.2.1.mp refused⟩

end NexusLab.Telemetry
