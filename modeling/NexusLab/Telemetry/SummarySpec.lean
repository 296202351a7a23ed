import NexusLab.Telemetry.Summary

/-! # What a summary makes of an observation

The registry's operations and `consume` as functions of the series and the jobs: whatever the
limits of a registry are, an accepted observation changes the series and the jobs in the same way.
An observation that `validate` accepts is never thrown out by `consume` afterwards. -/

namespace NexusLab.Telemetry

open Foundation

abbrev SeriesMap := OrderedMap MetricSeriesKey MetricSeriesState

theorem checkedAdd_ok {what : String} {left right total : Nat}
    (ok : checkedAdd what left right = .ok total) : total = left + right := by
  unfold checkedAdd at ok
  split at ok
  · cases ok
  · exact (Except.ok.inj ok).symm

theorem checkedAdd_of_le {what : String} {left right : Nat} (fits : left + right ≤ maxU64) :
    checkedAdd what left right = .ok (left + right) := by
  unfold checkedAdd
  rw [if_neg (by omega)]

/-- The catalogue passes its own check under the default limit of boundaries. -/
theorem validateMetricCatalog_default : validateMetricCatalog metricCatalog 64 = .ok () := by
  decide +kernel

namespace MetricRegistry

/-! ## The registry's operations on its series -/

/-- The state of a series, or the one it is created with. -/
def stateOr (series : SeriesMap) (key : MetricSeriesKey) (initial : MetricSeriesState) :
    MetricSeriesState :=
  (series.find? key).getD initial

def initialState (definition : MetricDefinition) (kind : MetricKind) : MetricSeriesState where
  kind := kind
  histogramBuckets := match kind with
    | .histogram => List.replicate (definition.histogramBoundaries.length + 1) 0
    | _ => []

@[simp] theorem initialState_counter (definition : MetricDefinition) :
    initialState definition .counter = { kind := .counter } := rfl

@[simp] theorem initialState_gauge (definition : MetricDefinition) :
    initialState definition .gauge = { kind := .gauge } := rfl

def incremented (series : SeriesMap) (metric : MetricId) (labels : MetricLabels)
    (amount : Nat) : SeriesMap :=
  let state := stateOr series ⟨metric, labels⟩ { kind := .counter }
  series.insert ⟨metric, labels⟩ { state with scalar := state.scalar + amount }

def gauged (series : SeriesMap) (metric : MetricId) (labels : MetricLabels) (value : Nat) :
    SeriesMap :=
  let state := stateOr series ⟨metric, labels⟩ { kind := .gauge }
  series.insert ⟨metric, labels⟩ { state with scalar := value }

def observed (series : SeriesMap) (metric : MetricId) (labels : MetricLabels) (value : Nat) :
    SeriesMap :=
  match metricDefinition metric with
  | .error _ => series
  | .ok definition =>
    let state := stateOr series ⟨metric, labels⟩ (initialState definition .histogram)
    match observedState definition state value with
    | .error _ => series
    | .ok next => series.insert ⟨metric, labels⟩ next

def withSeries (r : MetricRegistry) (series : SeriesMap) : MetricRegistry := { r with series }

@[simp] theorem withSeries_series (r : MetricRegistry) (series : SeriesMap) :
    (r.withSeries series).series = series := rfl

@[simp] theorem withSeries_maximumSeries (r : MetricRegistry) (series : SeriesMap) :
    (r.withSeries series).maximumSeries = r.maximumSeries := rfl

/-- What `validateSeries` found out when it accepts. -/
structure Accepts (r : MetricRegistry) (metric : MetricId) (labels : MetricLabels)
    (found : Option MetricSeriesState) (definition : MetricDefinition) : Prop where
  known : metricDefinition metric = .ok definition
  found_eq : found = r.series.find? ⟨metric, labels⟩
  room : found = none → r.series.size < r.maximumSeries

theorem validateSeries_ok {r : MetricRegistry} {metric : MetricId} {labels : MetricLabels}
    {expected : MetricKind} {found : Option MetricSeriesState}
    (ok : r.validateSeries metric labels expected = .ok found) :
    ∃ definition, r.Accepts metric labels found definition := by
  unfold validateSeries at ok
  cases known : metricDefinition metric with
  | error e => rw [known] at ok; cases ok
  | ok definition =>
    rw [known, ok_bind] at ok
    cases labelled : validateLabels definition labels with
    | error e => rw [labelled] at ok; cases ok
    | ok _ =>
      rw [labelled, ok_bind] at ok
      split at ok
      · cases ok
      · split at ok
        · rename_i state present
          cases ok
          exact ⟨definition, known, present.symm, fun absent => by cases absent⟩
        · rename_i absent
          split at ok
          · cases ok
          · cases ok
            exact ⟨definition, known, absent.symm, fun _ => by omega⟩

/-- The state `requireSeries` hands out for a series that the registry accepts. -/
theorem requireSeries_eq {r : MetricRegistry} {metric : MetricId} {labels : MetricLabels}
    {expected : MetricKind} {found : Option MetricSeriesState} {definition : MetricDefinition}
    (ok : r.validateSeries metric labels expected = .ok found)
    (accepts : r.Accepts metric labels found definition) :
    let state := stateOr r.series ⟨metric, labels⟩ (initialState definition expected)
    requireSeries metric labels expected r =
      .ok state (r.withSeries (r.series.insert ⟨metric, labels⟩ state)) := by
  intro state
  have validated : (fromExcept (r.validateSeries metric labels expected) :
      Action MetricRegistry _) r = .ok found r := by rw [ok]; rfl
  unfold requireSeries
  rw [get_bind_apply, bind_of_ok validated]
  cases here : found with
  | some old =>
    have present : r.series.find? ⟨metric, labels⟩ = some old := accepts.found_eq.symm.trans here
    have same : state = old := by
      show (r.series.find? ⟨metric, labels⟩).getD (initialState definition expected) = old
      rw [present, Option.getD_some]
    rw [same, OrderedMap.insert_of_find? present]
    rfl
  | none =>
    have absent : r.series.find? ⟨metric, labels⟩ = none := accepts.found_eq.symm.trans here
    have same : state = initialState definition expected := by
      show (r.series.find? ⟨metric, labels⟩).getD (initialState definition expected) = _
      rw [absent, Option.getD_none]
    have known : (fromExcept (metricDefinition metric) :
        Action MetricRegistry _) r = .ok definition r := by rw [accepts.known]; rfl
    rw [same]
    refine (bind_of_ok known).trans ?_
    cases expected <;> rfl

theorem requireSeries_ok {r r' : MetricRegistry} {metric : MetricId} {labels : MetricLabels}
    {expected : MetricKind} {state : MetricSeriesState}
    (ok : requireSeries metric labels expected r = .ok state r') :
    ∃ found, r.validateSeries metric labels expected = .ok found := by
  obtain ⟨_, _, entered, rest⟩ := ok_of_bind ok
  cases entered
  obtain ⟨found, _, validated, _⟩ := ok_of_bind rest
  exact ⟨found, (fromExcept_ok validated).1⟩

theorem increment_ok {r r' : MetricRegistry} {metric : MetricId} {labels : MetricLabels}
    {amount : Nat} (ok : increment metric labels amount r = .ok () r') :
    r' = r.withSeries (incremented r.series metric labels amount) := by
  unfold increment at ok
  obtain ⟨state, t, required, rest⟩ := ok_of_bind ok
  obtain ⟨found, valid⟩ := requireSeries_ok required
  obtain ⟨definition, accepts⟩ := validateSeries_ok valid
  rw [requireSeries_eq valid accepts] at required
  cases required
  obtain ⟨scalar, t, added, stored⟩ := ok_of_bind rest
  obtain ⟨sum, rfl⟩ := fromExcept_ok added
  cases stored
  rw [checkedAdd_ok sum]
  simp [withSeries, incremented]

theorem setGauge_ok {r r' : MetricRegistry} {metric : MetricId} {labels : MetricLabels}
    {value : Nat} (ok : setGauge metric labels value r = .ok () r') :
    r' = r.withSeries (gauged r.series metric labels value) := by
  unfold setGauge at ok
  obtain ⟨state, t, required, stored⟩ := ok_of_bind ok
  obtain ⟨found, valid⟩ := requireSeries_ok required
  obtain ⟨definition, accepts⟩ := validateSeries_ok valid
  rw [requireSeries_eq valid accepts] at required
  cases required
  cases stored
  simp [withSeries, gauged]

theorem observe_ok {r r' : MetricRegistry} {metric : MetricId} {labels : MetricLabels}
    {value : Nat} (ok : observe metric labels value r = .ok () r') :
    r' = r.withSeries (observed r.series metric labels value) := by
  unfold observe at ok
  obtain ⟨state, t, required, rest⟩ := ok_of_bind ok
  obtain ⟨found, valid⟩ := requireSeries_ok required
  obtain ⟨definition, accepts⟩ := validateSeries_ok valid
  rw [requireSeries_eq valid accepts] at required
  cases required
  obtain ⟨definition', t, looked, rest⟩ := ok_of_bind rest
  obtain ⟨known, rfl⟩ := fromExcept_ok looked
  obtain ⟨next, t, tried, stored⟩ := ok_of_bind rest
  obtain ⟨counted, rfl⟩ := fromExcept_ok tried
  cases stored
  have same : definition = definition' := Except.ok.inj (accepts.known.symm.trans known)
  subst same
  simp only [observed, known, counted]
  simp [withSeries]

/-! ## Validated operations do not throw -/

theorem checkedAdd_map_ok {what : String} {left right : Nat}
    (ok : (checkedAdd what left right).map (fun _ => ()) = .ok ()) :
    checkedAdd what left right = .ok (left + right) := by
  cases added : checkedAdd what left right with
  | ok total => rw [checkedAdd_ok added]
  | error e => rw [added] at ok; cases ok

/-- What `validateIncrement` found out when it accepts. -/
theorem validateIncrement_ok {r : MetricRegistry} {metric : MetricId} {labels : MetricLabels}
    {amount : Nat} (ok : r.validateIncrement metric labels amount = .ok ()) :
    r.validateSeries metric labels .counter = .ok (r.series.find? ⟨metric, labels⟩) ∧
      (r.series.find? ⟨metric, labels⟩ = none → r.series.size < r.maximumSeries) ∧
      ∀ state, r.series.find? ⟨metric, labels⟩ = some state →
        checkedAdd valueOverflow state.scalar amount = .ok (state.scalar + amount) := by
  unfold validateIncrement at ok
  cases valid : r.validateSeries metric labels .counter with
  | error e => rw [valid] at ok; cases ok
  | ok found =>
    rw [valid, ok_bind] at ok
    obtain ⟨definition, accepts⟩ := validateSeries_ok valid
    have here := accepts.found_eq
    refine ⟨by rw [here], fun absent => accepts.room (here.trans absent), ?_⟩
    intro state present
    rw [here, present] at ok
    exact checkedAdd_map_ok ok

theorem increment_of_valid {r : MetricRegistry} {metric : MetricId} {labels : MetricLabels}
    {amount : Nat} (fits : amount ≤ maxU64)
    (ok : r.validateIncrement metric labels amount = .ok ()) :
    increment metric labels amount r =
      .ok () (r.withSeries (incremented r.series metric labels amount)) := by
  obtain ⟨valid, _, adds⟩ := validateIncrement_ok ok
  obtain ⟨definition, accepts⟩ := validateSeries_ok valid
  have required := requireSeries_eq valid accepts
  have added : checkedAdd valueOverflow (stateOr r.series ⟨metric, labels⟩ { kind := .counter }).scalar
      amount = .ok ((stateOr r.series ⟨metric, labels⟩ { kind := .counter }).scalar + amount) := by
    unfold stateOr
    cases present : r.series.find? ⟨metric, labels⟩ with
    | some state => exact adds state present
    | none => exact checkedAdd_of_le (by simpa using fits)
  unfold increment
  rw [bind_of_ok required]
  simp only [initialState_counter, added]
  show EStateM.Result.ok _ _ = _
  simp [withSeries, incremented]

theorem setGauge_of_valid {r : MetricRegistry} {metric : MetricId} {labels : MetricLabels}
    {value : Nat} (ok : r.validateSetGauge metric labels = .ok ()) :
    setGauge metric labels value r =
      .ok () (r.withSeries (gauged r.series metric labels value)) := by
  unfold validateSetGauge at ok
  cases valid : r.validateSeries metric labels .gauge with
  | error e => rw [valid] at ok; cases ok
  | ok found =>
    obtain ⟨definition, accepts⟩ := validateSeries_ok valid
    unfold setGauge
    rw [bind_of_ok (requireSeries_eq valid accepts)]
    show EStateM.Result.ok _ _ = _
    simp [withSeries, gauged]

theorem observedState_initial (definition : MetricDefinition) {value : Nat}
    (fits : value ≤ maxU64) :
    ∃ next, observedState definition (initialState definition .histogram) value = .ok next := by
  have bucket : (initialState definition .histogram).histogramBuckets.getD
      (histogramBucket definition.histogramBoundaries value) 0 = 0 := by
    rw [List.getD_eq_getElem?_getD]
    simp only [initialState, List.getElem?_replicate]
    split <;> rfl
  simp only [observedState]
  rw [bucket, checkedAdd_of_le (by decide), ok_bind]
  simp only [initialState]
  rw [checkedAdd_of_le (by decide), ok_bind, checkedAdd_of_le (by omega), ok_bind]
  exact ⟨_, rfl⟩

theorem observe_of_valid {r : MetricRegistry} {metric : MetricId} {labels : MetricLabels}
    {value : Nat} (fits : value ≤ maxU64) (ok : r.validateObserve metric labels value = .ok ()) :
    observe metric labels value r =
      .ok () (r.withSeries (observed r.series metric labels value)) := by
  unfold validateObserve at ok
  cases valid : r.validateSeries metric labels .histogram with
  | error e => rw [valid] at ok; cases ok
  | ok found =>
    obtain ⟨definition, accepts⟩ := validateSeries_ok valid
    rw [valid, ok_bind] at ok
    have counted : ∃ next, observedState definition
        (stateOr r.series ⟨metric, labels⟩ (initialState definition .histogram)) value
          = .ok next := by
      unfold stateOr
      rw [← accepts.found_eq]
      cases found with
      | none => exact observedState_initial definition fits
      | some state =>
        simp only [accepts.known, ok_bind] at ok
        cases step : observedState definition state value with
        | ok next => exact ⟨next, step⟩
        | error e => rw [step] at ok; cases ok
    obtain ⟨next, counted⟩ := counted
    unfold observe
    rw [bind_of_ok (requireSeries_eq valid accepts)]
    simp only [accepts.known, fromExcept_of_ok, pure_bind, counted, observed]
    show EStateM.Result.ok _ _ = _
    simp [withSeries]

end MetricRegistry

open MetricRegistry

/-! ## One observation on the series -/

/-- The amounts of an observation are 64-bit values. -/
def TelemetryObservation.Fits : TelemetryObservation → Prop
  | .counter value => value.amount ≤ maxU64
  | .histogram value => value.value ≤ maxU64
  | _ => True

instance : DecidablePred TelemetryObservation.Fits
  | .counter value => inferInstanceAs (Decidable (value.amount ≤ maxU64))
  | .histogram value => inferInstanceAs (Decidable (value.value ≤ maxU64))
  | .gauge _ | .simulation _ | .job _ | .collective _ | .transfer _ | .queue _
  | .routingDecision _ | .placementDecision _ | .failure _ => isTrue trivial

def appliedSeries (series : SeriesMap) : TelemetryObservation → SeriesMap
  | .counter value => incremented series value.metric value.labels value.amount
  | .gauge value => gauged series value.metric value.labels value.value
  | .histogram value => observed series value.metric value.labels value.value
  | _ => series

theorem applyMetricObservation_ok {observation : TelemetryObservation} {r r' : MetricRegistry}
    (ok : applyMetricObservation observation r = .ok () r') :
    r' = r.withSeries (appliedSeries r.series observation) := by
  cases observation with
  | counter value => exact increment_ok ok
  | gauge value => exact setGauge_ok ok
  | histogram value => exact observe_ok ok
  | _ => cases ok; rfl

theorem applyMetricObservation_of_valid {observation : TelemetryObservation} {r : MetricRegistry}
    (fits : observation.Fits) (valid : validateMetricObservation r observation = .ok ()) :
    applyMetricObservation observation r =
      .ok () (r.withSeries (appliedSeries r.series observation)) := by
  cases observation with
  | counter value => exact increment_of_valid fits valid
  | gauge value => exact setGauge_of_valid valid
  | histogram value => exact observe_of_valid fits valid
  | _ => rfl

/-! ## Job attribution -/

/-- The time attributed so far, whatever the phase. -/
def JobAttributionSnapshot.total (s : JobAttributionSnapshot) : Nat :=
  s.schedulingWaitNs + s.computeNs + s.communicationNs + s.synchronizationWaitNs +
    s.stragglerDelayNs + s.terminalOtherNs

/-- A snapshot with the interval added to the phase's duration. -/
def addedInterval (s : JobAttributionSnapshot) (phase : JobPhase) (duration : Nat) :
    JobAttributionSnapshot :=
  match phase with
  | .schedulingWait => { s with schedulingWaitNs := s.schedulingWaitNs + duration }
  | .compute => { s with computeNs := s.computeNs + duration }
  | .communication => { s with communicationNs := s.communicationNs + duration }
  | .synchronizationWait => { s with synchronizationWaitNs := s.synchronizationWaitNs + duration }
  | .stragglerDelay => { s with stragglerDelayNs := s.stragglerDelayNs + duration }
  | .terminalOther => { s with terminalOtherNs := s.terminalOtherNs + duration }
  | .terminal => s

theorem addInterval_ok {s s' : JobAttributionSnapshot} {phase : JobPhase} {duration : Nat}
    (ok : addInterval s phase duration = .ok s') : s' = addedInterval s phase duration := by
  have mapped : ∀ {what : String} {left : Nat} (f : Nat → JobAttributionSnapshot),
      (checkedAdd what left duration).map f = .ok s' → s' = f (left + duration) := by
    intro what left f ok
    cases added : checkedAdd what left duration with
    | ok total =>
      rw [added] at ok
      cases ok
      rw [checkedAdd_ok added]
    | error e => rw [added] at ok; cases ok
  cases phase with
  | terminal => cases ok; rfl
  | _ => exact mapped _ ok

/-- Since every duration is part of the total, only the total has to fit. -/
theorem addInterval_of_le {s : JobAttributionSnapshot} (phase : JobPhase) {duration : Nat}
    (fits : s.total + duration ≤ maxU64) :
    addInterval s phase duration = .ok (addedInterval s phase duration) := by
  unfold JobAttributionSnapshot.total at fits
  cases phase <;> simp only [addInterval, addedInterval] <;>
    rw [checkedAdd_of_le (by omega)] <;> rfl

theorem total_addedInterval (s : JobAttributionSnapshot) {phase : JobPhase} (duration : Nat)
    (running : phase ≠ .terminal) :
    (addedInterval s phase duration).total = s.total + duration := by
  cases phase <;> simp only [addedInterval, JobAttributionSnapshot.total] <;>
    first | omega | exact absurd rfl running

@[simp] theorem addedInterval_job (s : JobAttributionSnapshot) (phase : JobPhase)
    (duration : Nat) : (addedInterval s phase duration).job = s.job := by
  cases phase <;> rfl

@[simp] theorem addedInterval_terminal (s : JobAttributionSnapshot) (phase : JobPhase)
    (duration : Nat) : (addedInterval s phase duration).terminal = s.terminal := by
  cases phase <;> rfl

/-- A known job after one more transition. -/
def JobState.stepped (state : JobState) (timestamp : SimTimeNs) (transition : JobTransition)
    (collectiveActive : Bool) : JobState :=
  let phase := nextPhase state.phase transition collectiveActive
  { snapshot := { addedInterval state.snapshot state.phase (timestamp - state.lastTransition) with
      terminal := phase = .terminal }
    lastTransition := timestamp
    phase }

/-- A job at its first transition. -/
def JobState.begun (job : JobId) (timestamp : SimTimeNs) (transition : JobTransition) : JobState :=
  if terminalTransition transition then
    { snapshot := { job, terminal := true }, lastTransition := timestamp, phase := .terminal }
  else { snapshot := { job }, lastTransition := timestamp }

/-- The transitions a summary accepts. -/
inductive Transitions (job : JobId) (timestamp : SimTimeNs) (transition : JobTransition)
    (collectiveActive : Bool) : Option JobState → JobState → Prop
  | begun (first : transition = .arrived ∨ terminalTransition transition = true) :
    Transitions job timestamp transition collectiveActive none
      (JobState.begun job timestamp transition)
  | stepped {state : JobState} (running : state.snapshot.terminal = false)
    (later : transition ≠ .arrived) (ordered : state.lastTransition ≤ timestamp) :
    Transitions job timestamp transition collectiveActive (some state)
      (state.stepped timestamp transition collectiveActive)

theorem jobTransition_ok {current : Option JobState} {job : JobId} {timestamp : SimTimeNs}
    {transition : JobTransition} {collectiveActive : Bool} {next : JobState}
    (ok : jobTransition current job timestamp transition collectiveActive = .ok next) :
    Transitions job timestamp transition collectiveActive current next := by
  unfold jobTransition at ok
  cases current with
  | none =>
    simp only at ok
    split at ok
    · cases ok
    · rename_i accepted
      have first : transition = .arrived ∨ terminalTransition transition = true := by
        by_contra neither
        rw [not_or] at neither
        exact accepted ⟨neither.1, Bool.eq_false_of_not_eq_true neither.2⟩
      have same : next = JobState.begun job timestamp transition := by
        unfold JobState.begun
        split at ok
        · rename_i ends
          rw [if_pos ends]
          exact (Except.ok.inj ok).symm
        · rename_i ends
          rw [if_neg ends]
          exact (Except.ok.inj ok).symm
      exact same ▸ .begun first
  | some state =>
    simp only at ok
    split at ok
    · cases ok
    · rename_i running
      split at ok
      · cases ok
      · rename_i later
        split at ok
        · cases ok
        · rename_i ordered
          cases added : addInterval state.snapshot state.phase
              (timestamp - state.lastTransition) with
          | error e => rw [added] at ok; cases ok
          | ok snapshot =>
            rw [added] at ok
            have same : next = state.stepped timestamp transition collectiveActive := by
              rw [addInterval_ok added] at ok
              exact (Except.ok.inj ok).symm
            exact same ▸ .stepped (by simpa using running) later (Nat.le_of_not_lt ordered)

/-! ## Series a finished job adds to -/

namespace MetricRegistry

/-- A validation depends on the series itself and on the room for a new one. -/
theorem validateIncrement_frame {r r' : MetricRegistry} {metric : MetricId}
    {labels : MetricLabels} {amount : Nat}
    (valid : r.validateIncrement metric labels amount = .ok ())
    (same : r'.series.find? ⟨metric, labels⟩ = r.series.find? ⟨metric, labels⟩)
    (room : r.series.find? ⟨metric, labels⟩ = none → r'.series.size < r'.maximumSeries) :
    r'.validateIncrement metric labels amount = .ok () := by
  have series : r'.validateSeries metric labels .counter =
      r.validateSeries metric labels .counter := by
    obtain ⟨accepted, free, _⟩ := validateIncrement_ok valid
    unfold validateSeries at accepted ⊢
    cases known : metricDefinition metric with
    | error e => rfl
    | ok definition =>
      simp only [ok_bind]
      cases labelled : validateLabels definition labels with
      | error e => rfl
      | ok _ =>
        simp only [ok_bind, same]
        cases present : r.series.find? ⟨metric, labels⟩ with
        | some state => rfl
        | none =>
          have here := room present
          have there := free present
          simp only
          rw [if_neg (Nat.not_le.mpr here), if_neg (Nat.not_le.mpr there)]
  unfold validateIncrement at valid ⊢
  rw [series]
  exact valid

theorem find?_incremented_of_ne {series : SeriesMap} {metric other : MetricId}
    {labels : MetricLabels} {amount : Nat} (ne : other ≠ metric) :
    (incremented series metric labels amount).find? ⟨other, labels⟩ =
      series.find? ⟨other, labels⟩ := by
  unfold incremented
  rw [OrderedMap.find?_insert_of_ne]
  intro same
  exact ne (congrArg MetricSeriesKey.metric same)

theorem size_incremented (series : SeriesMap) (metric : MetricId) (labels : MetricLabels)
    (amount : Nat) :
    (incremented series metric labels amount).size =
      if series.find? ⟨metric, labels⟩ = none then series.size + 1 else series.size := by
  unfold incremented
  split
  · rename_i absent
    exact OrderedMap.size_insert_of_fresh absent
  · rename_i present
    obtain ⟨state, found⟩ := Option.ne_none_iff_exists'.mp present
    exact OrderedMap.size_insert_of_found found

/-- How many of the entries would create a series. -/
def missing (r : MetricRegistry) (entries : List (MetricId × Nat)) : Nat :=
  (entries.filter fun entry => (r.find entry.1 .none).isNone).length

def incrementedAll (series : SeriesMap) (entries : List (MetricId × Nat)) : SeriesMap :=
  entries.foldl (fun series entry => incremented series entry.1 .none entry.2) series

theorem find_isNone (r : MetricRegistry) (metric : MetricId) (labels : MetricLabels) :
    (r.find metric labels).isNone = (r.series.find? ⟨metric, labels⟩).isNone := by
  unfold find
  cases r.series.find? ⟨metric, labels⟩ <;> rfl

theorem missing_incremented {r : MetricRegistry} {entry : MetricId × Nat}
    {rest : List (MetricId × Nat)} (distinct : ∀ other ∈ rest, other.1 ≠ entry.1) :
    (r.withSeries (incremented r.series entry.1 .none entry.2)).missing rest =
      r.missing rest := by
  unfold missing
  congr 1
  apply List.filter_congr
  intro other member
  rw [find_isNone, find_isNone]
  show ((incremented _ _ _ _).find? _).isNone = _
  rw [find?_incremented_of_ne (distinct other member)]

theorem missing_cons (r : MetricRegistry) (entry : MetricId × Nat)
    (rest : List (MetricId × Nat)) :
    r.missing (entry :: rest) =
      (if r.series.find? ⟨entry.1, .none⟩ = none then 1 else 0) + r.missing rest := by
  unfold missing
  rw [List.filter_cons, find_isNone]
  cases r.series.find? ⟨entry.1, .none⟩ <;> simp [Nat.add_comm]

theorem size_incremented_add_missing (r : MetricRegistry) (entry : MetricId × Nat)
    (rest : List (MetricId × Nat)) :
    (incremented r.series entry.1 .none entry.2).size + r.missing rest =
      r.series.size + r.missing (entry :: rest) := by
  rw [size_incremented, missing_cons]
  split <;> omega

/-- Increments of different counters that are each valid, with room for those that are missing,
all succeed. -/
theorem forM_increment_of_valid : ∀ {entries : List (MetricId × Nat)} {r : MetricRegistry},
    (entries.map Prod.fst).Nodup →
    (∀ entry ∈ entries, r.validateIncrement entry.1 .none entry.2 = .ok ()) →
    (∀ entry ∈ entries, entry.2 ≤ maxU64) →
    r.series.size + r.missing entries ≤ r.maximumSeries →
    (entries.forM fun entry => increment entry.1 .none entry.2) r =
      .ok () (r.withSeries (incrementedAll r.series entries)) := by
  intro entries
  induction entries with
  | nil => intro r _ _ _ _; rfl
  | cons entry rest ih =>
    intro r distinct valid fits room
    obtain ⟨fresh, distinctRest⟩ := List.nodup_cons.mp distinct
    have others : ∀ other ∈ rest, other.1 ≠ entry.1 := by
      intro other member same
      exact fresh (same ▸ List.mem_map_of_mem member)
    have first := increment_of_valid (fits entry List.mem_cons_self)
      (valid entry List.mem_cons_self)
    have taken := size_incremented_add_missing r entry rest
    rw [forM_cons_apply, bind_of_ok first]
    refine ih distinctRest ?_ (fun other member => fits other (List.mem_cons_of_mem _ member)) ?_
    · intro other member
      refine validateIncrement_frame (valid other (List.mem_cons_of_mem _ member))
        (find?_incremented_of_ne (others other member)) ?_
      intro absent
      have counted : 1 ≤ r.missing rest := by
        unfold missing
        refine List.length_pos_of_mem (List.mem_filter.mpr ⟨member, ?_⟩)
        rw [find_isNone, absent]
        rfl
      show (incremented r.series entry.1 .none entry.2).size < r.maximumSeries
      omega
    · rw [missing_incremented others]
      show (incremented r.series entry.1 .none entry.2).size + _ ≤ r.maximumSeries
      omega

theorem forM_increment_ok {entries : List (MetricId × Nat)} :
    ∀ {r r' : MetricRegistry},
      (entries.forM fun entry => increment entry.1 .none entry.2) r = .ok () r' →
        r' = r.withSeries (incrementedAll r.series entries) := by
  induction entries with
  | nil => intro r r' ok; cases ok; rfl
  | cons entry rest ih =>
    intro r r' ok
    rw [forM_cons_apply] at ok
    obtain ⟨_, t, first, others⟩ := ok_of_bind ok
    have here := increment_ok first
    subst here
    exact ih others

end MetricRegistry

namespace SummaryBuilder

/-! ## One observation on the summary -/

/-- The job an observation moves, and the state it moves to. -/
def transitionOf (b : SummaryBuilder) (timestamp : SimTimeNs) (correlation : Correlation) :
    TelemetryObservation → Option (JobId × JobState)
  | .job value =>
    match correlation.job with
    | none => none
    | some job =>
      match jobTransition (b.jobs.find? job) job timestamp value.transition
          correlation.collective.isSome with
      | .ok next => some (job, next)
      | .error _ => none
  | _ => none

/-- The series a job's transition leaves: a finished job adds its durations. -/
def finishedSeries (series : SeriesMap) (next : JobState) : SeriesMap :=
  if next.snapshot.terminal then incrementedAll series (terminalMetrics next) else series

def consumed (b : SummaryBuilder) (timestamp : SimTimeNs) (correlation : Correlation)
    (observation : TelemetryObservation) : SummaryBuilder :=
  let series := appliedSeries b.metrics.series observation
  match b.transitionOf timestamp correlation observation with
  | some (job, next) =>
    { b with
      metrics := b.metrics.withSeries (finishedSeries series next)
      jobs := b.jobs.insert job next
      lastTimestamp := some timestamp }
  | none =>
    { b with metrics := b.metrics.withSeries series, lastTimestamp := some timestamp }

theorem consume_ok {b b' : SummaryBuilder} {timestamp : SimTimeNs} {correlation : Correlation}
    {observation : TelemetryObservation}
    (ok : consume timestamp correlation observation b = .ok () b') :
    b.validate timestamp correlation observation = .ok () ∧
      b' = b.consumed timestamp correlation observation := by
  unfold consume at ok
  rw [get_bind_apply] at ok
  obtain ⟨_, _, checked, rest⟩ := ok_of_bind ok
  obtain ⟨valid, rfl⟩ := fromExcept_ok checked
  refine ⟨valid, ?_⟩
  obtain ⟨_, c, applied, rest⟩ := ok_of_bind rest
  obtain ⟨metrics, metricsApplied, rfl⟩ := zoom_ok applied
  have registry := applyMetricObservation_ok metricsApplied
  subst registry
  -- only a job observation moves more than the metrics
  cases observation with
  | job value =>
    cases named : correlation.job with
    | none => rw [named] at rest; cases rest
    | some job =>
      rw [named] at rest
      obtain ⟨_, _, found, moved⟩ := ok_of_bind rest
      cases found
      rw [get_bind_apply] at moved
      obtain ⟨next, _, moves, moved⟩ := ok_of_bind moved
      obtain ⟨stepped, rfl⟩ := fromExcept_ok moves
      have target : b.transitionOf timestamp correlation (.job value) = some (job, next) := by
        unfold transitionOf
        simp only [named]
        have here : jobTransition (b.jobs.find? job) job timestamp value.transition
          correlation.collective.isSome = .ok next := stepped
        rw [here]
      obtain ⟨_, d, finished, stored⟩ := ok_of_bind moved
      cases stored
      unfold consumed
      rw [target]
      unfold runIf at finished
      simp only [finishedSeries]
      -- the durations are counted at the end of the job
      split at finished
      · rename_i ends
        obtain ⟨metrics', added, rfl⟩ := zoom_ok finished
        have registry := forM_increment_ok added
        subst registry
        rw [if_pos ends]
        rfl
      · rename_i ends
        cases finished
        rw [if_neg ends]
        rfl
  | _ => cases rest; rfl

/-! ## Validated observations are consumed -/

end SummaryBuilder

/-- What holds of a job's state between transitions. -/
structure JobState.Sound (state : JobState) : Prop where
  covered : state.snapshot.total ≤ state.lastTransition
  small : state.lastTransition ≤ maxU64
  ends : state.snapshot.terminal = true ↔ state.phase = .terminal

theorem JobState.Sound.duration_le {state : JobState} (sound : state.Sound) :
    ∀ entry ∈ SummaryBuilder.terminalMetrics state, entry.2 ≤ maxU64 := by
  have whole : state.snapshot.total ≤ maxU64 := sound.covered.trans sound.small
  unfold JobAttributionSnapshot.total at whole
  intro entry member
  simp only [SummaryBuilder.terminalMetrics, List.mem_cons, List.not_mem_nil, or_false] at member
  obtain rfl | rfl | rfl := member <;> show _ ≤ _ <;> simp only <;> omega

theorem Transitions.sound {job : JobId} {timestamp : SimTimeNs} {transition : JobTransition}
    {active : Bool} {current : Option JobState} {next : JobState}
    (step : Transitions job timestamp transition active current next)
    (small : timestamp ≤ maxU64) (before : ∀ state, current = some state → state.Sound) :
    next.Sound := by
  cases step with
  | begun first =>
    unfold JobState.begun
    split
    · exact ⟨Nat.zero_le _, small, by simp⟩
    · exact ⟨Nat.zero_le _, small, by simp⟩
  | @stepped state running later ordered =>
    have sound := before state rfl
    have alive : state.phase ≠ .terminal := by
      intro ended
      rw [sound.ends.mpr ended] at running
      cases running
    refine ⟨?_, small, by simp [JobState.stepped]⟩
    calc (addedInterval state.snapshot state.phase (timestamp - state.lastTransition)).total
        = state.snapshot.total + (timestamp - state.lastTransition) :=
          total_addedInterval _ _ alive
      _ ≤ state.lastTransition + (timestamp - state.lastTransition) :=
          Nat.add_le_add_right sound.covered _
      _ = timestamp := Nat.add_sub_of_le ordered

theorem Transitions.lastTransition {job : JobId} {timestamp : SimTimeNs}
    {transition : JobTransition} {active : Bool} {current : Option JobState} {next : JobState}
    (step : Transitions job timestamp transition active current next) :
    next.lastTransition = timestamp := by
  cases step with
  | begun first =>
    unfold JobState.begun
    split <;> rfl
  | stepped running later ordered => rfl

/-- A known job that has not ended takes every transition but an arrival, and its durations do not
overflow. -/
theorem JobState.Sound.accepts {state : JobState} (sound : state.Sound) (job : JobId)
    {timestamp : SimTimeNs} {transition : JobTransition} (active : Bool)
    (running : state.snapshot.terminal = false) (later : transition ≠ .arrived)
    (ordered : state.lastTransition ≤ timestamp) (small : timestamp ≤ maxU64) :
    jobTransition (some state) job timestamp transition active =
      .ok (state.stepped timestamp transition active) := by
  have fits : state.snapshot.total + (timestamp - state.lastTransition) ≤ maxU64 :=
    (Nat.add_le_add_right sound.covered _).trans
      ((Nat.add_sub_of_le ordered).le.trans small)
  unfold jobTransition
  simp only
  rw [if_neg (by simp [running]), if_neg later, if_neg (Nat.not_lt.mpr ordered),
    addInterval_of_le state.phase fits, ok_bind]
  rfl

namespace SummaryBuilder

/-- What holds of a summary between observations. -/
structure Sound (b : SummaryBuilder) : Prop where
  limit : b.maximumMetricSeries = b.metrics.maximumSeries
  small : b.metrics.maximumSeries ≤ maxU64
  room : b.metrics.series.size ≤ b.metrics.maximumSeries
  jobs : ∀ job state, b.jobs.find? job = some state → state.Sound
  ordered : ∀ job state, b.jobs.find? job = some state →
    ∃ last, b.lastTimestamp = some last ∧ state.lastTransition ≤ last

theorem sound_create {series boundaries : Nat} {b : SummaryBuilder} (small : series ≤ maxU64)
    (ok : create series boundaries = .ok b) : b.Sound := by
  unfold create MetricRegistry.create at ok
  split at ok
  · cases ok
  · cases valid : validateMetricCatalog metricCatalog boundaries with
    | error e => rw [valid] at ok; cases ok
    | ok _ =>
      rw [valid] at ok
      cases ok
      exact {
        limit := rfl
        small := small
        room := Nat.zero_le _
        jobs := fun job state found => by cases found
        ordered := fun job state found => by cases found }

/-- A new summary under the default limits. -/
def fresh : SummaryBuilder where
  metrics := { maximumSeries := 100000 }
  maximumMetricSeries := 100000

theorem create_default : create 100000 64 = .ok fresh := by
  unfold create MetricRegistry.create
  rw [if_neg (by decide), validateMetricCatalog_default]
  rfl

theorem validateTerminalMetrics_ok {b : SummaryBuilder} {state : JobState} (sound : b.Sound)
    (ok : b.validateTerminalMetrics state = .ok ()) :
    (∀ entry ∈ terminalMetrics state,
      b.metrics.validateIncrement entry.1 .none entry.2 = .ok ()) ∧
      b.metrics.series.size + b.metrics.missing (terminalMetrics state) ≤
        b.metrics.maximumSeries := by
  unfold validateTerminalMetrics at ok
  simp only at ok
  have each : ∀ {entries : List (MetricId × Nat)} {rest : Except Error Unit},
      (entries.forM (fun entry => b.metrics.validateIncrement entry.1 .none entry.2) >>=
        fun _ => rest) = .ok () →
      (∀ entry ∈ entries, b.metrics.validateIncrement entry.1 .none entry.2 = .ok ()) ∧
        rest = .ok () := by
    intro entries
    induction entries with
    | nil => intro rest ok; exact ⟨fun _ member => absurd member List.not_mem_nil, ok⟩
    | cons head tail ih =>
      intro rest ok
      rw [List.forM_eq_forM, List.forM_cons] at ok
      cases here : b.metrics.validateIncrement head.1 .none head.2 with
      | error e => rw [here] at ok; cases ok
      | ok _ =>
        rw [here] at ok
        obtain ⟨others, last⟩ := ih ok
        exact ⟨fun entry member => by
          rcases List.mem_cons.mp member with rfl | later
          · exact here
          · exact others entry later, last⟩
  obtain ⟨valid, last⟩ := each ok
  refine ⟨valid, ?_⟩
  split at last
  · cases last
  · rename_i enough
    have small := sound.small
    have room := sound.room
    have below : b.metrics.maximumSeries < 2 ^ 64 := by
      unfold maxU64 at small
      omega
    rw [sound.limit, MetricRegistry.size, U64.sub_eq room below] at enough
    unfold MetricRegistry.missing
    omega

/-- What `validate` found out when it accepts. -/
structure Valid (b : SummaryBuilder) (timestamp : SimTimeNs) (correlation : Correlation)
    (observation : TelemetryObservation) : Prop where
  unsealed : b.finalized = false
  ordered : ∀ last, b.lastTimestamp = some last → last ≤ timestamp
  metric : validateMetricObservation b.metrics observation = .ok ()
  job : ∀ value, observation = .job value → ∃ job next, correlation.job = some job ∧
    jobTransition (b.jobs.find? job) job timestamp value.transition
      correlation.collective.isSome = .ok next ∧
    (next.snapshot.terminal = true → b.validateTerminalMetrics next = .ok ())

theorem validate_ok {b : SummaryBuilder} {timestamp : SimTimeNs} {correlation : Correlation}
    {observation : TelemetryObservation}
    (ok : b.validate timestamp correlation observation = .ok ()) :
    b.Valid timestamp correlation observation := by
  unfold validate at ok
  split at ok
  · cases ok
  · rename_i unsealed
    split at ok
    · cases ok
    · rename_i ordered
      have metric : validateMetricObservation b.metrics observation = .ok () := by
        cases checked : validateMetricObservation b.metrics observation with
        | error e => rw [checked] at ok; cases ok
        | ok _ => rfl
      rw [metric, ok_bind] at ok
      refine ⟨by simpa using unsealed, ?_, metric, ?_⟩
      · intro last known
        rw [known] at ordered
        simpa using ordered
      · rintro value rfl
        simp only at ok
        cases named : correlation.job with
        | none => rw [named] at ok; cases ok
        | some job =>
          rw [named] at ok
          simp only at ok
          cases moved : jobTransition (b.jobs.find? job) job timestamp value.transition
              correlation.collective.isSome with
          | error e => rw [moved] at ok; cases ok
          | ok next =>
            rw [moved, ok_bind] at ok
            refine ⟨job, next, rfl, moved, fun ends => ?_⟩
            rw [if_pos ends] at ok
            exact ok

theorem Valid.transitionOf_job {b : SummaryBuilder} {timestamp : SimTimeNs}
    {correlation : Correlation} {value : JobObservation} {job : JobId} {next : JobState}
    (named : correlation.job = some job)
    (moved : jobTransition (b.jobs.find? job) job timestamp value.transition
      correlation.collective.isSome = .ok next) :
    b.transitionOf timestamp correlation (.job value) = some (job, next) := by
  unfold transitionOf
  simp only [named]
  rw [moved]

/-- Whatever `validate` accepts, `consume` carries out. -/
theorem consume_of_valid {b : SummaryBuilder} {timestamp : SimTimeNs} {correlation : Correlation}
    {observation : TelemetryObservation} (sound : b.Sound) (small : timestamp ≤ maxU64)
    (fits : observation.Fits)
    (ok : b.validate timestamp correlation observation = .ok ()) :
    consume timestamp correlation observation b =
      .ok () (b.consumed timestamp correlation observation) := by
  have valid := validate_ok ok
  have applied : zoom metricsLens (applyMetricObservation observation) b = .ok ()
      (metricsLens.set (b.metrics.withSeries (appliedSeries b.metrics.series observation)) b) :=
    zoom_of_ok (applyMetricObservation_of_valid fits valid.metric)
  unfold consume
  rw [get_bind_apply, ok, fromExcept_of_ok, pure_bind, bind_of_ok applied]
  cases observation with
  | job value =>
    obtain ⟨job, next, named, moved, finishes⟩ := valid.job value rfl
    have after : next.Sound :=
      (jobTransition_ok moved).sound small (fun state found => sound.jobs job state found)
    unfold consumed
    rw [Valid.transitionOf_job named moved]
    simp only [named, getOrThrow, pure_bind]
    rw [get_bind_apply]
    have same : (metricsLens.set (b.metrics.withSeries
        (appliedSeries b.metrics.series (.job value))) b).jobs = b.jobs := rfl
    rw [same, moved, fromExcept_of_ok, pure_bind]
    unfold finishedSeries
    by_cases ends : next.snapshot.terminal = true
    · obtain ⟨each, room⟩ := validateTerminalMetrics_ok sound (finishes ends)
      have distinct : ((terminalMetrics next).map Prod.fst).Nodup := by
        show [MetricId.jobCommunicationNs, .jobSynchronizationWaitNs, .jobStragglerDelayNs].Nodup
        decide
      have added := forM_increment_of_valid distinct each after.duration_le room
      have finished : applyTerminalMetrics next (metricsLens.set (b.metrics.withSeries
          (appliedSeries b.metrics.series (.job value))) b) =
            .ok () (metricsLens.set (b.metrics.withSeries
              (incrementedAll b.metrics.series (terminalMetrics next))) b) :=
        zoom_of_ok added
      rw [if_pos ends, runIf, if_pos ends, bind_of_ok finished]
      rfl
    · rw [if_neg ends, runIf, if_neg ends]
      rfl
  | _ => rfl

/-! ## What consuming preserves -/

@[simp] theorem consumed_lastTimestamp (b : SummaryBuilder) (timestamp : SimTimeNs)
    (correlation : Correlation) (observation : TelemetryObservation) :
    (b.consumed timestamp correlation observation).lastTimestamp = some timestamp := by
  unfold consumed
  cases b.transitionOf timestamp correlation observation <;> rfl

@[simp] theorem consumed_finalized (b : SummaryBuilder) (timestamp : SimTimeNs)
    (correlation : Correlation) (observation : TelemetryObservation) :
    (b.consumed timestamp correlation observation).finalized = b.finalized := by
  unfold consumed
  cases b.transitionOf timestamp correlation observation <;> rfl

@[simp] theorem consumed_maximumMetricSeries (b : SummaryBuilder) (timestamp : SimTimeNs)
    (correlation : Correlation) (observation : TelemetryObservation) :
    (b.consumed timestamp correlation observation).maximumMetricSeries =
      b.maximumMetricSeries := by
  unfold consumed
  cases b.transitionOf timestamp correlation observation <;> rfl

@[simp] theorem consumed_maximumSeries (b : SummaryBuilder) (timestamp : SimTimeNs)
    (correlation : Correlation) (observation : TelemetryObservation) :
    (b.consumed timestamp correlation observation).metrics.maximumSeries =
      b.metrics.maximumSeries := by
  unfold consumed
  cases b.transitionOf timestamp correlation observation <;> rfl

theorem transitionOf_some {b : SummaryBuilder} {timestamp : SimTimeNs} {correlation : Correlation}
    {observation : TelemetryObservation} {job : JobId} {next : JobState}
    (moved : b.transitionOf timestamp correlation observation = some (job, next)) :
    ∃ value, observation = .job value ∧ correlation.job = some job ∧
      jobTransition (b.jobs.find? job) job timestamp value.transition
        correlation.collective.isSome = .ok next := by
  cases observation with
  | job value =>
    unfold transitionOf at moved
    simp only at moved
    split at moved
    · cases moved
    · rename_i named
      split at moved
      · rename_i stepped
        cases moved
        exact ⟨value, rfl, named, stepped⟩
      · cases moved
  | _ => cases moved

/-- The jobs after an observation: the one it moves, and the others as they were. -/
theorem find?_consumed (b : SummaryBuilder) (timestamp : SimTimeNs) (correlation : Correlation)
    (observation : TelemetryObservation) (job : JobId) :
    (b.consumed timestamp correlation observation).jobs.find? job =
      match b.transitionOf timestamp correlation observation with
      | some (moved, next) => if job = moved then some next else b.jobs.find? job
      | none => b.jobs.find? job := by
  unfold consumed
  cases b.transitionOf timestamp correlation observation with
  | none => rfl
  | some entry => exact OrderedMap.find?_insert b.jobs entry.1 job entry.2

end SummaryBuilder

theorem size_appliedSeries {r : MetricRegistry} {observation : TelemetryObservation}
    (room : r.series.size ≤ r.maximumSeries)
    (valid : validateMetricObservation r observation = .ok ()) :
    (appliedSeries r.series observation).size ≤ r.maximumSeries := by
  have inserted : ∀ {metric : MetricId} {labels : MetricLabels} {kind : MetricKind}
      {found : Option MetricSeriesState} (state : MetricSeriesState),
      r.validateSeries metric labels kind = .ok found →
      (r.series.insert ⟨metric, labels⟩ state).size ≤ r.maximumSeries := by
    intro metric labels kind found state ok
    obtain ⟨definition, accepts⟩ := validateSeries_ok ok
    cases here : r.series.find? ⟨metric, labels⟩ with
    | some old => rw [OrderedMap.size_insert_of_found here]; exact room
    | none =>
      rw [OrderedMap.size_insert_of_fresh here]
      exact accepts.room (accepts.found_eq.trans here)
  cases observation with
  | counter value => exact inserted _ (validateIncrement_ok valid).1
  | gauge value =>
    cases series : r.validateSeries value.metric value.labels .gauge with
    | ok found => exact inserted _ series
    | error e =>
      simp only [validateMetricObservation, validateSetGauge, series] at valid
      cases valid
  | histogram value =>
    cases series : r.validateSeries value.metric value.labels .histogram with
    | ok found =>
      show (observed r.series value.metric value.labels value.value).size ≤ _
      unfold observed
      split
      · exact room
      · simp only
        split
        · exact room
        · exact inserted _ series
    | error e =>
      simp only [validateMetricObservation, validateObserve, series] at valid
      cases valid
  | _ => exact room

theorem size_incrementedAll : ∀ {entries : List (MetricId × Nat)} {r : MetricRegistry},
    (entries.map Prod.fst).Nodup →
    (incrementedAll r.series entries).size = r.series.size + r.missing entries := by
  intro entries
  induction entries with
  | nil => intro r _; rfl
  | cons entry rest ih =>
    intro r distinct
    obtain ⟨fresh, distinctRest⟩ := List.nodup_cons.mp distinct
    have others : ∀ other ∈ rest, other.1 ≠ entry.1 := by
      intro other member same
      exact fresh (same ▸ List.mem_map_of_mem member)
    have here := ih (r := r.withSeries (incremented r.series entry.1 .none entry.2)) distinctRest
    rw [missing_incremented others] at here
    exact here.trans (size_incremented_add_missing r entry rest)

namespace SummaryBuilder

theorem Valid.room {b : SummaryBuilder} {timestamp : SimTimeNs} {correlation : Correlation}
    {observation : TelemetryObservation} (sound : b.Sound)
    (valid : b.Valid timestamp correlation observation) :
    (b.consumed timestamp correlation observation).metrics.series.size ≤
      b.metrics.maximumSeries := by
  have applied := size_appliedSeries sound.room valid.metric
  unfold consumed
  cases moved : b.transitionOf timestamp correlation observation with
  | none => exact applied
  | some entry =>
    obtain ⟨value, rfl, named, stepped⟩ := transitionOf_some moved
    show (finishedSeries _ _).size ≤ _
    unfold finishedSeries
    split
    · rename_i ends
      obtain ⟨job, next, named', stepped', finishes⟩ := valid.job value rfl
      cases Option.some.inj (named.symm.trans named')
      cases Except.ok.inj (stepped.symm.trans stepped')
      obtain ⟨_, room⟩ := validateTerminalMetrics_ok sound (finishes ends)
      have distinct : ((terminalMetrics entry.2).map Prod.fst).Nodup := by
        show [MetricId.jobCommunicationNs, .jobSynchronizationWaitNs, .jobStragglerDelayNs].Nodup
        decide
      show (incrementedAll b.metrics.series _).size ≤ _
      rw [size_incrementedAll distinct]
      exact room
    · exact applied

theorem Sound.consumed {b : SummaryBuilder} {timestamp : SimTimeNs} {correlation : Correlation}
    {observation : TelemetryObservation} (sound : b.Sound) (small : timestamp ≤ maxU64)
    (valid : b.Valid timestamp correlation observation) :
    (b.consumed timestamp correlation observation).Sound := by
  have job : ∀ job state,
      (b.consumed timestamp correlation observation).jobs.find? job = some state →
      state.Sound ∧ state.lastTransition ≤ timestamp := by
    intro job state found
    rw [find?_consumed] at found
    have old : b.jobs.find? job = some state → state.Sound ∧ state.lastTransition ≤ timestamp := by
      intro known
      obtain ⟨last, lastKnown, before⟩ := sound.ordered job state known
      exact ⟨sound.jobs job state known, Nat.le_trans before (valid.ordered last lastKnown)⟩
    cases moved : b.transitionOf timestamp correlation observation with
    | none => rw [moved] at found; exact old found
    | some entry =>
      rw [moved] at found
      simp only at found
      split at found
      · cases found
        obtain ⟨value, _, _, stepped⟩ := transitionOf_some moved
        have step := jobTransition_ok stepped
        exact ⟨step.sound small (fun state known => sound.jobs entry.1 state known),
          step.lastTransition.le⟩
      · exact old found
  exact {
    limit := by simpa using sound.limit
    small := by simpa using sound.small
    room := by simpa using valid.room sound
    jobs := fun j state found => (job j state found).1
    ordered := fun j state found => ⟨timestamp, by simp, (job j state found).2⟩ }

/-! ## Finalization -/

/-- A job whose open interval ends at the timestamp. -/
def closedState (timestamp : SimTimeNs) (state : JobState) : JobState :=
  if state.snapshot.terminal then state
  else { state with
    snapshot := addedInterval state.snapshot state.phase
      (U64.sub timestamp state.lastTransition)
    lastTransition := timestamp }

def closedJobs (timestamp : SimTimeNs) (jobs : OrderedMap JobId JobState) :
    List (JobId × JobState) → OrderedMap JobId JobState :=
  List.foldl (fun jobs entry => jobs.insert entry.1 (closedState timestamp entry.2)) jobs

theorem finalizeJob_ok {timestamp : SimTimeNs} {entry : JobId × JobState} {b b' : SummaryBuilder}
    (present : b.jobs.find? entry.1 = some entry.2)
    (ok : finalizeJob timestamp entry b = .ok () b') :
    b' = { b with jobs := b.jobs.insert entry.1 (closedState timestamp entry.2) } := by
  unfold finalizeJob runIf at ok
  unfold closedState
  split at ok
  · rename_i running
    obtain ⟨snapshot, _, added, stored⟩ := ok_of_bind ok
    obtain ⟨added', rfl⟩ := fromExcept_ok added
    cases stored
    rw [if_neg (by simp [running]), addInterval_ok added']
  · rename_i ended
    cases ok
    rw [if_pos (by simpa using ended), OrderedMap.insert_of_find? present]

theorem find?_closedJobs {timestamp : SimTimeNs} :
    ∀ {entries : List (JobId × JobState)} {jobs : OrderedMap JobId JobState},
      (entries.map Prod.fst).Nodup → (∀ entry ∈ entries, jobs.find? entry.1 = some entry.2) →
      ∀ job, (closedJobs timestamp jobs entries).find? job =
        if job ∈ entries.map Prod.fst then (jobs.find? job).map (closedState timestamp)
        else jobs.find? job := by
  intro entries
  induction entries with
  | nil => intro jobs _ _ job; rfl
  | cons entry rest ih =>
    intro jobs distinct present job
    obtain ⟨fresh, distinctRest⟩ := List.nodup_cons.mp distinct
    have later : ∀ other ∈ rest, (jobs.insert entry.1 (closedState timestamp entry.2)).find?
        other.1 = some other.2 := by
      intro other member
      have ne : other.1 ≠ entry.1 := fun same => fresh (same ▸ List.mem_map_of_mem member)
      rw [OrderedMap.find?_insert_of_ne _ _ ne]
      exact present other (List.mem_cons_of_mem _ member)
    refine (ih distinctRest later job).trans ?_
    have here := present entry List.mem_cons_self
    by_cases same : job = entry.1
    · subst same
      rw [if_neg fresh, OrderedMap.find?_insert_self, if_pos (by simp), here]
      rfl
    · rw [OrderedMap.find?_insert_of_ne _ _ same]
      simp only [List.map_cons, List.mem_cons, same, false_or]

/-- Every job closed at the timestamp. -/
def finishedAt (b : SummaryBuilder) (timestamp : SimTimeNs) : SummaryBuilder :=
  { b with
    jobs := closedJobs timestamp b.jobs b.jobs.entries
    lastTimestamp := some timestamp
    finalized := true }

theorem find?_finishedAt (b : SummaryBuilder) (timestamp : SimTimeNs) (job : JobId) :
    (b.finishedAt timestamp).jobs.find? job =
      (b.jobs.find? job).map (closedState timestamp) := by
  have present : ∀ entry ∈ b.jobs.entries, b.jobs.find? entry.1 = some entry.2 :=
    fun entry member => OrderedMap.find?_eq_some_iff.mpr member
  refine (find?_closedJobs b.jobs.keys_nodup present job).trans ?_
  split
  · rfl
  · rename_i absent
    cases found : b.jobs.find? job with
    | none => rfl
    | some state => exact absurd (OrderedMap.mem_keys_iff.mpr ⟨state, found⟩) absent

/-- The loop over the jobs, from any point on. -/
theorem forM_finalizeJob_ok {timestamp : SimTimeNs} :
    ∀ {entries : List (JobId × JobState)} {b b' : SummaryBuilder},
      (entries.map Prod.fst).Nodup → (∀ entry ∈ entries, b.jobs.find? entry.1 = some entry.2) →
      entries.forM (finalizeJob timestamp) b = .ok () b' →
      b' = { b with jobs := closedJobs timestamp b.jobs entries } := by
  intro entries
  induction entries with
  | nil => intro b b' _ _ ok; cases ok; rfl
  | cons entry rest ih =>
    intro b b' distinct present ok
    obtain ⟨fresh, distinctRest⟩ := List.nodup_cons.mp distinct
    rw [forM_cons_apply] at ok
    obtain ⟨_, c, first, others⟩ := ok_of_bind ok
    have here := finalizeJob_ok (present entry List.mem_cons_self) first
    subst here
    refine ih distinctRest ?_ others
    intro other member
    have ne : other.1 ≠ entry.1 := fun same => fresh (same ▸ List.mem_map_of_mem member)
    exact (OrderedMap.find?_insert_of_ne _ _ ne).trans
      (present other (List.mem_cons_of_mem _ member))

/-- The length of a job's open interval, which no wrap-around touches. -/
theorem elapsed_eq {timestamp last : SimTimeNs} (ordered : last ≤ timestamp)
    (small : timestamp ≤ maxU64) : U64.sub timestamp last = timestamp - last := by
  have below : timestamp < 2 ^ 64 := Nat.lt_of_le_of_lt small (by decide)
  exact U64.sub_eq ordered below

theorem finalizeJob_of_sound {timestamp : SimTimeNs} {entry : JobId × JobState}
    {b : SummaryBuilder} (present : b.jobs.find? entry.1 = some entry.2) (sound : entry.2.Sound)
    (ordered : entry.2.lastTransition ≤ timestamp) (small : timestamp ≤ maxU64) :
    finalizeJob timestamp entry b =
      .ok () { b with jobs := b.jobs.insert entry.1 (closedState timestamp entry.2) } := by
  unfold finalizeJob runIf closedState
  by_cases ended : entry.2.snapshot.terminal = true
  · rw [if_neg (by simp [ended]), if_pos ended, OrderedMap.insert_of_find? present]
    rfl
  · have fits : entry.2.snapshot.total + U64.sub timestamp entry.2.lastTransition ≤ maxU64 := by
      rw [elapsed_eq ordered small]
      exact (Nat.add_le_add_right sound.covered _).trans
        ((Nat.add_sub_of_le ordered).le.trans small)
    rw [if_pos (by simpa using ended), if_neg ended, addInterval_of_le entry.2.phase fits,
      fromExcept_of_ok, pure_bind]
    rfl

theorem forM_finalizeJob_of_sound {timestamp : SimTimeNs} (small : timestamp ≤ maxU64) :
    ∀ {entries : List (JobId × JobState)} {b : SummaryBuilder},
      (entries.map Prod.fst).Nodup → (∀ entry ∈ entries, b.jobs.find? entry.1 = some entry.2) →
      (∀ entry ∈ entries, entry.2.Sound ∧ entry.2.lastTransition ≤ timestamp) →
      entries.forM (finalizeJob timestamp) b =
        .ok () { b with jobs := closedJobs timestamp b.jobs entries } := by
  intro entries
  induction entries with
  | nil => intro b _ _ _; rfl
  | cons entry rest ih =>
    intro b distinct present sound
    obtain ⟨fresh, distinctRest⟩ := List.nodup_cons.mp distinct
    obtain ⟨here, ordered⟩ := sound entry List.mem_cons_self
    rw [forM_cons_apply,
      bind_of_ok (finalizeJob_of_sound (present entry List.mem_cons_self) here ordered small)]
    refine ih distinctRest ?_ (fun other member => sound other (List.mem_cons_of_mem _ member))
    intro other member
    have ne : other.1 ≠ entry.1 := fun same => fresh (same ▸ List.mem_map_of_mem member)
    exact (OrderedMap.find?_insert_of_ne _ _ ne).trans
      (present other (List.mem_cons_of_mem _ member))

/-- Finalizing an open summary at a time that does not regress always succeeds. -/
theorem finalize_of_sound {b : SummaryBuilder} {timestamp : SimTimeNs} (sound : b.Sound)
    (small : timestamp ≤ maxU64) (unsealed : b.finalized = false)
    (ordered : ∀ last, b.lastTimestamp = some last → last ≤ timestamp) :
    finalize timestamp b = .ok () (b.finishedAt timestamp) := by
  have jobs : ∀ entry ∈ b.jobs.entries,
      entry.2.Sound ∧ entry.2.lastTransition ≤ timestamp := by
    intro entry member
    have found := OrderedMap.find?_eq_some_iff.mpr member
    obtain ⟨last, known, before⟩ := sound.ordered entry.1 entry.2 found
    exact ⟨sound.jobs entry.1 entry.2 found, Nat.le_trans before (ordered last known)⟩
  have late : ¬ b.lastTimestamp.any (timestamp < ·) = true := by
    cases known : b.lastTimestamp with
    | none => simp
    | some last => simpa using ordered last known
  have loop := forM_finalizeJob_of_sound small b.jobs.keys_nodup
    (fun entry member => OrderedMap.find?_eq_some_iff.mpr member) jobs
  unfold finalize
  rw [get_bind_apply, throwIf, if_neg (by simp [unsealed]), pure_bind, get_bind_apply, throwIf,
    if_neg late, pure_bind, get_bind_apply, bind_of_ok loop]
  rfl

theorem finalize_ok {b b' : SummaryBuilder} {timestamp : SimTimeNs}
    (ok : finalize timestamp b = .ok () b') :
    b.finalized = false ∧ (∀ last, b.lastTimestamp = some last → last ≤ timestamp) ∧
      b' = b.finishedAt timestamp := by
  unfold finalize at ok
  rw [get_bind_apply] at ok
  obtain ⟨_, _, unsealed, rest⟩ := ok_of_bind ok
  obtain ⟨unsealed', rfl⟩ := throwIf_ok unsealed
  rw [get_bind_apply] at rest
  obtain ⟨_, _, ordered, rest⟩ := ok_of_bind rest
  obtain ⟨ordered', rfl⟩ := throwIf_ok ordered
  rw [get_bind_apply] at rest
  obtain ⟨_, c, closed, stored⟩ := ok_of_bind rest
  have loop := forM_finalizeJob_ok b.jobs.keys_nodup
    (fun entry member => OrderedMap.find?_eq_some_iff.mpr member) closed
  subst loop
  cases stored
  refine ⟨by simpa using unsealed', ?_, rfl⟩
  intro last known
  rw [known] at ordered'
  simpa using ordered'

end SummaryBuilder

end NexusLab.Telemetry
