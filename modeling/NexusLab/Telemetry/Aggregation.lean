import Mathlib.Algebra.BigOperators.Group.List.Basic
import NexusLab.Telemetry.Preflight

/-! # Aggregation

Every series is the fold of the values that were recorded on it, and the snapshots list each series
once, in order. -/

namespace NexusLab.Telemetry

open Foundation

/-! ## Labels -/

/-- Labels given in another order are the same labels. -/
theorem MetricLabels.ofList_perm {values values' : List MetricLabelValue}
    (same : values.Perm values') : ofList values = ofList values' := by
  have sorted : values.insertionSort (· ≤ ·) = values'.insertionSort (· ≤ ·) :=
    List.Perm.eq_of_pairwise (fun _ _ _ _ => le_antisymm) (List.pairwise_insertionSort _ _)
      (List.pairwise_insertionSort _ _)
      ((List.perm_insertionSort _ _).trans (same.trans (List.perm_insertionSort _ _).symm))
  unfold ofList
  simp only [same.length_eq, sorted]

theorem MetricLabels.perm_of_ofList {values : List MetricLabelValue} {labels : MetricLabels}
    (ok : ofList values = .ok labels) : labels.values.Perm values := by
  unfold ofList at ok
  split at ok
  · cases ok
  · dsimp only at ok
    split at ok
    · cases ok
      exact List.perm_insertionSort _ _
    · cases ok

/-! ## Buckets -/

/-- The value is above the boundary before the bucket and not above the bucket's own. -/
def inBucket (boundaries : List Nat) (bucket value : Nat) : Bool :=
  (bucket = 0 || (boundaries[bucket - 1]?).any (· < value)) && (boundaries[bucket]?).all (value ≤ ·)

/-- How many values each bucket has, with one bucket for what is above all boundaries. -/
def bucketCounts (boundaries values : List Nat) : List Nat :=
  (List.range (boundaries.length + 1)).map fun bucket => values.countP (inBucket boundaries bucket)

/-- The bucket of a value is the first whose boundary is not below it. -/
theorem histogramBucket_spec (boundaries : List Nat) (value : Nat) :
    histogramBucket boundaries value ≤ boundaries.length ∧
      (∀ i boundary, i < histogramBucket boundaries value → boundaries[i]? = some boundary →
        boundary < value) ∧
      ∀ boundary, boundaries[histogramBucket boundaries value]? = some boundary →
        value ≤ boundary := by
  unfold histogramBucket
  refine ⟨List.findIdx_le_length, fun i boundary before isBoundary => ?_, fun boundary here => ?_⟩
  · obtain ⟨inside, rfl⟩ := List.getElem?_eq_some_iff.mp isBoundary
    simpa using List.not_of_lt_findIdx before
  · obtain ⟨inside, rfl⟩ := List.getElem?_eq_some_iff.mp here
    simpa using @List.findIdx_getElem _ _ _ inside

/-- A value is in its own bucket and in no other. -/
theorem inBucket_iff {boundaries : List Nat} (increasing : boundaries.Pairwise (· < ·))
    {bucket : Nat} (isBucket : bucket ≤ boundaries.length) (value : Nat) :
    inBucket boundaries bucket value = true ↔ bucket = histogramBucket boundaries value := by
  obtain ⟨bound, below, own⟩ := histogramBucket_spec boundaries value
  generalize histogramBucket boundaries value = first at *
  simp only [inBucket, Bool.and_eq_true, Bool.or_eq_true, decide_eq_true_eq, Option.any_eq_true,
    Option.all_eq_true]
  constructor
  · rintro ⟨above, notAbove⟩
    rcases Nat.lt_trichotomy bucket first with less | same | more
    · -- the boundary of an earlier bucket is below the value
      have inside : bucket < boundaries.length := by omega
      have isBoundary := List.getElem?_eq_getElem inside
      exact absurd (notAbove _ isBoundary) (not_le.mpr (below _ _ less isBoundary))
    · exact same
    · -- the boundary before a later bucket is not below the value
      obtain ⟨boundary, isBoundary, smaller⟩ := above.resolve_left (by omega)
      obtain ⟨inside, rfl⟩ := List.getElem?_eq_some_iff.mp isBoundary
      have within : first < boundaries.length := by omega
      have own := own _ (List.getElem?_eq_getElem within)
      rcases Nat.eq_or_lt_of_le (Nat.le_sub_one_of_lt more) with rfl | before
      · omega
      · have := List.pairwise_iff_getElem.mp increasing _ _ within inside before
        omega
  · rintro rfl
    refine ⟨?_, own⟩
    rcases Nat.eq_zero_or_pos bucket with zero | positive
    · exact .inl zero
    · have inside : bucket - 1 < boundaries.length := by omega
      have isBoundary := List.getElem?_eq_getElem inside
      exact .inr ⟨_, isBoundary, below _ _ (by omega) isBoundary⟩

theorem getD_bucketCounts {boundaries values : List Nat} {bucket : Nat}
    (isBucket : bucket ≤ boundaries.length) : (bucketCounts boundaries values).getD bucket 0 =
      values.countP (inBucket boundaries bucket) := by
  have inside : bucket < (List.range (boundaries.length + 1)).length := by
    rw [List.length_range]
    omega
  rw [bucketCounts, List.getD_eq_getElem?_getD, List.getElem?_map, List.getElem?_eq_getElem inside,
    List.getElem_range]
  rfl

/-- One more value counts once more in its bucket. -/
theorem bucketCounts_append {boundaries : List Nat} (increasing : boundaries.Pairwise (· < ·))
    (values : List Nat) (value : Nat) :
    bucketCounts boundaries (values ++ [value]) =
      (bucketCounts boundaries values).set (histogramBucket boundaries value)
        ((bucketCounts boundaries values).getD (histogramBucket boundaries value) 0 + 1) := by
  rw [getD_bucketCounts (histogramBucket_spec boundaries value).1]
  refine List.ext_getElem (by simp [bucketCounts]) fun bucket inside _ => ?_
  have isBucket : bucket ≤ boundaries.length := by
    simp only [bucketCounts, List.length_map, List.length_range] at inside
    omega
  rw [List.getElem_set]
  simp only [bucketCounts, List.getElem_map, List.getElem_range, List.countP_append,
    List.countP_singleton, inBucket_iff increasing isBucket]
  by_cases own : histogramBucket boundaries value = bucket
  · rw [if_pos own.symm, if_pos own, own]
  · rw [if_neg (Ne.symm own), if_neg own]
    rfl

theorem sum_set_succ : ∀ {counts : List Nat} {i : Nat}, i < counts.length →
    (counts.set i (counts.getD i 0 + 1)).sum = counts.sum + 1
  | count :: counts, 0, _ => by
    simp only [List.set_cons_zero, List.getD_cons_zero, List.sum_cons]
    omega
  | count :: counts, i + 1, inside => by
    have rest := @sum_set_succ counts i (Nat.lt_of_succ_lt_succ inside)
    simp only [List.set_cons_succ, List.getD_cons_succ, List.sum_cons, rest]
    omega

/-- Every value is in one bucket. -/
theorem sum_bucketCounts {boundaries : List Nat} (increasing : boundaries.Pairwise (· < ·))
    (values : List Nat) : (bucketCounts boundaries values).sum = values.length := by
  induction values using List.reverseRecOn with
  | nil => simp [bucketCounts]
  | append_singleton values value ih =>
    rw [bucketCounts_append increasing, sum_set_succ, ih, List.length_append]
    · rfl
    · have bound := (histogramBucket_spec boundaries value).1
      simp only [bucketCounts, List.length_map, List.length_range]
      omega

/-! ## One operation -/

namespace MetricRegistry

/-- An accepted operation is one of the metric's kind. -/
theorem validateSeries_kind {r : MetricRegistry} {metric : MetricId} {labels : MetricLabels}
    {expected : MetricKind} {found : Option MetricSeriesState} {definition : MetricDefinition}
    (ok : r.validateSeries metric labels expected = .ok found)
    (known : metricDefinition metric = .ok definition) : definition.kind = expected := by
  by_contra other
  unfold validateSeries at ok
  rw [known, ok_bind] at ok
  cases labelled : validateLabels definition labels with
  | error e => rw [labelled] at ok; cases ok
  | ok _ =>
    rw [labelled, ok_bind, if_pos other] at ok
    cases ok

end MetricRegistry

/-- A series as the fold of its values: a counter adds them up, a gauge keeps the last, and a
histogram counts them by bucket. -/
def referenceState (definition : MetricDefinition) (values : List Nat) : MetricSeriesState :=
  match definition.kind with
  | .counter => { kind := .counter, scalar := values.sum }
  | .gauge => { kind := .gauge, scalar := values.getLastD 0 }
  | .histogram =>
    { kind := .histogram
      histogramBuckets := bucketCounts definition.histogramBoundaries values
      histogramCount := values.length
      histogramSum := values.sum }
  | .derivedSummary => { kind := .derivedSummary }

namespace RegistryOperation

open MetricRegistry

/-- The values that the operations record on a series. -/
def valuesOf (key : MetricSeriesKey) (operations : List RegistryOperation) : List Nat :=
  (operations.filter fun operation => operation.key = key).map value

theorem valuesOf_append (key : MetricSeriesKey) (operations : List RegistryOperation)
    (operation : RegistryOperation) :
    valuesOf key (operations ++ [operation]) =
      if operation.key = key then valuesOf key operations ++ [operation.value]
      else valuesOf key operations := by
  unfold valuesOf
  rw [List.filter_append, List.map_append]
  split <;> rename_i own <;> simp [own]

/-- The state of a series after an operation. -/
def recorded (definition : MetricDefinition) (state : MetricSeriesState) :
    RegistryOperation → MetricSeriesState
  | increment _ _ amount => { state with scalar := state.scalar + amount }
  | setGauge _ _ value => { state with scalar := value }
  | observe _ _ value =>
    let bucket := histogramBucket definition.histogramBoundaries value
    { state with
      histogramBuckets := state.histogramBuckets.set bucket
        (state.histogramBuckets.getD bucket 0 + 1)
      histogramCount := state.histogramCount + 1
      histogramSum := state.histogramSum + value }

theorem observedState_ok {definition : MetricDefinition} {state next : MetricSeriesState}
    {metric : MetricId} {labels : MetricLabels} {value : Nat}
    (ok : observedState definition state value = .ok next) :
    next = recorded definition state (.observe metric labels value) := by
  obtain ⟨bucket, counted, rest⟩ := returned_of_bind ok
  obtain ⟨count, increased, rest⟩ := returned_of_bind rest
  obtain ⟨sum, added, rest⟩ := returned_of_bind rest
  cases rest
  rw [checkedAdd_ok counted, checkedAdd_ok increased, checkedAdd_ok added]
  rfl

/-- An accepted operation is of its metric's kind and changes its own series only. -/
theorem run_ok {r r' : MetricRegistry} {operation : RegistryOperation}
    (ok : operation.run r = .ok () r') :
    ∃ definition, metricDefinition operation.key.metric = .ok definition ∧
      definition.kind = operation.kind ∧
      r' = r.withSeries (r.series.insert operation.key (recorded definition
        (stateOr r.series operation.key (initialState definition operation.kind)) operation)) := by
  cases operation with
  | increment metric labels amount =>
    obtain ⟨state, _, required, _⟩ := ok_of_bind ok
    obtain ⟨found, valid⟩ := requireSeries_ok required
    obtain ⟨definition, accepts⟩ := validateSeries_ok valid
    exact ⟨definition, accepts.known, validateSeries_kind valid accepts.known, increment_ok ok⟩
  | setGauge metric labels value =>
    obtain ⟨state, _, required, _⟩ := ok_of_bind ok
    obtain ⟨found, valid⟩ := requireSeries_ok required
    obtain ⟨definition, accepts⟩ := validateSeries_ok valid
    exact ⟨definition, accepts.known, validateSeries_kind valid accepts.known, setGauge_ok ok⟩
  | observe metric labels value =>
    obtain ⟨state, r₁, required, rest⟩ := ok_of_bind ok
    obtain ⟨found, valid⟩ := requireSeries_ok required
    obtain ⟨definition, accepts⟩ := validateSeries_ok valid
    have changed := observe_ok ok
    -- `observed` looks the definition up again and counts in the state that was found
    rw [requireSeries_eq valid accepts] at required
    cases required
    obtain ⟨definition', _, looked, rest⟩ := ok_of_bind rest
    obtain ⟨known, rfl⟩ := fromExcept_ok looked
    cases Except.ok.inj (accepts.known.symm.trans known)
    obtain ⟨next, _, tried, _⟩ := ok_of_bind rest
    have counted := (fromExcept_ok tried).1
    refine ⟨definition, known, validateSeries_kind valid known, changed.trans ?_⟩
    simp only [observed, known, counted]
    rw [@observedState_ok _ _ _ metric labels _ counted]
    rfl

/-- The fold of no values is the state that a series is created with. -/
theorem referenceState_nil {definition : MetricDefinition} {kind : MetricKind}
    (same : definition.kind = kind) : referenceState definition [] = initialState definition kind := by
  subst same
  unfold referenceState initialState
  cases kind : definition.kind with
  | histogram =>
    have none : bucketCounts definition.histogramBoundaries [] =
        List.replicate (definition.histogramBoundaries.length + 1) 0 := by
      simp [bucketCounts]
    simp only [none, List.length_nil, List.sum_nil]
  | _ => rfl

/-- The fold of one more value is one more operation. -/
theorem recorded_referenceState {definition : MetricDefinition} {operation : RegistryOperation}
    (increasing : definition.histogramBoundaries.Pairwise (· < ·))
    (same : definition.kind = operation.kind) (values : List Nat) :
    recorded definition (referenceState definition values) operation =
      referenceState definition (values ++ [operation.value]) := by
  unfold referenceState
  cases operation with
  | increment metric labels amount =>
    simp only [same, kind, recorded, value, List.sum_append, List.sum_singleton]
  | setGauge metric labels value =>
    simp only [same, kind, recorded, RegistryOperation.value, List.getLastD_concat]
  | observe metric labels value =>
    simp only [same, kind, recorded, RegistryOperation.value, bucketCounts_append increasing,
      List.length_append, List.length_singleton, List.sum_append, List.sum_singleton]

end RegistryOperation

/-! ## The catalogue -/

theorem increasing_of_validateDefinition {limit : Nat} {earlier : List MetricDefinition}
    {definition : MetricDefinition} (ok : validateDefinition limit earlier definition = .ok ()) :
    definition.histogramBoundaries.Pairwise (· < ·) := by
  by_contra unordered
  unfold validateDefinition at ok
  split_ifs at ok with _ _ _ bounded
  exact bounded (.inr unordered)

theorem increasing_of_check {limit : Nat} {catalog : List MetricDefinition} :
    ∀ {earlier : List MetricDefinition},
      validateMetricCatalog.check limit earlier catalog = .ok () →
      ∀ definition ∈ catalog, definition.histogramBoundaries.Pairwise (· < ·) := by
  induction catalog with
  | nil => exact fun _ _ member => absurd member List.not_mem_nil
  | cons first rest ih =>
    intro earlier ok definition member
    unfold validateMetricCatalog.check at ok
    cases valid : validateDefinition limit earlier first with
    | error e => rw [valid] at ok; cases ok
    | ok _ =>
      rw [valid] at ok
      rcases List.mem_cons.mp member with rfl | later
      · exact increasing_of_validateDefinition valid
      · exact ih ok definition later

theorem increasing_of_validateMetricCatalog {limit : Nat} {catalog : List MetricDefinition}
    (ok : validateMetricCatalog catalog limit = .ok ()) :
    ∀ definition ∈ catalog, definition.histogramBoundaries.Pairwise (· < ·) := by
  unfold validateMetricCatalog at ok
  split at ok
  · cases ok
  · exact increasing_of_check ok

/-- The boundaries of every metric increase: the catalogue passes its own check. -/
theorem increasing_of_metricDefinition {metric : MetricId} {definition : MetricDefinition}
    (known : metricDefinition metric = .ok definition) :
    definition.histogramBoundaries.Pairwise (· < ·) := by
  unfold metricDefinition at known
  split at known
  · rename_i found
    cases known
    exact increasing_of_validateMetricCatalog validateMetricCatalog_default _
      (List.mem_of_find?_eq_some found)
  · cases known

/-- Every metric is in the catalogue. -/
theorem metricDefinition_known (metric : MetricId) :
    ∃ definition, metricDefinition metric = .ok definition := by
  have listed : metric.value ∈ metricCatalog.map fun definition => definition.id.value := by
    cases metric <;> decide +kernel
  obtain ⟨definition, member, same⟩ := List.mem_map.mp listed
  unfold metricDefinition
  split
  · exact ⟨_, rfl⟩
  · rename_i missing
    have other := List.find?_eq_none.mp missing definition member
    exact absurd (decide_eq_true (MetricId.value_injective same)) other

/-! ## Runs -/

namespace MetricRegistry

/-- Each series is the fold of the values that the operations recorded on it. -/
def Aggregates (r : MetricRegistry) (operations : List RegistryOperation) : Prop :=
  ∀ key definition, metricDefinition key.metric = .ok definition →
    let values := RegistryOperation.valuesOf key operations
    r.series.find? key = if values = [] then none else some (referenceState definition values)

theorem Aggregates.created {series boundaries : Nat} {r : MetricRegistry}
    (made : create series boundaries = .ok r) : r.Aggregates [] := by
  unfold create at made
  split at made
  · cases made
  · cases valid : validateMetricCatalog metricCatalog boundaries with
    | error e => rw [valid] at made; cases made
    | ok _ =>
      rw [valid] at made
      cases made
      intro key definition known
      rfl

theorem Aggregates.stateOr {r : MetricRegistry} {operations : List RegistryOperation}
    (aggregates : r.Aggregates operations) {key : MetricSeriesKey} {definition : MetricDefinition}
    (known : metricDefinition key.metric = .ok definition) {kind : MetricKind}
    (same : definition.kind = kind) :
    stateOr r.series key (initialState definition kind) =
      referenceState definition (RegistryOperation.valuesOf key operations) := by
  unfold MetricRegistry.stateOr
  rw [aggregates key definition known]
  split
  · rename_i none
    rw [none, Option.getD_none, RegistryOperation.referenceState_nil same]
  · rfl

/-- One more accepted operation. -/
theorem Aggregates.step {r r' : MetricRegistry} {operations : List RegistryOperation}
    (aggregates : r.Aggregates operations) {operation : RegistryOperation}
    (ok : operation.run r = .ok () r') : r'.Aggregates (operations ++ [operation]) := by
  obtain ⟨own, knownOwn, same, rfl⟩ := RegistryOperation.run_ok ok
  intro key definition known
  simp only [withSeries_series, RegistryOperation.valuesOf_append, OrderedMap.find?_insert]
  by_cases here : operation.key = key
  · subst here
    cases Except.ok.inj (knownOwn.symm.trans known)
    have increasing := increasing_of_metricDefinition known
    rw [if_pos rfl, if_pos rfl, if_neg (List.concat_ne_nil _ _), aggregates.stateOr known same,
      RegistryOperation.recorded_referenceState increasing same]
  · rw [if_neg (Ne.symm here), if_neg here]
    exact aggregates key definition known

theorem Aggregates.run : ∀ {operations earlier : List RegistryOperation} {r r' : MetricRegistry},
    r.Aggregates earlier → operations.forM RegistryOperation.run r = .ok () r' →
      r'.Aggregates (earlier ++ operations)
  | [], earlier, r, r', aggregates, ok => by
    cases ok
    rw [List.append_nil]
    exact aggregates
  | operation :: operations, earlier, r, r', aggregates, ok => by
    obtain ⟨_, between, first, rest⟩ := ok_of_bind ok
    have whole := run (aggregates.step first) rest
    rwa [List.append_assoc] at whole

/-- The snapshots list each series once, in the order of the keys. -/
theorem snapshots_sorted (r : MetricRegistry) :
    r.snapshots.Pairwise fun a b =>
      (⟨a.metric, a.labels⟩ : MetricSeriesKey) < ⟨b.metric, b.labels⟩ := by
  unfold snapshots
  rw [List.pairwise_map]
  exact r.series.sorted

theorem mem_snapshots_iff {r : MetricRegistry} {snapshot : MetricSeriesSnapshot} :
    snapshot ∈ r.snapshots ↔ r.find snapshot.metric snapshot.labels = some snapshot := by
  unfold snapshots find
  rw [List.mem_map, Option.map_eq_some_iff]
  constructor
  · rintro ⟨⟨key, state⟩, member, rfl⟩
    exact ⟨state, OrderedMap.find?_eq_some_iff.mpr member, rfl⟩
  · rintro ⟨state, found, same⟩
    exact ⟨⟨_, state⟩, OrderedMap.find?_eq_some_iff.mp found, same⟩

theorem Aggregates.find {r : MetricRegistry} {operations : List RegistryOperation}
    (aggregates : r.Aggregates operations) {metric : MetricId} {definition : MetricDefinition}
    (known : metricDefinition metric = .ok definition) (labels : MetricLabels) :
    let values := RegistryOperation.valuesOf ⟨metric, labels⟩ operations
    r.find metric labels = if values = [] then none
      else some (snapshotOf ⟨metric, labels⟩ (referenceState definition values)) := by
  intro values
  unfold MetricRegistry.find
  rw [aggregates ⟨metric, labels⟩ definition known]
  by_cases none : values = []
  · rw [if_pos none, if_pos none]
    rfl
  · rw [if_neg none, if_neg none]
    rfl

/-- A listed series has as many values as its buckets have together. -/
theorem Aggregates.sum_buckets {r : MetricRegistry} {operations : List RegistryOperation}
    (aggregates : r.Aggregates operations) {snapshot : MetricSeriesSnapshot}
    (listed : snapshot ∈ r.snapshots) :
    snapshot.histogramBuckets.sum = snapshot.histogramCount := by
  obtain ⟨definition, known⟩ := metricDefinition_known snapshot.metric
  have found := mem_snapshots_iff.mp listed
  rw [aggregates.find known] at found
  split at found
  · cases found
  · rw [← Option.some.inj found]
    show (referenceState definition _).histogramBuckets.sum =
      (referenceState definition _).histogramCount
    unfold referenceState
    cases definition.kind with
    | histogram => exact sum_bucketCounts (increasing_of_metricDefinition known) _
    | _ => rfl

end MetricRegistry

open RegistryOperation in
/-- After any accepted operations each series is the fold of the values recorded on it, and the
snapshots are the series, each once and in order.  The order of labels does not matter. -/
theorem aggregation_exact {series boundaries : Nat} {r₀ r : MetricRegistry}
    {operations : List RegistryOperation}
    (made : MetricRegistry.create series boundaries = .ok r₀)
    (ok : operations.forM run r₀ = .ok () r) :
    (∀ metric labels, ∃ definition, metricDefinition metric = .ok definition ∧
      r.find metric labels =
        if valuesOf ⟨metric, labels⟩ operations = [] then none
        else some (MetricRegistry.snapshotOf ⟨metric, labels⟩
          (referenceState definition (valuesOf ⟨metric, labels⟩ operations)))) ∧
      (∀ snapshot ∈ r.snapshots, snapshot.histogramBuckets.sum = snapshot.histogramCount) ∧
      (∀ given given' labels, MetricLabels.ofList given = .ok labels →
        (MetricLabels.ofList given' = .ok labels ↔ given'.Perm given)) ∧
      (∀ snapshot, snapshot ∈ r.snapshots ↔
        r.find snapshot.metric snapshot.labels = some snapshot) ∧
      r.snapshots.Pairwise fun a b =>
        (⟨a.metric, a.labels⟩ : MetricSeriesKey) < ⟨b.metric, b.labels⟩ := by
  have aggregates : r.Aggregates operations := (MetricRegistry.Aggregates.created made).run ok
  refine ⟨fun metric labels => ?_, fun _ listed => aggregates.sum_buckets listed,
    fun given given' labels given_ok => ⟨fun given'_ok => ?_, fun same => ?_⟩,
    fun _ => MetricRegistry.mem_snapshots_iff, r.snapshots_sorted⟩
  · obtain ⟨definition, known⟩ := metricDefinition_known metric
    exact ⟨definition, known, aggregates.find known labels⟩
  · exact (MetricLabels.perm_of_ofList given'_ok).symm.trans (MetricLabels.perm_of_ofList given_ok)
  · rw [MetricLabels.ofList_perm same, given_ok]

/-- Values on both sides of the first boundary of a histogram, and a counter in between. -/
theorem aggregation_exact_threeValues :
    let operations : List RegistryOperation :=
      [.observe .jobCompletionTimeNs .none 1000, .increment .simulationRngDraws .none 5,
        .observe .jobCompletionTimeNs .none 1001]
    ∃ r : MetricRegistry, operations.forM RegistryOperation.run ⟨2, .empty⟩ = .ok () r ∧
      r.find .jobCompletionTimeNs .none = some ⟨.jobCompletionTimeNs, .none, .histogram, 0,
        [1, 1, 0, 0, 0, 0, 0, 0, 0, 0], 2, 2001⟩ := by
  intro operations
  have made : MetricRegistry.create 2 64 = .ok ⟨2, .empty⟩ := by
    unfold MetricRegistry.create
    rw [if_neg (by decide), validateMetricCatalog_default]
    rfl
  obtain ⟨_, r, ok⟩ := ok_of_returns
    (show returns (operations.forM RegistryOperation.run) ⟨2, .empty⟩ = true by decide +kernel)
  obtain ⟨definition, known, found⟩ := (aggregation_exact made ok).1 .jobCompletionTimeNs .none
  refine ⟨r, ok, found.trans ?_⟩
  cases known
  decide

end NexusLab.Telemetry
