import NexusLab.Collective.Executor

/-! # How the executor reaches the simulation

The ring executor reaches the simulation by the calls of its context only, be it by itself or by way
of the router and the transport.  It enters a collective when one is submitted, under the next number,
and never otherwise.

* `calls_submitTransfer`, `calls_submit`: the transport and the router on the way down.
* `Ring.Contained`: what the functions of the executor have in common that enter no collective.
* `Ring.wp_submit_numbered`: a collective gets the next number.
-/

namespace NexusLab.Transport.Network

open Foundation Sim

/-! ## The network -/

theorem calls_observe {m : Network → Action Instrumentation Unit} (free : ∀ n, JobFree (m n)) :
    ThroughCalls kernelLens (observe m) :=
  fun P kept n holds => ThroughCalls.observe (fun _ => free n) P kept n holds

theorem calls_modifyTransport (f : TransportRuntime → TransportRuntime) :
    ThroughCalls kernelLens (modifyTransport f) := .modify fun _ => rfl

theorem calls_registerChunk (routed : RoutedChunk) :
    ThroughCalls kernelLens (registerChunk routed) := by
  unfold registerChunk
  exact (ThroughCalls.throwIf _).bind fun _ => (ThroughCalls.throwIf _).bind fun _ =>
    ThroughCalls.get.bind fun _ => (ThroughCalls.fromExcept _).bind fun _ =>
    (ThroughCalls.fromExcept _).bind fun _ => (ThroughCalls.fromExcept _).bind fun _ =>
    (ThroughCalls.throwIf _).bind fun _ => (ThroughCalls.throwIf _).bind fun _ =>
    (ThroughCalls.fromExcept _).bind fun _ => calls_modifyTransport _

theorem calls_registerChunks (transfer : TransferId) (route : List Topology.DirectedLinkId) :
    ∀ sizes, ThroughCalls kernelLens (registerChunks transfer route sizes)
  | [] => .pure _
  | bytes :: sizes => by
    unfold registerChunks nextChunkId
    exact (ThroughCalls.get.bind fun _ => (ThroughCalls.fromExcept _).bind fun _ =>
      (calls_modifyTransport _).bind fun _ => .pure _).bind fun _ =>
      (calls_registerChunk _).bind fun _ => (calls_registerChunks transfer route sizes).bind fun _ =>
      .pure _

theorem calls_startTransfer (transfer : TransferId) :
    ThroughCalls kernelLens (startTransfer transfer) := by
  unfold startTransfer
  refine ThroughCalls.get.bind fun _ => (ThroughCalls.getOrThrow _ _).bind fun _ => .runIf
    ((calls_modifyTransport _).bind fun _ => calls_observe fun n => ?_)
  exact (JobFree.fromExcept _).bind fun _ => jobFree_record (by rintro _ ⟨⟩)

theorem calls_scheduleInitialArrival (chunk : ChunkId) :
    ThroughCalls kernelLens (scheduleInitialArrival chunk) := by
  unfold scheduleInitialArrival requireChunk storeChunk
  exact (ThroughCalls.get.bind fun _ => .getOrThrow _ _).bind fun _ =>
    (ThroughCalls.throwIf _).bind fun _ => ThroughCalls.get.bind fun _ =>
    (ThroughCalls.fromExcept _).bind fun _ => (ThroughCalls.schedule _).bind fun _ =>
    (calls_modifyTransport _).bind fun _ => (calls_startTransfer _).bind fun _ => .pure _

theorem calls_submitTransfer (request : TransferRequest) :
    ThroughCalls kernelLens (submitTransfer request) := by
  unfold submitTransfer nextTransferId
  exact (ThroughCalls.throwIf _).bind fun _ => (ThroughCalls.throwIf _).bind fun _ =>
    ThroughCalls.get.bind fun _ => (ThroughCalls.fromExcept _).bind fun _ =>
    (ThroughCalls.throwIf _).bind fun _ => (ThroughCalls.throwIf _).bind fun _ =>
    (ThroughCalls.fromExcept _).bind fun _ => (ThroughCalls.runIf (.fromExcept _)).bind fun _ =>
    (ThroughCalls.runIf (.fromExcept _)).bind fun _ =>
    (ThroughCalls.get.bind fun _ => (ThroughCalls.fromExcept _).bind fun _ =>
      (calls_modifyTransport _).bind fun _ => .pure _).bind fun _ =>
    (calls_registerChunks _ _ _).bind fun _ => (ThroughCalls.forM fun _ =>
      (calls_scheduleInitialArrival _).bind fun _ => .pure _).bind fun _ => .pure _

end NexusLab.Transport.Network

namespace NexusLab.Routing.Fabric

open Foundation Sim Transport

/-! ## The router -/

def kernelLens : Lens Fabric Kernel where
  get f := f.network.kernel
  set k f := { f with network := { f.network with kernel := k } }
  get_set _ _ := rfl
  set_get _ := rfl
  set_set _ _ _ := rfl

theorem calls_onNetwork {α : Type} {m : Action Network α}
    (calls : ThroughCalls Network.kernelLens m) : ThroughCalls kernelLens (zoom networkLens m) :=
  .zoom calls fun _ => rfl

theorem calls_nextDecisionId : ThroughCalls kernelLens nextDecisionId := by
  unfold nextDecisionId
  refine ThroughCalls.get.bind fun _ => (ThroughCalls.fromExcept _).bind fun _ =>
    ThroughCalls.bind ?_ fun _ => .pure _
  exact .modify fun _ => rfl

theorem calls_conclude (decision : RouteDecision) (outcome : Telemetry.RoutingDecisionOutcome) :
    ThroughCalls kernelLens (conclude decision outcome) := by
  unfold conclude emitDecision
  refine calls_nextDecisionId.bind fun id =>
    (calls_onNetwork (Network.calls_observe fun n => ?_)).bind fun _ => ?_
  · exact (JobFree.fromExcept _).bind fun _ => (jobFree_record (by rintro _ ⟨⟩)).bind fun _ =>
      (JobFree.fromExcept _).bind fun _ => jobFree_record (by rintro _ ⟨⟩)
  · exact .modify fun _ => rfl

theorem calls_submit (request : RouteRequest) : ThroughCalls kernelLens (submit request) := by
  unfold submit
  refine (ThroughCalls.throwIf _).bind fun _ => ThroughCalls.get.bind fun f =>
    (ThroughCalls.throwIf _).bind fun _ => (ThroughCalls.zoom_apart fun _ _ => rfl).bind fun
    candidates => ?_
  refine ThroughCalls.ite ((calls_conclude _ _).bind fun _ => .pure _) ?_
  refine (ThroughCalls.fromExcept _).bind fun choice => ?_
  cases candidates[choice.candidate]? with
  | none => exact .throw _
  | some path =>
    exact (calls_onNetwork (Network.calls_submitTransfer _)).bind fun _ =>
      (calls_conclude _ _).bind fun _ => .pure _

end NexusLab.Routing.Fabric

namespace NexusLab.Collective

open Foundation Sim Telemetry Routing Workload

/-! ## The executor -/

/-- The collectives of the executor are numbered from zero on. -/
def RingExecutor.Numbered (executor : RingExecutor) (count : Nat) : Prop :=
  executor.records.size = count ∧
    ∀ id : CollectiveId, executor.records.find? id = none ↔ count ≤ id.value

namespace Ring

/-- The action reaches the simulation by calls only and enters no collective. -/
structure Contained {α : Type} (m : Action Ring α) : Prop where
  calls : ThroughCalls kernelLens m
  numbered : ∀ count, Keeps (fun r => r.executor.Numbered count) m

namespace Contained

variable {α β : Type} {m : Action Ring α}

theorem pure (a : α) : Contained (Pure.pure a) := ⟨.pure a, fun _ => .pure a⟩

theorem get : Contained (MonadState.get : Action Ring Ring) := ⟨.get, fun _ => .get⟩

theorem reads (f : Ring → β) : Contained (Foundation.reads f) := ⟨.reads f, fun _ _ kept => kept⟩

theorem bind {f : α → Action Ring β} (first : Contained m) (second : ∀ a, Contained (f a)) :
    Contained (m >>= f) :=
  ⟨first.calls.bind fun a => (second a).calls,
    fun count => (first.numbered count).bind fun a => (second a).numbered count⟩

theorem ite {c : Prop} [Decidable c] {n : Action Ring α} (yes : Contained m) (no : Contained n) :
    Contained (if c then m else n) :=
  ⟨.ite yes.calls no.calls, fun count => .ite (yes.numbered count) (no.numbered count)⟩

theorem throwIf {c : Prop} [Decidable c] (e : Error) : Contained (Foundation.throwIf c e) :=
  ⟨.throwIf e, fun _ => .throwIf e⟩

theorem runIf {c : Prop} [Decidable c] {m : Action Ring Unit} (contained : Contained m) :
    Contained (Foundation.runIf c m) :=
  ⟨.runIf contained.calls, fun count => .runIf (contained.numbered count)⟩

theorem getOrThrow (o : Option α) (e : Error) : Contained (Foundation.getOrThrow o e) :=
  ⟨.getOrThrow o e, fun _ => .getOrThrow o e⟩

theorem fromExcept (r : Except Error α) : Contained (Foundation.fromExcept r) :=
  ⟨.fromExcept r, fun _ => .fromExcept r⟩

theorem onKernel {m : Action Kernel α} (calls : ThroughCalls kernelLens (zoom kernelLens m)) :
    Contained (zoom kernelLens m) :=
  ⟨calls, fun _ => keeps_zoom _ fun _ kept => wp_intro (fun _ _ _ => kept) (fun _ _ _ => kept)⟩

theorem onFabric {m : Action Fabric α} (calls : ThroughCalls Fabric.kernelLens m) :
    Contained (zoom fabricLens m) :=
  ⟨.zoom calls fun _ => rfl,
    fun _ => keeps_zoom _ fun _ kept => wp_intro (fun _ _ _ => kept) (fun _ _ _ => kept)⟩

theorem forM {f : α → Action Ring PUnit} (each : ∀ a, Contained (f a)) :
    ∀ as : List α, Contained (as.forM f)
  | [] => .pure _
  | a :: as => (each a).bind fun _ => forM each as

/-- The records stay. -/
theorem modifyExecutor {f : RingExecutor → RingExecutor}
    (same : ∀ executor, (f executor).records = executor.records) :
    Contained (Ring.modifyExecutor f) := by
  refine ⟨.modify fun _ => rfl, fun count => keeps_modify fun r kept => ?_⟩
  unfold RingExecutor.Numbered at kept ⊢
  rw [same]
  exact kept

/-- A record is rewritten. -/
theorem modifyRecord (id : CollectiveId) (f : Record → Record) :
    Contained (Ring.modifyRecord id f) := by
  refine ⟨.modify fun _ => rfl, fun count => keeps_modify fun r kept => ?_⟩
  obtain ⟨size, known⟩ := kept
  refine ⟨(OrderedMap.size_adjust _ _ _).trans size, fun other => ?_⟩
  rw [← known, OrderedMap.find?_adjust]
  split
  · rename_i same
    rw [same, Option.map_eq_none_iff]
  · exact Iff.rfl

end Contained

theorem contained_recordAt (id : CollectiveId) : Contained (recordAt id) :=
  Contained.get.bind fun _ => .getOrThrow _ _

theorem contained_now : Contained now := .reads _

/-- A report about a collective. -/
theorem contained_report (correlate : Kernel → Correlation → Correlation)
    (observation : Kernel → TelemetryObservation)
    (free : ∀ k value, observation k ≠ .job value) :
    Contained (zoom kernelLens (Kernel.observe fun k => do
      let correlation ← fromExcept k.eventCorrelation
      Instrumentation.record k.sim.now (correlate k correlation) (observation k))) :=
  .onKernel (.observe fun k => (JobFree.fromExcept _).bind fun _ => jobFree_record (free k))

theorem contained_emit (id : CollectiveId) (transition : CollectiveTransition)
    (transfer : Option TransferId) (bytes : Nat) : Contained (emit id transition transfer bytes) :=
  (contained_recordAt id).bind fun record => contained_report
    (fun _ correlation => { correlation with collective := some record.result.id, transfer }) _
    (by rintro _ _ ⟨⟩)

theorem contained_emitCounter (id : CollectiveId) (metric : MetricId) (amount : Nat)
    (transfer : Option TransferId) : Contained (emitCounter id metric amount transfer) :=
  (contained_recordAt id).bind fun record => contained_report
    (fun _ correlation => { correlation with collective := some record.result.id, transfer }) _
    (by rintro _ _ ⟨⟩)

theorem contained_emitDuration (id : CollectiveId) : Contained (emitDuration id) :=
  (contained_recordAt id).bind fun record => contained_report
    (fun _ correlation => { correlation with collective := some record.result.id })
    (fun k => .histogram ⟨.collectiveDurationNs, .none, U64.sub k.sim.now record.result.started⟩)
    (by rintro _ _ ⟨⟩)

theorem contained_trace (id : CollectiveId) : Contained (trace id) := by
  unfold trace
  refine (contained_recordAt id).bind fun _ => Contained.get.bind fun _ =>
    (Contained.throwIf _).bind fun _ => contained_now.bind fun _ => ?_
  exact .modifyExecutor fun _ => rfl

theorem contained_finish (id : CollectiveId) : Contained (finish id) := by
  unfold finish
  refine (contained_recordAt id).bind fun _ => (Contained.throwIf _).bind fun _ =>
    (Contained.modifyRecord id _).bind fun _ => (contained_recordAt id).bind fun _ =>
    (Contained.throwIf _).bind fun _ => contained_now.bind fun _ =>
    (Contained.modifyRecord id _).bind fun _ => (contained_trace id).bind fun _ =>
    (contained_recordAt id).bind fun _ => Contained.bind ?_ fun _ =>
    (contained_emit id _ _ _).bind fun _ => contained_emitDuration id
  exact .modifyExecutor fun _ => rfl

theorem contained_issueLocal (id : CollectiveId) (transfer : RingTransfer) :
    Contained (issueLocal id transfer) := by
  unfold issueLocal
  refine (contained_recordAt id).bind fun _ => Contained.get.bind fun _ =>
    (Contained.getOrThrow _ _).bind fun _ => contained_now.bind fun _ =>
    (Contained.getOrThrow _ _).bind fun _ => (Contained.onKernel (.schedule _)).bind fun _ =>
    Contained.bind ?_ fun _ => (Contained.modifyRecord id _).bind fun _ =>
    (contained_emit id _ _ _).bind fun _ => (contained_emitCounter id _ _ _).bind fun _ =>
    .modifyRecord id _
  exact .modifyExecutor fun _ => rfl

theorem contained_issueFabric (id : CollectiveId) (transfer : RingTransfer)
    (source destination : Topology.NicId) :
    Contained (issueFabric id transfer source destination) := by
  unfold issueFabric
  refine Contained.get.bind fun _ => (Contained.throwIf _).bind fun _ => Contained.bind ?_ fun _ =>
    (contained_recordAt id).bind fun _ => (Contained.onFabric (Fabric.calls_submit _)).bind
    fun submitted => ?_
  · exact .modifyExecutor fun _ => rfl
  · cases submitted with
    | none => exact .modifyRecord id _
    | some submitted =>
      refine Contained.bind ?_ fun _ => (Contained.modifyRecord id _).bind fun _ =>
        (contained_emit id _ _ _).bind fun _ => (contained_emitCounter id _ _ _).bind fun _ =>
        .modifyRecord id _
      exact .modifyExecutor fun _ => rfl

theorem contained_nicOf (record : Record) (rank : Nat) : Contained (nicOf record rank) :=
  (Contained.getOrThrow _ _).bind fun _ => Contained.get.bind fun _ =>
    (Contained.getOrThrow _ _).bind fun _ => .pure _

theorem contained_issueNext (id : CollectiveId) (transfer : RingTransfer) :
    Contained (issueNext id transfer) := by
  unfold issueNext issue
  exact (contained_recordAt id).bind fun _ => .runIf ((contained_recordAt id).bind fun _ =>
    (contained_nicOf _ _).bind fun _ => (contained_nicOf _ _).bind fun _ =>
    .ite (contained_issueLocal id _) (contained_issueFabric id _ _ _))

theorem contained_startRound (id : CollectiveId) : Contained (startRound id) := by
  unfold startRound
  exact (contained_trace id).bind fun _ => (contained_recordAt id).bind fun _ =>
    (Contained.runIf (contained_emit id _ _ _)).bind fun _ => (contained_emit id _ _ _).bind fun _ =>
    (Contained.fromExcept _).bind fun _ => (Contained.forM (contained_issueNext id) _).bind fun _ =>
    (contained_recordAt id).bind fun _ => .runIf (contained_finish id)

theorem contained_advance (id : CollectiveId) : Contained (advance id) := by
  unfold advance
  exact (contained_recordAt id).bind fun _ => .runIf ((contained_emit id _ _ _).bind fun _ =>
    .ite (contained_finish id) ((Contained.modifyRecord id _).bind fun _ =>
      .ite (contained_finish id) (contained_startRound id)))

theorem contained_cancel (id : CollectiveId) : Contained (cancel id) := by
  unfold cancel
  exact (contained_recordAt id).bind fun _ => .runIf (.modifyRecord id _)

theorem contained_handleLocalCompletion (event : LocalCompletionEvent) :
    Contained (handleLocalCompletion event) := by
  unfold handleLocalCompletion
  refine (Contained.onKernel .currentEventId).bind fun _ => Contained.get.bind fun _ =>
    (Contained.getOrThrow _ _).bind fun _ => (Contained.throwIf _).bind fun _ =>
    (contained_recordAt _).bind fun _ =>
    (Contained.throwIf _).bind fun _ => (Contained.modifyRecord _ _).bind fun _ =>
    (contained_emitCounter _ _ _ _).bind fun _ => Contained.bind ?_ fun _ =>
    (Contained.modifyRecord _ _).bind fun _ => contained_advance _
  exact .modifyExecutor fun _ => rfl

theorem contained_handleTransfer (completion : Transport.TransferCompletion) :
    Contained (handleTransfer completion) := by
  unfold handleTransfer
  refine Contained.get.bind fun _ => (Contained.getOrThrow _ _).bind fun _ =>
    (Contained.fromExcept _).bind fun _ => (Contained.fromExcept _).bind fun _ =>
    (Contained.throwIf _).bind fun _ => (contained_recordAt _).bind fun _ =>
    (Contained.modifyRecord _ _).bind fun _ => (contained_emitCounter _ _ _ _).bind fun _ =>
    (Contained.runIf (.modifyRecord _ _)).bind fun _ => Contained.bind ?_ fun _ =>
    (Contained.modifyRecord _ _).bind fun _ => contained_advance _
  exact .modifyExecutor fun _ => rfl

/-! ## Submission -/

theorem calls_submit (request : CollectiveRequest) :
    ThroughCalls kernelLens (submit request) := by
  unfold submit
  refine (ThroughCalls.throwIf _).bind fun _ => (ThroughCalls.fromExcept _).bind fun _ =>
    ThroughCalls.get.bind fun _ => (ThroughCalls.throwIf _).bind fun _ =>
    (ThroughCalls.fromExcept _).bind fun _ => contained_now.calls.bind fun _ =>
    ThroughCalls.bind ?_ fun _ => (contained_emit _ _ _ _).calls.bind fun _ =>
    (contained_emitCounter _ _ _ _).calls.bind fun _ => ?_
  · exact .modify fun _ => rfl
  · exact .ite ((contained_finish _).calls.bind fun _ => .pure _)
      ((contained_startRound _).calls.bind fun _ => .pure _)

/-- A request that is accepted gets the next number. -/
theorem wp_submit_numbered {r : Ring} {count : Nat} (numbered : r.executor.Numbered count)
    (request : CollectiveRequest) :
    wp (submit request) (fun id r' => id = ⟨count⟩ ∧ r'.executor.Numbered (count + 1))
      (fun _ r' => ∃ later, r'.executor.Numbered later) r := by
  have refused : ∃ later, r.executor.Numbered later := ⟨count, numbered⟩
  obtain ⟨size, known⟩ := numbered
  have fresh : r.executor.records.find? (⟨count⟩ : CollectiveId) = none := (known _).mpr le_rfl
  -- whatever enters no collective keeps the numbers
  have contained : ∀ {α : Type} {m : Action Ring α} {Q : α → Ring → Prop} {r' : Ring},
      Contained m → r'.executor.Numbered (count + 1) →
      (∀ a r', r'.executor.Numbered (count + 1) → Q a r') →
      wp m Q (fun _ r' => ∃ later, r'.executor.Numbered later) r' :=
    fun contained numbered returns => wp_mono (contained.numbered _ _ numbered) returns
      (fun _ _ numbered => ⟨_, numbered⟩)
  simp only [submit, wp_bind, wp_throwIf, wp_fromExcept, wp_get, now, wp_reads, modifyExecutor,
    wp_modify, size]
  refine ⟨fun _ => refused, fun _ => ⟨fun volume _ => ⟨fun _ => refused, fun _ => ⟨fun _ _ => ?_,
    fun _ _ => refused⟩⟩, fun _ _ => refused⟩⟩
  rw [OrderedMap.emplace_of_fresh fresh]
  refine contained (contained_emit _ _ _ _) ⟨?_, fun id => ?_⟩ fun _ _ entered => ?_
  · rw [OrderedMap.size_insert_of_fresh fresh, size]
  · by_cases same : id = ⟨count⟩
    · subst same
      simp
    · have apart : id.value ≠ count := fun value => same (StrongId.value_injective value)
      rw [OrderedMap.find?_insert_of_ne _ _ same, known]
      omega
  · refine contained (contained_emitCounter _ _ _ _) entered fun _ _ counted => ?_
    split
    · rw [wp_bind]
      exact contained (contained_finish _) counted fun _ _ ended => ⟨rfl, ended⟩
    · rw [wp_bind]
      exact contained (contained_startRound _) counted fun _ _ ended => ⟨rfl, ended⟩

end Ring

end NexusLab.Collective
