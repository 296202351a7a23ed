import NexusLab.Sim.TraceSpec

/-! # The trace of a run

Every call, every dispatch and the end of a run keep `Traced` unless telemetry fails, and no
operation forgets that telemetry has failed.  So the trace of every run without a telemetry
failure is in order and agrees with the result the run reports. -/

namespace NexusLab.Sim

open Foundation

/-! ## What the instrumentation does to a trace -/

namespace Kernel

variable {k : Kernel}

/-- Telemetry has failed. -/
def Failed (k : Kernel) : Prop := k.probe.telemetryFailed = true

instance (k : Kernel) : Decidable k.Failed := inferInstanceAs (Decidable (_ = true))

/-- Instrumentations that differ only in what telemetry has recorded. -/
structure SameTrace (p p' : Instrumentation) : Prop where
  trace : p'.trace = p.trace
  metadata : p'.traceMetadata = p.traceMetadata
  failed : p'.telemetryFailed = p.telemetryFailed

theorem SameTrace.trans {p₁ p₂ p₃ : Instrumentation} (first : SameTrace p₁ p₂)
    (second : SameTrace p₂ p₃) : SameTrace p₁ p₃ :=
  ⟨second.trace.trans first.trace, second.metadata.trans first.metadata,
    second.failed.trans first.failed⟩

/-- A report leaves the trace alone, or telemetry fails. -/
theorem wp_emit {report : Kernel → Action Instrumentation Unit} {Q : Unit → Kernel → Prop}
    {E : Error → Kernel → Prop}
    (silent : wp (report k) (fun _ p => SameTrace k.probe p) (fun _ _ => True) k.probe)
    (returns : ∀ probe, SameTrace k.probe probe → Q () { k with probe })
    (throws : ∀ e probe, probe.telemetryFailed = true → E e { k with probe }) :
    wp (emit report) Q E k := by
  rw [emit, observe, wp_instrument_iff, wp_runIf]
  refine ⟨fun _ => ?_, fun _ => returns _ ⟨rfl, rfl, rfl⟩⟩
  simp only [wp_catching, wp_bind, wp_modify, wp_throw]
  exact wp_mono silent (fun _ p same => returns _ ⟨same.trace, same.metadata, same.failed⟩)
    (fun e p _ => throws _ _ rfl)

theorem wp_record_silent (timestamp : SimTimeNs) (correlation : Telemetry.Correlation)
    (observation : Telemetry.TelemetryObservation) (p : Instrumentation) :
    wp (Instrumentation.record timestamp correlation observation)
      (fun _ p' => SameTrace p p') (fun _ _ => True) p := by
  rw [Instrumentation.record, wp_zoom]
  exact wp_intro (fun _ _ _ => ⟨rfl, rfl, rfl⟩) (fun _ _ _ => trivial)

theorem wp_emitSimulationObservation {transition : Telemetry.SimulationTransition}
    {event cause : Option EventId} {Q : Unit → Kernel → Prop} {E : Error → Kernel → Prop}
    (returns : ∀ probe, SameTrace k.probe probe → Q () { k with probe })
    (throws : ∀ e probe, probe.telemetryFailed = true → E e { k with probe }) :
    wp (emitSimulationObservation transition event cause) Q E k :=
  wp_emit (wp_record_silent _ _ _ _) returns throws

theorem wp_emitMetric {observation : Kernel → Except Error Telemetry.TelemetryObservation}
    {Q : Unit → Kernel → Prop} {E : Error → Kernel → Prop}
    (returns : ∀ probe, SameTrace k.probe probe → Q () { k with probe })
    (throws : ∀ e probe, probe.telemetryFailed = true → E e { k with probe }) :
    wp (emitMetric observation) Q E k := by
  refine wp_emit ?_ returns throws
  rw [wp_bind, wp_fromExcept]
  exact ⟨fun a _ => wp_record_silent _ _ _ _, fun _ _ => trivial⟩

/-- The instrumentation with one more record. -/
def recorded (p : Instrumentation) (record : TraceRecord) : Instrumentation :=
  { p with trace := p.trace.append record }

theorem records_recorded {p : Instrumentation} (enabled : p.trace.mode = .enabled)
    (record : TraceRecord) : (recorded p record).trace.records = p.trace.records ++ [record] := by
  simp [recorded, TraceLog.append, TraceLog.enabled, enabled]

@[simp] theorem mode_recorded (p : Instrumentation) (record : TraceRecord) :
    (recorded p record).trace.mode = p.trace.mode := by
  unfold recorded TraceLog.append
  dsimp only
  split <;> rfl

@[simp] theorem wp_recordEvent {action : TraceAction} {metadata : EventTraceMetadata}
    {reason : Option StopReason} {Q : Unit → Kernel → Prop} {E : Error → Kernel → Prop} :
    wp (recordEvent action metadata reason) Q E k ↔
      Q () { k with probe := recorded k.probe (eventRecord action k.sim.now metadata reason) } := by
  rw [recordEvent, wp_instrument_iff]
  rfl

/-- What the kernel records about the end of a run. -/
def terminalRecord (action : TraceAction) (sim : Simulation) (error : Option String) :
    TraceRecord :=
  let metadata := sim.currentEvent.map eventTraceMetadata
  ⟨action, sim.now, metadata.map EventTraceMetadata.id, metadata.bind EventTraceMetadata.cause,
    metadata.map EventTraceMetadata.timestamp, metadata.map EventTraceMetadata.priority,
    metadata.map EventTraceMetadata.payloadKind, none, error⟩

@[simp] theorem wp_recordTerminal {action : TraceAction} {error : Option String}
    {Q : Unit → Kernel → Prop} {E : Error → Kernel → Prop} :
    wp (recordTerminal action error) Q E k ↔
      Q () { k with probe := recorded k.probe (terminalRecord action k.sim error) } := by
  rw [recordTerminal, wp_instrument_iff]
  rfl

@[simp] theorem wp_eraseMetadata {id : EventId} {Q : Unit → Kernel → Prop}
    {E : Error → Kernel → Prop} :
    wp (eraseMetadata id) Q E k ↔
      Q () { k with probe :=
        { k.probe with traceMetadata := k.probe.traceMetadata.erase id } } := by
  rw [eraseMetadata, wp_instrument_iff]
  rfl

theorem keepsMetadata_of_enabled {p : Instrumentation} (enabled : p.trace.mode = .enabled) :
    keepsMetadata p = true := by simp [keepsMetadata, TraceLog.enabled, enabled]

theorem wp_insertMetadata {event : Event} {Q : Unit → Kernel → Prop} {E : Error → Kernel → Prop}
    (enabled : k.probe.trace.mode = .enabled) (fresh : k.probe.traceMetadata.find? event.id = none)
    (returns : Q () { k with probe := { k.probe with
      traceMetadata := k.probe.traceMetadata.insert event.id (eventTraceMetadata event) } }) :
    wp (insertMetadata event) Q E k := by
  rw [insertMetadata, wp_instrument_iff, wp_runIf]
  refine ⟨fun _ => ?_, fun off => absurd (keepsMetadata_of_enabled enabled) off⟩
  simp only [wp_bind, wp_get, wp_throwIf, wp_modify]
  refine ⟨fun duplicate => ?_, fun _ => returns⟩
  obtain ⟨known, found⟩ := OrderedMap.contains_iff.mp duplicate
  rw [fresh] at found
  cases found

theorem wp_requireMetadata {id : EventId} {known : EventTraceMetadata} {Q : Unit → Kernel → Prop}
    {E : Error → Kernel → Prop} (enabled : k.probe.trace.mode = .enabled)
    (found : k.probe.traceMetadata.find? id = some known) (returns : Q () k) :
    wp (requireMetadata id) Q E k := by
  have described : cancelMetadata id k.probe = some known := by
    simp [cancelMetadata, keepsMetadata_of_enabled enabled, found]
  rw [requireMetadata, wp_instrument_iff, wp_throwIf]
  refine ⟨fun missing => ?_, fun _ => returns⟩
  rw [described] at missing
  cases missing.2

theorem failed_kept : Kept Failed where
  modifySim _ := fun _ failed => failed
  emitSimulationObservation _ _ _ := fun _ failed =>
    wp_emitSimulationObservation (fun _ same => same.failed.trans failed) (fun _ _ failed => failed)
  emitMetric _ := fun _ failed =>
    wp_emitMetric (fun _ same => same.failed.trans failed) (fun _ _ failed => failed)
  recordEvent _ _ _ := fun _ failed => wp_recordEvent.mpr failed
  recordTerminal _ _ := fun _ failed => wp_recordTerminal.mpr failed
  insertMetadata event := fun k failed => by
    rw [insertMetadata, wp_instrument_iff, wp_runIf]
    simp only [wp_bind, wp_get, wp_throwIf, wp_modify]
    exact ⟨fun _ => ⟨fun _ => failed, fun _ => failed⟩, fun _ => failed⟩
  eraseMetadata _ := fun _ failed => wp_eraseMetadata.mpr failed
  requireMetadata _ := fun _ failed => by
    rw [requireMetadata, wp_instrument_iff, wp_throwIf]
    exact ⟨fun _ => failed, fun _ => failed⟩
  markFailed := fun _ _ => by
    rw [wp_instrument_iff, wp_modify]
    rfl

/-! ## What the calls do to a trace -/

/-- The trace is on and agrees with the state. -/
structure Tracing (k : Kernel) : Prop where
  enabled : k.probe.trace.mode = .enabled
  traced : Traced k.sim k.probe.trace.records k.probe.traceMetadata

theorem Tracing.congr {p : Instrumentation} (h : Tracing k) (same : SameTrace k.probe p) :
    Tracing { k with probe := p } :=
  ⟨by rw [same.trace]; exact h.enabled, by
    show Traced k.sim p.trace.records p.traceMetadata
    rw [same.trace, same.metadata]
    exact h.traced⟩

/-- A context in this phase of the run: its current event is the last one dispatched. -/
structure Calling (lifecycle : Lifecycle) (current : Option Event) (k : Kernel) : Prop where
  tracing : Tracing k
  lifecycle : k.sim.lifecycle = lifecycle
  isCurrent : k.sim.currentEvent = current
  last : current.map Event.id = (recordedIds .dispatched k.probe.trace.records).getLast?

variable {lifecycle : Lifecycle} {current : Option Event}

theorem wp_schedule_traced (specification : EventSpec) (h : Calling lifecycle current k) :
    wp (schedule specification)
      (fun id k' => k'.Failed ∨ Calling lifecycle current k' ∧
        recordedIds .scheduled k'.probe.trace.records =
          recordedIds .scheduled k.probe.trace.records ++ [id])
      (fun _ k' => k'.Failed ∨ k' = k) k := by
  have traced := h.tracing.traced
  unfold schedule
  simp only [wp_bind, wp_get, wp_throwIf, wp_modifySim, wp_catching, wp_throw, wp_pure]
  refine ⟨fun _ => .inr trivial, fun _ => ⟨fun _ => .inr trivial, fun notPast => ?_⟩⟩
  refine wp_nextEventId (fun remaining => ?_) (fun _ => .inr rfl)
  have fresh : (⟨k.sim.eventIds.nextValue⟩ : EventId) ∉ k.sim.pendingIds :=
    traced.valid.not_pending_of_not_issued (Simulation.not_issued_next remaining)
  refine ⟨fun duplicate => absurd duplicate fresh, fun _ => ?_⟩
  have undescribed : k.probe.traceMetadata.find? (k.sim.eventFor specification).id = none := by
    cases found : k.probe.traceMetadata.find? (k.sim.eventFor specification).id with
    | none => rfl
    | some known => exact absurd ((traced.described _).mpr ⟨known, found⟩) fresh
  refine wp_insertMetadata h.tracing.enabled undescribed (wp_recordEvent.mpr ?_)
  refine wp_emitSimulationObservation (fun probe same => .inr ?_) (fun _ _ failed => .inl failed)
  have cause : k.sim.currentEvent.map Event.id =
      (recordedIds .dispatched k.probe.trace.records).getLast? := by rw [h.isCurrent, h.last]
  have after := traced.scheduled remaining (not_lt.mp notPast) cause
  have records : probe.trace.records = k.probe.trace.records ++ [eventRecord .scheduled k.sim.now
      (eventTraceMetadata (k.sim.eventFor specification)) none] := by
    rw [same.trace]
    exact records_recorded h.tracing.enabled _
  refine ⟨⟨⟨?_, ?_⟩, h.lifecycle, h.isCurrent, ?_⟩, ?_⟩
  · rw [same.trace, mode_recorded]
    exact h.tracing.enabled
  · show Traced (k.sim.scheduled specification) probe.trace.records probe.traceMetadata
    rw [records, same.metadata]
    exact after
  · show _ = (recordedIds .dispatched probe.trace.records).getLast?
    rw [records, recordedIds_event_of_ne (by decide)]
    exact h.last
  · show recordedIds .scheduled probe.trace.records = _
    rw [records, recordedIds_event]
    rfl

theorem wp_cancel_traced (id : EventId) (h : Calling lifecycle current k) :
    wp (cancel id)
      (fun _ k' => k'.Failed ∨ Calling lifecycle current k' ∧
        recordedIds .scheduled k'.probe.trace.records =
          recordedIds .scheduled k.probe.trace.records)
      (fun _ k' => k'.Failed) k := by
  have traced := h.tracing.traced
  unfold cancel
  simp only [wp_bind, wp_get, wp_ite, wp_pure]
  refine ⟨fun _ => .inr ⟨h, trivial⟩, fun opened => ?_⟩
  obtain ⟨_, pending⟩ : k.sim.lifecycle ≠ .finished ∧ id ∈ k.sim.pendingIds := by tauto
  obtain ⟨known, found⟩ := (traced.described id).mp pending
  refine wp_requireMetadata h.tracing.enabled found ?_
  refine ⟨fun _ => .inr ⟨h, rfl⟩, fun notCancelled => ?_⟩
  have described : cancelMetadata id k.probe = some known := by
    simp [cancelMetadata, keepsMetadata_of_enabled h.tracing.enabled, found]
  obtain rfl := traced.named id known found
  simp only [wp_modifySim, cancel.reportCancelled, wp_bind, wp_get, described]
  refine wp_emitSimulationObservation (fun probe₁ same₁ => ?_) (fun _ _ failed => failed)
  refine wp_emitMetric (fun probe₂ same₂ => wp_recordEvent.mpr (.inr ?_)) (fun _ _ failed => failed)
  have same : SameTrace k.probe probe₂ := same₁.trans same₂
  have enabled : probe₂.trace.mode = .enabled := by rw [same.trace]; exact h.tracing.enabled
  have records := records_recorded enabled (eventRecord .cancelled k.sim.now known none)
  rw [same.trace] at records
  refine ⟨⟨⟨?_, ?_⟩, h.lifecycle, h.isCurrent, ?_⟩, ?_⟩
  · rw [mode_recorded]
    exact enabled
  · show Traced (k.sim.cancelled known.id) _ probe₂.traceMetadata
    rw [same.metadata]
    exact records ▸ traced.cancelled pending notCancelled
  · show _ = (recordedIds .dispatched (recorded probe₂ _).trace.records).getLast?
    rw [records, recordedIds_event_of_ne (by decide)]
    exact h.last
  · show recordedIds .scheduled (recorded probe₂ _).trace.records = _
    rw [records, recordedIds_event_of_ne (by decide)]

theorem wp_stop_traced (reason : StopReason) (h : Calling lifecycle current k) :
    wp (stop reason)
      (fun _ k' => k'.Failed ∨ Calling lifecycle current k' ∧
        recordedIds .scheduled k'.probe.trace.records =
          recordedIds .scheduled k.probe.trace.records)
      (fun _ k' => k'.Failed ∨ k' = k) k := by
  have traced := h.tracing.traced
  simp only [stop, wp_bind, wp_get, wp_throwIf, wp_getOrThrow, wp_runIf]
  refine ⟨fun _ => .inr trivial, fun _ => ⟨fun event isCurrent => ?_, fun _ => .inr trivial⟩⟩
  refine ⟨fun unset => wp_recordEvent.mpr ?_, fun _ => .inr ⟨h, trivial⟩⟩
  rw [wp_modifySim]
  refine wp_emitSimulationObservation (fun probe same => .inr ?_) (fun _ _ failed => .inl failed)
  have records : probe.trace.records = k.probe.trace.records ++ [eventRecord .stopRequested
      k.sim.now (eventTraceMetadata event) (some reason)] := by
    rw [same.trace]
    exact records_recorded h.tracing.enabled _
  refine ⟨⟨⟨?_, ?_⟩, h.lifecycle, h.isCurrent, ?_⟩, ?_⟩
  · rw [same.trace, mode_recorded]
    exact h.tracing.enabled
  · show Traced { k.sim with stopReason := some reason } probe.trace.records probe.traceMetadata
    rw [records, same.metadata]
    exact traced.stopped reason isCurrent unset
  · show _ = (recordedIds .dispatched probe.trace.records).getLast?
    rw [records, recordedIds_event_of_ne (by decide)]
    exact h.last
  · show recordedIds .scheduled probe.trace.records = _
    rw [records, recordedIds_event_of_ne (by decide)]

/-! ## Dispatching and ending -/

/-- The queue has been popped as far as this event, which is not cancelled. -/
def Popped (event : Event) (k : Kernel) : Prop :=
  ∃ sim rest metadata, Traced sim k.probe.trace.records metadata ∧
    sim.eventQueue.events = event :: rest.events ∧ event.id ∉ sim.cancelledIds ∧
    k.sim = popEvent event rest sim ∧ k.probe.traceMetadata = metadata.erase event.id

theorem wp_popDispatchable_traced : ∀ (rounds : Nat) (k : Kernel), Tracing k →
    wp (popDispatchable rounds)
      (fun next k' => k'.probe.trace = k.probe.trace ∧ k'.sim.lifecycle = k.sim.lifecycle ∧
        k'.sim.currentEvent = k.sim.currentEvent ∧
        (next = none → Tracing k') ∧ ∀ event, next = some event → Popped event k')
      (fun _ _ => False) k
  | 0, k, h => ⟨rfl, rfl, rfl, fun _ => h, by rintro event ⟨⟩⟩
  | rounds + 1, k, h => by
    simp only [popDispatchable, wp_bind, wp_get]
    cases popped : k.sim.eventQueue.pop with
    | none => exact ⟨rfl, rfl, rfl, fun _ => h, by rintro event ⟨⟩⟩
    | some taken =>
      obtain ⟨next, rest⟩ := taken
      have events := EventQueue.pop_eq_some.mp popped
      simp only [wp_bind, wp_modifySim, wp_eraseMetadata, wp_ite]
      refine ⟨fun cancelled => ?_, fun notCancelled => ?_⟩
      · exact wp_popDispatchable_traced rounds _ ⟨h.enabled, h.traced.dropped events cancelled⟩
      · refine ⟨rfl, rfl, rfl, by rintro ⟨⟩, ?_⟩
        rintro event ⟨⟩
        exact ⟨k.sim, rest, _, h.traced, events, notCancelled, rfl, rfl⟩

theorem wp_beginDispatch_traced {event : Event} (enabled : k.probe.trace.mode = .enabled)
    (popped : Popped event k) :
    wp (beginDispatch event)
      (fun _ k' => Calling k.sim.lifecycle (some event) k' ∧
        recordedIds .scheduled k'.probe.trace.records =
          recordedIds .scheduled k.probe.trace.records)
      (fun _ k' => k'.Failed) k := by
  obtain ⟨sim, rest, metadata, traced, events, notCancelled, isSim, isMetadata⟩ := popped
  simp only [beginDispatch, wp_bind, wp_modifySim]
  refine wp_emitSimulationObservation (fun probe₁ same₁ => ?_) (fun _ _ failed => failed)
  refine wp_emitMetric (fun probe₂ same₂ => wp_recordEvent.mpr ?_) (fun _ _ failed => failed)
  have same : SameTrace k.probe probe₂ := same₁.trans same₂
  have stillEnabled : probe₂.trace.mode = .enabled := by rw [same.trace]; exact enabled
  have records := records_recorded stillEnabled
    (eventRecord .dispatched event.timestamp (eventTraceMetadata event) none)
  rw [same.trace] at records
  refine ⟨⟨⟨?_, ?_⟩, rfl, rfl, ?_⟩, ?_⟩
  · rw [mode_recorded]
    exact stillEnabled
  · show Traced (k.sim.dispatching event) _ probe₂.traceMetadata
    rw [same.metadata, isMetadata, isSim]
    exact records ▸ traced.dispatched events notCancelled
  · show _ = (recordedIds .dispatched (recorded probe₂ _).trace.records).getLast?
    rw [records, recordedIds_event, List.getLast?_concat]
    rfl
  · show recordedIds .scheduled (recorded probe₂ _).trace.records = _
    rw [records, recordedIds_event_of_ne (by decide)]

/-- Between two dispatches. -/
structure Idle (k : Kernel) : Prop where
  tracing : Tracing k
  lifecycle : k.sim.lifecycle = .running
  current : k.sim.currentEvent = none

theorem wp_startNext_traced (h : Idle k) :
    wp startNext
      (fun next k' => recordedIds .scheduled k'.probe.trace.records =
          recordedIds .scheduled k.probe.trace.records ∧
        (next = none → Idle k') ∧ ∀ event, next = some event → Calling .running (some event) k')
      (fun _ k' => k'.Failed) k := by
  simp only [startNext, nextDispatchableEvent, wp_bind, wp_get]
  refine wp_mono (wp_popDispatchable_traced _ k h.tracing) ?_
    (fun _ _ impossible => impossible.elim)
  rintro next k' ⟨trace, lifecycle, current, drained, found⟩
  cases next with
  | none =>
    refine ⟨by rw [trace], fun _ => ?_, by rintro event ⟨⟩⟩
    exact ⟨drained rfl, lifecycle.trans h.lifecycle, current.trans h.current⟩
  | some event =>
    rw [wp_bind]
    have enabled : k'.probe.trace.mode = .enabled := by rw [trace]; exact h.tracing.enabled
    refine wp_mono (wp_beginDispatch_traced enabled (found event rfl)) ?_ (fun _ _ failed => failed)
    rintro _ k'' ⟨calling, same⟩
    refine ⟨by rw [same, trace], by rintro ⟨⟩, ?_⟩
    rintro other ⟨⟩
    rw [lifecycle, h.lifecycle] at calling
    exact calling

/-- The end of a run, as its trace and its result tell it. -/
structure Ended (k : Kernel) (result : SimulationResult) : Prop where
  formed : TraceFormed k.probe.trace.records
  report : TraceReport k.probe.trace.records result

theorem wp_emitTerminalTelemetry_traced {status : SimulationStatus} {Q : Unit → Kernel → Prop}
    {E : Error → Kernel → Prop}
    (returns : ∀ probe, SameTrace k.probe probe → Q () { k with probe })
    (throws : ∀ e probe, probe.telemetryFailed = true → E e { k with probe }) :
    wp (emitTerminalTelemetry status) Q E k := by
  simp only [emitTerminalTelemetry, wp_bind, wp_get, wp_runIf]
  refine ⟨fun _ => ?_, fun _ => returns _ ⟨rfl, rfl, rfl⟩⟩
  refine wp_emitSimulationObservation (fun p₁ same₁ => ?_) throws
  refine wp_emitMetric (fun p₂ same₂ => ?_) throws
  refine wp_emitMetric (fun p₃ same₃ => ?_) throws
  refine wp_emitMetric (fun p₄ same₄ => ?_) throws
  exact returns _ (((same₁.trans same₂).trans same₃).trans same₄)

/-- The last record may follow whatever was traced. -/
theorem follows_terminal (h : Tracing k) {action : TraceAction} (error : Option String)
    (isEnd : action = .completed ∨ action = .failed) :
    Follows k.probe.trace.records (terminalRecord action k.sim error) where
  clock := h.traced.clock
  opened := h.traced.opened
  scheduled := by rintro rfl; rcases isEnd with ⟨⟨⟩⟩ | ⟨⟨⟩⟩
  named := by
    rintro (same | same)
    all_goals
      replace same : action = _ := same
      subst same
      rcases isEnd with ⟨⟨⟩⟩ | ⟨⟨⟩⟩
  known := by
    intro _ id isId
    cases current : k.sim.currentEvent with
    | none => simp [terminalRecord, current] at isId
    | some event =>
      obtain rfl : event.id = id := by
        simpa [terminalRecord, current, eventTraceMetadata] using isId
      exact h.traced.mem_scheduled_of_dispatched
        (List.mem_of_getLast? (h.traced.current event current))
  stopped := by rintro rfl; rcases isEnd with ⟨⟨⟩⟩ | ⟨⟨⟩⟩

/-- Appending the last record leaves every other count as it is. -/
theorem ended_terminal (h : Tracing k) {action : TraceAction} {detail error : Option String}
    {status : SimulationStatus} {probe : Instrumentation}
    (isEnd : (status = .completed ∧ action = .completed) ∨ (status = .failed ∧ action = .failed))
    (records : probe.trace.records =
      k.probe.trace.records ++ [terminalRecord action k.sim detail]) :
    Ended ⟨finishedSim k.sim, probe⟩ (resultOf status error ⟨k.sim, probe⟩) ∧
      recordedIds .scheduled probe.trace.records =
        recordedIds .scheduled k.probe.trace.records := by
  have isLast : action = .completed ∨ action = .failed := by tauto
  have ids : ∀ other, action ≠ other → recordedIds other probe.trace.records =
      recordedIds other k.probe.trace.records := by
    intro other differs
    rw [records]
    exact recordedIds_concat_of_ne differs _
  have counted : ∀ other, action ≠ other → recordCount other probe.trace.records =
      recordCount other k.probe.trace.records := by
    intro other differs
    rw [records]
    exact recordCount_concat_of_ne differs _
  have ends : EndsWith action probe.trace.records := ⟨_, _, records, rfl, h.traced.opened⟩
  obtain ⟨notScheduled, notDispatched, notCancelled⟩ :
      action ≠ .scheduled ∧ action ≠ .dispatched ∧ action ≠ .cancelled := by
    rcases isLast with rfl | rfl <;> decide
  obtain ⟨scheduled, dispatched, cancelled⟩ := h.traced.counts
  have formed : EachAfter Follows probe.trace.records :=
    records ▸ h.traced.formed.concat (follows_terminal h detail isLast)
  refine ⟨⟨formed.traceFormed ?_, ?_, ?_, ?_, ?_, ?_, ?_⟩, ids _ notScheduled⟩
  · rw [ids _ notDispatched, ids _ notCancelled]
    exact h.traced.settled_nodup
  · exact (counted _ notScheduled).trans scheduled
  · exact (counted _ notDispatched).trans dispatched
  · exact (counted _ notCancelled).trans cancelled
  · rintro isCompleted
    rcases isEnd with ⟨_, rfl⟩ | ⟨isFailed, _⟩
    · exact ends
    · exact absurd (isCompleted.symm.trans isFailed) (by decide)
  · rintro isFailed
    rcases isEnd with ⟨isCompleted, _⟩ | ⟨_, rfl⟩
    · exact absurd (isCompleted.symm.trans isFailed) (by decide)
    · exact ends
  · rintro isStopped
    rcases isEnd with ⟨other, _⟩ | ⟨other, _⟩
    all_goals exact absurd (isStopped.symm.trans other) (by decide)

theorem ended_stopped (h : Tracing k) (stopped : k.sim.stopReason.isSome = true)
    (error : Option String) :
    Ended ⟨finishedSim k.sim, k.probe⟩ (resultOf .stopped error k) := by
  obtain ⟨scheduled, dispatched, cancelled⟩ := h.traced.counts
  refine ⟨h.traced.formed.traceFormed h.traced.settled_nodup, scheduled, dispatched, cancelled,
    by rintro ⟨⟩, by rintro ⟨⟩, fun _ => ⟨h.traced.opened, ?_⟩⟩
  rw [h.traced.stop_count, if_pos stopped]

theorem wp_finish_traced {status : SimulationStatus} {error : Option String} (h : Tracing k)
    (stopped : status = .stopped → k.sim.stopReason.isSome = true) :
    wp (finish status error)
      (fun result k' => Ended k' result ∧ recordedIds .scheduled k'.probe.trace.records =
        recordedIds .scheduled k.probe.trace.records)
      (fun _ k' => k'.Failed) k := by
  simp only [finish, wp_bind]
  refine wp_emitTerminalTelemetry_traced (fun probe same => ?_) (fun _ _ failed => failed)
  have still : Tracing { k with probe } := h.congr same
  have records : ∀ record, (recorded probe record).trace.records =
      probe.trace.records ++ [record] := records_recorded still.enabled
  rw [← same.trace]
  cases status with
  | completed =>
    exact wp_recordTerminal.mpr (ended_terminal still (.inl ⟨rfl, rfl⟩) (records _))
  | failed =>
    exact wp_recordTerminal.mpr (ended_terminal still (.inr ⟨rfl, rfl⟩) (records _))
  | stopped => exact ⟨ended_stopped still (stopped rfl) error, rfl⟩

theorem wp_fail_traced (error : String) (h : Tracing k) :
    wp (fail error)
      (fun result k' => k'.Failed ∨ Ended k' result ∧
        recordedIds .scheduled k'.probe.trace.records =
          recordedIds .scheduled k.probe.trace.records)
      (fun _ k' => k'.Failed) k := by
  rw [fail, wp_catching]
  refine wp_mono (wp_finish_traced h (by rintro ⟨⟩)) (fun _ _ ended => .inr ended) ?_
  intro e k' failed
  exact wp_mono (failed_kept.failAgain e.what k' failed) (fun _ _ failed => .inl failed)
    (fun _ _ failed => failed)

theorem Calling.withRng (h : Calling lifecycle current k) (rng : DeterministicRng) :
    Calling lifecycle current { k with sim := { k.sim with rng } } := by
  obtain ⟨⟨enabled, t⟩, isLifecycle, isCurrent, last⟩ := h
  have valid : Simulation.Valid { k.sim with rng } :=
    ⟨t.valid.pending, t.valid.unique, t.valid.cancelled_subset, t.valid.future, t.valid.issued,
      t.valid.current⟩
  exact ⟨⟨enabled, valid, t.described, t.named, t.formed, t.clock, t.opened, t.account, t.issued,
    t.dispatched_count, t.cancelled_count, t.stop_count, t.current⟩, isLifecycle, isCurrent, last⟩

/-- The end of a dispatch. -/
theorem Calling.idle {event : Option Event} (h : Calling .running event k) :
    Idle { k with sim := { k.sim with currentEvent := none } } := by
  obtain ⟨⟨enabled, t⟩, isLifecycle, _, _⟩ := h
  have valid : Simulation.Valid { k.sim with currentEvent := none } :=
    ⟨t.valid.pending, t.valid.unique, t.valid.cancelled_subset, t.valid.future, t.valid.issued,
      by rintro event ⟨⟩⟩
  exact ⟨⟨enabled, valid, t.described, t.named, t.formed, t.clock, t.opened, t.account, t.issued,
    t.dispatched_count, t.cancelled_count, t.stop_count, by rintro event ⟨⟩⟩, isLifecycle, rfl⟩

/-- The start of the run. -/
theorem Calling.begun (h : Calling .created none k) :
    Idle { k with sim := { k.sim with lifecycle := .running } } := by
  obtain ⟨⟨enabled, t⟩, _, isCurrent, _⟩ := h
  have valid : Simulation.Valid { k.sim with lifecycle := .running } :=
    ⟨t.valid.pending, t.valid.unique, t.valid.cancelled_subset, t.valid.future, t.valid.issued,
      t.valid.current⟩
  exact ⟨⟨enabled, valid, t.described, t.named, t.formed, t.clock, t.opened, t.account, t.issued,
    t.dispatched_count, t.cancelled_count, t.stop_count, t.current⟩, rfl, isCurrent⟩

end Kernel

/-! ## Runs -/

section Runs

open Kernel

variable {δ α : Type} {C : Kernel → Prop} {lifecycle : Lifecycle} {current : Option Event}

/-- The log of a host names the events that its trace has scheduled. -/
def Host.Noted (h : Host Kernel δ) : Prop :=
  scheduledIds h.log = recordedIds .scheduled h.scheduler.probe.trace.records

/-- A host whose kernel satisfies `C`, unless telemetry has failed. -/
def HostTraced (C : Kernel → Prop) (h : Host Kernel δ) : Prop :=
  h.scheduler.Failed ∨ C h.scheduler ∧ h.Noted

/-- A call keeps the trace and the log together. -/
theorem keeps_call {m : Action Kernel α} {entries : Except Error α → List LogEntry}
    (kept : Keeps Failed m)
    (step : ∀ k, C k → wp m
      (fun a k' => k'.Failed ∨ C k' ∧ recordedIds .scheduled k'.probe.trace.records =
        recordedIds .scheduled k.probe.trace.records ++ scheduledIds (entries (.ok a)))
      (fun e k' => k'.Failed ∨ C k' ∧ recordedIds .scheduled k'.probe.trace.records =
        recordedIds .scheduled k.probe.trace.records ++ scheduledIds (entries (.error e))) k) :
    Keeps (HostTraced (δ := δ) C) (Host.call m entries) := by
  rintro h (failed | ⟨holds, noted⟩)
  · exact wp_call (wp_mono (kept _ failed) (fun _ _ failed => .inl failed)
      (fun _ _ failed => .inl failed))
  · have append : ∀ (k' : Kernel) (new : List LogEntry),
        recordedIds .scheduled k'.probe.trace.records =
          recordedIds .scheduled h.scheduler.probe.trace.records ++ scheduledIds new →
        Host.Noted { h with scheduler := k', log := h.log ++ new } := by
      intro k' new records
      show scheduledIds (h.log ++ new) = _
      rw [scheduledIds_append, records]
      exact congrArg (· ++ scheduledIds new) noted
    refine wp_call (wp_mono (step _ holds) (fun a k' => ?_) (fun e k' => ?_))
    all_goals
      rintro (failed | ⟨holds', records⟩)
      · exact .inl failed
      · exact .inr ⟨holds', append k' _ records⟩

/-- A call that schedules nothing. -/
theorem keeps_quiet_call {m : Action Kernel α} {entries : Except Error α → List LogEntry}
    (kept : Keeps Failed m) (quiet : ∀ outcome, scheduledIds (entries outcome) = [])
    (step : ∀ k, C k → wp m
      (fun _ k' => k'.Failed ∨ C k' ∧ recordedIds .scheduled k'.probe.trace.records =
        recordedIds .scheduled k.probe.trace.records)
      (fun _ k' => k'.Failed ∨ k' = k) k) :
    Keeps (HostTraced (δ := δ) C) (Host.call m entries) := by
  refine keeps_call kept fun k holds => wp_mono (step k holds) (fun a k' => ?_) (fun e k' => ?_)
  · rw [quiet, List.append_nil]
    exact id
  · rw [quiet, List.append_nil]
    rintro (failed | rfl)
    · exact .inl failed
    · exact .inr ⟨holds, rfl⟩

theorem keeps_interpret (program : Program α) :
    Keeps (HostTraced (δ := δ) (Calling lifecycle current))
      (Host.interpret Kernel.operations program) := by
  induction program with
  | done value => exact .pure value
  | raise error => exact .throw error
  | schedule specification next ih =>
    refine (keeps_call (failed_kept.schedule specification) fun k h => ?_).bind ih
    refine wp_mono (wp_schedule_traced specification h) (fun _ _ done => done) ?_
    rintro e k' (failed | rfl)
    · exact .inl failed
    · exact .inr ⟨h, (List.append_nil _).symm⟩
  | cancel id next ih =>
    refine (keeps_quiet_call (failed_kept.cancel id) ?_ fun k h => ?_).bind ih
    · rintro (e | _ | _) <;> rfl
    · exact wp_mono (wp_cancel_traced id h) (fun _ _ done => done) (fun _ _ failed => .inl failed)
  | stop reason next ih =>
    refine (keeps_quiet_call (failed_kept.stop reason) ?_
      fun k h => wp_stop_traced reason h).bind ih
    rintro (e | _) <;> rfl
  | now next ih => exact Keeps.bind (fun _ h => h) ih
  | currentEventId next ih =>
    refine (keeps_quiet_call (Keeps.get.bind fun _ => (Keeps.getOrThrow _ _).bind fun _ => .pure _)
      (fun _ => rfl) fun k h => ?_).bind ih
    simp only [wp_bind, wp_get, wp_getOrThrow, wp_pure]
    exact ⟨fun _ _ => .inr ⟨h, trivial⟩, fun _ => .inr trivial⟩
  | cause next ih =>
    refine (keeps_quiet_call (Keeps.get.bind fun _ => (Keeps.getOrThrow _ _).bind fun _ => .pure _)
      (fun _ => rfl) fun k h => ?_).bind ih
    simp only [wp_bind, wp_get, wp_getOrThrow, wp_pure]
    exact ⟨fun _ _ => .inr ⟨h, trivial⟩, fun _ => .inr trivial⟩
  | randomU64 next ih =>
    exact (keeps_quiet_call failed_kept.randomU64 (fun _ => rfl) fun k h =>
      .inr ⟨h.withRng _, rfl⟩).bind ih
  | randomBelow upperExclusive next ih =>
    refine (keeps_quiet_call (failed_kept.randomBelow upperExclusive) (fun _ => rfl)
      fun k h => ?_).bind ih
    simp only [Kernel.randomBelow, wp_bind, wp_get, wp_fromExcept, wp_modifySim, wp_pure]
    exact ⟨fun drawn _ => .inr ⟨h.withRng drawn.2, trivial⟩, fun _ _ => .inr trivial⟩

variable (handler : δ → EventPayload → Program δ)

theorem keeps_dispatch (payload : EventPayload) :
    Keeps (HostTraced (δ := δ) (Calling lifecycle current))
      (Host.dispatch Kernel.operations (fun k => k.sim.currentEvent) handler payload) := by
  intro h traced
  simp only [Host.dispatch, wp_bind, wp_reads, Host.note, wp_modify]
  -- what is logged here schedules nothing
  refine wp_mono (keeps_interpret (handler h.memory payload) _ ?_) (fun _ _ traced => traced)
    (fun _ _ traced => traced)
  refine traced.imp id fun both => ⟨both.1, ?_⟩
  show scheduledIds (h.log ++ _) = _
  rw [scheduledIds_append, show scheduledIds h.log = _ from both.2]
  cases h.scheduler.sim.currentEvent <;> exact List.append_nil _

/-- What a run leaves behind: its trace is in order, names the events of the log and agrees with
the result. -/
structure HostReported (report : Option SimulationResult) (h : Host Kernel δ) : Prop where
  formed : TraceFormed h.scheduler.probe.trace.records
  noted : h.Noted
  report : ∀ result, report = some result →
    TraceReport h.scheduler.probe.trace.records result

theorem HostReported.of_ended {h : Host Kernel δ} {k : Kernel} {result : SimulationResult}
    (noted : h.Noted) (ended : Ended k result)
    (same : recordedIds .scheduled k.probe.trace.records =
      recordedIds .scheduled h.scheduler.probe.trace.records) :
    HostReported (some result) { h with scheduler := k } := by
  refine ⟨ended.formed, noted.trans same.symm, ?_⟩
  rintro other ⟨⟩
  exact ended.report

/-- The end of a run over a host. -/
theorem wp_finish_host {status : SimulationStatus} {error : Option String} {h : Host Kernel δ}
    (traced : HostTraced Tracing h)
    (stopped : status = .stopped → h.scheduler.sim.stopReason.isSome = true) :
    wp (finish status error)
      (fun result k => k.Failed ∨ HostReported (some result) { h with scheduler := k })
      (fun _ k => k.Failed) h.scheduler := by
  rcases traced with failed | ⟨tracing, noted⟩
  · exact wp_mono (failed_kept.finish status error _ failed) (fun _ _ failed => .inl failed)
      (fun _ _ failed => failed)
  · exact wp_mono (wp_finish_traced tracing stopped)
      (fun _ _ ⟨ended, same⟩ => .inr (.of_ended noted ended same)) (fun _ _ failed => failed)

theorem HostTraced.mono {C' : Kernel → Prop} {h : Host Kernel δ} (traced : HostTraced C h)
    (weaker : ∀ k, C k → C' k) : HostTraced C' h :=
  traced.imp id fun ⟨holds, noted⟩ => ⟨weaker _ holds, noted⟩

theorem wp_startNext_host {h : Host Kernel δ} (traced : HostTraced Idle h) :
    wp startNext
      (fun next k => (next = none → HostTraced Idle { h with scheduler := k }) ∧
        ∀ event, next = some event →
          HostTraced (Calling .running (some event)) { h with scheduler := k })
      (fun _ k => k.Failed) h.scheduler := by
  rcases traced with failed | ⟨idle, noted⟩
  · exact wp_mono (failed_kept.startNext _ failed)
      (fun _ _ failed => ⟨fun _ => .inl failed, fun _ _ => .inl failed⟩) (fun _ _ failed => failed)
  · refine wp_mono (wp_startNext_traced idle) ?_ (fun _ _ failed => failed)
    rintro next k ⟨same, drained, found⟩
    have stillNoted : Host.Noted { h with scheduler := k } := noted.trans same.symm
    exact ⟨fun none_left => .inr ⟨drained none_left, stillNoted⟩,
      fun event isNext => .inr ⟨found event isNext, stillNoted⟩⟩

theorem wp_runLoop_traced : ∀ (rounds : Nat) (h : Host Kernel δ), HostTraced Idle h →
    wp (runLoop Host.schedulerLens
        (Host.dispatch Kernel.operations (fun k => k.sim.currentEvent) handler) rounds)
      (fun report h' => h'.scheduler.Failed ∨ HostReported report h')
      (fun _ h' => HostTraced Tracing h') h
  | 0, h, traced => by
    refine traced.imp id fun ⟨⟨tracing, _, _⟩, noted⟩ => ⟨?_, noted, by rintro result ⟨⟩⟩
    exact tracing.traced.formed.traceFormed tracing.traced.settled_nodup
  | rounds + 1, h, traced => by
    simp only [runLoop, wp_bind, wp_reads, wp_ite, wp_map, wp_zoom]
    refine ⟨fun stopped => ?_, fun _ => ?_⟩
    · exact wp_mono (wp_finish_host (traced.mono fun _ idle => idle.tracing) fun _ => stopped)
        (fun _ _ done => done) (fun _ _ failed => .inl failed)
    · refine wp_mono (wp_startNext_host traced) ?_ (fun _ _ failed => .inl failed)
      rintro next k ⟨drained, found⟩
      cases next with
      | none =>
        simp only [wp_map, wp_zoom]
        exact wp_mono (wp_finish_host ((drained rfl).mono fun _ idle => idle.tracing)
          (by rintro ⟨⟩)) (fun _ _ done => done) (fun _ _ failed => .inl failed)
      | some event =>
        rw [wp_bind]
        refine wp_mono (keeps_dispatch handler event.payload _ (found event rfl)) ?_
          (fun _ h' traced => traced.mono fun _ calling => calling.tracing)
        intro _ h' traced'
        rw [wp_bind]
        exact wp_runLoop_traced rounds _
          (traced'.imp id fun both => ⟨both.1.idle, both.2⟩)

theorem wp_run_traced (rounds : Nat) {h : Host Kernel δ}
    (traced : HostTraced (Calling .created none) h) :
    wp (run Host.schedulerLens
        (Host.dispatch Kernel.operations (fun k => k.sim.currentEvent) handler) rounds)
      (fun report h' => h'.scheduler.Failed ∨ HostReported report h')
      (fun _ h' => h'.scheduler.Failed) h := by
  simp only [run, wp_bind, wp_zoom, beginRun, wp_get, wp_throwIf, wp_modifySim, wp_catching, wp_map]
  refine ⟨fun notCreated => ?_, fun _ => ?_⟩
  · rcases traced with failed | ⟨calling, _⟩
    · exact failed
    · exact absurd calling.lifecycle notCreated
  -- whatever the loop throws, the run ends as failed
  have failing : ∀ (e : Error) (h' : Host Kernel δ), HostTraced Tracing h' →
      wp (fail e.what) (fun result k => k.Failed ∨ HostReported (some result)
        { h' with scheduler := k }) (fun _ k => k.Failed) h'.scheduler := by
    rintro e h' (failed | ⟨tracing, noted⟩)
    · exact wp_mono (failed_kept.fail e.what _ failed) (fun _ _ failed => .inl failed)
        (fun _ _ failed => failed)
    · refine wp_mono (wp_fail_traced e.what tracing) ?_ (fun _ _ failed => failed)
      rintro result k (failed | ⟨ended, same⟩)
      · exact .inl failed
      · exact .inr (.of_ended noted ended same)
  have idle : HostTraced Idle { h with scheduler := { h.scheduler with
      sim := { h.scheduler.sim with lifecycle := .running } } } :=
    traced.imp id fun both => ⟨both.1.begun, both.2⟩
  refine wp_emitSimulationObservation (fun probe same => ?_)
    (fun e probe failed => failing e _ (.inl failed))
  refine wp_mono (wp_runLoop_traced handler rounds _ ?_) (fun _ _ done => done)
    (fun e h' traced' => failing e h' traced')
  rcases idle with failed | ⟨waiting, noted⟩
  · exact .inl (same.failed.trans failed)
  · refine .inr ⟨⟨waiting.tracing.congr same, waiting.lifecycle, waiting.current⟩, noted.trans ?_⟩
    exact congrArg (fun trace => recordedIds .scheduled trace.records) same.trace.symm

theorem wp_hostedRun_traced (setup : Program Unit) (rounds : Nat) {h : Host Kernel δ}
    (traced : HostTraced (Calling .created none) h) :
    wp (Kernel.hostedRun setup handler rounds)
      (fun report h' => h'.scheduler.Failed ∨ HostReported report h')
      (fun _ h' => h'.scheduler.Failed) h := by
  simp only [Kernel.hostedRun, wp_bind, wp_attempt]
  exact wp_mono (keeps_interpret setup h traced)
    (fun _ _ traced' => wp_run_traced handler rounds traced')
    (fun _ _ traced' => wp_run_traced handler rounds traced')

/-- **Traces.**  Whatever the handler does and whatever was scheduled and cancelled before the
run, as long as telemetry does not fail: the run returns, its trace is in order and has a record
for exactly the events that were scheduled, and the counts and the last record are those of the
result. -/
theorem trace_of_run (setup : Program Unit) (rounds : Nat) (memory : δ) (rng : DeterministicRng)
    (session : Telemetry.TelemetrySession)
    (quiet : ¬ (finalState (Kernel.hostedRun setup handler rounds
      ⟨⟨{ rng }, { trace := { mode := .enabled }, session }⟩, memory, []⟩)).scheduler.Failed) :
    ∃ report final,
      Kernel.hostedRun setup handler rounds
        ⟨⟨{ rng }, { trace := { mode := .enabled }, session }⟩, memory, []⟩ = .ok report final ∧
      TraceFormed final.scheduler.probe.trace.records ∧
      recordedIds .scheduled final.scheduler.probe.trace.records = scheduledIds final.log ∧
      ∀ result, report = some result →
        TraceReport final.scheduler.probe.trace.records result := by
  have start : HostTraced (δ := δ) (Calling .created none)
      ⟨⟨{ rng }, { trace := { mode := .enabled }, session }⟩, memory, []⟩ :=
    .inr ⟨⟨⟨rfl, .initial rng⟩, rfl, rfl, rfl⟩, rfl⟩
  have ends := wp_hostedRun_traced handler setup rounds start
  cases run : Kernel.hostedRun setup handler rounds
      ⟨⟨{ rng }, { trace := { mode := .enabled }, session }⟩, memory, []⟩ with
  | error e final =>
    rw [run, finalState_error] at quiet
    have failed := wp_of_error ends run
    exact absurd failed quiet
  | ok report final =>
    rw [run, finalState_ok] at quiet
    rcases wp_of_ok ends run with failed | reported
    · exact absurd failed quiet
    · exact ⟨report, final, rfl, reported.formed, reported.noted.symm, reported.report⟩

end Runs

/-- A run of two events, whose handler schedules a third one and stops. -/
theorem trace_of_run_stopped :
    ∃ report final,
      Kernel.hostedRun
          (.schedule ⟨5, .normal, .noOp 0⟩ fun _ => .schedule ⟨3, .normal, .noOp 1⟩ fun _ =>
            .done ())
          (fun _ _ => .schedule ⟨7, .normal, .noOp 2⟩ fun _ => .cancel ⟨0⟩ fun _ =>
            .stop .requested fun _ => .done ()) 4
          ⟨⟨{ rng := ⟨⟨fun _ => 2 ^ 63, fun _ => by decide, fun _ small n =>
            ⟨n, le_refl n, le_of_lt small⟩⟩, 0⟩ },
            { trace := { mode := .enabled }
              session := { configuration := { mode := .off }, nextSampleTimestamp := none } }⟩,
            (), []⟩ = .ok report final ∧
      TraceFormed final.scheduler.probe.trace.records ∧
      recordedIds .scheduled final.scheduler.probe.trace.records = scheduledIds final.log ∧
      ∀ result, report = some result →
        TraceReport final.scheduler.probe.trace.records result :=
  trace_of_run _ _ _ _ _ _ (by decide +kernel)

end NexusLab.Sim
