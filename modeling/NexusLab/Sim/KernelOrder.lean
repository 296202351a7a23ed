import NexusLab.Sim.KernelSpec
import NexusLab.Sim.Reference

/-! # The kernel refines the reference scheduler

`Tracks` relates the kernel, with its heap and its tombstones, to the reference scheduler, with
its plain collection of live events.  Every call, every dispatch and the end of a run keep it
unless the instrumentation threw, so a hosted run and its reference run have the same log and the
same result. -/

namespace NexusLab.Sim

open Foundation

/-! ## Throws of the instrumentation are remembered -/

namespace Kernel

/-- Some throw came from the instrumentation. -/
def Marked (k : Kernel) : Prop := k.probe.threw = true

/-- A computation that never forgets a throw of the instrumentation. -/
def Remembers {α : Type} (m : Action Kernel α) : Prop :=
  ∀ k, Marked k → wp m (fun _ k' => Marked k') (fun _ k' => Marked k') k

theorem Remembers.instrument (m : Kernel → Action Instrumentation Unit) : Remembers (instrument m) :=
  fun _ marked => wp_instrument (fun _ same => same.trans marked) (fun _ _ _ threw => threw)

theorem marked_kept : Kept Marked where
  modifySim _ := fun _ marked => marked
  emitSimulationObservation _ _ _ := Remembers.instrument _
  emitMetric _ := Remembers.instrument _
  recordEvent _ _ _ := Remembers.instrument _
  recordTerminal _ _ := Remembers.instrument _
  insertMetadata _ := Remembers.instrument _
  eraseMetadata _ := Remembers.instrument _
  requireMetadata _ := Remembers.instrument _
  markFailed := Remembers.instrument _

end Kernel

/-! ## The relation -/

/-- The reference scheduler that has the kernel's clock, counters and context, and these events. -/
def Simulation.toReference (sim : Simulation) (live : List Event) : Reference where
  now := sim.now
  eventIds := sim.eventIds
  live := live
  rng := sim.rng
  currentEvent := sim.currentEvent
  stopReason := sim.stopReason
  lifecycle := sim.lifecycle
  dispatchedEvents := sim.dispatchedEvents
  cancelledEvents := sim.cancelledEvents

/-- The reference has exactly the kernel's live events and shares everything else. -/
structure Tracks (k : Kernel) (r : Reference) : Prop where
  valid : k.sim.Valid
  same : r = k.sim.toReference r.live
  live : ∀ event, event ∈ r.live ↔ k.sim.Live event
  unique : (r.live.map Event.id).Nodup

/-- The same relation with the reference's events named. -/
theorem tracks_iff {k : Kernel} {r : Reference} :
    Tracks k r ↔ ∃ live : List Event, r = k.sim.toReference live ∧ k.sim.Valid ∧
      (∀ event, event ∈ live ↔ k.sim.Live event) ∧ (live.map Event.id).Nodup := by
  constructor
  · intro h
    exact ⟨r.live, h.same, h.valid, h.live, h.unique⟩
  · rintro ⟨live, rfl, valid, same, unique⟩
    exact ⟨valid, rfl, same, unique⟩

/-- The kernel reports as many pending events as are live. -/
theorem Tracks.pendingEvents_eq {k : Kernel} {r : Reference} (h : Tracks k r) :
    k.pendingEvents = r.live.length := by
  have ids : k.sim.pendingIds \ k.sim.cancelledIds = (r.live.map Event.id).toFinset := by
    ext id
    simp only [Finset.mem_sdiff, List.mem_toFinset, List.mem_map, h.live, Simulation.Live]
    constructor
    · rintro ⟨pending, notCancelled⟩
      obtain ⟨event, member, rfl⟩ := (h.valid.pending id).mp pending
      exact ⟨event, ⟨member, notCancelled⟩, rfl⟩
    · rintro ⟨event, ⟨member, notCancelled⟩, rfl⟩
      exact ⟨h.valid.mem_pending member, notCancelled⟩
  calc k.pendingEvents
      = (k.sim.pendingIds \ k.sim.cancelledIds).card := by
        rw [Finset.card_sdiff_of_subset h.valid.cancelled_subset]; rfl
    _ = (r.live.map Event.id).length := by rw [ids, List.toFinset_card_of_nodup h.unique]
    _ = r.live.length := List.length_map _

/-! ## Calls -/

/-- A computation of the kernel agrees with one of the reference. -/
abbrev Refines {α : Type} (m : Action Kernel α) (n : Action Reference α) : Prop :=
  Simulates Tracks Kernel.Marked (fun _ => False) Eq m n

theorem Tracks.scheduled {k : Kernel} {live : List Event} (valid : k.sim.Valid)
    (same : ∀ event, event ∈ live ↔ k.sim.Live event) (unique : (live.map Event.id).Nodup)
    (remaining : k.sim.eventIds.exhausted = false) {specification : EventSpec}
    (future : k.sim.now ≤ specification.timestamp) (probe : Instrumentation) :
    Tracks ⟨k.sim.scheduled specification, probe⟩
      ((k.sim.scheduled specification).toReference (live ++ [k.sim.eventFor specification])) := by
  refine ⟨valid.scheduled remaining future, rfl, fun event => ?_, ?_⟩
  · rw [valid.live_scheduled remaining, ← same]
    simp [Simulation.toReference, or_comm]
  · have fresh : ∀ event ∈ live, event.id ≠ (k.sim.eventFor specification).id :=
      fun event member => valid.eventFor_id_ne remaining specification ((same event).mp member).1
    simp only [Simulation.toReference, List.map_append, List.map_cons, List.map_nil]
    refine List.nodup_append.mpr ⟨unique, List.nodup_singleton _, ?_⟩
    intro id member other single
    obtain ⟨event, present, rfl⟩ := List.mem_map.mp member
    rw [List.mem_singleton.mp single]
    exact fresh event present

theorem Tracks.cancelled {k : Kernel} {live : List Event} (valid : k.sim.Valid)
    (same : ∀ event, event ∈ live ↔ k.sim.Live event) (unique : (live.map Event.id).Nodup)
    {id : EventId} (pending : id ∈ k.sim.pendingIds) (probe : Instrumentation) :
    Tracks ⟨k.sim.cancelled id, probe⟩
      ((k.sim.cancelled id).toReference (live.filter fun event => event.id ≠ id)) := by
  refine ⟨valid.cancelled pending, rfl, fun event => ?_, unique.sublist ?_⟩
  · rw [Simulation.live_cancelled, ← same]
    simp [Simulation.toReference]
  · exact List.filter_sublist.map _

open Kernel in
theorem schedule_refines (specification : EventSpec) :
    Refines (schedule specification) (Reference.schedule specification) := by
  refine .of_wp (marked_kept.schedule specification) fun k r tracks => ?_
  obtain ⟨live, rfl, valid, same, unique⟩ := tracks_iff.mp tracks
  refine wp_schedule_full valid ?_ ?_ ?_ ?_ (fun e k' _ threw => .inl threw)
  · intro finished
    exact .inr ⟨_, if_pos finished, tracks⟩
  · intro opened past
    exact .inr ⟨_, (if_neg opened).trans (if_pos past), tracks⟩
  · intro opened future exhausted
    refine .inr ⟨k.sim.toReference live, ?_, tracks⟩
    simp [Reference.schedule, Simulation.toReference, opened, not_lt.mpr future, next_eq, exhausted]
  · intro opened future remaining probe _
    refine .inr ⟨_, (k.sim.scheduled specification).toReference
      (live ++ [k.sim.eventFor specification]), ?_, rfl,
      .scheduled valid same unique remaining future probe⟩
    simp [Reference.schedule, Simulation.toReference, opened, not_lt.mpr future, next_eq, remaining,
      Simulation.eventFor, Simulation.scheduled, Simulation.advancedIds]

open Kernel in
theorem cancel_refines (id : EventId) : Refines (cancel id) (Reference.cancel id) := by
  refine .of_wp (marked_kept.cancel id) fun k r tracks => ?_
  obtain ⟨live, rfl, valid, same, unique⟩ := tracks_iff.mp tracks
  -- the reference knows the identifier exactly when it is pending and not cancelled
  have known : id ∈ live.map Event.id ↔ id ∈ k.sim.pendingIds ∧ id ∉ k.sim.cancelledIds := by
    simp only [List.mem_map, same, Simulation.Live, valid.pending]
    constructor
    · rintro ⟨event, ⟨member, notCancelled⟩, rfl⟩
      exact ⟨⟨event, member, rfl⟩, notCancelled⟩
    · rintro ⟨⟨event, member, rfl⟩, notCancelled⟩
      exact ⟨event, ⟨member, notCancelled⟩, rfl⟩
  refine wp_cancel_full ?_ ?_ (fun e k' _ threw => .inl threw)
  · intro refused probe _
    refine .inr ⟨_, _, if_neg ?_, rfl, ⟨valid, rfl, same, unique⟩⟩
    simp only [Simulation.toReference, known]
    tauto
  · intro opened pending notCancelled probe _
    refine .inr ⟨_, _, if_pos ⟨opened, known.mpr ⟨pending, notCancelled⟩⟩, rfl, ?_⟩
    exact .cancelled valid same unique pending probe

open Kernel in
theorem stop_refines (reason : StopReason) : Refines (stop reason) (Reference.stop reason) := by
  refine .of_wp (marked_kept.stop reason) fun k r tracks => ?_
  obtain ⟨live, rfl, valid, same, unique⟩ := tracks_iff.mp tracks
  simp only [stop, wp_bind, wp_get, wp_throwIf, wp_getOrThrow, wp_runIf]
  refine ⟨fun notRunning => .inr ⟨_, if_pos notRunning, tracks⟩, fun running => ⟨?_, ?_⟩⟩
  · intro event current
    have hasCurrent : ¬ k.sim.currentEvent = none := by simp [current]
    have skip : Reference.stop reason (k.sim.toReference live) =
        if k.sim.stopReason = none then
          .ok () { k.sim.toReference live with stopReason := some reason }
        else .ok () (k.sim.toReference live) :=
      (if_neg running).trans (if_neg hasCurrent)
    refine ⟨fun unset => ?_, fun isSet => .inr ⟨_, _, skip.trans (if_neg isSet), trivial, tracks⟩⟩
    refine wp_instrument (fun probe₁ _ => ?_) (fun e probe _ threw => .inl threw)
    rw [wp_modifySim]
    refine wp_observe (fun probe₂ _ => ?_) (fun e probe _ threw => .inl threw)
    refine .inr ⟨_, _, skip.trans (if_pos unset), trivial, ?_⟩
    exact ⟨⟨valid.pending, valid.unique, valid.cancelled_subset, valid.future, valid.issued,
      valid.current⟩, rfl, same, unique⟩
  · intro absent
    exact .inr ⟨_, (if_neg running).trans (if_pos absent), tracks⟩

/-- Reading the event being dispatched. -/
theorem aboutCurrent_refines {α : Type} (read : Event → α) :
    Refines (do
      let event ← getOrThrow (← get).sim.currentEvent
        (.logicError "no event is currently being dispatched")
      return read event) (Reference.aboutCurrent read) := by
  have remembers : Kernel.Remembers (do
      let event ← getOrThrow (← get).sim.currentEvent
        (.logicError "no event is currently being dispatched")
      return read event) :=
    Keeps.get.bind fun _ => (Keeps.getOrThrow _ _).bind fun _ => .pure _
  refine .of_wp remembers fun k r tracks => ?_
  obtain ⟨live, rfl, valid, same, unique⟩ := tracks_iff.mp tracks
  simp only [wp_bind, wp_get, wp_getOrThrow, wp_pure]
  refine ⟨fun event current => .inr ⟨read event, _, ?_, rfl, tracks⟩,
    fun absent => .inr ⟨_, ?_, tracks⟩⟩
  · simp [Reference.aboutCurrent, Simulation.toReference, current]
  · simp [Reference.aboutCurrent, Simulation.toReference, absent]

open Kernel in
theorem randomU64_refines : Refines randomU64 Reference.randomU64 := by
  refine .of_wp marked_kept.randomU64 fun k r tracks => ?_
  obtain ⟨live, rfl, valid, same, unique⟩ := tracks_iff.mp tracks
  refine .inr ⟨_, _, rfl, rfl, ?_⟩
  exact ⟨⟨valid.pending, valid.unique, valid.cancelled_subset, valid.future, valid.issued,
    valid.current⟩, rfl, same, unique⟩

open Kernel in
theorem randomBelow_refines (upperExclusive : UInt64) :
    Refines (randomBelow upperExclusive) (Reference.randomBelow upperExclusive) := by
  refine .of_wp (marked_kept.randomBelow upperExclusive) fun k r tracks => ?_
  obtain ⟨live, rfl, valid, same, unique⟩ := tracks_iff.mp tracks
  simp only [randomBelow, wp_bind, wp_get, wp_fromExcept, wp_modifySim, wp_pure]
  refine ⟨fun drawn ok => .inr ⟨drawn.1, { k.sim.toReference live with rng := drawn.2 }, ?_, rfl, ?_⟩,
    fun e thrown => .inr ⟨k.sim.toReference live, ?_, tracks⟩⟩
  · simp [Reference.randomBelow, Simulation.toReference, ok]
  · exact ⟨⟨valid.pending, valid.unique, valid.cancelled_subset, valid.future, valid.issued,
      valid.current⟩, rfl, same, unique⟩
  · simp [Reference.randomBelow, Simulation.toReference, thrown]

/-! ## Starting, finishing -/

theorem leastEvent_eq_none {events : List Event} : leastEvent events = none ↔ events = [] := by
  cases events with
  | nil => simp [leastEvent]
  | cons event rest =>
    simp only [leastEvent, reduceCtorEq, iff_false]
    cases leastEvent rest with
    | none => simp
    | some other => dsimp only; split <;> simp

theorem leastEvent_spec {events : List Event} {event : Event}
    (least : leastEvent events = some event) :
    event ∈ events ∧ ∀ other ∈ events, event.key ≤ other.key := by
  induction events generalizing event with
  | nil => simp [leastEvent] at least
  | cons head rest ih =>
    simp only [leastEvent] at least
    cases found : leastEvent rest with
    | none =>
      rw [found] at least
      cases least
      rw [leastEvent_eq_none.mp found]
      simp
    | some other =>
      obtain ⟨member, below⟩ := ih found
      rw [found] at least
      dsimp only at least
      split at least
      · rename_i later
        cases least
        refine ⟨List.mem_cons_of_mem _ member, ?_⟩
        intro e he
        rcases List.mem_cons.mp he with rfl | he
        · exact le_of_lt (laterEvent_iff.mp later)
        · exact below e he
      · rename_i notLater
        cases least
        have before : head.key ≤ other.key := not_lt.mp fun lt => notLater (laterEvent_iff.mpr lt)
        refine ⟨List.mem_cons_self, ?_⟩
        intro e he
        rcases List.mem_cons.mp he with rfl | he
        · exact le_refl _
        · exact before.trans (below e he)

theorem Event.id_eq_of_key_eq {a b : Event} (same : a.key = b.key) : a.id = b.id := by
  have inner := (Prod.mk.inj (toLex.injective same)).2
  exact StrongId.value_injective (Prod.mk.inj (toLex.injective inner)).2

theorem Simulation.Valid.drained {sim : Simulation} (valid : sim.Valid) :
    (Kernel.requeued sim .empty ∅ ∅).Valid where
  pending := by simp [Kernel.requeued, EventQueue.empty]
  unique := List.nodup_nil
  cancelled_subset := Finset.empty_subset _
  future := by simp [Kernel.requeued, EventQueue.empty]
  issued := by simp [Kernel.requeued, EventQueue.empty]
  current := fun event current =>
    ⟨(valid.current event current).1, Finset.notMem_empty _, (valid.current event current).2.2⟩

open Kernel in
theorem startNext_refines : Refines startNext Reference.startNext := by
  refine .of_wp marked_kept.startNext fun k r tracks => ?_
  obtain ⟨live, rfl, valid, same, unique⟩ := tracks_iff.mp tracks
  refine wp_startNext valid ?_ ?_ (fun e k' _ threw => .inl threw)
  · intro probe _ noneLive
    have noEvents : live = [] :=
      List.eq_nil_iff_forall_not_mem.mpr fun event member => noneLive event ((same event).mp member)
    subst noEvents
    refine .inr ⟨_, _, rfl, rfl, valid.drained, rfl, ?_, List.nodup_nil⟩
    simp [Simulation.toReference, Simulation.Live, requeued, EventQueue.empty]
  · intro event queue pending cancelled probe _ started
    have member : event ∈ live := (same event).mpr started.live
    obtain ⟨least, found⟩ : ∃ least, leastEvent live = some least := by
      cases found : leastEvent live with
      | none => rw [leastEvent_eq_none.mp found] at member; cases member
      | some least => exact ⟨least, rfl⟩
    -- both choices are least, and the key holds the identifier
    have chosen : least = event := by
      obtain ⟨present, below⟩ := leastEvent_spec found
      have keys := le_antisymm (below event member) (started.least least ((same least).mp present))
      exact List.inj_on_of_nodup_map unique present member (Event.id_eq_of_key_eq keys)
    subst chosen
    refine .inr ⟨some least, ((requeued k.sim queue pending cancelled).dispatching least).toReference
      (live.filter fun other => other.id ≠ least.id), ?_, rfl, started.valid, rfl, ?_, ?_⟩
    · simp only [Reference.startNext, Simulation.toReference, found]
      rfl
    · intro other
      rw [started.remaining, ← same]
      simp [Simulation.toReference]
    · exact unique.sublist (List.filter_sublist.map _)

theorem endDispatch_refines : Refines Kernel.endDispatch Reference.endDispatch := by
  refine .of_wp (Kernel.marked_kept.modifySim _) fun k r tracks => ?_
  obtain ⟨live, rfl, valid, same, unique⟩ := tracks_iff.mp tracks
  refine .inr ⟨_, _, rfl, rfl, ?_⟩
  exact ⟨⟨valid.pending, valid.unique, valid.cancelled_subset, valid.future, valid.issued,
    by rintro event ⟨⟩⟩, rfl, same, unique⟩

/-- The same result, apart from the hash of the trace. -/
def SameResult (a b : SimulationResult) : Prop := { a with traceHash := none } = b

theorem finished_tracks {k : Kernel} {r : Reference} (tracks : Tracks k r)
    (status : SimulationStatus) (error : Option String) (probe : Instrumentation) :
    ∃ result r', Reference.finish status error r = .ok result r' ∧
      SameResult (Kernel.resultOf status error ⟨k.sim, probe⟩) result ∧
      Tracks ⟨Kernel.finishedSim k.sim, probe⟩ r' := by
  have pending := tracks.pendingEvents_eq
  obtain ⟨live, rfl, valid, same, unique⟩ := tracks_iff.mp tracks
  refine ⟨_, _, rfl, ?_, ?_⟩
  · simp only [SameResult, Kernel.resultOf, Reference.resultOf]
    rw [← pending]
    rfl
  · exact ⟨⟨valid.pending, valid.unique, valid.cancelled_subset, valid.future, valid.issued,
      by rintro event ⟨⟩⟩, rfl, same, unique⟩

theorem finish_refines (status : SimulationStatus) (error : Option String) :
    Simulates Tracks Kernel.Marked (fun _ => False) SameResult (Kernel.finish status error)
      (Reference.finish status error) :=
  .of_wp (Kernel.marked_kept.finish status error) fun _ _ tracks =>
    Kernel.wp_finish (fun probe _ => .inr (finished_tracks tracks status error probe))
      (fun _ _ _ threw _ => .inl threw)

theorem fail_refines (error : String) :
    Simulates Tracks Kernel.Marked (fun _ => False) SameResult (Kernel.fail error)
      (Reference.finish .failed (some error)) := by
  refine .of_wp (Kernel.marked_kept.fail error) fun k r tracks => ?_
  rw [Kernel.fail, wp_catching]
  refine Kernel.wp_finish (fun probe _ => .inr (finished_tracks tracks _ _ probe)) ?_
  -- only telemetry makes `finish` throw, and then the second attempt is marked too
  intro e k' _ threw _
  exact wp_mono (Kernel.marked_kept.failAgain e.what k' threw) (fun _ _ marked => .inl marked)
    (fun _ _ marked => .inl marked)

/-! ## Hosts -/

section Hosts

variable {δ α : Type}

/-- Hosts with the same memory and the same log over related schedulers. -/
structure HostTracks (h : Host Kernel δ) (g : Host Reference δ) : Prop where
  scheduler : Tracks h.scheduler g.scheduler
  memory : h.memory = g.memory
  log : h.log = g.log

/-- Computations of two hosts that agree. -/
abbrev HostRefines {β β' : Type} (V : β → β' → Prop) (m : Action (Host Kernel δ) β)
    (n : Action (Host Reference δ) β') : Prop :=
  Simulates HostTracks (fun h => h.scheduler.Marked) (fun _ => False) V m n

theorem HostRefines.zoom {β β' : Type} {V : β → β' → Prop} {m : Action Kernel β}
    {n : Action Reference β'} (h : Simulates Tracks Kernel.Marked (fun _ => False) V m n) :
    HostRefines (δ := δ) V (zoom Host.schedulerLens m) (zoom Host.schedulerLens n) :=
  Simulates.zoom h (fun _ => Iff.rfl) (fun _ => Iff.rfl) (fun _ _ related => related.scheduler)
    (fun _ _ _ _ related scheduler => ⟨scheduler, related.memory, related.log⟩)

theorem note_refines (entries : List LogEntry) :
    HostRefines (δ := δ) Eq (Host.note entries) (Host.note entries) :=
  .modify (fun _ marked => marked) (fun _ h => h)
    (fun _ _ related => ⟨related.scheduler, related.memory, by rw [related.log]⟩)

theorem call_refines {m : Action Kernel α} {n : Action Reference α} (h : Refines m n)
    (entries : Except Error α → List LogEntry) :
    HostRefines (δ := δ) Eq (Host.call m entries) (Host.call n entries) :=
  (HostRefines.zoom h).attempt.bind_eq fun outcome =>
    (note_refines (entries outcome)).bind_eq fun _ => .pure rfl

/-- A program does the same over both schedulers. -/
theorem interpret_refines (program : Program α) :
    HostRefines (δ := δ) Eq (Host.interpret Kernel.operations program)
      (Host.interpret Reference.operations program) := by
  induction program with
  | done value => exact .pure rfl
  | raise error => exact .throw error
  | schedule specification next ih =>
    exact (call_refines (schedule_refines specification) _).bind_eq fun outcome => ih outcome
  | cancel id next ih => exact (call_refines (cancel_refines id) _).bind_eq fun outcome => ih outcome
  | stop reason next ih =>
    exact (call_refines (stop_refines reason) _).bind_eq fun outcome => ih outcome
  | now next ih =>
    refine Simulates.bind_eq (.reads fun h g related => ?_) fun time => ih time
    rw [related.scheduler.same]
    rfl
  | currentEventId next ih =>
    exact (call_refines (aboutCurrent_refines Event.id) _).bind_eq fun outcome => ih outcome
  | cause next ih =>
    exact (call_refines (aboutCurrent_refines Event.cause) _).bind_eq fun outcome => ih outcome
  | randomU64 next ih => exact (call_refines randomU64_refines _).bind_eq fun outcome => ih outcome
  | randomBelow upperExclusive next ih =>
    exact (call_refines (randomBelow_refines upperExclusive) _).bind_eq fun outcome => ih outcome

theorem dispatch_refines (handler : δ → EventPayload → Program δ) (payload : EventPayload) :
    HostRefines Eq
      (Host.dispatch Kernel.operations (fun k => k.sim.currentEvent) handler payload)
      (Host.dispatch Reference.operations Reference.currentEvent handler payload) := by
  refine Simulates.bind_eq (.reads fun h g related => ?_) fun entries => ?_
  · rw [related.scheduler.same]
    rfl
  refine (note_refines entries).bind_eq fun _ => ?_
  refine Simulates.bind_eq (.reads fun h g related => related.memory) fun memory => ?_
  refine (interpret_refines (handler memory payload)).bind_eq fun next => ?_
  exact .modify (fun _ marked => marked) (fun _ h => h)
    (fun _ _ related => ⟨related.scheduler, rfl, related.log⟩)

/-- Results of runs that may run out of rounds. -/
def SameReport : Option SimulationResult → Option SimulationResult → Prop
  | some a, some b => SameResult a b
  | none, none => True
  | _, _ => False

theorem runLoop_refines (handler : δ → EventPayload → Program δ) : ∀ rounds,
    HostRefines SameReport
      (runLoop Host.schedulerLens
        (Host.dispatch Kernel.operations (fun k => k.sim.currentEvent) handler) rounds)
      (Reference.hostedLoop handler rounds)
  | 0 => .pure trivial
  | rounds + 1 => by
    refine Simulates.bind_eq (.reads fun h g related => ?_) fun stopped => ?_
    · rw [related.scheduler.same]
      rfl
    refine .ite (fun _ => (HostRefines.zoom (finish_refines _ _)).map fun _ _ same => same) ?_
    intro _
    refine (HostRefines.zoom startNext_refines).bind_eq fun next => ?_
    cases next with
    | none => exact (HostRefines.zoom (finish_refines _ _)).map fun _ _ same => same
    | some event =>
      refine (dispatch_refines handler event.payload).bind_eq fun _ => ?_
      exact (HostRefines.zoom endDispatch_refines).bind_eq fun _ => runLoop_refines handler rounds

theorem beginRun_refines : Refines Kernel.beginRun Reference.beginRun := by
  refine .of_wp Kernel.marked_kept.beginRun fun k r tracks => ?_
  obtain ⟨live, rfl, valid, same, unique⟩ := tracks_iff.mp tracks
  simp only [Kernel.beginRun, wp_bind, wp_get, wp_throwIf, Kernel.wp_modifySim]
  refine ⟨fun again => .inr ⟨_, if_pos again, tracks⟩, fun first => ?_⟩
  refine .inr ⟨_, _, if_neg first, trivial, ?_⟩
  exact ⟨⟨valid.pending, valid.unique, valid.cancelled_subset, valid.future, valid.issued,
    valid.current⟩, rfl, same, unique⟩

/-- A report of the kernel does nothing the reference could see. -/
theorem emitSimulationObservation_refines (transition : Telemetry.SimulationTransition)
    (event cause : Option EventId) :
    Refines (Kernel.emitSimulationObservation transition event cause) (pure ()) :=
  .of_wp (Kernel.marked_kept.emitSimulationObservation _ _ _) fun _ _ tracks =>
    Kernel.wp_observe
      (fun _ _ => .inr ⟨_, _, rfl, rfl, tracks.valid, tracks.same, tracks.live, tracks.unique⟩)
      (fun _ _ _ threw => .inl threw)

theorem hostedRun_refines (setup : Program Unit) (handler : δ → EventPayload → Program δ)
    (rounds : Nat) :
    HostRefines SameReport (Kernel.hostedRun setup handler rounds)
      (Reference.hostedRun handler setup rounds) := by
  refine (interpret_refines setup).attempt.bind_eq fun _ => ?_
  refine (HostRefines.zoom beginRun_refines).bind_eq fun _ => ?_
  refine .catching ?_ fun e => (HostRefines.zoom (fail_refines e.what)).map fun _ _ same => same
  have silent := (HostRefines.zoom (δ := δ) (emitSimulationObservation_refines .runStarted none none)).bind_eq
    fun _ => runLoop_refines handler rounds
  exact silent

end Hosts

end NexusLab.Sim
