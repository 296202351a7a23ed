import Mathlib.Tactic.Abel
import NexusLab.Foundation.Bisimulation
import NexusLab.Transport.Drive

/-! # A link service on its own

A service is driven from outside: chunks are admitted, completions handled, refused chunks recorded
and failures reconciled, in any order and within any simulation, while the clock goes on.

* `Admission` and `Completion` say what a call leaves of the service, with its counters; a call that
  throws leaves all of it, and the pending events.
* `Driven` are the services that calls lead to; `Exact` holds of all of them.
-/

namespace NexusLab.Transport

open Foundation Sim

/-! ## The kernel under a call that throws -/

/-- The pending events of two kernels are the same, and so is which of them are cancelled. -/
structure SameEvents (k k' : Kernel) : Prop where
  eventQueue : k'.sim.eventQueue = k.sim.eventQueue
  cancelledIds : k'.sim.cancelledIds = k.sim.cancelledIds

theorem SameEvents.refl (k : Kernel) : SameEvents k k := ⟨rfl, rfl⟩

theorem SameEvents.live {k k' : Kernel} (same : SameEvents k k') (event : Event) :
    k'.sim.Live event ↔ k.sim.Live event := by
  rw [Simulation.Live, Simulation.Live, same.eventQueue, same.cancelledIds]

/-- A throw that is not the telemetry's has left the events alone. -/
def Harmless (k : Kernel) (e : Error) (k' : Kernel) : Prop :=
  e.origin = .telemetry ∨ SameEvents k k'

theorem wp_schedule_harmless {k : Kernel} {specification : EventSpec} {Q : EventId → Kernel → Prop}
    (returns : ∀ id k', Q id k') : wp (Kernel.schedule specification) Q (Harmless k) k := by
  unfold Kernel.schedule
  simp only [wp_bind, wp_get, wp_throwIf, Kernel.wp_modifySim, wp_catching, wp_throw, wp_pure]
  refine ⟨fun _ => .inr ⟨rfl, rfl⟩, fun _ => ⟨fun _ => .inr ⟨rfl, rfl⟩, fun _ => ?_⟩⟩
  refine Kernel.wp_nextEventId (fun _ => ?_) (fun _ => .inr ⟨rfl, rfl⟩)
  refine ⟨fun _ => .inr ⟨rfl, rfl⟩, fun _ => ?_⟩
  refine Kernel.wp_instrument (fun _ _ => ?_) (fun e probe origin _ => ?_)
  · refine Kernel.wp_instrument (fun _ _ => ?_) (fun _ _ origin _ => .inl origin)
    exact Kernel.wp_observe (fun _ _ => returns _ _) (fun _ _ origin _ => .inl origin)
  · exact Kernel.wp_instrument (fun _ _ => .inl origin) (fun _ _ origin' _ => .inl origin')

theorem wp_cancel_harmless {k : Kernel} {id : EventId} {Q : Bool → Kernel → Prop}
    (refused : ∀ k', SameEvents k k' → Q false k') (accepted : ∀ k', Q true k') :
    wp (Kernel.cancel id) Q (Harmless k) k :=
  Kernel.wp_cancel_full (fun _ _ _ => refused _ ⟨rfl, rfl⟩) (fun _ _ _ _ _ => accepted _)
    (fun _ _ origin _ => .inl origin)

namespace DirectedLinkService

/-! ## What a call does -/

/-- A call that throws leaves the service and the events of the simulation. -/
def Undone (s : Serving) (e : Error) (s' : Serving) : Prop :=
  s'.service = s.service ∧ Harmless s.kernel e s'.kernel

/-- What becomes of the service that admits a chunk. -/
inductive Admission (service : DirectedLinkService) (now : SimTimeNs) (chunk : TransferChunk) :
    AdmissionResult → DirectedLinkService → Prop where
  | started (completion : EventId) : chunk.bytes ≠ 0 → service.queue.active = none →
    Admission service now chunk ⟨.serviceStarted, false⟩ { service with
      queue := { service.queue with active := some chunk }
      statistics := countAdmission service.statistics chunk ⟨.serviceStarted, false⟩
      scheduledCompletion := some completion
      busySince := some now }
  | queued : chunk.bytes ≠ 0 → service.queue.active ≠ none →
    service.queue.overflows chunk.bytes = false →
    Admission service now chunk ⟨.queued, service.queue.marksNext chunk⟩ { service with
      queue := service.queue.enqueued chunk
      statistics :=
        countAdmission service.statistics chunk ⟨.queued, service.queue.marksNext chunk⟩ }
  | dropped : chunk.bytes ≠ 0 → service.queue.active ≠ none →
    service.queue.overflows chunk.bytes = true →
    Admission service now chunk ⟨.droppedBufferFull, false⟩ { service with
      statistics := countAdmission service.statistics chunk ⟨.droppedBufferFull, false⟩ }

theorem wp_scheduleCompletion_undone {s : Serving} {chunk : TransferChunk}
    {Q : EventId → Serving → Prop} (returns : ∀ id k', Q id ⟨s.service, k'⟩) :
    wp (scheduleCompletion chunk) Q (Undone s) s := by
  simp only [scheduleCompletion, wp_bind, wp_get, wp_fromExcept]
  refine ⟨fun time _ => ?_, fun e _ => ⟨rfl, .inr (.refl _)⟩⟩
  rw [wp_zoom]
  refine wp_mono (wp_schedule_harmless fun id k' => returns id k') (fun _ _ done => done) ?_
  exact fun e k' harmless => ⟨rfl, harmless⟩

/-- An admission as the service sees it, or nothing at all. -/
theorem wp_admitChunk_exact (s : Serving) (chunk : TransferChunk) :
    wp (admitChunk chunk)
      (fun result s' => Admission s.service s.kernel.sim.now chunk result s'.service)
      (Undone s) s := by
  simp only [admitChunk, wp_bind, wp_get, wp_throwIf, wp_fromExcept]
  refine ⟨fun _ => ⟨rfl, .inr (.refl _)⟩, fun nonzero => ⟨fun time _ => ⟨fun next computed => ?_,
    fun e _ => ⟨rfl, .inr (.refl _)⟩⟩, fun e _ => ⟨rfl, .inr (.refl _)⟩⟩⟩
  have counted := admissionStatistics_ok computed
  unfold expectedAdmission at counted
  rw [wp_ite]
  constructor
  · intro idle
    rw [if_pos idle] at counted
    rw [wp_bind]
    apply wp_scheduleCompletion_undone
    intro completion k'
    simp only [wp_bind, wp_zoom, DirectedLinkQueue.admitChunk, wp_throwIf, wp_get, wp_ite, wp_pure,
      wp_set, modifyService, wp_modify]
    refine ⟨fun zero => absurd zero nonzero, fun _ => ⟨fun _ => ?_, fun busy => absurd idle busy⟩⟩
    rw [counted]
    exact .started completion nonzero idle
  · intro busy
    rw [if_neg busy] at counted
    simp only [wp_bind, wp_zoom, DirectedLinkQueue.admitChunk, wp_throwIf, wp_get, wp_ite, wp_pure,
      wp_set, modifyService, wp_modify]
    refine ⟨fun zero => absurd zero nonzero, fun _ => ⟨fun idle => absurd idle busy, fun _ => ?_⟩⟩
    constructor
    · intro (full : s.service.queue.overflows chunk.bytes = true)
      rw [if_pos full] at counted
      rw [counted]
      exact .dropped nonzero busy full
    · intro (fits : ¬ s.service.queue.overflows chunk.bytes = true)
      rw [if_neg fits] at counted
      rw [counted]
      exact .queued nonzero busy (Bool.eq_false_of_not_eq_true fits)

/-- What becomes of the service whose chunk is serialized. -/
inductive Completion (service : DirectedLinkService) (now : SimTimeNs) :
    ServiceTransition → DirectedLinkService → Prop where
  | emptied {active : TransferChunk} {statistics : LinkStatistics} :
    service.queue.active = some active → service.queue.waiting = [] →
    service.statisticsAt now = .ok statistics →
    Completion service now ⟨active, none⟩ { service with
      queue := { service.queue with active := none, waiting := [] }
      statistics := { statistics with completed := statistics.completed + chunkTraffic active }
      scheduledCompletion := none
      busySince := none }
  | advanced {active next : TransferChunk} {rest : List TransferChunk}
    {statistics : LinkStatistics} (completion : EventId) :
    service.queue.active = some active → service.queue.waiting = next :: rest →
    service.statisticsAt now = .ok statistics →
    Completion service now ⟨active, some next⟩ { service with
      queue := service.queue.advanced next rest
      statistics := { statistics with
        completed := statistics.completed + chunkTraffic active
        started := statistics.started + chunkTraffic next }
      scheduledCompletion := some completion
      busySince := some now }

theorem wp_addTraffic_undone {s : Serving} {left right : TrafficCount}
    {Q : TrafficCount → Serving → Prop} (returns : Q (left + right) s) :
    wp (fromExcept (addTraffic left right)) Q (Undone s) s := by
  rw [wp_fromExcept]
  refine ⟨fun total ok => ?_, fun e _ => ⟨rfl, .inr (.refl _)⟩⟩
  rw [addTraffic_ok ok]
  exact returns

/-- A completion as the service sees it, or nothing at all. -/
theorem wp_handleCompletion_exact (s : Serving) (event : TransmissionCompleteEvent) :
    wp (handleCompletion event)
      (fun transition s' => Completion s.service s.kernel.sim.now transition s'.service)
      (Undone s) s := by
  have nothing : ∀ e, Undone s e s := fun e => ⟨rfl, .inr (.refl _)⟩
  simp only [handleCompletion, wp_bind, wp_get, wp_throwIf]
  refine ⟨fun _ => nothing _, fun _ => ?_⟩
  rw [wp_zoom]
  simp only [Kernel.currentEventId, wp_bind, wp_get, wp_getOrThrow, wp_pure]
  refine ⟨fun current _ => ?_, fun _ => nothing _⟩
  refine ⟨fun _ => nothing _, fun _ => ⟨fun active inService => ?_, fun _ => nothing _⟩⟩
  refine ⟨fun _ => nothing _, fun _ => ?_⟩
  rw [wp_fromExcept]
  refine ⟨fun statistics isStatistics => ?_, fun e _ => nothing _⟩
  apply wp_addTraffic_undone
  simp only [startWaiting, wp_bind, wp_get, DirectedLinkQueue.nextWaiting]
  have active' : s.service.queue.active = some active := inService
  cases waiting : s.service.queue.waiting with
  | nil =>
    simp only [waiting, List.head?_nil, wp_pure, DirectedLinkQueue.completeService, active',
      modifyService, wp_modify]
    refine ⟨?_, fun absent => by simp at absent⟩
    intro transition isTransition
    cases isTransition
    exact .emptied active' waiting isStatistics
  | cons next rest =>
    simp only [List.head?_cons, wp_bind]
    apply wp_addTraffic_undone
    apply wp_scheduleCompletion_undone
    intro completion k'
    simp only [wp_pure, DirectedLinkQueue.completeService, active', waiting, modifyService,
      wp_modify]
    refine ⟨?_, fun absent => by simp at absent⟩
    intro transition isTransition
    cases isTransition
    exact .advanced completion active' waiting isStatistics

/-- What is recorded of a chunk that finds the link down. -/
theorem wp_recordLinkDown_exact (s : Serving) (chunk : TransferChunk) :
    wp (recordLinkDown chunk)
      (fun _ s' => s'.service = { s.service with statistics := { s.service.statistics with
        droppedLinkDown := s.service.statistics.droppedLinkDown + chunkTraffic chunk } })
      (Undone s) s := by
  simp only [recordLinkDown, wp_bind, wp_get, modifyService, wp_modify]
  exact wp_addTraffic_undone rfl

/-- The traffic in service and in line. -/
def held (service : DirectedLinkService) : TrafficCount :=
  (service.queue.active.map chunkTraffic).getD 0 +
    ⟨service.queue.waitingBytes, service.queue.waiting.length⟩

theorem heldTraffic_ok {service : DirectedLinkService} {total : TrafficCount}
    (ok : service.heldTraffic = .ok total) : total = service.held := by
  unfold heldTraffic at ok
  unfold held
  cases active : service.queue.active with
  | none =>
    simp only [active] at ok
    simp [Except.ok.inj ok]
  | some chunk =>
    simp only [active] at ok
    rw [addTraffic_ok ok]
    exact add_comm (_ : TrafficCount) _

/-- A failure takes all that the service holds, or nothing at all. -/
theorem wp_reconcileDown_exact (s : Serving) :
    wp reconcileDown
      (fun drain s' => drain = ⟨s.service.queue.active, s.service.queue.waiting⟩ ∧
        ∃ statistics, s.service.statisticsAt s.kernel.sim.now = .ok statistics ∧
          s'.service = s.service.emptied { statistics with
            droppedLinkDown := statistics.droppedLinkDown + s.service.held })
      (Undone s) s := by
  have nothing : ∀ e, Undone s e s := fun e => ⟨rfl, .inr (.refl _)⟩
  simp only [reconcileDown, wp_bind, wp_get, wp_fromExcept]
  refine ⟨fun statistics isStatistics => ⟨fun dropped isDropped => ⟨fun total isTotal => ?_,
    fun e _ => nothing e⟩, fun e _ => nothing e⟩, fun e _ => nothing e⟩
  have counted : total = statistics.droppedLinkDown + s.service.held := by
    rw [addTraffic_ok isTotal, heldTraffic_ok isDropped]
    rfl
  subst counted
  cases scheduled : s.service.scheduledCompletion with
  | none => exact ⟨rfl, statistics, isStatistics, rfl⟩
  | some id =>
    simp only [cancelCompletion, wp_bind, wp_zoom]
    refine wp_mono (wp_cancel_harmless (Q := fun cancelled k' => cancelled = false →
      SameEvents s.kernel k') (fun k' same _ => same) (fun k' refused => by cases refused)) ?_ ?_
    · intro cancelled k' unchanged
      simp only [wp_throwIf, modifyService, wp_modify, wp_pure]
      exact ⟨fun refused => ⟨rfl, .inr (unchanged refused)⟩,
        fun _ => ⟨rfl, statistics, isStatistics, rfl⟩⟩
    · exact fun e k' harmless => ⟨rfl, harmless⟩

/-- The service that a call leaves, whether it returns or throws. -/
def callAfter {α : Type} (call : Action Serving α) (s : Serving) : DirectedLinkService :=
  match call s with
  | .ok _ s' => s'.service
  | .error _ s' => s'.service

theorem callAfter_of_wp {α : Type} {call : Action Serving α} {s : Serving}
    {Q : α → Serving → Prop} {E : Error → Serving → Prop} {P : DirectedLinkService → Prop}
    (spec : wp call Q E s) (returns : ∀ a s', Q a s' → P s'.service)
    (throws : ∀ e s', E e s' → P s'.service) : P (callAfter call s) := by
  unfold callAfter
  unfold wp at spec
  cases run : call s with
  | ok a s' =>
    rw [run] at spec
    exact returns a s' spec
  | error e s' =>
    rw [run] at spec
    exact throws e s' spec

end DirectedLinkService

/-! ## Services that are driven -/

/-- A service, and what has happened to it so far: the time, the traffic that was refused because the
link was down, and how long it has had a chunk in service. -/
structure LinkHistory where
  service : DirectedLinkService
  clock : Nat
  refused : TrafficCount := 0
  activeTime : Nat := 0

namespace LinkHistory

open DirectedLinkService

/-- Time passes. -/
def waits (h : LinkHistory) (time : Nat) : LinkHistory :=
  { h with
    clock := time
    activeTime := h.activeTime + if h.service.queue.active.isSome then time - h.clock else 0 }

/-- Calls in any order, each within a simulation of its own, and time between them. -/
inductive Driven : LinkHistory → Prop where
  | created {configuration : DirectedLinkConfiguration} {service : DirectedLinkService}
    {clock : Nat} (word : configuration.waitingBufferCapacity ≤ maxU64) (time : clock ≤ maxU64)
    (created : create configuration = .ok service) : Driven { service, clock }
  | waits {h : LinkHistory} {time : Nat} (driven : Driven h) (later : h.clock ≤ time)
    (word : time ≤ maxU64) : Driven (h.waits time)
  | admitChunk {h : LinkHistory} {kernel : Kernel} (chunk : TransferChunk) (driven : Driven h)
    (now : kernel.sim.now = h.clock) :
    Driven { h with service := callAfter (admitChunk chunk) ⟨h.service, kernel⟩ }
  | handleCompletion {h : LinkHistory} {kernel : Kernel} (event : TransmissionCompleteEvent)
    (driven : Driven h) (now : kernel.sim.now = h.clock) :
    Driven { h with service := callAfter (handleCompletion event) ⟨h.service, kernel⟩ }
  | recordLinkDown {h : LinkHistory} {kernel : Kernel} (chunk : TransferChunk) (driven : Driven h) :
    Driven { h with
      service := callAfter (recordLinkDown chunk) ⟨h.service, kernel⟩
      refused := h.refused +
        if returns (recordLinkDown chunk) ⟨h.service, kernel⟩ then chunkTraffic chunk else 0 }
  | reconcileDown {h : LinkHistory} {kernel : Kernel} (driven : Driven h)
    (now : kernel.sim.now = h.clock) :
    Driven { h with service := callAfter reconcileDown ⟨h.service, kernel⟩ }

/-- The books of a service are exact. -/
structure Exact (h : LinkHistory) : Prop where
  balance : h.service.statistics.enqueued + h.refused =
    h.service.statistics.completed + h.service.held + h.service.statistics.droppedLinkDown
  waiting : h.service.queue.waitingBytes = (h.service.queue.waiting.map TransferChunk.bytes).sum
  room : h.service.queue.waitingBytes ≤ h.service.queue.configuration.waitingBufferCapacity
  word : h.service.queue.configuration.waitingBufferCapacity ≤ maxU64
  maximum : h.service.queue.waitingBytes ≤ h.service.queue.maximumWaitingBytes
  clock : h.clock ≤ maxU64
  activeTime : h.activeTime ≤ h.clock
  idle : h.service.busySince = none →
    h.service.queue.active = none ∧ h.service.statistics.busyTime = h.activeTime
  busy : ∀ since : Nat, h.service.busySince = some since → h.service.queue.active ≠ none ∧
    since ≤ h.clock ∧ h.service.statistics.busyTime + (h.clock - since) = h.activeTime

variable {h : LinkHistory}

theorem lt_two_pow_of_le_maxU64 {n : Nat} (le : n ≤ maxU64) : n < 2 ^ 64 := by
  unfold maxU64 at le
  omega

theorem checkedAdd_of_eq {time duration total : Nat} (sum : time + duration = total)
    (small : total ≤ maxU64) : checkedAdd time duration = some total := by
  have inRange : ¬ duration > maxU64 - time := by omega
  rw [← sum]
  exact if_neg inRange

theorem Exact.statisticsAt (exactly : h.Exact) : h.service.statisticsAt h.clock =
    .ok { h.service.statistics with busyTime := h.activeTime } := by
  unfold DirectedLinkService.statisticsAt
  cases since : h.service.busySince with
  | none =>
    obtain ⟨_, total⟩ := exactly.idle since
    simp only [← total]
  | some start =>
    obtain ⟨_, past, total⟩ := exactly.busy start since
    have sum := checkedAdd_of_eq total (exactly.activeTime.trans exactly.clock)
    simp only [checkedDifference_of_le past, sum]

/-- A chunk in service from `start` on is active for all the time that passes. -/
theorem elapsed_later {busyTime start clock time total : Nat} (past : start ≤ clock)
    (later : clock ≤ time) (sum : busyTime + (clock - start) = total) :
    busyTime + (time - start) = total + (time - clock) := by
  omega

theorem Exact.waits (exactly : h.Exact) {time : Nat} (later : h.clock ≤ time)
    (word : time ≤ maxU64) : (h.waits time).Exact := by
  have activeTime := exactly.activeTime
  refine ⟨exactly.balance, exactly.waiting, exactly.room, exactly.word, exactly.maximum, word, ?_,
    ?_, ?_⟩
  · simp only [LinkHistory.waits]
    split <;> omega
  · intro since
    obtain ⟨none, total⟩ := exactly.idle since
    simp [LinkHistory.waits, none, total]
  · intro start since
    obtain ⟨some, past, total⟩ := exactly.busy start since
    have isSome : h.service.queue.active.isSome = true := Option.isSome_iff_ne_none.mpr some
    refine ⟨some, past.trans later, ?_⟩
    simp only [LinkHistory.waits, isSome, if_true]
    exact elapsed_later past later total

theorem exact_created {configuration : DirectedLinkConfiguration} {service : DirectedLinkService}
    {clock : Nat} (word : configuration.waitingBufferCapacity ≤ maxU64) (time : clock ≤ maxU64)
    (created : create configuration = .ok service) : Exact { service, clock } := by
  have fresh : service = { queue := { configuration } } := by
    unfold create DirectedLinkQueue.create at created
    cases valid : validateConfiguration configuration with
    | error e =>
      rw [valid] at created
      cases created
    | ok _ =>
      rw [valid] at created
      exact (Except.ok.inj created).symm
  subst fresh
  exact ⟨rfl, rfl, Nat.zero_le _, word, le_rfl, time, Nat.zero_le _, fun _ => ⟨rfl, rfl⟩,
    fun _ since => nomatch since⟩

/-- The buffer does not overflow, and neither does the sum that says so. -/
theorem Exact.fits (exactly : h.Exact) {bytes : Nat}
    (fits : h.service.queue.overflows bytes = false) :
    h.service.queue.waitingBytes + bytes ≤ h.service.queue.configuration.waitingBufferCapacity := by
  have small : h.service.queue.configuration.waitingBufferCapacity < 2 ^ 64 :=
    lt_two_pow_of_le_maxU64 exactly.word
  unfold DirectedLinkQueue.overflows at fits
  rw [U64.sub_eq exactly.room small, decide_eq_false_iff_not] at fits
  exact (Nat.add_comm _ _).trans_le ((Nat.le_sub_iff_add_le exactly.room).mp (not_lt.mp fits))

/-- The two books that an admission changes stay equal. -/
theorem Exact.admission (exactly : h.Exact) {chunk : TransferChunk} {result : AdmissionResult}
    {service : DirectedLinkService}
    (admission : Admission h.service h.clock chunk result service) :
    Exact { h with service } := by
  have balance := exactly.balance
  cases admission with
  | started completion nonzero idle =>
    have stopped : h.service.busySince = none := by
      cases since : h.service.busySince with
      | none => rfl
      | some start => exact absurd idle (exactly.busy start since).1
    refine ⟨?_, exactly.waiting, exactly.room, exactly.word, exactly.maximum, exactly.clock,
      exactly.activeTime, nofun, ?_⟩
    · simp only [held, idle, Option.map_none, Option.getD_none, zero_add] at balance
      simp only [countAdmission, held, Option.map_some, Option.getD_some, ne_eq, reduceCtorEq,
        not_false_eq_true, if_true, if_false, add_zero]
      rw [add_right_comm, balance]
      abel
    · intro start since
      cases since
      exact ⟨(nomatch ·), le_rfl, by simp [countAdmission, (exactly.idle stopped).2]⟩
  | queued nonzero busy fits =>
    have small := exactly.fits fits
    have sum : U64.add h.service.queue.waitingBytes chunk.bytes =
        h.service.queue.waitingBytes + chunk.bytes :=
      U64.add_eq (lt_two_pow_of_le_maxU64 (small.trans exactly.word))
    refine ⟨?_, ?_, ?_, exactly.word, ?_, exactly.clock, exactly.activeTime, exactly.idle,
      exactly.busy⟩
    · simp only [held] at balance
      simp only [countAdmission, held, DirectedLinkQueue.enqueued, sum, List.length_append,
        List.length_singleton, ne_eq, reduceCtorEq, not_false_eq_true, if_true, if_false, add_zero]
      have grown : (⟨h.service.queue.waitingBytes + chunk.bytes,
          h.service.queue.waiting.length + 1⟩ : TrafficCount) =
          ⟨h.service.queue.waitingBytes, h.service.queue.waiting.length⟩ + chunkTraffic chunk := rfl
      rw [grown, add_right_comm, balance]
      abel
    · simp only [DirectedLinkQueue.enqueued, sum, List.map_append, List.sum_append]
      rw [exactly.waiting]
      rfl
    · simpa [DirectedLinkQueue.enqueued, sum] using small
    · simp [DirectedLinkQueue.enqueued]
  | dropped nonzero busy full =>
    refine ⟨?_, exactly.waiting, exactly.room, exactly.word, exactly.maximum, exactly.clock,
      exactly.activeTime, exactly.idle, exactly.busy⟩
    simpa [countAdmission, held] using balance

theorem Exact.completion (exactly : h.Exact) {transition : ServiceTransition}
    {service : DirectedLinkService}
    (completion : Completion h.service h.clock transition service) : Exact { h with service } := by
  have balance := exactly.balance
  -- the statistics are those of the counters, with the time in service added
  have counted : ∀ {statistics}, h.service.statisticsAt h.clock = .ok statistics →
      statistics = { h.service.statistics with busyTime := h.activeTime } :=
    fun isStatistics => Except.ok.inj (isStatistics.symm.trans exactly.statisticsAt)
  cases completion with
  | emptied inService nobody isStatistics =>
    rw [counted isStatistics]
    refine ⟨?_, ?_, exactly.room, exactly.word, exactly.maximum, exactly.clock,
      exactly.activeTime, fun _ => ⟨rfl, rfl⟩, nofun⟩
    · simp only [held, inService, nobody, Option.map_some, Option.getD_some] at balance
      simp only [held, Option.map_none, Option.getD_none, zero_add]
      rw [balance]
      abel
    · simpa [nobody] using exactly.waiting
  | @advanced active next rest statistics completion inService queued isStatistics =>
    rw [counted isStatistics]
    have waiting := exactly.waiting
    rw [queued, List.map_cons, List.sum_cons] at waiting
    have less : U64.sub h.service.queue.waitingBytes next.bytes =
        (rest.map TransferChunk.bytes).sum := by
      rw [U64.sub_eq (waiting ▸ Nat.le_add_right _ _)
        (lt_two_pow_of_le_maxU64 (exactly.room.trans exactly.word)), waiting]
      exact Nat.add_sub_cancel_left _ _
    have smaller : U64.sub h.service.queue.waitingBytes next.bytes ≤
        h.service.queue.waitingBytes := by
      rw [less, waiting]
      exact Nat.le_add_left _ _
    refine ⟨?_, less, smaller.trans exactly.room, exactly.word, smaller.trans exactly.maximum,
      exactly.clock, exactly.activeTime, nofun, ?_⟩
    · simp only [held, inService, queued, Option.map_some, Option.getD_some, waiting,
        List.length_cons] at balance
      simp only [held, DirectedLinkQueue.advanced, less, Option.map_some, Option.getD_some]
      have grown : (⟨next.bytes + (rest.map TransferChunk.bytes).sum, rest.length + 1⟩ :
          TrafficCount) = chunkTraffic next + ⟨(rest.map TransferChunk.bytes).sum, rest.length⟩ :=
        TrafficCount.ext rfl (Nat.add_comm _ _)
      rw [balance, grown]
      abel
    · intro start since
      cases since
      exact ⟨(nomatch ·), le_rfl, by simp⟩

theorem Exact.recordLinkDown (exactly : h.Exact) (traffic : TrafficCount) : Exact { h with
    service := { h.service with statistics := { h.service.statistics with
      droppedLinkDown := h.service.statistics.droppedLinkDown + traffic } }
    refused := h.refused + traffic } := by
  refine ⟨?_, exactly.waiting, exactly.room, exactly.word, exactly.maximum, exactly.clock,
    exactly.activeTime, exactly.idle, exactly.busy⟩
  have balance := exactly.balance
  simp only [held] at balance ⊢
  rw [← add_assoc, balance]
  abel

theorem Exact.reconcileDown (exactly : h.Exact) {statistics : LinkStatistics}
    (isStatistics : h.service.statisticsAt h.clock = .ok statistics) : Exact { h with
      service := h.service.emptied { statistics with
        droppedLinkDown := statistics.droppedLinkDown + h.service.held } } := by
  cases isStatistics.symm.trans exactly.statisticsAt
  refine ⟨?_, rfl, Nat.zero_le _, exactly.word, Nat.zero_le _, exactly.clock, exactly.activeTime,
    fun _ => ⟨rfl, rfl⟩, nofun⟩
  have nothing : (h.service.emptied { h.service.statistics with
      busyTime := h.activeTime
      droppedLinkDown := h.service.statistics.droppedLinkDown + h.service.held }).held = 0 := rfl
  rw [nothing]
  simp only [DirectedLinkService.emptied, add_zero]
  rw [exactly.balance]
  abel

theorem Driven.exact (driven : Driven h) : h.Exact := by
  induction driven with
  | created word time created => exact exact_created word time created
  | waits driven later word exactly => exact exactly.waits later word
  | @admitChunk h kernel chunk driven now exactly =>
    refine callAfter_of_wp (P := fun service => Exact { h with service })
      (wp_admitChunk_exact _ chunk) (fun result s' admission => ?_) (fun e s' undone => ?_)
    · rw [now] at admission
      exact exactly.admission admission
    · rw [undone.1]
      exact exactly
  | @handleCompletion h kernel event driven now exactly =>
    refine callAfter_of_wp (P := fun service => Exact { h with service })
      (wp_handleCompletion_exact _ event) (fun result s' completion => ?_) (fun e s' undone => ?_)
    · rw [now] at completion
      exact exactly.completion completion
    · rw [undone.1]
      exact exactly
  | @recordLinkDown h kernel chunk driven exactly =>
    have spec := wp_recordLinkDown_exact ⟨h.service, kernel⟩ chunk
    unfold wp at spec
    unfold callAfter returns
    cases run : DirectedLinkService.recordLinkDown chunk ⟨h.service, kernel⟩ with
    | ok a s' =>
      rw [run] at spec
      simp only [if_true]
      rw [show s'.service = _ from spec]
      exact exactly.recordLinkDown _
    | error e s' =>
      rw [run] at spec
      simp only [Bool.false_eq_true, if_false, add_zero]
      rw [show s'.service = h.service from spec.1]
      exact exactly
  | @reconcileDown h kernel driven now exactly =>
    refine callAfter_of_wp (P := fun service => Exact { h with service })
      (wp_reconcileDown_exact _) (fun drain s' drained => ?_) (fun e s' undone => ?_)
    · obtain ⟨_, statistics, isStatistics, left⟩ := drained
      rw [now] at isStatistics
      rw [left]
      exact exactly.reconcileDown isStatistics
    · rw [undone.1]
      exact exactly

/-- The traffic in service. -/
def active (h : LinkHistory) : TrafficCount := (h.service.queue.active.map chunkTraffic).getD 0

/-- The traffic in line, chunk by chunk. -/
def waiting (h : LinkHistory) : TrafficCount := (h.service.queue.waiting.map chunkTraffic).sum

theorem sum_chunkTraffic (chunks : List TransferChunk) : (chunks.map chunkTraffic).sum =
    ⟨(chunks.map TransferChunk.bytes).sum, chunks.length⟩ := by
  induction chunks with
  | nil => rfl
  | cons chunk rest ih =>
    rw [List.map_cons, List.sum_cons, ih]
    exact TrafficCount.ext rfl (Nat.add_comm _ _)

theorem Exact.held_eq (exactly : h.Exact) : h.service.held = h.active + h.waiting := by
  have line : h.waiting = ⟨h.service.queue.waitingBytes, h.service.queue.waiting.length⟩ := by
    rw [exactly.waiting]
    exact sum_chunkTraffic _
  rw [line]
  rfl

/-- The queue of the service does what the service expects. -/
theorem queue_of_admission {service service' : DirectedLinkService} {now : SimTimeNs}
    {chunk : TransferChunk} {result : AdmissionResult}
    (admission : Admission service now chunk result service') :
    DirectedLinkQueue.admitChunk chunk service.queue = .ok result service'.queue ∧
      service'.statistics = countAdmission service.statistics chunk result := by
  refine ⟨eq_ok_of_wp ?_, by cases admission <;> rfl⟩
  simp only [DirectedLinkQueue.admitChunk, wp_bind, wp_throwIf, wp_get, wp_ite, wp_pure, wp_set]
  cases admission with
  | started completion nonzero idle =>
    exact ⟨fun zero => absurd zero nonzero, fun _ => ⟨fun _ => ⟨rfl, rfl⟩,
      fun busy => absurd idle busy⟩⟩
  | queued nonzero busy fits =>
    refine ⟨fun zero => absurd zero nonzero, fun _ => ⟨fun idle => absurd idle busy, fun _ => ?_⟩⟩
    refine ⟨fun full => ?_, fun _ => ⟨rfl, rfl⟩⟩
    rw [fits] at full
    cases full
  | dropped nonzero busy full =>
    exact ⟨fun zero => absurd zero nonzero, fun _ => ⟨fun idle => absurd idle busy, fun _ =>
      ⟨fun _ => ⟨rfl, rfl⟩, fun fits => absurd full fits⟩⟩⟩

/-- The statistics of a link are exact, whatever is done to its service: the counters of an admission
follow the queue's result, the traffic balances, the waiting bytes are those of the chunks in line and
stay within the buffer, and the busy time is the time with a chunk in service. -/
theorem link_statistics_exact {h : LinkHistory} (driven : Driven h) :
    (∀ kernel chunk result s', admitChunk chunk ⟨h.service, kernel⟩ = .ok result s' →
      DirectedLinkQueue.admitChunk chunk h.service.queue = .ok result s'.service.queue ∧
        s'.service.statistics = countAdmission h.service.statistics chunk result) ∧
    h.service.statistics.enqueued + h.refused = h.service.statistics.completed + h.active +
      h.waiting + h.service.statistics.droppedLinkDown ∧
    h.service.queue.waitingBytes = (h.service.queue.waiting.map TransferChunk.bytes).sum ∧
    h.service.queue.waitingBytes ≤ h.service.queue.configuration.waitingBufferCapacity ∧
    h.service.queue.waitingBytes ≤ h.service.queue.maximumWaitingBytes ∧
    U64.sub h.service.queue.configuration.waitingBufferCapacity h.service.queue.waitingBytes =
      h.service.queue.configuration.waitingBufferCapacity - h.service.queue.waitingBytes ∧
    (∀ bytes, h.service.queue.overflows bytes = false →
      U64.add h.service.queue.waitingBytes bytes = h.service.queue.waitingBytes + bytes) ∧
    h.service.statisticsAt h.clock =
      .ok { h.service.statistics with busyTime := h.activeTime } := by
  have exactly := driven.exact
  refine ⟨?_, ?_, exactly.waiting, exactly.room, exactly.maximum, ?_, ?_, exactly.statisticsAt⟩
  · intro kernel chunk result s' admitted
    have spec := wp_of_ok (wp_admitChunk_exact ⟨h.service, kernel⟩ chunk) admitted
    exact queue_of_admission spec
  · rw [exactly.balance, exactly.held_eq]
    abel
  · exact U64.sub_eq exactly.room (lt_two_pow_of_le_maxU64 exactly.word)
  · intro bytes fits
    exact U64.add_eq (lt_two_pow_of_le_maxU64 ((exactly.fits fits).trans exactly.word))

/-- The moves of a replay: calls of the service, and steps of the simulation that it is in. -/
inductive LinkMove where
  | admitChunk (chunk : TransferChunk)
  | handleCompletion (event : TransmissionCompleteEvent)
  | recordLinkDown (chunk : TransferChunk)
  | reconcileDown
  | run
  | start

namespace LinkMove

def call {α : Type} (m : Action Serving α) (h : LinkHistory) (k : Kernel) :
    Option (LinkHistory × Kernel) :=
  if k.sim.now = h.clock then
    some ({ h with service := callAfter m ⟨h.service, k⟩ }, (finalState (m ⟨h.service, k⟩)).kernel)
  else none

/-- Time passes up to that of the simulation. -/
def step {α : Type} (m : Action Kernel α) (h : LinkHistory) (k : Kernel) :
    Option (LinkHistory × Kernel) :=
  let k := finalState (m k)
  if h.clock ≤ k.sim.now ∧ k.sim.now ≤ maxU64 then some (h.waits k.sim.now, k) else none

def play (state : LinkHistory × Kernel) : LinkMove → Option (LinkHistory × Kernel)
  | .admitChunk chunk => call (DirectedLinkService.admitChunk chunk) state.1 state.2
  | .handleCompletion event => call (DirectedLinkService.handleCompletion event) state.1 state.2
  | .recordLinkDown chunk =>
    some ({ state.1 with
      service := callAfter (DirectedLinkService.recordLinkDown chunk) ⟨state.1.service, state.2⟩
      refused := state.1.refused +
        if returns (DirectedLinkService.recordLinkDown chunk) ⟨state.1.service, state.2⟩ then
          chunkTraffic chunk else 0 }, state.2)
  | .reconcileDown => call DirectedLinkService.reconcileDown state.1 state.2
  | .run => step Kernel.beginRun state.1 state.2
  | .start => step Kernel.startNext state.1 state.2

def replay (moves : List LinkMove) (state : LinkHistory × Kernel) : Option (LinkHistory × Kernel) :=
  moves.foldlM play state

end LinkMove

theorem Driven.step {α : Type} {m : Action Kernel α} {h : LinkHistory} {k : Kernel}
    {state : LinkHistory × Kernel} (driven : Driven h) (played : LinkMove.step m h k = some state) :
    Driven state.1 := by
  unfold LinkMove.step at played
  dsimp only at played
  split at played
  · rename_i later
    cases played
    exact .waits driven later.1 later.2
  · cases played

theorem Driven.play {state state' : LinkHistory × Kernel} {move : LinkMove}
    (driven : Driven state.1) (played : move.play state = some state') : Driven state'.1 := by
  cases move with
  | admitChunk chunk =>
    simp only [LinkMove.play, LinkMove.call] at played
    split at played
    · rename_i now
      cases played
      exact .admitChunk chunk driven now
    · cases played
  | handleCompletion event =>
    simp only [LinkMove.play, LinkMove.call] at played
    split at played
    · rename_i now
      cases played
      exact .handleCompletion event driven now
    · cases played
  | recordLinkDown chunk =>
    cases played
    exact .recordLinkDown chunk driven
  | reconcileDown =>
    simp only [LinkMove.play, LinkMove.call] at played
    split at played
    · rename_i now
      cases played
      exact .reconcileDown driven now
    · cases played
  | run => exact Driven.step (m := Kernel.beginRun) driven played
  | start => exact Driven.step (m := Kernel.startNext) driven played

theorem Driven.replay {state state' : LinkHistory × Kernel} {moves : List LinkMove}
    (driven : Driven state.1) (played : LinkMove.replay moves state = some state') :
    Driven state'.1 := by
  induction moves generalizing state with
  | nil =>
    cases played
    exact driven
  | cons move moves ih =>
    simp only [LinkMove.replay, List.foldlM_cons, Option.bind_eq_bind,
      Option.bind_eq_some_iff] at played
    obtain ⟨middle, first, rest⟩ := played
    exact ih (driven.play first) rest

/-- One byte in each nanosecond, room for two hundred, and marks from a hundred on. -/
def markingConfiguration : DirectedLinkConfiguration :=
  ⟨⟨⟨0⟩, .aToB⟩, 8000000000, 10, 200, some 100⟩

def idleLine : LinkHistory × Kernel :=
  ({ service := { queue := { configuration := markingConfiguration } }, clock := 0 },
    joinedDrive.network.kernel)

theorem driven_idleLine : Driven idleLine.1 :=
  @Driven.created markingConfiguration _ 0 (by decide) (Nat.zero_le _) rfl

/-- One chunk is serialized, one waits, one waits marked and one finds no room. -/
def crowding : List LinkMove :=
  [.admitChunk ⟨⟨0⟩, ⟨0⟩, 64, 0, false⟩, .admitChunk ⟨⟨0⟩, ⟨1⟩, 64, 0, false⟩,
    .admitChunk ⟨⟨0⟩, ⟨2⟩, 64, 0, false⟩, .admitChunk ⟨⟨0⟩, ⟨3⟩, 128, 0, false⟩]

/-- The first chunk is through when the link fails, and one more is refused. -/
def failing : List LinkMove :=
  crowding ++ [.run, .start, .handleCompletion ⟨⟨0⟩, ⟨0⟩, 0, .aToB⟩, .reconcileDown,
    .recordLinkDown ⟨⟨0⟩, ⟨4⟩, 32, 0, false⟩]

def lineAfter (moves : List LinkMove) : LinkHistory × Kernel :=
  (LinkMove.replay moves idleLine).getD idleLine

theorem driven_lineAfter (moves : List LinkMove) : Driven (lineAfter moves).1 := by
  unfold lineAfter
  cases played : LinkMove.replay moves idleLine with
  | none => exact driven_idleLine
  | some state => exact driven_idleLine.replay played

def crowded : LinkHistory := (lineAfter crowding).1
def failed : LinkHistory := (lineAfter failing).1

theorem link_statistics_exact_failed :
    (crowded.service.statistics.marked = ⟨64, 1⟩ ∧
      crowded.service.statistics.droppedBufferFull = ⟨128, 1⟩ ∧
      crowded.service.queue.waitingBytes = 128 ∧
      U64.sub crowded.service.queue.configuration.waitingBufferCapacity
        crowded.service.queue.waitingBytes = 72) ∧
    failed.service.statistics.completed = ⟨64, 1⟩ ∧ failed.refused = ⟨32, 1⟩ ∧
    failed.service.statistics.droppedLinkDown = ⟨160, 3⟩ ∧
    failed.service.statistics.enqueued + failed.refused = failed.service.statistics.completed +
      failed.active + failed.waiting + failed.service.statistics.droppedLinkDown ∧
    failed.service.statisticsAt failed.clock =
      .ok { failed.service.statistics with busyTime := 64 } := by
  have drivenCrowded : Driven crowded := driven_lineAfter crowding
  have drivenFailed : Driven failed := driven_lineAfter failing
  obtain ⟨_, _, waiting, _, _, room, _, _⟩ := link_statistics_exact drivenCrowded
  obtain ⟨_, balance, _, _, _, _, _, busy⟩ := link_statistics_exact drivenFailed
  have counted : crowded.service.statistics.marked = ⟨64, 1⟩ ∧
      crowded.service.statistics.droppedBufferFull = ⟨128, 1⟩ ∧
      crowded.service.queue.configuration.waitingBufferCapacity = 200 ∧
      crowded.service.queue.waiting.map TransferChunk.bytes = [64, 64] := by decide +kernel
  obtain ⟨marked, dropped, capacity, bytes⟩ := counted
  have lost : failed.service.statistics.completed = ⟨64, 1⟩ ∧ failed.refused = ⟨32, 1⟩ ∧
      failed.service.statistics.droppedLinkDown = ⟨160, 3⟩ ∧ failed.activeTime = 64 := by
    decide +kernel
  obtain ⟨completed, refused, lost, active⟩ := lost
  rw [bytes] at waiting
  rw [active] at busy
  exact ⟨⟨marked, dropped, waiting, room.trans (by rw [capacity, waiting]; rfl)⟩,
    completed, refused, lost, balance, busy⟩

end LinkHistory

namespace DirectedLinkService

/-- A call that throws, and not for the telemetry's sake, leaves the service and the live events. -/
def Atomic {α : Type} (call : Action Serving α) (s : Serving) : Prop :=
  ∀ e s', call s = .error e s' → e.origin ≠ .telemetry →
    s'.service = s.service ∧ ∀ event, s'.kernel.sim.Live event ↔ s.kernel.sim.Live event

theorem atomic_of_wp {α : Type} {call : Action Serving α} {s : Serving} {Q : α → Serving → Prop}
    (spec : wp call Q (Undone s) s) : Atomic call s := by
  intro e s' thrown program
  obtain ⟨service, telemetry | same⟩ := wp_of_error spec thrown
  · exact absurd telemetry program
  · exact ⟨service, same.live⟩

/-- An admission, a completion or a failure that throws has changed nothing of the service, its queue,
counters, scheduled completion and busy time, and no live event of the simulation. -/
theorem link_service_atomic (service : DirectedLinkService) (kernel : Kernel)
    (chunk : TransferChunk) (event : TransmissionCompleteEvent) :
    Atomic (admitChunk chunk) ⟨service, kernel⟩ ∧
    Atomic (handleCompletion event) ⟨service, kernel⟩ ∧
    Atomic reconcileDown ⟨service, kernel⟩ :=
  ⟨atomic_of_wp (wp_admitChunk_exact _ chunk), atomic_of_wp (wp_handleCompletion_exact _ event),
    atomic_of_wp (wp_reconcileDown_exact _)⟩

/-- So slow a link that a chunk of two gigabytes takes most of the simulated time. -/
def slowConfiguration : DirectedLinkConfiguration := ⟨⟨⟨0⟩, .aToB⟩, 1, 0, 4000000000, none⟩

/-- One chunk is through, and the next one is in line. -/
def slowLine : Serving :=
  let idle : Serving :=
    ⟨{ queue := { configuration := slowConfiguration } }, joinedDrive.network.kernel⟩
  let first := finalState (admitChunk ⟨⟨0⟩, ⟨0⟩, 2000000000, 0, false⟩ idle)
  let second := finalState (admitChunk ⟨⟨0⟩, ⟨1⟩, 2000000000, 0, false⟩ first)
  { second with kernel := finalState (Kernel.startNext (finalState (Kernel.beginRun second.kernel))) }

/-- The completion cannot be taken, since the next chunk would be through too late. -/
theorem link_service_atomic_overflow : ∃ e s',
    handleCompletion ⟨⟨0⟩, ⟨0⟩, 0, .aToB⟩ slowLine = .error e s' ∧
    s'.service.queue.active = some ⟨⟨0⟩, ⟨0⟩, 2000000000, 0, false⟩ ∧
    s'.service.queue.waiting = [⟨⟨0⟩, ⟨1⟩, 2000000000, 0, false⟩] ∧
    s'.service.statistics.completed = ⟨0, 0⟩ ∧
    ∀ event, s'.kernel.sim.Live event ↔ slowLine.kernel.sim.Live event := by
  have state : slowLine.service.queue.active = some ⟨⟨0⟩, ⟨0⟩, 2000000000, 0, false⟩ ∧
      slowLine.service.queue.waiting = [⟨⟨0⟩, ⟨1⟩, 2000000000, 0, false⟩] ∧
      slowLine.service.statistics.completed = ⟨0, 0⟩ := by decide +kernel
  have atomic : ∀ s : Serving, Atomic (handleCompletion ⟨⟨0⟩, ⟨0⟩, 0, .aToB⟩) s := fun s =>
    (link_service_atomic s.service s.kernel ⟨⟨0⟩, ⟨2⟩, 64, 0, false⟩ _).2.1
  have throws : (match handleCompletion ⟨⟨0⟩, ⟨0⟩, 0, .aToB⟩ slowLine with
      | .ok _ _ => false
      | .error e _ => decide (e.origin ≠ .telemetry)) = true := by decide +kernel
  split at throws
  · cases throws
  · rename_i e s' thrown
    obtain ⟨service, live⟩ := atomic slowLine e s' thrown (of_decide_eq_true throws)
    refine ⟨e, s', thrown, ?_, ?_, ?_, live⟩
    all_goals rw [service]
    · exact state.1
    · exact state.2.1
    · exact state.2.2

end DirectedLinkService

end NexusLab.Transport
