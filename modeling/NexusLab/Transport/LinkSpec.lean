import NexusLab.Transport.Link
import Mathlib.Algebra.BigOperators.Group.List.Basic

/-! # What the link services do

One contract for each operation of a service: what it leaves in the queue, in the service and in
the kernel, and that it throws for a counter, for simulated time or for telemetry only. -/

namespace NexusLab.Transport

open Foundation Sim

/-! ## Traffic as a monoid -/

namespace TrafficCount

instance : Zero TrafficCount := ⟨{}⟩

instance : Add TrafficCount := ⟨fun a b => ⟨a.bytes + b.bytes, a.chunks + b.chunks⟩⟩

@[simp] theorem zero_bytes : (0 : TrafficCount).bytes = 0 := rfl
@[simp] theorem zero_chunks : (0 : TrafficCount).chunks = 0 := rfl
@[simp] theorem add_bytes (a b : TrafficCount) : (a + b).bytes = a.bytes + b.bytes := rfl
@[simp] theorem add_chunks (a b : TrafficCount) : (a + b).chunks = a.chunks + b.chunks := rfl

@[ext] theorem ext {a b : TrafficCount} (bytes : a.bytes = b.bytes) (chunks : a.chunks = b.chunks) :
    a = b := by
  cases a
  cases b
  cases bytes
  cases chunks
  rfl

instance : AddCommMonoid TrafficCount where
  add_assoc a b c := by ext <;> simp [Nat.add_assoc]
  zero_add a := by ext <;> simp
  add_zero a := by ext <;> simp
  add_comm a b := by ext <;> simp [Nat.add_comm]
  nsmul := nsmulRec

/-- Both counters fit in a word. -/
def Fits (a : TrafficCount) : Prop := a.bytes ≤ maxU64 ∧ a.chunks ≤ maxU64

theorem Fits.of_add_left {a b : TrafficCount} (fits : (a + b).Fits) : a.Fits := by
  obtain ⟨bytes, chunks⟩ := fits
  simp only [add_bytes, add_chunks] at bytes chunks
  exact ⟨by omega, by omega⟩

end TrafficCount

theorem addTraffic_of_fits {left right : TrafficCount} (fits : (left + right).Fits) :
    addTraffic left right = .ok (left + right) := by
  obtain ⟨bytes, chunks⟩ := fits
  simp only [TrafficCount.add_bytes, TrafficCount.add_chunks] at bytes chunks
  unfold addTraffic
  rw [if_neg (by omega)]
  rfl

theorem addTraffic_fits {left right total : TrafficCount} (ok : addTraffic left right = .ok total)
    (left_fits : left.Fits) : total = left + right ∧ total.Fits := by
  have same := addTraffic_ok ok
  unfold addTraffic at ok
  split at ok
  · cases ok
  · rename_i small
    obtain ⟨bytes, chunks⟩ := left_fits
    subst same
    exact ⟨rfl, ⟨by simp only; omega, by simp only; omega⟩⟩

/-! ## The queue -/

namespace DirectedLinkQueue

/-- Whether a chunk that has to wait is marked. -/
def marksNext (q : DirectedLinkQueue) (chunk : TransferChunk) : Bool :=
  q.marks (U64.add q.waitingBytes chunk.bytes)

/-- The queue with one more chunk waiting. -/
def enqueued (q : DirectedLinkQueue) (chunk : TransferChunk) : DirectedLinkQueue :=
  let waitingBytes := U64.add q.waitingBytes chunk.bytes
  let waiting := q.waiting ++ [{ chunk with marked := chunk.marked || q.marksNext chunk }]
  { q with
    waiting
    waitingBytes
    maximumWaitingBytes := max q.maximumWaitingBytes waitingBytes
    maximumWaitingChunks := max q.maximumWaitingChunks waiting.length }

/-- The queue after the first waiting chunk has gone into service. -/
def advanced (q : DirectedLinkQueue) (next : TransferChunk) (rest : List TransferChunk) :
    DirectedLinkQueue :=
  { q with
    active := some next
    waiting := rest
    waitingBytes := U64.sub q.waitingBytes next.bytes }

end DirectedLinkQueue

/-! ## The service -/

namespace DirectedLinkService

variable {s : Serving} {α : Type}

/-- The service in progress began in the past. -/
def BusySince (service : DirectedLinkService) (now : SimTimeNs) : Prop :=
  ∀ since, service.busySince = some since → since ≤ now

theorem statisticsAt_error {service : DirectedLinkService} {now : SimTimeNs} {e : Error}
    (past : service.BusySince now) (thrown : service.statisticsAt now = .error e) :
    Kernel.Excused e := by
  unfold statisticsAt at thrown
  cases busy : service.busySince with
  | none => simp [busy] at thrown
  | some since =>
    simp only [busy, checkedDifference_of_le (past since busy)] at thrown
    split at thrown
    · cases thrown
      exact Kernel.excused_overflow _
    · cases thrown

theorem wp_statisticsAt {σ : Type} {service : DirectedLinkService} {now : SimTimeNs} {t : σ}
    {Q : LinkStatistics → σ → Prop} {E : Error → σ → Prop} (past : service.BusySince now)
    (returns : ∀ statistics, Q statistics t) (throws : ∀ e, Kernel.Excused e → E e t) :
    wp (fromExcept (service.statisticsAt now)) Q E t := by
  rw [wp_fromExcept]
  constructor
  · intro statistics _
    exact returns statistics
  · intro e thrown
    exact throws e (statisticsAt_error past thrown)

theorem wp_addTraffic {σ : Type} {left right : TrafficCount} {t : σ}
    {Q : TrafficCount → σ → Prop} {E : Error → σ → Prop} (returns : ∀ total, Q total t)
    (throws : ∀ e, Kernel.Excused e → E e t) :
    wp (fromExcept (addTraffic left right)) Q E t := by
  rw [wp_fromExcept]
  constructor
  · intro total _
    exact returns total
  · intro e thrown
    exact throws e (addTraffic_error thrown)

/-- The completion event of a chunk that starts on a link. -/
def completionSpec (configuration : DirectedLinkConfiguration) (chunk : TransferChunk)
    (time : SimTimeNs) : EventSpec :=
  ⟨time, .control, .transmissionComplete ⟨configuration.link.link, chunk.id, chunk.hopIndex,
    configuration.link.direction⟩⟩

theorem wp_scheduleCompletion {chunk : TransferChunk} {Q : EventId → Serving → Prop}
    {E : Error → Serving → Prop} (valid : s.kernel.sim.Valid)
    (opened : s.kernel.sim.lifecycle ≠ .finished)
    (returns : ∀ time probe,
      completionTime chunk s.service.queue.configuration s.kernel.sim.now = .ok time →
      s.kernel.sim.eventIds.exhausted = false →
      Q (s.kernel.sim.eventFor (completionSpec s.service.queue.configuration chunk time)).id
        ⟨s.service, ⟨s.kernel.sim.scheduled
          (completionSpec s.service.queue.configuration chunk time), probe⟩⟩)
    (throws : ∀ e s', Kernel.Excused e → E e s') :
    wp (scheduleCompletion chunk) Q E s := by
  simp only [scheduleCompletion, wp_bind, wp_get, wp_fromExcept]
  constructor
  · intro time inTime
    rw [wp_zoom]
    apply Kernel.wp_schedule valid opened (completionTime_ok inTime)
    · intro remaining probe
      exact returns time probe inTime remaining
    · intro e k excused
      exact throws e _ excused
  · intro e thrown
    exact throws e _ (completionTime_error thrown)

/-- The traffic of one chunk. -/
def chunkTraffic (chunk : TransferChunk) : TrafficCount := ⟨chunk.bytes, 1⟩

/-- The counters after an admission, read off its result. -/
def countAdmission (statistics : LinkStatistics) (chunk : TransferChunk)
    (result : AdmissionResult) : LinkStatistics :=
  { statistics with
    enqueued := statistics.enqueued +
      if result.disposition ≠ .droppedBufferFull then chunkTraffic chunk else 0
    started := statistics.started +
      if result.disposition = .serviceStarted then chunkTraffic chunk else 0
    marked := statistics.marked + if result.markedHere then chunkTraffic chunk else 0
    droppedBufferFull := statistics.droppedBufferFull +
      if result.disposition = .droppedBufferFull then chunkTraffic chunk else 0 }

/-- The result that the service expects of its queue. -/
def expectedAdmission (service : DirectedLinkService) (chunk : TransferChunk) : AdmissionResult :=
  if service.queue.active = none then ⟨.serviceStarted, false⟩
  else if service.queue.overflows chunk.bytes = true then ⟨.droppedBufferFull, false⟩
  else ⟨.queued, service.queue.marksNext chunk⟩

/-- The counters that are computed in advance are those of the expected result. -/
theorem admissionStatistics_ok {service : DirectedLinkService} {chunk : TransferChunk}
    {next : LinkStatistics} (ok : service.admissionStatistics chunk = .ok next) :
    next = countAdmission service.statistics chunk (service.expectedAdmission chunk) := by
  have added : ∀ {left : TrafficCount} {f : TrafficCount → Except Error LinkStatistics},
      (addTraffic left (chunkTraffic chunk) >>= f) = .ok next →
        f (left + chunkTraffic chunk) = .ok next := by
    intro left f computed
    cases sum : addTraffic left (chunkTraffic chunk) with
    | error e =>
      rw [sum] at computed
      cases computed
    | ok total =>
      rw [sum] at computed
      rw [show left + chunkTraffic chunk = total from (addTraffic_ok sum).symm]
      exact computed
  unfold admissionStatistics at ok
  unfold countAdmission expectedAdmission
  by_cases idle : service.queue.active = none
  · simp only [idle, Option.isNone_none, Bool.true_eq_false, false_and, if_false, if_true] at ok ⊢
    have first := added ok
    have second := added first
    cases second
    simp
  · have busy : service.queue.active.isNone = false := by
      cases active : service.queue.active with
      | none => exact absurd active idle
      | some chunk => rfl
    simp only [busy, true_and, Bool.false_eq_true, if_false, if_neg idle] at ok ⊢
    by_cases full : service.queue.overflows chunk.bytes = true
    · rw [if_pos full] at ok ⊢
      have first := added ok
      cases first
      simp
    · rw [if_neg full] at ok ⊢
      have first := added ok
      by_cases marks : service.queue.marks (U64.add service.queue.waitingBytes chunk.bytes) = true
      · rw [if_pos marks] at first
        have second := added first
        cases second
        simp [DirectedLinkQueue.marksNext, marks]
      · rw [if_neg marks] at first
        cases first
        simp [DirectedLinkQueue.marksNext, marks]

theorem admissionStatistics_error {service : DirectedLinkService} {chunk : TransferChunk} {e : Error}
    (thrown : service.admissionStatistics chunk = .error e) : Kernel.Excused e := by
  have add_error : ∀ {left right : TrafficCount} {f : TrafficCount → Except Error LinkStatistics},
      (addTraffic left right >>= f) = .error e → (∀ total, f total = .error e → Kernel.Excused e) →
        Kernel.Excused e := by
    intro left right f failed rest
    cases sum : addTraffic left right with
    | error e' =>
      rw [sum] at failed
      cases failed
      exact addTraffic_error sum
    | ok total =>
      rw [sum] at failed
      exact rest total failed
  simp only [admissionStatistics] at thrown
  split at thrown
  · exact add_error thrown fun _ failed => by cases failed
  · apply add_error thrown
    intro enqueued failed
    split at failed
    · exact add_error failed fun _ failed => by cases failed
    · split at failed
      · exact add_error failed fun _ failed => by cases failed
      · cases failed

/-- What becomes of a chunk that is admitted: into service on an idle link, else to the end of the
waiting line or dropped. -/
theorem wp_admitChunk {chunk : TransferChunk} {Q : AdmissionResult → Serving → Prop}
    {E : Error → Serving → Prop} (nonzero : chunk.bytes ≠ 0) (valid : s.kernel.sim.Valid)
    (opened : s.kernel.sim.lifecycle ≠ .finished)
    (started : s.service.queue.active = none → ∀ time probe,
      completionTime chunk s.service.queue.configuration s.kernel.sim.now = .ok time →
      s.kernel.sim.eventIds.exhausted = false →
      Q ⟨.serviceStarted, false⟩
        ⟨{ s.service with
            queue := { s.service.queue with active := some chunk }
            statistics := countAdmission s.service.statistics chunk ⟨.serviceStarted, false⟩
            scheduledCompletion := some (s.kernel.sim.eventFor
              (completionSpec s.service.queue.configuration chunk time)).id
            busySince := some s.kernel.sim.now },
          ⟨s.kernel.sim.scheduled (completionSpec s.service.queue.configuration chunk time), probe⟩⟩)
    (queued : s.service.queue.active ≠ none → s.service.queue.overflows chunk.bytes = false →
      Q ⟨.queued, s.service.queue.marksNext chunk⟩
        ⟨{ s.service with
            queue := s.service.queue.enqueued chunk
            statistics := countAdmission s.service.statistics chunk
              ⟨.queued, s.service.queue.marksNext chunk⟩ }, s.kernel⟩)
    (dropped : s.service.queue.active ≠ none → s.service.queue.overflows chunk.bytes = true →
      Q ⟨.droppedBufferFull, false⟩
        ⟨{ s.service with
            statistics := countAdmission s.service.statistics chunk ⟨.droppedBufferFull, false⟩ },
          s.kernel⟩)
    (throws : ∀ e s', Kernel.Excused e → E e s') :
    wp (admitChunk chunk) Q E s := by
  simp only [admitChunk, wp_bind, wp_get, wp_throwIf, wp_fromExcept]
  refine ⟨fun zero => absurd zero nonzero, fun _ => ⟨fun time _ => ⟨fun statistics computed => ?_,
    ?_⟩, ?_⟩⟩
  -- the counters that were computed are those of the answer to come
  · have counted := admissionStatistics_ok computed
    unfold expectedAdmission at counted
    rw [wp_ite]
    constructor
    · intro idle
      rw [if_pos idle] at counted
      subst counted
      rw [wp_bind]
      -- the kernel may refuse the completion, before the queue has moved
      apply wp_scheduleCompletion valid opened _ throws
      intro time probe inTime remaining
      simp only [wp_bind, wp_zoom, DirectedLinkQueue.admitChunk, wp_throwIf, wp_get, wp_ite, wp_pure,
        wp_set, modifyService, wp_modify]
      refine ⟨fun zero => absurd zero nonzero, fun _ => ⟨fun _ => ?_, fun busy => absurd idle busy⟩⟩
      exact started idle time probe inTime remaining
    · intro busy
      rw [if_neg busy] at counted
      simp only [wp_bind, wp_zoom, DirectedLinkQueue.admitChunk, wp_throwIf, wp_get, wp_ite, wp_pure,
        wp_set, modifyService, wp_modify]
      refine ⟨fun zero => absurd zero nonzero, fun _ => ⟨fun idle => absurd idle busy, fun _ => ?_⟩⟩
      constructor
      · intro (full : s.service.queue.overflows chunk.bytes = true)
        rw [if_pos full] at counted
        exact counted ▸ dropped busy full
      · intro (fits : ¬ s.service.queue.overflows chunk.bytes = true)
        rw [if_neg fits] at counted
        exact counted ▸ queued busy (Bool.eq_false_of_not_eq_true fits)
  · intro e thrown
    exact throws e _ (admissionStatistics_error thrown)
  · intro e thrown
    exact throws e _ (completionTime_error thrown)

theorem wp_recordLinkDown {chunk : TransferChunk} {Q : Unit → Serving → Prop}
    {E : Error → Serving → Prop}
    (returns : ∀ statistics, Q () ⟨{ s.service with statistics }, s.kernel⟩)
    (throws : ∀ e s', Kernel.Excused e → E e s') :
    wp (recordLinkDown chunk) Q E s := by
  simp only [recordLinkDown, wp_bind, wp_get, modifyService, wp_modify]
  exact wp_addTraffic (fun _ => returns _) (fun e excused => throws e _ excused)

/-- The chunk in service leaves; the next one in line, if any, takes its place. -/
theorem wp_handleCompletion {event : TransmissionCompleteEvent} {current : Event}
    {active : TransferChunk} {Q : ServiceTransition → Serving → Prop} {E : Error → Serving → Prop}
    (valid : s.kernel.sim.Valid) (opened : s.kernel.sim.lifecycle ≠ .finished)
    (dispatched : s.kernel.sim.currentEvent = some current)
    (expected : s.service.scheduledCompletion = some current.id)
    (inService : s.service.queue.active = some active)
    (same : event = ⟨s.service.queue.configuration.link.link, active.id, active.hopIndex,
      s.service.queue.configuration.link.direction⟩)
    (past : s.service.BusySince s.kernel.sim.now)
    (emptied : s.service.queue.waiting = [] → ∀ statistics,
      Q ⟨active, none⟩ ⟨{ s.service with
        queue := { s.service.queue with active := none, waiting := [] }
        statistics
        scheduledCompletion := none
        busySince := none }, s.kernel⟩)
    (advanced : ∀ next rest, s.service.queue.waiting = next :: rest →
      ∀ time statistics probe,
      completionTime next s.service.queue.configuration s.kernel.sim.now = .ok time →
      s.kernel.sim.eventIds.exhausted = false →
      Q ⟨active, some next⟩
        ⟨{ s.service with
            queue := s.service.queue.advanced next rest
            statistics
            scheduledCompletion := some (s.kernel.sim.eventFor
              (completionSpec s.service.queue.configuration next time)).id
            busySince := some s.kernel.sim.now },
          ⟨s.kernel.sim.scheduled (completionSpec s.service.queue.configuration next time), probe⟩⟩)
    (throws : ∀ e s', Kernel.Excused e → E e s') :
    wp (handleCompletion event) Q E s := by
  simp only [handleCompletion, wp_bind, wp_get, wp_throwIf]
  -- each check passes, since the completion is the expected one
  refine ⟨fun absent => by simp [expected] at absent, fun _ => ?_⟩
  rw [wp_zoom]
  apply Kernel.wp_currentEventId dispatched
  refine ⟨fun differs => absurd expected differs, fun _ => ?_⟩
  simp only [Serving.kernelLens, wp_getOrThrow, inService, Option.some.injEq]
  refine ⟨?_, fun absent => by simp at absent⟩
  intro chunk isActive
  subst isActive
  refine ⟨fun differs => by simp [same] at differs, fun _ => ?_⟩
  apply wp_statisticsAt past _ (fun e excused => throws e _ excused)
  intro statistics
  apply wp_addTraffic _ (fun e excused => throws e _ excused)
  intro completed
  simp only [startWaiting, wp_bind, wp_get, DirectedLinkQueue.nextWaiting]
  -- whether a chunk is in line
  cases waiting : s.service.queue.waiting with
  | nil =>
    simp only [List.head?_nil, wp_pure, DirectedLinkQueue.completeService, inService, waiting,
      modifyService, wp_modify]
    refine ⟨?_, fun absent => by simp at absent⟩
    intro transition isTransition
    cases isTransition
    exact emptied waiting _
  | cons next rest =>
    simp only [List.head?_cons, wp_bind]
    apply wp_addTraffic _ (fun e excused => throws e _ excused)
    intro startedTraffic
    apply wp_scheduleCompletion valid opened _ throws
    intro time probe inTime remaining
    simp only [wp_pure, DirectedLinkQueue.completeService, inService, waiting, modifyService,
      wp_modify]
    refine ⟨?_, fun absent => by simp at absent⟩
    intro transition isTransition
    cases isTransition
    exact advanced next rest waiting time _ probe inTime remaining

theorem heldTraffic_error {service : DirectedLinkService} {e : Error}
    (thrown : service.heldTraffic = .error e) : Kernel.Excused e := by
  unfold heldTraffic at thrown
  split at thrown
  · cases thrown
  · exact addTraffic_error thrown

/-- What is left of a service that is emptied. -/
def emptied (service : DirectedLinkService) (statistics : LinkStatistics) : DirectedLinkService :=
  { service with
    queue := service.queue.drain.2
    scheduledCompletion := none
    busySince := none
    statistics }

/-- The service gives up all it holds and takes back its completion event. -/
theorem wp_reconcileDown {Q : QueueDrain → Serving → Prop} {E : Error → Serving → Prop}
    (valid : s.kernel.sim.Valid) (opened : s.kernel.sim.lifecycle ≠ .finished)
    (past : s.service.BusySince s.kernel.sim.now)
    (idle : s.service.scheduledCompletion = none → ∀ statistics,
      Q ⟨s.service.queue.active, s.service.queue.waiting⟩
        ⟨s.service.emptied statistics, s.kernel⟩)
    (busy : ∀ id, s.service.scheduledCompletion = some id →
      ∃ event, event.id = id ∧ s.kernel.sim.Live event ∧ ∀ statistics probe,
        Q ⟨s.service.queue.active, s.service.queue.waiting⟩
          ⟨s.service.emptied statistics, ⟨s.kernel.sim.cancelled id, probe⟩⟩)
    (throws : ∀ e s', Kernel.Excused e → E e s') :
    wp reconcileDown Q E s := by
  simp only [reconcileDown, wp_bind, wp_get]
  apply wp_statisticsAt past _ (fun e excused => throws e _ excused)
  intro statistics
  rw [wp_fromExcept]
  refine ⟨fun held _ => ?_, fun e thrown => throws e _ (heldTraffic_error thrown)⟩
  apply wp_addTraffic _ (fun e excused => throws e _ excused)
  intro droppedLinkDown
  cases scheduled : s.service.scheduledCompletion with
  | none =>
    simp only [modifyService]
    exact idle scheduled _
  | some id =>
    obtain ⟨event, isEvent, live, returns⟩ := busy id scheduled
    simp only [cancelCompletion, wp_bind, wp_zoom]
    apply Kernel.wp_cancel opened valid live isEvent _ (fun e _ excused => throws e _ excused)
    intro probe
    simp only [wp_throwIf, modifyService, wp_modify, wp_pure]
    refine ⟨fun refused => by simp at refused, fun _ => ?_⟩
    exact returns _ probe

end DirectedLinkService

end NexusLab.Transport
