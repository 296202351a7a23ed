import NexusLab.Sim.DispatchOrder

/-! # What a trace says

A trace is in order when every record may follow those before it.  `Traced` ties the records
written so far to the state of the kernel, and each change of the state keeps it together with
the record that reports it. -/

namespace NexusLab.Sim

open Foundation

/-! ## Lists that grow at the end -/

section EachAfter

variable {α : Type} {P : List α → α → Prop}

/-- Each element may follow those before it. -/
def EachAfter (P : List α → α → Prop) (l : List α) : Prop :=
  ∀ before a after, l = before ++ a :: after → P before a

theorem eachAfter_nil : EachAfter P [] := by
  intro before a after split
  simp at split

theorem EachAfter.concat {l : List α} {a : α} (h : EachAfter P l) (last : P l a) :
    EachAfter P (l ++ [a]) := by
  intro before b after split
  rcases List.eq_nil_or_concat after with rfl | ⟨front, c, rfl⟩
  · obtain ⟨rfl, same⟩ := List.append_inj' split rfl
    cases same
    exact last
  · rw [List.concat_eq_append, ← List.cons_append, ← List.append_assoc] at split
    exact h before b front (List.append_inj' split rfl).1

theorem EachAfter.front {l : List α} {a : α} (h : EachAfter P (l ++ [a])) : EachAfter P l := by
  intro before b after split
  exact h before b (after ++ [a]) (by rw [split, List.append_assoc, List.cons_append])

theorem EachAfter.last {l : List α} {a : α} (h : EachAfter P (l ++ [a])) : P l a := h l a [] rfl

theorem EachAfter.of_mem {l : List α} (h : EachAfter P l) {a : α} (member : a ∈ l) :
    ∃ before, P before a := by
  obtain ⟨before, after, split⟩ := List.append_of_mem member
  exact ⟨before, h before a after split⟩

theorem EachAfter.pairwise {R : α → α → Prop} {l : List α} (h : EachAfter P l)
    (related : ∀ before a, P before a → ∀ b ∈ before, R b a) : l.Pairwise R := by
  induction l using List.reverseRecOn with
  | nil => exact .nil
  | append_singleton l a ih =>
    refine List.pairwise_append.mpr ⟨ih h.front, List.pairwise_singleton _ _, ?_⟩
    intro b member c single
    rw [List.mem_singleton.mp single]
    exact related l a h.last b member

end EachAfter

/-! ## Reading a trace -/

/-- Whether the record ends a trace. -/
def TraceRecord.Terminal (record : TraceRecord) : Prop :=
  record.action = .completed ∨ record.action = .failed

def TraceRecord.idFor (action : TraceAction) (record : TraceRecord) : Option EventId :=
  if record.action = action then record.eventId else none

/-- The events that a trace records this action for. -/
def recordedIds (action : TraceAction) (records : List TraceRecord) : List EventId :=
  records.filterMap (TraceRecord.idFor action)

@[simp] theorem recordedIds_nil (action : TraceAction) : recordedIds action [] = [] := rfl

theorem recordedIds_concat (action : TraceAction) (records : List TraceRecord)
    (record : TraceRecord) :
    recordedIds action (records ++ [record]) =
      recordedIds action records ++ (record.idFor action).toList := by
  simp only [recordedIds, List.filterMap_append, List.filterMap_cons, List.filterMap_nil]
  cases record.idFor action <;> rfl

theorem recordedIds_concat_self {action : TraceAction} {record : TraceRecord} {id : EventId}
    (same : record.action = action) (named : record.eventId = some id)
    (records : List TraceRecord) :
    recordedIds action (records ++ [record]) = recordedIds action records ++ [id] := by
  simp [recordedIds_concat, TraceRecord.idFor, same, named]

theorem recordedIds_concat_of_ne {action : TraceAction} {record : TraceRecord}
    (differs : record.action ≠ action) (records : List TraceRecord) :
    recordedIds action (records ++ [record]) = recordedIds action records := by
  simp [recordedIds_concat, TraceRecord.idFor, differs]

/-- How often a trace records an action. -/
def recordCount (action : TraceAction) (records : List TraceRecord) : Nat :=
  records.countP (·.action = action)

theorem recordCount_concat_of_ne {action : TraceAction} {record : TraceRecord}
    (differs : record.action ≠ action) (records : List TraceRecord) :
    recordCount action (records ++ [record]) = recordCount action records := by
  simp [recordCount, List.countP_append, differs]

theorem recordCount_eq_length {action : TraceAction} {records : List TraceRecord}
    (named : ∀ record ∈ records, record.action = action → record.eventId.isSome = true) :
    recordCount action records = (recordedIds action records).length := by
  induction records with
  | nil => rfl
  | cons record records ih =>
    have rest := ih fun other member => named other (List.mem_cons_of_mem _ member)
    simp only [recordCount, recordedIds] at rest ⊢
    by_cases same : record.action = action
    · obtain ⟨id, known⟩ := Option.isSome_iff_exists.mp (named record List.mem_cons_self same)
      simp [TraceRecord.idFor, same, known, rest]
    · simp [TraceRecord.idFor, same, rest]

/-- What may be recorded after the records `before`. -/
structure Follows (before : List TraceRecord) (record : TraceRecord) : Prop where
  clock : ∀ earlier ∈ before, earlier.recordedAt ≤ record.recordedAt
  opened : ∀ earlier ∈ before, ¬ earlier.Terminal
  scheduled : record.action = .scheduled → ∃ id, record.eventId = some id ∧
    id ∉ recordedIds .scheduled before ∧ record.cause = (recordedIds .dispatched before).getLast? ∧
    ∀ cause, record.cause = some cause → cause.value < id.value
  named : record.action = .dispatched ∨ record.action = .cancelled →
    record.eventId.isSome = true
  known : record.action ≠ .scheduled → ∀ id, record.eventId = some id →
    id ∈ recordedIds .scheduled before
  stopped : record.action = .stopRequested → recordCount .stopRequested before = 0

theorem EachAfter.scheduled_nodup {records : List TraceRecord} (h : EachAfter Follows records) :
    (recordedIds .scheduled records).Nodup := by
  induction records using List.reverseRecOn with
  | nil => exact List.nodup_nil
  | append_singleton records record ih =>
    by_cases scheduled : record.action = .scheduled
    · obtain ⟨id, named, fresh, _⟩ := h.last.scheduled scheduled
      rw [recordedIds_concat_self scheduled named]
      refine List.nodup_append.mpr ⟨ih h.front, List.nodup_singleton _, ?_⟩
      intro other member single isSingle same
      rw [List.mem_singleton.mp isSingle] at same
      exact fresh (same ▸ member)
    · rw [recordedIds_concat_of_ne scheduled]
      exact ih h.front

/-- `a` is the recorded cause of `b`. -/
def Causes (records : List TraceRecord) (a b : EventId) : Prop :=
  ∃ record ∈ records, record.action = .scheduled ∧ record.cause = some a ∧ record.eventId = some b

/-- A trace in order: every event is scheduled once and first, then dispatched or cancelled at most
once, and the cause of a scheduled event is the last event dispatched before. -/
structure TraceFormed (records : List TraceRecord) : Prop where
  ordered : records.Pairwise fun a b => a.recordedAt ≤ b.recordedAt
  named : ∀ record ∈ records,
    record.action = .scheduled ∨ record.action = .dispatched ∨ record.action = .cancelled →
    record.eventId.isSome = true
  scheduled_once : (recordedIds .scheduled records).Nodup
  scheduled_first : ∀ before record after, records = before ++ record :: after →
    record.action ≠ .scheduled → ∀ id, record.eventId = some id →
    id ∈ recordedIds .scheduled before
  settled_once : (recordedIds .dispatched records ++ recordedIds .cancelled records).Nodup
  caused : ∀ before record after, records = before ++ record :: after →
    record.action = .scheduled → record.cause = (recordedIds .dispatched before).getLast?
  cause_lt : ∀ cause id, Causes records cause id → cause.value < id.value
  acyclic : ∀ id, ¬ Relation.TransGen (Causes records) id id

theorem EachAfter.cause_lt {records : List TraceRecord} (h : EachAfter Follows records)
    {cause id : EventId} (causes : Causes records cause id) : cause.value < id.value := by
  obtain ⟨record, member, scheduled, isCause, isId⟩ := causes
  obtain ⟨before, follows⟩ := h.of_mem member
  obtain ⟨other, named, _, _, lt⟩ := follows.scheduled scheduled
  rw [isId] at named
  cases named
  exact lt cause isCause

theorem EachAfter.traceFormed {records : List TraceRecord} (h : EachAfter Follows records)
    (settled : (recordedIds .dispatched records ++ recordedIds .cancelled records).Nodup) :
    TraceFormed records where
  ordered := h.pairwise fun _ _ follows => follows.clock
  named := by
    intro record member action
    obtain ⟨before, follows⟩ := h.of_mem member
    rcases action with scheduled | settled
    · obtain ⟨id, named, _⟩ := follows.scheduled scheduled
      rw [named]
      rfl
    · exact follows.named settled
  scheduled_once := h.scheduled_nodup
  scheduled_first := fun before record after split => (h before record after split).known
  settled_once := settled
  caused := by
    intro before record after split scheduled
    obtain ⟨_, _, _, cause, _⟩ := (h before record after split).scheduled scheduled
    exact cause
  cause_lt := fun _ _ => h.cause_lt
  acyclic := by
    intro id cycle
    have lt : ∀ other, Relation.TransGen (Causes records) id other → id.value < other.value := by
      intro other path
      induction path with
      | single step => exact h.cause_lt step
      | tail _ step ih => exact ih.trans (h.cause_lt step)
    exact lt_irrefl _ (lt id cycle)

/-- The trace ends with this action, and no earlier record is terminal. -/
def EndsWith (action : TraceAction) (records : List TraceRecord) : Prop :=
  ∃ front last, records = front ++ [last] ∧ last.action = action ∧
    ∀ record ∈ front, ¬ record.Terminal

/-- What a trace and the result of its run say about each other. -/
structure TraceReport (records : List TraceRecord) (result : SimulationResult) : Prop where
  scheduled : recordCount .scheduled records =
    result.dispatchedEvents + result.cancelledEvents + result.pendingEvents
  dispatched : recordCount .dispatched records = result.dispatchedEvents
  cancelled : recordCount .cancelled records = result.cancelledEvents
  completed : result.status = .completed → EndsWith .completed records
  failed : result.status = .failed → EndsWith .failed records
  stopped : result.status = .stopped →
    (∀ record ∈ records, ¬ record.Terminal) ∧ recordCount .stopRequested records = 1

/-! ## The trace and the kernel -/

/-- What the kernel records about an event. -/
def eventRecord (action : TraceAction) (now : SimTimeNs) (metadata : EventTraceMetadata)
    (stopReason : Option StopReason) : TraceRecord :=
  ⟨action, now, some metadata.id, metadata.cause, some metadata.timestamp,
    some metadata.priority, some metadata.payloadKind, stopReason, none⟩

section EventRecord

variable {action other : TraceAction} {now : SimTimeNs} {metadata : EventTraceMetadata}
  {stopReason : Option StopReason} {records : List TraceRecord}

theorem recordedIds_event :
    recordedIds action (records ++ [eventRecord action now metadata stopReason]) =
      recordedIds action records ++ [metadata.id] :=
  recordedIds_concat_self
    (show (eventRecord action now metadata stopReason).action = action from rfl) rfl _

theorem recordedIds_event_of_ne (differs : action ≠ other) :
    recordedIds other (records ++ [eventRecord action now metadata stopReason]) =
      recordedIds other records := recordedIds_concat_of_ne differs _

theorem recordCount_event :
    recordCount action (records ++ [eventRecord action now metadata stopReason]) =
      recordCount action records + 1 := by
  simp [recordCount, List.countP_append, eventRecord]

theorem recordCount_event_of_ne (differs : action ≠ other) :
    recordCount other (records ++ [eventRecord action now metadata stopReason]) =
      recordCount other records := recordCount_concat_of_ne differs _

end EventRecord

/-- What the kernel's state says about the records so far.  Every scheduled event is dispatched,
cancelled or still live, and the metadata kept are those of the pending events. -/
structure Traced (sim : Simulation) (records : List TraceRecord)
    (metadata : OrderedMap EventId EventTraceMetadata) : Prop where
  valid : sim.Valid
  described : ∀ id, id ∈ sim.pendingIds ↔ ∃ known, metadata.find? id = some known
  named : ∀ id known, metadata.find? id = some known → known.id = id
  formed : EachAfter Follows records
  clock : ∀ record ∈ records, record.recordedAt ≤ sim.now
  opened : ∀ record ∈ records, ¬ record.Terminal
  account : (recordedIds .scheduled records : Multiset EventId) =
    recordedIds .dispatched records + recordedIds .cancelled records +
      (sim.pendingIds \ sim.cancelledIds).val
  issued : ∀ id ∈ recordedIds .scheduled records, sim.eventIds.Issued id.value
  dispatched_count : sim.dispatchedEvents = (recordedIds .dispatched records).length
  cancelled_count : sim.cancelledEvents = (recordedIds .cancelled records).length
  stop_count : recordCount .stopRequested records = if sim.stopReason.isSome then 1 else 0
  current : ∀ event, sim.currentEvent = some event →
    (recordedIds .dispatched records).getLast? = some event.id

namespace Traced

variable {sim : Simulation} {records : List TraceRecord}
  {metadata : OrderedMap EventId EventTraceMetadata}

theorem initial (rng : DeterministicRng) : Traced { rng } [] .empty := by
  refine ⟨⟨?_, ?_, ?_, ?_, ?_, ?_⟩, ?_, ?_, eachAfter_nil, ?_, ?_, ?_, ?_, ?_, ?_, ?_, ?_⟩
  all_goals simp [EventQueue.empty, recordCount]

theorem mem_scheduled_of_live (h : Traced sim records metadata) {id : EventId}
    (pending : id ∈ sim.pendingIds) (notCancelled : id ∉ sim.cancelledIds) :
    id ∈ recordedIds .scheduled records := by
  have member : id ∈ (sim.pendingIds \ sim.cancelledIds).val :=
    Finset.mem_sdiff.mpr ⟨pending, notCancelled⟩
  rw [← Multiset.mem_coe, h.account]
  exact Multiset.mem_add.mpr (.inr member)

theorem mem_scheduled_of_dispatched (h : Traced sim records metadata) {id : EventId}
    (dispatched : id ∈ recordedIds .dispatched records) : id ∈ recordedIds .scheduled records := by
  rw [← Multiset.mem_coe, h.account]
  exact Multiset.mem_add.mpr (.inl (Multiset.mem_add.mpr (.inl dispatched)))

/-- No event is dispatched or cancelled twice, or both. -/
theorem settled_nodup (h : Traced sim records metadata) :
    (recordedIds .dispatched records ++ recordedIds .cancelled records).Nodup := by
  have nodup : (recordedIds .scheduled records : Multiset EventId).Nodup := h.formed.scheduled_nodup
  rw [h.account] at nodup
  exact Multiset.coe_nodup.mp (Multiset.nodup_add.mp nodup).1

/-- Appending to a trace whose records are all in the past and not terminal. -/
theorem clock_concat (h : Traced sim records metadata) {action : TraceAction}
    {known : EventTraceMetadata} {reason : Option StopReason} :
    ∀ record ∈ records ++ [eventRecord action sim.now known reason],
      record.recordedAt ≤ sim.now := by
  intro record member
  rcases List.mem_append.mp member with member | single
  · exact h.clock record member
  · rw [List.mem_singleton.mp single]
    exact le_refl sim.now

theorem opened_concat (h : Traced sim records metadata) {action : TraceAction} {now : SimTimeNs}
    {known : EventTraceMetadata} {reason : Option StopReason}
    (goesOn : action ≠ .completed ∧ action ≠ .failed) :
    ∀ record ∈ records ++ [eventRecord action now known reason], ¬ record.Terminal := by
  intro record member
  rcases List.mem_append.mp member with member | single
  · exact h.opened record member
  · rw [List.mem_singleton.mp single]
    exact not_or.mpr goesOn

/-- Scheduling an event while the current event is the last one dispatched. -/
theorem scheduled (h : Traced sim records metadata) (remaining : sim.eventIds.exhausted = false)
    {specification : EventSpec} (future : sim.now ≤ specification.timestamp)
    (cause : sim.currentEvent.map Event.id = (recordedIds .dispatched records).getLast?) :
    Traced (sim.scheduled specification)
      (records ++ [eventRecord .scheduled sim.now
        (eventTraceMetadata (sim.eventFor specification)) none])
      (metadata.insert (sim.eventFor specification).id
        (eventTraceMetadata (sim.eventFor specification))) := by
  have notIssued := Simulation.not_issued_next remaining
  have fresh : (sim.eventFor specification).id ∉ sim.pendingIds :=
    h.valid.not_pending_of_not_issued notIssued
  refine ⟨h.valid.scheduled remaining future, ?_, ?_, h.formed.concat ?_, h.clock_concat,
    h.opened_concat (by decide), ?_, ?_, ?_, ?_, ?_, ?_⟩
  · intro id
    rw [OrderedMap.find?_insert]
    split
    · rename_i same
      subst same
      simp [Simulation.scheduled]
    · rename_i differs
      simp [Simulation.scheduled, differs, h.described]
  · intro id known found
    rw [OrderedMap.find?_insert] at found
    split at found
    · rename_i same
      cases found
      exact same.symm
    · exact h.named id known found
  · refine ⟨h.clock, h.opened, fun _ => ⟨_, rfl, ?_, cause, ?_⟩, fun _ => rfl,
      fun impossible => absurd rfl impossible, by rintro ⟨⟩⟩
    · exact fun member => notIssued (h.issued _ member)
    · intro earlier isCause
      -- what was dispatched was scheduled before, and the generator only counts up
      have dispatched : earlier ∈ recordedIds .dispatched records :=
        List.mem_of_getLast? (cause.symm.trans isCause)
      rcases h.issued _ (h.mem_scheduled_of_dispatched dispatched) with lt | exhausted
      · exact lt
      · rw [remaining] at exhausted; cases exhausted
  · have live : (sim.scheduled specification).pendingIds \
          (sim.scheduled specification).cancelledIds =
        insert (sim.eventFor specification).id (sim.pendingIds \ sim.cancelledIds) :=
      Finset.insert_sdiff_of_notMem _ fun cancelled => fresh (h.valid.cancelled_subset cancelled)
    rw [live, Finset.insert_val_of_notMem fun member => fresh (Finset.mem_sdiff.mp member).1,
      recordedIds_event, recordedIds_event_of_ne (by decide), recordedIds_event_of_ne (by decide),
      ← Multiset.coe_add, h.account, Multiset.add_cons, add_comm, Multiset.coe_singleton,
      Multiset.singleton_add]
    rfl
  · intro id member
    rw [recordedIds_event] at member
    rcases List.mem_append.mp member with member | single
    · exact Simulation.issued_advanced (h.issued id member)
    · rw [List.mem_singleton.mp single]
      exact Simulation.issued_advanced_next
  · rw [recordedIds_event_of_ne (by decide)]
    exact h.dispatched_count
  · rw [recordedIds_event_of_ne (by decide)]
    exact h.cancelled_count
  · rw [recordCount_event_of_ne (by decide)]
    exact h.stop_count
  · rw [recordedIds_event_of_ne (by decide)]
    exact h.current

/-- Cancelling a live event. -/
theorem cancelled (h : Traced sim records metadata) {known : EventTraceMetadata}
    (pending : known.id ∈ sim.pendingIds) (notCancelled : known.id ∉ sim.cancelledIds) :
    Traced (sim.cancelled known.id) (records ++ [eventRecord .cancelled sim.now known none])
      metadata := by
  refine ⟨h.valid.cancelled pending, h.described, h.named, h.formed.concat ?_, h.clock_concat,
    h.opened_concat (by decide), ?_, ?_, ?_, ?_, ?_, ?_⟩
  · refine ⟨h.clock, h.opened, by rintro ⟨⟩, fun _ => rfl, fun _ id isId => ?_, by rintro ⟨⟩⟩
    cases isId
    exact h.mem_scheduled_of_live pending notCancelled
  · have live : (sim.cancelled known.id).pendingIds \ (sim.cancelled known.id).cancelledIds =
        (sim.pendingIds \ sim.cancelledIds).erase known.id := Finset.sdiff_insert _ _ _
    have member : known.id ∈ (sim.pendingIds \ sim.cancelledIds).val :=
      Finset.mem_sdiff.mpr ⟨pending, notCancelled⟩
    rw [live, Finset.erase_val, recordedIds_event_of_ne (by decide),
      recordedIds_event_of_ne (by decide), recordedIds_event, ← Multiset.coe_add, h.account,
      add_assoc, add_assoc, add_assoc, Multiset.coe_singleton, Multiset.singleton_add,
      Multiset.cons_erase member]
  · rw [recordedIds_event_of_ne (by decide)]
    exact h.issued
  · rw [recordedIds_event_of_ne (by decide)]
    exact h.dispatched_count
  · rw [recordedIds_event, List.length_append, ← h.cancelled_count]
    rfl
  · rw [recordCount_event_of_ne (by decide)]
    exact h.stop_count
  · rw [recordedIds_event_of_ne (by decide)]
    exact h.current

/-- The first request to stop. -/
theorem stopped (h : Traced sim records metadata) {event : Event} (reason : StopReason)
    (current : sim.currentEvent = some event) (unset : sim.stopReason = none) :
    Traced { sim with stopReason := some reason }
      (records ++ [eventRecord .stopRequested sim.now (eventTraceMetadata event) (some reason)])
      metadata := by
  have none_before : recordCount .stopRequested records = 0 := by rw [h.stop_count, unset]; rfl
  refine ⟨⟨h.valid.pending, h.valid.unique, h.valid.cancelled_subset, h.valid.future,
    h.valid.issued, h.valid.current⟩, h.described, h.named, h.formed.concat ?_, h.clock_concat,
    h.opened_concat (by decide), ?_, ?_, ?_, ?_, ?_, ?_⟩
  · refine ⟨h.clock, h.opened, by rintro ⟨⟩, fun _ => rfl, fun _ id isId => ?_,
      fun _ => none_before⟩
    cases isId
    exact h.mem_scheduled_of_dispatched (List.mem_of_getLast? (h.current event current))
  · simp only [recordedIds_event_of_ne (show TraceAction.stopRequested ≠ .scheduled by decide),
      recordedIds_event_of_ne (show TraceAction.stopRequested ≠ .dispatched by decide),
      recordedIds_event_of_ne (show TraceAction.stopRequested ≠ .cancelled by decide)]
    exact h.account
  · rw [recordedIds_event_of_ne (by decide)]
    exact h.issued
  · rw [recordedIds_event_of_ne (by decide)]
    exact h.dispatched_count
  · rw [recordedIds_event_of_ne (by decide)]
    exact h.cancelled_count
  · rw [recordCount_event, none_before]
    rfl
  · rw [recordedIds_event_of_ne (by decide)]
    exact h.current

theorem described_erase (h : Traced sim records metadata) (erased id : EventId) :
    id ∈ sim.pendingIds.erase erased ↔ ∃ known, (metadata.erase erased).find? id = some known := by
  rw [OrderedMap.find?_erase, Finset.mem_erase]
  split
  · rename_i same
    simp [same]
  · rename_i differs
    simp [differs, h.described]

theorem named_erase (h : Traced sim records metadata) (erased id : EventId)
    (known : EventTraceMetadata) (found : (metadata.erase erased).find? id = some known) :
    known.id = id := by
  rw [OrderedMap.find?_erase] at found
  split at found
  · cases found
  · exact h.named id known found

/-- Dropping a cancelled event that has come up. -/
theorem dropped (h : Traced sim records metadata) {event : Event} {rest : EventQueue}
    (popped : sim.eventQueue.events = event :: rest.events)
    (cancelled : event.id ∈ sim.cancelledIds) :
    Traced (Kernel.popEvent event rest sim) records (metadata.erase event.id) := by
  refine ⟨h.valid.popEvent popped, h.described_erase event.id, h.named_erase event.id, h.formed,
    h.clock, h.opened, ?_, h.issued, h.dispatched_count, h.cancelled_count, h.stop_count,
    h.current⟩
  have live : sim.pendingIds.erase event.id \ sim.cancelledIds.erase event.id =
      sim.pendingIds \ sim.cancelledIds := by
    ext id
    simp only [Finset.mem_sdiff, Finset.mem_erase]
    by_cases same : id = event.id
    · simp [same, cancelled]
    · simp [same]
  exact h.account.trans (by rw [← live]; rfl)

/-- Dispatching a live event that has come up. -/
theorem dispatched (h : Traced sim records metadata) {event : Event} {rest : EventQueue}
    (popped : sim.eventQueue.events = event :: rest.events)
    (notCancelled : event.id ∉ sim.cancelledIds) :
    Traced ((Kernel.popEvent event rest sim).dispatching event)
      (records ++ [eventRecord .dispatched event.timestamp (eventTraceMetadata event) none])
      (metadata.erase event.id) := by
  have queued : event ∈ sim.eventQueue.events := popped ▸ List.mem_cons_self
  have future : sim.now ≤ event.timestamp := h.valid.future event queued
  -- time does not go back, so the records before are no later
  have later : ∀ record ∈ records, record.recordedAt ≤ event.timestamp :=
    fun record member => le_trans (h.clock record member) future
  have taken : Kernel.Taken sim event (Kernel.requeued sim rest (sim.pendingIds.erase event.id)
      (sim.cancelledIds.erase event.id)) := Kernel.taken_of_pop h.valid popped notCancelled
  refine ⟨(taken.started h.valid).valid, h.described_erase event.id, h.named_erase event.id,
    h.formed.concat ?_, ?_, h.opened_concat (by decide), ?_, ?_, ?_, ?_, ?_, ?_⟩
  · refine ⟨later, h.opened, by rintro ⟨⟩, fun _ => rfl, fun _ id isId => ?_, by rintro ⟨⟩⟩
    cases isId
    exact h.mem_scheduled_of_live (h.valid.mem_pending queued) notCancelled
  · intro record member
    rcases List.mem_append.mp member with member | single
    · exact later record member
    · rw [List.mem_singleton.mp single]
      exact le_refl event.timestamp
  -- the identifier moves from the pending ones to the dispatched ones
  · have live : sim.pendingIds.erase event.id \ sim.cancelledIds.erase event.id =
        (sim.pendingIds \ sim.cancelledIds).erase event.id := by
      ext id
      simp only [Finset.mem_sdiff, Finset.mem_erase]
      by_cases same : id = event.id
      · simp [same]
      · simp [same]
    have member : event.id ∈ (sim.pendingIds \ sim.cancelledIds).val :=
      Finset.mem_sdiff.mpr ⟨h.valid.mem_pending queued, notCancelled⟩
    show _ = _ + (sim.pendingIds.erase event.id \ sim.cancelledIds.erase event.id).val
    rw [live, Finset.erase_val, recordedIds_event_of_ne (by decide), recordedIds_event,
      recordedIds_event_of_ne (by decide), ← Multiset.coe_add, h.account,
      ← Multiset.cons_erase member, Multiset.erase_cons_head, Multiset.add_cons,
      Multiset.coe_singleton, add_comm (_ : Multiset EventId) {(eventTraceMetadata event).id},
      ← Multiset.singleton_add]
    simp only [add_assoc]
    rfl
  · rw [recordedIds_event_of_ne (by decide)]
    exact h.issued
  · rw [recordedIds_event, List.length_append, ← h.dispatched_count]
    rfl
  · rw [recordedIds_event_of_ne (by decide)]
    exact h.cancelled_count
  · rw [recordCount_event_of_ne (by decide)]
    exact h.stop_count
  · rintro other isCurrent
    cases isCurrent
    rw [recordedIds_event, List.getLast?_concat]
    rfl

/-- How many events the trace and the state count. -/
theorem counts (h : Traced sim records metadata) :
    recordCount .scheduled records = sim.dispatchedEvents + sim.cancelledEvents +
        (sim.pendingIds.card - sim.cancelledIds.card) ∧
      recordCount .dispatched records = sim.dispatchedEvents ∧
      recordCount .cancelled records = sim.cancelledEvents := by
  have formed := h.formed.traceFormed h.settled_nodup
  have lengths := congrArg Multiset.card h.account
  simp only [Multiset.card_add, Multiset.coe_card] at lengths
  have live : (sim.pendingIds \ sim.cancelledIds).val.card =
      sim.pendingIds.card - sim.cancelledIds.card :=
    Finset.card_sdiff_of_subset h.valid.cancelled_subset
  rw [recordCount_eq_length fun record member action => formed.named record member (.inl action),
    recordCount_eq_length fun record member action =>
      formed.named record member (.inr (.inl action)),
    recordCount_eq_length fun record member action =>
      formed.named record member (.inr (.inr action)),
    h.dispatched_count, h.cancelled_count, lengths, live]
  exact ⟨rfl, rfl, rfl⟩

end Traced

end NexusLab.Sim
