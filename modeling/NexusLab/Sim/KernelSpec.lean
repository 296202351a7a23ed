import NexusLab.Sim.Simulation

/-! # What the kernel's operations do

Each operation changes `Simulation` by one pure function, whatever the instrumentation does, and
throws only what its guards say or what the instrumentation throws.  `Simulation.Valid` is the
kernel's own invariant, and `Simulation.Live` says which events are still going to be dispatched. -/

namespace NexusLab.Sim

open Foundation

/-! ## The pure effect of each operation -/

namespace Simulation

/-- The event that scheduling `specification` creates. -/
def eventFor (sim : Simulation) (specification : EventSpec) : Event :=
  ⟨specification.timestamp, specification.priority, ⟨sim.eventIds.nextValue⟩,
    sim.currentEvent.map Event.id, specification.payload⟩

/-- The generator after handing out its next identifier. -/
def advancedIds (sim : Simulation) : IdGenerator :=
  if sim.eventIds.nextValue = maxU64 then { sim.eventIds with exhausted := true }
  else { sim.eventIds with nextValue := sim.eventIds.nextValue + 1 }

def scheduled (sim : Simulation) (specification : EventSpec) : Simulation :=
  { sim with
    eventIds := sim.advancedIds
    pendingIds := insert (sim.eventFor specification).id sim.pendingIds
    eventQueue := sim.eventQueue.push (sim.eventFor specification) }

def cancelled (sim : Simulation) (id : EventId) : Simulation :=
  { sim with
    cancelledIds := insert id sim.cancelledIds
    cancelledEvents := sim.cancelledEvents + 1 }

def dispatching (sim : Simulation) (event : Event) : Simulation :=
  { sim with
    currentEvent := some event
    now := event.timestamp
    dispatchedEvents := sim.dispatchedEvents + 1 }

/-- An event in the queue that is not cancelled. -/
def Live (sim : Simulation) (event : Event) : Prop :=
  event ∈ sim.eventQueue.events ∧ event.id ∉ sim.cancelledIds

/-- The identifiers in the queue are the pending ones, each once; what is cancelled is pending;
nothing pending lies in the past; and the event being dispatched is no longer pending. -/
structure Valid (sim : Simulation) : Prop where
  pending : ∀ id, id ∈ sim.pendingIds ↔ ∃ event ∈ sim.eventQueue.events, event.id = id
  unique : (sim.eventQueue.events.map Event.id).Nodup
  cancelled_subset : sim.cancelledIds ⊆ sim.pendingIds
  future : ∀ event ∈ sim.eventQueue.events, sim.now ≤ event.timestamp
  issued : ∀ event ∈ sim.eventQueue.events, sim.eventIds.Issued event.id.value
  current : ∀ event, sim.currentEvent = some event →
    sim.eventIds.Issued event.id.value ∧ event.id ∉ sim.pendingIds ∧ event.timestamp = sim.now

variable {sim : Simulation}

theorem Valid.eq_of_id (valid : sim.Valid) {a b : Event} (ha : a ∈ sim.eventQueue.events)
    (hb : b ∈ sim.eventQueue.events) (same : a.id = b.id) : a = b :=
  List.inj_on_of_nodup_map valid.unique ha hb same

theorem Valid.mem_pending (valid : sim.Valid) {event : Event}
    (member : event ∈ sim.eventQueue.events) : event.id ∈ sim.pendingIds :=
  (valid.pending _).mpr ⟨event, member, rfl⟩

theorem Valid.not_pending_of_not_issued (valid : sim.Valid) {id : EventId}
    (fresh : ¬ sim.eventIds.Issued id.value) : id ∉ sim.pendingIds := by
  intro pending
  obtain ⟨event, member, rfl⟩ := (valid.pending _).mp pending
  exact fresh (valid.issued event member)

/-- The next identifier is fresh as long as the sequence is not exhausted. -/
theorem not_issued_next (remaining : sim.eventIds.exhausted = false) :
    ¬ sim.eventIds.Issued sim.eventIds.nextValue := by
  simp [IdGenerator.Issued, remaining]

theorem issued_advanced {value : Nat} (issued : sim.eventIds.Issued value) :
    sim.advancedIds.Issued value := by
  unfold advancedIds
  split
  · exact .inr rfl
  · rcases issued with lt | exhausted
    · exact .inl (Nat.lt_succ_of_lt lt)
    · exact .inr exhausted

theorem issued_advanced_next : sim.advancedIds.Issued sim.eventIds.nextValue := by
  unfold advancedIds
  split
  · exact .inr rfl
  · exact .inl (Nat.lt_succ_self _)

theorem Valid.scheduled (valid : sim.Valid) (remaining : sim.eventIds.exhausted = false)
    {specification : EventSpec} (future : sim.now ≤ specification.timestamp) :
    (sim.scheduled specification).Valid := by
  have fresh : (sim.eventFor specification).id ∉ sim.pendingIds :=
    valid.not_pending_of_not_issued (not_issued_next remaining)
  refine ⟨?_, ?_, ?_, ?_, ?_, ?_⟩
  · intro id
    simp only [Simulation.scheduled, Finset.mem_insert, EventQueue.mem_push, valid.pending,
      exists_eq_or_imp, eq_comm]
  · have perm := (sim.eventQueue.push_perm (sim.eventFor specification)).map Event.id
    refine perm.nodup_iff.mpr (List.nodup_cons.mpr ⟨?_, valid.unique⟩)
    intro member
    obtain ⟨event, mem, same⟩ := List.mem_map.mp member
    exact fresh (same ▸ valid.mem_pending mem)
  · exact valid.cancelled_subset.trans (Finset.subset_insert _ _)
  · intro event member
    rcases EventQueue.mem_push.mp member with rfl | member
    · exact future
    · exact valid.future event member
  · intro event member
    rcases EventQueue.mem_push.mp member with rfl | member
    · exact issued_advanced_next
    · exact issued_advanced (valid.issued event member)
  · intro event current
    obtain ⟨issued, notPending, atNow⟩ := valid.current event current
    refine ⟨issued_advanced issued, ?_, atNow⟩
    intro pending
    rcases Finset.mem_insert.mp pending with same | pending
    · exact not_issued_next remaining (by simpa [same, eventFor] using issued)
    · exact notPending pending

theorem Valid.live_scheduled (valid : sim.Valid) (remaining : sim.eventIds.exhausted = false)
    {specification : EventSpec} {event : Event} :
    (sim.scheduled specification).Live event ↔
      event = sim.eventFor specification ∨ sim.Live event := by
  have fresh : (sim.eventFor specification).id ∉ sim.cancelledIds := fun cancelled =>
    valid.not_pending_of_not_issued (not_issued_next remaining) (valid.cancelled_subset cancelled)
  simp only [Live, Simulation.scheduled, EventQueue.mem_push]
  constructor
  · rintro ⟨rfl | member, notCancelled⟩
    · exact .inl rfl
    · exact .inr ⟨member, notCancelled⟩
  · rintro (rfl | ⟨member, notCancelled⟩)
    · exact ⟨.inl rfl, fresh⟩
    · exact ⟨.inr member, notCancelled⟩

/-- The identifier of the event scheduled next is not that of any event in the queue. -/
theorem Valid.eventFor_id_ne (valid : sim.Valid) (remaining : sim.eventIds.exhausted = false)
    (specification : EventSpec) {event : Event} (member : event ∈ sim.eventQueue.events) :
    event.id ≠ (sim.eventFor specification).id := by
  intro same
  exact valid.not_pending_of_not_issued (not_issued_next remaining)
    (same ▸ valid.mem_pending member : (sim.eventFor specification).id ∈ sim.pendingIds)

theorem Valid.cancelled (valid : sim.Valid) {id : EventId} (pending : id ∈ sim.pendingIds) :
    (sim.cancelled id).Valid :=
  ⟨valid.pending, valid.unique, Finset.insert_subset pending valid.cancelled_subset,
    valid.future, valid.issued, valid.current⟩

theorem live_cancelled {id : EventId} {event : Event} :
    (sim.cancelled id).Live event ↔ sim.Live event ∧ event.id ≠ id := by
  simp only [Live, Simulation.cancelled, Finset.mem_insert, not_or]
  tauto

theorem Valid.popEvent (valid : sim.Valid) {event : Event} {rest : EventQueue}
    (popped : sim.eventQueue.events = event :: rest.events) :
    (Kernel.popEvent event rest sim).Valid := by
  have nodup := valid.unique
  rw [popped, List.map_cons, List.nodup_cons] at nodup
  refine ⟨?_, nodup.2, ?_, ?_, ?_, ?_⟩
  · intro id
    simp only [Kernel.popEvent, Finset.mem_erase, valid.pending, popped, List.mem_cons,
      exists_eq_or_imp]
    constructor
    · rintro ⟨differs, rfl | present⟩
      · exact absurd rfl differs
      · exact present
    · rintro ⟨other, member, rfl⟩
      exact ⟨fun same => nodup.1 (same ▸ List.mem_map_of_mem member), .inr ⟨other, member, rfl⟩⟩
  · intro id member
    obtain ⟨differs, cancelled⟩ := Finset.mem_erase.mp member
    exact Finset.mem_erase.mpr ⟨differs, valid.cancelled_subset cancelled⟩
  · intro other member
    exact valid.future other (popped ▸ List.mem_cons_of_mem _ member)
  · intro other member
    exact valid.issued other (popped ▸ List.mem_cons_of_mem _ member)
  · intro other current
    obtain ⟨issued, notPending, atNow⟩ := valid.current other current
    exact ⟨issued, fun pending => notPending (Finset.mem_of_mem_erase pending), atNow⟩

theorem Valid.live_popEvent (valid : sim.Valid) {event other : Event} {rest : EventQueue}
    (popped : sim.eventQueue.events = event :: rest.events) :
    (Kernel.popEvent event rest sim).Live other ↔ sim.Live other ∧ other.id ≠ event.id := by
  have nodup := valid.unique
  rw [popped, List.map_cons, List.nodup_cons] at nodup
  simp only [Live, Kernel.popEvent, Finset.mem_erase, popped, List.mem_cons]
  constructor
  · rintro ⟨member, notCancelled⟩
    have differs : other.id ≠ event.id := fun same => nodup.1 (same ▸ List.mem_map_of_mem member)
    exact ⟨⟨.inr member, fun cancelled => notCancelled ⟨differs, cancelled⟩⟩, differs⟩
  · rintro ⟨⟨rfl | member, notCancelled⟩, differs⟩
    · exact absurd rfl differs
    · exact ⟨member, fun cancelled => notCancelled cancelled.2⟩

end Simulation

/-! ## Contracts -/

namespace Kernel

variable {k : Kernel} {α : Type}

/-- A throw that the environment is to blame for: telemetry, or a counter that ran out. -/
def Excused (e : Error) : Prop := e.origin = .telemetry ∨ e.kind = .overflowError

theorem excused_overflow (what : String) : Excused (.overflowError what) := .inr rfl

theorem wp_instrument_iff {m : Kernel → Action Instrumentation Unit} {Q : Unit → Kernel → Prop}
    {E : Error → Kernel → Prop} :
    wp (instrument m) Q E k ↔
      wp (m k) (fun _ p => Q () { k with probe := { p with threw := k.probe.threw } })
        (fun e p => E { e with origin := .telemetry } { k with probe := { p with threw := true } })
        k.probe := by
  unfold wp instrument zoom Instrumentation.attributed probeLens
  dsimp only
  cases m k k.probe <;> rfl

/-- The instrumentation changes nothing but itself. -/
theorem wp_instrument {m : Kernel → Action Instrumentation Unit} {Q : Unit → Kernel → Prop}
    {E : Error → Kernel → Prop}
    (returns : ∀ probe, probe.threw = k.probe.threw → Q () { k with probe })
    (throws : ∀ e probe, e.origin = .telemetry → probe.threw = true → E e { k with probe }) :
    wp (instrument m) Q E k := by
  rw [wp_instrument_iff]
  exact wp_intro (fun _ _ _ => returns _ rfl) (fun _ _ _ => throws _ _ rfl rfl)

theorem wp_observe {m : Kernel → Action Instrumentation Unit} {Q : Unit → Kernel → Prop}
    {E : Error → Kernel → Prop}
    (returns : ∀ probe, probe.threw = k.probe.threw → Q () { k with probe })
    (throws : ∀ e probe, e.origin = .telemetry → probe.threw = true → E e { k with probe }) :
    wp (observe m) Q E k :=
  wp_instrument returns throws

@[simp] theorem wp_modifySim {f : Simulation → Simulation} {Q : Unit → Kernel → Prop}
    {E : Error → Kernel → Prop} :
    wp (modifySim f) Q E k ↔ Q () { k with sim := f k.sim } := Iff.rfl

theorem next_eq (what : String) (g : IdGenerator) : g.next what =
    if g.exhausted = true then .error (.overflowError what)
    else .ok (g.nextValue, if g.nextValue = maxU64 then { g with exhausted := true }
      else { g with nextValue := g.nextValue + 1 }) := by
  unfold IdGenerator.next
  split
  · rfl
  · split <;> rfl

theorem wp_nextEventId {Q : EventId → Kernel → Prop} {E : Error → Kernel → Prop}
    (returns : k.sim.eventIds.exhausted = false →
      Q ⟨k.sim.eventIds.nextValue⟩ { k with sim := { k.sim with eventIds := k.sim.advancedIds } })
    (exhausted : k.sim.eventIds.exhausted = true →
      E (.overflowError "event ID sequence exhausted") k) :
    wp nextEventId Q E k := by
  simp only [nextEventId, wp_bind, wp_get, wp_fromExcept, wp_modifySim, wp_pure, next_eq]
  refine ⟨?_, ?_⟩
  · intro drawn ok
    split at ok
    · cases ok
    · rename_i remaining
      cases ok
      exact returns (by simpa using remaining)
  · intro e thrown
    split at thrown
    · rename_i isExhausted
      cases thrown
      exact exhausted isExhausted
    · cases thrown

/-- Scheduling either refuses for one of its stated reasons and changes nothing, or adds the
event; telemetry may throw after that. -/
theorem wp_schedule_full {specification : EventSpec} {Q : EventId → Kernel → Prop}
    {E : Error → Kernel → Prop} (valid : k.sim.Valid)
    (finished : k.sim.lifecycle = .finished →
      E (.logicError "cannot schedule on a finished simulation") k)
    (past : k.sim.lifecycle ≠ .finished → specification.timestamp < k.sim.now →
      E (.invalidArgument "cannot schedule an event in the simulated past") k)
    (exhausted : k.sim.lifecycle ≠ .finished → k.sim.now ≤ specification.timestamp →
      k.sim.eventIds.exhausted = true → E (.overflowError "event ID sequence exhausted") k)
    (returns : k.sim.lifecycle ≠ .finished → k.sim.now ≤ specification.timestamp →
      k.sim.eventIds.exhausted = false → ∀ probe, probe.threw = k.probe.threw →
        Q (k.sim.eventFor specification).id ⟨k.sim.scheduled specification, probe⟩)
    (throws : ∀ e k', e.origin = .telemetry → k'.probe.threw = true → E e k') :
    wp (schedule specification) Q E k := by
  unfold schedule
  simp only [wp_bind, wp_get, wp_throwIf, wp_modifySim, wp_catching, wp_throw, wp_pure]
  refine ⟨finished, fun opened => ⟨past opened, fun notPast => ?_⟩⟩
  have future : k.sim.now ≤ specification.timestamp := not_lt.mp notPast
  refine wp_nextEventId (fun remaining => ?_) (exhausted opened future)
  have fresh : (⟨k.sim.eventIds.nextValue⟩ : EventId) ∉ k.sim.pendingIds :=
    valid.not_pending_of_not_issued (Simulation.not_issued_next remaining)
  refine ⟨fun duplicate => absurd duplicate fresh, fun _ => ?_⟩
  refine wp_instrument (fun probe₁ same₁ => ?_) (fun e probe origin threw => ?_)
  · refine wp_instrument (fun probe₂ same₂ => ?_) (fun e probe origin threw => throws _ _ origin threw)
    refine wp_observe (fun probe₃ same₃ => ?_) (fun e probe origin threw => throws _ _ origin threw)
    exact returns opened future remaining probe₃ (same₃.trans (same₂.trans same₁))
  · refine wp_instrument (fun probe' same => throws _ _ origin (same.trans threw))
      (fun e' probe' origin' threw' => throws _ _ origin' threw')

theorem wp_schedule {specification : EventSpec} {Q : EventId → Kernel → Prop}
    {E : Error → Kernel → Prop} (valid : k.sim.Valid) (opened : k.sim.lifecycle ≠ .finished)
    (future : k.sim.now ≤ specification.timestamp)
    (returns : k.sim.eventIds.exhausted = false → ∀ probe,
      Q (k.sim.eventFor specification).id ⟨k.sim.scheduled specification, probe⟩)
    (throws : ∀ e k', Excused e → E e k') :
    wp (schedule specification) Q E k :=
  wp_schedule_full valid (fun finished => absurd finished opened)
    (fun _ past => absurd future (not_le.mpr past))
    (fun _ _ _ => throws _ _ (excused_overflow _))
    (fun _ _ remaining probe _ => returns remaining probe)
    (fun _ _ origin _ => throws _ _ (.inl origin))

/-- Cancelling succeeds exactly on pending events that are not cancelled yet. -/
theorem wp_cancel_full {id : EventId} {Q : Bool → Kernel → Prop} {E : Error → Kernel → Prop}
    (refused : (k.sim.lifecycle = .finished ∨ id ∉ k.sim.pendingIds ∨ id ∈ k.sim.cancelledIds) →
      ∀ probe, probe.threw = k.probe.threw → Q false { k with probe })
    (accepted : k.sim.lifecycle ≠ .finished → id ∈ k.sim.pendingIds → id ∉ k.sim.cancelledIds →
      ∀ probe, probe.threw = k.probe.threw → Q true ⟨k.sim.cancelled id, probe⟩)
    (throws : ∀ e k', e.origin = .telemetry → k'.probe.threw = true → E e k') :
    wp (cancel id) Q E k := by
  unfold cancel
  simp only [wp_bind, wp_get, wp_ite, wp_pure]
  refine ⟨fun h => refused (by tauto) _ rfl, fun h => ?_⟩
  obtain ⟨opened, pending⟩ : k.sim.lifecycle ≠ .finished ∧ id ∈ k.sim.pendingIds := by tauto
  refine wp_instrument (fun probe₁ same₁ => ?_) (fun e probe origin threw => throws _ _ origin threw)
  refine ⟨fun already => refused (.inr (.inr already)) _ same₁, fun fresh => ?_⟩
  simp only [wp_modifySim, cancel.reportCancelled, wp_bind, wp_get]
  refine wp_observe (fun probe₂ same₂ => ?_) (fun e probe origin threw => throws _ _ origin threw)
  refine wp_observe (fun probe₃ same₃ => ?_) (fun e probe origin threw => throws _ _ origin threw)
  have same := same₃.trans (same₂.trans same₁)
  split
  · exact wp_instrument (fun probe₄ same₄ => accepted opened pending fresh _ (same₄.trans same))
      (fun e probe origin threw => throws _ _ origin threw)
  · exact accepted opened pending fresh _ same

theorem wp_cancel {id : EventId} {Q : Bool → Kernel → Prop} {E : Error → Kernel → Prop}
    (opened : k.sim.lifecycle ≠ .finished) {event : Event} (valid : k.sim.Valid)
    (live : k.sim.Live event) (same : event.id = id)
    (returns : ∀ probe, Q true ⟨k.sim.cancelled id, probe⟩)
    (throws : ∀ e k', Excused e → E e k') :
    wp (cancel id) Q E k := by
  subst same
  refine wp_cancel_full (fun refused => ?_) (fun _ _ _ probe _ => returns probe)
    (fun _ _ origin _ => throws _ _ (.inl origin))
  rcases refused with finished | notPending | cancelled
  · exact absurd finished opened
  · exact absurd (valid.mem_pending live.1) notPending
  · exact absurd cancelled live.2

/-- The simulation with another queue. -/
def requeued (sim : Simulation) (eventQueue : EventQueue) (pendingIds cancelledIds : Finset EventId) :
    Simulation :=
  { sim with eventQueue, pendingIds, cancelledIds }

/-- What taking the next event off the queue leaves behind. -/
structure Taken (sim : Simulation) (event : Event) (after : Simulation) : Prop where
  valid : after.Valid
  live : sim.Live event
  least : ∀ other, sim.Live other → event.key ≤ other.key
  first : ∀ other ∈ after.eventQueue.events, event.key ≤ other.key
  not_pending : event.id ∉ after.pendingIds
  remaining : ∀ other, after.Live other ↔ sim.Live other ∧ other.id ≠ event.id

theorem head_first {sim : Simulation} {event : Event} {rest : EventQueue}
    (popped : sim.eventQueue.events = event :: rest.events) :
    ∀ other ∈ rest.events, event.key ≤ other.key := by
  have sorted := sim.eventQueue.sorted
  rw [popped] at sorted
  exact (List.pairwise_cons.mp sorted).1

theorem taken_of_pop {sim : Simulation} (valid : sim.Valid) {event : Event} {rest : EventQueue}
    (popped : sim.eventQueue.events = event :: rest.events)
    (notCancelled : event.id ∉ sim.cancelledIds) :
    Taken sim event (popEvent event rest sim) where
  valid := valid.popEvent popped
  live := ⟨popped ▸ List.mem_cons_self, notCancelled⟩
  least := by
    intro other live
    have member := live.1
    rw [popped] at member
    rcases List.mem_cons.mp member with rfl | member
    · exact le_refl _
    · exact head_first popped other member
  first := head_first popped
  not_pending := by simp [popEvent]
  remaining := fun _ => valid.live_popEvent popped

theorem Taken.of_cancelled {sim : Simulation} (valid : sim.Valid) {head event : Event}
    {rest : EventQueue} {after : Simulation} (popped : sim.eventQueue.events = head :: rest.events)
    (cancelled : head.id ∈ sim.cancelledIds) (taken : Taken (popEvent head rest sim) event after) :
    Taken sim event after := by
  have live_iff : ∀ other, (popEvent head rest sim).Live other ↔ sim.Live other := by
    intro other
    rw [valid.live_popEvent popped]
    exact ⟨And.left, fun live => ⟨live, fun same => live.2 (same ▸ cancelled)⟩⟩
  exact ⟨taken.valid, (live_iff _).mp taken.live,
    fun other live => taken.least other ((live_iff other).mpr live), taken.first, taken.not_pending,
    fun other => by rw [taken.remaining, live_iff]⟩

theorem wp_popDispatchable {Q : Option Event → Kernel → Prop} {E : Error → Kernel → Prop}
    (throws : ∀ e k', e.origin = .telemetry → k'.probe.threw = true → E e k') :
    ∀ (rounds : Nat) (k : Kernel), k.sim.Valid → k.sim.eventQueue.size < rounds →
      (∀ probe, probe.threw = k.probe.threw → (∀ event, ¬ k.sim.Live event) →
        Q none ⟨requeued k.sim .empty ∅ ∅, probe⟩) →
      (∀ event queue pending cancelled probe, probe.threw = k.probe.threw →
        Taken k.sim event (requeued k.sim queue pending cancelled) →
        Q (some event) ⟨requeued k.sim queue pending cancelled, probe⟩) →
      wp (popDispatchable rounds) Q E k := by
  intro rounds
  -- on the rounds, of which there are more than queued events
  induction rounds with
  | zero => intro k _ small; exact absurd small (Nat.not_lt_zero _)
  | succ rounds ih =>
    intro k valid small empty found
    simp only [popDispatchable, wp_bind, wp_get]
    cases popped : k.sim.eventQueue.pop with
    | none =>
      have noEvents : k.sim.eventQueue.events = [] := EventQueue.pop_eq_none.mp popped
      have noPending : k.sim.pendingIds = ∅ := by
        refine Finset.eq_empty_of_forall_notMem fun id pending => ?_
        obtain ⟨event, member, _⟩ := (valid.pending id).mp pending
        simp [noEvents] at member
      have noCancelled : k.sim.cancelledIds = ∅ :=
        Finset.subset_empty.mp (noPending ▸ valid.cancelled_subset)
      -- with an empty queue nothing is pending or cancelled
      have same : requeued k.sim .empty ∅ ∅ = k.sim := by
        obtain ⟨⟨now, ids, ⟨events, sorted⟩, rng, pending, cancelled, _, _, _, _, _⟩, probe⟩ := k
        cases noEvents; cases noPending; cases noCancelled
        rfl
      have result := empty k.probe rfl fun event live => absurd live.1 (by simp [noEvents])
      rw [same] at result
      exact result
    | some taken =>
      obtain ⟨next, rest⟩ := taken
      have events : k.sim.eventQueue.events = next :: rest.events := EventQueue.pop_eq_some.mp popped
      simp only [wp_bind, wp_modifySim]
      refine wp_instrument (fun probe₁ same₁ => ?_) (fun e probe origin threw => throws _ _ origin threw)
      rw [wp_ite]
      refine ⟨fun cancelled => ?_, fun notCancelled => ?_⟩
      -- a cancelled event is skipped, which changes nothing that is live
      · refine ih _ (valid.popEvent events) ?_ ?_ ?_
        · have : k.sim.eventQueue.size = rest.size + 1 := by simp [EventQueue.size, events]
          show rest.size < rounds
          omega
        · intro probe same none_live
          refine empty probe (same.trans same₁) fun event live => none_live event ?_
          exact (valid.live_popEvent events).mpr ⟨live, fun eq => live.2 (eq ▸ cancelled)⟩
        · intro event queue pending cancelledIds probe same taken
          exact found event queue pending cancelledIds probe (same.trans same₁)
            (taken.of_cancelled valid events cancelled)
      -- the first event that is not cancelled is taken
      · exact found next rest (k.sim.pendingIds.erase next.id) (k.sim.cancelledIds.erase next.id)
          probe₁ same₁ (taken_of_pop valid events notCancelled)

/-- The next event is the least live one; there is none when nothing is live. -/
theorem wp_nextDispatchableEvent {Q : Option Event → Kernel → Prop} {E : Error → Kernel → Prop}
    (valid : k.sim.Valid)
    (empty : ∀ probe, probe.threw = k.probe.threw → (∀ event, ¬ k.sim.Live event) →
      Q none ⟨requeued k.sim .empty ∅ ∅, probe⟩)
    (found : ∀ event queue pending cancelled probe, probe.threw = k.probe.threw →
      Taken k.sim event (requeued k.sim queue pending cancelled) →
      Q (some event) ⟨requeued k.sim queue pending cancelled, probe⟩)
    (throws : ∀ e k', e.origin = .telemetry → k'.probe.threw = true → E e k') :
    wp nextDispatchableEvent Q E k := by
  simp only [nextDispatchableEvent, wp_bind, wp_get]
  exact wp_popDispatchable throws _ k valid (Nat.lt_succ_self _) empty found

theorem wp_beginDispatch {event : Event} {Q : Unit → Kernel → Prop} {E : Error → Kernel → Prop}
    (returns : ∀ probe, probe.threw = k.probe.threw → Q () ⟨k.sim.dispatching event, probe⟩)
    (throws : ∀ e k', e.origin = .telemetry → k'.probe.threw = true →
      k'.sim = k.sim.dispatching event → E e k') :
    wp (beginDispatch event) Q E k := by
  simp only [beginDispatch, wp_bind, wp_modifySim]
  refine wp_observe (fun probe₁ same₁ => ?_) (fun e probe origin threw => throws _ _ origin threw rfl)
  refine wp_observe (fun probe₂ same₂ => ?_) (fun e probe origin threw => throws _ _ origin threw rfl)
  exact wp_instrument (fun probe₃ same₃ => returns _ (same₃.trans (same₂.trans same₁)))
    (fun e probe origin threw => throws _ _ origin threw rfl)

/-- What starting the next dispatch leaves behind. -/
structure Started (sim : Simulation) (event : Event) (after : Simulation) : Prop where
  valid : after.Valid
  live : sim.Live event
  least : ∀ other, sim.Live other → event.key ≤ other.key
  remaining : ∀ other, after.Live other ↔ sim.Live other ∧ other.id ≠ event.id

theorem Taken.started {sim : Simulation} (valid : sim.Valid) {event : Event} {queue : EventQueue}
    {pending cancelled : Finset EventId}
    (taken : Taken sim event (requeued sim queue pending cancelled)) :
    Started sim event ((requeued sim queue pending cancelled).dispatching event) where
  valid :=
    { pending := taken.valid.pending
      unique := taken.valid.unique
      cancelled_subset := taken.valid.cancelled_subset
      future := fun other member => Event.key_timestamp_le (taken.first other member)
      issued := taken.valid.issued
      current := by
        rintro other current
        cases current
        exact ⟨valid.issued event taken.live.1, taken.not_pending, rfl⟩ }
  live := taken.live
  least := taken.least
  remaining := taken.remaining

/-- Starting the next dispatch: the least live event becomes the current one. -/
theorem wp_startNext {Q : Option Event → Kernel → Prop} {E : Error → Kernel → Prop}
    (valid : k.sim.Valid)
    (empty : ∀ probe, probe.threw = k.probe.threw → (∀ event, ¬ k.sim.Live event) →
      Q none ⟨requeued k.sim .empty ∅ ∅, probe⟩)
    (found : ∀ event queue pending cancelled probe, probe.threw = k.probe.threw →
      Started k.sim event ((requeued k.sim queue pending cancelled).dispatching event) →
      Q (some event) ⟨(requeued k.sim queue pending cancelled).dispatching event, probe⟩)
    (throws : ∀ e k', e.origin = .telemetry → k'.probe.threw = true → E e k') :
    wp startNext Q E k := by
  simp only [startNext, wp_bind]
  refine wp_nextDispatchableEvent valid empty ?_ throws
  intro event queue pending cancelled probe same taken
  rw [wp_bind]
  exact wp_beginDispatch (fun probe' same' => found event queue pending cancelled probe'
    (same'.trans same) (taken.started valid)) (fun e k' origin threw _ => throws e k' origin threw)

/-- The simulation after the end of a run. -/
def finishedSim (sim : Simulation) : Simulation :=
  { sim with lifecycle := .finished, currentEvent := none }

/-- The result a run reports. -/
def resultOf (status : SimulationStatus) (error : Option String) (k : Kernel) : SimulationResult where
  status := status
  stopReason := k.sim.stopReason
  finalTime := k.sim.now
  dispatchedEvents := k.sim.dispatchedEvents
  cancelledEvents := k.sim.cancelledEvents
  pendingEvents := k.pendingEvents
  rngDrawCount := k.sim.rng.drawCount
  traceHash := k.probe.trace.reportedHash
  error := error

theorem wp_emitTerminalTelemetry {status : SimulationStatus} {Q : Unit → Kernel → Prop}
    {E : Error → Kernel → Prop}
    (returns : ∀ probe, probe.threw = k.probe.threw → Q () { k with probe })
    (throws : ∀ e k', e.origin = .telemetry → k'.probe.threw = true → k'.sim = k.sim → E e k') :
    wp (emitTerminalTelemetry status) Q E k := by
  simp only [emitTerminalTelemetry, wp_bind, wp_get, wp_runIf]
  refine ⟨fun _ => ?_, fun _ => returns _ rfl⟩
  refine wp_observe (fun p₁ same₁ => ?_) (fun e p origin threw => throws _ _ origin threw rfl)
  refine wp_observe (fun p₂ same₂ => ?_) (fun e p origin threw => throws _ _ origin threw rfl)
  refine wp_observe (fun p₃ same₃ => ?_) (fun e p origin threw => throws _ _ origin threw rfl)
  refine wp_observe (fun p₄ same₄ => ?_) (fun e p origin threw => throws _ _ origin threw rfl)
  exact returns _ (same₄.trans (same₃.trans (same₂.trans same₁)))

theorem wp_recordStatus {status : SimulationStatus} {error : Option String}
    {Q : Unit → Kernel → Prop} {E : Error → Kernel → Prop}
    (returns : ∀ probe, probe.threw = k.probe.threw → Q () { k with probe })
    (throws : ∀ e k', e.origin = .telemetry → k'.probe.threw = true → k'.sim = k.sim → E e k') :
    wp (recordStatus status error) Q E k := by
  unfold recordStatus recordTerminal
  cases status
  · exact wp_instrument returns (fun e p origin threw => throws _ _ origin threw rfl)
  · exact returns _ rfl
  · exact wp_instrument returns (fun e p origin threw => throws _ _ origin threw rfl)

theorem wp_finish {status : SimulationStatus} {error : Option String}
    {Q : SimulationResult → Kernel → Prop} {E : Error → Kernel → Prop}
    (returns : ∀ probe, probe.threw = k.probe.threw →
      Q (resultOf status error ⟨k.sim, probe⟩) ⟨finishedSim k.sim, probe⟩)
    (throws : ∀ e k', e.origin = .telemetry → k'.probe.threw = true → k'.sim = k.sim → E e k') :
    wp (finish status error) Q E k := by
  simp only [finish, wp_bind]
  refine wp_emitTerminalTelemetry (fun p₁ same₁ => ?_) throws
  refine wp_recordStatus (fun p₂ same₂ => ?_) throws
  exact returns p₂ (same₂.trans same₁)

theorem wp_currentEventId {event : Event} {Q : EventId → Kernel → Prop} {E : Error → Kernel → Prop}
    (current : k.sim.currentEvent = some event) (returns : Q event.id k) :
    wp currentEventId Q E k := by
  simpa [currentEventId, current] using returns

/-! ## Properties that every operation keeps -/

/-- A property that no change of the simulation and no step of the instrumentation undoes. -/
structure Kept (P : Kernel → Prop) : Prop where
  modifySim : ∀ f, Keeps P (modifySim f)
  emitSimulationObservation : ∀ transition event cause,
    Keeps P (emitSimulationObservation transition event cause)
  emitMetric : ∀ observation, Keeps P (emitMetric observation)
  recordEvent : ∀ action metadata reason, Keeps P (recordEvent action metadata reason)
  recordTerminal : ∀ action error, Keeps P (recordTerminal action error)
  insertMetadata : ∀ event, Keeps P (insertMetadata event)
  eraseMetadata : ∀ id, Keeps P (eraseMetadata id)
  requireMetadata : ∀ id, Keeps P (requireMetadata id)
  markFailed : Keeps P (instrument fun _ => modify fun p => { p with telemetryFailed := true })

namespace Kept

variable {P : Kernel → Prop} (kept : Kept P)

include kept

theorem nextEventId : Keeps P nextEventId :=
  Keeps.get.bind fun _ => (Keeps.fromExcept _).bind fun _ => (kept.modifySim _).bind fun _ => .pure _

theorem schedule (specification : EventSpec) : Keeps P (schedule specification) := by
  unfold Kernel.schedule
  refine Keeps.get.bind fun _ => (Keeps.throwIf _).bind fun _ => Keeps.get.bind fun _ =>
    (Keeps.throwIf _).bind fun _ => kept.nextEventId.bind fun id => ?_
  refine Keeps.get.bind fun _ => Keeps.get.bind fun _ => (Keeps.throwIf _).bind fun _ =>
    (kept.modifySim _).bind fun _ => ?_
  refine (Keeps.catching ((kept.insertMetadata _).bind fun _ => kept.modifySim _)
    fun e => (kept.modifySim _).bind fun _ => (kept.eraseMetadata _).bind fun _ => .throw e).bind
    fun _ => ?_
  exact (kept.recordEvent _ _ _).bind fun _ => (kept.emitSimulationObservation _ _ _).bind
    fun _ => .pure _

theorem cancel (id : EventId) : Keeps P (cancel id) := by
  unfold Kernel.cancel
  refine Keeps.get.bind fun _ => Keeps.get.bind fun _ => Keeps.ite (.pure _) ?_
  refine (kept.requireMetadata _).bind fun _ => Keeps.get.bind fun _ => Keeps.ite (.pure _) ?_
  refine (kept.modifySim _).bind fun _ => Keeps.bind ?_ fun _ => .pure _
  unfold Kernel.cancel.reportCancelled
  refine Keeps.get.bind fun k => (kept.emitSimulationObservation _ _ _).bind fun _ =>
    (kept.emitMetric _).bind fun _ => ?_
  cases cancelMetadata id k.probe
  · exact .pure _
  · exact kept.recordEvent _ _ _

theorem stop (reason : StopReason) : Keeps P (stop reason) := by
  unfold Kernel.stop
  refine Keeps.get.bind fun _ => (Keeps.throwIf _).bind fun _ => Keeps.get.bind fun _ =>
    (Keeps.getOrThrow _ _).bind fun event => Keeps.get.bind fun _ => Keeps.runIf ?_
  exact (kept.recordEvent _ _ _).bind fun _ => (kept.modifySim _).bind fun _ =>
    kept.emitSimulationObservation _ _ _

theorem randomU64 : Keeps P randomU64 := Keeps.get.bind fun _ => (kept.modifySim _).bind fun _ => .pure _

theorem randomBelow (upperExclusive : UInt64) : Keeps P (randomBelow upperExclusive) :=
  Keeps.get.bind fun _ => (Keeps.fromExcept _).bind fun _ => (kept.modifySim _).bind fun _ => .pure _

theorem beginRun : Keeps P beginRun :=
  Keeps.get.bind fun _ => (Keeps.throwIf _).bind fun _ => kept.modifySim _

theorem popDispatchable : ∀ rounds, Keeps P (popDispatchable rounds)
  | 0 => .pure _
  | rounds + 1 => by
    unfold Kernel.popDispatchable
    refine Keeps.get.bind fun k => ?_
    cases k.sim.eventQueue.pop with
    | none => exact .pure _
    | some taken =>
      exact (kept.modifySim _).bind fun _ => (kept.eraseMetadata _).bind fun _ =>
        Keeps.ite (popDispatchable rounds) (.pure _)

theorem beginDispatch (event : Event) : Keeps P (beginDispatch event) :=
  (kept.modifySim _).bind fun _ => (kept.emitSimulationObservation _ _ _).bind fun _ =>
    (kept.emitMetric _).bind fun _ => kept.recordEvent _ _ _

theorem startNext : Keeps P startNext := by
  refine (Keeps.get.bind fun _ => kept.popDispatchable _).bind fun next => ?_
  cases next with
  | none => exact .pure _
  | some event => exact (kept.beginDispatch event).bind fun _ => .pure _

theorem emitTerminalTelemetry (status : SimulationStatus) :
    Keeps P (emitTerminalTelemetry status) :=
  Keeps.get.bind fun _ => Keeps.runIf ((kept.emitSimulationObservation _ _ _).bind fun _ =>
    (kept.emitMetric _).bind fun _ => (kept.emitMetric _).bind fun _ => kept.emitMetric _)

theorem recordStatus (status : SimulationStatus) (error : Option String) :
    Keeps P (recordStatus status error) := by
  cases status
  · exact kept.recordTerminal _ _
  · exact .pure _
  · exact kept.recordTerminal _ _

theorem finish (status : SimulationStatus) (error : Option String) :
    Keeps P (finish status error) :=
  (kept.emitTerminalTelemetry status).bind fun _ => (kept.recordStatus status error).bind fun _ =>
    (kept.modifySim _).bind fun _ => Keeps.get.bind fun _ => .pure _

theorem failAgain (error : String) : Keeps P (do
    instrument fun _ => modify fun p => { p with telemetryFailed := true }
    Kernel.finish .failed (some error)) :=
  kept.markFailed.bind fun _ => kept.finish _ _

theorem fail (error : String) : Keeps P (fail error) :=
  Keeps.catching (kept.finish _ _) fun e => kept.failAgain e.what

end Kept

end Kernel

end NexusLab.Sim
