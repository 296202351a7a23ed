import NexusLab.Sim.KernelOrder
import Mathlib.Data.List.TakeWhile

/-! # What a run dispatches

The log of a reference run accounts for every event it scheduled: dispatched, cancelled or still
live.  Since the kernel has the same log and the same result, so does every run of the kernel. -/

namespace NexusLab.Sim

open Foundation

/-! ## Reading a log -/

def LogEntry.scheduledId? : LogEntry → Option EventId
  | .scheduled id => some id
  | _ => none

def LogEntry.cancelledId? : LogEntry → Option EventId
  | .cancelled id => some id
  | _ => none

def LogEntry.dispatchedEvent? : LogEntry → Option Event
  | .dispatched event _ => some event
  | _ => none

/-- The identifiers of successful schedule calls. -/
def scheduledIds (log : List LogEntry) : List EventId := log.filterMap LogEntry.scheduledId?

/-- The identifiers of successful cancel calls. -/
def cancelledIds (log : List LogEntry) : List EventId := log.filterMap LogEntry.cancelledId?

/-- The events dispatched, in order. -/
def dispatchedEvents (log : List LogEntry) : List Event := log.filterMap LogEntry.dispatchedEvent?

/-- The part of a log from the first stop on. -/
def fromStop (log : List LogEntry) : List LogEntry := log.dropWhile (· ≠ .stopped)

@[simp] theorem scheduledIds_append (a b : List LogEntry) :
    scheduledIds (a ++ b) = scheduledIds a ++ scheduledIds b := List.filterMap_append

@[simp] theorem cancelledIds_append (a b : List LogEntry) :
    cancelledIds (a ++ b) = cancelledIds a ++ cancelledIds b := List.filterMap_append

@[simp] theorem dispatchedEvents_append (a b : List LogEntry) :
    dispatchedEvents (a ++ b) = dispatchedEvents a ++ dispatchedEvents b := List.filterMap_append

@[simp] theorem scheduledIds_singleton (entry : LogEntry) :
    scheduledIds [entry] = entry.scheduledId?.toList := by
  simp only [scheduledIds, List.filterMap_cons, List.filterMap_nil]
  cases entry.scheduledId? <;> rfl

@[simp] theorem cancelledIds_singleton (entry : LogEntry) :
    cancelledIds [entry] = entry.cancelledId?.toList := by
  simp only [cancelledIds, List.filterMap_cons, List.filterMap_nil]
  cases entry.cancelledId? <;> rfl

@[simp] theorem dispatchedEvents_singleton (entry : LogEntry) :
    dispatchedEvents [entry] = entry.dispatchedEvent?.toList := by
  simp only [dispatchedEvents, List.filterMap_cons, List.filterMap_nil]
  cases entry.dispatchedEvent? <;> rfl

attribute [simp] LogEntry.scheduledId? LogEntry.cancelledId? LogEntry.dispatchedEvent?

theorem fromStop_append_of_mem {a : List LogEntry} (stopped : .stopped ∈ a) (b : List LogEntry) :
    fromStop (a ++ b) = fromStop a ++ b := by
  refine List.dropWhile_append.trans (if_neg ?_)
  intro empty
  have none_left : a.dropWhile (· ≠ .stopped) = [] := List.isEmpty_iff.mp empty
  simpa using List.dropWhile_eq_nil_iff.mp none_left _ stopped

theorem fromStop_eq_nil {a : List LogEntry} (running : .stopped ∉ a) : fromStop a = [] := by
  refine List.dropWhile_eq_nil_iff.mpr fun entry member => ?_
  have differs : entry ≠ .stopped := fun same => running (same ▸ member)
  simpa using differs

theorem dispatchedEvents_fromStop_append {a b : List LogEntry}
    (before : dispatchedEvents (fromStop a) = []) (quiet : dispatchedEvents b = []) :
    dispatchedEvents (fromStop (a ++ b)) = [] := by
  by_cases stopped : .stopped ∈ a
  · rw [fromStop_append_of_mem stopped, dispatchedEvents_append, before, quiet]
    rfl
  · rw [show fromStop (a ++ b) = fromStop b by
      refine List.dropWhile_append.trans (if_pos ?_)
      exact List.isEmpty_iff.mpr (fromStop_eq_nil stopped)]
    refine List.eq_nil_iff_forall_not_mem.mpr fun event member => ?_
    obtain ⟨entry, present, found⟩ := List.mem_filterMap.mp member
    have again : event ∈ dispatchedEvents b :=
      List.mem_filterMap.mpr ⟨entry, (List.dropWhile_sublist _).subset present, found⟩
    rw [quiet] at again
    cases again

/-! ## The account -/

/-- Everything scheduled is dispatched, cancelled or live, and is one of them only; the clock
stands at the last dispatch and nothing live lies before it; nothing follows a stop. -/
structure Accounted (log : List LogEntry) (r : Reference) : Prop where
  account : (scheduledIds log).Perm
    ((dispatchedEvents log).map Event.id ++ cancelledIds log ++ r.live.map Event.id)
  fresh : (scheduledIds log).Nodup
  issued : ∀ id ∈ scheduledIds log, r.eventIds.Issued id.value
  clock : ∀ event time, .dispatched event time ∈ log → time = event.timestamp
  ordered : (dispatchedEvents log).Pairwise (fun a b => a.timestamp ≤ b.timestamp)
  now : r.now = ((dispatchedEvents log).getLast?.map Event.timestamp).getD 0
  future : ∀ event ∈ r.live, r.now ≤ event.timestamp
  dispatched_count : r.dispatchedEvents = (dispatchedEvents log).length
  cancelled_count : r.cancelledEvents = (cancelledIds log).length
  stop_noted : r.stopReason.isSome = true ↔ .stopped ∈ log
  stop_final : dispatchedEvents (fromStop log) = []

theorem Accounted.initial (rng : DeterministicRng) : Accounted [] { rng } := by
  constructor <;> simp [scheduledIds, dispatchedEvents, cancelledIds, fromStop]

variable {log : List LogEntry} {r : Reference}

theorem Accounted.clock_append (h : Accounted log r) {entry : LogEntry}
    (exact : ∀ event time, entry = .dispatched event time → time = event.timestamp) :
    ∀ event time, .dispatched event time ∈ log ++ [entry] → time = event.timestamp := by
  intro event time member
  rcases List.mem_append.mp member with old | new
  · exact h.clock event time old
  · exact exact event time (List.mem_singleton.mp new).symm

/-- Every dispatched event lies at or before the clock. -/
theorem Accounted.past (h : Accounted log r) {event : Event} (member : event ∈ dispatchedEvents log) :
    event.timestamp ≤ r.now := by
  obtain ⟨last, found⟩ : ∃ last, (dispatchedEvents log).getLast? = some last := by
    cases found : (dispatchedEvents log).getLast? with
    | none => rw [List.getLast?_eq_none_iff.mp found] at member; cases member
    | some last => exact ⟨last, rfl⟩
  rw [h.now, found]
  obtain ⟨front, split⟩ := List.getLast?_eq_some_iff.mp found
  have ordered := h.ordered
  rw [split] at member ordered
  rcases List.mem_append.mp member with early | final
  · exact (List.pairwise_append.mp ordered).2.2 event early last (List.mem_singleton_self _)
  · rw [List.mem_singleton.mp final]
    exact le_refl _

theorem Accounted.live_unique (h : Accounted log r) : (r.live.map Event.id).Nodup :=
  (List.nodup_append.mp (h.account.nodup_iff.mp h.fresh)).2.1

/-- The account only reads some of the scheduler. -/
theorem Accounted.congr {r' : Reference} (h : Accounted log r) (ids : r'.eventIds = r.eventIds)
    (live : r'.live = r.live) (now : r'.now = r.now)
    (dispatched : r'.dispatchedEvents = r.dispatchedEvents)
    (cancelled : r'.cancelledEvents = r.cancelledEvents)
    (stopReason : r'.stopReason = r.stopReason) : Accounted log r' where
  account := live ▸ h.account
  fresh := h.fresh
  issued := ids ▸ h.issued
  clock := h.clock
  ordered := h.ordered
  now := now ▸ h.now
  future := by rw [live, now]; exact h.future
  dispatched_count := dispatched ▸ h.dispatched_count
  cancelled_count := cancelled ▸ h.cancelled_count
  stop_noted := stopReason ▸ h.stop_noted
  stop_final := h.stop_final

/-! ### One step at a time -/

theorem Accounted.scheduled (h : Accounted log r) {ids : IdGenerator} {value : Nat}
    (next : r.eventIds.next "event ID sequence exhausted" = .ok (value, ids)) {event : Event}
    (id : event.id = ⟨value⟩) (notPast : r.now ≤ event.timestamp) :
    Accounted (log ++ [.scheduled ⟨value⟩])
      { r with eventIds := ids, live := r.live ++ [event] } := by
  obtain ⟨_, notIssued, issued, earlier⟩ := IdGenerator.next_eq_ok next
  have single : scheduledIds [.scheduled ⟨value⟩] = [⟨value⟩] := rfl
  constructor
  case account =>
    simp only [scheduledIds_append, single, dispatchedEvents_append, cancelledIds_append,
      List.map_append, List.map_cons, List.map_nil, id]
    have quiet : dispatchedEvents [.scheduled ⟨value⟩] = [] := rfl
    have none_cancelled : cancelledIds [.scheduled ⟨value⟩] = [] := rfl
    simp only [quiet, none_cancelled, List.map_nil, List.append_nil]
    rw [← List.append_assoc]
    exact h.account.append_right _
  case fresh =>
    rw [scheduledIds_append, single]
    refine List.nodup_append.mpr ⟨h.fresh, List.nodup_singleton _, ?_⟩
    rintro a ha b hb rfl
    rw [List.mem_singleton.mp hb] at ha
    exact notIssued (h.issued _ ha)
  case issued =>
    intro other member
    rw [scheduledIds_append, single] at member
    rcases List.mem_append.mp member with old | new
    · exact earlier _ (h.issued _ old)
    · rw [List.mem_singleton.mp new]
      exact issued
  case clock => exact h.clock_append (by rintro _ _ ⟨⟩)
  case ordered => simpa using h.ordered
  case now => simpa using h.now
  case future =>
    intro e member
    rcases List.mem_append.mp member with old | new
    · exact h.future e old
    · rw [List.mem_singleton.mp new]
      exact notPast
  case dispatched_count => simpa using h.dispatched_count
  case cancelled_count => simpa using h.cancelled_count
  case stop_noted => simpa using h.stop_noted
  case stop_final => exact dispatchedEvents_fromStop_append h.stop_final rfl

/-- Removing the live events with one identifier that is live takes one entry off the account. -/
theorem live_perm_of_mem {live : List Event} (unique : (live.map Event.id).Nodup) {event : Event}
    (member : event ∈ live) :
    (live.map Event.id).Perm
      (event.id :: (live.filter fun other => other.id ≠ event.id).map Event.id) := by
  have rest : (live.filter fun other => other.id ≠ event.id).map Event.id =
      (live.map Event.id).erase event.id := by
    rw [List.Nodup.erase_eq_filter unique, List.filter_map]
    congr 1
    refine List.filter_congr fun other _ => ?_
    simp only [Function.comp, ne_eq, decide_not]
    by_cases same : other.id = event.id <;> simp [same]
  rw [rest]
  exact List.perm_cons_erase (List.mem_map_of_mem member)

theorem Accounted.cancelled (h : Accounted log r) {id : EventId} (known : id ∈ r.live.map Event.id) :
    Accounted (log ++ [.cancelled id])
      { r with
        live := r.live.filter fun event => event.id ≠ id
        cancelledEvents := r.cancelledEvents + 1 } := by
  obtain ⟨event, member, rfl⟩ := List.mem_map.mp known
  have moved := live_perm_of_mem h.live_unique member
  constructor
  case account =>
    have none_scheduled : scheduledIds [.cancelled event.id] = [] := rfl
    have quiet : dispatchedEvents [.cancelled event.id] = [] := rfl
    have single : cancelledIds [.cancelled event.id] = [event.id] := rfl
    simp only [scheduledIds_append, none_scheduled, dispatchedEvents_append, quiet,
      cancelledIds_append, single, List.append_nil]
    refine h.account.trans ?_
    rw [← List.append_assoc, List.append_assoc _ [event.id]]
    exact moved.append_left _
  case fresh => simpa using h.fresh
  case issued => simpa using h.issued
  case clock => exact h.clock_append (by rintro _ _ ⟨⟩)
  case ordered => simpa using h.ordered
  case now => simpa using h.now
  case future => exact fun e present => h.future e (List.mem_of_mem_filter present)
  case dispatched_count => simpa using h.dispatched_count
  case cancelled_count => simpa using h.cancelled_count
  case stop_noted => simpa using h.stop_noted
  case stop_final => exact dispatchedEvents_fromStop_append h.stop_final rfl

theorem Accounted.stopped (h : Accounted log r) {stopReason : Option StopReason}
    (isSet : stopReason.isSome = true) :
    Accounted (log ++ [.stopped]) { r with stopReason } := by
  constructor
  case account => simpa using h.account
  case fresh => simpa using h.fresh
  case issued => simpa using h.issued
  case clock => exact h.clock_append (by rintro _ _ ⟨⟩)
  case ordered => simpa using h.ordered
  case now => simpa using h.now
  case future => exact h.future
  case dispatched_count => simpa using h.dispatched_count
  case cancelled_count => simpa using h.cancelled_count
  case stop_noted => simpa using isSet
  case stop_final => exact dispatchedEvents_fromStop_append h.stop_final rfl

theorem Accounted.dispatched (h : Accounted log r) (running : r.stopReason = none) {event : Event}
    (least : leastEvent r.live = some event) :
    Accounted (log ++ [.dispatched event event.timestamp])
      { r with
        live := r.live.filter fun other => other.id ≠ event.id
        currentEvent := some event
        now := event.timestamp
        dispatchedEvents := r.dispatchedEvents + 1 } := by
  obtain ⟨member, below⟩ := leastEvent_spec least
  have moved := live_perm_of_mem h.live_unique member
  have none_scheduled : scheduledIds [.dispatched event event.timestamp] = [] := rfl
  have single : dispatchedEvents [.dispatched event event.timestamp] = [event] := rfl
  have none_cancelled : cancelledIds [.dispatched event event.timestamp] = [] := rfl
  constructor
  case account =>
    simp only [scheduledIds_append, none_scheduled, dispatchedEvents_append, single,
      cancelledIds_append, none_cancelled, List.append_nil, List.map_append, List.map_cons,
      List.map_nil]
    refine h.account.trans ((moved.append_left _).trans ?_)
    -- the identifier moves from the live ones to the end of the dispatched ones
    have swap : ([event.id] ++ cancelledIds log).Perm (cancelledIds log ++ [event.id]) :=
      List.perm_append_comm
    have := ((swap.append_left ((dispatchedEvents log).map Event.id)).append_right
      ((r.live.filter fun other => other.id ≠ event.id).map Event.id)).symm
    simpa [List.append_assoc] using this
  case fresh => simpa using h.fresh
  case issued => simpa using h.issued
  case clock => exact h.clock_append (by rintro _ _ ⟨⟩; rfl)
  case ordered =>
    rw [dispatchedEvents_append, single]
    refine List.pairwise_append.mpr ⟨h.ordered, List.pairwise_singleton _ _, ?_⟩
    intro a ha b hb
    rw [List.mem_singleton.mp hb]
    exact (h.past ha).trans (h.future event member)
  case now => simp [dispatchedEvents_append, single]
  case future =>
    intro other present
    exact Event.key_timestamp_le (below other (List.mem_of_mem_filter present))
  case dispatched_count =>
    rw [dispatchedEvents_append, single, List.length_append, h.dispatched_count]
    rfl
  case cancelled_count => simpa using h.cancelled_count
  case stop_noted => simpa using h.stop_noted
  case stop_final =>
    have notStopped : .stopped ∉ log := fun stopped => by
      simpa [running] using h.stop_noted.mpr stopped
    refine (congrArg dispatchedEvents (fromStop_eq_nil ?_)).trans rfl
    simpa using notStopped

/-! ### Whole programs and whole runs -/

section Runs

variable {δ α : Type}

/-- The account of a host at a fixed point of a run: calls change neither the lifecycle nor the
event being dispatched. -/
structure HostAccounted (lifecycle : Lifecycle) (current : Option Event) (g : Host Reference δ) :
    Prop where
  accounted : Accounted g.log g.scheduler
  lifecycle : g.scheduler.lifecycle = lifecycle
  current : g.scheduler.currentEvent = current

variable {lifecycle : Lifecycle} {current : Option Event}

/-- A call keeps what its effect and its log entries keep. -/
theorem wp_call {σ : Type} {m : Action σ α} {entries : Except Error α → List LogEntry}
    {g : Host σ δ} {Q : Except Error α → Host σ δ → Prop} {E : Error → Host σ δ → Prop}
    (outcome : wp m (fun a r => Q (.ok a) { g with scheduler := r, log := g.log ++ entries (.ok a) })
      (fun e r => Q (.error e) { g with scheduler := r, log := g.log ++ entries (.error e) })
      g.scheduler) :
    wp (Host.call m entries) Q E g := by
  simpa [Host.call, Host.note, Host.schedulerLens] using outcome

theorem wp_schedule_reference {specification : EventSpec} {g : Host Reference δ}
    (h : HostAccounted lifecycle current g) :
    wp (Host.call (Reference.schedule specification) Host.scheduleEntries)
      (fun _ => HostAccounted lifecycle current) (fun _ => HostAccounted lifecycle current) g := by
  refine wp_call ?_
  unfold wp Reference.schedule
  split_ifs with finished past
  · simpa [Host.scheduleEntries] using h
  · simpa [Host.scheduleEntries] using h
  · cases next : g.scheduler.eventIds.next "event ID sequence exhausted" with
    | error e => simpa [Host.scheduleEntries] using h
    | ok drawn =>
      exact ⟨h.accounted.scheduled next rfl (not_lt.mp past), h.lifecycle, h.current⟩

theorem wp_cancel_reference {id : EventId} {g : Host Reference δ}
    (h : HostAccounted lifecycle current g) :
    wp (Host.call (Reference.cancel id) (Host.cancelEntries id))
      (fun _ => HostAccounted lifecycle current) (fun _ => HostAccounted lifecycle current) g := by
  refine wp_call ?_
  unfold wp Reference.cancel
  split_ifs with known
  · exact ⟨h.accounted.cancelled known.2, h.lifecycle, h.current⟩
  · simpa [Host.cancelEntries] using h

theorem wp_stop_reference {reason : StopReason} {g : Host Reference δ}
    (h : HostAccounted lifecycle current g) :
    wp (Host.call (Reference.stop reason) Host.stopEntries)
      (fun _ => HostAccounted lifecycle current) (fun _ => HostAccounted lifecycle current) g := by
  refine wp_call ?_
  unfold wp Reference.stop
  split_ifs with notRunning absent unset
  · simpa [Host.stopEntries] using h
  · simpa [Host.stopEntries] using h
  · exact ⟨h.accounted.stopped rfl, h.lifecycle, h.current⟩
  · exact ⟨h.accounted.stopped (Option.isSome_iff_ne_none.mpr unset), h.lifecycle, h.current⟩

theorem wp_aboutCurrent_reference {β : Type} {read : Event → β} {g : Host Reference δ}
    (h : HostAccounted lifecycle current g) :
    wp (Host.call (Reference.aboutCurrent read) fun _ => [])
      (fun _ => HostAccounted lifecycle current) (fun _ => HostAccounted lifecycle current) g := by
  refine wp_call ?_
  unfold wp Reference.aboutCurrent
  cases g.scheduler.currentEvent <;> simpa using h

theorem HostAccounted.withRng {g : Host Reference δ} (h : HostAccounted lifecycle current g)
    (rng : DeterministicRng) :
    HostAccounted lifecycle current { g with scheduler := { g.scheduler with rng } } :=
  ⟨h.accounted.congr rfl rfl rfl rfl rfl rfl, h.lifecycle, h.current⟩

theorem wp_interpret_reference (program : Program α) : ∀ g : Host Reference δ,
    HostAccounted lifecycle current g →
    wp (Host.interpret Reference.operations program) (fun _ => HostAccounted lifecycle current)
      (fun _ => HostAccounted lifecycle current) g := by
  induction program with
  | done value => exact fun g h => h
  | raise error => exact fun g h => h
  | schedule specification next ih =>
    intro g h
    simp only [Host.interpret, wp_bind]
    exact wp_mono (wp_schedule_reference h) (fun outcome g' h' => ih outcome g' h') (fun _ _ h => h)
  | cancel id next ih =>
    intro g h
    simp only [Host.interpret, wp_bind]
    exact wp_mono (wp_cancel_reference h) (fun outcome g' h' => ih outcome g' h') (fun _ _ h => h)
  | stop reason next ih =>
    intro g h
    simp only [Host.interpret, wp_bind]
    exact wp_mono (wp_stop_reference h) (fun outcome g' h' => ih outcome g' h') (fun _ _ h => h)
  | now next ih => exact fun g h => ih _ g h
  | currentEventId next ih =>
    intro g h
    simp only [Host.interpret, wp_bind]
    exact wp_mono (wp_aboutCurrent_reference h) (fun outcome g' h' => ih outcome g' h') (fun _ _ h => h)
  | cause next ih =>
    intro g h
    simp only [Host.interpret, wp_bind]
    exact wp_mono (wp_aboutCurrent_reference h) (fun outcome g' h' => ih outcome g' h') (fun _ _ h => h)
  | randomU64 next ih =>
    intro g h
    simp only [Host.interpret, wp_bind]
    refine wp_call ?_
    exact ih _ _ (by simpa using h.withRng _)
  | randomBelow upperExclusive next ih =>
    intro g h
    simp only [Host.interpret, wp_bind]
    refine wp_call ?_
    unfold wp
    simp only [Reference.operations, Reference.randomBelow]
    cases g.scheduler.rng.uniformBelow upperExclusive with
    | error e => exact ih _ _ (by simpa using h)
    | ok drawn => exact ih _ _ (by simpa using h.withRng _)

/-- What a result says about the run that reported it. -/
structure ResultAccounted (log : List LogEntry) (result : SimulationResult) : Prop where
  final_time : result.finalTime = ((dispatchedEvents log).getLast?.map Event.timestamp).getD 0
  dispatched : result.dispatchedEvents = (dispatchedEvents log).length
  cancelled : result.cancelledEvents = (cancelledIds log).length
  total : (scheduledIds log).length =
    result.dispatchedEvents + result.cancelledEvents + result.pendingEvents
  drained : result.status = .completed → result.pendingEvents = 0

theorem Accounted.result (h : Accounted log r) (status : SimulationStatus) (error : Option String)
    (drained : status = .completed → r.live = []) :
    ResultAccounted log (Reference.resultOf status error r) where
  final_time := h.now
  dispatched := h.dispatched_count
  cancelled := h.cancelled_count
  total := by
    have lengths := h.account.length_eq
    simp only [List.length_append, List.length_map] at lengths
    simp only [Reference.resultOf, h.dispatched_count, h.cancelled_count]
    omega
  drained := fun completed => by simp [Reference.resultOf, drained completed]

/-- The log of a run that has ended, or has run out of rounds, is in order. -/
structure LogOrdered (log : List LogEntry) : Prop where
  clock : ∀ event time, .dispatched event time ∈ log → time = event.timestamp
  ordered : (dispatchedEvents log).Pairwise (fun a b => a.timestamp ≤ b.timestamp)
  once : ((dispatchedEvents log).map Event.id).Nodup
  never_cancelled : ∀ event ∈ dispatchedEvents log, event.id ∉ cancelledIds log
  stop_final : ∀ before after, log = before ++ .stopped :: after → dispatchedEvents after = []

theorem Accounted.logOrdered (h : Accounted log r) : LogOrdered log := by
  have nodup := h.account.nodup_iff.mp h.fresh
  have front := List.nodup_append.mp (List.nodup_append.mp nodup).1
  refine ⟨h.clock, h.ordered, front.1, ?_, ?_⟩
  · intro event member cancelled
    exact front.2.2 event.id (List.mem_map_of_mem member) event.id cancelled rfl
  · rintro before after rfl
    refine List.eq_nil_iff_forall_not_mem.mpr fun event member => ?_
    have kept : event ∈ dispatchedEvents (fromStop (before ++ .stopped :: after)) := by
      have split : fromStop (before ++ .stopped :: after) =
          fromStop (before ++ [.stopped]) ++ after := by
        rw [← fromStop_append_of_mem (by simp), List.append_assoc]
        rfl
      rw [split, dispatchedEvents_append]
      exact List.mem_append_right _ member
    rw [h.stop_final] at kept
    cases kept

/-- A host whose run has ended with this report. -/
def Reported (report : Option SimulationResult) (g : Host Reference δ) : Prop :=
  LogOrdered g.log ∧ ∀ result, report = some result → ResultAccounted g.log result

variable (handler : δ → EventPayload → Program δ)

theorem wp_dispatch_reference {event : Event} {g : Host Reference δ}
    (h : Accounted (g.log ++ [.dispatched event event.timestamp]) g.scheduler)
    (running : g.scheduler.lifecycle = .running) (isCurrent : g.scheduler.currentEvent = some event)
    (now : g.scheduler.now = event.timestamp) :
    wp (Host.dispatch Reference.operations Reference.currentEvent handler event.payload)
      (fun _ => HostAccounted .running (some event)) (fun _ => HostAccounted .running (some event))
      g := by
  simp only [Host.dispatch, wp_bind, wp_reads, Host.note, wp_modify, isCurrent]
  have noted : HostAccounted .running (some event)
      { g with log := g.log ++ [.dispatched event g.scheduler.now] } :=
    ⟨by rw [now]; exact h, running, isCurrent⟩
  exact wp_mono (wp_interpret_reference _ _ noted)
    (fun memory g' h' => ⟨h'.accounted, h'.lifecycle, h'.current⟩) (fun _ _ h' => h')

theorem wp_hostedLoop : ∀ (rounds : Nat) (g : Host Reference δ), HostAccounted .running none g →
    wp (Reference.hostedLoop handler rounds) Reported
      (fun _ g' => Accounted g'.log g'.scheduler) g
  | 0, g, h => ⟨h.accounted.logOrdered, by rintro result ⟨⟩⟩
  | rounds + 1, g, h => by
    simp only [Reference.hostedLoop, wp_bind, wp_reads, wp_ite, wp_map, wp_zoom]
    refine ⟨fun _ => ?_, fun notStopped => ?_⟩
    · refine ⟨h.accounted.logOrdered, ?_⟩
      rintro result ⟨⟩
      exact h.accounted.result _ _ (by rintro ⟨⟩)
    · have running : g.scheduler.stopReason = none := by simpa using notStopped
      unfold wp Reference.startNext
      dsimp only [Host.schedulerLens]
      cases found : leastEvent g.scheduler.live with
      | none =>
        refine ⟨h.accounted.logOrdered, ?_⟩
        rintro result ⟨⟩
        exact h.accounted.result _ _ fun _ => leastEvent_eq_none.mp found
      | some event =>
        dsimp only
        rw [← wp, wp_bind]
        refine wp_mono (wp_dispatch_reference handler (h.accounted.dispatched running found)
          h.lifecycle rfl rfl) (fun _ g' h' => ?_) (fun _ g' h' => h'.accounted)
        rw [wp_bind]
        refine wp_hostedLoop rounds _ ⟨?_, h'.lifecycle, rfl⟩
        exact h'.accounted.congr rfl rfl rfl rfl rfl rfl

theorem wp_hostedRun (setup : Program Unit) (rounds : Nat) {g : Host Reference δ}
    (h : HostAccounted .created none g) :
    wp (Reference.hostedRun handler setup rounds) Reported (fun _ _ => False) g := by
  simp only [Reference.hostedRun, wp_bind, wp_attempt, wp_zoom, wp_catching, wp_map]
  -- setup may end in a throw, and the run starts all the same
  have start : ∀ g' : Host Reference δ, HostAccounted .created none g' →
      wp Reference.beginRun
        (fun _ r => wp (Reference.hostedLoop handler rounds) Reported
          (fun e g'' => wp (Reference.finish .failed (some e.what))
            (fun a r' => Reported (some a) (Host.schedulerLens.set r' g''))
            (fun _ _ => False) (Host.schedulerLens.get g''))
          (Host.schedulerLens.set r g'))
        (fun _ _ => False) (Host.schedulerLens.get g') := by
    intro g' h'
    have begun : Reference.beginRun g'.scheduler =
        .ok () { g'.scheduler with lifecycle := .running } := if_neg (by simpa using h'.lifecycle)
    refine wp_of_eq_ok begun ?_
    refine wp_mono (wp_hostedLoop handler rounds _ ⟨?_, rfl, h'.current⟩) (fun _ _ done => done) ?_
    · exact h'.accounted.congr rfl rfl rfl rfl rfl rfl
    · intro e g'' accounted
      refine ⟨accounted.logOrdered, ?_⟩
      rintro result ⟨⟩
      exact accounted.result _ _ (by rintro ⟨⟩)
  exact wp_mono (wp_interpret_reference setup g h) (fun _ g' h' => start g' h')
    (fun _ g' h' => start g' h')

/-- **The kernel's order.**  Whatever the handler does and whatever was scheduled and cancelled
before the run, as long as the instrumentation does not throw: the run logs the same calls and
the same dispatches as the reference scheduler and reports the same result, the dispatches are in
order, and the result accounts for every event. -/
theorem kernel_dispatch_order (setup : Program Unit) (rounds : Nat) (memory : δ)
    (rng : DeterministicRng) (probe : Instrumentation)
    (quiet : (finalState (Kernel.hostedRun setup handler rounds
      ⟨⟨{ rng }, probe⟩, memory, []⟩)).scheduler.probe.threw = false) :
    ∃ report final report' reference,
      Kernel.hostedRun setup handler rounds ⟨⟨{ rng }, probe⟩, memory, []⟩ = .ok report final ∧
      Reference.hostedRun handler setup rounds ⟨{ rng }, memory, []⟩ = .ok report' reference ∧
      final.log = reference.log ∧ SameReport report report' ∧ LogOrdered final.log ∧
      ∀ result, report = some result → ResultAccounted final.log result := by
  have related : HostTracks (δ := δ) ⟨⟨{ rng }, probe⟩, memory, []⟩ ⟨{ rng }, memory, []⟩ := by
    refine ⟨⟨⟨?_, ?_, ?_, ?_, ?_, ?_⟩, rfl, ?_, List.nodup_nil⟩, rfl, rfl⟩
    all_goals simp [EventQueue.empty, Simulation.Live]
  have reported := wp_hostedRun handler setup rounds (g := ⟨{ rng }, memory, []⟩)
    ⟨Accounted.initial rng, rfl, rfl⟩
  rcases (hostedRun_refines setup handler rounds).agree _ _ related with threw | impossible | same
  · exact absurd (quiet.symm.trans threw) (by decide)
  · exact absurd impossible id
  · cases run : Kernel.hostedRun setup handler rounds ⟨⟨{ rng }, probe⟩, memory, []⟩ with
    | error e final =>
      cases referenceRun : Reference.hostedRun handler setup rounds ⟨{ rng }, memory, []⟩ with
      | error e' reference => exact absurd (wp_of_error reported referenceRun) id
      | ok report' reference => rw [run, referenceRun] at same; cases same
    | ok report final =>
      cases referenceRun : Reference.hostedRun handler setup rounds ⟨{ rng }, memory, []⟩ with
      | error e' reference => exact absurd (wp_of_error reported referenceRun) id
      | ok report' reference =>
        rw [run, referenceRun] at same
        cases same with
        | ok values states =>
          obtain ⟨ordered, accounted⟩ := wp_of_ok reported referenceRun
          rw [← states.log] at ordered accounted
          refine ⟨report, final, report', reference, rfl, rfl, states.log, values, ordered, ?_⟩
          rintro result rfl
          cases report' with
          | none => exact absurd values id
          | some other =>
            have counted := accounted other rfl
            rw [← show { result with traceHash := none } = other from values] at counted
            exact ⟨counted.final_time, counted.dispatched, counted.cancelled, counted.total,
              counted.drained⟩

end Runs

/-- A run of two events, one of which is cancelled before it starts. -/
theorem kernel_dispatch_order_two :
    ∃ report final report' reference,
      Kernel.hostedRun
          (.schedule ⟨5, .normal, .noOp 0⟩ fun _ => .schedule ⟨3, .normal, .noOp 1⟩ fun _ =>
            .cancel ⟨0⟩ fun _ => .done ())
          (fun _ _ => .done ()) 4
          ⟨⟨{ rng := ⟨⟨fun _ => 2 ^ 63, fun _ => by decide, fun _ small n =>
            ⟨n, le_refl n, le_of_lt small⟩⟩, 0⟩ },
            { trace := { mode := .enabled }
              session := { configuration := { mode := .off }, nextSampleTimestamp := none } }⟩,
            (), []⟩ = .ok report final ∧
      Reference.hostedRun (fun _ _ => .done ())
          (.schedule ⟨5, .normal, .noOp 0⟩ fun _ => .schedule ⟨3, .normal, .noOp 1⟩ fun _ =>
            .cancel ⟨0⟩ fun _ => .done ()) 4
          ⟨{ rng := ⟨⟨fun _ => 2 ^ 63, fun _ => by decide, fun _ small n =>
            ⟨n, le_refl n, le_of_lt small⟩⟩, 0⟩ }, (), []⟩ = .ok report' reference ∧
      final.log = reference.log ∧ SameReport report report' ∧ LogOrdered final.log ∧
      ∀ result, report = some result → ResultAccounted final.log result :=
  kernel_dispatch_order _ _ _ _ _ _ (by decide +kernel)

end NexusLab.Sim
