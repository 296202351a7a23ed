import NexusLab.Sim.Calls
import NexusLab.Sim.KernelOrder

/-! # Runs of the kernel

Whatever the components and the run loop make of the kernel, events that were asked for in the order
of their keys are dispatched in this order: some of them may be cancelled, and none comes before one
that it should come after. -/

namespace NexusLab.Sim

open Foundation

/-! ## Operations -/

/-- An operation on the kernel that returns, by a component or by the run loop, with the event that
it starts. -/
inductive KernelStep : Kernel → Option Event → Kernel → Prop where
  | schedule {k k' : Kernel} {specification : EventSpec} {id : EventId}
    (ok : Kernel.schedule specification k = .ok id k') : KernelStep k none k'
  | cancel {k k' : Kernel} {id : EventId} {known : Bool}
    (ok : Kernel.cancel id k = .ok known k') : KernelStep k none k'
  | stop {k k' : Kernel} {reason : StopReason}
    (ok : Kernel.stop reason k = .ok () k') : KernelStep k none k'
  | randomU64 {k k' : Kernel} {drawn : Nat}
    (ok : Kernel.randomU64 k = .ok drawn k') : KernelStep k none k'
  | randomBelow {k k' : Kernel} {upperExclusive : UInt64} {drawn : Nat}
    (ok : Kernel.randomBelow upperExclusive k = .ok drawn k') : KernelStep k none k'
  | observe {k k' : Kernel} {m : Kernel → Action Instrumentation Unit}
    (ok : Kernel.observe m k = .ok () k') : KernelStep k none k'
  | beginRun {k k' : Kernel} (ok : Kernel.beginRun k = .ok () k') : KernelStep k none k'
  | startNext {k k' : Kernel} {started : Option Event}
    (ok : Kernel.startNext k = .ok started k') : KernelStep k started k'
  | endDispatch {k k' : Kernel} (ok : Kernel.endDispatch k = .ok () k') : KernelStep k none k'
  | finish {k k' : Kernel} {status : SimulationStatus} {error : Option String}
    {result : SimulationResult} (ok : Kernel.finish status error k = .ok result k') :
    KernelStep k none k'

/-- A run of operations, with the events that it dispatches. -/
inductive KernelRun (start : Kernel) : List Event → Kernel → Prop where
  | refl : KernelRun start [] start
  | tail {dispatched : List Event} {k k' : Kernel} {started : Option Event}
    (run : KernelRun start dispatched k) (step : KernelStep k started k') :
    KernelRun start (dispatched ++ started.toList) k'

/-! ## What a step leaves of the events -/

/-- No event that was issued comes to life again, and what is started is the least live event. -/
structure Passes (sim : Simulation) (started : Option Event) (sim' : Simulation) : Prop where
  valid : sim'.Valid
  issued : ∀ {value}, sim.eventIds.Issued value → sim'.eventIds.Issued value
  live : ∀ {event}, sim'.Live event → sim.eventIds.Issued event.id.value → sim.Live event
  started : ∀ {event}, started = some event → Kernel.Started sim event sim'

namespace Passes

variable {sim sim' : Simulation}

/-- The queue is as it was. -/
theorem of_same_queue (valid : sim'.Valid) (ids : sim'.eventIds = sim.eventIds)
    (queue : sim'.eventQueue = sim.eventQueue) (cancelled : sim'.cancelledIds = sim.cancelledIds) :
    Passes sim none sim' where
  valid := valid
  issued issued := ids ▸ issued
  live live _ := by
    unfold Simulation.Live at live
    rwa [queue, cancelled] at live
  started none := nomatch none

theorem of_evolves (valid : sim.Valid) (evolves : Evolves sim sim') : Passes sim none sim' := by
  refine ⟨evolves.valid valid, evolves.issued, fun {event} => ?_, nofun⟩
  induction evolves with
  | refl => exact fun live _ => live
  | tail before step ih =>
    intro live issued
    refine ih ?_ issued
    cases step with
    | scheduled specification opened future remaining =>
      refine (((before.valid valid).live_scheduled remaining).mp live).resolve_left ?_
      rintro rfl
      exact Simulation.not_issued_next remaining (before.issued issued)
    | cancelled id pending => exact (Simulation.live_cancelled.mp live).1
    | stopped reason => exact live
    | drawn rng => exact live

theorem of_call {α : Type} {k k' : Kernel} {a : α} {m : Action Kernel α} (valid : k.sim.Valid)
    (kept : Preserves (fun after : Kernel => Evolves k.sim after.sim) m) (ok : m k = .ok a k') :
    Passes k.sim none k'.sim := by
  have evolves := kept k (.refl _)
  unfold wp at evolves
  rw [ok] at evolves
  exact of_evolves valid evolves

end Passes

theorem KernelStep.passes {k k' : Kernel} {started : Option Event} (step : KernelStep k started k')
    (valid : k.sim.Valid) : Passes k.sim started k'.sim := by
  have calls := callKept_evolves valid
  cases step with
  | schedule ok => exact .of_call valid (calls.schedule _) ok
  | cancel ok => exact .of_call valid (calls.cancel _) ok
  | stop ok => exact .of_call valid (calls.stop _) ok
  | randomU64 ok => exact .of_call valid calls.randomU64 ok
  | randomBelow ok => exact .of_call valid (calls.randomBelow _) ok
  | observe ok =>
    have same : k'.sim = k.sim := wp_of_ok (Q := fun _ k' => k'.sim = k.sim)
      (Kernel.wp_observe (E := fun _ _ => True) (fun _ _ => rfl) (fun _ _ _ _ => trivial)) ok
    exact .of_same_queue (same ▸ valid) (by rw [same]) (by rw [same]) (by rw [same])
  | beginRun ok =>
    obtain ⟨_, _, checked, rest⟩ := ok_of_bind ok
    cases checked
    obtain ⟨_, _, created, rest⟩ := ok_of_bind rest
    obtain ⟨_, rfl⟩ := throwIf_ok created
    cases rest
    exact .of_same_queue ⟨valid.pending, valid.unique, valid.cancelled_subset, valid.future,
      valid.issued, valid.current⟩ rfl rfl rfl
  | startNext ok =>
    refine wp_of_ok (Q := fun started k' => Passes k.sim started k'.sim)
      (Kernel.wp_startNext (E := fun _ _ => True) valid (fun _ _ _ => ?_) (fun _ _ _ _ _ _ begun => ?_)
        (fun _ _ _ _ => trivial)) ok
    · exact ⟨valid.drained, id, fun live _ => absurd live.1 List.not_mem_nil, nofun⟩
    · exact ⟨begun.valid, id, fun live _ => ((begun.remaining _).mp live).1,
        fun same => Option.some.inj same ▸ begun⟩
  | endDispatch ok =>
    cases ok
    exact .of_same_queue ⟨valid.pending, valid.unique, valid.cancelled_subset, valid.future,
      valid.issued, nofun⟩ rfl rfl rfl
  | finish ok =>
    refine wp_of_ok (Q := fun _ k' => Passes k.sim none k'.sim) (Kernel.wp_finish
      (E := fun _ _ => True) (fun _ _ => ?_) (fun _ _ _ _ _ => trivial)) ok
    exact .of_same_queue ⟨valid.pending, valid.unique, valid.cancelled_subset, valid.future,
      valid.issued, nofun⟩ rfl rfl rfl

/-! ## Events in order -/

/-- What is asked for and the identifier it is given decide the key of an event. -/
def askedKey (asked : EventId × EventSpec) : ℕ ×ₗ ℕ ×ₗ ℕ :=
  toLex (asked.2.timestamp, toLex (asked.2.priority.value, asked.1.value))

/-- An event by its identifier and what was asked for. -/
def askedOf (event : Event) : EventId × EventSpec := (event.id, eventSpecification event)

theorem askedKey_askedOf (event : Event) : askedKey (askedOf event) = event.key := rfl

section

local instance eventId_lawful : LawfulBEq EventId := inferInstance

/-- The dispatched events of these identifiers. -/
def dispatchedOf (asked : List (EventId × EventSpec)) (dispatched : List Event) :
    List (EventId × EventSpec) :=
  (dispatched.filter fun event => event.id ∈ asked.map Prod.fst).map askedOf

end

/-- How far the events that were asked for have come: those in `past` are over, dispatched or not,
and the others are still as they were asked for if they are live. -/
structure Underway (past rest : List (EventId × EventSpec)) (dispatched : List Event)
    (sim : Simulation) : Prop where
  issued : ∀ p ∈ past ++ rest, sim.eventIds.Issued p.1.value
  asked : ∀ p ∈ rest, ∀ event, sim.Live event → event.id = p.1 → eventSpecification event = p.2
  ended : ∀ p ∈ past, ∀ event, sim.Live event → event.id ≠ p.1
  sublist : (dispatchedOf (past ++ rest) dispatched).Sublist past

/-- The keys increase, and every identifier is there once. -/
def InKeyOrder (asked : List (EventId × EventSpec)) : Prop :=
  asked.Pairwise fun a b => askedKey a < askedKey b ∧ a.1 ≠ b.1

theorem dispatchedOf_append (asked : List (EventId × EventSpec)) (dispatched : List Event)
    (event : Event) : dispatchedOf asked (dispatched ++ [event]) =
      dispatchedOf asked dispatched ++
        if event.id ∈ asked.map Prod.fst then [askedOf event] else [] := by
  unfold dispatchedOf
  rw [List.filter_append, List.map_append]
  congr 1
  by_cases known : event.id ∈ asked.map Prod.fst
  · rw [List.filter_cons_of_pos (by simpa using known), if_pos known]
    rfl
  · rw [List.filter_cons_of_neg (by simpa using known), if_neg known]
    rfl

namespace Underway

variable {past rest : List (EventId × EventSpec)} {dispatched : List Event} {sim sim' : Simulation}
  {event : Event}

/-- An event that passes keeps all that is known of the events asked for, unless it is one. -/
theorem unstarted {started : Option Event} (underway : Underway past rest dispatched sim)
    (passes : Passes sim started sim')
    (other : dispatchedOf (past ++ rest) (dispatched ++ started.toList) =
      dispatchedOf (past ++ rest) dispatched) :
    Underway past rest (dispatched ++ started.toList) sim' where
  issued p member := passes.issued (underway.issued p member)
  asked p member event live same := by
    have issued := underway.issued p (List.mem_append_right _ member)
    exact underway.asked p member event (passes.live live (same ▸ issued)) same
  ended p member event live same := by
    have issued := underway.issued p (List.mem_append_left _ member)
    exact underway.ended p member event (passes.live live (same ▸ issued)) same
  sublist := other ▸ underway.sublist

/-- When an event asked for is started, those before it are over. -/
theorem started {before after : List (EventId × EventSpec)} {p : EventId × EventSpec}
    (underway : Underway past (before ++ p :: after) dispatched sim)
    (inOrder : InKeyOrder (past ++ (before ++ p :: after)))
    (passes : Passes sim (some event) sim') (same : event.id = p.1) :
    Underway (past ++ (before ++ [p])) after (dispatched ++ [event]) sim' := by
  have begun := passes.started rfl
  have whole : past ++ (before ++ [p]) ++ after = past ++ (before ++ p :: after) := by simp
  have asked : askedOf event = p :=
    Prod.ext same (underway.asked p (by simp) event begun.live same)
  have issued : ∀ q ∈ past ++ (before ++ p :: after), ∀ other : Event, other.id = q.1 →
      sim.eventIds.Issued other.id.value := fun q member other is => is ▸ underway.issued q member
  refine ⟨fun q member => ?_, fun q member other live is => ?_, fun q member other live is => ?_, ?_⟩
  · exact passes.issued (underway.issued q (whole ▸ member))
  · have later : q ∈ before ++ p :: after := by simp [member]
    exact underway.asked q later other
      (passes.live live (issued q (List.mem_append_right _ later) other is)) is
  · have known : q ∈ past ++ (before ++ p :: after) :=
      whole ▸ List.mem_append_left after member
    have alive := passes.live live (issued q known other is)
    rcases List.mem_append.mp member with old | new
    · exact underway.ended q old other alive is
    · rcases List.mem_append.mp new with skipped | last
      · -- an earlier event that is still live has the smaller key
        have asOne := underway.asked q (List.mem_append_left _ skipped) other alive is
        have less : askedKey q < askedKey p :=
          ((List.pairwise_append.mp (List.pairwise_append.mp inOrder).2.1).2.2 q skipped p
            List.mem_cons_self).1
        have least := begun.least other alive
        rw [← askedKey_askedOf, ← askedKey_askedOf, asked,
          show askedOf other = q from Prod.ext is asOne] at least
        exact absurd less (not_lt.mpr least)
      · cases List.mem_singleton.mp last
        exact ((begun.remaining other).mp live).2 (is.trans same.symm)
  · rw [whole, dispatchedOf_append, if_pos (List.mem_map.mpr ⟨p, by simp, same.symm⟩), asked]
    exact underway.sublist.append (List.sublist_append_right before [p])

/-- One more step. -/
theorem step {started : Option Event} (underway : Underway past rest dispatched sim)
    (inOrder : InKeyOrder (past ++ rest)) (passes : Passes sim started sim') :
    ∃ past' rest', past' ++ rest' = past ++ rest ∧
      Underway past' rest' (dispatched ++ started.toList) sim' := by
  cases started with
  | none => exact ⟨past, rest, rfl, underway.unstarted passes (by simp)⟩
  | some event =>
    by_cases known : event.id ∈ (past ++ rest).map Prod.fst
    · obtain ⟨p, member, same⟩ := List.mem_map.mp known
      have live := (passes.started rfl).live
      rcases List.mem_append.mp member with old | coming
      · exact absurd same.symm (underway.ended p old event live)
      · obtain ⟨before, after, rfl⟩ := List.append_of_mem coming
        exact ⟨past ++ (before ++ [p]), after, by simp,
          underway.started inOrder passes same.symm⟩
    · refine ⟨past, rest, rfl, underway.unstarted passes ?_⟩
      show dispatchedOf (past ++ rest) (dispatched ++ [event]) = _
      rw [dispatchedOf_append, if_neg known, List.append_nil]

end Underway

theorem KernelRun.valid {start k : Kernel} {dispatched : List Event}
    (run : KernelRun start dispatched k) (valid : start.sim.Valid) : k.sim.Valid := by
  induction run with
  | refl => exact valid
  | tail _ step ih => exact (step.passes ih).valid

/-- Events that were asked for in the order of their keys are dispatched in this order, as they were
asked for, each at most once. -/
theorem KernelRun.dispatched_in_order {start k : Kernel} {dispatched : List Event}
    {asked : List (EventId × EventSpec)} (run : KernelRun start dispatched k)
    (valid : start.sim.Valid) (inOrder : InKeyOrder asked)
    (promised : ∀ p ∈ asked, Promised p.1 p.2 start.sim) :
    (dispatchedOf asked dispatched).Sublist asked := by
  have underway : ∃ past rest, past ++ rest = asked ∧ Underway past rest dispatched k.sim := by
    induction run with
    | refl =>
      refine ⟨[], asked, rfl, ⟨fun p member => (promised p member).issued, fun p member event live =>
        (promised p member).queued event live.1, nofun, List.nil_sublist _⟩⟩
    | tail before step ih =>
      obtain ⟨past, rest, rfl, underway⟩ := ih
      exact underway.step inOrder (step.passes (before.valid valid))
  obtain ⟨past, rest, rfl, underway⟩ := underway
  exact underway.sublist.trans (List.sublist_append_left past rest)

end NexusLab.Sim
