import NexusLab.Sim.Event
import Mathlib.Data.List.Sort

/-! # The event queue

A heap under the source's comparator hands out its events in the order of the comparator, and
this order is total once identifiers differ.  The queue is therefore the list of its events in
that order; `push` inserts and `pop` takes the head. -/

namespace NexusLab.Sim

/-- The order of dispatch: timestamp, then priority, then identifier. -/
def Event.key (e : Event) : ℕ ×ₗ ℕ ×ₗ ℕ :=
  toLex (e.timestamp, toLex (e.priority.value, e.id.value))

/-- `LaterEvent`, the comparator of the source. -/
def laterEvent (left right : Event) : Bool :=
  if left.timestamp ≠ right.timestamp then left.timestamp > right.timestamp
  else if left.priority ≠ right.priority then left.priority.value > right.priority.value
  else left.id > right.id

theorem laterEvent_iff {left right : Event} : laterEvent left right = true ↔ right.key < left.key := by
  unfold laterEvent Event.key
  rw [Prod.Lex.toLex_lt_toLex, Prod.Lex.toLex_lt_toLex]
  by_cases times : left.timestamp = right.timestamp
  · by_cases priorities : left.priority = right.priority
    · simp [times, priorities, StrongId.lt_iff]
    · have differ : left.priority.value ≠ right.priority.value :=
        fun same => priorities (EventPriority.value_injective same)
      simp [times, priorities, differ.symm]
  · simp [times, Ne.symm times]

theorem Event.key_timestamp_le {a b : Event} (le : a.key ≤ b.key) : a.timestamp ≤ b.timestamp := by
  rcases Prod.Lex.le_iff.mp le with lt | ⟨same, _⟩
  · exact le_of_lt lt
  · exact le_of_eq same

/-- Inserts an event before the first one that is later. -/
def insertEvent (event : Event) : List Event → List Event
  | [] => [event]
  | head :: rest =>
    if laterEvent head event then event :: head :: rest else head :: insertEvent event rest

theorem insertEvent_perm (event : Event) (events : List Event) :
    (insertEvent event events).Perm (event :: events) := by
  induction events with
  | nil => exact .refl _
  | cons head rest ih =>
    simp only [insertEvent]
    split
    · exact .refl _
    · exact (ih.cons head).trans (List.Perm.swap _ _ _)

theorem insertEvent_sorted {event : Event} {events : List Event}
    (sorted : events.Pairwise (fun a b => a.key ≤ b.key)) :
    (insertEvent event events).Pairwise (fun a b => a.key ≤ b.key) := by
  induction events with
  | nil => simp [insertEvent]
  | cons head rest ih =>
    obtain ⟨below, tail⟩ := List.pairwise_cons.mp sorted
    simp only [insertEvent]
    split
    · rename_i later
      have before : event.key ≤ head.key := le_of_lt (laterEvent_iff.mp later)
      refine List.pairwise_cons.mpr ⟨?_, sorted⟩
      intro e he
      rcases List.mem_cons.mp he with rfl | he
      · exact before
      · exact before.trans (below e he)
    · rename_i notLater
      have after : head.key ≤ event.key := not_lt.mp fun lt => notLater (laterEvent_iff.mpr lt)
      refine List.pairwise_cons.mpr ⟨?_, ih tail⟩
      intro e he
      rcases List.mem_cons.mp ((insertEvent_perm event rest).mem_iff.mp he) with rfl | he
      · exact after
      · exact below e he

structure EventQueue where
  events : List Event := []
  sorted : events.Pairwise (fun a b => a.key ≤ b.key) := by exact List.Pairwise.nil

namespace EventQueue

def empty : EventQueue := {}

def size (q : EventQueue) : Nat := q.events.length

def push (q : EventQueue) (event : Event) : EventQueue :=
  ⟨insertEvent event q.events, insertEvent_sorted q.sorted⟩

/-- The first event and the rest of the queue. -/
def pop (q : EventQueue) : Option (Event × EventQueue) :=
  match q with
  | ⟨[], _⟩ => none
  | ⟨event :: rest, sorted⟩ => some (event, ⟨rest, (List.pairwise_cons.mp sorted).2⟩)

theorem push_perm (q : EventQueue) (event : Event) :
    (q.push event).events.Perm (event :: q.events) := insertEvent_perm event q.events

@[simp] theorem mem_push {q : EventQueue} {event e : Event} :
    e ∈ (q.push event).events ↔ e = event ∨ e ∈ q.events := by
  rw [(q.push_perm event).mem_iff, List.mem_cons]

theorem pop_eq_none {q : EventQueue} : q.pop = none ↔ q.events = [] := by
  obtain ⟨events, sorted⟩ := q
  cases events <;> simp [pop]

theorem pop_eq_some {q rest : EventQueue} {event : Event} :
    q.pop = some (event, rest) ↔ q.events = event :: rest.events := by
  obtain ⟨events, sorted⟩ := q
  obtain ⟨restEvents, restSorted⟩ := rest
  cases events with
  | nil => simp [pop]
  | cons head tail => simp [pop]

end EventQueue

end NexusLab.Sim
