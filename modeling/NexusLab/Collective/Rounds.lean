import NexusLab.Collective.Executor
import NexusLab.Collective.RingCorrectness

/-! # The books of a collective

Between two events a collective is in some round, all of whose transfers have been issued unless
something has failed, and the transfers that have not drained are entries of the executor's two
maps; or it has ended and published its result.  `InRound` and `Ended` say so of one collective,
`Between` of one that is about to start a round and `Over` of one that is about to end.  None of
them is disturbed by what the executor does for other collectives, which is what `About` says. -/

namespace NexusLab.Collective

open Foundation Sim Workload

/-! ## In flight -/

/-- One for each transfer of a collective. -/
def Pending.one (id : CollectiveId) (p : Pending) : Nat := if p.collective = id then 1 else 0

def Pending.load (id : CollectiveId) (p : Pending) : Nat := if p.collective = id then p.bytes else 0

namespace RingExecutor

/-- The weight of what has not drained. -/
def inFlight (e : RingExecutor) (w : Pending → Nat) : Nat :=
  e.transfers.weigh w + e.locals.weigh fun l => w l.transfer

/-- The rounds of a collective on the timeline, and how it ended. -/
def trail (e : RingExecutor) (id : CollectiveId) : List (Phase × Nat) :=
  (e.timeline.filter fun entry => entry.id = id).map fun entry => (entry.phase, entry.round)

/-- What has been published about a collective, with what was taken before. -/
def results (e : RingExecutor) (published : List CollectiveResult) (id : CollectiveId) :
    List CollectiveResult :=
  (published ++ e.completed).filter fun result => result.id = id

/-- No transfer in flight is empty. -/
structure Loaded (e : RingExecutor) : Prop where
  transfers : ∀ transfer p, e.transfers.find? transfer = some p → p.bytes ≠ 0
  locals : ∀ event found, e.locals.find? event = some found → found.transfer.bytes ≠ 0

variable {e : RingExecutor} {event : EventId} {transfer : TransferId} {found : LocalPending}
  {p : Pending}

theorem inFlight_local (fresh : e.locals.find? event = none) (w : Pending → Nat) :
    inFlight { e with locals := e.locals.insert event found } w =
      e.inFlight w + w found.transfer := by
  simp only [inFlight, OrderedMap.weigh_insert (fun l : LocalPending => w l.transfer) fresh,
    Nat.add_assoc]

theorem inFlight_fabric (fresh : e.transfers.find? transfer = none) (w : Pending → Nat) :
    inFlight { e with transfers := e.transfers.insert transfer p } w = e.inFlight w + w p := by
  simp only [inFlight, OrderedMap.weigh_insert w fresh]
  omega

theorem inFlight_local_drained (isFound : e.locals.find? event = some found) (w : Pending → Nat) :
    e.inFlight w =
      inFlight { e with locals := e.locals.erase event } w + w found.transfer := by
  simp only [inFlight, OrderedMap.weigh_erase (fun l : LocalPending => w l.transfer) isFound,
    Nat.add_assoc]

theorem inFlight_fabric_drained (isFound : e.transfers.find? transfer = some p)
    (w : Pending → Nat) :
    e.inFlight w = inFlight { e with transfers := e.transfers.erase transfer } w + w p := by
  simp only [inFlight, OrderedMap.weigh_erase w isFound]
  omega

/-- There are no more transfers in flight than bytes. -/
theorem Loaded.one_le_load (loaded : e.Loaded) (id : CollectiveId) :
    e.inFlight (Pending.one id) ≤ e.inFlight (Pending.load id) := by
  have light : ∀ p : Pending, p.bytes ≠ 0 → Pending.one id p ≤ Pending.load id p := by
    intro p nonzero
    unfold Pending.one Pending.load
    split <;> omega
  exact Nat.add_le_add
    (OrderedMap.weigh_mono fun _ _ isFound => light _ (loaded.transfers _ _ isFound))
    (OrderedMap.weigh_mono fun _ _ isFound => light _ (loaded.locals _ _ isFound))

/-- Where nothing is in flight, there is nothing to find. -/
theorem apart_of_drained {id : CollectiveId} (drained : e.inFlight (Pending.one id) = 0) :
    (∀ event found, e.locals.find? event = some found → found.transfer.collective ≠ id) ∧
      e.inFlight (Pending.load id) = 0 := by
  have none_of_zero : ∀ p, Pending.one id p = 0 → p.collective ≠ id := by
    intro p zero same
    simp [Pending.one, same] at zero
  have locals : ∀ event found, e.locals.find? event = some found →
      found.transfer.collective ≠ id := by
    intro event found isFound
    have le := OrderedMap.le_weigh (fun l : LocalPending => Pending.one id l.transfer) isFound
    unfold inFlight at drained
    exact none_of_zero _ (by omega)
  refine ⟨locals, ?_⟩
  by_contra loaded
  rcases Nat.eq_zero_or_pos (e.transfers.weigh (Pending.load id)) with zero | heavy
  · have heavy : 0 < e.locals.weigh fun l => Pending.load id l.transfer := by
      unfold inFlight at loaded
      omega
    obtain ⟨event, found, isFound, weight⟩ := OrderedMap.exists_of_weigh_pos heavy
    simp [Pending.load, locals event found isFound] at weight
  · obtain ⟨transfer, p, isFound, weight⟩ := OrderedMap.exists_of_weigh_pos heavy
    have le := OrderedMap.le_weigh (Pending.one id) isFound
    unfold inFlight at drained
    simp [Pending.load, none_of_zero p (by omega)] at weight

end RingExecutor

/-! ## The records -/

namespace Record

def ranks (record : Record) : Nat := record.request.participants.length

def issued (record : Record) : Nat :=
  record.result.issuedLocalBytes + record.result.issuedFabricBytes

/-- The record of a collective that has ended. -/
def ended (now : SimTimeNs) (record : Record) : Record :=
  { record with
    finished := true
    phase := record.endPhase
    result := { record.result with outcome := record.endPhase, finished := now } }

def sentLocally (bytes : Nat) (record : Record) : Record :=
  { record with
    pending := U64.add record.pending 1
    result := { record.result with
      issuedLocalBytes := U64.add record.result.issuedLocalBytes bytes } }

def sentFabric (bytes : Nat) (record : Record) : Record :=
  { record with
    pending := U64.add record.pending 1
    result := { record.result with
      issuedFabricBytes := U64.add record.result.issuedFabricBytes bytes } }

/-- One transfer less is pending, of which so much was delivered. -/
def drained (delivered : Nat) (record : Record) : Record :=
  { record with
    pending := U64.sub record.pending 1
    result := { record.result with
      deliveredBytes := U64.add record.result.deliveredBytes delivered } }

def broken (reason : String) (record : Record) : Record :=
  { record with failed := true, result := { record.result with reason } }

def withdrawn (record : Record) : Record :=
  { record with cancelled := true, result := { record.result with reason := "collective cancelled" } }

theorem endPhase_cases (record : Record) : record.endPhase = .succeeded ∧ record.failed = false ∧
      record.cancelled = false ∨
    (record.endPhase = .failed ∨ record.endPhase = .cancelled) ∧
      (record.failed = true ∨ record.cancelled = true) := by
  unfold endPhase
  cases record.cancelled <;> cases record.failed <;> simp

/-- The collective is one that was accepted. -/
structure Planned (record : Record) (id : CollectiveId) : Prop where
  id : record.result.id = id
  volume : plannedVolume record.ranks record.request.bytes = .ok record.result.plannedBytes
  chunks : record.request.chunkBytes ≠ 0

end Record

/-! ## The state of a collective -/

/-- The collective is in its round number `k`, of which transfers of `sent` bytes have been due. -/
structure InRound (e : RingExecutor) (id : CollectiveId) (record : Record) (k sent : Nat) :
    Prop where
  planned : record.Planned id
  round : (ringRounds record.ranks)[k]? = some (record.phase, record.round)
  running : record.finished = false
  pending : record.pending = e.inFlight (Pending.one id)
  events : ∀ event found, e.locals.find? event = some found → found.transfer.collective = id →
    found.event.round = record.round ∧ found.event.phase = record.phase ∧
      found.event.rank < record.ranks
  issued : record.issued ≤ k * record.request.bytes + sent
  account : record.result.deliveredBytes + e.inFlight (Pending.load id) ≤ record.issued
  whole : record.failed = false → record.issued = k * record.request.bytes + sent ∧
    record.result.deliveredBytes + e.inFlight (Pending.load id) = record.issued
  trail : e.trail id = (ringRounds record.ranks).take (k + 1)

/-- The rounds before number `k` have drained, and nothing has failed. -/
structure Between (e : RingExecutor) (id : CollectiveId) (record : Record) (k : Nat) : Prop where
  planned : record.Planned id
  round : (ringRounds record.ranks)[k]? = some (record.phase, record.round)
  running : record.finished = false
  intact : record.failed = false
  pending : record.pending = 0
  drained : e.inFlight (Pending.one id) = 0
  issued : record.issued = k * record.request.bytes
  delivered : record.result.deliveredBytes = k * record.request.bytes
  trail : e.trail id = (ringRounds record.ranks).take k

/-- Nothing is left to wait for: the collective has failed, was cancelled or is complete. -/
structure Over (e : RingExecutor) (id : CollectiveId) (record : Record) : Prop where
  planned : record.Planned id
  running : record.finished = false
  pending : record.pending = 0
  drained : e.inFlight (Pending.one id) = 0
  account : record.result.deliveredBytes ≤ record.issued
  issued : record.issued ≤ record.result.plannedBytes
  whole : record.endPhase = .succeeded →
    record.result.deliveredBytes = record.result.plannedBytes ∧
      e.trail id = ringRounds record.ranks
  trail : ∃ rounds, e.trail id = (ringRounds record.ranks).take rounds

/-- The collective has ended: its transfers have drained, and its result is published once. -/
structure Ended (e : RingExecutor) (published : List CollectiveResult) (id : CollectiveId)
    (record : Record) : Prop where
  planned : record.Planned id
  finished : record.finished = true
  pending : record.pending = 0
  drained : e.inFlight (Pending.one id) = 0
  ended : record.phase = .succeeded ∨ record.phase = .failed ∨ record.phase = .cancelled
  outcome : record.result.outcome = record.phase
  account : record.result.deliveredBytes ≤ record.issued
  issued : record.issued ≤ record.result.plannedBytes
  whole : record.phase = .succeeded →
    record.result.deliveredBytes = record.result.plannedBytes ∧
      e.trail id = ringRounds record.ranks ++ [(record.phase, record.round)]
  trail : ∃ rounds, e.trail id = (ringRounds record.ranks).take rounds ++
    [(record.phase, record.round)]
  result : e.results published id = [record.result]

/-- What holds of a collective between two events: it waits for transfers of its round, or it has
ended. -/
def Settled (e : RingExecutor) (published : List CollectiveResult) (id : CollectiveId)
    (record : Record) : Prop :=
  (∃ k, InRound e id record k record.request.bytes ∧ 0 < record.pending ∧
    e.results published id = []) ∨ Ended e published id record

/-! ## Frame conditions -/

/-- The change was about one collective: what belongs to the others is as it was. -/
structure About (id : CollectiveId) (e e' : RingExecutor) : Prop where
  records : ∀ other, other ≠ id → e'.records.find? other = e.records.find? other
  one : ∀ other, other ≠ id → e'.inFlight (Pending.one other) = e.inFlight (Pending.one other)
  load : ∀ other, other ≠ id → e'.inFlight (Pending.load other) = e.inFlight (Pending.load other)
  events : ∀ event found, e'.locals.find? event = some found → found.transfer.collective ≠ id →
    e.locals.find? event = some found
  trail : ∀ other, other ≠ id → e'.trail other = e.trail other
  results : ∀ published other, other ≠ id → e'.results published other = e.results published other

namespace About

variable {id other : CollectiveId} {e e' e'' : RingExecutor} {published : List CollectiveResult}
  {record : Record}

theorem refl (id : CollectiveId) (e : RingExecutor) : About id e e :=
  ⟨fun _ _ => rfl, fun _ _ => rfl, fun _ _ => rfl, fun _ _ found _ => found, fun _ _ => rfl,
    fun _ _ _ => rfl⟩

theorem trans (first : About id e e') (second : About id e' e'') : About id e e'' where
  records other apart := (second.records other apart).trans (first.records other apart)
  one other apart := (second.one other apart).trans (first.one other apart)
  load other apart := (second.load other apart).trans (first.load other apart)
  events event found isFound apart :=
    first.events event found (second.events event found isFound apart) apart
  trail other apart := (second.trail other apart).trans (first.trail other apart)
  results published other apart :=
    (second.results published other apart).trans (first.results published other apart)

theorem inRound (about : About id e e') (apart : other ≠ id) {k sent : Nat}
    (inRound : InRound e other record k sent) : InRound e' other record k sent where
  planned := inRound.planned
  round := inRound.round
  running := inRound.running
  pending := by rw [about.one other apart, inRound.pending]
  events event found isFound belongs :=
    inRound.events event found (about.events event found isFound (belongs ▸ apart)) belongs
  issued := inRound.issued
  account := by rw [about.load other apart]; exact inRound.account
  whole intact := by rw [about.load other apart]; exact inRound.whole intact
  trail := (about.trail other apart).trans inRound.trail

theorem ended (about : About id e e') (apart : other ≠ id)
    (ended : Ended e published other record) : Ended e' published other record :=
  { ended with
    drained := (about.one other apart).trans ended.drained
    whole := by rw [about.trail other apart]; exact ended.whole
    trail := by rw [about.trail other apart]; exact ended.trail
    result := (about.results published other apart).trans ended.result }

theorem settled (about : About id e e') (apart : other ≠ id)
    (settled : Settled e published other record) : Settled e' published other record := by
  rcases settled with ⟨k, inRound, pending, results⟩ | ended
  · exact .inl ⟨k, about.inRound apart inRound, pending,
      (about.results published other apart).trans results⟩
  · exact .inr (about.ended apart ended)

/-! The small changes. -/

theorem adjust (f : Record → Record) :
    About id e { e with records := e.records.adjust id f } :=
  { refl id e with records := fun _ apart => OrderedMap.find?_adjust_of_ne _ _ apart }

theorem flow (nextFlow : Nat) : About id e { e with nextFlow } := { refl id e with }

theorem traced {entry : CollectiveTimeline} (same : entry.id = id) :
    About id e { e with timeline := e.timeline ++ [entry] } :=
  { refl id e with
    trail := fun other apart => by
      have skipped : ¬ entry.id = other := fun isOther => apart (isOther.symm.trans same)
      simp [RingExecutor.trail, skipped] }

theorem announced {result : CollectiveResult} (same : result.id = id) :
    About id e { e with completed := e.completed ++ [result] } :=
  { refl id e with
    results := fun taken other apart => by
      have skipped : ¬ result.id = other := fun isOther => apart (isOther.symm.trans same)
      simp [RingExecutor.results, skipped] }

theorem weight_of_ne {p : Pending} (same : p.collective = id) (apart : other ≠ id) :
    Pending.one other p = 0 ∧ Pending.load other p = 0 := by
  have skipped : ¬ p.collective = other := fun isOther => apart (isOther.symm.trans same)
  simp [Pending.one, Pending.load, skipped]

theorem submitted {entry : Record} (entries : Nat) : About id e { e with
    records := e.records.insert id entry, participantEntries := entries } :=
  { refl id e with records := fun _ apart => OrderedMap.find?_insert_of_ne _ _ apart }

theorem sentLocally {event : EventId} {found : LocalPending} (fresh : e.locals.find? event = none)
    (same : found.transfer.collective = id) :
    About id e { e with locals := e.locals.insert event found } :=
  { refl id e with
    one := fun other apart => by
      rw [RingExecutor.inFlight_local fresh, (weight_of_ne same apart).1, Nat.add_zero]
    load := fun other apart => by
      rw [RingExecutor.inFlight_local fresh, (weight_of_ne same apart).2, Nat.add_zero]
    events := fun event' found' isFound apart => by
      by_cases here : event' = event
      · subst here
        rw [OrderedMap.find?_insert_self] at isFound
        cases isFound
        exact absurd same apart
      · rwa [OrderedMap.find?_insert_of_ne _ _ here] at isFound }

theorem sentFabric {transfer : TransferId} {p : Pending} (fresh : e.transfers.find? transfer = none)
    (same : p.collective = id) :
    About id e { e with transfers := e.transfers.insert transfer p } :=
  { refl id e with
    one := fun other apart => by
      rw [RingExecutor.inFlight_fabric fresh, (weight_of_ne same apart).1, Nat.add_zero]
    load := fun other apart => by
      rw [RingExecutor.inFlight_fabric fresh, (weight_of_ne same apart).2, Nat.add_zero] }

theorem drainedLocally {event : EventId} {found : LocalPending}
    (isFound : e.locals.find? event = some found) (same : found.transfer.collective = id) :
    About id e { e with locals := e.locals.erase event } :=
  { refl id e with
    one := fun other apart => by
      rw [RingExecutor.inFlight_local_drained isFound, (weight_of_ne same apart).1, Nat.add_zero]
    load := fun other apart => by
      rw [RingExecutor.inFlight_local_drained isFound, (weight_of_ne same apart).2, Nat.add_zero]
    events := fun event' found' isFound' _ => by
      by_cases here : event' = event
      · simp [here] at isFound'
      · rwa [OrderedMap.find?_erase_of_ne _ here] at isFound' }

theorem drainedFabric {transfer : TransferId} {p : Pending}
    (isFound : e.transfers.find? transfer = some p) (same : p.collective = id) :
    About id e { e with transfers := e.transfers.erase transfer } :=
  { refl id e with
    one := fun other apart => by
      rw [RingExecutor.inFlight_fabric_drained isFound, (weight_of_ne same apart).1, Nat.add_zero]
    load := fun other apart => by
      rw [RingExecutor.inFlight_fabric_drained isFound, (weight_of_ne same apart).2,
        Nat.add_zero] }

end About

/-! ## Rounds -/

theorem length_ringRounds (participants : Nat) :
    (ringRounds participants).length = 2 * (participants - 1) := by
  simp [ringRounds]
  omega

theorem ringRounds_getElem? {participants k round : Nat} {phase : Phase} :
    (ringRounds participants)[k]? = some (phase, round) ↔
      phase = .reduceScatter ∧ round = k ∧ k < participants - 1 ∨
      phase = .allGather ∧ participants - 1 + round = k ∧ round < participants - 1 := by
  unfold ringRounds
  by_cases first : k < participants - 1
  · rw [List.getElem?_append_left (by simpa using first)]
    simp [List.getElem?_map, List.getElem?_range first]
    grind
  · rw [List.getElem?_append_right (by simpa using first)]
    by_cases second : k - (participants - 1) < participants - 1
    · simp [List.getElem?_map, List.getElem?_range second]
      grind
    · rw [List.getElem?_eq_none (by simpa using second)]
      grind

namespace Record

variable {record : Record} {id : CollectiveId} {k : Nat}

theorem Planned.volume_eq (planned : record.Planned id) :
    1 ≤ record.ranks ∧ record.ranks ≤ 8192 ∧ 1 ≤ record.request.bytes ∧
      record.result.plannedBytes = 2 * (record.ranks - 1) * record.request.bytes ∧
      record.result.plannedBytes ≤ maxU64 := by
  obtain ⟨one, small, nonzero, fits, isVolume⟩ := plannedVolume_eq_ok planned.volume
  exact ⟨one, small, nonzero, isVolume, isVolume ▸ fits⟩

/-- A round that is planned fits into the planned volume. -/
theorem Planned.room (planned : record.Planned id) {at_k : Phase × Nat}
    (round : (ringRounds record.ranks)[k]? = some at_k) :
    (k + 1) * record.request.bytes ≤ record.result.plannedBytes := by
  obtain ⟨inRange, _⟩ := List.getElem?_eq_some_iff.mp round
  rw [length_ringRounds] at inRange
  rw [planned.volume_eq.2.2.2.1]
  exact Nat.mul_le_mul_right _ inRange

theorem nextRound_eq (record : Record) :
    ∃ phase round, record.nextRound = { record with phase, round } := by
  unfold nextRound
  simp only
  split
  · exact ⟨_, _, rfl⟩
  · exact ⟨record.phase, _, rfl⟩

/-- The round after round number `k` is round number `k + 1`, or there is none. -/
theorem nextRound_at (small : record.ranks ≤ 8192)
    (round : (ringRounds record.ranks)[k]? = some (record.phase, record.round)) :
    if U32.add record.round 1 = record.ranks - 1 ∧ record.phase = .allGather then
      k + 1 = 2 * (record.ranks - 1)
    else (ringRounds record.ranks)[k + 1]? =
      some (record.nextRound.phase, record.nextRound.round) := by
  have position := ringRounds_getElem?.mp round
  have exact_add : U32.add record.round 1 = record.round + 1 := U32.add_eq (by omega)
  have isRanks : record.request.participants.length = record.ranks := rfl
  rw [exact_add]
  split
  · rename_i last
    rcases position with ⟨isReduce, _, _⟩ | ⟨_, at_k, _⟩
    · rw [isReduce] at last
      cases last.2
    · omega
  · rename_i more
    rw [ringRounds_getElem?]
    unfold nextRound
    simp only [exact_add, isRanks]
    split
    · rename_i turn
      rcases position with ⟨_, at_k, _⟩ | ⟨isGather, _, _⟩
      · exact .inr ⟨rfl, by simp only; omega, by simp only; omega⟩
      · exact absurd isGather turn.2
    · rename_i still
      rcases position with ⟨isReduce, at_k, _⟩ | ⟨isGather, at_k, _⟩
      · have apart : record.round + 1 ≠ record.ranks - 1 :=
          fun same => still ⟨same, by simp [isReduce]⟩
        exact .inl ⟨isReduce, by simp only; omega, by omega⟩
      · have apart : record.round + 1 ≠ record.ranks - 1 := fun same => more ⟨same, isGather⟩
        exact .inr ⟨isGather, by simp only; omega, by simp only; omega⟩

end Record

/-! ## What happens to a collective -/

section Transitions

variable {e e' : RingExecutor} {id : CollectiveId} {record record' : Record} {k sent : Nat}

namespace InRound

theorem broken (inRound : InRound e id record k sent) (reason : String) :
    InRound e id (record.broken reason) k sent :=
  { inRound with
    planned := ⟨inRound.planned.id, inRound.planned.volume, inRound.planned.chunks⟩
    whole := fun intact => by cases intact }

theorem withdrawn (inRound : InRound e id record k sent) : InRound e id record.withdrawn k sent :=
  { inRound with planned := ⟨inRound.planned.id, inRound.planned.volume, inRound.planned.chunks⟩ }

/-- Once something has failed, what is still due is not issued. -/
theorem skipped (inRound : InRound e id record k sent) (failed : record.failed = true)
    {due : Nat} (later : sent ≤ due) : InRound e id record k due :=
  { inRound with
    issued := inRound.issued.trans (Nat.add_le_add_left later _)
    whole := fun intact => by simp [failed] at intact }

/-- A round is issued within the planned volume, so no counter overflows. -/
theorem fits (inRound : InRound e id record k sent) (loaded : e.Loaded) {bytes : Nat}
    (due : sent + bytes ≤ record.request.bytes) :
    record.issued + bytes ≤ record.result.plannedBytes ∧ record.issued + bytes ≤ maxU64 ∧
      record.pending ≤ record.issued := by
  have room := inRound.planned.room inRound.round
  have small := inRound.planned.volume_eq.2.2.2.2
  have issued := inRound.issued
  have light := loaded.one_le_load id
  have account := inRound.account
  have pending := inRound.pending
  rw [Nat.succ_mul] at room
  omega

/-- One more transfer is in flight. -/
theorem issue (inRound : InRound e id record k sent) {bytes issuedLocal issuedFabric : Nat}
    (issued : issuedLocal + issuedFabric = record.issued + bytes)
    (one : e'.inFlight (Pending.one id) = e.inFlight (Pending.one id) + 1)
    (load : e'.inFlight (Pending.load id) = e.inFlight (Pending.load id) + bytes)
    (events : ∀ event found, e'.locals.find? event = some found → found.transfer.collective = id →
      found.event.round = record.round ∧ found.event.phase = record.phase ∧
        found.event.rank < record.ranks)
    (trail : e'.trail id = e.trail id) :
    InRound e' id { record with
      pending := record.pending + 1
      result := { record.result with
        issuedLocalBytes := issuedLocal, issuedFabricBytes := issuedFabric } } k (sent + bytes) := by
  have isIssued := inRound.issued
  have account := inRound.account
  refine ⟨⟨inRound.planned.id, inRound.planned.volume, inRound.planned.chunks⟩, inRound.round,
    inRound.running, ?_, events, ?_, ?_, ?_, trail.trans inRound.trail⟩
  · exact (congrArg (· + 1) inRound.pending).trans one.symm
  · show issuedLocal + issuedFabric ≤ k * record.request.bytes + (sent + bytes)
    omega
  · show record.result.deliveredBytes + _ ≤ issuedLocal + issuedFabric
    omega
  · intro intact
    obtain ⟨allIssued, allAccounted⟩ := inRound.whole intact
    constructor
    · show issuedLocal + issuedFabric = k * record.request.bytes + (sent + bytes)
      omega
    · show record.result.deliveredBytes + _ = issuedLocal + issuedFabric
      omega

theorem sentLocally (inRound : InRound e id record k sent) (loaded : e.Loaded) {bytes : Nat}
    (nonzero : bytes ≠ 0) (due : sent + bytes ≤ record.request.bytes) {event : EventId} {rank : Nat}
    (fresh : e.locals.find? event = none) (isRank : rank < record.ranks) :
    InRound { e with
        locals := e.locals.insert event ⟨⟨id, bytes⟩, ⟨id, record.round, rank, record.phase⟩⟩ }
      id (record.sentLocally bytes) k (sent + bytes) := by
  obtain ⟨_, small, le⟩ := inRound.fits loaded due
  have exact_issued : U64.add record.result.issuedLocalBytes bytes =
      record.result.issuedLocalBytes + bytes := U64.add_eq (by
    unfold Record.issued maxU64 at small
    omega)
  have exact_pending : U64.add record.pending 1 = record.pending + 1 := U64.add_eq (by
    unfold maxU64 at small
    omega)
  unfold Record.sentLocally
  rw [exact_issued, exact_pending]
  refine inRound.issue ?_ ?_ ?_ ?_ rfl
  · unfold Record.issued
    omega
  · simp [RingExecutor.inFlight_local fresh, Pending.one]
  · simp [RingExecutor.inFlight_local fresh, Pending.load]
  · intro event' found isFound belongs
    by_cases here : event' = event
    · subst here
      rw [OrderedMap.find?_insert_self] at isFound
      cases isFound
      exact ⟨rfl, rfl, isRank⟩
    · rw [OrderedMap.find?_insert_of_ne _ _ here] at isFound
      exact inRound.events event' found isFound belongs

theorem sentFabric (inRound : InRound e id record k sent) (loaded : e.Loaded) {bytes : Nat}
    (nonzero : bytes ≠ 0) (due : sent + bytes ≤ record.request.bytes) {transfer : TransferId}
    (fresh : e.transfers.find? transfer = none) :
    InRound { e with transfers := e.transfers.insert transfer ⟨id, bytes⟩ } id
      (record.sentFabric bytes) k (sent + bytes) := by
  obtain ⟨_, small, le⟩ := inRound.fits loaded due
  have exact_issued : U64.add record.result.issuedFabricBytes bytes =
      record.result.issuedFabricBytes + bytes := U64.add_eq (by
    unfold Record.issued maxU64 at small
    omega)
  have exact_pending : U64.add record.pending 1 = record.pending + 1 := U64.add_eq (by
    unfold maxU64 at small
    omega)
  unfold Record.sentFabric
  rw [exact_issued, exact_pending]
  refine inRound.issue ?_ ?_ ?_ inRound.events rfl
  · unfold Record.issued
    omega
  · simp [RingExecutor.inFlight_fabric fresh, Pending.one]
  · simp [RingExecutor.inFlight_fabric fresh, Pending.load]

/-- One transfer less is in flight, and all of it was delivered unless something has failed. -/
theorem drain (inRound : InRound e id record k record.request.bytes) (loaded : e.Loaded)
    {bytes delivered : Nat}
    (one : e.inFlight (Pending.one id) = e'.inFlight (Pending.one id) + 1)
    (load : e.inFlight (Pending.load id) = e'.inFlight (Pending.load id) + bytes)
    (le : delivered ≤ bytes) (whole : record.failed = false → delivered = bytes)
    (events : ∀ event found, e'.locals.find? event = some found →
      e.locals.find? event = some found) (trail : e'.trail id = e.trail id) :
    InRound e' id (record.drained delivered) k record.request.bytes := by
  have before := inRound.pending
  have account := inRound.account
  have room := inRound.planned.room inRound.round
  have small := inRound.planned.volume_eq.2.2.2.2
  have issued := inRound.issued
  have light := loaded.one_le_load id
  rw [Nat.succ_mul] at room
  have bound : record.issued ≤ maxU64 := by omega
  have exact_pending : U64.sub record.pending 1 = record.pending - 1 :=
    U64.sub_eq (by omega) (by unfold maxU64 at bound; omega)
  have exact_delivered : U64.add record.result.deliveredBytes delivered =
      record.result.deliveredBytes + delivered :=
    U64.add_eq (by unfold maxU64 at bound; omega)
  refine ⟨⟨inRound.planned.id, inRound.planned.volume, inRound.planned.chunks⟩, inRound.round,
    inRound.running, ?_, ?_, issued, ?_, ?_, trail.trans inRound.trail⟩
  · show U64.sub record.pending 1 = _
    omega
  · exact fun event found isFound belongs =>
      inRound.events event found (events event found isFound) belongs
  · show U64.add record.result.deliveredBytes delivered + _ ≤ record.issued
    omega
  · intro intact
    obtain ⟨allIssued, allAccounted⟩ := inRound.whole intact
    have all := whole intact
    refine ⟨allIssued, ?_⟩
    show U64.add record.result.deliveredBytes delivered + _ = record.issued
    omega

theorem drainLocally (inRound : InRound e id record k record.request.bytes) (loaded : e.Loaded)
    {event : EventId} {found : LocalPending} (isFound : e.locals.find? event = some found)
    (same : found.transfer.collective = id) :
    InRound { e with locals := e.locals.erase event } id (record.drained found.transfer.bytes) k
      record.request.bytes := by
  refine inRound.drain loaded ?_ ?_ le_rfl (fun _ => rfl) ?_ rfl
  · rw [RingExecutor.inFlight_local_drained isFound, Pending.one, if_pos same]
  · rw [RingExecutor.inFlight_local_drained isFound, Pending.load, if_pos same]
  · exact fun _ _ isFound => (OrderedMap.find?_of_erase isFound).2

theorem drainFabric (inRound : InRound e id record k record.request.bytes) (loaded : e.Loaded)
    {transfer : TransferId} {p : Pending} (isFound : e.transfers.find? transfer = some p)
    (same : p.collective = id) {delivered : Nat} (le : delivered ≤ p.bytes)
    (whole : record.failed = false → delivered = p.bytes) :
    InRound { e with transfers := e.transfers.erase transfer } id (record.drained delivered) k
      record.request.bytes := by
  refine inRound.drain loaded ?_ ?_ le whole (fun _ _ isFound => isFound) rfl
  · rw [RingExecutor.inFlight_fabric_drained isFound, Pending.one, if_pos same]
  · rw [RingExecutor.inFlight_fabric_drained isFound, Pending.load, if_pos same]

/-- A round that has drained after a failure or a cancellation was the last one. -/
theorem isOver (inRound : InRound e id record k record.request.bytes) (pending : record.pending = 0)
    (stopped : record.failed = true ∨ record.cancelled = true) : Over e id record where
  planned := inRound.planned
  running := inRound.running
  pending := pending
  drained := inRound.pending.symm.trans pending
  account := (Nat.le_add_right _ _).trans inRound.account
  issued := by
    have room := inRound.planned.room inRound.round
    rw [Nat.succ_mul] at room
    exact inRound.issued.trans room
  whole succeeded := by
    rcases record.endPhase_cases with ⟨_, intact, kept⟩ | ⟨other, _⟩
    · simp [intact, kept] at stopped
    · simp [succeeded] at other
  trail := ⟨k + 1, inRound.trail⟩

/-- What has been delivered when a round has drained and nothing has failed. -/
theorem delivered (inRound : InRound e id record k record.request.bytes)
    (pending : record.pending = 0) (intact : record.failed = false) :
    record.issued = (k + 1) * record.request.bytes ∧
      record.result.deliveredBytes = (k + 1) * record.request.bytes := by
  have drained := (RingExecutor.apart_of_drained (inRound.pending.symm.trans pending)).2
  obtain ⟨allIssued, allDelivered⟩ := inRound.whole intact
  rw [Nat.succ_mul]
  omega

/-- The last round has drained. -/
theorem complete (inRound : InRound e id record k record.request.bytes)
    (pending : record.pending = 0) (intact : record.failed = false)
    (last : k + 1 = 2 * (record.ranks - 1)) (phase : Phase) (round : Nat) :
    Over e id { record with phase, round } := by
  obtain ⟨issued, delivered⟩ := inRound.delivered pending intact
  have volume := inRound.planned.volume_eq.2.2.2.1
  rw [← last, ← delivered] at volume
  have trail := inRound.trail
  rw [List.take_of_length_le (by rw [length_ringRounds]; omega)] at trail
  refine ⟨⟨inRound.planned.id, inRound.planned.volume, inRound.planned.chunks⟩, inRound.running,
    pending, inRound.pending.symm.trans pending, ?_, ?_, fun _ => ⟨volume.symm, trail⟩,
    2 * (record.ranks - 1), ?_⟩
  · exact (delivered.trans issued.symm).le
  · exact (issued.trans (delivered.symm.trans volume.symm)).le
  · exact trail.trans (List.take_of_length_le (length_ringRounds _).le).symm

/-- Another round follows. -/
theorem next (inRound : InRound e id record k record.request.bytes) (pending : record.pending = 0)
    (intact : record.failed = false)
    (more : (ringRounds record.ranks)[k + 1]? =
      some (record.nextRound.phase, record.nextRound.round)) :
    Between e id record.nextRound (k + 1) := by
  obtain ⟨issued, delivered⟩ := inRound.delivered pending intact
  obtain ⟨phase, round, isNext⟩ := record.nextRound_eq
  rw [isNext] at more ⊢
  exact ⟨⟨inRound.planned.id, inRound.planned.volume, inRound.planned.chunks⟩, more,
    inRound.running, intact, pending, inRound.pending.symm.trans pending, issued, delivered,
    inRound.trail⟩

/-- A round that nobody waits for and that has delivered nothing was cut short. -/
theorem cut_short (inRound : InRound e id record k record.request.bytes)
    (pending : record.pending = 0)
    (delivered : record.result.deliveredBytes = k * record.request.bytes) :
    record.failed = true := by
  by_contra intact
  have all := (inRound.delivered pending (by simpa using intact)).2
  have nonzero : 1 ≤ record.request.bytes := inRound.planned.volume_eq.2.2.1
  rw [delivered, Nat.succ_mul] at all
  exact absurd all (Nat.ne_of_lt (Nat.lt_add_of_pos_right nonzero))

end InRound

theorem trail_traced {id : CollectiveId} (now : SimTimeNs) (phase : Phase) (round : Nat) :
    RingExecutor.trail { e with timeline := e.timeline ++ [⟨id, now, phase, round⟩] } id =
      e.trail id ++ [(phase, round)] := by
  simp [RingExecutor.trail]

/-- A round begins: it is on the timeline, and nothing of it is due yet. -/
theorem Between.begin (between : Between e id record k) (now : SimTimeNs) :
    InRound { e with timeline := e.timeline ++ [⟨id, now, record.phase, record.round⟩] } id record
      k 0 where
  planned := between.planned
  round := between.round
  running := between.running
  pending := between.pending.trans between.drained.symm
  events event found isFound belongs :=
    absurd belongs ((RingExecutor.apart_of_drained between.drained).1 event found isFound)
  issued := between.issued.le
  account := by
    have nothing := (RingExecutor.apart_of_drained between.drained).2
    have same := between.delivered.trans between.issued.symm
    show record.result.deliveredBytes + e.inFlight (Pending.load id) ≤ _
    omega
  whole _ := by
    have nothing := (RingExecutor.apart_of_drained between.drained).2
    have same := between.delivered.trans between.issued.symm
    refine ⟨between.issued, ?_⟩
    show record.result.deliveredBytes + e.inFlight (Pending.load id) = _
    omega
  trail := by
    rw [trail_traced, between.trail, List.take_add_one, between.round]
    rfl

/-- The executor after the end of a collective. -/
def RingExecutor.ending (e : RingExecutor) (id : CollectiveId) (now : SimTimeNs)
    (record : Record) : RingExecutor :=
  { e with
    records := e.records.adjust id (Record.ended now)
    timeline := e.timeline ++ [⟨id, now, record.endPhase, record.round⟩]
    completed := e.completed ++ [(record.ended now).result] }

@[simp] theorem trail_ending (now : SimTimeNs) : (e.ending id now record).trail id =
    e.trail id ++ [(record.endPhase, record.round)] := trail_traced now _ _

theorem About.ending (same : record.result.id = id) (now : SimTimeNs) :
    About id e (e.ending id now record) :=
  (About.adjust (Record.ended now)).trans
    ((About.traced (show CollectiveTimeline.id ⟨id, now, record.endPhase, record.round⟩ = id from
      rfl)).trans (About.announced same))

theorem Over.ended (isOver : Over e id record) {published : List CollectiveResult}
    (unpublished : e.results published id = []) (now : SimTimeNs) :
    Ended (e.ending id now record) published id (record.ended now) where
  planned := ⟨isOver.planned.id, isOver.planned.volume, isOver.planned.chunks⟩
  finished := rfl
  pending := isOver.pending
  drained := isOver.drained
  ended := by
    rcases record.endPhase_cases with ⟨succeeded, _⟩ | ⟨other, _⟩
    · exact .inl succeeded
    · exact .inr other
  outcome := rfl
  account := isOver.account
  issued := isOver.issued
  whole succeeded := by
    obtain ⟨delivered, trail⟩ := isOver.whole succeeded
    refine ⟨delivered, ?_⟩
    rw [trail_ending, trail]
    rfl
  trail := by
    obtain ⟨rounds, trail⟩ := isOver.trail
    refine ⟨rounds, ?_⟩
    rw [trail_ending, trail]
    rfl
  result := by
    have isId : (record.ended now).result.id = id := isOver.planned.id
    simp only [RingExecutor.results, RingExecutor.ending, ← List.append_assoc, List.filter_append]
    rw [show List.filter _ published ++ List.filter _ e.completed = [] by
      rw [← List.filter_append]
      exact unpublished]
    simp [isId]

end Transitions

end NexusLab.Collective
