import NexusLab.Transport.LinkSpec
import NexusLab.Transport.Placement

/-! # The books of the transfers

Each transfer counts the ends of its chunks as they happen.  `Accounts` says that these counters
are at all times what a recount over the chunk records gives, and that a completion is published
when the last chunk ends and only then. -/

namespace NexusLab.Transport

open Foundation Sim NexusLab.Topology

/-! ## Recounting -/

/-- What a chunk counts for. -/
def ChunkRecord.weight (record : ChunkRecord) : TrafficCount := ⟨record.chunk.bytes, 1⟩

/-- What a chunk adds to the count of the chunks in certain states. -/
def share (chunks : OrderedMap ChunkId ChunkRecord) (counted : ChunkTransitState → Bool)
    (chunk : ChunkId) : TrafficCount :=
  match chunks.find? chunk with
  | some record => if counted record.state then record.weight else 0
  | none => 0

/-- The traffic of those listed chunks that are in certain states. -/
def tally (chunks : OrderedMap ChunkId ChunkRecord) (counted : ChunkTransitState → Bool)
    (ids : List ChunkId) : TrafficCount :=
  (ids.map (share chunks counted)).sum

section Tally

variable {chunks chunks' : OrderedMap ChunkId ChunkRecord}
  {counted counted' both : ChunkTransitState → Bool} {ids : List ChunkId} {chunk : ChunkId}
  {record record' : ChunkRecord}

@[simp] theorem tally_nil : tally chunks counted [] = 0 := rfl

@[simp] theorem tally_cons : tally chunks counted (chunk :: ids) =
    share chunks counted chunk + tally chunks counted ids := by
  simp [tally]

theorem tally_append {more : List ChunkId} : tally chunks counted (ids ++ more) =
    tally chunks counted ids + tally chunks counted more := by
  simp [tally]

theorem tally_congr (same : ∀ chunk ∈ ids, share chunks' counted' chunk = share chunks counted chunk) :
    tally chunks' counted' ids = tally chunks counted ids := by
  unfold tally
  rw [List.map_congr_left same]

/-- Disjoint classes of states are counted separately. -/
theorem tally_split (split : ∀ state, both state = (counted state || counted' state))
    (disjoint : ∀ state, counted state = true → counted' state = false) :
    tally chunks both ids = tally chunks counted ids + tally chunks counted' ids := by
  induction ids with
  | nil => simp
  | cons chunk ids ih =>
    have here : share chunks both chunk = share chunks counted chunk + share chunks counted' chunk := by
      unfold share
      cases chunks.find? chunk with
      | none => simp
      | some record =>
        simp only [split]
        cases first : counted record.state with
        | true => simp [disjoint _ first]
        | false => simp
    rw [tally_cons, tally_cons, tally_cons, here, ih, add_add_add_comm]

theorem share_insert_of_ne {other : ChunkId} (differs : other ≠ chunk) :
    share (chunks.insert chunk record) counted other = share chunks counted other := by
  simp [share, differs]

theorem share_insert_self :
    share (chunks.insert chunk record) counted chunk =
      if counted record.state then record.weight else 0 := by
  simp [share]

/-- A record that changes class moves its weight. -/
theorem tally_insert (nodup : ids.Nodup) (member : chunk ∈ ids) (found : chunks.find? chunk = some record)
    (before : counted record.state = false) (after : counted record'.state = true) :
    tally (chunks.insert chunk record') counted ids =
      tally chunks counted ids + record'.weight := by
  induction ids with
  | nil => cases member
  | cons head ids ih =>
    obtain ⟨fresh, nodup⟩ := List.nodup_cons.mp nodup
    rw [tally_cons, tally_cons]
    by_cases here : head = chunk
    · subst here
      have rest : tally (chunks.insert head record') counted ids = tally chunks counted ids :=
        tally_congr fun other member => share_insert_of_ne fun same => fresh (same ▸ member)
      rw [share_insert_self, rest]
      simp only [share, found, before, after]
      simp [add_comm]
    · have member : chunk ∈ ids := by
        cases member with
        | head => exact absurd rfl here
        | tail _ member => exact member
      rw [share_insert_of_ne here, ih nodup member, add_assoc]

/-- A record that stays in its class counts as before. -/
theorem tally_insert_same (found : chunks.find? chunk = some record)
    (same : counted record'.state = counted record.state)
    (bytes : record'.chunk.bytes = record.chunk.bytes) :
    tally (chunks.insert chunk record') counted ids = tally chunks counted ids := by
  apply tally_congr
  intro other _
  by_cases here : other = chunk
  · subst here
    rw [share_insert_self]
    simp [share, found, same, ChunkRecord.weight, bytes]
  · exact share_insert_of_ne here

theorem tally_insert_fresh (absent : chunk ∉ ids) :
    tally (chunks.insert chunk record) counted ids = tally chunks counted ids :=
  tally_congr fun _ member => share_insert_of_ne fun same => absent (same ▸ member)

/-- Nothing is counted exactly when no listed chunk is in such a state. -/
theorem tally_chunks_eq_zero : (tally chunks counted ids).chunks = 0 ↔
    ∀ chunk ∈ ids, ∀ record, chunks.find? chunk = some record → counted record.state = false := by
  induction ids with
  | nil => simp
  | cons head ids ih =>
    rw [tally_cons, TrafficCount.add_chunks, Nat.add_eq_zero_iff, ih, List.forall_mem_cons]
    apply and_congr_left
    intro _
    unfold share
    cases chunks.find? head with
    | none => simp
    | some record =>
      cases counts : counted record.state <;> simp [counts, ChunkRecord.weight]

theorem tally_eq_zero (none_counted : ∀ chunk ∈ ids, ∀ record, chunks.find? chunk = some record →
    counted record.state = false) : tally chunks counted ids = 0 := by
  have same : ∀ chunk ∈ ids, share chunks counted chunk = share chunks (fun _ => false) chunk := by
    intro chunk member
    unfold share
    cases found : chunks.find? chunk with
    | none => rfl
    | some record => simp [none_counted chunk member record found]
  rw [tally_congr same]
  clear same none_counted
  induction ids with
  | nil => rfl
  | cons head ids ih =>
    rw [tally_cons, ih]
    unfold share
    cases chunks.find? head <;> simp

end Tally

/-! ## The books -/

/-- Chunks that are still on their way. -/
def ChunkTransitState.open (state : ChunkTransitState) : Bool := !state.terminal

/-- A transfer's counters agree with a recount over its chunks. -/
structure Balanced (chunks : OrderedMap ChunkId ChunkRecord) (id : TransferId)
    (transfer : TransferRecord) : Prop where
  nodup : transfer.chunks.Nodup
  members : ∀ chunk, chunk ∈ transfer.chunks ↔
    ∃ record, chunks.find? chunk = some record ∧ record.chunk.transfer = id
  total : transfer.total = tally chunks (fun _ => true) transfer.chunks
  delivered : transfer.delivered = tally chunks (· = .delivered) transfer.chunks
  droppedBufferFull :
    transfer.droppedBufferFull = tally chunks (· = .droppedBufferFull) transfer.chunks
  droppedLinkDown : transfer.droppedLinkDown = tally chunks (· = .droppedLinkDown) transfer.chunks
  fits : transfer.total.Fits
  unstarted : transfer.startedAt = none → ∀ chunk ∈ transfer.chunks, ∀ record,
    chunks.find? chunk = some record → record.state = .registered
  completed : transfer.completion.isSome = true ↔ transfer.chunks ≠ [] ∧
    ∀ chunk ∈ transfer.chunks, ∀ record,
      chunks.find? chunk = some record → record.state.terminal = true
  completion : ∀ completion, transfer.completion = some completion →
    completion.transfer = id ∧ completion.delivered = transfer.delivered ∧
    completion.droppedBufferFull = transfer.droppedBufferFull ∧
    completion.droppedLinkDown = transfer.droppedLinkDown ∧
    completion.outcome = if ∀ chunk ∈ transfer.chunks,
      (chunks.find? chunk).map ChunkRecord.state = some .delivered then .succeeded else .failed

/-- The books of all transfers; `published` lists every completion ever announced. -/
structure Accounts (chunks : OrderedMap ChunkId ChunkRecord)
    (transfers : OrderedMap TransferId TransferRecord) (published : List TransferCompletion) :
    Prop where
  balanced : ∀ id transfer, transfers.find? id = some transfer → Balanced chunks id transfer
  nonempty : ∀ id transfer, transfers.find? id = some transfer → transfer.chunks ≠ []
  owned : ∀ chunk record, chunks.find? chunk = some record →
    ∃ transfer, transfers.find? record.chunk.transfer = some transfer
  announced : ∀ id transfer completion, transfers.find? id = some transfer →
    transfer.completion = some completion → completion ∈ published
  genuine : ∀ completion ∈ published, ∃ transfer,
    transfers.find? completion.transfer = some transfer ∧ transfer.completion = some completion
  once : (published.map TransferCompletion.transfer).Nodup

section Books

variable {chunks : OrderedMap ChunkId ChunkRecord} {id : TransferId} {transfer : TransferRecord}
  {chunk : ChunkId} {record record' : ChunkRecord}

/-- A chunk ends in one of three ways. -/
theorem tally_terminal {ids : List ChunkId} : tally chunks ChunkTransitState.terminal ids =
    tally chunks (· = .delivered) ids + (tally chunks (· = .droppedBufferFull) ids +
      tally chunks (· = .droppedLinkDown) ids) := by
  rw [← @tally_split chunks (· = .droppedBufferFull) (· = .droppedLinkDown)
      (fun state => state = .droppedBufferFull || state = .droppedLinkDown) ids (fun _ => rfl)
      (by intro state; cases state <;> simp),
    ← @tally_split chunks (· = .delivered) _ ChunkTransitState.terminal ids
      (by intro state; cases state <;> rfl) (by intro state; cases state <;> simp)]

theorem tally_all {ids : List ChunkId} : tally chunks (fun _ => true) ids =
    tally chunks ChunkTransitState.terminal ids + tally chunks ChunkTransitState.open ids := by
  apply tally_split
  · intro state
    cases state <;> rfl
  · intro state
    cases state <;> simp [ChunkTransitState.open, ChunkTransitState.terminal]

namespace Balanced

/-- The total splits into the three ends and what is still on its way. -/
theorem total_eq (balanced : Balanced chunks id transfer) :
    transfer.total = transfer.delivered + (transfer.droppedBufferFull + transfer.droppedLinkDown) +
      tally chunks ChunkTransitState.open transfer.chunks := by
  rw [balanced.total, balanced.delivered, balanced.droppedBufferFull, balanced.droppedLinkDown,
    ← tally_terminal, tally_all]

/-- A chunk of another transfer may change as it likes. -/
theorem insert_other (balanced : Balanced chunks id transfer)
    (before : ∀ record, chunks.find? chunk = some record → record.chunk.transfer ≠ id)
    (after : record'.chunk.transfer ≠ id) : Balanced (chunks.insert chunk record') id transfer := by
  have apart : chunk ∉ transfer.chunks := by
    intro member
    obtain ⟨record, found, same⟩ := (balanced.members chunk).mp member
    exact before record found same
  have find_same : ∀ other ∈ transfer.chunks,
      (chunks.insert chunk record').find? other = chunks.find? other := by
    intro other member
    exact OrderedMap.find?_insert_of_ne _ _ fun same => apart (same ▸ member)
  constructor
  · exact balanced.nodup
  · intro other
    by_cases same : other = chunk
    · subst same
      simp [apart, after]
    · rw [OrderedMap.find?_insert_of_ne _ _ same]
      exact balanced.members other
  · rw [tally_insert_fresh apart]; exact balanced.total
  · rw [tally_insert_fresh apart]; exact balanced.delivered
  · rw [tally_insert_fresh apart]; exact balanced.droppedBufferFull
  · rw [tally_insert_fresh apart]; exact balanced.droppedLinkDown
  · exact balanced.fits
  · intro unstarted other member record found
    rw [find_same other member] at found
    exact balanced.unstarted unstarted other member record found
  · rw [balanced.completed]
    apply and_congr_right
    intro _
    apply forall₂_congr
    intro other member
    rw [find_same other member]
  · intro completion done
    obtain ⟨named, delivered, full, down, outcome⟩ := balanced.completion completion done
    refine ⟨named, delivered, full, down, ?_⟩
    rw [outcome]
    congr 1
    apply propext
    apply forall₂_congr
    intro other member
    rw [find_same other member]

/-- Nothing is booked for a transfer that has no chunk yet. -/
theorem empty (unowned : ∀ chunk record, chunks.find? chunk = some record →
    record.chunk.transfer ≠ id) : Balanced chunks id {} := by
  constructor <;> try simp
  · intro chunk record found
    exact unowned chunk record found
  · rfl
  · rfl
  · rfl
  · rfl
  · exact ⟨Nat.zero_le _, Nat.zero_le _⟩

theorem register (balanced : Balanced chunks id transfer) (fresh : chunks.find? chunk = none)
    (unstarted : transfer.startedAt = none) (owner : record.chunk.transfer = id)
    (state : record.state = .registered) (fits : (transfer.total + record.weight).Fits) :
    Balanced (chunks.insert chunk record) id
      { transfer with
        chunks := transfer.chunks ++ [chunk], total := transfer.total + record.weight } := by
  have absent : chunk ∉ transfer.chunks := by
    intro member
    obtain ⟨_, found, _⟩ := (balanced.members chunk).mp member
    simp [fresh] at found
  have find_same : ∀ other ∈ transfer.chunks,
      (chunks.insert chunk record).find? other = chunks.find? other := by
    intro other member
    exact OrderedMap.find?_insert_of_ne _ _ fun same => absent (same ▸ member)
  have counters : ∀ counted : ChunkTransitState → Bool, counted .registered = false →
      tally (chunks.insert chunk record) counted (transfer.chunks ++ [chunk]) =
        tally chunks counted transfer.chunks := by
    intro counted apart
    rw [tally_append, tally_insert_fresh absent, tally_cons, share_insert_self, state, apart]
    simp
  -- all chunks are registered, so the transfer cannot have completed
  have incomplete : transfer.completion = none := by
    cases done : transfer.completion with
    | none => rfl
    | some completion =>
      have ended := balanced.completed.mp (by simp [done])
      obtain ⟨first, member⟩ := List.exists_mem_of_ne_nil _ ended.1
      obtain ⟨found, isFound, _⟩ := (balanced.members first).mp member
      have terminal := ended.2 first member found isFound
      rw [balanced.unstarted unstarted first member found isFound] at terminal
      cases terminal
  constructor
  · simp only [List.nodup_append, List.nodup_cons, List.not_mem_nil, not_false_eq_true,
      List.nodup_nil, and_self, List.mem_singleton, true_and, balanced.nodup]
    intro a member b single same
    subst single
    exact absent (same ▸ member)
  · intro other
    by_cases same : other = chunk
    · subst same
      simp [owner]
    · rw [OrderedMap.find?_insert_of_ne _ _ same, ← balanced.members other]
      simp [same]
  · rw [tally_append, tally_insert_fresh absent, tally_cons, share_insert_self, balanced.total]
    simp
  · rw [counters _ rfl]; exact balanced.delivered
  · rw [counters _ rfl]; exact balanced.droppedBufferFull
  · rw [counters _ rfl]; exact balanced.droppedLinkDown
  · exact fits
  · intro _ other member found isFound
    cases List.mem_append.mp member with
    | inl member =>
      rw [find_same other member] at isFound
      exact balanced.unstarted unstarted other member found isFound
    | inr member =>
      rw [List.mem_singleton] at member
      subst member
      rw [OrderedMap.find?_insert_self] at isFound
      cases isFound
      exact state
  · simp only [incomplete, Option.isSome_none, Bool.false_eq_true, false_iff, not_and]
    intro _ ended
    have terminal := ended chunk (by simp) record (by simp)
    rw [state] at terminal
    cases terminal
  · intro completion done
    simp [incomplete] at done

/-- A chunk that is on its way before and after. -/
theorem move (balanced : Balanced chunks id transfer) (found : chunks.find? chunk = some record)
    (owner : record.chunk.transfer = id) (owner' : record'.chunk.transfer = id)
    (bytes : record'.chunk.bytes = record.chunk.bytes) (before : record.state.terminal = false)
    (after : record'.state.terminal = false) {startedAt : Option SimTimeNs}
    (started : startedAt ≠ none) :
    Balanced (chunks.insert chunk record') id { transfer with startedAt } := by
  have member : chunk ∈ transfer.chunks := (balanced.members chunk).mpr ⟨record, found, owner⟩
  have counters : ∀ counted : ChunkTransitState → Bool,
      (∀ state, counted state = true → state.terminal = true) →
      tally (chunks.insert chunk record') counted transfer.chunks =
        tally chunks counted transfer.chunks := by
    intro counted ends
    apply tally_insert_same found _ bytes
    cases first : counted record.state with
    | true => simp [ends _ first] at before
    | false =>
      cases second : counted record'.state with
      | true => simp [ends _ second] at after
      | false => rfl
  -- the chunk is on its way, so the transfer has not completed and does not complete
  have incomplete : transfer.completion = none := by
    cases done : transfer.completion with
    | none => rfl
    | some completion =>
      have ended := (balanced.completed.mp (by simp [done])).2 chunk member record found
      simp [before] at ended
  constructor
  · exact balanced.nodup
  · intro other
    by_cases same : other = chunk
    · subst same
      simp [member, owner']
    · rw [OrderedMap.find?_insert_of_ne _ _ same]
      exact balanced.members other
  · exact balanced.total.trans (tally_insert_same found (by rfl) bytes).symm
  · rw [counters _ (by simp [ChunkTransitState.terminal])]; exact balanced.delivered
  · rw [counters _ (by simp [ChunkTransitState.terminal])]; exact balanced.droppedBufferFull
  · rw [counters _ (by simp [ChunkTransitState.terminal])]; exact balanced.droppedLinkDown
  · exact balanced.fits
  · intro unstarted
    exact absurd unstarted started
  · simp only [incomplete, Option.isSome_none, Bool.false_eq_true, false_iff, not_and]
    intro _ ended
    have terminal := ended chunk member record' (by simp)
    simp [after] at terminal
  · intro completion done
    simp [incomplete] at done

end Balanced

/-- The counters with the end of one more chunk. -/
def credited (transfer : TransferRecord) (record : ChunkRecord) : TransferRecord :=
  let credit (state : ChunkTransitState) : TrafficCount :=
    if record.state = state then record.weight else 0
  { transfer with
    delivered := transfer.delivered + credit .delivered
    droppedBufferFull := transfer.droppedBufferFull + credit .droppedBufferFull
    droppedLinkDown := transfer.droppedLinkDown + credit .droppedLinkDown }

theorem credited_incomplete (incomplete : transfer.completion = none) :
    { credited transfer record with completion := none } = credited transfer record := by
  cases transfer
  cases incomplete
  rfl

/-- A chunk of a transfer comes to its end: what the books are before and after. -/
structure Settling (chunks : OrderedMap ChunkId ChunkRecord) (id : TransferId)
    (transfer : TransferRecord) (chunk : ChunkId) (record record' : ChunkRecord) : Prop where
  balanced : Balanced chunks id transfer
  found : chunks.find? chunk = some record
  owner : record.chunk.transfer = id
  owner' : record'.chunk.transfer = id
  bytes : record'.chunk.bytes = record.chunk.bytes
  before : record.state.terminal = false
  after : record'.state.terminal = true
  started : transfer.startedAt ≠ none

namespace Settling

theorem member (settling : Settling chunks id transfer chunk record record') :
    chunk ∈ transfer.chunks :=
  (settling.balanced.members chunk).mpr ⟨record, settling.found, settling.owner⟩

theorem incomplete (settling : Settling chunks id transfer chunk record record') :
    transfer.completion = none := by
  cases done : transfer.completion with
  | none => rfl
  | some completion =>
    have ended := (settling.balanced.completed.mp (by simp [done])).2 chunk settling.member record
      settling.found
    simp [settling.before] at ended

theorem tally_end (settling : Settling chunks id transfer chunk record record')
    {state : ChunkTransitState} (ends : state.terminal = true) :
    tally (chunks.insert chunk record') (· = state) transfer.chunks =
      tally chunks (· = state) transfer.chunks +
        if record'.state = state then record'.weight else 0 := by
  have before : record.state ≠ state := by
    intro same
    have still := settling.before
    rw [same, ends] at still
    cases still
  by_cases after : record'.state = state
  · rw [if_pos after]
    exact tally_insert settling.balanced.nodup settling.member settling.found (by simp [before])
      (by simp [after])
  · rw [if_neg after, add_zero]
    exact tally_insert_same settling.found (by simp [before, after]) settling.bytes

/-- The credited counters are those of the recount. -/
theorem total_eq (settling : Settling chunks id transfer chunk record record') :
    transfer.total = (credited transfer record').delivered +
        ((credited transfer record').droppedBufferFull +
          (credited transfer record').droppedLinkDown) +
      tally (chunks.insert chunk record') ChunkTransitState.open transfer.chunks := by
  have same : tally (chunks.insert chunk record') (fun _ => true) transfer.chunks =
      transfer.total :=
    (tally_insert_same settling.found (by rfl) settling.bytes).trans settling.balanced.total.symm
  rw [← same, tally_all, tally_terminal, settling.tally_end rfl, settling.tally_end rfl,
    settling.tally_end rfl, ← settling.balanced.delivered, ← settling.balanced.droppedBufferFull,
    ← settling.balanced.droppedLinkDown]
  rfl

theorem settled_eq (settling : Settling chunks id transfer chunk record record') :
    Network.settled transfer record' = .ok (credited transfer record') := by
  have fits := settling.balanced.fits
  rw [settling.total_eq] at fits
  have ends_fit := fits.of_add_left
  have delivered := ends_fit.of_add_left
  have drops : ((credited transfer record').droppedBufferFull +
      (credited transfer record').droppedLinkDown).Fits := by
    rw [add_comm] at ends_fit
    exact ends_fit.of_add_left
  have full := drops.of_add_left
  have down : (credited transfer record').droppedLinkDown.Fits := by
    rw [add_comm] at drops
    exact drops.of_add_left
  have after := settling.after
  unfold Network.settled
  unfold credited at delivered full down ⊢
  cases state : record'.state with
  | registered | awaitingArrival | admitted => simp [state, ChunkTransitState.terminal] at after
  | delivered =>
    simp only [state, if_true] at delivered ⊢
    rw [show (⟨record'.chunk.bytes, 1⟩ : TrafficCount) = record'.weight from rfl,
      addTraffic_of_fits delivered]
    simp [bind, Except.bind, pure, Except.pure]
  | droppedBufferFull =>
    simp only [state, if_true] at full ⊢
    rw [show (⟨record'.chunk.bytes, 1⟩ : TrafficCount) = record'.weight from rfl,
      addTraffic_of_fits full]
    simp [bind, Except.bind, pure, Except.pure]
  | droppedLinkDown =>
    simp only [state, if_true] at down ⊢
    rw [show (⟨record'.chunk.bytes, 1⟩ : TrafficCount) = record'.weight from rfl,
      addTraffic_of_fits down]
    simp [bind, Except.bind, pure, Except.pure]

/-- Whether the end of this chunk is the end of the transfer. -/
def last (chunks : OrderedMap ChunkId ChunkRecord) (transfer : TransferRecord) (chunk : ChunkId)
    (record' : ChunkRecord) : Bool :=
  (tally (chunks.insert chunk record') ChunkTransitState.open transfer.chunks).chunks = 0

theorem last_iff : last chunks transfer chunk record' = true ↔
    ∀ other ∈ transfer.chunks, ∀ found, (chunks.insert chunk record').find? other = some found →
      found.state.terminal = true := by
  unfold last
  rw [decide_eq_true_iff, tally_chunks_eq_zero]
  simp [ChunkTransitState.open]

/-- The completion that the end of the last chunk makes. -/
def completionWith (id : TransferId) (now : SimTimeNs) (transfer : TransferRecord)
    (record' : ChunkRecord) : TransferCompletion :=
  let transfer := credited transfer record'
  ⟨id, if (transfer.droppedBufferFull + transfer.droppedLinkDown).chunks = 0 then .succeeded
    else .failed, now, transfer.delivered, transfer.droppedBufferFull, transfer.droppedLinkDown⟩

theorem completionOf_eq (settling : Settling chunks id transfer chunk record record')
    (now : SimTimeNs) :
    Network.completionOf id now (credited transfer record') =
      .ok (if last chunks transfer chunk record' then some (completionWith id now transfer record')
        else none) := by
  have fits := settling.balanced.fits
  rw [settling.total_eq] at fits
  have ends_fit := fits.of_add_left
  have drops : ((credited transfer record').droppedBufferFull +
      (credited transfer record').droppedLinkDown).Fits := by
    rw [add_comm] at ends_fit
    exact ends_fit.of_add_left
  have total : (credited transfer record').total = transfer.total := rfl
  unfold Network.completionOf
  rw [addTraffic_of_fits drops]
  simp only [bind, Except.bind]
  rw [addTraffic_of_fits ends_fit]
  simp only [total]
  rw [settling.total_eq]
  by_cases isLast : last chunks transfer chunk record' = true
  · -- nothing is on its way any more, so chunks and bytes agree
    have nothing : tally (chunks.insert chunk record') ChunkTransitState.open transfer.chunks = 0 := by
      apply tally_eq_zero
      intro other member found isFound
      simp [ChunkTransitState.open, last_iff.mp isLast other member found isFound]
    rw [nothing, isLast]
    simp [completionWith, pure, Except.pure]
  · have some_open : (tally (chunks.insert chunk record') ChunkTransitState.open
        transfer.chunks).chunks ≠ 0 := by
      simpa [last] using isLast
    rw [if_neg (by simp only [TrafficCount.add_chunks]; omega)]
    simp [isLast, pure, Except.pure]

/-- The outcome counts the drops; the last chunk has ended, so none dropped means all delivered. -/
theorem outcome_iff (settling : Settling chunks id transfer chunk record record')
    (isLast : last chunks transfer chunk record' = true) :
    ((credited transfer record').droppedBufferFull +
        (credited transfer record').droppedLinkDown).chunks = 0 ↔
      ∀ other ∈ transfer.chunks, ((chunks.insert chunk record').find? other).map ChunkRecord.state =
        some .delivered := by
  have full : (credited transfer record').droppedBufferFull =
      tally (chunks.insert chunk record') (· = .droppedBufferFull) transfer.chunks := by
    rw [settling.tally_end rfl, ← settling.balanced.droppedBufferFull]
    rfl
  have down : (credited transfer record').droppedLinkDown =
      tally (chunks.insert chunk record') (· = .droppedLinkDown) transfer.chunks := by
    rw [settling.tally_end rfl, ← settling.balanced.droppedLinkDown]
    rfl
  rw [full, down, TrafficCount.add_chunks, Nat.add_eq_zero_iff, tally_chunks_eq_zero,
    tally_chunks_eq_zero]
  have known : ∀ other ∈ transfer.chunks, ∃ found,
      (chunks.insert chunk record').find? other = some found := by
    intro other member
    by_cases same : other = chunk
    · subst same
      exact ⟨record', by simp⟩
    · obtain ⟨found, isFound, _⟩ := (settling.balanced.members other).mp member
      exact ⟨found, by simpa [same] using isFound⟩
  constructor
  · intro none_dropped other member
    obtain ⟨found, isFound⟩ := known other member
    have notFull := none_dropped.1 other member found isFound
    have notDown := none_dropped.2 other member found isFound
    have terminal := last_iff.mp isLast other member found isFound
    rw [isFound]
    cases state : found.state <;> simp_all [ChunkTransitState.terminal]
  · intro delivered
    constructor
    · intro other member found isFound
      have state := delivered other member
      simp only [isFound, Option.map_some, Option.some.injEq] at state
      simp [state]
    · intro other member found isFound
      have state := delivered other member
      simp only [isFound, Option.map_some, Option.some.injEq] at state
      simp [state]

/-- The books balance again after the end of the chunk is booked. -/
theorem balanced_after (settling : Settling chunks id transfer chunk record record')
    (now : SimTimeNs) :
    Balanced (chunks.insert chunk record') id
      { credited transfer record' with
        completion := if last chunks transfer chunk record' then
          some (completionWith id now transfer record') else none } := by
  have balanced := settling.balanced
  constructor
  · exact balanced.nodup
  · intro other
    by_cases same : other = chunk
    · subst same
      simp [credited, settling.member, settling.owner']
    · rw [OrderedMap.find?_insert_of_ne _ _ same]
      exact balanced.members other
  · exact balanced.total.trans (tally_insert_same settling.found (by rfl) settling.bytes).symm
  · show _ = tally _ _ transfer.chunks
    rw [settling.tally_end rfl, ← balanced.delivered]
    rfl
  · show _ = tally _ _ transfer.chunks
    rw [settling.tally_end rfl, ← balanced.droppedBufferFull]
    rfl
  · show _ = tally _ _ transfer.chunks
    rw [settling.tally_end rfl, ← balanced.droppedLinkDown]
    rfl
  · exact balanced.fits
  · intro unstarted
    exact absurd unstarted settling.started
  · have nonempty : transfer.chunks ≠ [] := List.ne_nil_of_mem settling.member
    show _ ↔ transfer.chunks ≠ [] ∧ ∀ other ∈ transfer.chunks, _
    rw [← last_iff]
    cases last chunks transfer chunk record' <;> simp [nonempty]
  · intro completion done
    cases isLast : last chunks transfer chunk record' with
    | false => simp [isLast] at done
    | true =>
      simp only [isLast, if_true, Option.some.injEq] at done
      subst done
      refine ⟨rfl, rfl, rfl, rfl, ?_⟩
      show (if _ then _ else _) = if _ then _ else _
      congr 1
      exact propext (settling.outcome_iff isLast)

end Settling

end Books

/-! ## Steps of the books -/

namespace Accounts

variable {chunks : OrderedMap ChunkId ChunkRecord}
  {transfers : OrderedMap TransferId TransferRecord} {published : List TransferCompletion}
  {id : TransferId} {transfer transfer' : TransferRecord} {chunk : ChunkId}
  {record record' : ChunkRecord}

/-- The transfer of a chunk. -/
theorem transfer_of (accounts : Accounts chunks transfers published)
    (found : chunks.find? chunk = some record) :
    ∃ transfer, transfers.find? record.chunk.transfer = some transfer ∧
      Balanced chunks record.chunk.transfer transfer ∧ chunk ∈ transfer.chunks := by
  obtain ⟨transfer, isTransfer⟩ := accounts.owned chunk record found
  have balanced := accounts.balanced _ _ isTransfer
  exact ⟨transfer, isTransfer, balanced, (balanced.members chunk).mpr ⟨record, found, rfl⟩⟩

/-- Only the transfer of the chunk that changes has to be balanced again, and its completion has
to be published when it is new. -/
theorem update (accounts : Accounts chunks transfers published)
    (before : ∀ record, chunks.find? chunk = some record → record.chunk.transfer = id)
    (after : record'.chunk.transfer = id)
    (balanced : Balanced (chunks.insert chunk record') id transfer')
    (nonempty : transfer'.chunks ≠ [])
    {completion : Option TransferCompletion} (completed : transfer'.completion = completion)
    (added : List TransferCompletion)
    (publishes : (added = [] ∧ completion = (transfers.find? id).bind TransferRecord.completion) ∨
      ∃ new, completion = some new ∧ added = [new] ∧ new.transfer = id ∧
        (transfers.find? id).bind TransferRecord.completion = none) :
    Accounts (chunks.insert chunk record') (transfers.insert id transfer')
      (published ++ added) := by
  have published_here : ∀ old ∈ published, old.transfer = id →
      (transfers.find? id).bind TransferRecord.completion = some old := by
    intro old member same
    obtain ⟨transfer, found, done⟩ := accounts.genuine old member
    rw [same] at found
    simp [found, done]
  constructor
  -- the transfer is balanced by assumption, and no other one counts the chunk
  · intro other found isFound
    by_cases same : other = id
    · subst same
      rw [OrderedMap.find?_insert_self] at isFound
      cases isFound
      exact balanced
    · rw [OrderedMap.find?_insert_of_ne _ _ same] at isFound
      apply (accounts.balanced other found isFound).insert_other
      · intro record isRecord eq
        exact same (eq.symm.trans (before record isRecord))
      · intro eq
        exact same (eq.symm.trans after)
  · intro other found isFound
    by_cases same : other = id
    · subst same
      rw [OrderedMap.find?_insert_self] at isFound
      cases isFound
      exact nonempty
    · rw [OrderedMap.find?_insert_of_ne _ _ same] at isFound
      exact accounts.nonempty other found isFound
  · intro other found isFound
    by_cases owner : found.chunk.transfer = id
    · rw [owner]
      exact ⟨transfer', by simp⟩
    · rw [OrderedMap.find?_insert_of_ne _ _ owner]
      by_cases same : other = chunk
      · subst same
        rw [OrderedMap.find?_insert_self] at isFound
        cases isFound
        exact absurd after owner
      · rw [OrderedMap.find?_insert_of_ne _ _ same] at isFound
        exact accounts.owned other found isFound
  -- every completion has been published, and a new one is added
  · intro other found old isFound done
    by_cases same : other = id
    · subst same
      rw [OrderedMap.find?_insert_self] at isFound
      cases isFound
      rw [completed] at done
      cases publishes with
      | inl kept =>
        rw [kept.2, Option.bind_eq_some_iff] at done
        obtain ⟨transfer, isTransfer, done⟩ := done
        simp [kept.1, accounts.announced other transfer old isTransfer done]
      | inr new =>
        obtain ⟨new, isNew, isAdded, _, _⟩ := new
        rw [isNew] at done
        cases done
        simp [isAdded]
    · rw [OrderedMap.find?_insert_of_ne _ _ same] at isFound
      simp [accounts.announced other found old isFound done]
  -- what has been published is the completion of its transfer
  · intro old member
    cases List.mem_append.mp member with
    | inl member =>
      by_cases same : old.transfer = id
      · have kept := published_here old member same
        cases publishes with
        | inl h =>
          rw [same]
          exact ⟨transfer', by simp, by rw [completed, h.2, kept]⟩
        | inr h =>
          obtain ⟨_, _, _, _, absent⟩ := h
          simp [absent] at kept
      · rw [OrderedMap.find?_insert_of_ne _ _ same]
        exact accounts.genuine old member
    | inr member =>
      cases publishes with
      | inl h => simp [h.1] at member
      | inr h =>
        obtain ⟨new, isNew, isAdded, named, _⟩ := h
        rw [isAdded, List.mem_singleton] at member
        subst member
        rw [named]
        exact ⟨transfer', by simp, by rw [completed, isNew]⟩
  -- a transfer publishes once, since before it had no completion
  · rw [List.map_append]
    cases publishes with
    | inl h => simpa [h.1] using accounts.once
    | inr h =>
      obtain ⟨new, _, isAdded, named, absent⟩ := h
      subst isAdded
      apply List.Nodup.append accounts.once (by simp)
      intro owner member single
      simp only [List.map_cons, List.map_nil, List.mem_singleton] at single
      obtain ⟨old, member, same⟩ := List.mem_map.mp member
      have kept := published_here old member (same.trans (single.trans named))
      simp [absent] at kept

/-- A new chunk opens its transfer or joins it. -/
theorem register (accounts : Accounts chunks transfers published)
    (fresh : chunks.find? chunk = none)
    (unstarted : ((transfers.find? record.chunk.transfer).bind TransferRecord.startedAt) = none)
    (state : record.state = .registered) {total : TrafficCount}
    (sum : total = ((transfers.find? record.chunk.transfer).getD {}).total + record.weight)
    (fits : total.Fits) :
    Accounts (chunks.insert chunk record)
      (transfers.insert record.chunk.transfer
        { (transfers.find? record.chunk.transfer).getD {} with
          chunks := ((transfers.find? record.chunk.transfer).getD {}).chunks ++ [chunk], total })
      published := by
  have balanced : Balanced chunks record.chunk.transfer
      ((transfers.find? record.chunk.transfer).getD {}) := by
    cases isFound : transfers.find? record.chunk.transfer with
    | some found => exact accounts.balanced _ _ isFound
    | none =>
      apply Balanced.empty
      intro other found isRecord same
      obtain ⟨_, owned⟩ := accounts.owned other found isRecord
      rw [same, isFound] at owned
      cases owned
  have none_started : ((transfers.find? record.chunk.transfer).getD {}).startedAt = none := by
    cases isFound : transfers.find? record.chunk.transfer with
    | some found => simpa [isFound] using unstarted
    | none => rfl
  subst sum
  have updated := accounts.update (by simp [fresh]) rfl
    (balanced.register fresh none_started rfl state fits) (by simp) rfl []
    (.inl ⟨rfl, by cases transfers.find? record.chunk.transfer <;> rfl⟩)
  simpa using updated

/-- A chunk that is on its way before and after; the transfer may start with it. -/
theorem move (accounts : Accounts chunks transfers published)
    (found : chunks.find? chunk = some record)
    (isTransfer : transfers.find? record.chunk.transfer = some transfer)
    (owner : record'.chunk.transfer = record.chunk.transfer)
    (bytes : record'.chunk.bytes = record.chunk.bytes) (before : record.state.terminal = false)
    (after : record'.state.terminal = false) {startedAt : Option SimTimeNs}
    (started : startedAt ≠ none) :
    Accounts (chunks.insert chunk record')
      (transfers.insert record.chunk.transfer { transfer with startedAt }) published := by
  have nonempty := accounts.nonempty _ _ isTransfer
  have updated := accounts.update
    (by intro other isFound; rw [found] at isFound; cases isFound; rfl) owner
    ((accounts.balanced _ _ isTransfer).move found rfl owner bytes before after started)
    nonempty rfl [] (.inl ⟨rfl, by simp [isTransfer]⟩)
  simpa using updated

/-- A chunk that has left its initial state belongs to a transfer that has started. -/
theorem started (accounts : Accounts chunks transfers published)
    (found : chunks.find? chunk = some record)
    (isTransfer : transfers.find? record.chunk.transfer = some transfer)
    (moved : record.state ≠ .registered) : transfer.startedAt ≠ none := by
  intro unstarted
  have balanced := accounts.balanced _ _ isTransfer
  exact moved (balanced.unstarted unstarted chunk
    ((balanced.members chunk).mpr ⟨record, found, rfl⟩) record found)

/-- A chunk on its way in a transfer that has started. -/
theorem move_on (accounts : Accounts chunks transfers published)
    (found : chunks.find? chunk = some record) (moved : record.state ≠ .registered)
    (owner : record'.chunk.transfer = record.chunk.transfer)
    (bytes : record'.chunk.bytes = record.chunk.bytes) (before : record.state.terminal = false)
    (after : record'.state.terminal = false) :
    Accounts (chunks.insert chunk record') transfers published := by
  obtain ⟨transfer, isTransfer, _, _⟩ := accounts.transfer_of found
  have books := accounts.move found isTransfer owner bytes before after
    (accounts.started found isTransfer moved)
  rwa [OrderedMap.insert_of_find? isTransfer] at books

theorem settling (accounts : Accounts chunks transfers published)
    (found : chunks.find? chunk = some record)
    (isTransfer : transfers.find? record.chunk.transfer = some transfer)
    (owner : record'.chunk.transfer = record.chunk.transfer)
    (bytes : record'.chunk.bytes = record.chunk.bytes) (moved : record.state ≠ .registered)
    (before : record.state.terminal = false) (after : record'.state.terminal = true) :
    Settling chunks record.chunk.transfer transfer chunk record record' :=
  ⟨accounts.balanced _ _ isTransfer, found, rfl, owner, bytes, before, after,
    accounts.started found isTransfer moved⟩

/-- The end of a chunk is booked, and published if it was the last one. -/
theorem settle (accounts : Accounts chunks transfers published)
    (settling : Settling chunks id transfer chunk record record')
    (isTransfer : transfers.find? id = some transfer) (now : SimTimeNs) :
    Accounts (chunks.insert chunk record')
      (transfers.insert id { credited transfer record' with
        completion := if Settling.last chunks transfer chunk record' then
          some (Settling.completionWith id now transfer record') else none })
      (published ++ if Settling.last chunks transfer chunk record' then
        [Settling.completionWith id now transfer record'] else []) := by
  have incomplete := settling.incomplete
  have nonempty := accounts.nonempty _ _ isTransfer
  apply accounts.update
    (by
      intro other isFound
      rw [settling.found] at isFound
      cases isFound
      exact settling.owner)
    settling.owner' (settling.balanced_after now) nonempty rfl
  cases Settling.last chunks transfer chunk record' with
  | false => exact .inl ⟨rfl, by simp [isTransfer, incomplete]⟩
  | true => exact .inr ⟨_, rfl, rfl, rfl, by simp [isTransfer, incomplete]⟩

end Accounts

end NexusLab.Transport
