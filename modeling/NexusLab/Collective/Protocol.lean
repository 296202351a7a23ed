import NexusLab.Collective.Exchange

/-! # The protocol of the executor

A round is issued transfer by transfer; when the last of them has drained, the next round starts or
the collective ends.  Each step below keeps the books of the collective it is about, and so every
collective is `Settled` between two calls. -/

namespace NexusLab.Collective

open Foundation Sim Telemetry NexusLab.Topology Routing Workload

/-! ## Issuing a round -/

/-- In the middle of issuing round number `k`: transfers of `sent` bytes have been due, and none of
the round has been delivered. -/
structure Issuing (x₀ x : Exchange) (id : CollectiveId) (record : Record)
    (k sent : Nat) : Prop extends Busy x₀ x id record where
  inRound : InRound x.executor id record k sent
  unpublished : x.executor.results x.published id = []
  undelivered : record.result.deliveredBytes = k * record.request.bytes

section Issue

variable {x₀ x : Exchange} {r : Ring} {id : CollectiveId} {record : Record}
  {k sent : Nat} {transfer : RingTransfer} {Q : Unit → Ring → Prop} {E : Error → Ring → Prop}

/-- Only the two maps and the timeline matter. -/
theorem InRound.congr {e e' : RingExecutor} (inRound : InRound e id record k sent)
    (transfers : e'.transfers = e.transfers) (locals : e'.locals = e.locals)
    (timeline : e'.timeline = e.timeline) : InRound e' id record k sent where
  planned := inRound.planned
  round := inRound.round
  running := inRound.running
  pending := by rw [RingExecutor.inFlight, transfers, locals]; exact inRound.pending
  events := by rw [locals]; exact inRound.events
  issued := inRound.issued
  account := by rw [RingExecutor.inFlight, transfers, locals]; exact inRound.account
  whole := by rw [RingExecutor.inFlight, transfers, locals]; exact inRound.whole
  trail := by rw [RingExecutor.trail, timeline]; exact inRound.trail

theorem Issuing.loaded (issuing : Issuing x₀ (x.after r) id record k sent) : r.executor.Loaded :=
  issuing.linked.loaded

theorem wp_issueLocal (issuing : Issuing x₀ (x.after r) id record k sent)
    (nonzero : transfer.bytes ≠ 0) (due : sent + transfer.bytes ≤ record.request.bytes)
    (isRank : transfer.source < record.ranks)
    (returns : ∀ r', Issuing x₀ (x.after r') id (record.sentLocally transfer.bytes) k
      (sent + transfer.bytes) → Q () r')
    (throws : ∀ e r', Thrown x₀ e r' → E e r') : wp (Ring.issueLocal id transfer) Q E r := by
  have own : ∀ e r', Permitted e → E e r' := fun e r' permitted => throws e r' (.own permitted)
  have found : r.executor.records.find? id = some record := issuing.found
  have isId := issuing.inRound.planned.id
  simp only [Ring.issueLocal, wp_bind, Ring.wp_recordAt found, wp_get, wp_getOrThrow, Ring.wp_now]
  refine ⟨fun duration _ => ⟨fun arrival _ => ?_, fun _ => own _ _ .arrival⟩,
    fun _ => own _ _ .delay⟩
  rw [wp_zoom]
  refine wp_intro (fun event kernel ok => ?_) (fun e _ thrown => throws e _
    (.scheduling issuing.reached thrown))
  obtain ⟨fresh, busy⟩ := issuing.toBusy.scheduled nonzero isId ok
  rw [isId] at busy ⊢
  simp only [Ring.wp_modifyExecutor, Ring.wp_modifyRecord]
  rw [show (Ring.kernelLens.set kernel r).executor = r.executor from rfl,
    OrderedMap.emplace_of_fresh fresh]
  have busy₁ := busy.wrote (f := fun record => { record with result := { record.result with
    issuedLocalBytes := U64.add record.result.issuedLocalBytes transfer.bytes } }) rfl
  refine Ring.wp_emit busy₁.found (fun probe => ?_) own
  have busy₂ := busy₁.probed probe
  refine Ring.wp_emitCounter busy₂.found (fun probe' => ?_) own
  have busy₃ := (busy₂.probed probe').wrote
    (f := fun record => { record with pending := U64.add record.pending 1 }) rfl
  have inRound := issuing.inRound.sentLocally issuing.loaded nonzero due fresh isRank
  exact returns _ ⟨busy₃, inRound.congr rfl rfl rfl, issuing.unpublished, issuing.undelivered⟩

/-- The request stays, and so does what has not been issued: it is due, or nothing is. -/
theorem wp_issueFabric (issuing : Issuing x₀ (x.after r) id record k sent)
    (nonzero : transfer.bytes ≠ 0) (due : sent + transfer.bytes ≤ record.request.bytes)
    {source destination : NicId}
    (returns : ∀ r' record', record'.request = record.request →
      Issuing x₀ (x.after r') id record' k (sent + transfer.bytes) → Q () r')
    (throws : ∀ e r', Thrown x₀ e r' → E e r') :
    wp (Ring.issueFabric id transfer source destination) Q E r := by
  have own : ∀ e r', Permitted e → E e r' := fun e r' permitted => throws e r' (.own permitted)
  have found : r.executor.records.find? id = some record := issuing.found
  have isId := issuing.inRound.planned.id
  have fits : transfer.bytes ≤ maxU64 := by
    have room := issuing.inRound.fits issuing.loaded due
    omega
  simp only [Ring.issueFabric, wp_bind, wp_get, wp_throwIf, Ring.wp_modifyExecutor]
  refine ⟨fun _ => own _ _ .flow, fun _ => ?_⟩
  have busy := issuing.toBusy.flow (r.executor.nextFlow + 1)
  refine Ring.wp_read found ?_
  rw [wp_zoom]
  refine wp_intro (fun submitted fabric ok => ?_) (fun e _ thrown => throws e _
    (.routing busy.reached thrown))
  cases submitted with
  | none =>
    -- no route: the rest of the round is not issued
    have busy₁ := (busy.unrouted ok).wrote
      (f := Record.broken "no route for collective round") rfl
    have inRound := issuing.inRound.broken "no route for collective round"
    have skipped := inRound.skipped rfl (Nat.le_add_right sent transfer.bytes)
    exact returns _ (record.broken _) rfl ⟨busy₁, skipped.congr rfl rfl rfl, issuing.unpublished,
      issuing.undelivered⟩
  | some submitted =>
    obtain ⟨fresh, busy₁⟩ := busy.sent fits nonzero ok
    have isFresh : r.executor.transfers.find? submitted.id = none := fresh
    simp only [wp_bind, Ring.wp_modifyExecutor, Ring.wp_modifyRecord, isId, Ring.fabricLens,
      OrderedMap.emplace_of_fresh isFresh]
    have busy₂ := busy₁.wrote (f := fun record => { record with result := { record.result with
      issuedFabricBytes := U64.add record.result.issuedFabricBytes transfer.bytes } }) rfl
    refine Ring.wp_emit busy₂.found (fun probe => ?_) own
    have busy₃ := busy₂.probed probe
    refine Ring.wp_emitCounter busy₃.found (fun probe' => ?_) own
    have busy₄ := (busy₃.probed probe').wrote
      (f := fun record => { record with pending := U64.add record.pending 1 }) rfl
    have inRound := issuing.inRound.sentFabric issuing.loaded nonzero due isFresh
    exact returns _ (record.sentFabric _) rfl ⟨busy₄, inRound.congr rfl rfl rfl, issuing.unpublished,
      issuing.undelivered⟩

/-- The NIC of a participant is found. -/
theorem wp_nicOf {P : NicId → Ring → Prop} (linked : (x.after r).Linked)
    (found : r.executor.records.find? id = some record) {rank : Nat} (isRank : rank < record.ranks)
    (returns : ∀ nic, P nic r) : wp (Ring.nicOf record rank) P E r := by
  have member := List.getElem_mem (l := record.request.participants) isRank
  obtain ⟨worker, isWorker⟩ := linked.participants id record found _ member
  have isWorker' : r.graph.findGpu _ = some worker := isWorker
  simp only [Ring.nicOf, wp_bind, wp_getOrThrow, wp_get, wp_pure]
  refine ⟨fun gpu isGpu => ?_, fun none => ?_⟩
  · rw [List.getElem?_eq_getElem isRank, Option.some.injEq] at isGpu
    subst isGpu
    exact ⟨fun worker _ => returns _, fun lost => absurd (isWorker'.symm.trans lost) (by simp)⟩
  · rw [List.getElem?_eq_getElem isRank] at none
    cases none

theorem wp_issueNext (issuing : Issuing x₀ (x.after r) id record k sent)
    (due : sent + transfer.bytes ≤ record.request.bytes)
    (isRank : transfer.source < record.ranks ∧ transfer.destination < record.ranks)
    (returns : ∀ r' record', record'.request = record.request →
      Issuing x₀ (x.after r') id record' k (sent + transfer.bytes) → Q () r')
    (throws : ∀ e r', Thrown x₀ e r' → E e r') : wp (Ring.issueNext id transfer) Q E r := by
  have found : r.executor.records.find? id = some record := issuing.found
  simp only [Ring.issueNext, wp_bind, Ring.wp_recordAt found, wp_runIf]
  constructor
  · intro going
    simp only [Ring.issue, wp_bind, Ring.wp_recordAt found]
    refine wp_nicOf issuing.linked found isRank.1 fun source => ?_
    refine wp_nicOf issuing.linked found isRank.2 fun destination => ?_
    rw [wp_ite]
    exact ⟨fun _ => wp_issueLocal issuing going.1 due isRank.1
        (fun r' issuing' => returns r' (record.sentLocally _) rfl issuing') throws,
      fun _ => wp_issueFabric issuing going.1 due returns throws⟩
  · intro stays
    -- an empty transfer, or one that comes after a failure
    refine returns r record rfl { issuing with inRound := ?_ }
    by_cases empty : transfer.bytes = 0
    · rw [empty]
      exact issuing.inRound
    · have failed : record.failed = true := by
        by_contra intact
        exact stays ⟨empty, by simpa using intact⟩
      exact issuing.inRound.skipped failed (Nat.le_add_right _ _)

/-- A planned round: its transfers are between ranks, and move the bytes of the request. -/
theorem Record.Planned.plan (planned : record.Planned id) {phase : Phase} {round : Nat}
    (isRound : (ringRounds record.ranks)[k]? = some (phase, round)) :
    ∃ plan, planRound record.ranks record.request.bytes phase round = .ok plan ∧
      (plan.map RingTransfer.bytes).sum = record.request.bytes ∧
      ∀ t ∈ plan, t.source < record.ranks ∧ t.destination < record.ranks := by
  obtain ⟨one, small, nonempty, isVolume, fits⟩ := planned.volume_eq
  obtain ⟨ring, inRange⟩ := mem_ringRounds.mp (List.mem_of_getElem? isRound)
  have two : 2 ≤ record.ranks := by
    simp only at inRange
    omega
  have bytesFit : record.request.bytes ≤ maxU64 := by
    have once := Nat.le_mul_of_pos_left record.request.bytes
      (show 0 < 2 * (record.ranks - 1) by omega)
    exact once.trans (isVolume ▸ fits)
  refine ⟨_, planRound_eq_ok ring two small nonempty (isVolume ▸ fits) inRange,
    planRound_bytes phase two small bytesFit inRange, ?_⟩
  intro t member
  obtain ⟨rank, inRank, rfl⟩ := List.mem_map.mp member
  exact ⟨List.mem_range.mp inRank, Nat.mod_lt _ (by omega)⟩

end Issue

/-! ## Starting a round -/

section Advance

variable {x₀ x : Exchange} {r : Ring} {id : CollectiveId} {record : Record}
  {k : Nat} {Q : Unit → Ring → Prop} {E : Error → Ring → Prop}

/-- After the end the result is published. -/
theorem wp_finish_settled (busy : Busy x₀ (x.after r) id record)
    (isOver : Over r.executor id record) (unpublished : r.executor.results x.published id = [])
    (returns : ∀ r' record', Busy x₀ (x.after r') id record' →
      Settled r'.executor x.published id record' →
      r'.executor.trail id = r.executor.trail id ++ [(record.endPhase, record.round)] → Q () r')
    (throws : ∀ e r', Thrown x₀ e r' → E e r') : wp (Ring.finish id) Q E r :=
  Ring.wp_finish busy.found isOver
    (fun probe => returns _ _ ((busy.ending isOver.planned.id _).probed probe)
      (.inr (isOver.ended unpublished _)) (trail_ending _))
    (fun e r' permitted => throws e r' (.own permitted))

/-- A report that is only made at times. -/
theorem wp_mayEmit {c : Prop} [Decidable c] {transition : CollectiveTransition}
    (found : r.executor.records.find? id = some record)
    (returns : ∀ r', (r' = r ∨ ∃ probe, r' = r.probed probe) → Q () r')
    (throws : ∀ e r', Permitted e → E e r') :
    wp (runIf c (Ring.emit id transition)) Q E r := by
  rw [wp_runIf]
  exact ⟨fun _ => Ring.wp_emit found (fun probe => returns _ (.inr ⟨probe, rfl⟩)) throws,
    fun _ => returns r (.inl rfl)⟩

theorem wp_startRound (busy : Busy x₀ (x.after r) id record) (between : Between r.executor id record k)
    (unpublished : r.executor.results x.published id = [])
    (returns : ∀ r' record', Busy x₀ (x.after r') id record' →
      Settled r'.executor x.published id record' → Q () r')
    (throws : ∀ e r', Thrown x₀ e r' → E e r') : wp (Ring.startRound id) Q E r := by
  have own : ∀ e r', Permitted e → E e r' := fun e r' permitted => throws e r' (.own permitted)
  have isId := between.planned.id
  rw [Ring.startRound, wp_bind]
  refine Ring.wp_trace busy.found ?_ own
  have busy₁ := busy.traced
    ⟨record.result.id, r.fabric.network.now, record.phase, record.round⟩ isId
  have inRound := between.begin r.fabric.network.now
  rw [isId] at busy₁ ⊢
  have issuing : Issuing x₀ (x.after (r.traced
      ⟨id, r.fabric.network.now, record.phase, record.round⟩)) id record k 0 :=
    ⟨busy₁, inRound, unpublished, between.delivered⟩
  generalize r.traced ⟨id, r.fabric.network.now, record.phase, record.round⟩ = r₁ at issuing
  rw [wp_bind]
  refine Ring.wp_read issuing.found ?_
  rw [wp_bind]
  refine wp_mayEmit issuing.found (fun r₂ reported => ?_) own
  have issuing₂ : Issuing x₀ (x.after r₂) id record k 0 := by
    rcases reported with rfl | ⟨probe, rfl⟩
    · exact issuing
    · exact { issuing with toBusy := issuing.toBusy.probed probe }
  rw [wp_bind]
  refine Ring.wp_emit issuing₂.found (fun probe => ?_) own
  have issuing₃ : Issuing x₀ (x.after (r₂.probed probe)) id record k 0 :=
    { issuing₂ with toBusy := issuing₂.toBusy.probed probe }
  generalize r₂.probed probe = r₃ at issuing₃
  obtain ⟨plan, isPlan, sum, ranks⟩ := between.planned.plan between.round
  rw [wp_bind, wp_fromExcept]
  refine ⟨fun plan' isPlan' => ?_, fun e thrown => ?_⟩
  · obtain rfl : plan = plan' := Except.ok.inj (isPlan.symm.trans isPlan')
    rw [wp_bind]
    -- what is left of the plan is what is still due
    refine wp_mono (wp_forM (fun rest r' => ∃ record' sent,
      Issuing x₀ (x.after r') id record' k sent ∧ record'.request = record.request ∧
        sent + (rest.map RingTransfer.bytes).sum = record.request.bytes ∧
        ∀ t ∈ rest, t.source < record.ranks ∧ t.destination < record.ranks) _ E ?_ plan r₃
      ⟨record, 0, issuing₃, rfl, by simpa using sum, ranks⟩) ?_ (fun _ _ thrown => thrown)
    · rintro transfer rest r' ⟨record', sent, issuing', request, due, ranks'⟩
      have isRanks : record'.ranks = record.ranks := by simp [Record.ranks, request]
      rw [List.map_cons, List.sum_cons] at due
      refine wp_issueNext issuing' (by rw [request]; omega)
        (isRanks ▸ ranks' transfer (List.mem_cons_self ..)) (fun r'' record'' request' issuing'' => ?_)
        throws
      exact ⟨record'', _, issuing'', request'.trans request, by omega,
        fun t member => ranks' t (List.mem_cons_of_mem _ member)⟩
    · rintro _ r' ⟨record', sent, issuing', request, due, _⟩
      obtain rfl : sent = record'.request.bytes := by
        rw [request]
        simpa using due
      rw [wp_bind]
      refine Ring.wp_read issuing'.found ?_
      rw [wp_runIf]
      constructor
      · intro pending
        have failed := issuing'.inRound.cut_short pending issuing'.undelivered
        exact wp_finish_settled issuing'.toBusy (issuing'.inRound.isOver pending (.inl failed))
          issuing'.unpublished (fun r'' record'' busy'' settled _ => returns r'' record'' busy''
            settled) throws
      · intro pending
        exact returns r' record' issuing'.toBusy
          (.inl ⟨k, issuing'.inRound, Nat.pos_of_ne_zero pending, issuing'.unpublished⟩)
  · rw [show record.request.participants.length = record.ranks from rfl, isPlan] at thrown
    cases thrown

/-- No round of the collective has started: at most it has ended. -/
def Halted (e e' : RingExecutor) (id : CollectiveId) : Prop :=
  e'.trail id = e.trail id ∨ ∃ phase round, (phase = .failed ∨ phase = .cancelled) ∧
    e'.trail id = e.trail id ++ [(phase, round)]

/-- One transfer less is pending. -/
theorem wp_advance (busy : Busy x₀ (x.after r) id record)
    (inRound : InRound r.executor id record k record.request.bytes)
    (unpublished : r.executor.results x.published id = [])
    (returns : ∀ r' record', Busy x₀ (x.after r') id record' →
      Settled r'.executor x.published id record' →
      (record.failed = true ∨ record.cancelled = true → Halted r.executor r'.executor id) →
      Q () r')
    (throws : ∀ e r', Thrown x₀ e r' → E e r') : wp (Ring.advance id) Q E r := by
  have own : ∀ e r', Permitted e → E e r' := fun e r' permitted => throws e r' (.own permitted)
  rw [Ring.advance, wp_bind]
  refine Ring.wp_read busy.found ?_
  rw [wp_runIf]
  constructor
  · intro pending
    rw [wp_bind]
    refine Ring.wp_emit busy.found (fun probe => ?_) own
    have busy₁ := busy.probed probe
    rw [wp_ite]
    constructor
    · intro stopped
      refine wp_finish_settled busy₁ (inRound.isOver pending stopped) unpublished
        (fun r' record' busy' settled trail => returns r' record' busy' settled fun _ => .inr ?_)
        throws
      rcases record.endPhase_cases with ⟨_, intact, kept⟩ | ⟨ends, _⟩
      · simp [intact, kept] at stopped
      · exact ⟨_, _, ends, trail⟩
    · intro going
      have intact : record.failed = false := by
        by_contra failed
        exact going (.inl (by simpa using failed))
      have following := record.nextRound_at inRound.planned.volume_eq.2.1 inRound.round
      obtain ⟨phase, round, isNext⟩ := record.nextRound_eq
      have busy₂ := busy₁.wrote (f := Record.nextRound) (by rw [isNext])
      simp only [wp_bind, Ring.wp_modifyRecord, wp_ite]
      constructor
      · intro last
        rw [show record.request.participants.length = record.ranks from rfl] at last
        rw [if_pos last] at following
        refine wp_finish_settled busy₂ ?_ unpublished (fun r' record' busy' settled _ =>
          returns r' record' busy' settled fun stopped => absurd stopped going) throws
        rw [isNext]
        have isOver := inRound.complete pending intact following phase round
        exact { isOver with }
      · intro more
        rw [show record.request.participants.length = record.ranks from rfl] at more
        rw [if_neg more] at following
        have between := inRound.next pending intact following
        refine wp_startRound busy₂ { between with } unpublished (fun r' record' busy' settled =>
          returns r' record' busy' settled fun stopped => absurd stopped going) throws
  · intro pending
    exact returns r record busy
      (.inl ⟨k, inRound, Nat.pos_of_ne_zero pending, unpublished⟩) fun _ => .inl rfl

end Advance

/-! ## What comes back -/

/-- A completion accounts for all of its transfer. -/
theorem completion_accounts {chunks : OrderedMap ChunkId Transport.ChunkRecord}
    {id : TransferId} {transfer : Transport.TransferRecord}
    {completion : Transport.TransferCompletion}
    (balanced : Transport.Balanced chunks id transfer)
    (isCompletion : transfer.completion = some completion) :
    transfer.total = completion.delivered +
        (completion.droppedBufferFull + completion.droppedLinkDown) ∧
      (completion.outcome = .succeeded → completion.delivered = transfer.total) := by
  obtain ⟨_, delivered, bufferFull, linkDown, outcome⟩ := balanced.completion completion isCompletion
  obtain ⟨_, ended⟩ := balanced.completed.mp (by rw [isCompletion]; rfl)
  have nothing : Transport.tally chunks Transport.ChunkTransitState.open transfer.chunks = 0 := by
    apply Transport.tally_eq_zero
    intro chunk member record found
    simp [Transport.ChunkTransitState.open, ended chunk member record found]
  have total := balanced.total_eq
  rw [nothing, add_zero] at total
  rw [delivered, bufferFull, linkDown]
  refine ⟨total, fun succeeded => ?_⟩
  rw [succeeded] at outcome
  split at outcome
  · rename_i all
    rw [balanced.delivered, balanced.total]
    apply Transport.tally_congr
    intro chunk member
    obtain ⟨record, found, state⟩ := Option.map_eq_some_iff.mp (all chunk member)
    simp [Transport.share, found, state]
  · cases outcome

namespace Exchange

variable {x : Exchange} {completion : Transport.TransferCompletion}
  {rest : List Transport.TransferCompletion}

/-- The executor waits for every completion that is handed to it, with as many bytes. -/
theorem Linked.expects (linked : x.Linked) (invariant : x.routed.Invariant)
    (handing : x.handing = completion :: rest) :
    ∃ p dropped accounted, x.executor.transfers.find? completion.transfer = some p ∧
      Transport.addTraffic completion.droppedBufferFull completion.droppedLinkDown =
        .ok dropped ∧
      Transport.addTraffic completion.delivered dropped = .ok accounted ∧
      accounted.bytes = p.bytes ∧ completion.delivered.bytes ≤ p.bytes ∧
      (completion.outcome = .succeeded → completion.delivered.bytes = p.bytes) := by
  have accounts := invariant.drive.invariant.accounts
  obtain ⟨transfer, found, isCompletion⟩ := accounts.genuine completion (by
    simp [Exchange.routed, handing])
  have balanced := accounts.balanced _ _ found
  obtain ⟨total, whole⟩ := completion_accounts balanced isCompletion
  -- nothing about this transfer has been handed over before
  have unhanded : ¬ ∃ earlier ∈ x.handed, earlier.transfer = completion.transfer := by
    rintro ⟨earlier, wasHanded, same⟩
    have once := accounts.once
    rw [show x.routed.drive.taken = x.handed ++ x.handing from rfl, handing] at once
    simp only [List.map_append, List.map_cons, List.append_assoc] at once
    exact (List.disjoint_of_nodup_append once) (List.mem_map_of_mem wasHanded)
      (by rw [same]; simp)
  obtain ⟨p, isOwned⟩ := (linked.answered _ _ found).resolve_right unhanded
  obtain ⟨record, isRecord, isBytes, _⟩ := (linked.owned _ _ isOwned).2.1.sealed
  obtain rfl : record = transfer := Option.some.inj (isRecord.symm.trans found)
  have fits := balanced.fits
  rw [total] at fits
  have droppedFits : (completion.droppedBufferFull + completion.droppedLinkDown).Fits := by
    rw [add_comm] at fits
    exact fits.of_add_left
  refine ⟨p, _, _, isOwned, Transport.addTraffic_of_fits droppedFits,
    Transport.addTraffic_of_fits fits, ?_, ?_, fun succeeded => ?_⟩
  · rw [← total, isBytes]
  · rw [← isBytes, total, Transport.TrafficCount.add_bytes]
    omega
  · rw [whole succeeded, isBytes]

/-- What holds between two calls. -/
structure Good (x : Exchange) : Prop where
  routed : x.routed.Invariant
  linked : x.Linked
  settled : ∀ id record, x.executor.records.find? id = some record →
    Settled x.executor x.published id record
  unheard : ∀ id, x.executor.records.find? id = none →
    x.executor.trail id = [] ∧ x.executor.results x.published id = []

/-- The collectives that had failed or been cancelled have not started another round. -/
def Stops (x x' : Exchange) : Prop :=
  ∀ id record, x.executor.records.find? id = some record →
    record.failed = true ∨ record.cancelled = true → Halted x.executor x'.executor id

section Calls

variable {x' : Exchange} {id : CollectiveId} {record : Record} {x₀ : Exchange} {r : Ring}

/-- A call about one collective keeps what holds if it leaves that collective settled. -/
theorem Good.about (good : x.Good) (busy : Busy x x' id record)
    (settled : Settled x'.executor x'.published id record) (same : x'.published = x.published) :
    x'.Good where
  routed := busy.routed
  linked := busy.linked
  settled other record' found := by
    by_cases here : other = id
    · subst here
      obtain rfl : record = record' := Option.some.inj (busy.found.symm.trans found)
      exact settled
    · rw [busy.about.records other here] at found
      rw [same]
      exact busy.about.settled here (good.settled other record' found)
  unheard other unknown := by
    have apart : other ≠ id := by
      intro here
      rw [here, busy.found] at unknown
      cases unknown
    rw [busy.about.records other apart] at unknown
    rw [busy.about.trail other apart, same, busy.about.results _ other apart]
    exact good.unheard other unknown

theorem Stops.about (about : About id x.executor x'.executor)
    (halted : ∀ record, x.executor.records.find? id = some record →
      record.failed = true ∨ record.cancelled = true → Halted x.executor x'.executor id) :
    x.Stops x' := by
  intro other record found stopped
  by_cases here : other = id
  · subst here
    exact halted record found stopped
  · exact .inl (about.trail other here)

theorem Good.busy (good : x.Good) (found : x.executor.records.find? id = some record) :
    Busy x (x.after x.ring) id record := ⟨good.routed, .refl, good.linked, found, .refl _ _⟩

/-- A collective with transfers in flight is in a round. -/
theorem Good.inRound (good : x.Good) (found : x.executor.records.find? id = some record)
    (flying : 0 < x.executor.inFlight (Pending.one id)) :
    ∃ k, InRound x.executor id record k record.request.bytes ∧
      x.executor.results x.published id = [] := by
  rcases good.settled id record found with ⟨k, inRound, _, unpublished⟩ | ended
  · exact ⟨k, inRound, unpublished⟩
  · exact absurd ended.drained (Nat.ne_of_gt flying)

/-! ### A local transfer has drained -/

/-- The event has been handled. -/
def handledLocal (x : Exchange) : Exchange := { x with awaiting := none }

/-- The event that is handled was waited for, and is waited for no longer. -/
theorem drainedLocally {event : Event} {completion : LocalCompletionEvent} {found : LocalPending}
    (busy : Busy x₀ (x.after r) id record) (awaited : x.awaiting = some event)
    (payload : event.payload = .localCompletion completion)
    (isFound : r.executor.locals.find? event.id = some found)
    (same : found.transfer.collective = id) :
    Busy x₀ (x.handledLocal.after { r with executor := { r.executor with
      locals := r.executor.locals.erase event.id } }) id record := by
  have linked := busy.linked
  have inv := busy.routed.drive.invariant
  have current := (inv.current event awaited).1
  have handled : Transport.Network.dispatch event.payload r.fabric.network =
      .ok () r.fabric.network := by
    rw [payload]
    rfl
  have outstanding : Transport.outstanding r.fabric.network.kernel.sim none =
      Transport.outstanding r.fabric.network.kernel.sim x.awaiting \ {event} := by
    rw [awaited]
    exact Transport.outstanding_handled inv.valid current
  -- no other event has its identifier
  have apart : ∀ other ∈ Transport.outstanding r.fabric.network.kernel.sim none,
      other.id ≠ event.id := by
    intro other isOutstanding sameId
    rw [Transport.outstanding_none] at isOutstanding
    exact (inv.valid.current event current).2.1
      (sameId ▸ inv.valid.mem_pending isOutstanding.1)
  have step : Routed.Step (x.after r).routed _ := .drove (.handled awaited handled)
  refine ⟨busy.routed.step step, busy.reached.tail step, ?_, busy.found,
    busy.about.trans (.drainedLocally isFound same)⟩
  refine ⟨linked.known, linked.participants, ⟨linked.loaded.transfers, ?_⟩, linked.owned,
    linked.answered, ?_, ?_⟩
  · exact fun other found' isFound' =>
      linked.loaded.locals other found' (OrderedMap.find?_of_erase isFound').2
  · intro other found' isFound'
    obtain ⟨differs, before⟩ := OrderedMap.find?_of_erase isFound'
    obtain ⟨known, sameCollective, event', isOutstanding, isId, payload'⟩ :=
      linked.locals other found' before
    refine ⟨known, sameCollective, event', ?_, isId, payload'⟩
    show event' ∈ Transport.outstanding r.fabric.network.kernel.sim none
    rw [outstanding]
    exact ⟨isOutstanding, fun isEvent => differs (by rw [← isId, isEvent])⟩
  · intro other isOutstanding completion' payload'
    have here : other ∈ Transport.outstanding r.fabric.network.kernel.sim none := isOutstanding
    have differs := apart other here
    rw [outstanding] at here
    obtain ⟨found', isFound', sameEvent⟩ := linked.events other here.1 completion' payload'
    exact ⟨found', (OrderedMap.find?_erase_of_ne _ differs).trans isFound', sameEvent⟩

/-- The completion of a local transfer that was taken off the queue is never unexpected or stale. -/
theorem wp_handleLocalCompletion (good : x.Good) {event : Event}
    {completion : LocalCompletionEvent} (awaited : x.awaiting = some event)
    (payload : event.payload = .localCompletion completion) :
    wp (Ring.handleLocalCompletion completion)
      (fun _ r => (x.handledLocal.after r).Good ∧ x.Stops (x.handledLocal.after r))
      (fun e r => Thrown x e r) x.ring := by
  have inv := good.routed.drive.invariant
  have current : x.ring.fabric.network.kernel.sim.currentEvent = some event :=
    (inv.current event awaited).1
  obtain ⟨found, isFound, isCompletion⟩ := good.linked.events event (.inr awaited) completion payload
  have isFound' : x.ring.executor.locals.find? event.id = some found := isFound
  obtain ⟨⟨record, isRecord⟩, sameCollective, _⟩ := good.linked.locals event.id found isFound
  rw [isCompletion] at sameCollective
  rw [← sameCollective] at isRecord
  have flying : 0 < x.executor.inFlight (Pending.one completion.collective) := by
    rw [RingExecutor.inFlight_local_drained isFound]
    simp [Pending.one, sameCollective]
  obtain ⟨k, inRound, unpublished⟩ := good.inRound isRecord flying
  obtain ⟨isRound, isPhase, isRank⟩ := inRound.events event.id found isFound sameCollective.symm
  rw [isCompletion] at isRound isPhase isRank
  have throws : ∀ e r, Thrown x e r → Thrown x e r := fun _ _ thrown => thrown
  have own : ∀ e r, Permitted e → Thrown x e r := fun _ _ permitted => .own permitted
  simp only [Ring.handleLocalCompletion, wp_bind, wp_zoom, Kernel.currentEventId, wp_get,
    wp_getOrThrow, wp_pure, wp_throwIf, Ring.kernelLens, current, isFound', Option.some.injEq,
    forall_eq', reduceCtorEq, IsEmpty.forall_iff, and_true]
  refine ⟨fun unexpected => absurd isCompletion unexpected, fun _ => ?_⟩
  refine Ring.wp_read isRecord ⟨fun stale => ?_, fun _ => ?_⟩
  · rcases stale with round | phase | rank
    · exact absurd isRound.symm round
    · exact absurd isPhase.symm phase
    · exact absurd isRank (Nat.not_lt.mpr rank)
  · simp only [Ring.wp_modifyRecord]
    have busy₁ := (good.busy isRecord).wrote (f := fun record => { record with
      result := { record.result with
        deliveredBytes := U64.add record.result.deliveredBytes found.transfer.bytes } }) rfl
    refine Ring.wp_emitCounter busy₁.found (fun probe => ?_) own
    have busy₂ := drainedLocally (busy₁.probed probe) awaited payload isFound
      sameCollective.symm
    have busy₃ := busy₂.wrote
      (f := fun record => { record with pending := U64.sub record.pending 1 }) rfl
    simp only [Ring.wp_modifyExecutor]
    have drained := inRound.drainLocally good.linked.loaded isFound sameCollective.symm
    refine wp_advance busy₃ (drained.congr rfl rfl rfl) unpublished
      (fun r' record' busy' settled halted => ?_) throws
    refine ⟨good.about busy' settled rfl, .about busy'.about fun before isBefore stopped => ?_⟩
    obtain rfl : record = before := Option.some.inj (isRecord.symm.trans isBefore)
    exact halted stopped

/-! ### A fabric transfer has drained -/

/-- The first completion has been handed over. -/
def handedNext (x : Exchange) (completion : Transport.TransferCompletion)
    (rest : List Transport.TransferCompletion) : Exchange :=
  { x with handed := x.handed ++ [completion], handing := rest }

theorem drainedFabric (busy : Busy x₀ (x.after r) id record)
    (handing : x.handing = completion :: rest) {p : Pending}
    (isFound : r.executor.transfers.find? completion.transfer = some p)
    (same : p.collective = id) :
    Busy x₀ ((x.handedNext completion rest).after { r with executor := { r.executor with
      transfers := r.executor.transfers.erase completion.transfer } }) id record := by
  have linked := busy.linked
  have same_routed : ((x.handedNext completion rest).after { r with executor := { r.executor with
      transfers := r.executor.transfers.erase completion.transfer } }).routed =
      (x.after r).routed := by
    simp [Exchange.routed, handedNext, after, handing, network]
  refine ⟨same_routed ▸ busy.routed, same_routed ▸ busy.reached, ?_, busy.found,
    busy.about.trans (.drainedFabric isFound same)⟩
  · refine ⟨linked.known, linked.participants, ⟨?_, linked.loaded.locals⟩, ?_, ?_, linked.locals,
      linked.events⟩
    · exact fun other p' isFound' =>
        linked.loaded.transfers other p' (OrderedMap.find?_of_erase isFound').2
    · intro other p' isFound'
      obtain ⟨differs, before⟩ := OrderedMap.find?_of_erase isFound'
      obtain ⟨known, submitted, unhanded⟩ := linked.owned other p' before
      refine ⟨known, submitted, fun earlier wasHanded => ?_⟩
      rcases List.mem_append.mp wasHanded with before | now
      · exact unhanded earlier before
      · obtain rfl : earlier = completion := List.mem_singleton.mp now
        exact Ne.symm differs
    · intro other transfer found
      by_cases here : other = completion.transfer
      · exact .inr ⟨completion, by simp [handedNext, after], here.symm⟩
      · rcases linked.answered other transfer found with ⟨p', isOwned⟩ | ⟨earlier, before, isOther⟩
        · exact .inl ⟨p', (OrderedMap.find?_erase_of_ne _ here).trans isOwned⟩
        · exact .inr ⟨earlier, List.mem_append_left _ before, isOther⟩

/-- What is left to do about a completion once its outcome has been noted. -/
theorem wp_handedOver (good : x.Good) (handing : x.handing = completion :: rest) {p : Pending}
    (isFound : x.executor.transfers.find? completion.transfer = some p)
    (busy : Busy x (x.after r) p.collective record)
    (same : r.executor = { x.executor with records := r.executor.records }) {k : Nat}
    (inRound : InRound { x.executor with
        transfers := x.executor.transfers.erase completion.transfer }
      p.collective { record with pending := U64.sub record.pending 1 } k record.request.bytes)
    (unpublished : x.executor.results x.published p.collective = [])
    (stopped : ∀ before, x.executor.records.find? p.collective = some before →
      before.failed = true ∨ before.cancelled = true →
      record.failed = true ∨ record.cancelled = true) :
    wp (do
        Ring.modifyExecutor fun e => { e with transfers := e.transfers.erase completion.transfer }
        Ring.modifyRecord p.collective fun record =>
          { record with pending := U64.sub record.pending 1 }
        Ring.advance p.collective)
      (fun _ r => ((x.handedNext completion rest).after r).Good ∧
        x.Stops ((x.handedNext completion rest).after r))
      (fun e r => Thrown x e r) r := by
  simp only [wp_bind, Ring.wp_modifyExecutor, Ring.wp_modifyRecord]
  have isFound' : r.executor.transfers.find? completion.transfer = some p := by
    rw [same]
    exact isFound
  have busy₁ := (drainedFabric busy handing isFound' rfl).wrote
    (f := fun record => { record with pending := U64.sub record.pending 1 }) rfl
  have timeline : r.executor.timeline = x.executor.timeline := by rw [same]
  refine wp_advance busy₁ (inRound.congr ?_ ?_ timeline) ?_
    (fun r' record' busy' settled halted => ?_) (fun _ _ thrown => thrown)
  · show r.executor.transfers.erase _ = _
    rw [same]
  · show r.executor.locals = _
    rw [same]
  · show RingExecutor.results { r.executor with records := _, transfers := _ } _ _ = _
    rw [same]
    exact unpublished
  · refine ⟨good.about busy' settled rfl, .about busy'.about fun before isBefore wasStopped => ?_⟩
    have unchanged : RingExecutor.trail { r.executor with
        records := r.executor.records.adjust p.collective fun record =>
          { record with pending := U64.sub record.pending 1 }
        transfers := r.executor.transfers.erase completion.transfer } p.collective =
        x.executor.trail p.collective := by
      rw [RingExecutor.trail, RingExecutor.trail, timeline]
    have isHalted := halted (stopped before isBefore wasStopped)
    unfold Halted at isHalted ⊢
    rw [← unchanged]
    exact isHalted

/-- A completion is never unowned, and its bytes are those that were sent. -/
theorem wp_handleTransfer (good : x.Good) (handing : x.handing = completion :: rest) :
    wp (Ring.handleTransfer completion)
      (fun _ r => ((x.handedNext completion rest).after r).Good ∧
        x.Stops ((x.handedNext completion rest).after r))
      (fun e r => Thrown x e r) x.ring := by
  obtain ⟨p, dropped, accounted, isFound, isDropped, isAccounted, bytes, le, whole⟩ :=
    good.linked.expects good.routed handing
  have isFound' : x.ring.executor.transfers.find? completion.transfer = some p := isFound
  obtain ⟨⟨record, isRecord⟩, _⟩ := good.linked.owned completion.transfer p isFound
  have flying : 0 < x.executor.inFlight (Pending.one p.collective) := by
    rw [RingExecutor.inFlight_fabric_drained isFound]
    simp [Pending.one]
  obtain ⟨k, inRound, unpublished⟩ := good.inRound isRecord flying
  have throws : ∀ e r, Thrown x e r → Thrown x e r := fun _ _ thrown => thrown
  have own : ∀ e r, Permitted e → Thrown x e r := fun _ _ permitted => .own permitted
  simp only [Ring.handleTransfer, wp_bind, wp_get, wp_getOrThrow, wp_fromExcept, wp_throwIf,
    isFound', isDropped, isAccounted, bytes, Option.some.injEq, Except.ok.injEq, forall_eq',
    reduceCtorEq, IsEmpty.forall_iff, implies_true, and_true, ne_eq, not_true_eq_false,
    not_false_eq_true, true_and, forall_const]
  refine Ring.wp_read isRecord ?_
  simp only [Ring.wp_modifyRecord]
  have busy₁ := (good.busy isRecord).wrote (f := fun record => { record with
    result := { record.result with
      deliveredBytes := U64.add record.result.deliveredBytes completion.delivered.bytes } }) rfl
  refine Ring.wp_emitCounter busy₁.found (fun probe => ?_) own
  have busy₂ := busy₁.probed probe
  rw [wp_runIf]
  constructor
  · intro unsuccessful
    have busy₃ := busy₂.wrote (f := Record.broken "collective fabric transfer failed") rfl
    have broken := (inRound.broken "collective fabric transfer failed").drainFabric
      good.linked.loaded isFound rfl le (fun intact => by cases intact)
    exact wp_handedOver good handing isFound busy₃ rfl broken unpublished fun _ _ _ => .inl rfl
  · intro successful
    have drained := inRound.drainFabric good.linked.loaded isFound rfl le
      (fun _ => whole (not_not.mp successful))
    refine wp_handedOver good handing isFound busy₂ rfl drained unpublished fun before isBefore => ?_
    obtain rfl : record = before := Option.some.inj (isRecord.symm.trans isBefore)
    exact id

/-! ### Cancellations and submissions -/

/-- A cancellation of a collective that exists does not throw; it only marks what has not ended. -/
theorem wp_cancel (good : x.Good) (found : x.executor.records.find? id = some record) :
    wp (Ring.cancel id) (fun _ r => (x.after r).Good ∧ x.Stops (x.after r)) (fun _ _ => False)
      x.ring := by
  have found' : x.ring.executor.records.find? id = some record := found
  rw [Ring.cancel, wp_bind]
  refine Ring.wp_read found' ?_
  rw [wp_runIf]
  have busy := good.busy found
  constructor
  · intro running
    rw [Ring.wp_modifyRecord]
    have busy₁ := busy.wrote (f := Record.withdrawn) rfl
    refine ⟨good.about busy₁ ?_ rfl, .about busy₁.about fun _ _ _ => .inl rfl⟩
    rcases good.settled id record found with ⟨k, inRound, pending, unpublished⟩ | ended
    · exact .inl ⟨k, inRound.withdrawn.congr rfl rfl rfl, pending, unpublished⟩
    · simp [ended.finished] at running
  · intro _
    exact ⟨good, fun _ _ _ _ => .inl rfl⟩

/-- Requests that are refused before anything is done. -/
inductive Refused : Error → Prop where
  | request : Refused (.invalidArgument "invalid collective participants or chunk size")
  | volume {ranks bytes : Nat} {e : Error} : plannedVolume ranks bytes = .error e → Refused e
  | limit : Refused (.lengthError "collective retained-state limit exceeded")
  | participant : Refused (.invalidArgument "unknown or duplicate collective GPU")

theorem checkParticipants_error {graph : TopologyGraph} {gpus unique : List GpuId} {e : Error}
    (thrown : Ring.checkParticipants graph gpus unique = .error e) : Refused e := by
  induction gpus generalizing unique with
  | nil => cases thrown
  | cons gpu rest ih =>
    rw [Ring.checkParticipants] at thrown
    split at thrown
    · cases thrown
      exact .participant
    · exact ih thrown

theorem checkParticipants_ok {graph : TopologyGraph} {gpus unique : List GpuId}
    (ok : Ring.checkParticipants graph gpus unique = .ok ()) :
    ∀ gpu ∈ gpus, ∃ worker, graph.findGpu gpu = some worker := by
  induction gpus generalizing unique with
  | nil => simp
  | cons gpu rest ih =>
    rw [Ring.checkParticipants] at ok
    split at ok
    · cases ok
    · rename_i checked
      rw [not_or] at checked
      intro other member
      rcases List.mem_cons.mp member with rfl | later
      · exact Option.ne_none_iff_exists'.mp fun none => checked.1 (by rw [none]; rfl)
      · exact ih ok other later

/-- The record of a collective that was accepted. -/
def acceptedRecord (request : CollectiveRequest) (id : CollectiveId) (now : SimTimeNs)
    (volume : Nat) : Record :=
  { request
    result :=
      { id
        outcome := .reduceScatter
        started := now
        finished := now
        plannedBytes := volume
        issuedFabricBytes := 0
        issuedLocalBytes := 0
        deliveredBytes := 0
        reason := "" } }

/-- A collective that is unknown has nothing in flight. -/
theorem Good.drained (good : x.Good) (unknown : x.executor.records.find? id = none) :
    x.executor.inFlight (Pending.one id) = 0 := by
  have isOther : ∀ p : Pending, (∃ record, x.executor.records.find? p.collective = some record) →
      ¬ 0 < Pending.one id p := by
    rintro p ⟨record, found⟩ positive
    have same : p.collective = id := by
      by_contra other
      simp [Pending.one, other] at positive
    rw [same, unknown] at found
    cases found
  by_contra flying
  rcases Nat.eq_zero_or_pos (x.executor.transfers.weigh (Pending.one id)) with zero | heavy
  · have heavy : 0 < x.executor.locals.weigh fun l => Pending.one id l.transfer := by
      unfold RingExecutor.inFlight at flying
      omega
    obtain ⟨event, found, isFound, weight⟩ := OrderedMap.exists_of_weigh_pos heavy
    exact isOther _ (good.linked.locals event found isFound).1 weight
  · obtain ⟨transfer, p, isFound, weight⟩ := OrderedMap.exists_of_weigh_pos heavy
    exact isOther _ (good.linked.owned transfer p isFound).1 weight

/-- The identifier of the next collective. -/
def nextId (x : Exchange) : CollectiveId := ⟨x.executor.records.size⟩

theorem Linked.unknown_next (linked : x.Linked) : x.executor.records.find? x.nextId = none := by
  by_contra known
  have inRange := (linked.known x.nextId).mp (Option.ne_none_iff_exists'.mp known)
  exact lt_irrefl _ inRange

/-- The exchange once a request has been entered. -/
def entered (x : Exchange) (request : CollectiveRequest) (volume : Nat) : Ring :=
  { x.ring with executor := { x.executor with
      records := x.executor.records.insert x.nextId
        (acceptedRecord request x.nextId x.network.now volume)
      participantEntries :=
        U64.add x.executor.participantEntries request.participants.length } }

theorem Good.entered (good : x.Good) (request : CollectiveRequest) (volume : Nat)
    (participants : ∀ gpu ∈ request.participants, ∃ worker,
      x.network.graph.findGpu gpu = some worker) :
    Busy x (x.after (x.entered request volume)) x.nextId
      (acceptedRecord request x.nextId x.network.now volume) := by
  have linked := good.linked
  have unknown := linked.unknown_next
  have kept : ∀ id, (∃ record, x.executor.records.find? id = some record) →
      ∃ record, (x.executor.records.insert x.nextId
        (acceptedRecord request x.nextId x.network.now volume)).find? id = some record := by
    rintro id ⟨record, found⟩
    have apart : id ≠ x.nextId := by
      intro same
      rw [same, unknown] at found
      cases found
    exact ⟨record, (OrderedMap.find?_insert_of_ne _ _ apart).trans found⟩
  refine ⟨good.routed, .refl, ?_, OrderedMap.find?_insert_self _ _ _, .submitted _⟩
  refine ⟨?_, ?_, ⟨linked.loaded.transfers, linked.loaded.locals⟩, ?_, linked.answered, ?_,
    linked.events⟩
  · intro id
    show (∃ record, (x.executor.records.insert x.nextId _).find? id = some record) ↔
      id.value < (x.executor.records.insert x.nextId _).size
    rw [OrderedMap.size_insert_of_fresh unknown]
    constructor
    · rintro ⟨record, found⟩
      rcases OrderedMap.find?_insert_cases found with ⟨rfl, _⟩ | ⟨_, before⟩
      · exact Nat.lt_succ_self _
      · exact Nat.lt_succ_of_lt ((linked.known id).mp ⟨record, before⟩)
    · intro inRange
      rcases Nat.lt_or_ge id.value x.executor.records.size with before | last
      · exact kept id ((linked.known id).mpr before)
      · have isNext : id = x.nextId := by
          cases id
          simp only [nextId, StrongId.mk.injEq]
          simp only at inRange last
          omega
        rw [isNext]
        exact ⟨_, OrderedMap.find?_insert_self _ _ _⟩
  · intro id record found gpu member
    rcases OrderedMap.find?_insert_cases found with ⟨_, rfl⟩ | ⟨_, before⟩
    · exact participants gpu member
    · exact linked.participants id record before gpu member
  · intro transfer p isFound
    obtain ⟨known, rest⟩ := linked.owned transfer p isFound
    exact ⟨kept _ known, rest⟩
  · intro event found isFound
    obtain ⟨known, rest⟩ := linked.locals event found isFound
    exact ⟨kept _ known, rest⟩

/-- A submission is refused before anything is done, or its collective is entered and starts. -/
theorem wp_submit (good : x.Good) (request : CollectiveRequest) :
    wp (Ring.submit request)
      (fun id r => (x.after r).Good ∧ x.Stops (x.after r) ∧ id = x.nextId)
      (fun e r => Refused e ∧ r = x.ring ∨ Thrown x e r) x.ring := by
  have unknown := good.linked.unknown_next
  have throws : ∀ e r, Thrown x e r → Refused e ∧ r = x.ring ∨ Thrown x e r :=
    fun _ _ thrown => .inr thrown
  have own : ∀ e r, Permitted e → Refused e ∧ r = x.ring ∨ Thrown x e r :=
    fun _ _ permitted => .inr (.own permitted)
  simp only [Ring.submit, wp_bind, wp_throwIf, wp_fromExcept, wp_get, Ring.wp_now,
    Ring.wp_modifyExecutor]
  refine ⟨fun _ => .inl ⟨.request, trivial⟩, fun wellFormed => ⟨fun volume isVolume => ?_,
    fun e thrown => .inl ⟨.volume thrown, trivial⟩⟩⟩
  refine ⟨fun _ => .inl ⟨.limit, trivial⟩, fun _ => ⟨fun _ checked => ?_,
    fun e thrown => .inl ⟨checkParticipants_error thrown, trivial⟩⟩⟩
  have busy := good.entered request volume (checkParticipants_ok checked)
  rw [show x.ring.executor.records.emplace ⟨x.ring.executor.records.size⟩ _ = _ from
    OrderedMap.emplace_of_fresh unknown]
  refine Ring.wp_emit (r := x.entered request volume) busy.found (fun probe => ?_) own
  have busy₁ := busy.probed probe
  refine Ring.wp_emitCounter busy₁.found (fun probe' => ?_) own
  have busy₂ := busy₁.probed probe'
  obtain ⟨untold, unpublished⟩ := good.unheard x.nextId unknown
  have drained := good.drained unknown
  have planned : (acceptedRecord request x.nextId x.network.now volume).Planned x.nextId :=
    ⟨rfl, isVolume, fun zero => wellFormed (.inr (.inr zero))⟩
  obtain ⟨positive, small, nonzero, isPlanned, _⟩ := planned.volume_eq
  have done : ∀ r' record', Busy x (x.after r') x.nextId record' →
      Settled r'.executor x.published x.nextId record' →
      (x.after r').Good ∧ x.Stops (x.after r') ∧ x.nextId = x.nextId :=
    fun r' record' busy' settled => ⟨good.about busy' settled rfl,
      .about busy'.about (fun before isBefore => by simp [unknown] at isBefore), rfl⟩
  rw [wp_ite]
  constructor
  · intro alone
    -- one participant has nothing to send
    have isPlanned' : volume = 2 * (request.participants.length - 1) * request.bytes := isPlanned
    rw [alone] at isPlanned'
    have isOver : Over (x.entered request volume).executor x.nextId
        (acceptedRecord request x.nextId x.network.now volume) := by
      refine ⟨planned, rfl, rfl, drained, le_rfl, Nat.zero_le _, fun _ => ⟨?_, ?_⟩, 0, untold⟩
      · show 0 = volume
        omega
      · rw [show (acceptedRecord request x.nextId x.network.now volume).ranks = 1 from alone]
        exact untold
    rw [wp_bind]
    exact wp_finish_settled busy₂ isOver unpublished (fun r' record' busy' settled _ =>
      done r' record' busy' settled) throws
  · intro several
    have two : 2 ≤ request.participants.length := by
      have positive' : 1 ≤ request.participants.length := positive
      omega
    have between : Between (x.entered request volume).executor x.nextId
        (acceptedRecord request x.nextId x.network.now volume) 0 := by
      refine ⟨planned, ?_, rfl, rfl, rfl, drained, ?_, ?_, untold⟩
      · exact ringRounds_getElem?.mpr (.inl ⟨rfl, rfl, by
          show 0 < request.participants.length - 1
          omega⟩)
      · exact (Nat.zero_mul _).symm
      · exact (Nat.zero_mul _).symm
    rw [wp_bind]
    exact wp_startRound busy₂ between unpublished done throws

/-- Taking the results only moves them. -/
theorem wp_takeCompleted (good : x.Good) : wp Ring.takeCompleted
    (fun results r => Good { x.after r with published := x.published ++ results } ∧
      x.Stops (x.after r)) (fun _ _ => False) x.ring := by
  have same : ∀ id, RingExecutor.results { x.executor with completed := [] }
      (x.published ++ x.executor.completed) id = x.executor.results x.published id := by
    intro id
    simp [RingExecutor.results]
  refine ⟨⟨good.routed, ?_, ?_, ?_⟩, fun _ _ _ _ => .inl rfl⟩
  · exact good.linked.wrote rfl rfl rfl rfl rfl rfl fun _ => rfl
  · intro id record found
    rcases good.settled id record found with ⟨k, inRound, pending, unpublished⟩ | ended
    · exact .inl ⟨k, inRound.congr rfl rfl rfl, pending, (same id).trans unpublished⟩
    · exact .inr { ended with result := (same id).trans ended.result }
  · intro id unknown
    obtain ⟨untold, unpublished⟩ := good.unheard id unknown
    exact ⟨untold, (same id).trans unpublished⟩

end Calls

end Exchange

end NexusLab.Collective
