import NexusLab.Collective.Planner
import Mathlib.Algebra.BigOperators.Group.Finset.Basic
import Mathlib.Data.Multiset.Range
import Mathlib.Data.Finset.Range
import Mathlib.Data.Nat.ModEq
import Mathlib.Algebra.Order.BigOperators.Group.List

/-! # The ring plan computes an all-reduce

Each rank starts with its own contribution to every shard.  Executing the planned reduce-scatter
rounds, in which a receiver merges what the sender held before the round, and then the planned
all-gather rounds, in which a receiver takes over what the sender held, leaves every rank with
every contribution to every shard.

Contributions are multisets, so merging a contribution a second time would show.  After `n`
reduce-scatter rounds the rank at distance `k ≤ n` behind a shard's owner holds the `k + 1`
contributions collected along that arc of the ring, and everyone else still holds its own
(`Scattered`); after `n` all-gather rounds the complete shard has travelled `n` hops
(`Gathered`).
-/

namespace NexusLab.Collective

/-! ## Arithmetic on the ring -/

theorem mod_of_lt_two_mul {x n : Nat} (below : x < 2 * n) :
    x % n = if x < n then x else x - n := by
  split
  · exact Nat.mod_eq_of_lt ‹_›
  · rw [Nat.mod_eq_sub_mod (by omega), Nat.mod_eq_of_lt (by omega)]

theorem mod_of_lt_three_mul {x n : Nat} (below : x < 3 * n) :
    x % n = if x < n then x else if x < 2 * n then x - n else x - 2 * n := by
  split
  · exact Nat.mod_eq_of_lt ‹_›
  · rw [Nat.mod_eq_sub_mod (by omega), mod_of_lt_two_mul (by omega)]
    split <;> split <;> omega

/-- How many hops `rank` lies behind the owner of `shard` on a ring of `participants`. -/
def distance (participants rank shard : Nat) : Nat := (rank + participants - shard) % participants

theorem distance_eq {participants rank shard : Nat} (hr : rank < participants)
    (hs : shard < participants) :
    distance participants rank shard =
      if shard ≤ rank then rank - shard else rank + participants - shard := by
  unfold distance
  rw [mod_of_lt_two_mul (by omega)]
  split <;> split <;> omega

/-- The contributions of `length` consecutive ranks from `start` on. -/
def arc (participants start length : Nat) : Multiset Nat :=
  (Multiset.range length).map (fun i => (start + i) % participants)

theorem arc_succ (participants start length : Nat) :
    arc participants start (length + 1) =
      arc participants start length + {(start + length) % participants} := by
  simp [arc, Multiset.range_succ, ← Multiset.singleton_add, add_comm]

theorem arc_nodup {participants start length : Nat} (hs : start < participants)
    (short : length ≤ participants) : (arc participants start length).Nodup := by
  refine (Multiset.nodup_map_iff_of_inj_on ?_).mpr (Multiset.nodup_range _)
  intro i hi j hj same
  rw [Multiset.mem_range] at hi hj
  rw [mod_of_lt_two_mul (by omega), mod_of_lt_two_mul (by omega)] at same
  split at same <;> split at same <;> omega

/-- Once around the ring is everybody. -/
theorem arc_full {participants start : Nat} (hs : start < participants) :
    arc participants start participants = Multiset.range participants := by
  refine (Multiset.Nodup.ext (arc_nodup hs le_rfl) (Multiset.nodup_range _)).mpr fun x => ?_
  simp only [arc, Multiset.mem_map, Multiset.mem_range]
  constructor
  · rintro ⟨i, _, rfl⟩
    exact Nat.mod_lt _ (by omega)
  · intro hx
    refine ⟨(x + participants - start) % participants, Nat.mod_lt _ (by omega), ?_⟩
    rw [mod_of_lt_two_mul (x := x + participants - start) (by omega)]
    split <;> (rw [mod_of_lt_two_mul (by omega)]; split <;> omega)

/-! ## Executing a plan -/

/-- What each rank holds for each shard. -/
abbrev Holdings := Nat → Nat → Multiset Nat

def initialHoldings : Holdings := fun rank _ => {rank}

/-- One delivery.  The sender's holdings are those before the round. -/
def deliver (phase : Phase) (before after : Holdings) (transfer : RingTransfer) : Holdings :=
  fun rank shard =>
    if rank = transfer.destination ∧ shard = transfer.shard then
      if phase = .allGather then before transfer.source shard
      else after rank shard + before transfer.source shard
    else after rank shard

def executeRound (phase : Phase) (plan : List RingTransfer) (before : Holdings) : Holdings :=
  plan.foldl (deliver phase before) before

/-- The first `rounds` rounds of a phase. -/
def executePhase (participants bytes : Nat) (phase : Phase) (start : Holdings) :
    Nat → Except Error Holdings
  | 0 => .ok start
  | round + 1 => do
    let before ← executePhase participants bytes phase start round
    let plan ← planRound participants bytes phase round
    .ok (executeRound phase plan before)

def executeRing (participants bytes : Nat) : Except Error Holdings := do
  let scattered ← executePhase participants bytes .reduceScatter initialHoldings (participants - 1)
  executePhase participants bytes .allGather scattered (participants - 1)

/-- The rank a rank receives from. -/
def predecessor (participants rank : Nat) : Nat := (rank + participants - 1) % participants

theorem predecessor_eq {participants rank : Nat} (hr : rank < participants) :
    predecessor participants rank = if rank = 0 then participants - 1 else rank - 1 := by
  unfold predecessor
  rw [mod_of_lt_two_mul (by omega)]
  split <;> split <;> omega

section Round

variable {participants bytes round : Nat} (phase : Phase)

theorem shardSent_reduceScatter (small : participants ≤ 8192) (inRange : round < participants - 1)
    {rank : Nat} (hr : rank < participants) :
    shardSent participants .reduceScatter round rank =
      if round ≤ rank then rank - round else rank + participants - round := by
  rw [shardSent_eq _ small inRange hr, if_neg (by decide), mod_of_lt_two_mul (by omega)]
  split_ifs <;> omega

theorem shardSent_allGather (small : participants ≤ 8192) (inRange : round < participants - 1)
    {rank : Nat} (hr : rank < participants) :
    shardSent participants .allGather round rank =
      if rank + 1 < round then rank + 1 + participants - round
      else if rank + 1 = participants + round then 0 else rank + 1 - round := by
  rw [shardSent_eq _ small inRange hr, if_pos rfl, mod_of_lt_three_mul (by omega)]
  split_ifs <;> omega

/-- A rank receives exactly from its predecessor, so the deliveries of a round do not interfere. -/
theorem executeRound_plan (two : 2 ≤ participants) (small : participants ≤ 8192)
    (before : Holdings) {rank shard : Nat}
    (hr : rank < participants) :
    executeRound phase ((List.range participants).map (planTransfer participants bytes phase round))
        before rank shard =
      if shard = shardSent participants phase round (predecessor participants rank) then
        if phase = .allGather then before (predecessor participants rank) shard
        else before rank shard + before (predecessor participants rank) shard
      else before rank shard := by
  have prefix_rounds : ∀ n ≤ participants,
      ((List.range n).map (planTransfer participants bytes phase round)).foldl
          (deliver phase before) before rank shard =
        if predecessor participants rank < n ∧
            shard = shardSent participants phase round (predecessor participants rank) then
          if phase = .allGather then before (predecessor participants rank) shard
          else before rank shard + before (predecessor participants rank) shard
        else before rank shard := by
    intro n
    induction n with
    | zero => simp
    | succ n ih =>
      intro bound
      rw [List.range_succ, List.map_append, List.foldl_append, List.map_singleton,
        List.foldl_cons, List.foldl_nil]
      have destination : U32.add n 1 % participants = rank ↔ predecessor participants rank = n := by
        rw [U32.add_eq (by omega), predecessor_eq hr, mod_of_lt_two_mul (by omega)]
        split <;> split <;> omega
      rw [deliver, ih (by omega)]
      simp only [planTransfer]
      by_cases own : predecessor participants rank = n
      · have received : rank = U32.add n 1 % participants := (destination.mpr own).symm
        subst own
        simp [received.symm]
      · have other : ¬ rank = U32.add n 1 % participants :=
          fun h => own (destination.mp h.symm)
        simp only [other, false_and, if_false]
        have lt_succ : predecessor participants rank < n + 1 ↔ predecessor participants rank < n := by
          omega
        simp only [lt_succ]
  have inside : predecessor participants rank < participants := Nat.mod_lt _ (by omega)
  simpa [executeRound, inside] using prefix_rounds participants le_rfl

/-! ## One round moves every shard once -/

theorem shardSent_lt (two : 2 ≤ participants) (rank : Nat) :
    shardSent participants phase round rank < participants := Nat.mod_lt _ (by omega)

theorem shardSent_injective (small : participants ≤ 8192) (inRange : round < participants - 1)
    {a b : Nat} (ha : a < participants) (hb : b < participants)
    (same : shardSent participants phase round a = shardSent participants phase round b) :
    a = b := by
  rw [shardSent_eq phase small inRange ha, shardSent_eq phase small inRange hb] at same
  generalize (if phase = Phase.allGather then 1 else 0) = flag at same
  have shift : a + participants - round + flag = a + (participants - round + flag) := by omega
  have shift' : b + participants - round + flag = b + (participants - round + flag) := by omega
  rw [shift, shift'] at same
  have cancelled : a % participants = b % participants := Nat.ModEq.add_right_cancel' _ same
  rwa [Nat.mod_eq_of_lt ha, Nat.mod_eq_of_lt hb] at cancelled

theorem map_shard_plan (ranks : List Nat) :
    (ranks.map (planTransfer participants bytes phase round)).map RingTransfer.shard =
      ranks.map (shardSent participants phase round) := by
  rw [List.map_map]
  rfl

/-- The shards of a round are a rotation of the ranks. -/
theorem shards_perm (small : participants ≤ 8192) (two : 2 ≤ participants)
    (inRange : round < participants - 1) :
    (((List.range participants).map (planTransfer participants bytes phase round)).map
      RingTransfer.shard).Perm (List.range participants) := by
  rw [map_shard_plan]
  have nodup : ((List.range participants).map (shardSent participants phase round)).Nodup := by
    refine List.Nodup.map_on ?_ List.nodup_range
    intro a ha b hb same
    exact shardSent_injective phase small inRange (List.mem_range.mp ha) (List.mem_range.mp hb) same
  have inside : (List.range participants).map (shardSent participants phase round) ⊆
      List.range participants := by
    intro x hx
    obtain ⟨rank, _, rfl⟩ := List.mem_map.mp hx
    exact List.mem_range.mpr (shardSent_lt phase two rank)
  exact (List.subperm_of_subset nodup inside).perm_of_length_le (by simp)

theorem sum_shardBytes (two : 2 ≤ participants) (fits : bytes ≤ maxU64) :
    ((List.range participants).map (shardBytes participants bytes)).sum = bytes := by
  have sizes : (List.range participants).map (shardBytes participants bytes) =
      (List.range participants).map
        (fun s => bytes / participants + if s < bytes % participants then 1 else 0) :=
    List.map_congr_left fun s _ => shardBytes_eq s two fits
  have extra : ∀ n, ((List.range n).map
      (fun s => bytes / participants + if s < bytes % participants then 1 else 0)).sum =
        n * (bytes / participants) + min n (bytes % participants) := by
    intro n
    induction n with
    | zero => simp
    | succ n ih =>
      rw [List.range_succ, List.map_append, List.sum_append, ih, Nat.succ_mul]
      simp only [List.map_cons, List.map_nil, List.sum_cons, List.sum_nil]
      split <;> omega
  have remainder := Nat.mod_lt bytes (show 0 < participants by omega)
  rw [sizes, extra, Nat.min_eq_right remainder.le]
  exact Nat.div_add_mod bytes participants

theorem planRound_bytes (two : 2 ≤ participants) (small : participants ≤ 8192)
    (fits : bytes ≤ maxU64) (inRange : round < participants - 1) :
    (((List.range participants).map (planTransfer participants bytes phase round)).map
      RingTransfer.bytes).sum = bytes := by
  have sizes : ((List.range participants).map (planTransfer participants bytes phase round)).map
        RingTransfer.bytes =
      (((List.range participants).map (planTransfer participants bytes phase round)).map
        RingTransfer.shard).map (shardBytes participants bytes) := by
    simp only [List.map_map, Function.comp_def, planTransfer]
  rw [sizes, ((shards_perm phase small two inRange).map _).sum_eq]
  exact sum_shardBytes two fits

theorem shardBytes_balanced (two : 2 ≤ participants) (fits : bytes ≤ maxU64) (a b : Nat) :
    shardBytes participants bytes a ≤ shardBytes participants bytes b + 1 := by
  rw [shardBytes_eq a two fits, shardBytes_eq b two fits]
  split <;> split <;> omega

end Round

/-! ## The invariants of the two phases -/

/-- After `rounds` reduce-scatter rounds. -/
def Scattered (participants rounds : Nat) (held : Holdings) : Prop :=
  ∀ rank < participants, ∀ shard < participants,
    held rank shard =
      if distance participants rank shard ≤ rounds then
        arc participants shard (distance participants rank shard + 1)
      else {rank}

/-- After `rounds` all-gather rounds: complete shards, or what the rank held before. -/
def Gathered (participants rounds : Nat) (scattered held : Holdings) : Prop :=
  ∀ rank < participants, ∀ shard < participants,
    held rank shard =
      if (distance participants rank shard + 1) % participants ≤ rounds then
        Multiset.range participants
      else scattered rank shard

section Phases

variable {participants bytes : Nat} (two : 2 ≤ participants) (small : participants ≤ 8192)

theorem scattered_initial : Scattered participants 0 initialHoldings := by
  intro rank hr shard hs
  rw [distance_eq hr hs]
  unfold initialHoldings
  by_cases own : shard = rank
  · subst own
    simp [arc, Nat.mod_eq_of_lt hs]
  · rw [if_neg]
    split <;> omega

include two small in
/-- One reduce-scatter round: the shard a rank receives has collected one contribution per hop and
the rank adds its own. -/
theorem scattered_step {round : Nat} (inRange : round < participants - 1) {held : Holdings}
    (h : Scattered participants round held) :
    Scattered participants (round + 1)
      (executeRound .reduceScatter
        ((List.range participants).map (planTransfer participants bytes .reduceScatter round))
        held) := by
  intro rank hr shard hs
  have inside : predecessor participants rank < participants := Nat.mod_lt _ (by omega)
  rw [executeRound_plan .reduceScatter two small held hr]
  have received : shard = shardSent participants .reduceScatter round (predecessor participants rank) ↔
      distance participants rank shard = round + 1 := by
    rw [shardSent_reduceScatter small inRange inside, predecessor_eq hr, distance_eq hr hs]
    split_ifs <;> omega
  by_cases arrives : distance participants rank shard = round + 1
  · have behind : distance participants (predecessor participants rank) shard = round := by
      rw [distance_eq hr hs] at arrives
      rw [distance_eq inside hs, predecessor_eq hr]
      split_ifs at arrives ⊢ <;> omega
    have position : (shard + (round + 1)) % participants = rank := by
      rw [distance_eq hr hs] at arrives
      rw [mod_of_lt_two_mul (by omega)]
      split_ifs at arrives ⊢ <;> omega
    rw [if_pos (received.mpr arrives), if_neg (by decide), h rank hr shard hs, h _ inside shard hs,
      if_neg (by omega), behind, if_pos le_rfl, arrives, if_pos le_rfl, arc_succ _ _ (round + 1),
      position, add_comm]
  · rw [if_neg (mt received.mp arrives), h rank hr shard hs]
    have unchanged : distance participants rank shard ≤ round + 1 ↔
        distance participants rank shard ≤ round := by omega
    simp only [unchanged]

include two in
/-- Reduce-scatter ends with the owner's predecessor holding the complete shard, which is where
all-gather starts. -/
theorem gathered_initial {scattered : Holdings}
    (h : Scattered participants (participants - 1) scattered) :
    Gathered participants 0 scattered scattered := by
  intro rank hr shard hs
  split
  · rename_i complete
    have bound : distance participants rank shard < participants := Nat.mod_lt _ (by omega)
    have last : distance participants rank shard + 1 = participants := by
      rw [mod_of_lt_two_mul (by omega)] at complete
      split at complete <;> omega
    rw [h rank hr shard hs, if_pos (by omega), last, arc_full hs]
  · rfl

include two small in
/-- One all-gather round: the complete shard moves one hop. -/
theorem gathered_step {round : Nat} (inRange : round < participants - 1)
    {scattered held : Holdings} (h : Gathered participants round scattered held) :
    Gathered participants (round + 1) scattered
      (executeRound .allGather
        ((List.range participants).map (planTransfer participants bytes .allGather round))
        held) := by
  intro rank hr shard hs
  have inside : predecessor participants rank < participants := Nat.mod_lt _ (by omega)
  rw [executeRound_plan .allGather two small held hr]
  have bound : distance participants rank shard < participants := Nat.mod_lt _ (by omega)
  have received : shard = shardSent participants .allGather round (predecessor participants rank) ↔
      (distance participants rank shard + 1) % participants = round + 1 := by
    rw [mod_of_lt_two_mul (by omega), shardSent_allGather small inRange inside, predecessor_eq hr,
      distance_eq hr hs]
    split_ifs <;> omega
  by_cases arrives : (distance participants rank shard + 1) % participants = round + 1
  · have behind : (distance participants (predecessor participants rank) shard + 1) % participants =
        round := by
      have bound' : distance participants (predecessor participants rank) shard < participants :=
        Nat.mod_lt _ (by omega)
      rw [mod_of_lt_two_mul (by omega), distance_eq hr hs] at arrives
      rw [mod_of_lt_two_mul (by omega), distance_eq inside hs, predecessor_eq hr]
      split_ifs at arrives ⊢ <;> omega
    rw [if_pos (received.mpr arrives), if_pos rfl, h _ inside shard hs, behind, if_pos le_rfl,
      arrives, if_pos le_rfl]
  · rw [if_neg (mt received.mp arrives), h rank hr shard hs]
    have unchanged : (distance participants rank shard + 1) % participants ≤ round + 1 ↔
        (distance participants rank shard + 1) % participants ≤ round := by omega
    simp only [unchanged]

variable (nonempty : 1 ≤ bytes) (fits : 2 * (participants - 1) * bytes ≤ maxU64)

include two small nonempty fits in
theorem executePhase_scattered (rounds : Nat) (inRange : rounds ≤ participants - 1) :
    ∃ held, executePhase participants bytes .reduceScatter initialHoldings rounds = .ok held ∧
      Scattered participants rounds held := by
  induction rounds with
  | zero => exact ⟨_, rfl, scattered_initial⟩
  | succ round ih =>
    obtain ⟨before, run, h⟩ := ih (by omega)
    refine ⟨executeRound .reduceScatter ((List.range participants).map
      (planTransfer participants bytes .reduceScatter round)) before, ?_,
      scattered_step two small (by omega) h⟩
    rw [executePhase, run, planRound_eq_ok (.inl rfl) two small nonempty fits (by omega)]
    rfl

include two small nonempty fits in
theorem executePhase_gathered {scattered : Holdings}
    (h : Scattered participants (participants - 1) scattered) (rounds : Nat)
    (inRange : rounds ≤ participants - 1) :
    ∃ held, executePhase participants bytes .allGather scattered rounds = .ok held ∧
      Gathered participants rounds scattered held := by
  induction rounds with
  | zero => exact ⟨_, rfl, gathered_initial two h⟩
  | succ round ih =>
    obtain ⟨before, run, h⟩ := ih (by omega)
    refine ⟨executeRound .allGather ((List.range participants).map
      (planTransfer participants bytes .allGather round)) before, ?_,
      gathered_step two small (by omega) h⟩
    rw [executePhase, run, planRound_eq_ok (.inr rfl) two small nonempty fits (by omega)]
    rfl

theorem Scattered.nodup {rounds : Nat} {held : Holdings} (h : Scattered participants rounds held)
    {rank shard : Nat} (hr : rank < participants) (hs : shard < participants) :
    (held rank shard).Nodup := by
  rw [h rank hr shard hs]
  have bound : distance participants rank shard < participants := Nat.mod_lt _ (by omega)
  split
  · exact arc_nodup hs (by omega)
  · exact Multiset.nodup_singleton _

theorem Gathered.nodup {rounds : Nat} {scattered held : Holdings}
    (before : Scattered participants (participants - 1) scattered)
    (h : Gathered participants rounds scattered held)
    {rank shard : Nat} (hr : rank < participants) (hs : shard < participants) :
    (held rank shard).Nodup := by
  rw [h rank hr shard hs]
  split
  · exact Multiset.nodup_range _
  · exact before.nodup hr hs

end Phases

/-! ## The whole collective -/

/-- The rounds of a ring all-reduce in the order they run. -/
def ringRounds (participants : Nat) : List (Phase × Nat) :=
  (List.range (participants - 1)).map (Prod.mk .reduceScatter) ++
    (List.range (participants - 1)).map (Prod.mk .allGather)

def ringPlans (participants bytes : Nat) : Except Error (List (List RingTransfer)) :=
  (ringRounds participants).mapM fun r => planRound participants bytes r.1 r.2

theorem mem_ringRounds {participants : Nat} {r : Phase × Nat} :
    r ∈ ringRounds participants ↔
      (r.1 = .reduceScatter ∨ r.1 = .allGather) ∧ r.2 < participants - 1 := by
  obtain ⟨phase, round⟩ := r
  simp only [ringRounds, List.mem_append, List.mem_map, List.mem_range, Prod.mk.injEq]
  constructor
  · rintro (⟨_, h, rfl, rfl⟩ | ⟨_, h, rfl, rfl⟩)
    · exact ⟨.inl rfl, h⟩
    · exact ⟨.inr rfl, h⟩
  · rintro ⟨rfl | rfl, h⟩
    · exact .inl ⟨round, h, rfl, rfl⟩
    · exact .inr ⟨round, h, rfl, rfl⟩

theorem mapM_eq_ok {α β : Type} {f : α → Except Error β} {g : α → β} {l : List α}
    (ok : ∀ a ∈ l, f a = .ok (g a)) : l.mapM f = .ok (l.map g) := by
  induction l with
  | nil => rfl
  | cons a l ih =>
    rw [List.mapM_cons, ok a List.mem_cons_self,
      ih fun b hb => ok b (List.mem_cons_of_mem _ hb)]
    rfl

/-- The plans of all rounds make an all-reduce: for one ring size and byte count, every round is
planned, nothing is merged twice, and in the end everyone has every shard. -/
structure RingPlanCorrect (participants bytes volume : Nat) : Prop where
  /-- The announced volume. -/
  announced : volume = 2 * (participants - 1) * bytes
  /-- Every round is planned, sends each shard once and moves the collective's bytes once. -/
  round : ∀ phase, phase = .reduceScatter ∨ phase = .allGather → ∀ round < participants - 1,
    ∃ plan, planRound participants bytes phase round = .ok plan ∧
      (plan.map RingTransfer.shard).Perm (List.range participants) ∧
      (plan.map RingTransfer.bytes).sum = bytes ∧
      ∀ t ∈ plan, ∀ t' ∈ plan, t.bytes ≤ t'.bytes + 1
  /-- All rounds together move the announced volume. -/
  total : ∃ plans, ringPlans participants bytes = .ok plans ∧
    (plans.map fun plan => (plan.map RingTransfer.bytes).sum).sum = volume
  /-- No 32-bit operation of the planner wraps. -/
  exact : ∀ rank < participants, ∀ round < participants - 1,
    U32.add rank participants = rank + participants ∧
      round ≤ rank + participants ∧
      U32.sub (rank + participants) round = rank + participants - round ∧
      U32.add (rank + participants - round) 1 = rank + participants - round + 1 ∧
      U32.add (rank + participants - round) 0 = rank + participants - round ∧
      U32.add rank 1 = rank + 1
  /-- Nor does the 64-bit sum that sizes a shard. -/
  exactSize : ∀ extra ≤ 1, U64.add (bytes / participants) extra = bytes / participants + extra
  /-- No contribution is ever held twice. -/
  once : ∀ rounds ≤ participants - 1,
    (∃ held, executePhase participants bytes .reduceScatter initialHoldings rounds = .ok held ∧
      ∀ rank < participants, ∀ shard < participants, (held rank shard).Nodup) ∧
    ∃ scattered held,
      executePhase participants bytes .reduceScatter initialHoldings (participants - 1) =
        .ok scattered ∧
      executePhase participants bytes .allGather scattered rounds = .ok held ∧
      ∀ rank < participants, ∀ shard < participants, (held rank shard).Nodup
  /-- In the end everybody holds everything. -/
  complete : ∃ held, executeRing participants bytes = .ok held ∧
    ∀ rank < participants, ∀ shard < participants,
      held rank shard = Multiset.range participants

theorem planRound_correct {participants bytes round : Nat} {phase : Phase} (two : 2 ≤ participants)
    (small : participants ≤ 8192) (nonempty : 1 ≤ bytes)
    (fits : 2 * (participants - 1) * bytes ≤ maxU64) (bytesFit : bytes ≤ maxU64)
    (ring : phase = .reduceScatter ∨ phase = .allGather) (inRange : round < participants - 1) :
    ∃ plan, planRound participants bytes phase round = .ok plan ∧
      (plan.map RingTransfer.shard).Perm (List.range participants) ∧
      (plan.map RingTransfer.bytes).sum = bytes ∧
      ∀ t ∈ plan, ∀ t' ∈ plan, t.bytes ≤ t'.bytes + 1 := by
  refine ⟨_, planRound_eq_ok ring two small nonempty fits inRange,
    shards_perm phase small two inRange, planRound_bytes phase two small bytesFit inRange, ?_⟩
  intro t ht t' ht'
  obtain ⟨rank, _, rfl⟩ := List.mem_map.mp ht
  obtain ⟨rank', _, rfl⟩ := List.mem_map.mp ht'
  exact shardBytes_balanced two bytesFit _ _

theorem ringPlans_total {participants bytes : Nat} (two : 2 ≤ participants)
    (small : participants ≤ 8192) (nonempty : 1 ≤ bytes)
    (fits : 2 * (participants - 1) * bytes ≤ maxU64) (bytesFit : bytes ≤ maxU64) :
    ∃ plans, ringPlans participants bytes = .ok plans ∧
      (plans.map fun plan => (plan.map RingTransfer.bytes).sum).sum =
        2 * (participants - 1) * bytes := by
  refine ⟨_, mapM_eq_ok (g := fun r => (List.range participants).map
    (planTransfer participants bytes r.1 r.2)) ?_, ?_⟩
  · intro r hr
    obtain ⟨ring, inRange⟩ := mem_ringRounds.mp hr
    exact planRound_eq_ok ring two small nonempty fits inRange
  · have constant : (ringRounds participants).map (fun r => (((List.range participants).map
        (planTransfer participants bytes r.1 r.2)).map RingTransfer.bytes).sum) =
        (ringRounds participants).map (fun _ => bytes) := by
      refine List.map_congr_left fun r hr => ?_
      exact planRound_bytes r.1 two small bytesFit (mem_ringRounds.mp hr).2
    rw [List.map_map]
    show ((ringRounds participants).map (fun r => (((List.range participants).map
        (planTransfer participants bytes r.1 r.2)).map RingTransfer.bytes).sum)).sum = _
    rw [constant, List.map_const', List.sum_replicate_nat]
    have count : (ringRounds participants).length = 2 * (participants - 1) := by
      simp [ringRounds, two_mul]
    rw [count]

/-- The ring plan is correct for every ring size and every byte count the planner accepts. -/
theorem ringPlan_correct {participants bytes volume : Nat} (two : 2 ≤ participants)
    (planned : plannedVolume participants bytes = .ok volume) :
    RingPlanCorrect participants bytes volume := by
  obtain ⟨_, small, nonempty, fits, rfl⟩ := plannedVolume_eq_ok planned
  have bytesFit : bytes ≤ maxU64 := by
    have : 1 * bytes ≤ 2 * (participants - 1) * bytes := Nat.mul_le_mul_right _ (by omega)
    omega
  refine ⟨rfl, ?_, ringPlans_total two small nonempty fits bytesFit, ?_, ?_, ?_, ?_⟩
  · intro phase ring round inRange
    exact planRound_correct two small nonempty fits bytesFit ring inRange
  · intro rank hr round inRange
    exact ⟨U32.add_eq (by omega), by omega, U32.sub_eq (by omega) (by omega), U32.add_eq (by omega),
      U32.add_eq (by omega), U32.add_eq (by omega)⟩
  · intro extra small
    have half : bytes / participants ≤ bytes / 2 := Nat.div_le_div_left two (by omega)
    refine U64.add_eq ?_
    unfold maxU64 at bytesFit
    omega
  · intro rounds inRange
    obtain ⟨held, run, h⟩ := executePhase_scattered two small nonempty fits rounds inRange
    obtain ⟨scattered, run', h'⟩ := executePhase_scattered two small nonempty fits _ le_rfl
    obtain ⟨gathered, run'', h''⟩ :=
      executePhase_gathered two small nonempty fits h' rounds inRange
    exact ⟨⟨held, run, fun rank hr shard hs => h.nodup hr hs⟩,
      scattered, gathered, run', run'', fun rank hr shard hs => h''.nodup h' hr hs⟩
  · obtain ⟨scattered, run, h⟩ := executePhase_scattered two small nonempty fits _ le_rfl
    obtain ⟨gathered, run', h'⟩ := executePhase_gathered two small nonempty fits h _ le_rfl
    refine ⟨gathered, ?_, ?_⟩
    · rw [executeRing, run]
      exact run'
    · intro rank hr shard hs
      have bound := Nat.mod_lt (distance participants rank shard + 1) (show 0 < participants by omega)
      rw [h' rank hr shard hs, if_pos (by omega)]

/-- Five ranks share three bytes: some shards are empty. -/
theorem ringPlan_correct_five : RingPlanCorrect 5 3 24 :=
  ringPlan_correct (by decide) rfl

end NexusLab.Collective
