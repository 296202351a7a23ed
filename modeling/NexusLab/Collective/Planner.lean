import NexusLab.Basic
import Mathlib.Data.List.Range

/-! # The ring planner

The pure part of the collective module: how many bytes a ring all-reduce moves, and which rank
sends which shard to which rank in one round. -/

namespace NexusLab.Collective

/-- A collective is in one of the two ring phases until it ends. -/
inductive Phase where
  | reduceScatter
  | allGather
  | succeeded
  | failed
  | cancelled
deriving DecidableEq

structure RingTransfer where
  source : Nat
  destination : Nat
  shard : Nat
  bytes : Nat
deriving DecidableEq

def plannedVolume (participants bytes : Nat) : Except Error Nat :=
  if participants = 0 ∨ participants > 8192 ∨ bytes = 0 then
    .error (.invalidArgument "invalid ring dimensions")
  else
    let factor := 2 * (participants - 1)
    if factor ≠ 0 ∧ bytes > maxU64 / factor then
      .error (.overflowError "ring volume overflow")
    else
      .ok (U64.mul factor bytes)

/-- The shard `rank` sends in a round, in the 32-bit arithmetic of the source. -/
def shardSent (participants : Nat) (phase : Phase) (round rank : Nat) : Nat :=
  U32.add (U32.sub (U32.add rank participants) round) (if phase = .allGather then 1 else 0) %
    participants

/-- The size of one shard: the remainder goes to the lowest shards, one byte each. -/
def shardBytes (participants bytes shard : Nat) : Nat :=
  U64.add (bytes / participants) (if shard < bytes % participants then 1 else 0)

def planTransfer (participants bytes : Nat) (phase : Phase) (round rank : Nat) : RingTransfer :=
  let shard := shardSent participants phase round rank
  { source := rank
    destination := U32.add rank 1 % participants
    shard
    bytes := shardBytes participants bytes shard }

def planRound (participants bytes : Nat) (phase : Phase) (round : Nat) :
    Except Error (List RingTransfer) := do
  let _ ← plannedVolume participants bytes
  if (phase ≠ .reduceScatter ∧ phase ≠ .allGather) ∨ participants < 2 ∨
      round ≥ participants - 1 then
    .error (.invalidArgument "invalid ring phase or round")
  else
    .ok ((List.range participants).map (planTransfer participants bytes phase round))

/-! ## What the planner accepts -/

theorem plannedVolume_eq_ok {participants bytes volume : Nat}
    (fits : plannedVolume participants bytes = .ok volume) :
    1 ≤ participants ∧ participants ≤ 8192 ∧ 1 ≤ bytes ∧
      2 * (participants - 1) * bytes ≤ maxU64 ∧ volume = 2 * (participants - 1) * bytes := by
  unfold plannedVolume at fits
  split at fits
  · cases fits
  · rename_i dimensions
    simp only at fits
    split at fits
    · cases fits
    · rename_i small
      have bound : 2 * (participants - 1) * bytes ≤ maxU64 := by
        by_cases zero : 2 * (participants - 1) = 0
        · simp [zero]
        · have : bytes ≤ maxU64 / (2 * (participants - 1)) := by
            by_contra above
            exact small ⟨zero, by omega⟩
          rw [Nat.mul_comm]
          exact (Nat.le_div_iff_mul_le (by omega)).mp this
      refine ⟨by omega, by omega, by omega, bound, ?_⟩
      cases fits
      exact U64.mul_eq (by unfold maxU64 at bound; omega)

theorem plannedVolume_ok {participants bytes : Nat} (positive : 1 ≤ participants)
    (small : participants ≤ 8192) (nonempty : 1 ≤ bytes)
    (fits : 2 * (participants - 1) * bytes ≤ maxU64) :
    plannedVolume participants bytes = .ok (2 * (participants - 1) * bytes) := by
  unfold plannedVolume
  rw [if_neg (by omega)]
  simp only
  rw [if_neg]
  · rw [U64.mul_eq (by unfold maxU64 at fits; omega)]
  · rintro ⟨nonzero, above⟩
    have : bytes ≤ maxU64 / (2 * (participants - 1)) :=
      (Nat.le_div_iff_mul_le (by omega)).mpr (by rwa [Nat.mul_comm])
    omega

/-- The rounds of the two ring phases are planned; nothing else is. -/
theorem planRound_eq_ok {participants bytes round : Nat} {phase : Phase}
    (ring : phase = .reduceScatter ∨ phase = .allGather) (two : 2 ≤ participants)
    (small : participants ≤ 8192) (nonempty : 1 ≤ bytes)
    (fits : 2 * (participants - 1) * bytes ≤ maxU64) (inRange : round < participants - 1) :
    planRound participants bytes phase round =
      .ok ((List.range participants).map (planTransfer participants bytes phase round)) := by
  unfold planRound
  rw [plannedVolume_ok (by omega) small nonempty fits]
  show (if _ then _ else _) = _
  rw [if_neg]
  rcases ring with rfl | rfl <;> simp <;> omega

/-! ## Exact index arithmetic -/

theorem shardSent_eq {participants round rank : Nat} (phase : Phase)
    (small : participants ≤ 8192) (inRange : round < participants - 1)
    (member : rank < participants) :
    shardSent participants phase round rank =
      (rank + participants - round + if phase = .allGather then 1 else 0) % participants := by
  unfold shardSent
  have sum : U32.add rank participants = rank + participants := U32.add_eq (by omega)
  have difference : U32.sub (rank + participants) round = rank + participants - round :=
    U32.sub_eq (by omega) (by omega)
  rw [sum, difference, U32.add_eq (by split <;> omega)]

theorem shardBytes_eq {participants bytes : Nat} (shard : Nat) (two : 2 ≤ participants)
    (fits : bytes ≤ maxU64) :
    shardBytes participants bytes shard =
      bytes / participants + if shard < bytes % participants then 1 else 0 := by
  refine U64.add_eq ?_
  have half : bytes / participants ≤ bytes / 2 := Nat.div_le_div_left two (by omega)
  unfold maxU64 at fits
  split <;> omega

end NexusLab.Collective
