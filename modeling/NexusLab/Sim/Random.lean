import NexusLab.Basic
import Mathlib.Data.Nat.Find

/-! # Random draws

The Mersenne twister is outside the repository: a stream of 64-bit words that, from any position
on and for any bound the generator can be asked for, contains a word that is not rejected. -/

namespace NexusLab.Sim

/-- The words the engine delivers for one seed. -/
structure RandomWords where
  word : Nat → Nat
  word_lt : ∀ position, word position < 2 ^ 64
  /-- The words do not stay in the lower half of the range for ever; every rejection threshold
  lies in that half (`rejectionThreshold_lt`). -/
  recurrent : ∀ threshold < 2 ^ 63, ∀ position, ∃ later ≥ position, threshold ≤ word later

structure DeterministicRng where
  words : RandomWords
  -- also the position in the stream, which goes on where the word of the source would wrap: after
  -- 2 ^ 64 draws, more than any run can make
  drawCount : Nat := 0

namespace DeterministicRng

def nextU64 (rng : DeterministicRng) : Nat × DeterministicRng :=
  (rng.words.word rng.drawCount, { rng with drawCount := rng.drawCount + 1 })

/-- `(0 - upper) % upper` in 64 bits: the words below it are rejected. -/
def rejectionThreshold (upper : Nat) : Nat := (2 ^ 64 - upper) % upper

theorem rejectionThreshold_lt {upper : Nat} (positive : 0 < upper) (fits : upper < 2 ^ 64) :
    rejectionThreshold upper < 2 ^ 63 := by
  unfold rejectionThreshold
  by_cases half : upper ≤ 2 ^ 63
  · exact lt_of_lt_of_le (Nat.mod_lt _ positive) half
  · have small : 2 ^ 64 - upper < 2 ^ 63 := by omega
    exact lt_of_le_of_lt (Nat.mod_le _ _) small

/-- Draws words until one is not below the threshold. -/
def drawAccepted (words : RandomWords) (threshold : Nat) (small : threshold < 2 ^ 63)
    (position : Nat) : Nat × Nat :=
  if threshold ≤ words.word position then (words.word position, position + 1)
  else drawAccepted words threshold small (position + 1)
termination_by
  Nat.find (words.recurrent threshold small position) - position
decreasing_by
  rename_i rejected
  obtain ⟨reached, accepted⟩ := Nat.find_spec (words.recurrent threshold small position)
  have beyond : position < Nat.find (words.recurrent threshold small position) := by
    refine lt_of_le_of_ne reached fun same => rejected ?_
    rw [same]
    exact accepted
  have earlier : Nat.find (words.recurrent threshold small (position + 1)) ≤
      Nat.find (words.recurrent threshold small position) :=
    Nat.find_min' _ ⟨beyond, accepted⟩
  omega

def uniformBelow (rng : DeterministicRng) (upper : UInt64) :
    Except Error (Nat × DeterministicRng) :=
  if zero : upper.toNat = 0 then
    .error (.invalidArgument "uniform_below requires a nonzero upper bound")
  else
    let drawn := drawAccepted rng.words (rejectionThreshold upper.toNat)
      (rejectionThreshold_lt (Nat.pos_of_ne_zero zero) upper.toNat_lt) rng.drawCount
    .ok (drawn.1 % upper.toNat, { rng with drawCount := drawn.2 })

end DeterministicRng

end NexusLab.Sim
