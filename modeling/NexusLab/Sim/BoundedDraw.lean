import NexusLab.Foundation.Residues
import NexusLab.Sim.Random

/-! # Draws below a bound

A draw below a bound rejects the raw values that would make some residues more likely than others,
and takes the residue of the first raw value it does not reject. -/

namespace NexusLab.Sim.DeterministicRng

open Finset Foundation

/-! ## Raw draws -/

/-- The generator after some raw draws. -/
def afterDraws (rng : DeterministicRng) (draws : Nat) : DeterministicRng :=
  (fun rng => rng.nextU64.2)^[draws] rng

/-- The raw value that comes after some raw draws. -/
def rawDraw (rng : DeterministicRng) (draws : Nat) : Nat := (rng.afterDraws draws).nextU64.1

theorem afterDraws_eq (rng : DeterministicRng) : ∀ draws,
    rng.afterDraws draws = { rng with drawCount := rng.drawCount + draws }
  | 0 => rfl
  | draws + 1 => by
    unfold afterDraws
    rw [Function.iterate_succ_apply']
    show (rng.afterDraws draws).nextU64.2 = _
    rw [afterDraws_eq rng draws]
    rfl

theorem rawDraw_eq (rng : DeterministicRng) (draws : Nat) :
    rng.rawDraw draws = rng.words.word (rng.drawCount + draws) := by
  unfold rawDraw
  rw [afterDraws_eq]
  rfl

/-! ## Rejection -/

/-- Negation wraps, but leaves the residue of the whole range. -/
theorem rejectionThreshold_eq {upper : Nat} (fits : upper ≤ 2 ^ 64) :
    rejectionThreshold upper = 2 ^ 64 % upper := by
  unfold rejectionThreshold
  conv_rhs => rw [← Nat.sub_add_cancel fits, Nat.add_mod_right]

/-- The loop ends at the first value that is not below the threshold. -/
theorem drawAccepted_spec (words : RandomWords) (threshold : Nat) (small : threshold < 2 ^ 63)
    (position : Nat) : ∃ rejected,
      drawAccepted words threshold small position =
        (words.word (position + rejected), position + rejected + 1) ∧
      threshold ≤ words.word (position + rejected) ∧
      ∀ earlier < rejected, words.word (position + earlier) < threshold := by
  fun_induction drawAccepted words threshold small position with
  | case1 position accepted => exact ⟨0, rfl, accepted, fun _ less => absurd less (Nat.not_lt_zero _)⟩
  | case2 position refused ih =>
    obtain ⟨rejected, result, accepted, before⟩ := ih
    have shift : ∀ n, position + 1 + n = position + (n + 1) := fun n => by omega
    rw [shift] at result accepted
    refine ⟨rejected + 1, result, accepted, fun earlier less => ?_⟩
    cases earlier with
    | zero => exact not_le.mp refused
    | succ earlier => exact shift earlier ▸ before earlier (by omega)

/-- A draw below a bound is unbiased: it rejects `2 ^ 64` modulo the bound raw values, and leaves
each residue equally many.  It takes the residue of the first raw value that is not rejected, after
exactly that many raw draws. -/
theorem uniformBelow_unbiased {upper : UInt64} (positive : 0 < upper.toNat) :
    ((range (2 ^ 64)).filter fun value => value < rejectionThreshold upper.toNat).card =
        2 ^ 64 % upper.toNat ∧
      (∀ residue < upper.toNat, ((range (2 ^ 64)).filter fun value =>
        ¬ value < rejectionThreshold upper.toNat ∧ value % upper.toNat = residue).card =
          2 ^ 64 / upper.toNat) ∧
      ∀ rng : DeterministicRng, ∃ rejected,
        rng.uniformBelow upper =
          .ok (rng.rawDraw rejected % upper.toNat, rng.afterDraws (rejected + 1)) ∧
        (∀ earlier < rejected, rng.rawDraw earlier < rejectionThreshold upper.toNat) ∧
        ¬ rng.rawDraw rejected < rejectionThreshold upper.toNat ∧
        rng.rawDraw rejected % upper.toNat < upper.toNat ∧
        (rng.afterDraws (rejected + 1)).drawCount = rng.drawCount + (rejected + 1) := by
  have threshold := rejectionThreshold_eq upper.toNat_lt.le
  refine ⟨?_, fun residue isResidue => ?_, fun rng => ?_⟩
  · rw [threshold]
    exact card_rejected _ _
  · rw [threshold]
    exact card_accepted _ isResidue
  · obtain ⟨rejected, result, accepted, before⟩ := drawAccepted_spec rng.words
      (rejectionThreshold upper.toNat) (rejectionThreshold_lt positive upper.toNat_lt) rng.drawCount
    refine ⟨rejected, ?_, fun earlier less => ?_, ?_, Nat.mod_lt _ positive, ?_⟩
    · unfold uniformBelow
      rw [dif_neg positive.ne']
      simp only [result, rawDraw_eq, afterDraws_eq, Nat.add_assoc]
    · rw [rawDraw_eq]
      exact before earlier less
    · rw [rawDraw_eq]
      exact not_lt.mpr accepted
    · rw [afterDraws_eq]

/-- Every other word is in the upper half of the range. -/
def alternatingWord (position : Nat) : Nat := if position % 2 = 0 then 3 else 2 ^ 63 + 5

theorem alternatingWord_lt (position : Nat) : alternatingWord position < 2 ^ 64 := by
  unfold alternatingWord
  split <;> omega

theorem alternatingWord_recurrent (threshold : Nat) (small : threshold < 2 ^ 63) (position : Nat) :
    ∃ later ≥ position, threshold ≤ alternatingWord later := by
  refine ⟨2 * position + 1, by omega, ?_⟩
  unfold alternatingWord
  rw [if_neg (by omega)]
  omega

def alternating : DeterministicRng :=
  { words := ⟨alternatingWord, alternatingWord_lt, alternatingWord_recurrent⟩ }

/-- A draw below six rejects four of the raw values, three among them, and takes the next. -/
theorem uniformBelow_unbiased_six :
    ((range (2 ^ 64)).filter fun value => value < rejectionThreshold 6).card = 4 ∧
    ((range (2 ^ 64)).filter fun value => ¬ value < rejectionThreshold 6 ∧ value % 6 = 1).card =
      3074457345618258602 ∧
    alternating.uniformBelow 6 = .ok (1, alternating.afterDraws 2) ∧
    (alternating.afterDraws 2).drawCount = 2 := by
  obtain ⟨rejects, accepts, draws⟩ := @uniformBelow_unbiased 6 (by decide)
  obtain ⟨rejected, draw, before, accepted, _, count⟩ := draws alternating
  have threshold : rejectionThreshold (6 : UInt64).toNat = 4 := by decide +kernel
  have first : alternating.rawDraw 0 = 3 := rfl
  have second : alternating.rawDraw 1 = 2 ^ 63 + 5 := rfl
  rw [threshold] at before accepted
  have once : rejected = 1 := by
    by_contra other
    cases rejected with
    | zero =>
      rw [first] at accepted
      exact accepted (by decide)
    | succ rejected =>
      have early := before 1 (by omega)
      rw [second] at early
      exact absurd early (by decide)
  subst once
  rw [second] at draw
  exact ⟨rejects, accepts 1 (by decide), draw, count⟩

end NexusLab.Sim.DeterministicRng
