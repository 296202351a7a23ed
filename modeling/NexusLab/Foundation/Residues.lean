import Mathlib.Data.Nat.Periodic

/-! # Residues in a rejected range

Of the numbers below `total`, the first `total % bound` are rejected.  What is left is a whole number
of blocks of `bound` consecutive numbers, so each residue is met equally often. -/

namespace NexusLab.Foundation

open Finset

theorem card_rejected (total bound : Nat) :
    ((range total).filter fun value => value < total % bound).card = total % bound := by
  have rejected : (range total).filter (fun value => value < total % bound) =
      range (total % bound) := by
    ext value
    simp only [mem_filter, mem_range, and_iff_right_iff_imp]
    exact fun less => less.trans_le (Nat.mod_le _ _)
  rw [rejected, card_range]

/-- A block of consecutive numbers meets each residue once. -/
theorem card_block (first : Nat) {bound residue : Nat} (isResidue : residue < bound) :
    ((Ico first (first + bound)).filter fun value => value % bound = residue).card = 1 := by
  have periodic : Function.Periodic (fun value => value % bound = residue) bound := by
    intro value
    simp only [Nat.add_mod_right]
  rw [Nat.filter_Ico_card_eq_of_periodic _ _ _ periodic, Nat.count_eq_card_filter_range,
    card_eq_one]
  refine ⟨residue, ?_⟩
  ext value
  simp only [mem_filter, mem_range, mem_singleton]
  constructor
  · rintro ⟨small, rfl⟩
    exact (Nat.mod_eq_of_lt small).symm
  · rintro rfl
    exact ⟨isResidue, Nat.mod_eq_of_lt isResidue⟩

theorem card_blocks (first : Nat) {bound residue : Nat} (isResidue : residue < bound) :
    ∀ blocks, ((Ico first (first + bound * blocks)).filter fun value =>
      value % bound = residue).card = blocks
  | 0 => by simp
  | blocks + 1 => by
    have split : Ico first (first + bound * (blocks + 1)) =
        Ico first (first + bound * blocks) ∪
          Ico (first + bound * blocks) (first + bound * blocks + bound) := by
      rw [Ico_union_Ico_eq_Ico (Nat.le_add_right _ _) (Nat.le_add_right _ _), Nat.mul_succ,
        Nat.add_assoc]
    rw [split, filter_union, card_union_of_disjoint, card_blocks first isResidue blocks,
      card_block _ isResidue]
    exact disjoint_filter_filter (Ico_disjoint_Ico_consecutive _ _ _)

/-- Every residue has the same number of accepted values. -/
theorem card_accepted (total : Nat) {bound residue : Nat} (isResidue : residue < bound) :
    ((range total).filter fun value => ¬ value < total % bound ∧ value % bound = residue).card =
      total / bound := by
  have accepted : (range total).filter
      (fun value => ¬ value < total % bound ∧ value % bound = residue) =
      (Ico (total % bound) (total % bound + bound * (total / bound))).filter
        fun value => value % bound = residue := by
    ext value
    rw [Nat.mod_add_div]
    simp only [mem_filter, mem_range, mem_Ico, not_lt]
    tauto
  rw [accepted, card_blocks _ isResidue]

end NexusLab.Foundation
