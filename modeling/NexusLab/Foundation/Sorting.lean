import Mathlib.Algebra.BigOperators.Group.Finset.Piecewise
import Mathlib.Algebra.Order.BigOperators.Group.Finset
import Mathlib.Data.List.Sort
import Mathlib.Data.Prod.Lex
import Mathlib.Order.Lattice

/-! # Sorting by a key

A list whose elements have different keys is sorted by its keys in one way only, and then it does not
matter whether the comparison is strict.

A list that is grouped, with the largest group first, has another use: of all ways to choose `n` of
its elements, its first `n` meet the fewest groups (`card_groups_take_le`). -/

namespace NexusLab.Foundation.Sorting

variable {α β κ : Type} [LinearOrder β] {key : α → β}

/-! ## Different keys -/

/-- A comparison that is strict puts an element of another key where one that is not does. -/
theorem orderedInsert_of_lt {before : α → α → Prop} [DecidableRel before]
    (isLt : ∀ a b, before a b ↔ key a < key b) (a : α) : ∀ {l : List α},
    (∀ b ∈ l, key a ≠ key b) → l.orderedInsert before a = l.orderedInsert (key · ≤ key ·) a
  | [], _ => rfl
  | b :: l, different => by
    have rest := orderedInsert_of_lt isLt a fun c member => different c (List.mem_cons_of_mem _ member)
    have same : before a b ↔ key a ≤ key b :=
      (isLt a b).trans (different b (List.mem_cons_self ..)).le_iff_lt.symm
    rw [List.orderedInsert_cons, List.orderedInsert_cons, rest]
    by_cases le : key a ≤ key b
    · rw [if_pos le, if_pos (same.mpr le)]
    · rw [if_neg le, if_neg (fun lt => le (same.mp lt))]

theorem insertionSort_of_lt {before : α → α → Prop} [DecidableRel before]
    (isLt : ∀ a b, before a b ↔ key a < key b) : ∀ {l : List α}, (l.map key).Nodup →
    l.insertionSort before = l.insertionSort (key · ≤ key ·)
  | [], _ => rfl
  | a :: l, distinct => by
    rw [List.map_cons, List.nodup_cons] at distinct
    rw [List.insertionSort_cons, List.insertionSort_cons, insertionSort_of_lt isLt distinct.2]
    refine orderedInsert_of_lt isLt a fun b member same => distinct.1 ?_
    rw [same]
    exact List.mem_map_of_mem ((List.mem_insertionSort _).mp member)

theorem pairwise_insertionSort_le (l : List α) :
    (l.insertionSort fun a b => key a ≤ key b).Pairwise fun a b => key a ≤ key b := by
  have total : Std.Total fun a b : α => key a ≤ key b := ⟨fun a b => le_total (key a) (key b)⟩
  have trans : IsTrans α fun a b => key a ≤ key b := ⟨fun _ _ _ => le_trans⟩
  exact List.pairwise_insertionSort _ l

/-- Lists of the same elements are sorted to the same list. -/
theorem insertionSort_le_of_perm {l l' : List α} (perm : l.Perm l') (distinct : (l.map key).Nodup) :
    l.insertionSort (fun a b => key a ≤ key b) = l'.insertionSort (fun a b => key a ≤ key b) := by
  refine List.Perm.eq_of_pairwise ?_ (pairwise_insertionSort_le l) (pairwise_insertionSort_le l')
    ((List.perm_insertionSort _ l).trans (perm.trans (List.perm_insertionSort _ l').symm))
  intro a b memberA memberB ab ba
  exact List.inj_on_of_nodup_map distinct ((List.mem_insertionSort _).mp memberA)
    (perm.mem_iff.mpr ((List.mem_insertionSort _).mp memberB)) (le_antisymm ab ba)

/-! ## Groups -/

variable [LinearOrder κ] (group : α → κ)

def groupSize (l : List α) (k : κ) : Nat := l.countP fun a => group a = k

/-- The place of a group: the larger come first, and of two equal ones the smaller key. -/
def groupRank (l : List α) (k : κ) : Lex (Natᵒᵈ × κ) := toLex (OrderDual.toDual (groupSize group l k), k)

/-- The groups that elements belong to. -/
def groups (l : List α) : Finset κ := (l.map group).toFinset

variable {group} {l : List α}

theorem groupRank_injective : Function.Injective (groupRank group l) := by
  intro a b same
  exact congrArg (fun rank => (ofLex rank).2) same

theorem groupSize_le_of_rank {a b : κ} (before : groupRank group l a ≤ groupRank group l b) :
    groupSize group l b ≤ groupSize group l a := by
  rw [groupRank, groupRank, Prod.Lex.toLex_le_toLex] at before
  rcases before with less | ⟨same, _⟩
  · exact le_of_lt less
  · exact (OrderDual.toDual_inj.mp same).ge

theorem groupSize_of_perm {l' : List α} (perm : l.Perm l') (k : κ) :
    groupSize group l k = groupSize group l' k := perm.countP_eq _

/-- The elements of some groups are counted group by group. -/
theorem sum_groupSize (l : List α) (ks : Finset κ) :
    ∑ k ∈ ks, groupSize group l k = l.countP fun a => group a ∈ ks := by
  induction l with
  | nil => simp [groupSize]
  | cons a l ih =>
    have one : ∀ k, groupSize group (a :: l) k =
        groupSize group l k + if group a = k then 1 else 0 := by
      intro k
      simp [groupSize, List.countP_cons]
    rw [List.countP_cons, ← ih, Finset.sum_congr rfl fun k _ => one k, Finset.sum_add_distrib,
      Finset.sum_ite_eq]
    simp

/-- Groups at least as large as `c` hold no less than as many that are at most as large. -/
theorem sum_exchange {size : κ → Nat} {large small : Finset κ} {c : Nat}
    (few : small.card ≤ large.card) (above : ∀ k ∈ large, c ≤ size k)
    (below : ∀ k ∉ large, size k ≤ c) : ∑ k ∈ small, size k ≤ ∑ k ∈ large, size k := by
  have left : (small \ large).card ≤ (large \ small).card := by
    have lefts := Finset.card_sdiff_add_card_inter small large
    have rights := Finset.card_sdiff_add_card_inter large small
    rw [Finset.inter_comm] at rights
    omega
  have outside : ∑ k ∈ small \ large, size k ≤ ∑ k ∈ large \ small, size k :=
    calc ∑ k ∈ small \ large, size k
        ≤ (small \ large).card • c :=
          Finset.sum_le_card_nsmul _ _ _ fun k member => below k (Finset.mem_sdiff.mp member).2
      _ ≤ (large \ small).card • c := Nat.mul_le_mul_right c left
      _ ≤ ∑ k ∈ large \ small, size k :=
          Finset.card_nsmul_le_sum _ _ _ fun k member => above k (Finset.mem_sdiff.mp member).1
  rw [← Finset.sum_inter_add_sum_sdiff small large, ← Finset.sum_inter_add_sum_sdiff large small,
    Finset.inter_comm large small]
  exact Nat.add_le_add_left outside _

/-- Of all choices of `n` elements, the first `n` meet the fewest groups. -/
theorem card_groups_take_le
    (sorted : l.Pairwise fun a b => groupRank group l (group a) ≤ groupRank group l (group b))
    {n : Nat} (enough : n ≤ l.length) {chosen : List α} (subperm : chosen.Subperm l)
    (size : chosen.length = n) :
    (groups group (l.take n)).card ≤ (groups group chosen).card := by
  cases n with
  | zero => simp [groups]
  | succ n =>
    -- the last group may be met in part only; the groups before it are met as a whole
    let first := l.take n
    let last := l[n]
    let after := l.drop (n + 1)
    have parts : l = first ++ last :: after := by simp [first, last, after]
    have ordered := sorted
    rw [parts, List.pairwise_append, List.pairwise_cons] at ordered
    obtain ⟨_, ⟨lastFirst, _⟩, firstLast⟩ := ordered
    rw [← parts] at lastFirst firstLast
    let whole := (groups group first).erase (group last)
    have taken : (groups group (l.take (n + 1))).card ≤ whole.card + 1 := by
      have extended : groups group (l.take (n + 1)) ⊆ insert (group last) whole := by
        intro k member
        rw [groups, List.take_succ_eq_append_getElem enough, List.map_append, List.toFinset_append,
          Finset.mem_union] at member
        rw [Finset.mem_insert, Finset.mem_erase]
        by_cases same : k = group last
        · exact .inl same
        · refine .inr ⟨same, member.resolve_right fun single => same ?_⟩
          simpa using single
      exact (Finset.card_le_card extended).trans (Finset.card_insert_le _ _)
    by_contra more
    have few : (groups group chosen).card ≤ whole.card := by omega
    have above : ∀ k ∈ whole, groupSize group l (group last) ≤ groupSize group l k := by
      intro k member
      obtain ⟨_, member⟩ := Finset.mem_erase.mp member
      obtain ⟨a, inFirst, rfl⟩ := List.mem_map.mp (List.mem_toFinset.mp member)
      exact groupSize_le_of_rank (firstLast a inFirst last (List.mem_cons_self ..))
    have below : ∀ k ∉ whole, groupSize group l k ≤ groupSize group l (group last) := by
      intro k outside
      by_cases same : k = group last
      · rw [same]
      · by_cases empty : groupSize group l k = 0
        · omega
        · obtain ⟨b, member, isGroup⟩ := List.countP_pos_iff.mp (Nat.pos_of_ne_zero empty)
          rw [decide_eq_true_eq] at isGroup
          subst isGroup
          rw [parts, List.mem_append, List.mem_cons] at member
          rcases member with inFirst | rfl | inAfter
          · exact absurd (Finset.mem_erase.mpr ⟨same, List.mem_toFinset.mpr
              (List.mem_map_of_mem inFirst)⟩) outside
          · exact absurd rfl same
          · exact groupSize_le_of_rank (lastFirst b inAfter)
    have covered : chosen.length ≤ l.countP fun a => group a ∈ groups group chosen := by
      have all : chosen.countP (fun a => group a ∈ groups group chosen) = chosen.length := by
        refine List.countP_eq_length.mpr fun a member => ?_
        rw [decide_eq_true_eq]
        exact List.mem_toFinset.mpr (List.mem_map_of_mem member)
      exact all.symm.trans_le (subperm.countP_le _)
    have contained : (l.countP fun a => group a ∈ whole) ≤ n := by
      have skipsLast : group last ∉ whole := Finset.notMem_erase _ _
      have skipsAfter : after.countP (fun a => group a ∈ whole) = 0 := by
        rw [List.countP_eq_zero]
        intro b inAfter member
        rw [decide_eq_true_eq] at member
        obtain ⟨differs, member⟩ := Finset.mem_erase.mp member
        obtain ⟨a, inFirst, same⟩ := List.mem_map.mp (List.mem_toFinset.mp member)
        have forth := firstLast a inFirst last (List.mem_cons_self ..)
        rw [same] at forth
        exact differs (groupRank_injective (le_antisymm forth (lastFirst b inAfter)))
      rw [parts, List.countP_append, List.countP_cons_of_neg (by simpa using skipsLast), skipsAfter]
      exact List.countP_le_length.trans (List.length_take_le _ _)
    have total := sum_exchange few above below
    rw [sum_groupSize, sum_groupSize] at total
    omega

end NexusLab.Foundation.Sorting
