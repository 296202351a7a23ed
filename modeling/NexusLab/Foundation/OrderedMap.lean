import Mathlib.Data.List.Sort
import Mathlib.Data.List.Nodup
import Mathlib.Algebra.Order.BigOperators.Group.List
import Mathlib.Algebra.Order.Ring.Nat
import Mathlib.Order.Basic

/-! # Finite maps with sorted keys

An ordered map is its list of entries in strictly increasing key order, which is also the order in
which a traversal visits them.  The order is a field of the structure, so equal lookups mean equal
maps (`OrderedMap.ext_find?`) and no lemma below needs a well-formedness premise.
-/

namespace NexusLab.Foundation

/-- A finite map from `κ` to `ν`, listed in increasing key order. -/
structure OrderedMap (κ ν : Type) [LinearOrder κ] where
  entries : List (κ × ν)
  sorted : entries.Pairwise (fun a b => a.1 < b.1)

namespace OrderedMap

variable {κ ν : Type} [LinearOrder κ]

/-! ## Operations on the entry list -/

/-- Writes `v` at `k`, replacing an entry with the same key. -/
def insertEntry (k : κ) (v : ν) : List (κ × ν) → List (κ × ν)
  | [] => [(k, v)]
  | (k', v') :: rest =>
    if k < k' then (k, v) :: (k', v') :: rest
    else if k = k' then (k, v) :: rest
    else (k', v') :: insertEntry k v rest

theorem mem_insertEntry {k : κ} {v : ν} {l : List (κ × ν)} {p : κ × ν}
    (member : p ∈ insertEntry k v l) : p = (k, v) ∨ p ∈ l := by
  induction l with
  | nil => simpa [insertEntry] using member
  | cons head rest ih =>
    simp only [insertEntry] at member
    split at member
    · simpa using member
    · split at member
      · rcases List.mem_cons.mp member with h | h
        · exact .inl h
        · exact .inr (List.mem_cons_of_mem _ h)
      · rcases List.mem_cons.mp member with h | h
        · exact .inr (h ▸ List.mem_cons_self)
        · exact (ih h).imp_right (List.mem_cons_of_mem _)

theorem insertEntry_sorted (k : κ) (v : ν) {l : List (κ × ν)}
    (sorted : l.Pairwise (fun a b => a.1 < b.1)) :
    (insertEntry k v l).Pairwise (fun a b => a.1 < b.1) := by
  induction l with
  | nil => simp [insertEntry]
  | cons head rest ih =>
    obtain ⟨below, tail⟩ := List.pairwise_cons.mp sorted
    simp only [insertEntry]
    split
    · rename_i smaller
      refine List.pairwise_cons.mpr ⟨?_, sorted⟩
      intro p hp
      rcases List.mem_cons.mp hp with rfl | hp
      · exact smaller
      · exact smaller.trans (below p hp)
    · split
      · rename_i same
        exact List.pairwise_cons.mpr ⟨fun p hp => same ▸ below p hp, tail⟩
      · rename_i notSmaller different
        refine List.pairwise_cons.mpr ⟨?_, ih tail⟩
        intro p hp
        rcases mem_insertEntry hp with rfl | hp
        · exact lt_of_le_of_ne (not_lt.mp notSmaller) (Ne.symm different)
        · exact below p hp

/-! ## The operations -/

def empty : OrderedMap κ ν := ⟨[], List.Pairwise.nil⟩

instance : Inhabited (OrderedMap κ ν) := ⟨empty⟩

instance [DecidableEq ν] : DecidableEq (OrderedMap κ ν) := fun a b =>
  decidable_of_iff (a.entries = b.entries) (by cases a; cases b; simp)

def find? (m : OrderedMap κ ν) (k : κ) : Option ν :=
  (m.entries.find? (fun p => p.1 = k)).map Prod.snd

def contains (m : OrderedMap κ ν) (k : κ) : Bool := (m.find? k).isSome

def insert (m : OrderedMap κ ν) (k : κ) (v : ν) : OrderedMap κ ν :=
  ⟨insertEntry k v m.entries, insertEntry_sorted k v m.sorted⟩

/-- Inserts the entry unless there is one with its key. -/
def emplace (m : OrderedMap κ ν) (k : κ) (v : ν) : OrderedMap κ ν :=
  if m.contains k then m else m.insert k v

def erase (m : OrderedMap κ ν) (k : κ) : OrderedMap κ ν :=
  ⟨m.entries.filter (fun p => p.1 ≠ k), m.sorted.filter _⟩

/-- Rewrites the value at `k`, when there is one. -/
def adjust (m : OrderedMap κ ν) (k : κ) (f : ν → ν) : OrderedMap κ ν :=
  ⟨m.entries.map (fun p => if p.1 = k then (p.1, f p.2) else p), by
    refine List.pairwise_map.mpr (m.sorted.imp ?_)
    intro a b lt
    split <;> split <;> exact lt⟩

def size (m : OrderedMap κ ν) : Nat := m.entries.length

def keys (m : OrderedMap κ ν) : List κ := m.entries.map Prod.fst

def values (m : OrderedMap κ ν) : List ν := m.entries.map Prod.snd

/-! ## Lookup -/

theorem keys_nodup (m : OrderedMap κ ν) : m.keys.Nodup :=
  List.pairwise_map.mpr (m.sorted.imp fun lt => ne_of_lt lt)

theorem entries_nodup (m : OrderedMap κ ν) : m.entries.Nodup :=
  List.Nodup.of_map Prod.fst m.keys_nodup

theorem eq_of_mem_of_mem {m : OrderedMap κ ν} {k : κ} {v v' : ν}
    (h : (k, v) ∈ m.entries) (h' : (k, v') ∈ m.entries) : v = v' := by
  have := List.inj_on_of_nodup_map m.keys_nodup h h' rfl
  exact congrArg Prod.snd this

theorem find?_eq_some_iff {m : OrderedMap κ ν} {k : κ} {v : ν} :
    m.find? k = some v ↔ (k, v) ∈ m.entries := by
  constructor
  · intro found
    obtain ⟨⟨k', v'⟩, hp, rfl⟩ := Option.map_eq_some_iff.mp found
    have same : k' = k := by simpa using List.find?_some hp
    exact same ▸ List.mem_of_find?_eq_some hp
  · intro member
    cases h : m.entries.find? (fun p => p.1 = k) with
    | none => exact absurd (by simp) (List.find?_eq_none.mp h _ member)
    | some p =>
      obtain ⟨k', v'⟩ := p
      have same : k' = k := by simpa using List.find?_some h
      subst same
      rw [find?, h, Option.map_some, eq_of_mem_of_mem (List.mem_of_find?_eq_some h) member]

theorem find?_eq_none_iff {m : OrderedMap κ ν} {k : κ} :
    m.find? k = none ↔ ∀ v, (k, v) ∉ m.entries := by
  constructor
  · intro absent v member
    rw [find?_eq_some_iff.mpr member] at absent
    cases absent
  · intro absent
    cases h : m.find? k with
    | none => rfl
    | some v => exact absurd (find?_eq_some_iff.mp h) (absent v)

theorem mem_keys_iff {m : OrderedMap κ ν} {k : κ} : k ∈ m.keys ↔ ∃ v, m.find? k = some v := by
  simp only [keys, List.mem_map, Prod.exists, exists_and_right, exists_eq_right,
    find?_eq_some_iff]

@[simp] theorem find?_empty (k : κ) : (empty : OrderedMap κ ν).find? k = none := rfl

private theorem find?_insertEntry (k k' : κ) (v : ν) (l : List (κ × ν)) :
    ((insertEntry k v l).find? (fun p => p.1 = k')).map Prod.snd =
      if k' = k then some v else (l.find? (fun p => p.1 = k')).map Prod.snd := by
  induction l with
  | nil =>
    by_cases h : k' = k
    · subst h; simp [insertEntry]
    · simp [insertEntry, h, Ne.symm h]
  | cons head rest ih =>
    obtain ⟨k₁, v₁⟩ := head
    simp only [insertEntry]
    split
    · by_cases h : k' = k
      · subst h; simp
      · simp [h, Ne.symm h]
    · split
      · rename_i same
        subst same
        by_cases h : k' = k
        · subst h; simp
        · simp [h, Ne.symm h]
      · rename_i different
        by_cases h₁ : k₁ = k'
        · subst h₁; simp [Ne.symm different]
        · simp only [List.find?_cons, h₁, decide_false, ih]

@[simp] theorem find?_insert_self (m : OrderedMap κ ν) (k : κ) (v : ν) :
    (m.insert k v).find? k = some v := by
  simp [insert, find?, find?_insertEntry]

theorem find?_insert (m : OrderedMap κ ν) (k k' : κ) (v : ν) :
    (m.insert k v).find? k' = if k' = k then some v else m.find? k' :=
  find?_insertEntry k k' v m.entries

@[simp] theorem find?_insert_of_ne (m : OrderedMap κ ν) {k k' : κ} (v : ν) (h : k' ≠ k) :
    (m.insert k v).find? k' = m.find? k' := by
  simp [find?_insert, h]

/-- What is found after an insertion was inserted or was there before. -/
theorem find?_insert_cases {m : OrderedMap κ ν} {k k' : κ} {v v' : ν}
    (found : (m.insert k v).find? k' = some v') :
    k' = k ∧ v' = v ∨ k' ≠ k ∧ m.find? k' = some v' := by
  by_cases same : k' = k
  · subst same
    rw [find?_insert_self] at found
    exact .inl ⟨rfl, (Option.some.inj found).symm⟩
  · rw [find?_insert_of_ne _ _ same] at found
    exact .inr ⟨same, found⟩

theorem find?_erase (m : OrderedMap κ ν) (k k' : κ) :
    (m.erase k).find? k' = if k' = k then none else m.find? k' := by
  by_cases h : k' = k
  · subst h
    rw [if_pos rfl]
    refine find?_eq_none_iff.mpr fun v member => ?_
    simp [erase] at member
  · rw [if_neg h]
    refine Option.ext fun v => ?_
    rw [find?_eq_some_iff, find?_eq_some_iff]
    simp [erase, h]

@[simp] theorem find?_erase_self (m : OrderedMap κ ν) (k : κ) : (m.erase k).find? k = none := by
  simp [find?_erase]

@[simp] theorem find?_erase_of_ne (m : OrderedMap κ ν) {k k' : κ} (h : k' ≠ k) :
    (m.erase k).find? k' = m.find? k' := by
  simp [find?_erase, h]

theorem find?_of_erase {m : OrderedMap κ ν} {k k' : κ} {v : ν}
    (found : (m.erase k).find? k' = some v) : k' ≠ k ∧ m.find? k' = some v := by
  by_cases same : k' = k
  · simp [same] at found
  · exact ⟨same, by simpa [same] using found⟩

theorem find?_adjust (m : OrderedMap κ ν) (k k' : κ) (f : ν → ν) :
    (m.adjust k f).find? k' = if k' = k then (m.find? k).map f else m.find? k' := by
  have find_map : ∀ l : List (κ × ν),
      ((l.map (fun p => if p.1 = k then (p.1, f p.2) else p)).find? (fun p => p.1 = k')).map
          Prod.snd =
        if k' = k then ((l.find? (fun p => p.1 = k)).map Prod.snd).map f
        else (l.find? (fun p => p.1 = k')).map Prod.snd := by
    intro l
    induction l with
    | nil => simp
    | cons head rest ih =>
      by_cases hk : head.1 = k
      · by_cases h : k' = k
        · subst h; simp [hk]
        · simp only [List.map_cons, hk, if_true, List.find?_cons, Ne.symm h, decide_false, ih, h,
            if_false]
      · by_cases h : k' = k
        · subst h
          simp only [List.map_cons, hk, if_false, List.find?_cons, decide_false, ih, if_true]
        · by_cases h' : head.1 = k'
          · simp [h', h]
          · simp only [List.map_cons, hk, if_false, List.find?_cons, h', decide_false, ih, h]
  exact find_map m.entries

@[simp] theorem find?_adjust_self (m : OrderedMap κ ν) (k : κ) (f : ν → ν) :
    (m.adjust k f).find? k = (m.find? k).map f := by
  simp [find?_adjust]

@[simp] theorem find?_adjust_of_ne (m : OrderedMap κ ν) {k k' : κ} (f : ν → ν) (h : k' ≠ k) :
    (m.adjust k f).find? k' = m.find? k' := by
  simp [find?_adjust, h]

@[simp] theorem keys_adjust (m : OrderedMap κ ν) (k : κ) (f : ν → ν) :
    (m.adjust k f).keys = m.keys := by
  simp only [keys, adjust, List.map_map]
  refine List.map_congr_left fun p _ => ?_
  simp only [Function.comp]
  split <;> rfl

@[simp] theorem size_adjust (m : OrderedMap κ ν) (k : κ) (f : ν → ν) :
    (m.adjust k f).size = m.size := by
  simp [size, adjust]

theorem contains_iff {m : OrderedMap κ ν} {k : κ} :
    m.contains k = true ↔ ∃ v, m.find? k = some v := by
  simp [contains, Option.isSome_iff_exists]

/-! ## Occurrences

A fresh insertion adds one entry and an erasure of a present key removes one, so sums and counts
over the entries change by that entry alone. -/

theorem insert_perm {m : OrderedMap κ ν} {k : κ} {v : ν} (fresh : m.find? k = none) :
    (m.insert k v).entries.Perm ((k, v) :: m.entries) := by
  have absent := find?_eq_none_iff.mp fresh
  have go : ∀ l : List (κ × ν), (∀ v, (k, v) ∉ l) → (insertEntry k v l).Perm ((k, v) :: l) := by
    intro l
    induction l with
    | nil => intro _; exact .refl _
    | cons head rest ih =>
      intro absent
      simp only [insertEntry]
      split
      · exact .refl _
      · split
        · rename_i same
          exact absurd (List.mem_cons_self) (same ▸ absent head.2)
        · have rest_absent : ∀ v, (k, v) ∉ rest := fun v h => absent v (List.mem_cons_of_mem _ h)
          exact ((ih rest_absent).cons head).trans (List.Perm.swap _ _ _)
  exact go m.entries absent

theorem erase_perm {m : OrderedMap κ ν} {k : κ} {v : ν} (found : m.find? k = some v) :
    m.entries.Perm ((k, v) :: (m.erase k).entries) := by
  have member := find?_eq_some_iff.mp found
  have unique : ∀ p ∈ m.entries, p.1 = k → p = (k, v) := by
    rintro ⟨k', v'⟩ hp rfl
    rw [eq_of_mem_of_mem hp member]
  have split := (List.filter_append_perm (fun p : κ × ν => p.1 = k) m.entries).symm
  have single : m.entries.filter (fun p => p.1 = k) = [(k, v)] := by
    refine List.perm_singleton.mp ?_
    rw [List.perm_ext_iff_of_nodup (m.entries_nodup.filter _) (List.nodup_singleton _)]
    intro p
    simp only [List.mem_filter, decide_eq_true_eq, List.mem_singleton]
    exact ⟨fun h => unique p h.1 h.2, fun h => h ▸ ⟨member, rfl⟩⟩
  rw [single] at split
  simpa [erase] using split

@[simp] theorem size_empty : (empty : OrderedMap κ ν).size = 0 := rfl

theorem size_insert_of_fresh {m : OrderedMap κ ν} {k : κ} {v : ν} (fresh : m.find? k = none) :
    (m.insert k v).size = m.size + 1 := by
  simpa [size] using (insert_perm fresh).length_eq

theorem size_erase_of_found {m : OrderedMap κ ν} {k : κ} {v : ν} (found : m.find? k = some v) :
    m.size = (m.erase k).size + 1 := by
  simpa [size] using (erase_perm found).length_eq

/-- Maps with the same lookups are equal: the key order fixes the list of entries. -/
theorem ext_find? {m m' : OrderedMap κ ν} (same : ∀ k, m.find? k = m'.find? k) : m = m' := by
  have perm : m.entries.Perm m'.entries := by
    rw [List.perm_ext_iff_of_nodup m.entries_nodup m'.entries_nodup]
    rintro ⟨k, v⟩
    rw [← find?_eq_some_iff, ← find?_eq_some_iff, same k]
  have lists : m.entries = m'.entries := by
    refine perm.eq_of_pairwise ?_ m.sorted m'.sorted
    intro a b _ _ ab ba
    exact absurd (ab.trans ba) (lt_irrefl _)
  cases m; cases m'; cases lists; rfl

@[simp] theorem insert_insert (m : OrderedMap κ ν) (k : κ) (v w : ν) :
    (m.insert k v).insert k w = m.insert k w := by
  apply ext_find?
  intro other
  by_cases same : other = k
  · subst same; simp
  · simp [same]

/-- Writing back what is there changes nothing. -/
theorem insert_of_find? {m : OrderedMap κ ν} {k : κ} {v : ν} (found : m.find? k = some v) :
    m.insert k v = m := by
  apply ext_find?
  intro other
  by_cases same : other = k
  · subst same; simp [found]
  · simp [same]

/-- Overwriting an entry adds none. -/
theorem size_insert_of_found {m : OrderedMap κ ν} {k : κ} {v w : ν} (found : m.find? k = some v) :
    (m.insert k w).size = m.size := by
  have same : m.insert k w = (m.erase k).insert k w := by
    apply ext_find?
    intro other
    by_cases here : other = k
    · subst here
      simp
    · simp [here]
  rw [same, size_insert_of_fresh (find?_erase_self m k), ← size_erase_of_found found]

@[simp] theorem adjust_adjust (m : OrderedMap κ ν) (k : κ) (f g : ν → ν) :
    (m.adjust k f).adjust k g = m.adjust k (g ∘ f) := by
  apply ext_find?
  intro other
  by_cases same : other = k
  · subst same
    simp
  · simp [same]

/-! ## Weights -/

/-- The sum of the weights of the values. -/
def weigh (m : OrderedMap κ ν) (w : ν → Nat) : Nat := (m.entries.map fun p => w p.2).sum

@[simp] theorem weigh_empty (w : ν → Nat) : (empty : OrderedMap κ ν).weigh w = 0 := rfl

theorem weigh_insert {m : OrderedMap κ ν} {k : κ} {v : ν} (w : ν → Nat)
    (fresh : m.find? k = none) : (m.insert k v).weigh w = m.weigh w + w v := by
  have entries : (m.insert k v).entries.Perm ((k, v) :: m.entries) := insert_perm fresh
  have sum := (entries.map fun p => w p.2).sum_eq
  rw [List.map_cons, List.sum_cons] at sum
  exact sum.trans (Nat.add_comm _ _)

theorem weigh_erase {m : OrderedMap κ ν} {k : κ} {v : ν} (w : ν → Nat)
    (found : m.find? k = some v) : m.weigh w = (m.erase k).weigh w + w v := by
  have sum := ((erase_perm found).map fun p => w p.2).sum_eq
  rw [List.map_cons, List.sum_cons] at sum
  exact sum.trans (Nat.add_comm _ _)

theorem le_weigh {m : OrderedMap κ ν} {k : κ} {v : ν} (w : ν → Nat)
    (found : m.find? k = some v) : w v ≤ m.weigh w := by
  have split := weigh_erase w found
  omega

theorem exists_of_weigh_pos {m : OrderedMap κ ν} {w : ν → Nat} (positive : 0 < m.weigh w) :
    ∃ k v, m.find? k = some v ∧ 0 < w v := by
  by_contra none
  have zero : m.weigh w = 0 := by
    unfold weigh
    rw [List.sum_eq_zero_iff]
    intro n member
    obtain ⟨⟨k, v⟩, isEntry, rfl⟩ := List.mem_map.mp member
    by_contra heavy
    exact none ⟨k, v, find?_eq_some_iff.mpr isEntry, Nat.pos_of_ne_zero heavy⟩
  omega

theorem weigh_mono {m : OrderedMap κ ν} {w w' : ν → Nat}
    (le : ∀ k v, m.find? k = some v → w v ≤ w' v) : m.weigh w ≤ m.weigh w' := by
  unfold weigh
  exact List.sum_le_sum fun p member => le p.1 p.2 (find?_eq_some_iff.mpr member)

theorem emplace_of_fresh {m : OrderedMap κ ν} {k : κ} {v : ν} (fresh : m.find? k = none) :
    m.emplace k v = m.insert k v := by
  unfold emplace contains
  rw [fresh]
  rfl

end OrderedMap

end NexusLab.Foundation
