import NexusLab.Scheduling.Placement

/-! # Where the local policies place

`rack-local` takes the lowest GPUs of the first rack with room for all workers.  `compact` sorts the
racks by their free GPUs, the most first, so that the racks of a placement are as few as can be. -/

namespace NexusLab.Scheduling

open Foundation NexusLab.Topology

variable {gpus : List Resource} {request : JobRequest} {seed : Nat}

/-! ## The free GPUs of a rack -/

/-- The free GPUs of a rack. -/
def freeIn (gpus : List Resource) (rack : RackId) : List Resource :=
  (freeGpus gpus).filter fun r => r.rack = rack

theorem find?_countByRack (rack : RackId) : ∀ (gpus : List Resource) (counts : OrderedMap RackId Nat),
    (gpus.foldl (fun free r => free.insert r.rack ((free.find? r.rack).getD 0 + 1)) counts).find? rack
      = if gpus.countP (fun r => r.rack = rack) = 0 then counts.find? rack
        else some ((counts.find? rack).getD 0 + gpus.countP fun r => r.rack = rack)
  | [], counts => rfl
  | r :: gpus, counts => by
    rw [List.foldl_cons, find?_countByRack rack gpus]
    by_cases same : r.rack = rack
    · subst same
      rw [List.countP_cons_of_pos (by simp), OrderedMap.find?_insert_self, if_neg (Nat.succ_ne_zero _)]
      split
      · rename_i none
        rw [none]
      · rw [Option.getD_some, Nat.add_assoc, Nat.add_comm 1]
    · rw [List.countP_cons_of_neg (by simpa using same),
        OrderedMap.find?_insert_of_ne _ _ (Ne.symm same)]

theorem find?_freeByRack (rack : RackId) : (freeByRack gpus).find? rack =
    if (freeIn gpus rack).length = 0 then none else some (freeIn gpus rack).length := by
  have counted : (freeIn gpus rack).length = (freeGpus gpus).countP fun r => r.rack = rack :=
    List.countP_eq_length_filter.symm
  rw [counted]
  refine (find?_countByRack rack _ _).trans ?_
  simp only [OrderedMap.find?_empty, Option.getD_none, Nat.zero_add]
  rfl

/-- The first entry with a property has the least key of those with it. -/
theorem find?_entries {counts : OrderedMap RackId Nat} {p : Nat → Bool} {rack : RackId} {count : Nat}
    (found : counts.entries.find? (fun entry => p entry.2) = some (rack, count)) :
    counts.find? rack = some count ∧ p count = true ∧
      ∀ other n, counts.find? other = some n → p n = true → rack ≤ other := by
  obtain ⟨holds, before, after, split, none⟩ := List.find?_eq_some_iff_append.mp found
  refine ⟨OrderedMap.find?_eq_some_iff.mpr (split ▸ by simp), holds, fun other n isEntry good => ?_⟩
  have sorted := counts.sorted
  rw [split, List.pairwise_append, List.pairwise_cons] at sorted
  have member := OrderedMap.find?_eq_some_iff.mp isEntry
  rw [split, List.mem_append, List.mem_cons] at member
  rcases member with inBefore | same | inAfter
  · exact absurd good (by simpa using none _ inBefore)
  · cases same
    exact le_rfl
  · exact le_of_lt (sorted.2.1.1 _ inAfter)

/-! ## rack-local -/

/-- The GPUs of one rack, in order, are those GPUs sorted. -/
theorem filter_byGpu (unique : UniqueGpus gpus) (p : Resource → Bool) :
    (byGpu gpus).filter p = byGpu (gpus.filter p) := by
  have sorted := @Sorting.pairwise_insertionSort_le Resource GpuId _ Resource.gpu
  refine List.Perm.eq_of_pairwise ?_ ((sorted gpus).filter _) (sorted _)
    (((byGpu_perm gpus).filter p).trans (byGpu_perm _).symm)
  intro a b memberA memberB ab ba
  have isA := (byGpu_perm gpus).mem_iff.mp (List.mem_of_mem_filter memberA)
  have isB := List.mem_of_mem_filter ((byGpu_perm _).mem_iff.mp memberB)
  exact unique.eq isA isB (le_antisymm ab ba)

theorem order_rackLocal (free : List Resource) :
    order "rack-local" seed request free = rackLocal (byGpu free) request.workers := by
  unfold order
  rw [if_neg (by decide), if_pos rfl]
  rfl

theorem order_firstFit (free : List Resource) :
    order "first-fit" seed request free = byGpu free := by
  unfold order
  rw [if_neg (by decide), if_neg (by decide), if_neg (by decide)]
  rfl

/-- All free GPUs are free: the racks are counted alike. -/
theorem freeByRack_byGpu (rack : RackId) :
    (freeByRack (byGpu (freeGpus gpus))).find? rack =
      if (freeIn gpus rack).length = 0 then none else some (freeIn gpus rack).length := by
  have same : (freeIn (byGpu (freeGpus gpus)) rack).length = (freeIn gpus rack).length := by
    have free : freeGpus (freeGpus gpus) = freeGpus gpus := by
      unfold freeGpus
      rw [List.filter_filter]
      simp
    have perm : (freeGpus (byGpu (freeGpus gpus))).Perm (freeGpus gpus) := by
      have perm := (byGpu_perm (freeGpus gpus)).filter Resource.free
      rwa [show (freeGpus gpus).filter Resource.free = freeGpus gpus from free] at perm
    exact (perm.filter _).length_eq
  rw [find?_freeByRack, same]

/-- The placement stays in the first rack that has room. -/
theorem rackLocal_one (unique : UniqueGpus gpus) (unpinned : request.pinned = [])
    (placed : (builtinPlace "rack-local" seed request gpus).outcome = .placed)
    (room : ∃ rack, request.workers ≤ (freeIn gpus rack).length) :
    ∃ rack, IsLeast {rack | request.workers ≤ (freeIn gpus rack).length} rack ∧
      (builtinPlace "rack-local" seed request gpus).workers =
        ((byGpu (freeIn gpus rack)).take request.workers).map Resource.gpu := by
  have some_ := ((placed_unpinned_iff unpinned).mp placed).1
  have entry : ∀ {rack n}, (freeByRack (byGpu (freeGpus gpus))).find? rack = some n →
      n = (freeIn gpus rack).length := by
    intro rack n isEntry
    rw [freeByRack_byGpu] at isEntry
    split at isEntry
    · cases isEntry
    · exact (Option.some.inj isEntry).symm
  have isEntry : ∀ {rack}, request.workers ≤ (freeIn gpus rack).length →
      (freeByRack (byGpu (freeGpus gpus))).find? rack = some (freeIn gpus rack).length := by
    intro rack enough
    rw [freeByRack_byGpu, if_neg (by omega)]
  rw [placed_unpinned_workers unpinned placed, order_rackLocal]
  unfold rackLocal
  cases found : (freeByRack (byGpu (freeGpus gpus))).entries.find? fun entry =>
    entry.2 ≥ request.workers with
  | none =>
    obtain ⟨rack, enough⟩ := room
    have member := OrderedMap.find?_eq_some_iff.mp (isEntry enough)
    exact absurd enough (by simpa using List.find?_eq_none.mp found _ member)
  | some first =>
    obtain ⟨isFirst, enough, least⟩ := @find?_entries _ (fun n => n ≥ request.workers) _ _ found
    rw [decide_eq_true_eq, entry isFirst] at enough
    refine ⟨first.1, ⟨enough, fun rack other => ?_⟩, ?_⟩
    · exact least rack _ (isEntry other) (by simpa using other)
    · have here : (byGpu (freeGpus gpus)).filter (fun r => r.rack = first.1) =
          byGpu (freeIn gpus first.1) := filter_byGpu unique.freeGpus _
      have length : request.workers ≤ (byGpu (freeIn gpus first.1)).length := by
        rw [(byGpu_perm _).length_eq]
        exact enough
      simp only [here]
      rw [List.take_append_of_le_length length]

/-- Without such a rack the placement is that of `first-fit`. -/
theorem rackLocal_spread (unpinned : request.pinned = [])
    (placed : (builtinPlace "rack-local" seed request gpus).outcome = .placed)
    (full : ∀ rack, (freeIn gpus rack).length < request.workers) :
    (builtinPlace "rack-local" seed request gpus).workers =
      (builtinPlace "first-fit" seed request gpus).workers := by
  have alike : (builtinPlace "first-fit" seed request gpus).outcome = .placed :=
    (placed_unpinned_iff unpinned).mpr ((placed_unpinned_iff unpinned).mp placed)
  rw [placed_unpinned_workers unpinned placed, placed_unpinned_workers unpinned alike,
    order_rackLocal, order_firstFit]
  unfold rackLocal
  cases found : (freeByRack (byGpu (freeGpus gpus))).entries.find? fun entry =>
    entry.2 ≥ request.workers with
  | none => rfl
  | some first =>
    obtain ⟨isFirst, enough, _⟩ := @find?_entries _ (fun n => n ≥ request.workers) _ _ found
    rw [freeByRack_byGpu] at isFirst
    split at isFirst
    · cases isFirst
    · rw [decide_eq_true_eq, ← Option.some.inj isFirst] at enough
      exact absurd enough (not_le.mpr (full _))

/-! ## compact -/

/-- What `compact` compares: the sizes of the racks and of the NICs come before their numbers. -/
def compactKey (free : List Resource) (r : Resource) :
    Lex (Lex (Natᵒᵈ × RackId) × Lex (Lex (Natᵒᵈ × NicId) × GpuId)) :=
  toLex (Sorting.groupRank Resource.rack free r.rack,
    toLex (Sorting.groupRank Resource.nic free r.nic, r.gpu))

theorem countOf_eq_groupSize {κ : Type} [LinearOrder κ] (key : Resource → κ) (free : List Resource)
    (k : κ) : countOf key free k = Sorting.groupSize key free k := List.countP_eq_length_filter.symm

theorem groupRank_lt_iff {κ : Type} [LinearOrder κ] {key : Resource → κ} {free : List Resource}
    {a b : κ} : Sorting.groupRank key free a < Sorting.groupRank key free b ↔
      if countOf key free a ≠ countOf key free b then countOf key free a > countOf key free b
      else a < b := by
  rw [Sorting.groupRank, Sorting.groupRank, Prod.Lex.toLex_lt_toLex, countOf_eq_groupSize,
    countOf_eq_groupSize]
  split
  · rename_i differ
    simp [differ]
  · rename_i same
    rw [not_not] at same
    simp [same]

/-- The comparison of `compact` is that of a linear order. -/
theorem compactBefore_iff (free : List Resource) (a b : Resource) :
    compactBefore free a b = true ↔ compactKey free a < compactKey free b := by
  have ranks : ∀ {κ : Type} [LinearOrder κ] (key : Resource → κ) {a b : κ}, a ≠ b →
      Sorting.groupRank key free a ≠ Sorting.groupRank key free b := by
    intro κ _ key a b differ same
    exact differ (Sorting.groupRank_injective same)
  unfold compactKey compactBefore
  rw [Prod.Lex.toLex_lt_toLex, Prod.Lex.toLex_lt_toLex]
  by_cases rack : a.rack = b.rack
  · by_cases nic : a.nic = b.nic
    · simp [rack, nic]
    · simp only [rack, nic, ne_eq, not_true_eq_false, not_false_eq_true, if_false, if_true,
        lt_irrefl, false_or, true_and, ranks Resource.nic nic, false_and, or_false]
      rw [groupRank_lt_iff]
      split <;> simp
  · simp only [rack, ne_eq, not_false_eq_true, if_true, ranks Resource.rack rack, false_and,
      or_false]
    rw [groupRank_lt_iff]
    split <;> simp

theorem compactKey_injective {free : List Resource} {a b : Resource}
    (same : compactKey free a = compactKey free b) : a.gpu = b.gpu :=
  congrArg (fun key => (ofLex (ofLex key).2).2) same

theorem order_compact (free : List Resource) :
    order "compact" seed request free = compact (byGpu free) := by
  unfold order
  rw [if_neg (by decide), if_neg (by decide), if_pos rfl]
  rfl

theorem compact_sorted {free : List Resource} (unique : UniqueGpus free) :
    (compact free).Pairwise fun a b => Sorting.groupRank Resource.rack free a.rack ≤
      Sorting.groupRank Resource.rack free b.rack := by
  have distinct : (free.map (compactKey free)).Nodup :=
    List.Nodup.map_on (fun a memberA b memberB same =>
      unique.eq memberA memberB (compactKey_injective same)) unique.nodup
  unfold compact
  rw [Sorting.insertionSort_of_lt (compactBefore_iff free) distinct]
  refine (Sorting.pairwise_insertionSort_le free).imp fun {a b} le => ?_
  rcases Prod.Lex.toLex_le_toLex.mp le with less | ⟨same, _⟩
  · exact le_of_lt less
  · exact le_of_eq same

/-- The first GPUs in the order of `compact` are in as few racks as any choice of as many. -/
theorem compact_fewest {free chosen : List Resource} (unique : UniqueGpus free) {n : Nat}
    (enough : n ≤ free.length) (subperm : chosen.Subperm free) (size : chosen.length = n) :
    (Sorting.groups Resource.rack ((compact free).take n)).card ≤
      (Sorting.groups Resource.rack chosen).card := by
  have perm : (compact free).Perm free := List.perm_insertionSort _ _
  refine Sorting.card_groups_take_le ?_ (perm.length_eq ▸ enough) (subperm.trans perm.symm.subperm)
    size
  refine (compact_sorted unique).imp fun {a b} le => ?_
  have ranks : ∀ rack, Sorting.groupRank Resource.rack (compact free) rack =
      Sorting.groupRank Resource.rack free rack := by
    intro rack
    unfold Sorting.groupRank
    rw [Sorting.groupSize_of_perm perm]
  rw [ranks, ranks]
  exact le

/-! ## The locality of a placement -/

theorem findResource_ok (unique : UniqueGpus gpus) {r : Resource} (member : r ∈ gpus) :
    findResource gpus r.gpu = .ok r := by
  unfold findResource
  rw [find?_gpu unique member]

theorem mapM_findResource (unique : UniqueGpus gpus) : ∀ {chosen : List Resource},
    (∀ r ∈ chosen, r ∈ gpus) → (chosen.map Resource.gpu).mapM (findResource gpus) = .ok chosen
  | [], _ => rfl
  | r :: chosen, members => by
    obtain ⟨member, others⟩ := List.forall_mem_cons.mp members
    rw [List.map_cons, List.mapM_cons, findResource_ok unique member, ok_bind,
      mapM_findResource unique others]
    rfl

/-- The racks that the engine counts are those of the resources. -/
theorem locality_ok (unique : UniqueGpus gpus) {chosen : List Resource}
    (members : ∀ r ∈ chosen, r ∈ gpus) : ∃ l, locality gpus (chosen.map Resource.gpu) = .ok l ∧
      l.racks = (Sorting.groups Resource.rack chosen).card := by
  unfold locality
  rw [mapM_findResource unique members]
  exact ⟨_, rfl, (List.card_toFinset _).symm⟩

/-- Known GPUs are those of resources. -/
theorem resources_of_known {workers : List GpuId}
    (known : ∀ gpu ∈ workers, gpu ∈ gpus.map Resource.gpu) :
    ∃ chosen : List Resource, chosen.map Resource.gpu = workers ∧ ∀ r ∈ chosen, r ∈ gpus := by
  induction workers with
  | nil => exact ⟨[], rfl, fun _ none => nomatch none⟩
  | cons gpu workers ih =>
    obtain ⟨isKnown, others⟩ := List.forall_mem_cons.mp known
    obtain ⟨r, member, same⟩ := List.mem_map.mp isKnown
    obtain ⟨chosen, isChosen, members⟩ := ih others
    refine ⟨r :: chosen, by rw [List.map_cons, same, isChosen], ?_⟩
    exact List.forall_mem_cons.mpr ⟨member, members⟩

theorem Available.mem_freeGpus {gpu : GpuId} (available : Available gpus gpu) :
    gpu ∈ (freeGpus gpus).map Resource.gpu := by
  obtain ⟨r, member, rfl, free⟩ := available
  exact List.mem_map_of_mem (List.mem_filter.mpr ⟨member, free⟩)

/-- No choice of as many free GPUs is in fewer racks than a placement of `compact`. -/
theorem compact_minimal (unique : UniqueGpus gpus) (unpinned : request.pinned = [])
    (placed : (builtinPlace "compact" seed request gpus).outcome = .placed) {chosen : List GpuId}
    (distinct : chosen.Nodup) (size : chosen.length = request.workers)
    (all : ∀ gpu ∈ chosen, Available gpus gpu) :
    ∃ l l', locality gpus (builtinPlace "compact" seed request gpus).workers = .ok l ∧
      locality gpus chosen = .ok l' ∧ l.racks ≤ l'.racks := by
  have enough := ((placed_unpinned_iff unpinned).mp placed).2.2
  have perm := order_perm "compact" seed request (freeGpus gpus)
  have isFree : ∀ {r}, r ∈ freeGpus gpus → r ∈ gpus := fun member => List.mem_of_mem_filter member
  obtain ⟨resources, isChosen, areFree⟩ := resources_of_known fun gpu member =>
    (all gpu member).mem_freeGpus
  rw [placed_unpinned_workers unpinned placed, ← isChosen]
  have taken : ∀ r ∈ (order "compact" seed request (freeGpus gpus)).take request.workers, r ∈ gpus :=
    fun r member => isFree (perm.mem_iff.mp (List.mem_of_mem_take member))
  obtain ⟨l, isLocality, racks⟩ := locality_ok unique taken
  obtain ⟨l', isLocality', racks'⟩ := locality_ok unique fun r member => isFree (areFree r member)
  refine ⟨l, l', isLocality, isLocality', ?_⟩
  rw [racks, racks', order_compact]
  have sorted := byGpu_perm (freeGpus gpus)
  have nodup : resources.Nodup := List.Nodup.of_map Resource.gpu (isChosen ▸ distinct)
  refine compact_fewest (unique.freeGpus.of_perm sorted.symm) (sorted.length_eq ▸ enough)
    ((List.subperm_of_subset nodup areFree).trans sorted.symm.subperm) ?_
  rw [← size, ← isChosen, List.length_map]

/-- `rack-local` places in the first rack with room and otherwise as `first-fit` does, and `compact`
places in the fewest racks. -/
theorem locality_of_placements (unique : UniqueGpus gpus) (unpinned : request.pinned = [])
    (placeable : 1 ≤ request.workers ∧ request.workers ≤ (freeGpus gpus).length) :
    ((∃ rack, request.workers ≤ (freeIn gpus rack).length) →
      ∃ rack, IsLeast {rack | request.workers ≤ (freeIn gpus rack).length} rack ∧
        (builtinPlace "rack-local" seed request gpus).workers =
          ((byGpu (freeIn gpus rack)).take request.workers).map Resource.gpu) ∧
    ((∀ rack, (freeIn gpus rack).length < request.workers) →
      (builtinPlace "rack-local" seed request gpus).workers =
        (builtinPlace "first-fit" seed request gpus).workers) ∧
    ∀ chosen : List GpuId, chosen.Nodup → chosen.length = request.workers →
      (∀ gpu ∈ chosen, Available gpus gpu) →
        ∃ l l', locality gpus (builtinPlace "compact" seed request gpus).workers = .ok l ∧
          locality gpus chosen = .ok l' ∧ l.racks ≤ l'.racks := by
  have placed : ∀ name, (builtinPlace name seed request gpus).outcome = .placed := fun name =>
    (placed_unpinned_iff unpinned).mpr ⟨placeable.1,
      placeable.2.trans (List.length_filter_le _ _), placeable.2⟩
  exact ⟨rackLocal_one unique unpinned (placed _), rackLocal_spread unpinned (placed _),
    fun _ distinct size all => compact_minimal unique unpinned (placed _) distinct size all⟩

/-- One free GPU in the first rack and two in the second. -/
def twoRacks : List Resource :=
  [⟨⟨0⟩, ⟨0⟩, ⟨0⟩, true, none⟩, ⟨⟨1⟩, ⟨1⟩, ⟨1⟩, true, none⟩, ⟨⟨2⟩, ⟨1⟩, ⟨1⟩, true, none⟩]

def pairRequest : JobRequest := ⟨⟨0⟩, 2, 0, []⟩

/-- Two workers go to the second rack; three have to spread, as with `first-fit`. -/
theorem locality_of_placements_twoRacks :
    (∃ rack, IsLeast {rack | 2 ≤ (freeIn twoRacks rack).length} rack ∧
      (builtinPlace "rack-local" 42 pairRequest twoRacks).workers =
        ((byGpu (freeIn twoRacks rack)).take 2).map Resource.gpu) ∧
    (builtinPlace "rack-local" 42 { pairRequest with workers := 3 } twoRacks).workers =
      (builtinPlace "first-fit" 42 { pairRequest with workers := 3 } twoRacks).workers ∧
    ∃ l l', locality twoRacks (builtinPlace "compact" 42 pairRequest twoRacks).workers = .ok l ∧
      locality twoRacks [⟨0⟩, ⟨1⟩] = .ok l' ∧ l.racks ≤ l'.racks := by
  have unique : UniqueGpus twoRacks := by decide
  have placeable : 1 ≤ pairRequest.workers ∧ pairRequest.workers ≤ (freeGpus twoRacks).length := by
    decide
  have room : pairRequest.workers ≤ (freeIn twoRacks ⟨1⟩).length := by decide
  have noRoom : ∀ rack, (freeIn twoRacks rack).length < 3 := by
    intro rack
    by_cases first : rack = ⟨0⟩
    · subst first
      decide
    by_cases second : rack = ⟨1⟩
    · subst second
      decide
    simp [freeIn, twoRacks, freeGpus, Ne.symm first, Ne.symm second]
  have available : ∀ gpu ∈ [(⟨0⟩ : GpuId), ⟨1⟩], Available twoRacks gpu := by
    unfold Available
    decide
  obtain ⟨near, _, compact⟩ := @locality_of_placements twoRacks pairRequest 42 unique rfl placeable
  obtain ⟨_, spread, _⟩ := @locality_of_placements twoRacks { pairRequest with workers := 3 } 42
    unique rfl (by decide)
  exact ⟨near ⟨⟨1⟩, room⟩, spread noRoom, compact [⟨0⟩, ⟨1⟩] (by decide) rfl available⟩

end NexusLab.Scheduling
