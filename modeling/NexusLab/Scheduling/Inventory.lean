import NexusLab.Scheduling.Placement

/-! # The inventory

An inventory is in the order of its GPUs from the start, and stays so; then the lower bound of a GPU
is where the GPU is, and an allocation finds every worker that a policy may have placed. -/

namespace NexusLab.Scheduling

open Foundation NexusLab.Topology

/-- The resources are in the order of their GPUs, each of which is there once. -/
def Ordered (gpus : List Resource) : Prop := gpus.Pairwise fun a b => a.gpu < b.gpu

instance (gpus : List Resource) : Decidable (Ordered gpus) :=
  inferInstanceAs (Decidable (List.Pairwise _ _))

variable {gpus : List Resource}

theorem Ordered.unique (ordered : Ordered gpus) : UniqueGpus gpus :=
  List.pairwise_map.mpr (ordered.imp ne_of_lt)

theorem ordered_iff_map : Ordered gpus ↔ (gpus.map Resource.gpu).Pairwise (· < ·) :=
  List.pairwise_map.symm

namespace ResourceInventory

/-- A change of the resources that leaves their GPUs. -/
theorem ordered_of_gpus_eq {gpus' : List Resource} (ordered : Ordered gpus)
    (same : gpus'.map Resource.gpu = gpus.map Resource.gpu) : Ordered gpus' := by
  rw [ordered_iff_map] at ordered ⊢
  rwa [same]

theorem gpus_modify (gpus : List Resource) (index : Nat) {f : Resource → Resource}
    (keeps : ∀ r, (f r).gpu = r.gpu) :
    (gpus.modify index f).map Resource.gpu = gpus.map Resource.gpu := by
  induction gpus generalizing index with
  | nil => cases index <;> rfl
  | cons r rest ih =>
    cases index with
    | zero => simp [List.modify_zero_cons, keeps]
    | succ index => simp [List.modify_succ_cons, ih]

theorem create_ordered {graph : TopologyGraph} {inventory : ResourceInventory}
    (unique : (graph.gpus.map GpuWorker.id).Nodup) (created : create graph = .ok inventory) :
    Ordered inventory.gpus := by
  unfold create at created
  split at created
  · cases created
  · cases created
    let resources := graph.gpus.map fun gpu =>
      (⟨gpu.id, gpu.rack, gpu.attachedNic, true, none⟩ : Resource)
    have distinct : (resources.map Resource.gpu).Nodup := by
      simpa [resources, List.map_map, Function.comp_def] using unique
    show Ordered (resources.insertionSort fun a b => a.gpu ≤ b.gpu)
    have sorted := @Sorting.pairwise_insertionSort_le Resource GpuId _ Resource.gpu resources
    have spread : (resources.insertionSort fun a b => a.gpu ≤ b.gpu).Pairwise
        fun a b => a.gpu ≠ b.gpu :=
      List.pairwise_map.mp (((List.perm_insertionSort _ _).map _).nodup_iff.mpr distinct)
    exact (sorted.and spread).imp fun both => lt_of_le_of_ne both.1 both.2

theorem foldl_modify_gpus (indices : List Nat) {f : Resource → Resource}
    (keeps : ∀ r, (f r).gpu = r.gpu) (gpus : List Resource) :
    (indices.foldl (fun gpus index => gpus.modify index f) gpus).map Resource.gpu =
      gpus.map Resource.gpu := by
  induction indices generalizing gpus with
  | nil => rfl
  | cons index rest ih => rw [List.foldl_cons, ih, gpus_modify _ _ keeps]

theorem allocate_gpus {job : JobId} {workers : List GpuId}
    {inventory inventory' : ResourceInventory}
    (allocated : inventory.allocate job workers = .ok inventory') :
    inventory'.gpus.map Resource.gpu = inventory.gpus.map Resource.gpu := by
  unfold allocate at allocated
  split at allocated
  · cases allocated
  · cases found : positions inventory.gpus workers [] with
    | error e =>
      rw [found] at allocated
      cases allocated
    | ok indices =>
      rw [found] at allocated
      cases allocated
      exact foldl_modify_gpus (f := fun r => { r with owner := some job }) indices (fun _ => rfl) _

theorem allocate_ordered {job : JobId} {workers : List GpuId}
    {inventory inventory' : ResourceInventory} (ordered : Ordered inventory.gpus)
    (allocated : inventory.allocate job workers = .ok inventory') : Ordered inventory'.gpus :=
  ordered_of_gpus_eq ordered (allocate_gpus allocated)

theorem release_ordered {job : JobId} {inventory : ResourceInventory}
    (ordered : Ordered inventory.gpus) : Ordered (inventory.release job).gpus := by
  refine ordered_of_gpus_eq ordered ?_
  unfold release
  rw [List.map_map]
  refine List.map_congr_left fun r _ => ?_
  simp only [Function.comp_apply]
  split <;> rfl

theorem setHealth_ordered {gpu : GpuId} {healthy : Bool} {owner : Option JobId}
    {inventory inventory' : ResourceInventory} (ordered : Ordered inventory.gpus)
    (set : inventory.setHealth gpu healthy = .ok (owner, inventory')) :
    Ordered inventory'.gpus := by
  unfold setHealth at set
  simp only at set
  split at set
  · cases set
  · split at set
    · cases set
    · cases set
      exact ordered_of_gpus_eq ordered (gpus_modify _ _ fun _ => rfl)

/-! ## Allocations -/

theorem getElem?_lowerBound : ∀ {gpus : List Resource}, Ordered gpus → ∀ {r : Resource}, r ∈ gpus →
    gpus[lowerBound gpus r.gpu]? = some r
  | [], _, _, member => nomatch member
  | first :: rest, ordered, r, member => by
    obtain ⟨above, ordered⟩ := List.pairwise_cons.mp ordered
    unfold lowerBound
    rcases List.mem_cons.mp member with rfl | member
    · rw [List.takeWhile_cons_of_neg (by simp)]
      rfl
    · rw [List.takeWhile_cons_of_pos (by simpa using above r member)]
      exact getElem?_lowerBound ordered member

theorem positions_ok (ordered : Ordered gpus) : ∀ {workers seen : List GpuId}, workers.Nodup →
    (∀ gpu ∈ workers, gpu ∉ seen ∧ Available gpus gpu) →
      ∃ indices, positions gpus workers seen = .ok indices
  | [], _, _, _ => ⟨[], rfl⟩
  | gpu :: workers, seen, distinct, all => by
    obtain ⟨once, others_distinct⟩ := List.nodup_cons.mp distinct
    obtain ⟨⟨unseen, r, member, rfl, free⟩, others⟩ := List.forall_mem_cons.mp all
    have rest : ∀ other ∈ workers, other ∉ r.gpu :: seen ∧ Available gpus other := by
      intro other isOther
      refine ⟨?_, (others other isOther).2⟩
      rw [List.mem_cons, not_or]
      exact ⟨fun same => once (same ▸ isOther), (others other isOther).1⟩
    obtain ⟨indices, isIndices⟩ := positions_ok ordered others_distinct rest
    obtain ⟨healthy, unowned⟩ := Bool.and_eq_true_iff.mp free
    unfold positions
    rw [getElem?_lowerBound ordered member]
    rw [Option.isNone_iff_eq_none] at unowned
    simp only [ne_eq, not_true_eq_false, healthy, Bool.true_eq_false, unowned, Option.isSome_none,
      Bool.false_eq_true, unseen, or_self, if_false]
    rw [isIndices]
    exact ⟨_, rfl⟩

/-- Different free GPUs are allocated to a job that has none yet. -/
theorem allocate_ok {job : JobId} {workers : List GpuId} {inventory : ResourceInventory}
    (ordered : Ordered inventory.gpus) (some_ : workers ≠ []) (distinct : workers.Nodup)
    (all : ∀ gpu ∈ workers, Available inventory.gpus gpu)
    (first : ∀ r ∈ inventory.gpus, r.owner ≠ some job) :
    ∃ inventory', inventory.allocate job workers = .ok inventory' := by
  have unseen : ∀ gpu ∈ workers, gpu ∉ ([] : List GpuId) ∧ Available inventory.gpus gpu :=
    fun gpu member => ⟨List.not_mem_nil, all gpu member⟩
  obtain ⟨indices, isIndices⟩ := positions_ok ordered distinct unseen
  have few := (List.subperm_of_subset distinct (available_subset all)).length_le
  rw [List.length_map] at few
  have owned : ¬ inventory.gpus.any (fun r => r.owner = some job) = true := by
    rw [List.any_eq_true]
    rintro ⟨r, member, isOwner⟩
    exact first r member (of_decide_eq_true isOwner)
  unfold allocate
  rw [if_neg (by rw [not_or, not_or]; exact ⟨some_, not_lt.mpr few, owned⟩), isIndices]
  exact ⟨_, rfl⟩

/-! ## What becomes of the resources -/

/-- Modifying some positions, perhaps again, modifies each of them. -/
theorem getElem?_foldl_modify {f : Resource → Resource} (idempotent : ∀ r, f (f r) = f r)
    (position : Nat) : ∀ (indices : List Nat) (gpus : List Resource),
    (indices.foldl (fun gpus index => gpus.modify index f) gpus)[position]? =
      gpus[position]?.map fun r => if position ∈ indices then f r else r
  | [], gpus => by simp
  | index :: indices, gpus => by
    rw [List.foldl_cons, getElem?_foldl_modify idempotent position indices, List.getElem?_modify]
    cases gpus[position]? with
    | none => split <;> rfl
    | some r =>
      by_cases here : index = position
      · subst here
        by_cases again : index ∈ indices <;> simp [again, idempotent]
      · simp [here, Ne.symm here]

/-- The positions that are found are those of different free GPUs. -/
theorem positions_eq : ∀ {workers seen : List GpuId} {indices : List Nat},
    positions gpus workers seen = .ok indices →
    indices = workers.map (lowerBound gpus) ∧ workers.Nodup ∧ ∀ gpu ∈ workers, gpu ∉ seen ∧
      ∃ r, gpus[lowerBound gpus gpu]? = some r ∧ r.gpu = gpu ∧ r.healthy = true ∧ r.owner = none
  | [], _, _, ok => by cases ok; exact ⟨rfl, List.nodup_nil, nofun⟩
  | gpu :: workers, seen, indices, ok => by
    unfold positions at ok
    cases found : gpus[lowerBound gpus gpu]? with
    | none => rw [found] at ok; cases ok
    | some r =>
      rw [found] at ok
      dsimp only at ok
      split at ok
      · cases ok
      · rename_i fine
        simp only [not_or, ne_eq, not_not, Bool.not_eq_false, Bool.not_eq_true,
          Option.isSome_eq_false_iff, Option.isNone_iff_eq_none] at fine
        obtain ⟨same, healthy, unowned, unseen⟩ := fine
        obtain ⟨rest, isRest, returned⟩ := returned_of_bind ok
        cases returned
        obtain ⟨rfl, distinct, others⟩ := positions_eq isRest
        refine ⟨rfl, List.nodup_cons.mpr ⟨fun again => ?_, distinct⟩, fun other member => ?_⟩
        · exact (others gpu again).1 (List.mem_cons_self ..)
        · rcases List.mem_cons.mp member with rfl | later
          · exact ⟨unseen, r, found, same, healthy, unowned⟩
          · obtain ⟨notSeen, known⟩ := others other later
            exact ⟨fun isSeen => notSeen (List.mem_cons_of_mem _ isSeen), known⟩

theorem eq_lowerBound (ordered : Ordered gpus) {position : Nat} {r : Resource}
    (isPosition : gpus[position]? = some r) : position = lowerBound gpus r.gpu := by
  have found := getElem?_lowerBound ordered (List.mem_of_getElem? isPosition)
  have distinct : gpus.Nodup := List.Pairwise.of_map Resource.gpu (fun _ _ => mt (congrArg _))
    (List.pairwise_map.mpr (ordered.imp ne_of_lt))
  exact (List.getElem?_inj (List.getElem?_eq_some_iff.mp isPosition).1 distinct).mp
    (isPosition.trans found.symm)

/-- The workers of an allocation were different free GPUs, and are the job's. -/
theorem allocate_eq {job : JobId} {workers : List GpuId} {inventory inventory' : ResourceInventory}
    (ordered : Ordered inventory.gpus) (allocated : inventory.allocate job workers = .ok inventory') :
    workers.Nodup ∧ (∀ gpu ∈ workers, ∃ r ∈ inventory.gpus, r.gpu = gpu ∧ r.healthy = true ∧
      r.owner = none) ∧
    inventory'.gpus = inventory.gpus.map fun r =>
      if r.gpu ∈ workers then { r with owner := some job } else r := by
  unfold allocate at allocated
  split at allocated
  · cases allocated
  · obtain ⟨indices, isIndices, returned⟩ := returned_of_bind allocated
    cases returned
    obtain ⟨rfl, distinct, free⟩ := positions_eq isIndices
    refine ⟨distinct, fun gpu member => ?_, ?_⟩
    · obtain ⟨_, r, found, rest⟩ := free gpu member
      exact ⟨r, List.mem_of_getElem? found, rest⟩
    · refine List.ext_getElem? fun position => ?_
      rw [getElem?_foldl_modify (f := fun r => { r with owner := some job }) (fun _ => rfl),
        List.getElem?_map]
      cases found : inventory.gpus[position]? with
      | none => rfl
      | some r =>
        -- a resource lies where its GPU is looked for
        have here : position ∈ workers.map (lowerBound inventory.gpus) ↔ r.gpu ∈ workers := by
          constructor
          · intro member
            obtain ⟨gpu, isWorker, same⟩ := List.mem_map.mp member
            obtain ⟨_, r', found', isGpu, _⟩ := free gpu isWorker
            rw [same, found] at found'
            cases found'
            exact isGpu ▸ isWorker
          · exact fun isWorker => List.mem_map.mpr ⟨r.gpu, isWorker, (eq_lowerBound ordered found).symm⟩
        simp only [Option.map_some, here]

/-- The health of one GPU changes, and its owner is told. -/
theorem setHealth_eq {gpu : GpuId} {healthy : Bool} {owner : Option JobId}
    {inventory inventory' : ResourceInventory} (ordered : Ordered inventory.gpus)
    (set : inventory.setHealth gpu healthy = .ok (owner, inventory')) :
    (∃ r ∈ inventory.gpus, r.gpu = gpu ∧ r.owner = owner) ∧
    inventory'.gpus = inventory.gpus.map fun r => if r.gpu = gpu then { r with healthy } else r := by
  unfold setHealth at set
  dsimp only at set
  cases found : inventory.gpus[lowerBound inventory.gpus gpu]? with
  | none => rw [found] at set; cases set
  | some r =>
    rw [found] at set
    dsimp only at set
    split at set
    · cases set
    · rename_i same
      rw [not_not] at same
      cases set
      refine ⟨⟨r, List.mem_of_getElem? found, same, rfl⟩, List.ext_getElem? fun position => ?_⟩
      rw [List.getElem?_modify, List.getElem?_map]
      cases isResource : inventory.gpus[position]? with
      | none => split <;> rfl
      | some other =>
        have here : lowerBound inventory.gpus gpu = position ↔ other.gpu = gpu := by
          constructor
          · intro here
            rw [here, isResource] at found
            cases found
            exact same
          · rintro rfl
            exact (eq_lowerBound ordered isResource).symm
        simp only [here, Option.map_some]
        split <;> rfl

end ResourceInventory

end NexusLab.Scheduling
