import NexusLab.Foundation.Sorting
import NexusLab.Scheduling.Policy

/-! # What the built-in policies place

Every policy takes the free GPUs in an order of its own, so all of them place the same requests and
none but free GPUs; they differ in which.  `rack-local` stays in one rack when it can, and `compact`
meets the fewest racks. -/

namespace NexusLab.Scheduling

open Foundation NexusLab.Topology

/-! ## The order of the free GPUs -/

/-- No two resources are of one GPU. -/
def UniqueGpus (gpus : List Resource) : Prop := (gpus.map Resource.gpu).Nodup

instance (gpus : List Resource) : Decidable (UniqueGpus gpus) :=
  inferInstanceAs (Decidable (List.Nodup _))

def freeGpus (gpus : List Resource) : List Resource := gpus.filter Resource.free

/-- The order of `first-fit`. -/
def byGpu (gpus : List Resource) : List Resource := gpus.insertionSort fun a b => a.gpu ≤ b.gpu

theorem byGpu_perm (gpus : List Resource) : (byGpu gpus).Perm gpus := List.perm_insertionSort _ _

variable {gpus gpus' : List Resource} {request : JobRequest} {name : String} {seed : Nat}

theorem UniqueGpus.nodup (unique : UniqueGpus gpus) : gpus.Nodup := List.Nodup.of_map _ unique

theorem UniqueGpus.eq (unique : UniqueGpus gpus) {a b : Resource} (memberA : a ∈ gpus)
    (memberB : b ∈ gpus) (same : a.gpu = b.gpu) : a = b :=
  List.inj_on_of_nodup_map unique memberA memberB same

theorem UniqueGpus.of_perm (unique : UniqueGpus gpus) (perm : gpus.Perm gpus') :
    UniqueGpus gpus' := (perm.map _).nodup_iff.mp unique

theorem UniqueGpus.of_sublist (unique : UniqueGpus gpus) (sublist : gpus'.Sublist gpus) :
    UniqueGpus gpus' := List.Nodup.sublist (sublist.map _) unique

theorem UniqueGpus.freeGpus (unique : UniqueGpus gpus) : UniqueGpus (freeGpus gpus) :=
  unique.of_sublist List.filter_sublist

theorem rackLocal_perm (free : List Resource) (count : Nat) :
    (rackLocal free count).Perm free := by
  unfold rackLocal
  split
  · exact .refl _
  · simpa [decide_not] using List.filter_append_perm (fun r : Resource => r.rack = _) free

theorem order_perm (name : String) (seed : Nat) (request : JobRequest) (free : List Resource) :
    (order name seed request free).Perm free := by
  unfold order
  refine List.Perm.trans ?_ (byGpu_perm free)
  split
  · exact List.perm_insertionSort _ _
  · split
    · exact rackLocal_perm _ _
    · split
      · exact List.perm_insertionSort _ _
      · exact .refl _

/-- The order does not depend on how the free GPUs were listed. -/
theorem order_of_perm (unique : UniqueGpus gpus) (perm : gpus.Perm gpus') :
    order name seed request gpus = order name seed request gpus' := by
  have sorted : gpus.insertionSort (fun a b => a.gpu ≤ b.gpu) =
      gpus'.insertionSort fun a b => a.gpu ≤ b.gpu :=
    Sorting.insertionSort_le_of_perm perm unique
  unfold order
  rw [sorted]

/-! ## Pinned requests -/

/-- The GPU is known and free. -/
def Available (gpus : List Resource) (gpu : GpuId) : Prop :=
  ∃ r ∈ gpus, r.gpu = gpu ∧ r.free = true

theorem find?_gpu (unique : UniqueGpus gpus) {r : Resource} (member : r ∈ gpus) :
    gpus.find? (fun other => other.gpu = r.gpu) = some r := by
  cases found : gpus.find? fun other => other.gpu = r.gpu with
  | none => exact absurd (List.find?_eq_none.mp found r member) (by simp)
  | some other =>
    have same := List.find?_some found
    rw [decide_eq_true_eq] at same
    rw [unique.eq (List.mem_of_find?_eq_some found) member same]

theorem pinnedBlocked_eq_false_iff (unique : UniqueGpus gpus) : ∀ {pinned seen : List GpuId}
    {blocked : Bool}, pinnedBlocked gpus pinned seen blocked = some false ↔
      blocked = false ∧ pinned.Nodup ∧ ∀ gpu ∈ pinned, gpu ∉ seen ∧ Available gpus gpu
  | [], seen, blocked => by simp [pinnedBlocked]
  | gpu :: pinned, seen, blocked => by
    unfold pinnedBlocked
    cases found : gpus.find? fun r => r.gpu = gpu with
    | none =>
      have unknown : ¬ Available gpus gpu := by
        rintro ⟨r, member, same, _⟩
        exact absurd (List.find?_eq_none.mp found r member) (by simp [same])
      simp [unknown]
    | some r =>
      have same := List.find?_some found
      rw [decide_eq_true_eq] at same
      have member := List.mem_of_find?_eq_some found
      have isFree : Available gpus gpu ↔ r.free = true := by
        constructor
        · rintro ⟨other, isOther, sameOther, free⟩
          rwa [unique.eq member isOther (same.trans sameOther.symm)]
        · exact fun free => ⟨r, member, same, free⟩
      by_cases again : gpu ∈ seen
      · simp [again]
      · rw [List.forall_mem_cons, List.nodup_cons, isFree]
        simp only [again, if_false, pinnedBlocked_eq_false_iff unique, Bool.or_eq_false_iff,
          Bool.not_eq_false', List.mem_cons, not_or, not_false_eq_true, true_and]
        constructor
        · rintro ⟨⟨open_, free⟩, distinct, all⟩
          exact ⟨open_, ⟨fun twice => (all gpu twice).1.1 rfl, distinct⟩, free,
            fun other isOther => ⟨(all other isOther).1.2, (all other isOther).2⟩⟩
        · rintro ⟨open_, ⟨once, distinct⟩, free, all⟩
          exact ⟨⟨open_, free⟩, distinct, fun other isOther =>
            ⟨⟨fun equal => once (equal ▸ isOther), (all other isOther).1⟩, (all other isOther).2⟩⟩

theorem find?_gpu_of_perm (unique : UniqueGpus gpus) (perm : gpus.Perm gpus') (gpu : GpuId) :
    gpus.find? (fun r => r.gpu = gpu) = gpus'.find? fun r => r.gpu = gpu := by
  cases found : gpus.find? fun r => r.gpu = gpu with
  | none =>
    refine (List.find?_eq_none.mpr fun r member => ?_).symm
    exact List.find?_eq_none.mp found r (perm.mem_iff.mpr member)
  | some r =>
    have same := List.find?_some found
    rw [decide_eq_true_eq] at same
    subst same
    have member := perm.mem_iff.mp (List.mem_of_find?_eq_some found)
    exact (find?_gpu (unique.of_perm perm) member).symm

theorem pinnedBlocked_of_perm (unique : UniqueGpus gpus) (perm : gpus.Perm gpus') :
    ∀ pinned seen blocked, pinnedBlocked gpus pinned seen blocked =
      pinnedBlocked gpus' pinned seen blocked
  | [], _, _ => rfl
  | gpu :: pinned, seen, blocked => by
    unfold pinnedBlocked
    rw [find?_gpu_of_perm unique perm]
    simp only [pinnedBlocked_of_perm unique perm pinned]

/-! ## When a request is placed -/

/-- The dimensions that every policy rejects. -/
def Misfit (request : JobRequest) (gpus : List Resource) : Prop :=
  request.workers = 0 ∨ request.workers > gpus.length ∨
    (request.pinned ≠ [] ∧ request.pinned.length ≠ request.workers)

theorem builtinPlace_misfit (misfit : Misfit request gpus) :
    (builtinPlace name seed request gpus).outcome = .rejected := by
  unfold Misfit at misfit
  unfold builtinPlace
  rw [if_pos misfit]

theorem builtinPlace_unpinned (fits : ¬ Misfit request gpus) (unpinned : request.pinned = []) :
    builtinPlace name seed request gpus =
      if (freeGpus gpus).length < request.workers then
        ⟨.waiting, [], "insufficient free healthy GPUs"⟩
      else ⟨.placed, ((order name seed request (freeGpus gpus)).take request.workers).map
        Resource.gpu, name ++ " deterministic rank order"⟩ := by
  unfold Misfit at fits
  unfold builtinPlace
  rw [if_neg fits, if_neg (not_not.mpr unpinned)]
  rfl

theorem builtinPlace_pinned (fits : ¬ Misfit request gpus) (pinned : request.pinned ≠ []) :
    builtinPlace name seed request gpus = placePinned request gpus := by
  unfold Misfit at fits
  unfold builtinPlace
  rw [if_neg fits, if_pos pinned]

theorem placePinned_placed_iff (unique : UniqueGpus gpus) :
    (placePinned request gpus).outcome = .placed ↔
      request.pinned.Nodup ∧ ∀ gpu ∈ request.pinned, Available gpus gpu := by
  have blocked := @pinnedBlocked_eq_false_iff gpus unique request.pinned [] false
  simp only [List.not_mem_nil, not_false_eq_true, true_and] at blocked
  rw [← blocked]
  unfold placePinned
  cases pinnedBlocked gpus request.pinned [] false with
  | none => simp
  | some waits => cases waits <;> simp

theorem placed_unpinned_iff (unpinned : request.pinned = []) :
    (builtinPlace name seed request gpus).outcome = .placed ↔
      1 ≤ request.workers ∧ request.workers ≤ gpus.length ∧
        request.workers ≤ (freeGpus gpus).length := by
  by_cases misfit : Misfit request gpus
  · rw [builtinPlace_misfit misfit]
    simp only [Misfit, unpinned, ne_eq, not_true_eq_false, false_and, or_false] at misfit
    simp only [reduceCtorEq, false_iff]
    omega
  · rw [builtinPlace_unpinned misfit unpinned]
    simp only [Misfit, unpinned, ne_eq, not_true_eq_false, false_and, or_false] at misfit
    split
    · simp only [reduceCtorEq, false_iff]
      omega
    · simp only [true_iff]
      omega

theorem available_subset {workers : List GpuId} (all : ∀ gpu ∈ workers, Available gpus gpu) :
    workers ⊆ gpus.map Resource.gpu := by
  intro gpu member
  obtain ⟨r, isResource, rfl, _⟩ := all gpu member
  exact List.mem_map_of_mem isResource

theorem placed_pinned_iff (unique : UniqueGpus gpus) (pinned : request.pinned ≠ [])
    (size : request.pinned.length = request.workers) :
    (builtinPlace name seed request gpus).outcome = .placed ↔
      request.pinned.Nodup ∧ ∀ gpu ∈ request.pinned, Available gpus gpu := by
  by_cases misfit : Misfit request gpus
  · rw [builtinPlace_misfit misfit]
    simp only [reduceCtorEq, false_iff]
    rintro ⟨distinct, all⟩
    have few := (List.subperm_of_subset distinct (available_subset all)).length_le
    rw [List.length_map, size] at few
    have some := List.length_pos_iff.mpr pinned
    rcases misfit with none | many | ⟨_, other⟩
    · omega
    · omega
    · exact other size
  · rw [builtinPlace_pinned misfit pinned]
    exact placePinned_placed_iff unique

theorem placePinned_workers (placed : (placePinned request gpus).outcome = .placed) :
    (placePinned request gpus).workers = request.pinned := by
  revert placed
  unfold placePinned
  split <;> simp

/-- The pinned GPUs are given in the order in which they were asked for. -/
theorem placed_pinned_workers (pinned : request.pinned ≠ [])
    (placed : (builtinPlace name seed request gpus).outcome = .placed) :
    request.pinned.length = request.workers ∧
      (builtinPlace name seed request gpus).workers = request.pinned := by
  by_cases misfit : Misfit request gpus
  · rw [builtinPlace_misfit misfit] at placed
    cases placed
  · rw [builtinPlace_pinned misfit pinned] at placed ⊢
    simp only [Misfit, not_or, not_and, not_not] at misfit
    exact ⟨misfit.2.2 pinned, placePinned_workers placed⟩

theorem placed_unpinned_workers (unpinned : request.pinned = [])
    (placed : (builtinPlace name seed request gpus).outcome = .placed) :
    (builtinPlace name seed request gpus).workers =
      ((order name seed request (freeGpus gpus)).take request.workers).map Resource.gpu := by
  by_cases misfit : Misfit request gpus
  · rw [builtinPlace_misfit misfit] at placed
    cases placed
  · rw [builtinPlace_unpinned misfit unpinned] at placed ⊢
    split at placed
    · cases placed
    · rw [if_neg ‹_›]

/-- A placement is of as many different free GPUs as there are workers. -/
theorem placed_workers (unique : UniqueGpus gpus)
    (placed : (builtinPlace name seed request gpus).outcome = .placed) :
    (builtinPlace name seed request gpus).workers.length = request.workers ∧
      (builtinPlace name seed request gpus).workers.Nodup ∧
      ∀ gpu ∈ (builtinPlace name seed request gpus).workers, Available gpus gpu := by
  by_cases unpinned : request.pinned = []
  · rw [placed_unpinned_workers unpinned placed]
    have enough := ((placed_unpinned_iff unpinned).mp placed).2.2
    have perm := order_perm name seed request (freeGpus gpus)
    have distinct := unique.freeGpus.of_perm perm.symm
    refine ⟨?_, List.Nodup.sublist ((List.take_sublist _ _).map _) distinct, ?_⟩
    · rw [List.length_map, List.length_take, perm.length_eq]
      exact Nat.min_eq_left enough
    · intro gpu member
      obtain ⟨r, taken, rfl⟩ := List.mem_map.mp member
      obtain ⟨isResource, free⟩ := List.mem_filter.mp (perm.mem_iff.mp (List.mem_of_mem_take taken))
      exact ⟨r, isResource, rfl, free⟩
  · obtain ⟨size, workers⟩ := placed_pinned_workers unpinned placed
    rw [workers]
    exact ⟨size, (placed_pinned_iff unique unpinned size).mp placed⟩

/-- The order in which the resources are listed does not matter. -/
theorem builtinPlace_of_perm (unique : UniqueGpus gpus) (perm : gpus.Perm gpus') :
    builtinPlace name seed request gpus = builtinPlace name seed request gpus' := by
  have free : (freeGpus gpus).Perm (freeGpus gpus') := perm.filter _
  have pinned : placePinned request gpus = placePinned request gpus' := by
    unfold placePinned
    rw [pinnedBlocked_of_perm unique perm]
  have same : order name seed request (freeGpus gpus) = order name seed request (freeGpus gpus') :=
    order_of_perm unique.freeGpus free
  unfold freeGpus at free same
  unfold builtinPlace
  simp only [perm.length_eq, free.length_eq, pinned, same]

/-- The same GPUs, of which some are no longer free. -/
def Busier (gpus gpus' : List Resource) : Prop :=
  List.Forall₂ (fun r r' => r'.gpu = r.gpu ∧ (r'.free = true → r.free = true)) gpus gpus'

theorem Busier.length_eq (busier : Busier gpus gpus') : gpus'.length = gpus.length :=
  (List.Forall₂.length_eq busier).symm

theorem Busier.gpus_eq (busier : Busier gpus gpus') :
    gpus'.map Resource.gpu = gpus.map Resource.gpu := by
  induction busier with
  | nil => rfl
  | cons related _ ih => rw [List.map_cons, List.map_cons, related.1, ih]

theorem Busier.free_length_le (busier : Busier gpus gpus') :
    (freeGpus gpus').length ≤ (freeGpus gpus).length := by
  unfold freeGpus
  induction busier with
  | nil => exact le_rfl
  | @cons r r' rest rest' related _ ih =>
    rw [List.filter_cons, List.filter_cons]
    by_cases free : r'.free = true
    · rw [if_pos free, if_pos (related.2 free)]
      exact Nat.succ_le_succ ih
    · rw [if_neg free]
      split
      · exact ih.trans (Nat.le_succ _)
      · exact ih

theorem Busier.available (busier : Busier gpus gpus') {gpu : GpuId}
    (available : Available gpus' gpu) : Available gpus gpu := by
  induction busier with
  | nil => exact available
  | @cons r r' rest rest' related _ ih =>
    obtain ⟨other, member, same, free⟩ := available
    rcases List.mem_cons.mp member with rfl | member
    · exact ⟨r, List.mem_cons_self .., related.1.symm.trans same, related.2 free⟩
    · obtain ⟨found, isFound, rest⟩ := ih ⟨other, member, same, free⟩
      exact ⟨found, List.mem_cons_of_mem _ isFound, rest⟩

/-- What is placed with fewer free GPUs is placed with more. -/
theorem placed_of_busier (unique : UniqueGpus gpus) (busier : Busier gpus gpus')
    (placed : (builtinPlace name seed request gpus').outcome = .placed) :
    (builtinPlace name seed request gpus).outcome = .placed := by
  have unique' : UniqueGpus gpus' := by
    unfold UniqueGpus
    rw [busier.gpus_eq]
    exact unique
  by_cases unpinned : request.pinned = []
  · rw [placed_unpinned_iff unpinned] at placed ⊢
    rw [busier.length_eq] at placed
    exact ⟨placed.1, placed.2.1, placed.2.2.trans busier.free_length_le⟩
  · have size := (placed_pinned_workers unpinned placed).1
    rw [placed_pinned_iff unique' unpinned size] at placed
    rw [placed_pinned_iff unique unpinned size]
    exact ⟨placed.1, fun gpu member => busier.available (placed.2 gpu member)⟩

end NexusLab.Scheduling
