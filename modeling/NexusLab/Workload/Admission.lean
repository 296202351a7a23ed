import NexusLab.Scheduling.Inventory
import NexusLab.Scheduling.Locality
import NexusLab.Workload.Engine

/-! # Placements that the engine admits

The engine and its inventory check again what a policy answers.  The answers of the built-in policies
pass, up to the limits on what the engine keeps on record. -/

namespace NexusLab.Workload

open Foundation Scheduling

namespace WorkloadEngine

variable {X : Type} {name : String} {seed : Nat} {policy : SchedulingPolicy}

theorem place_of_makePolicy (builtin : makePolicy name seed = .ok policy) (request : JobRequest)
    (gpus : List Resource) :
    policy.place request gpus = .ok (builtinPlace name seed request gpus) := by
  unfold makePolicy at builtin
  split at builtin
  · cases builtin
  · cases builtin
    rfl

theorem name_of_makePolicy (builtin : makePolicy name seed = .ok policy) :
    name = "first-fit" ∨ name = "random" ∨ name = "rack-local" ∨ name = "compact" := by
  unfold makePolicy at builtin
  split at builtin
  · cases builtin
  · rename_i known
    simpa only [ne_eq, not_and_or, not_not] using known

/-- The reasons that the policies give are neither empty nor long. -/
theorem reason_fits (builtin : makePolicy name seed = .ok policy) {request : JobRequest}
    {gpus : List Resource} : (builtinPlace name seed request gpus).reason ≠ "" ∧
      (builtinPlace name seed request gpus).reason.length ≤ 256 := by
  have named : name ++ " deterministic rank order" ≠ "" ∧
      (name ++ " deterministic rank order").length ≤ 256 := by
    rcases name_of_makePolicy builtin with rfl | rfl | rfl | rfl <;> decide
  unfold builtinPlace
  split
  · decide
  · split
    · unfold placePinned
      split <;> dsimp only <;> decide
    · simp only
      split
      · decide
      · exact named

/-- Only a placement has workers. -/
theorem workers_of_not_placed {request : JobRequest} {gpus : List Resource}
    (other : (builtinPlace name seed request gpus).outcome ≠ .placed) :
    (builtinPlace name seed request gpus).workers = [] := by
  revert other
  unfold builtinPlace placePinned
  split
  · simp
  · split
    · split <;> simp
    · simp only
      split <;> simp

/-- The engine accepts the answer of a built-in policy. -/
theorem checkPlacement_ok (builtin : makePolicy name seed = .ok policy) {record : Record}
    {gpus : List Resource} (unique : UniqueGpus gpus) :
    checkPlacement record (builtinPlace name seed (request record) gpus) = .ok () := by
  obtain ⟨some_, short⟩ := @reason_fits name seed policy builtin (request record) gpus
  unfold checkPlacement
  rw [if_neg (by
    rintro (none | long | ⟨other, workers⟩)
    · exact some_ none
    · omega
    · exact workers (workers_of_not_placed other))]
  refine if_neg ?_
  rintro ⟨placed, size | ⟨pinned, differ⟩⟩
  · exact size (placed_workers unique placed).1
  · exact differ (placed_pinned_workers pinned placed).2

/-- A placement within the limit on allocations is allocated to a job that has no GPU. -/
theorem allocate_placed {configuration : Configuration} {inventory : ResourceInventory}
    {job : JobId} {placement : Placement} (ordered : Ordered inventory.gpus)
    (placed : placement.outcome = .placed) (some_ : placement.workers ≠ [])
    (distinct : placement.workers.Nodup)
    (all : ∀ gpu ∈ placement.workers, Available inventory.gpus gpu)
    (first : ∀ r ∈ inventory.gpus, r.owner ≠ some job) (w : Working X)
    (room : placement.workers.length ≤
      U64.sub configuration.allocationEntries w.engine.allocationEntries) :
    ∃ given w', allocate configuration inventory job placement w = .ok given w' := by
  obtain ⟨inventory', allocated⟩ := ResourceInventory.allocate_ok ordered some_ distinct all first
  have ordered' := ResourceInventory.allocate_ordered ordered allocated
  have known : ∀ gpu ∈ placement.workers, gpu ∈ inventory'.gpus.map Resource.gpu := by
    rw [ResourceInventory.allocate_gpus allocated]
    exact available_subset all
  obtain ⟨chosen, isChosen, members⟩ := resources_of_known known
  obtain ⟨l, isLocality, _⟩ := locality_ok ordered'.unique members
  rw [isChosen] at isLocality
  refine ⟨(inventory', l), { w with engine := { w.engine with
    inventory := some inventory'
    allocationEntries := w.engine.allocationEntries + placement.workers.length } },
    eq_ok_of_wp ?_⟩
  unfold allocate
  rw [if_pos placed]
  simp only [allocated, fromExcept_of_ok, pure_bind, isLocality]
  rw [wp_bind, wp_get, wp_bind, wp_throwIf]
  refine ⟨fun excess => absurd room (not_le.mpr excess), fun _ => ?_⟩
  rw [wp_bind, modifyEngine, wp_modify, wp_pure]
  exact ⟨rfl, rfl⟩

/-- What the built-in policies answer.  They place what fits, on different free GPUs and whatever the
order of the view; more GPUs that are taken place nothing more; and what they place is allocated and
passes the engine's checks when the job has no GPU yet and the limit on allocations leaves room. -/
theorem placement_valid (builtin : makePolicy name seed = .ok policy) {gpus : List Resource}
    (unique : UniqueGpus gpus) (request : JobRequest) :
    ∃ placement, policy.place request gpus = .ok placement ∧
      (request.pinned = [] → (placement.outcome = .placed ↔ 1 ≤ request.workers ∧
        request.workers ≤ gpus.length ∧ request.workers ≤ (freeGpus gpus).length)) ∧
      (request.pinned ≠ [] → request.pinned.length = request.workers →
        (placement.outcome = .placed ↔
          request.pinned.Nodup ∧ ∀ gpu ∈ request.pinned, Available gpus gpu) ∧
        (placement.outcome = .placed → placement.workers = request.pinned)) ∧
      (placement.outcome = .placed → placement.workers.length = request.workers ∧
        placement.workers.Nodup ∧ ∀ gpu ∈ placement.workers, Available gpus gpu) ∧
      (∀ record : Record, WorkloadEngine.request record = request →
        checkPlacement record placement = .ok ()) ∧
      (placement.outcome = .placed → ∀ (inventory : ResourceInventory), inventory.gpus = gpus →
        Ordered gpus → (∀ r ∈ gpus, r.owner ≠ some request.job) →
        ∀ (configuration : Configuration) (w : Working X), placement.workers.length ≤
            U64.sub configuration.allocationEntries w.engine.allocationEntries →
          ∃ given w', allocate configuration inventory request.job placement w = .ok given w') ∧
      (∀ gpus', gpus.Perm gpus' → policy.place request gpus' = .ok placement) ∧
      (placement.outcome = .waiting → ∀ gpus', Busier gpus gpus' → ∃ placement',
        policy.place request gpus' = .ok placement' ∧ placement'.outcome ≠ .placed) := by
  have place := place_of_makePolicy builtin request
  refine ⟨_, place gpus, placed_unpinned_iff, ?_, placed_workers unique, ?_, ?_, ?_, ?_⟩
  · intro pinned size
    exact ⟨placed_pinned_iff unique pinned size, fun placed =>
      (placed_pinned_workers pinned placed).2⟩
  · intro record same
    rw [← same]
    exact checkPlacement_ok builtin unique
  · intro placed inventory sameGpus ordered first configuration w room
    subst sameGpus
    obtain ⟨size, distinct, all⟩ := placed_workers unique placed
    have some_ : (builtinPlace name seed request inventory.gpus).workers ≠ [] := by
      intro none
      rw [none] at size
      have misfit : Misfit request inventory.gpus := .inl size.symm
      rw [builtinPlace_misfit misfit] at placed
      cases placed
    exact allocate_placed ordered placed some_ distinct all first w room
  · intro gpus' perm
    rw [place gpus', builtinPlace_of_perm unique perm]
  · intro waits gpus' busier
    refine ⟨_, place gpus', fun placed => ?_⟩
    rw [placed_of_busier unique busier placed] at waits
    cases waits

/-- Two free GPUs, and then as the allocation of a job. -/
def idlePair : List Resource := [⟨⟨0⟩, ⟨0⟩, ⟨0⟩, true, none⟩, ⟨⟨1⟩, ⟨0⟩, ⟨0⟩, true, none⟩]

theorem placement_valid_idlePair : ∃ policy, makePolicy "first-fit" 42 = .ok policy ∧
    ∃ placement, policy.place pairRequest idlePair = .ok placement ∧
      placement.outcome = .placed ∧ placement.workers.length = 2 ∧ placement.workers.Nodup ∧
      policy.place pairRequest idlePair.reverse = .ok placement ∧
      ∃ given w', allocate {} ⟨idlePair⟩ pairRequest.job placement (⟨{}, ()⟩ : Working Unit) =
        .ok given w' := by
  have unique : UniqueGpus idlePair := by decide
  have ordered : Ordered idlePair := by decide
  obtain ⟨placement, isPlacement, unpinned, _, placed, _, allocated, anyOrder, _⟩ :=
    @placement_valid Unit "first-fit" 42 _ rfl idlePair unique pairRequest
  have fits : placement.outcome = .placed := (unpinned rfl).mpr (by decide)
  obtain ⟨size, distinct, _⟩ := placed fits
  have given := allocated fits ⟨idlePair⟩ rfl ordered (by decide) {} ⟨{}, ()⟩ (by rw [size]; decide)
  exact ⟨_, rfl, placement, isPlacement, fits, size, distinct,
    anyOrder _ (List.reverse_perm _).symm, given⟩

/-- The limit on allocations refuses what a built-in policy has placed, and so does the inventory for
a job that has a GPU already. -/
theorem placement_limits :
    builtinPlace "first-fit" 42 pairRequest idlePair =
      ⟨.placed, [⟨0⟩, ⟨1⟩], "first-fit deterministic rank order"⟩ ∧
    allocate { allocationEntries := 1 } ⟨idlePair⟩ pairRequest.job
        (builtinPlace "first-fit" 42 pairRequest idlePair) ⟨{}, ()⟩ =
      .error (.lengthError "scheduler allocation record limit exceeded") ⟨{}, ()⟩ ∧
    (builtinPlace "first-fit" 42 ⟨⟨0⟩, 1, 0, []⟩
      [⟨⟨0⟩, ⟨0⟩, ⟨0⟩, true, some ⟨0⟩⟩, ⟨⟨1⟩, ⟨0⟩, ⟨0⟩, true, none⟩]).outcome = .placed ∧
    ResourceInventory.allocate ⟨0⟩ [⟨1⟩]
        ⟨[⟨⟨0⟩, ⟨0⟩, ⟨0⟩, true, some ⟨0⟩⟩, ⟨⟨1⟩, ⟨0⟩, ⟨0⟩, true, none⟩]⟩ =
      .error (.invalidArgument "invalid or duplicate allocation") := by
  refine ⟨by decide, ?_, by decide, by decide⟩
  have placed : builtinPlace "first-fit" 42 pairRequest idlePair =
    ⟨.placed, [⟨0⟩, ⟨1⟩], "first-fit deterministic rank order"⟩ := by decide
  rw [placed]
  rfl

end WorkloadEngine

end NexusLab.Workload
