import NexusLab.Workload.Standing

/-! # The course of the books

Between the moves the engine enters new jobs, notes the health of GPUs, hands snapshots over and
remembers that a pass of admission is to come; and the rest of the program goes its own way.  What each
of these changes keeps holds all along. -/

namespace NexusLab.Workload

open Foundation Sim Telemetry Collective Scheduling NexusLab.Topology

/-! ## Changes -/

/-- One change of the books, and the snapshots that are handed over by it. -/
inductive Change (d : Desk) : List JobSnapshot → Desk → Prop where
  | moved {job : JobId} {d' : Desk} (move : Move job d d') : Change d [] d'
  | flagged (pending : Bool) :
    Change d [] { d with engine := { d.engine with admissionPending := pending } }
  | sensed {gpu : GpuId} {healthy : Bool} {owner : Option JobId}
    {inventory inventory' : ResourceInventory} (isInventory : d.engine.inventory = some inventory)
    (set : inventory.setHealth gpu healthy = .ok (owner, inventory')) :
    Change d [] { d with engine := { d.engine with inventory := some inventory' } }
  | entered {record : Record} {workerEntries eventEntries : Nat} {sim' : Simulation}
    (fresh : d.engine.jobs.find? record.id = none) (state : record.state = .scheduled)
    (settled : record.Settled sim') (measured : record.Measured) (accepted : record.Accepted)
    (sized : d.engine.inventory = none → record.spec.workers.length = record.spec.compute.length)
    (evolves : Evolves d.sim sim') :
    Change d [] { d with
      engine := { d.engine with
        workerEntries, eventEntries, jobs := d.engine.jobs.insert record.id record }
      sim := sim' }
  | took : Change d d.engine.completed { d with engine := { d.engine with completed := [] } }
  | passed {sim' : Simulation} (onward : Onward d.sim sim') (word : sim'.now ≤ maxU64) :
    Change d [] { d with sim := sim' }

/-- One change after the other. -/
inductive Course (start : Desk) : List JobSnapshot → Desk → Prop where
  | refl : Course start [] start
  | tail {handed more : List JobSnapshot} {d d' : Desk} (before : Course start handed d)
    (change : Change d more d') : Course start (handed ++ more) d'

namespace Course

variable {d d' d'' : Desk} {handed more : List JobSnapshot}

theorem trans (first : Course d handed d') (second : Course d' more d'') :
    Course d (handed ++ more) d'' := by
  induction second with
  | refl => simpa using first
  | tail _ change ih => simpa using ih.tail change

theorem next (first : Course d handed d') (change : Change d' [] d'') : Course d handed d'' := by
  simpa using first.tail change

theorem of_moves {job : JobId} (moves : Relation.ReflTransGen (Move job) d d') : Course d [] d' := by
  induction moves with
  | refl => exact .refl
  | tail _ move ih => exact ih.next (.moved move)

end Course

/-! ## What all changes keep -/

section Keep

variable {d d' : Desk} {handed : List JobSnapshot}

theorem Record.Settled.unassigned {record : Record} {sim : Simulation}
    (settled : record.Settled sim) (state : record.state = .scheduled) : record.Unplaced := by
  cases settled with
  | scheduled _ unplaced => exact unplaced
  | waiting _ unplaced => exact unplaced
  | training training =>
    rcases training.active with active | active | active <;> rw [state] at active <;> cases active
  | ended terminal => rw [state] at terminal; cases terminal

/-- The jobs and the collectives stay as they are. -/
theorem Sound.apart (sound : Sound d) (jobs : d'.engine.jobs = d.engine.jobs)
    (collectives : d'.engine.collectives = d.engine.collectives)
    (inventory : d'.engine.inventory = none → d.engine.inventory = none)
    (onward : Onward d.sim d'.sim) (word : d'.sim.now ≤ maxU64) : Sound d' where
  valid := onward.valid
  word := word
  named isRecord := sound.named (jobs ▸ isRecord)
  measured isRecord := sound.measured (jobs ▸ isRecord)
  accepted isRecord := sound.accepted (jobs ▸ isRecord)
  staged isRecord := (sound.staged (jobs ▸ isRecord)).onward onward
  sized isRecord unassigned alone := sound.sized (jobs ▸ isRecord) unassigned (inventory alone)
  owners id job := by rw [collectives, jobs]; exact sound.owners id job

theorem Change.sound (change : Change d handed d') (sound : Sound d) : Sound d' := by
  have stays := Onward.refl sound.valid
  cases change with
  | moved move => exact move.sound sound
  | flagged pending => exact sound.apart rfl rfl id stays sound.word
  | sensed isInventory set => exact sound.apart rfl rfl nofun stays sound.word
  | took => exact sound.apart rfl rfl id stays sound.word
  | passed onward word => exact sound.apart rfl rfl id onward word
  | @entered record _ _ sim' fresh state settled measured accepted sized evolves =>
    have onward := Onward.of_evolves sound.valid evolves
    have unplaced := settled.unassigned state
    have cases_ : ∀ {job r}, (d.engine.jobs.insert record.id record).find? job = some r →
        job = record.id ∧ r = record ∨ job ≠ record.id ∧ d.engine.jobs.find? job = some r :=
      OrderedMap.find?_insert_cases
    refine ⟨onward.valid, evolves.now.le.trans sound.word, fun isRecord => ?_, fun isRecord => ?_,
      fun isRecord => ?_, fun isRecord => ?_, fun isRecord unassigned alone => ?_, fun id job => ?_⟩
    · rcases cases_ isRecord with ⟨rfl, rfl⟩ | ⟨_, old⟩
      · rfl
      · exact sound.named old
    · rcases cases_ isRecord with ⟨rfl, rfl⟩ | ⟨_, old⟩
      · exact measured
      · exact sound.measured old
    · rcases cases_ isRecord with ⟨rfl, rfl⟩ | ⟨_, old⟩
      · exact accepted
      · exact sound.accepted old
    · rcases cases_ isRecord with ⟨rfl, rfl⟩ | ⟨_, old⟩
      · exact .settled settled
      · exact (sound.staged old).onward onward
    · rcases cases_ isRecord with ⟨rfl, rfl⟩ | ⟨_, old⟩
      · exact sized alone
      · exact sound.sized old unassigned alone
    · -- a job that is only scheduled has no collective
      refine (sound.owners id job).trans (exists_congr fun r => and_congr_left fun active => ?_)
      constructor
      · intro old
        have other : job ≠ record.id := fun same => by rw [same, fresh] at old; cases old
        exact (OrderedMap.find?_insert_of_ne _ _ other).trans old
      · intro isRecord
        rcases cases_ isRecord with ⟨rfl, rfl⟩ | ⟨_, old⟩
        · exact absurd (unplaced.inactive.symm.trans active) nofun
        · exact old

/-- Whoever has which GPU, and the order of the inventory, stay as they are. -/
theorem Exclusive.apart {engine engine' : WorkloadEngine} (exclusive : Exclusive engine)
    (holds : ∀ job gpu, engine'.Holds job gpu ↔ engine.Holds job gpu)
    (assignments : engine'.assignments = engine.assignments)
    (inventory : ∀ inventory', engine'.inventory = some inventory' → ∃ inventory,
      engine.inventory = some inventory ∧ (Ordered inventory.gpus → Ordered inventory'.gpus) ∧
      ∀ gpu job, (∃ r ∈ inventory'.gpus, r.gpu = gpu ∧ r.owner = some job) ↔
        ∃ r ∈ inventory.gpus, r.gpu = gpu ∧ r.owner = some job) : Exclusive engine' := by
  refine ⟨fun gpu job => ?_, fun inventory' isInventory => ?_, fun inventory' isInventory gpu job => ?_⟩
  · rw [assignments, holds]
    exact exclusive.assignments gpu job
  · obtain ⟨known, isKnown, ordered, _⟩ := inventory inventory' isInventory
    exact ordered (exclusive.ordered known isKnown)
  · obtain ⟨known, isKnown, _, owned⟩ := inventory inventory' isInventory
    rw [owned, holds]
    exact exclusive.owners known isKnown gpu job

theorem Change.exclusive (change : Change d handed d') (sound : Sound d)
    (exclusive : Exclusive d.engine) : Exclusive d'.engine := by
  have same : ∀ inventory', d.engine.inventory = some inventory' → ∃ inventory,
      d.engine.inventory = some inventory ∧ (Ordered inventory.gpus → Ordered inventory'.gpus) ∧
      ∀ gpu job, (∃ r ∈ inventory'.gpus, r.gpu = gpu ∧ r.owner = some job) ↔
        ∃ r ∈ inventory.gpus, r.gpu = gpu ∧ r.owner = some job :=
    fun inventory' isInventory => ⟨inventory', isInventory, fun ordered => ordered, fun _ _ => .rfl⟩
  cases change with
  | moved move => exact move.exclusive sound exclusive
  | flagged pending => exact exclusive.apart (fun _ _ => .rfl) rfl same
  | took => exact exclusive.apart (fun _ _ => .rfl) rfl same
  | passed onward word => exact exclusive
  | @sensed gpu healthy owner inventory inventory' isInventory set =>
    refine exclusive.apart (fun _ _ => .rfl) rfl fun inventory'' isNew => ?_
    cases isNew
    have ordered := exclusive.ordered inventory isInventory
    obtain ⟨_, gpus⟩ := ResourceInventory.setHealth_eq ordered set
    refine ⟨inventory, isInventory, fun ordered => ResourceInventory.setHealth_ordered ordered set,
      fun gpu' job => ?_⟩
    rw [gpus]
    -- the health of a GPU says nothing about its owner
    constructor
    · rintro ⟨r', member, isGpu, owned⟩
      obtain ⟨r, isResource, rfl⟩ := List.mem_map.mp member
      refine ⟨r, isResource, ?_⟩
      split at isGpu <;> split at owned <;> exact ⟨isGpu, owned⟩
    · rintro ⟨r, isResource, isGpu, owned⟩
      refine ⟨_, List.mem_map_of_mem isResource, ?_⟩
      split <;> exact ⟨isGpu, owned⟩
  | @entered record _ _ sim' fresh state settled measured accepted sized evolves =>
    have unplaced := settled.unassigned state
    refine exclusive.apart (fun job gpu => ?_) rfl same
    refine exists_congr fun r => and_congr_left fun holds => ?_
    constructor
    · intro isRecord
      rcases OrderedMap.find?_insert_cases isRecord with ⟨rfl, rfl⟩ | ⟨_, old⟩
      · exact absurd holds (unplaced.holds gpu)
      · exact old
    · intro old
      have other : job ≠ record.id := fun same => by rw [same, fresh] at old; cases old
      exact (OrderedMap.find?_insert_of_ne _ _ other).trans old

end Keep

end NexusLab.Workload
