import NexusLab.Sim.KernelRuns

/-! # What is expected of an event

An event that was asked for is looked for under its identifier.  It may be cancelled, but whenever it
comes it is as it was asked for, and no step of the kernel changes this (`Onward`). -/

namespace NexusLab.Sim

open Foundation

/-- The event of this identifier, if it is still to come or is dispatched, is as it was asked for. -/
structure Expects (sim : Simulation) (id : EventId) (specification : EventSpec) : Prop where
  issued : sim.eventIds.Issued id.value
  live : ∀ event, sim.Live event → event.id = id → eventSpecification event = specification
  current : ∀ event, sim.currentEvent = some event → event.id = id →
    eventSpecification event = specification

/-- Time has not gone back, and what was expected still is. -/
structure Onward (sim sim' : Simulation) : Prop where
  valid : sim'.Valid
  now : sim.now ≤ sim'.now
  expects : ∀ {id specification}, Expects sim id specification → Expects sim' id specification

variable {sim sim' sim'' : Simulation} {id : EventId} {specification : EventSpec}

theorem Promised.expects (promised : Promised id specification sim) :
    Expects sim id specification where
  issued := promised.issued
  live event live same := promised.queued event live.1 same
  current := promised.current

namespace Onward

theorem refl (valid : sim.Valid) : Onward sim sim := ⟨valid, le_rfl, id⟩

theorem trans (first : Onward sim sim') (second : Onward sim' sim'') : Onward sim sim'' where
  valid := second.valid
  now := first.now.trans second.now
  expects expected := second.expects (first.expects expected)

/-- A step that starts no event. -/
theorem of_passes (passes : Passes sim none sim') (now : sim'.now = sim.now)
    (current : ∀ event, sim'.currentEvent = some event → sim.currentEvent = some event) :
    Onward sim sim' where
  valid := passes.valid
  now := now.ge
  expects expected :=
    { issued := passes.issued expected.issued
      live := fun event live same =>
        expected.live event (passes.live live (same ▸ expected.issued)) same
      current := fun event isCurrent same => expected.current event (current event isCurrent) same }

theorem of_evolves (valid : sim.Valid) (evolves : Evolves sim sim') : Onward sim sim' :=
  .of_passes (.of_evolves valid evolves) evolves.now fun _ isCurrent =>
    evolves.currentEvent ▸ isCurrent

/-- A step that starts an event, which was to come. -/
theorem of_started {event : Event} (valid : sim.Valid) (started : Kernel.Started sim event sim')
    (issued : ∀ {value}, sim.eventIds.Issued value → sim'.eventIds.Issued value)
    (now : sim'.now = event.timestamp) (current : sim'.currentEvent = some event) :
    Onward sim sim' where
  valid := started.valid
  now := (valid.future event started.live.1).trans_eq now.symm
  expects expected :=
    { issued := issued expected.issued
      live := fun other live same => expected.live other ((started.remaining other).mp live).1 same
      current := fun other isCurrent same => by
        rw [current] at isCurrent
        cases isCurrent
        exact expected.live event started.live same }

end Onward

/-- Every step of the kernel goes onward. -/
theorem KernelStep.onward {k k' : Kernel} {started : Option Event} (step : KernelStep k started k')
    (valid : k.sim.Valid) : Onward k.sim k'.sim := by
  have calls := callKept_evolves valid
  have called : ∀ {α : Type} {a : α} {m : Action Kernel α},
      Preserves (fun after : Kernel => Evolves k.sim after.sim) m → m k = .ok a k' →
      Onward k.sim k'.sim := by
    intro α a m kept ok
    have evolves := kept k (.refl _)
    unfold wp at evolves
    rw [ok] at evolves
    exact .of_evolves valid evolves
  cases step with
  | schedule ok => exact called (calls.schedule _) ok
  | cancel ok => exact called (calls.cancel _) ok
  | stop ok => exact called (calls.stop _) ok
  | randomU64 ok => exact called calls.randomU64 ok
  | randomBelow ok => exact called (calls.randomBelow _) ok
  | observe ok =>
    have same : k'.sim = k.sim := wp_of_ok (Q := fun _ k' => k'.sim = k.sim)
      (Kernel.wp_observe (E := fun _ _ => True) (fun _ _ => rfl) (fun _ _ _ _ => trivial)) ok
    exact same.symm ▸ .refl valid
  | beginRun ok =>
    have passes := (KernelStep.beginRun ok).passes valid
    obtain ⟨_, _, checked, rest⟩ := ok_of_bind ok
    cases checked
    obtain ⟨_, _, created, rest⟩ := ok_of_bind rest
    obtain ⟨_, rfl⟩ := throwIf_ok created
    cases rest
    exact .of_passes passes rfl fun _ isCurrent => isCurrent
  | startNext ok =>
    refine wp_of_ok (Q := fun _ k' => Onward k.sim k'.sim)
      (Kernel.wp_startNext (E := fun _ _ => True) valid (fun _ _ _ => ?_) (fun _ _ _ _ _ _ begun => ?_)
        (fun _ _ _ _ => trivial)) ok
    · exact .of_passes ⟨valid.drained, id, fun live _ => absurd live.1 List.not_mem_nil, nofun⟩ rfl
        fun _ isCurrent => isCurrent
    · exact .of_started valid begun id rfl rfl
  | endDispatch ok =>
    have passes := (KernelStep.endDispatch ok).passes valid
    cases ok
    exact .of_passes passes rfl nofun
  | finish ok =>
    refine wp_of_ok (Q := fun _ k' => Onward k.sim k'.sim) (Kernel.wp_finish
      (E := fun _ _ => True) (fun _ _ => ?_) (fun _ _ _ _ _ => trivial)) ok
    exact .of_passes (.of_same_queue ⟨valid.pending, valid.unique, valid.cancelled_subset,
      valid.future, valid.issued, nofun⟩ rfl rfl rfl) rfl nofun

theorem KernelRun.onward {start k : Kernel} {dispatched : List Event}
    (run : KernelRun start dispatched k) (valid : start.sim.Valid) : Onward start.sim k.sim := by
  induction run with
  | refl => exact .refl valid
  | tail before step ih => exact ih.trans (step.onward (before.valid valid))

end NexusLab.Sim
