import NexusLab.Collective.Calls
import NexusLab.Workload.Calls

/-! # The engine's executor

The engine is modelled over any executor of collectives that gives each of them an identifier of its
own.  The ring executor, in the states that it can come to, is one. -/

namespace NexusLab.Collective

open Foundation Sim Telemetry Workload

namespace Ring

/-- The collectives are numbered from zero on, as many as there are. -/
def Numbered (r : Ring) : Prop := r.executor.Numbered r.executor.records.size

theorem numbered_of {r : Ring} {count : Nat} (numbered : r.executor.Numbered count) :
    r.Numbered := by
  unfold Numbered
  rw [numbered.1]
  exact numbered

theorem Contained.keeps {α : Type} {m : Action Ring α} (contained : Contained m) :
    Keeps Numbered m := fun r numbered =>
  wp_mono (contained.numbered _ r numbered) (fun _ _ => numbered_of) (fun _ _ => numbered_of)

theorem keeps_submit (request : CollectiveRequest) : Keeps Numbered (submit request) :=
  fun _ numbered => wp_mono (wp_submit_numbered numbered request)
    (fun _ _ accepted => numbered_of accepted.2) (fun _ _ refused => refused.elim fun _ => numbered_of)

section Keeps

variable {α : Type} {m : Action Ring α} {r r' : Ring}

theorem numbered_of_ok (keeps : Keeps Numbered m) (numbered : r.Numbered) {a : α}
    (ok : m r = .ok a r') : r'.Numbered := by
  have numbered' := wp_of_ok (keeps r numbered) ok
  exact numbered'

theorem numbered_of_error (keeps : Keeps Numbered m) (numbered : r.Numbered) {e : Error}
    (thrown : m r = .error e r') : r'.Numbered := by
  have numbered' := wp_of_error (keeps r numbered) thrown
  exact numbered'

end Keeps

end Ring

/-- A ring executor whose collectives are numbered. -/
structure NumberedRing where
  ring : Ring
  numbered : ring.Numbered

namespace NumberedRing

def kernelLens : Lens NumberedRing Kernel where
  get x := x.ring.fabric.network.kernel
  set k x := ⟨Ring.kernelLens.set k x.ring, x.numbered⟩
  get_set _ _ := rfl
  set_get _ := rfl
  set_set _ _ _ := rfl

variable {α : Type} {m : Action Ring α} {x x' : NumberedRing}

def lift (m : Action Ring α) (keeps : Keeps Ring.Numbered m) : Action NumberedRing α := fun x =>
  match h : m x.ring with
  | .ok a r => .ok a ⟨r, Ring.numbered_of_ok keeps x.numbered h⟩
  | .error e r => .error e ⟨r, Ring.numbered_of_error keeps x.numbered h⟩

theorem lift_ok (keeps : Keeps Ring.Numbered m) {a : α} (ok : lift m keeps x = .ok a x') :
    m x.ring = .ok a x'.ring := by
  unfold lift at ok
  split at ok
  · rename_i run
    cases ok
    exact run
  · cases ok

theorem calls_lift (keeps : Keeps Ring.Numbered m) (calls : ThroughCalls Ring.kernelLens m) :
    ThroughCalls kernelLens (lift m keeps) := fun P kept x holds =>
  wp_intro (fun _ _ ok => wp_of_ok (calls P kept x.ring holds) (lift_ok keeps ok))
    (fun _ _ _ => trivial)

/-- The collectives entered so far. -/
def submitted (x : NumberedRing) (id : CollectiveId) : Prop :=
  id.value < x.ring.executor.records.size

end NumberedRing

open NumberedRing in
/-- The executor that the engine has in the source. -/
def ringCollectives : CollectiveExecutor NumberedRing where
  kernel := kernelLens
  graph x := x.ring.graph
  submit request := lift (Ring.submit request) (Ring.keeps_submit request)
  cancel id := lift (Ring.cancel id) (Ring.contained_cancel id).keeps
  submit_calls request := calls_lift _ (Ring.calls_submit request)
  cancel_calls id := calls_lift _ (Ring.contained_cancel id).calls

end NexusLab.Collective

namespace NexusLab.Workload

open Foundation Sim Telemetry Collective NumberedRing

theorem submit_ok {x x' : NumberedRing} {request : CollectiveRequest} {id : CollectiveId}
    (ok : ringCollectives.submit request x = .ok id x') :
    id = ⟨x.ring.executor.records.size⟩ ∧
      x'.ring.executor.records.size = x.ring.executor.records.size + 1 := by
  have submits := lift_ok (Ring.keeps_submit request) ok
  obtain ⟨same, size, _⟩ := wp_of_ok (Ring.wp_submit_numbered x.numbered request) submits
  exact ⟨same, size⟩

theorem cancel_ok {x x' : NumberedRing} {id : CollectiveId}
    (ok : ringCollectives.cancel id x = .ok () x') :
    x'.ring.executor.records.size = x.ring.executor.records.size := by
  have contained := Ring.contained_cancel id
  have cancels := lift_ok contained.keeps ok
  obtain ⟨size, _⟩ := wp_of_ok (contained.numbered _ _ x.numbered) cancels
  exact size

/-- The ring executor gives every collective a number of its own. -/
theorem issues_ring : Issues ringCollectives submitted where
  submit ok := by
    obtain ⟨rfl, size⟩ := submit_ok ok
    unfold submitted
    rw [size]
    exact ⟨lt_irrefl _, Nat.lt_succ_self _⟩
  keeps call id known := by
    cases call with
    | observe => exact known
    | schedule => exact known
    | cancelEvent => exact known
    | submit ok =>
      unfold submitted at known ⊢
      rw [(submit_ok ok).2]
      exact Nat.lt_succ_of_lt known
    | cancel ok =>
      unfold submitted at known ⊢
      rwa [cancel_ok ok]

end NexusLab.Workload
