import NexusLab.Topology.Graph

/-! # State changes keep the structure

An operational state flips in place: every entity stays where its identifier points, and nothing
but its state differs. -/

namespace NexusLab.Topology

section Dense

variable {ε Tag : Type} {idOf : ε → StrongId Tag} {entities : List ε} {id : StrongId Tag} {entity : ε}

theorem findDense_eq_some : findDense idOf entities id = some entity ↔
    entities[id.value]? = some entity ∧ idOf entity = id := by
  unfold findDense
  cases entities[id.value]? with
  | none => simp
  | some found =>
    by_cases same : idOf found = id
    · simp only [same, if_true, Option.some.injEq]
      constructor
      · intro h
        exact ⟨h, h ▸ same⟩
      · intro h
        exact h.1
    · simp only [same, if_false, reduceCtorEq, Option.some.injEq, false_iff, not_and]
      intro h
      exact h ▸ same

theorem findDense_modify {f : ε → ε} (keeps : ∀ entity, idOf (f entity) = idOf entity) (index : Nat) :
    findDense idOf (entities.modify index f) id =
      (findDense idOf entities id).map fun entity => if id.value = index then f entity else entity := by
  unfold findDense
  rw [List.getElem?_modify]
  cases entities[id.value]? with
  | none => rfl
  | some found =>
    by_cases here : index = id.value
    · by_cases same : idOf found = id <;> simp [here, keeps, same]
    · have there : id.value ≠ index := fun h => here h.symm
      by_cases same : idOf found = id <;> simp [here, there, same]

/-- What a change forgets about is all that differs. -/
theorem findDense_modify_erased {α : Type} {f : ε → ε} {erase : ε → α}
    (keeps : ∀ entity, idOf (f entity) = idOf entity)
    (forgets : ∀ entity, erase (f entity) = erase entity) (index : Nat) :
    (findDense idOf (entities.modify index f) id).map erase =
      (findDense idOf entities id).map erase := by
  rw [findDense_modify keeps]
  cases findDense idOf entities id with
  | none => rfl
  | some entity =>
    simp only [Option.map_some]
    split
    · rw [forgets]
    · rfl

/-- An update shows at its identifier only. -/
theorem findDense_updated {f : ε → ε} (keeps : ∀ entity, idOf (f entity) = idOf entity)
    (other : StrongId Tag) : findDense idOf (entities.modify id.value f) other =
      (findDense idOf entities other).map fun entity => if other = id then f entity else entity := by
  rw [findDense_modify keeps]
  simp only [StrongId.value_injective.eq_iff]

/-- An update that changes nothing shows nowhere. -/
theorem findDense_same {f : ε → ε} (found : findDense idOf entities id = some entity)
    (same : f entity = entity) (other : StrongId Tag) : findDense idOf entities other =
      (findDense idOf entities other).map fun entity => if other = id then f entity else entity := by
  by_cases here : other = id
  · subst here
    simp [found, same]
  · simp [here]

end Dense

namespace TopologyGraph

variable {g : TopologyGraph} {state : OperationalState}

/-- Equal but for operational states and the revision. -/
structure SameStructure (before after : TopologyGraph) : Prop where
  gpus : after.gpus = before.gpus
  nics : after.nics = before.nics
  racks : after.racks = before.racks
  gpuAdjacency : after.gpuAdjacency = before.gpuAdjacency
  nicAdjacency : after.nicAdjacency = before.nicAdjacency
  switchAdjacency : after.switchAdjacency = before.switchAdjacency
  switches : ∀ id, (after.findSwitch id).map (fun s => { s with state := .up }) =
    (before.findSwitch id).map fun s => { s with state := .up }
  ports : ∀ id, (after.findPort id).map (fun p => { p with state := .up }) =
    (before.findPort id).map fun p => { p with state := .up }
  links : ∀ id, (after.findLink id).map (fun l => { l with state := .up }) =
    (before.findLink id).map fun l => { l with state := .up }

theorem SameStructure.refl (g : TopologyGraph) : SameStructure g g :=
  ⟨rfl, rfl, rfl, rfl, rfl, rfl, fun _ => rfl, fun _ => rfl, fun _ => rfl⟩

theorem setLinkState_structure (id : LinkId) : SameStructure g (g.setLinkState id state).2 := by
  unfold setLinkState
  cases g.findLink id with
  | none => exact .refl g
  | some link =>
    simp only
    split
    · split
      · exact .refl g
      · refine ⟨rfl, rfl, rfl, rfl, rfl, rfl, fun _ => rfl, fun _ => rfl, fun other => ?_⟩
        exact findDense_modify_erased (by intro _; rfl) (by intro _; rfl) _
    · exact .refl g

theorem setPortState_structure (id : PortId) : SameStructure g (g.setPortState id state).2 := by
  unfold setPortState
  cases g.findPort id with
  | none => exact .refl g
  | some port =>
    simp only
    split
    · split
      · exact .refl g
      · refine ⟨rfl, rfl, rfl, rfl, rfl, rfl, fun _ => rfl, fun other => ?_, fun _ => rfl⟩
        exact findDense_modify_erased (by intro _; rfl) (by intro _; rfl) _
    · exact .refl g

theorem setSwitchState_structure (id : SwitchId) :
    SameStructure g (g.setSwitchState id state).2 := by
  unfold setSwitchState
  cases g.findSwitch id with
  | none => exact .refl g
  | some switch =>
    simp only
    split
    · split
      · exact .refl g
      · refine ⟨rfl, rfl, rfl, rfl, rfl, rfl, fun other => ?_, fun _ => rfl, fun _ => rfl⟩
        exact findDense_modify_erased (by intro _; rfl) (by intro _; rfl) _
    · exact .refl g

/-! A refused change leaves the graph as it is. -/

theorem setLinkState_refused {id : LinkId} (refused : (g.setLinkState id state).1 = false) :
    (g.setLinkState id state).2 = g ∧ (g.findLink id = none ∨ g.operationalRevision = maxU64) := by
  unfold setLinkState at refused ⊢
  cases found : g.findLink id with
  | none => simp
  | some link =>
    simp only [found] at refused ⊢
    by_cases differs : link.state ≠ state
    · by_cases exhausted : g.operationalRevision = maxU64
      · simp [differs, exhausted]
      · simp [differs, exhausted] at refused
    · simp [differs] at refused

theorem setPortState_refused {id : PortId} (refused : (g.setPortState id state).1 = false) :
    (g.setPortState id state).2 = g ∧ (g.findPort id = none ∨ g.operationalRevision = maxU64) := by
  unfold setPortState at refused ⊢
  cases found : g.findPort id with
  | none => simp
  | some port =>
    simp only [found] at refused ⊢
    by_cases differs : port.state ≠ state
    · by_cases exhausted : g.operationalRevision = maxU64
      · simp [differs, exhausted]
      · simp [differs, exhausted] at refused
    · simp [differs] at refused

theorem setSwitchState_refused {id : SwitchId} (refused : (g.setSwitchState id state).1 = false) :
    (g.setSwitchState id state).2 = g ∧
      (g.findSwitch id = none ∨ g.operationalRevision = maxU64) := by
  unfold setSwitchState at refused ⊢
  cases found : g.findSwitch id with
  | none => simp
  | some switch =>
    simp only [found] at refused ⊢
    by_cases differs : switch.state ≠ state
    · by_cases exhausted : g.operationalRevision = maxU64
      · simp [differs, exhausted]
      · simp [differs, exhausted] at refused
    · simp [differs] at refused

/-! A change that is made shows where it was made. -/

theorem findLink_setLinkState {id : LinkId} (done : (g.setLinkState id state).1 = true)
    (other : LinkId) : (g.setLinkState id state).2.findLink other =
      (g.findLink other).map fun link => if other = id then { link with state } else link := by
  unfold setLinkState at done ⊢
  cases found : g.findLink id with
  | none => simp [found] at done
  | some link =>
    simp only [found] at done ⊢
    by_cases differs : link.state ≠ state
    · by_cases exhausted : g.operationalRevision = maxU64
      · simp [differs, exhausted] at done
      · rw [if_pos differs, if_neg exhausted]
        exact findDense_updated (by intro _; rfl) other
    · rw [if_neg differs]
      have same : link.state = state := by simpa using differs
      exact findDense_same found (by rw [← same]) other

theorem findPort_setPortState {id : PortId} (done : (g.setPortState id state).1 = true)
    (other : PortId) : (g.setPortState id state).2.findPort other =
      (g.findPort other).map fun port => if other = id then { port with state } else port := by
  unfold setPortState at done ⊢
  cases found : g.findPort id with
  | none => simp [found] at done
  | some port =>
    simp only [found] at done ⊢
    by_cases differs : port.state ≠ state
    · by_cases exhausted : g.operationalRevision = maxU64
      · simp [differs, exhausted] at done
      · rw [if_pos differs, if_neg exhausted]
        exact findDense_updated (by intro _; rfl) other
    · rw [if_neg differs]
      have same : port.state = state := by simpa using differs
      exact findDense_same found (by rw [← same]) other

theorem findSwitch_setSwitchState {id : SwitchId} (done : (g.setSwitchState id state).1 = true)
    (other : SwitchId) : (g.setSwitchState id state).2.findSwitch other =
      (g.findSwitch other).map fun switch => if other = id then { switch with state } else switch := by
  unfold setSwitchState at done ⊢
  cases found : g.findSwitch id with
  | none => simp [found] at done
  | some switch =>
    simp only [found] at done ⊢
    by_cases differs : switch.state ≠ state
    · by_cases exhausted : g.operationalRevision = maxU64
      · simp [differs, exhausted] at done
      · rw [if_pos differs, if_neg exhausted]
        exact findDense_updated (by intro _; rfl) other
    · rw [if_neg differs]
      have same : switch.state = state := by simpa using differs
      exact findDense_same found (by rw [← same]) other

/-! ## Operational arcs -/

/-- An arc is operational if the entities it rests on are. -/
theorem isOperational_mono {g' : TopologyGraph} {arc : DirectedLink}
    (links : ∀ link, g.findLink arc.id.link = some link → ∃ link',
      g'.findLink arc.id.link = some link' ∧ directedLinks link' = directedLinks link ∧
      (link.state = .up → link'.state = .up))
    (ports : ∀ id port, g.findPort id = some port → ∃ port',
      g'.findPort id = some port' ∧ port'.owner = port.owner ∧
      (port.state = .up → port'.state = .up))
    (nodes : ∀ node, g.nodeIsOperational node = true → g'.nodeIsOperational node = true)
    (up : g.isOperational arc = true) : g'.isOperational arc = true := by
  unfold isOperational at up ⊢
  cases isLink : g.findLink arc.id.link with
  | none => simp [isLink] at up
  | some link =>
    cases isSource : g.findPort arc.source with
    | none => simp [isLink, isSource] at up
    | some source =>
      cases isDestination : g.findPort arc.destination with
      | none => simp [isLink, isSource, isDestination] at up
      | some destination =>
        simp only [isLink, isSource, isDestination, Bool.and_eq_true, decide_eq_true_eq] at up
        obtain ⟨⟨⟨⟨⟨listed, linkUp⟩, sourceUp⟩, destinationUp⟩, sourceNode⟩, destinationNode⟩ := up
        obtain ⟨link', isLink', same, linkUp'⟩ := links link isLink
        obtain ⟨source', isSource', owner, sourceUp'⟩ := ports _ source isSource
        obtain ⟨destination', isDestination', owner', destinationUp'⟩ :=
          ports _ destination isDestination
        simp only [isLink', isSource', isDestination', Bool.and_eq_true, decide_eq_true_eq, same,
          owner, owner']
        exact ⟨⟨⟨⟨⟨listed, linkUp' linkUp⟩, sourceUp' sourceUp⟩, destinationUp' destinationUp⟩,
          nodes _ sourceNode⟩, nodes _ destinationNode⟩

/-- A link that changes concerns its own arcs only, and never by coming up. -/
theorem isOperational_setLinkState {id : LinkId} {arc : DirectedLink}
    (apart : arc.id.link = id → state = .up) (up : g.isOperational arc = true) :
    (g.setLinkState id state).2.isOperational arc = true := by
  cases done : (g.setLinkState id state).1 with
  | false =>
    rw [(setLinkState_refused done).1]
    exact up
  | true =>
    have others : (g.setLinkState id state).2.findPort = g.findPort ∧
        (g.setLinkState id state).2.nodeIsOperational = g.nodeIsOperational := by
      unfold setLinkState
      cases g.findLink id with
      | none => exact ⟨rfl, rfl⟩
      | some link =>
        simp only
        split
        · split <;> exact ⟨rfl, rfl⟩
        · exact ⟨rfl, rfl⟩
    refine isOperational_mono ?_ ?_ ?_ up
    · intro link found
      rw [findLink_setLinkState done, found]
      refine ⟨_, rfl, ?_, ?_⟩
      · split <;> rfl
      · intro linkUp
        split
        · rename_i here
          exact apart here
        · exact linkUp
    · intro port found isPort
      rw [others.1]
      exact ⟨found, isPort, rfl, fun h => h⟩
    · intro node isUp
      rw [others.2]
      exact isUp

theorem isOperational_setLinkState_down {id : LinkId} {arc : DirectedLink}
    (done : (g.setLinkState id .down).1 = true) (here : arc.id.link = id) :
    (g.setLinkState id .down).2.isOperational arc = false := by
  unfold isOperational
  rw [here, findLink_setLinkState done]
  cases g.findLink id with
  | none => rfl
  | some link =>
    simp only [Option.map_some, if_true]
    split
    · rename_i isLink _ _
      cases isLink
      simp
    · rfl

/-- A port that comes up takes no arc down. -/
theorem isOperational_setPortState_up {id : PortId} {arc : DirectedLink}
    (up : g.isOperational arc = true) : (g.setPortState id .up).2.isOperational arc = true := by
  cases done : (g.setPortState id .up).1 with
  | false =>
    rw [(setPortState_refused done).1]
    exact up
  | true =>
    have others : (g.setPortState id .up).2.findLink = g.findLink ∧
        (g.setPortState id .up).2.nodeIsOperational = g.nodeIsOperational := by
      unfold setPortState
      cases g.findPort id with
      | none => exact ⟨rfl, rfl⟩
      | some port =>
        simp only
        split
        · split <;> exact ⟨rfl, rfl⟩
        · exact ⟨rfl, rfl⟩
    refine isOperational_mono ?_ ?_ ?_ up
    · intro link found
      rw [others.1]
      exact ⟨link, found, rfl, fun h => h⟩
    · intro port found isPort
      rw [findPort_setPortState done, isPort]
      refine ⟨_, rfl, ?_, ?_⟩
      · split <;> rfl
      · intro portUp
        split
        · rfl
        · exact portUp
    · intro node isUp
      rw [others.2]
      exact isUp

/-- A switch that comes up takes no arc down. -/
theorem isOperational_setSwitchState_up {id : SwitchId} {arc : DirectedLink}
    (up : g.isOperational arc = true) : (g.setSwitchState id .up).2.isOperational arc = true := by
  cases done : (g.setSwitchState id .up).1 with
  | false =>
    rw [(setSwitchState_refused done).1]
    exact up
  | true =>
    have others : (g.setSwitchState id .up).2.findLink = g.findLink ∧
        (g.setSwitchState id .up).2.findPort = g.findPort ∧
        (g.setSwitchState id .up).2.findGpu = g.findGpu ∧
        (g.setSwitchState id .up).2.findNic = g.findNic := by
      unfold setSwitchState
      cases g.findSwitch id with
      | none => exact ⟨rfl, rfl, rfl, rfl⟩
      | some switch =>
        simp only
        split
        · split <;> exact ⟨rfl, rfl, rfl, rfl⟩
        · exact ⟨rfl, rfl, rfl, rfl⟩
    refine isOperational_mono ?_ ?_ ?_ up
    · intro link found
      rw [others.1]
      exact ⟨link, found, rfl, fun h => h⟩
    · intro port found isPort
      rw [others.2.1]
      exact ⟨found, isPort, rfl, fun h => h⟩
    · intro node isUp
      unfold nodeIsOperational contains at isUp ⊢
      rw [others.2.2.1, others.2.2.2, findSwitch_setSwitchState done]
      obtain ⟨kind, value⟩ := node
      cases kind with
      | gpu => exact isUp
      | nic => exact isUp
      | switch =>
        cases found : g.findSwitch ⟨value⟩ with
        | none => simp [found] at isUp
        | some switch =>
          simp only [found] at isUp
          simp only [Option.map_some]
          by_cases here : (⟨value⟩ : SwitchId) = id
          · simp [here]
          · simpa [here] using isUp

end TopologyGraph

end NexusLab.Topology
