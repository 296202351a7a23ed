import NexusLab.Sim.TraceHash
import NexusLab.Workload.Model

/-! # The digest of a run's outcome

The digest hashes everything a report says about the run, apart from the hash of the trace and from
telemetry.  The bytes it is fed determine all of that, and one different byte makes a different
digest. -/

namespace NexusLab.Workload

open Foundation Sim Collective NexusLab.Topology Routing Scheduling

/-! ## The builder -/

structure DigestBuilder where
  hash : UInt64 := fnvOffsetBasis
deriving DecidableEq

namespace DigestBuilder

/-- Hashes so many bytes, one after another. -/
def feed (digest : DigestBuilder) (bytes : List UInt8) : DigestBuilder :=
  ⟨bytes.foldl Sim.hashByte digest.hash⟩

def add (digest : DigestBuilder) (value : Nat) : DigestBuilder := digest.feed (encodeU64 value)

def addBool (digest : DigestBuilder) (value : Bool) : DigestBuilder := digest.add value.toNat

def addText (digest : DigestBuilder) (value : String) : DigestBuilder :=
  (digest.add (textBytes value).length).feed (textBytes value)

/-- Whether there is a value, and then the value. -/
def addOptional {α : Type} (append : DigestBuilder → α → DigestBuilder) (digest : DigestBuilder)
    (value : Option α) : DigestBuilder :=
  let digest := digest.addBool value.isSome
  match value with
  | none => digest
  | some value => append digest value

def addRange {α : Type} (append : DigestBuilder → α → DigestBuilder) (digest : DigestBuilder)
    (values : List α) : DigestBuilder :=
  values.foldl append (digest.add values.length)

def addId {Tag : Type} (digest : DigestBuilder) (id : StrongId Tag) : DigestBuilder :=
  digest.add id.value

end DigestBuilder

open DigestBuilder

def addStopReason (digest : DigestBuilder) (reason : StopReason) : DigestBuilder :=
  digest.add reason.value.toNat

def addSimulation (digest : DigestBuilder) (result : SimulationResult) : DigestBuilder :=
  let digest := digest.add result.status.value
  let digest := addOptional addStopReason digest result.stopReason
  let digest := digest.add result.finalTime
  let digest := digest.add result.dispatchedEvents
  let digest := digest.add result.cancelledEvents
  let digest := digest.add result.pendingEvents
  let digest := digest.add result.rngDrawCount
  addOptional addText digest result.error

def addJob (digest : DigestBuilder) (job : JobSnapshot) : DigestBuilder :=
  let digest := digest.addId job.id
  let digest := digest.add job.state.value
  let digest := digest.add job.completedSteps
  let digest := digest.add job.arrival
  let digest := addOptional add digest job.finished
  let digest := digest.add job.computeGpuNs
  let digest := digest.add job.idleGpuNs
  let digest := digest.add job.elapsedNs
  let digest := digest.addText job.reason
  let digest := addOptional add digest job.allocatedAt
  digest.add job.waitingNs

def addJobTimeline (digest : DigestBuilder) (entry : JobTimeline) : DigestBuilder :=
  let digest := digest.addId entry.job
  let digest := digest.add entry.timestamp
  let digest := digest.add entry.state.value
  let digest := digest.add entry.step
  let digest := digest.add entry.bucket
  let digest := digest.addText entry.action
  addOptional addId digest entry.collective

def addCollective (digest : DigestBuilder) (result : CollectiveResult) : DigestBuilder :=
  let digest := digest.addId result.id
  let digest := digest.add result.outcome.value
  let digest := digest.add result.started
  let digest := digest.add result.finished
  let digest := digest.add result.plannedBytes
  let digest := digest.add result.issuedFabricBytes
  let digest := digest.add result.issuedLocalBytes
  let digest := digest.add result.deliveredBytes
  digest.addText result.reason

def addCollectiveTimeline (digest : DigestBuilder) (entry : CollectiveTimeline) : DigestBuilder :=
  let digest := digest.addId entry.id
  let digest := digest.add entry.timestamp
  let digest := digest.add entry.phase.value
  digest.add entry.round

def addNode (digest : DigestBuilder) (node : NodeId) : DigestBuilder :=
  let digest := digest.add node.kind.value
  digest.add node.value

def addLink (digest : DigestBuilder) (link : DirectedLinkId) : DigestBuilder :=
  let digest := digest.addId link.link
  digest.add link.direction.value

def addRoute (digest : DigestBuilder) (decision : RouteDecision) : DigestBuilder :=
  let digest := digest.add decision.request.flow
  let digest := addNode digest decision.request.endpoints.source
  let digest := addNode digest decision.request.endpoints.destination
  let digest := digest.add decision.request.bytes
  let digest := digest.add decision.request.maximumChunkBytes
  let digest := digest.addText decision.policy
  let digest := digest.add decision.version
  let digest := digest.add decision.timestamp
  let digest := digest.add decision.operationalRevision
  let digest := digest.add decision.candidates
  let digest := addRange addLink digest decision.path
  let digest := digest.add decision.score
  let digest := digest.addText decision.reason
  addOptional addId digest decision.transfer

def addPlacement (digest : DigestBuilder) (decision : PlacementDecision) : DigestBuilder :=
  let digest := digest.addId decision.job
  let digest := digest.add decision.timestamp
  let digest := digest.addText decision.policy
  let digest := digest.add decision.version
  let digest := digest.add decision.priority
  let digest := digest.add decision.requestedWorkers
  let digest := digest.add decision.outcome.value
  let digest := addRange addId digest decision.workers
  let digest := digest.addText decision.reason
  let digest := digest.add decision.locality.racks
  let digest := digest.add decision.locality.nics
  let digest := digest.add decision.locality.crossRackRingEdges
  let digest := digest.add decision.fragmentationBefore
  digest.add decision.fragmentationAfter

def domainOutcomeDigest (report : TrainingReport) : UInt64 :=
  let digest : DigestBuilder := {}
  let digest := addSimulation digest report.simulation
  let digest := addRange addJob digest report.jobs
  let digest := addRange addJobTimeline digest report.timeline
  let digest := addRange addCollective digest report.collectives
  let digest := addRange addCollectiveTimeline digest report.collectiveTimeline
  let digest := addRange addRoute digest report.decisions
  let digest := addRange addPlacement digest report.placements
  (digest.add report.maximumWaitingBytes).hash

/-! ## The bytes -/

/-- The digest is fed these bytes for a value. -/
def Feeds {α : Type} (append : DigestBuilder → α → DigestBuilder) (encode : α → List UInt8) :
    Prop :=
  ∀ digest a, append digest a = digest.feed (encode a)

theorem feed_feed (digest : DigestBuilder) (s t : List UInt8) :
    (digest.feed s).feed t = digest.feed (s ++ t) := by
  simp only [feed, List.foldl_append]

/-- A value in a word of its own. -/
def encodeFlag (present : Bool) : List UInt8 := encodeU64 present.toNat

def encodeOptionalU64 {α : Type} : (α → List UInt8) → Option α → List UInt8 :=
  encodeOption encodeFlag

def encodeRange {α : Type} : (α → List UInt8) → List α → List UInt8 := encodeCounted encodeU64

theorem Feeds.optional {α : Type} {append : DigestBuilder → α → DigestBuilder}
    {encode : α → List UInt8} (feeds : Feeds append encode) :
    Feeds (addOptional append) (encodeOptionalU64 encode) := by
  intro digest a
  cases a with
  | none => rfl
  | some a => exact (feeds _ a).trans (feed_feed digest _ _)

theorem Feeds.range {α : Type} {append : DigestBuilder → α → DigestBuilder}
    {encode : α → List UInt8} (feeds : Feeds append encode) :
    Feeds (addRange append) (encodeRange encode) := by
  have members : ∀ (values : List α) (digest : DigestBuilder),
      values.foldl append digest = digest.feed (values.flatMap encode) := by
    intro values
    induction values with
    | nil => exact fun _ => rfl
    | cons a values ih =>
      intro digest
      rw [List.foldl_cons, ih, feeds, feed_feed, List.flatMap_cons]
  intro digest values
  exact (members values _).trans (feed_feed digest _ _)

theorem feeds_text : Feeds addText encodeError := fun digest _ => feed_feed digest _ _

def encodeId {Tag : Type} (id : StrongId Tag) : List UInt8 := encodeU64 id.value

def encodeStopReason (reason : StopReason) : List UInt8 := encodeU64 reason.value.toNat

def encodeSimulation (result : SimulationResult) : List UInt8 :=
  encodeU64 result.status.value ++
    encodeOptionalU64 encodeStopReason result.stopReason ++
    encodeU64 result.finalTime ++ encodeU64 result.dispatchedEvents ++
    encodeU64 result.cancelledEvents ++ encodeU64 result.pendingEvents ++
    encodeU64 result.rngDrawCount ++ encodeOptionalU64 encodeError result.error

def encodeJob (job : JobSnapshot) : List UInt8 :=
  encodeId job.id ++ encodeU64 job.state.value ++ encodeU64 job.completedSteps ++
    encodeU64 job.arrival ++ encodeOptionalU64 encodeU64 job.finished ++
    encodeU64 job.computeGpuNs ++ encodeU64 job.idleGpuNs ++ encodeU64 job.elapsedNs ++
    encodeError job.reason ++ encodeOptionalU64 encodeU64 job.allocatedAt ++
    encodeU64 job.waitingNs

def encodeJobTimeline (entry : JobTimeline) : List UInt8 :=
  encodeId entry.job ++ encodeU64 entry.timestamp ++ encodeU64 entry.state.value ++
    encodeU64 entry.step ++ encodeU64 entry.bucket ++ encodeError entry.action ++
    encodeOptionalU64 encodeId entry.collective

def encodeCollective (result : CollectiveResult) : List UInt8 :=
  encodeId result.id ++ encodeU64 result.outcome.value ++ encodeU64 result.started ++
    encodeU64 result.finished ++ encodeU64 result.plannedBytes ++
    encodeU64 result.issuedFabricBytes ++ encodeU64 result.issuedLocalBytes ++
    encodeU64 result.deliveredBytes ++ encodeError result.reason

def encodeCollectiveTimeline (entry : CollectiveTimeline) : List UInt8 :=
  encodeId entry.id ++ encodeU64 entry.timestamp ++ encodeU64 entry.phase.value ++
    encodeU64 entry.round

def encodeNode (node : NodeId) : List UInt8 := encodeU64 node.kind.value ++ encodeU64 node.value

def encodeLink (link : DirectedLinkId) : List UInt8 :=
  encodeId link.link ++ encodeU64 link.direction.value

def encodeRoute (decision : RouteDecision) : List UInt8 :=
  encodeU64 decision.request.flow ++ encodeNode decision.request.endpoints.source ++
    encodeNode decision.request.endpoints.destination ++ encodeU64 decision.request.bytes ++
    encodeU64 decision.request.maximumChunkBytes ++ encodeError decision.policy ++
    encodeU64 decision.version ++ encodeU64 decision.timestamp ++
    encodeU64 decision.operationalRevision ++ encodeU64 decision.candidates ++
    encodeRange encodeLink decision.path ++ encodeU64 decision.score ++
    encodeError decision.reason ++ encodeOptionalU64 encodeId decision.transfer

def encodePlacement (decision : PlacementDecision) : List UInt8 :=
  encodeId decision.job ++ encodeU64 decision.timestamp ++ encodeError decision.policy ++
    encodeU64 decision.version ++ encodeU64 decision.priority ++
    encodeU64 decision.requestedWorkers ++ encodeU64 decision.outcome.value ++
    encodeRange encodeId decision.workers ++ encodeError decision.reason ++
    encodeU64 decision.locality.racks ++ encodeU64 decision.locality.nics ++
    encodeU64 decision.locality.crossRackRingEdges ++ encodeU64 decision.fragmentationBefore ++
    encodeU64 decision.fragmentationAfter

/-- The bytes that the digest of a report is fed. -/
def encodeReport (report : TrainingReport) : List UInt8 :=
  encodeSimulation report.simulation ++ encodeRange encodeJob report.jobs ++
    encodeRange encodeJobTimeline report.timeline ++
    encodeRange encodeCollective report.collectives ++
    encodeRange encodeCollectiveTimeline report.collectiveTimeline ++
    encodeRange encodeRoute report.decisions ++ encodeRange encodePlacement report.placements ++
    encodeU64 report.maximumWaitingBytes

theorem feeds_u64 : Feeds add encodeU64 := fun _ _ => rfl

theorem feeds_id {Tag : Type} : Feeds (@addId Tag) encodeId := fun _ _ => rfl

theorem feeds_stopReason : Feeds addStopReason encodeStopReason := fun _ _ => rfl

theorem feeds_simulation : Feeds addSimulation encodeSimulation := by
  intro digest result
  simp only [addSimulation, encodeSimulation, feeds_u64 _ _, feeds_stopReason.optional _ _,
    feeds_text.optional _ _, feed_feed]

theorem feeds_job : Feeds addJob encodeJob := by
  intro digest job
  simp only [addJob, encodeJob, feeds_id _ _, feeds_u64 _ _, feeds_text _ _,
    feeds_u64.optional _ _, feed_feed]

theorem feeds_jobTimeline : Feeds addJobTimeline encodeJobTimeline := by
  intro digest entry
  simp only [addJobTimeline, encodeJobTimeline, feeds_id _ _, feeds_u64 _ _, feeds_text _ _,
    feeds_id.optional _ _,
    feed_feed]

theorem feeds_collective : Feeds addCollective encodeCollective := by
  intro digest result
  simp only [addCollective, encodeCollective, feeds_id _ _, feeds_u64 _ _, feeds_text _ _,
    feed_feed]

theorem feeds_collectiveTimeline : Feeds addCollectiveTimeline encodeCollectiveTimeline := by
  intro digest entry
  simp only [addCollectiveTimeline, encodeCollectiveTimeline, feeds_id _ _, feeds_u64 _ _,
    feed_feed]

theorem feeds_node : Feeds addNode encodeNode := fun digest _ => feed_feed digest _ _

theorem feeds_link : Feeds addLink encodeLink := fun digest _ => feed_feed digest _ _

theorem feeds_route : Feeds addRoute encodeRoute := by
  intro digest decision
  simp only [addRoute, encodeRoute, feeds_u64 _ _, feeds_node _ _, feeds_text _ _,
    feeds_link.range _ _,
    feeds_id.optional _ _, feed_feed]

theorem feeds_placement : Feeds addPlacement encodePlacement := by
  intro digest decision
  simp only [addPlacement, encodePlacement, feeds_id _ _, feeds_u64 _ _, feeds_text _ _,
    feeds_id.range _ _,
    feed_feed]

/-- Feeding a new builder is hashing. -/
theorem hash_feed (bytes : List UInt8) : (DigestBuilder.feed {} bytes).hash = fnv1a bytes := rfl

theorem domainOutcomeDigest_eq (report : TrainingReport) :
    domainOutcomeDigest report = fnv1a (encodeReport report) := by
  rw [← hash_feed]
  simp only [domainOutcomeDigest, encodeReport, feeds_simulation _ _, feeds_job.range _ _,
    feeds_jobTimeline.range _ _, feeds_collective.range _ _, feeds_collectiveTimeline.range _ _,
    feeds_route.range _ _, feeds_placement.range _ _, feeds_u64 _ _, feed_feed]

/-! ## Reading the bytes -/

theorem decodes_flag : Decodes encodeFlag (fun _ => True) := by
  refine decodes_u64.comap (fun present _ => ?_) (fun a b _ _ same => ?_)
  · cases present <;> decide
  · cases a <;> cases b <;> first | rfl | cases same

theorem decodes_optionalU64 {α : Type} {encode : α → List UInt8} {valid : α → Prop}
    (decodes : Decodes encode valid) :
    Decodes (encodeOptionalU64 encode) (fun o => ∀ a ∈ o, valid a) :=
  .option decodes_flag decodes

theorem decodes_range {α : Type} {encode : α → List UInt8} {valid : α → Prop}
    (decodes : Decodes encode valid) :
    Decodes (encodeRange encode) (fun as => as.length < 2 ^ 64 ∧ ∀ a ∈ as, valid a) :=
  .counted decodes_u64 decodes

/-- A word for each value of an enumeration. -/
theorem decodes_enum {α : Type} {value : α → Nat} (injective : Function.Injective value)
    (small : ∀ a, value a < 2 ^ 64) : Decodes (fun a => encodeU64 (value a)) (fun _ => True) :=
  decodes_u64.comap (fun a _ => small a) (fun _ _ _ _ same => injective same)

theorem decodes_status :
    Decodes (fun status : SimulationStatus => encodeU64 status.value) (fun _ => True) := by
  refine decodes_enum (fun a b same => ?_) (fun a => ?_)
  · cases a <;> cases b <;> first | rfl | cases same
  · cases a <;> decide

theorem decodes_stopReason : Decodes encodeStopReason (fun _ => True) :=
  decodes_enum (fun a b _ => by cases a; cases b; rfl) (fun a => by cases a; decide)

theorem decodes_jobState :
    Decodes (fun state : JobState => encodeU64 state.value) (fun _ => True) := by
  refine decodes_enum (fun a b same => ?_) (fun a => ?_)
  · cases a <;> cases b <;> first | rfl | cases same
  · cases a <;> decide

theorem decodes_phase : Decodes (fun phase : Phase => encodeU64 phase.value) (fun _ => True) := by
  refine decodes_enum (fun a b same => ?_) (fun a => ?_)
  · cases a <;> cases b <;> first | rfl | cases same
  · cases a <;> decide

theorem decodes_nodeKind :
    Decodes (fun kind : NodeKind => encodeU64 kind.value) (fun _ => True) := by
  refine decodes_enum (fun a b same => ?_) (fun a => ?_)
  · cases a <;> cases b <;> first | rfl | cases same
  · cases a <;> decide

theorem decodes_direction :
    Decodes (fun direction : LinkDirection => encodeU64 direction.value) (fun _ => True) := by
  refine decodes_enum (fun a b same => ?_) (fun a => ?_)
  · cases a <;> cases b <;> first | rfl | cases same
  · cases a <;> decide

theorem decodes_placementOutcome :
    Decodes (fun outcome : PlacementOutcome => encodeU64 outcome.value) (fun _ => True) := by
  refine decodes_enum (fun a b same => ?_) (fun a => ?_)
  · cases a <;> cases b <;> first | rfl | cases same
  · cases a <;> decide

/-- A text of the source: bytes, and not too many to count. -/
def FitsText (text : String) : Prop := IsText text ∧ text.length < 2 ^ 64

instance (text : String) : Decidable (FitsText text) :=
  inferInstanceAs (Decidable (IsText text ∧ text.length < 2 ^ 64))

/-- The values are values of the source's types. -/
structure FitsJob (job : JobSnapshot) : Prop where
  id : job.id.value < 2 ^ 64
  completedSteps : job.completedSteps < 2 ^ 64
  arrival : job.arrival < 2 ^ 64
  finished : ∀ value ∈ job.finished, value < 2 ^ 64
  computeGpuNs : job.computeGpuNs < 2 ^ 64
  idleGpuNs : job.idleGpuNs < 2 ^ 64
  elapsedNs : job.elapsedNs < 2 ^ 64
  reason : FitsText job.reason
  allocatedAt : ∀ value ∈ job.allocatedAt, value < 2 ^ 64
  waitingNs : job.waitingNs < 2 ^ 64

theorem decodes_job : Decodes encodeJob FitsJob := by
  intro a b s t fitsA fitsB same
  simp only [encodeJob, List.append_assoc] at same
  obtain ⟨id, same⟩ := decodes_id _ _ _ _ fitsA.id fitsB.id same
  obtain ⟨state, same⟩ := decodes_jobState _ _ _ _ trivial trivial same
  obtain ⟨completedSteps, same⟩ :=
    decodes_u64 _ _ _ _ fitsA.completedSteps fitsB.completedSteps same
  obtain ⟨arrival, same⟩ := decodes_u64 _ _ _ _ fitsA.arrival fitsB.arrival same
  obtain ⟨finished, same⟩ :=
    decodes_optionalU64 decodes_u64 _ _ _ _ fitsA.finished fitsB.finished same
  obtain ⟨computeGpuNs, same⟩ := decodes_u64 _ _ _ _ fitsA.computeGpuNs fitsB.computeGpuNs same
  obtain ⟨idleGpuNs, same⟩ := decodes_u64 _ _ _ _ fitsA.idleGpuNs fitsB.idleGpuNs same
  obtain ⟨elapsedNs, same⟩ := decodes_u64 _ _ _ _ fitsA.elapsedNs fitsB.elapsedNs same
  obtain ⟨reason, same⟩ := decodes_text _ _ _ _ fitsA.reason fitsB.reason same
  obtain ⟨allocatedAt, same⟩ :=
    decodes_optionalU64 decodes_u64 _ _ _ _ fitsA.allocatedAt fitsB.allocatedAt same
  obtain ⟨waitingNs, rest⟩ := decodes_u64 _ _ _ _ fitsA.waitingNs fitsB.waitingNs same
  refine ⟨?_, rest⟩
  cases a
  cases b
  simp only [JobSnapshot.mk.injEq]
  exact ⟨id, state, completedSteps, arrival, finished, computeGpuNs, idleGpuNs, elapsedNs, reason,
    allocatedAt, waitingNs⟩

/-- The values are values of the source's types. -/
structure FitsJobTimeline (entry : JobTimeline) : Prop where
  job : entry.job.value < 2 ^ 64
  timestamp : entry.timestamp < 2 ^ 64
  step : entry.step < 2 ^ 64
  bucket : entry.bucket < 2 ^ 64
  action : FitsText entry.action
  collective : ∀ id ∈ entry.collective, id.value < 2 ^ 64

theorem decodes_jobTimeline : Decodes encodeJobTimeline FitsJobTimeline := by
  intro a b s t fitsA fitsB same
  simp only [encodeJobTimeline, List.append_assoc] at same
  obtain ⟨job, same⟩ := decodes_id _ _ _ _ fitsA.job fitsB.job same
  obtain ⟨timestamp, same⟩ := decodes_u64 _ _ _ _ fitsA.timestamp fitsB.timestamp same
  obtain ⟨state, same⟩ := decodes_jobState _ _ _ _ trivial trivial same
  obtain ⟨step, same⟩ := decodes_u64 _ _ _ _ fitsA.step fitsB.step same
  obtain ⟨bucket, same⟩ := decodes_u64 _ _ _ _ fitsA.bucket fitsB.bucket same
  obtain ⟨action, same⟩ := decodes_text _ _ _ _ fitsA.action fitsB.action same
  obtain ⟨collective, rest⟩ :=
    decodes_optionalU64 decodes_id _ _ _ _ fitsA.collective fitsB.collective same
  refine ⟨?_, rest⟩
  cases a
  cases b
  simp only [JobTimeline.mk.injEq]
  exact ⟨job, timestamp, state, step, bucket, action, collective⟩

/-- The values are values of the source's types. -/
structure FitsCollective (result : CollectiveResult) : Prop where
  id : result.id.value < 2 ^ 64
  started : result.started < 2 ^ 64
  finished : result.finished < 2 ^ 64
  plannedBytes : result.plannedBytes < 2 ^ 64
  issuedFabricBytes : result.issuedFabricBytes < 2 ^ 64
  issuedLocalBytes : result.issuedLocalBytes < 2 ^ 64
  deliveredBytes : result.deliveredBytes < 2 ^ 64
  reason : FitsText result.reason

theorem decodes_collective : Decodes encodeCollective FitsCollective := by
  intro a b s t fitsA fitsB same
  simp only [encodeCollective, List.append_assoc] at same
  obtain ⟨id, same⟩ := decodes_id _ _ _ _ fitsA.id fitsB.id same
  obtain ⟨outcome, same⟩ := decodes_phase _ _ _ _ trivial trivial same
  obtain ⟨started, same⟩ := decodes_u64 _ _ _ _ fitsA.started fitsB.started same
  obtain ⟨finished, same⟩ := decodes_u64 _ _ _ _ fitsA.finished fitsB.finished same
  obtain ⟨plannedBytes, same⟩ := decodes_u64 _ _ _ _ fitsA.plannedBytes fitsB.plannedBytes same
  obtain ⟨issuedFabricBytes, same⟩ :=
    decodes_u64 _ _ _ _ fitsA.issuedFabricBytes fitsB.issuedFabricBytes same
  obtain ⟨issuedLocalBytes, same⟩ :=
    decodes_u64 _ _ _ _ fitsA.issuedLocalBytes fitsB.issuedLocalBytes same
  obtain ⟨deliveredBytes, same⟩ :=
    decodes_u64 _ _ _ _ fitsA.deliveredBytes fitsB.deliveredBytes same
  obtain ⟨reason, rest⟩ := decodes_text _ _ _ _ fitsA.reason fitsB.reason same
  refine ⟨?_, rest⟩
  cases a
  cases b
  simp only [CollectiveResult.mk.injEq]
  exact ⟨id, outcome, started, finished, plannedBytes, issuedFabricBytes, issuedLocalBytes,
    deliveredBytes, reason⟩

/-- The values are values of the source's types. -/
structure FitsCollectiveTimeline (entry : CollectiveTimeline) : Prop where
  id : entry.id.value < 2 ^ 64
  timestamp : entry.timestamp < 2 ^ 64
  round : entry.round < 2 ^ 64

theorem decodes_collectiveTimeline : Decodes encodeCollectiveTimeline FitsCollectiveTimeline := by
  intro a b s t fitsA fitsB same
  simp only [encodeCollectiveTimeline, List.append_assoc] at same
  obtain ⟨id, same⟩ := decodes_id _ _ _ _ fitsA.id fitsB.id same
  obtain ⟨timestamp, same⟩ := decodes_u64 _ _ _ _ fitsA.timestamp fitsB.timestamp same
  obtain ⟨phase, same⟩ := decodes_phase _ _ _ _ trivial trivial same
  obtain ⟨round, rest⟩ := decodes_u64 _ _ _ _ fitsA.round fitsB.round same
  refine ⟨?_, rest⟩
  cases a
  cases b
  simp only [CollectiveTimeline.mk.injEq]
  exact ⟨id, timestamp, phase, round⟩

theorem decodes_node : Decodes encodeNode (fun node => node.value < 2 ^ 64) := by
  intro a b s t fitsA fitsB same
  simp only [encodeNode, List.append_assoc] at same
  obtain ⟨kind, same⟩ := decodes_nodeKind _ _ _ _ trivial trivial same
  obtain ⟨value, rest⟩ := decodes_u64 _ _ _ _ fitsA fitsB same
  cases a
  cases b
  simp only at kind value
  subst kind value
  exact ⟨rfl, rest⟩

theorem decodes_link : Decodes encodeLink (fun link => link.link.value < 2 ^ 64) := by
  intro a b s t fitsA fitsB same
  simp only [encodeLink, List.append_assoc] at same
  obtain ⟨link, same⟩ := decodes_id _ _ _ _ fitsA fitsB same
  obtain ⟨direction, rest⟩ := decodes_direction _ _ _ _ trivial trivial same
  cases a
  cases b
  simp only at link direction
  subst link direction
  exact ⟨rfl, rest⟩

/-- The values are values of the source's types. -/
structure FitsRoute (decision : RouteDecision) : Prop where
  flow : decision.request.flow < 2 ^ 64
  source : decision.request.endpoints.source.value < 2 ^ 64
  destination : decision.request.endpoints.destination.value < 2 ^ 64
  bytes : decision.request.bytes < 2 ^ 64
  maximumChunkBytes : decision.request.maximumChunkBytes < 2 ^ 64
  policy : FitsText decision.policy
  version : decision.version < 2 ^ 64
  timestamp : decision.timestamp < 2 ^ 64
  operationalRevision : decision.operationalRevision < 2 ^ 64
  candidates : decision.candidates < 2 ^ 64
  path : decision.path.length < 2 ^ 64 ∧ ∀ link ∈ decision.path, link.link.value < 2 ^ 64
  score : decision.score < 2 ^ 64
  reason : FitsText decision.reason
  transfer : ∀ id ∈ decision.transfer, id.value < 2 ^ 64

theorem decodes_route : Decodes encodeRoute FitsRoute := by
  intro a b s t fitsA fitsB same
  simp only [encodeRoute, List.append_assoc] at same
  obtain ⟨flow, same⟩ := decodes_u64 _ _ _ _ fitsA.flow fitsB.flow same
  obtain ⟨source, same⟩ := decodes_node _ _ _ _ fitsA.source fitsB.source same
  obtain ⟨destination, same⟩ := decodes_node _ _ _ _ fitsA.destination fitsB.destination same
  obtain ⟨bytes, same⟩ := decodes_u64 _ _ _ _ fitsA.bytes fitsB.bytes same
  obtain ⟨maximumChunkBytes, same⟩ :=
    decodes_u64 _ _ _ _ fitsA.maximumChunkBytes fitsB.maximumChunkBytes same
  obtain ⟨policy, same⟩ := decodes_text _ _ _ _ fitsA.policy fitsB.policy same
  obtain ⟨version, same⟩ := decodes_u64 _ _ _ _ fitsA.version fitsB.version same
  obtain ⟨timestamp, same⟩ := decodes_u64 _ _ _ _ fitsA.timestamp fitsB.timestamp same
  obtain ⟨operationalRevision, same⟩ :=
    decodes_u64 _ _ _ _ fitsA.operationalRevision fitsB.operationalRevision same
  obtain ⟨candidates, same⟩ := decodes_u64 _ _ _ _ fitsA.candidates fitsB.candidates same
  obtain ⟨path, same⟩ := decodes_range decodes_link _ _ _ _ fitsA.path fitsB.path same
  obtain ⟨score, same⟩ := decodes_u64 _ _ _ _ fitsA.score fitsB.score same
  obtain ⟨reason, same⟩ := decodes_text _ _ _ _ fitsA.reason fitsB.reason same
  obtain ⟨transfer, rest⟩ :=
    decodes_optionalU64 decodes_id _ _ _ _ fitsA.transfer fitsB.transfer same
  refine ⟨?_, rest⟩
  obtain ⟨⟨_, ⟨_, _⟩, _, _⟩, _, _, _, _, _, _, _, _, _⟩ := a
  obtain ⟨⟨_, ⟨_, _⟩, _, _⟩, _, _, _, _, _, _, _, _, _⟩ := b
  simp only [RouteDecision.mk.injEq, RouteRequest.mk.injEq, Endpoints.mk.injEq, and_assoc]
  exact ⟨flow, source, destination, bytes, maximumChunkBytes, policy, version, timestamp,
    operationalRevision, candidates, path, score, reason, transfer⟩

/-- The values are values of the source's types. -/
structure FitsPlacement (decision : PlacementDecision) : Prop where
  job : decision.job.value < 2 ^ 64
  timestamp : decision.timestamp < 2 ^ 64
  policy : FitsText decision.policy
  version : decision.version < 2 ^ 64
  priority : decision.priority < 2 ^ 64
  requestedWorkers : decision.requestedWorkers < 2 ^ 64
  workers : decision.workers.length < 2 ^ 64 ∧ ∀ id ∈ decision.workers, id.value < 2 ^ 64
  reason : FitsText decision.reason
  racks : decision.locality.racks < 2 ^ 64
  nics : decision.locality.nics < 2 ^ 64
  crossRackRingEdges : decision.locality.crossRackRingEdges < 2 ^ 64
  fragmentationBefore : decision.fragmentationBefore < 2 ^ 64
  fragmentationAfter : decision.fragmentationAfter < 2 ^ 64

theorem decodes_placement : Decodes encodePlacement FitsPlacement := by
  intro a b s t fitsA fitsB same
  simp only [encodePlacement, List.append_assoc] at same
  obtain ⟨job, same⟩ := decodes_id _ _ _ _ fitsA.job fitsB.job same
  obtain ⟨timestamp, same⟩ := decodes_u64 _ _ _ _ fitsA.timestamp fitsB.timestamp same
  obtain ⟨policy, same⟩ := decodes_text _ _ _ _ fitsA.policy fitsB.policy same
  obtain ⟨version, same⟩ := decodes_u64 _ _ _ _ fitsA.version fitsB.version same
  obtain ⟨priority, same⟩ := decodes_u64 _ _ _ _ fitsA.priority fitsB.priority same
  obtain ⟨requestedWorkers, same⟩ :=
    decodes_u64 _ _ _ _ fitsA.requestedWorkers fitsB.requestedWorkers same
  obtain ⟨outcome, same⟩ := decodes_placementOutcome _ _ _ _ trivial trivial same
  obtain ⟨workers, same⟩ := decodes_range decodes_id _ _ _ _ fitsA.workers fitsB.workers same
  obtain ⟨reason, same⟩ := decodes_text _ _ _ _ fitsA.reason fitsB.reason same
  obtain ⟨racks, same⟩ := decodes_u64 _ _ _ _ fitsA.racks fitsB.racks same
  obtain ⟨nics, same⟩ := decodes_u64 _ _ _ _ fitsA.nics fitsB.nics same
  obtain ⟨crossRackRingEdges, same⟩ :=
    decodes_u64 _ _ _ _ fitsA.crossRackRingEdges fitsB.crossRackRingEdges same
  obtain ⟨fragmentationBefore, same⟩ :=
    decodes_u64 _ _ _ _ fitsA.fragmentationBefore fitsB.fragmentationBefore same
  obtain ⟨fragmentationAfter, rest⟩ :=
    decodes_u64 _ _ _ _ fitsA.fragmentationAfter fitsB.fragmentationAfter same
  refine ⟨?_, rest⟩
  obtain ⟨_, _, _, _, _, _, _, _, _, ⟨_, _, _⟩, _, _⟩ := a
  obtain ⟨_, _, _, _, _, _, _, _, _, ⟨_, _, _⟩, _, _⟩ := b
  simp only [PlacementDecision.mk.injEq, Locality.mk.injEq, and_assoc]
  exact ⟨job, timestamp, policy, version, priority, requestedWorkers, outcome, workers, reason,
    racks, nics, crossRackRingEdges, fragmentationBefore, fragmentationAfter⟩

/-- The values are values of the source's types. -/
structure FitsSimulation (result : SimulationResult) : Prop where
  finalTime : result.finalTime < 2 ^ 64
  dispatchedEvents : result.dispatchedEvents < 2 ^ 64
  cancelledEvents : result.cancelledEvents < 2 ^ 64
  pendingEvents : result.pendingEvents < 2 ^ 64
  rngDrawCount : result.rngDrawCount < 2 ^ 64
  error : ∀ text ∈ result.error, FitsText text

/-- The hash of the trace is not among the bytes. -/
theorem decodes_simulation {a b : SimulationResult} {s t : List UInt8} (fitsA : FitsSimulation a)
    (fitsB : FitsSimulation b) (same : encodeSimulation a ++ s = encodeSimulation b ++ t) :
    { a with traceHash := none } = { b with traceHash := none } ∧ s = t := by
  simp only [encodeSimulation, List.append_assoc] at same
  obtain ⟨status, same⟩ := decodes_status _ _ _ _ trivial trivial same
  obtain ⟨stopReason, same⟩ :=
    decodes_optionalU64 decodes_stopReason _ _ _ _ (fun _ _ => trivial) (fun _ _ => trivial) same
  obtain ⟨finalTime, same⟩ := decodes_u64 _ _ _ _ fitsA.finalTime fitsB.finalTime same
  obtain ⟨dispatchedEvents, same⟩ :=
    decodes_u64 _ _ _ _ fitsA.dispatchedEvents fitsB.dispatchedEvents same
  obtain ⟨cancelledEvents, same⟩ :=
    decodes_u64 _ _ _ _ fitsA.cancelledEvents fitsB.cancelledEvents same
  obtain ⟨pendingEvents, same⟩ := decodes_u64 _ _ _ _ fitsA.pendingEvents fitsB.pendingEvents same
  obtain ⟨rngDrawCount, same⟩ := decodes_u64 _ _ _ _ fitsA.rngDrawCount fitsB.rngDrawCount same
  obtain ⟨error, rest⟩ := decodes_optionalU64 decodes_text _ _ _ _ fitsA.error fitsB.error same
  rw [status, stopReason, finalTime, dispatchedEvents, cancelledEvents, pendingEvents, rngDrawCount,
    error]
  exact ⟨rfl, rest⟩

/-! ## The digest -/

/-- The values are values of the source's types. -/
structure FitsReport (report : TrainingReport) : Prop where
  simulation : FitsSimulation report.simulation
  jobs : report.jobs.length < 2 ^ 64 ∧ ∀ job ∈ report.jobs, FitsJob job
  timeline : report.timeline.length < 2 ^ 64 ∧ ∀ entry ∈ report.timeline, FitsJobTimeline entry
  collectives : report.collectives.length < 2 ^ 64 ∧
    ∀ result ∈ report.collectives, FitsCollective result
  collectiveTimeline : report.collectiveTimeline.length < 2 ^ 64 ∧
    ∀ entry ∈ report.collectiveTimeline, FitsCollectiveTimeline entry
  decisions : report.decisions.length < 2 ^ 64 ∧ ∀ decision ∈ report.decisions, FitsRoute decision
  placements : report.placements.length < 2 ^ 64 ∧
    ∀ decision ∈ report.placements, FitsPlacement decision
  maximumWaitingBytes : report.maximumWaitingBytes < 2 ^ 64

/-- Reports that differ at most in the hash of the trace and in telemetry. -/
structure SameOutcome (a b : TrainingReport) : Prop where
  simulation : { a.simulation with traceHash := none } = { b.simulation with traceHash := none }
  jobs : a.jobs = b.jobs
  timeline : a.timeline = b.timeline
  collectives : a.collectives = b.collectives
  collectiveTimeline : a.collectiveTimeline = b.collectiveTimeline
  decisions : a.decisions = b.decisions
  placements : a.placements = b.placements
  maximumWaitingBytes : a.maximumWaitingBytes = b.maximumWaitingBytes

theorem decodes_report {a b : TrainingReport} {s t : List UInt8} (fitsA : FitsReport a)
    (fitsB : FitsReport b) (same : encodeReport a ++ s = encodeReport b ++ t) :
    SameOutcome a b ∧ s = t := by
  simp only [encodeReport, List.append_assoc] at same
  obtain ⟨simulation, same⟩ := decodes_simulation fitsA.simulation fitsB.simulation same
  obtain ⟨jobs, same⟩ := decodes_range decodes_job _ _ _ _ fitsA.jobs fitsB.jobs same
  obtain ⟨timeline, same⟩ :=
    decodes_range decodes_jobTimeline _ _ _ _ fitsA.timeline fitsB.timeline same
  obtain ⟨collectives, same⟩ :=
    decodes_range decodes_collective _ _ _ _ fitsA.collectives fitsB.collectives same
  obtain ⟨collectiveTimeline, same⟩ := decodes_range decodes_collectiveTimeline _ _ _ _
    fitsA.collectiveTimeline fitsB.collectiveTimeline same
  obtain ⟨decisions, same⟩ :=
    decodes_range decodes_route _ _ _ _ fitsA.decisions fitsB.decisions same
  obtain ⟨placements, same⟩ :=
    decodes_range decodes_placement _ _ _ _ fitsA.placements fitsB.placements same
  obtain ⟨maximumWaitingBytes, rest⟩ :=
    decodes_u64 _ _ _ _ fitsA.maximumWaitingBytes fitsB.maximumWaitingBytes same
  exact ⟨⟨simulation, jobs, timeline, collectives, collectiveTimeline, decisions, placements,
    maximumWaitingBytes⟩, rest⟩

theorem SameOutcome.encodeReport_eq {a b : TrainingReport} (same : SameOutcome a b) :
    encodeReport a = encodeReport b := by
  have simulation : encodeSimulation a.simulation = encodeSimulation b.simulation := by
    have fields := congrArg encodeSimulation same.simulation
    exact fields
  simp only [encodeReport, simulation, same.jobs, same.timeline, same.collectives,
    same.collectiveTimeline, same.decisions, same.placements, same.maximumWaitingBytes]

/-- The digest of a report is the hash of bytes off which the report can be read, the hash of the
trace and telemetry apart; every step of the hash is a bijection, and reports whose bytes differ in
one place have different digests. -/
theorem domain_digest_encoding :
    (∀ a b s t, FitsReport a → FitsReport b → encodeReport a ++ s = encodeReport b ++ t →
      SameOutcome a b ∧ s = t) ∧
    (∀ a b, FitsReport a → FitsReport b → (encodeReport a = encodeReport b ↔ SameOutcome a b)) ∧
    (∀ report, domainOutcomeDigest report = fnv1a (encodeReport report)) ∧
    (∀ byte, Function.Bijective (Sim.hashByte · byte)) ∧
    ∀ a b, DifferInOne (encodeReport a) (encodeReport b) →
      domainOutcomeDigest a ≠ domainOutcomeDigest b := by
  refine ⟨fun a b s t => decodes_report, fun a b fitsA fitsB => ⟨fun same => ?_, ?_⟩,
    domainOutcomeDigest_eq, ?_, fun a b differ => ?_⟩
  · have again : encodeReport a ++ [] = encodeReport b ++ [] := by rw [same]
    exact (decodes_report fitsA fitsB again).1
  · exact SameOutcome.encodeReport_eq
  · rw [hashByte_eq]
    exact mixByte_bijective fnvPrime_unit
  · rw [domainOutcomeDigest_eq, domainOutcomeDigest_eq]
    exact fnv1a_ne differ

/-- The report of a run whose only job failed over its collective. -/
def failedReport (reason : String) (traceHash : Option UInt64) : TrainingReport where
  simulation := ⟨.failed, none, 40, 12, 1, 0, 3, traceHash, some "worker lost"⟩
  jobs := [⟨⟨0⟩, .failed, 1, 0, some 40, 30, 6, 40, reason, some 4, 4⟩]
  timeline := [⟨⟨0⟩, 20, .communicating, 1, 0, "collective_started", some ⟨0⟩⟩]
  collectives := [⟨⟨0⟩, .failed, 20, 40, 20, 20, 0, 10, "transfer failed"⟩]
  collectiveTimeline := [⟨⟨0⟩, 20, .reduceScatter, 0⟩]
  decisions := [⟨⟨7, ⟨.ofNic ⟨0⟩, .ofNic ⟨1⟩⟩, 10, 10⟩, "ecmp", 1, 20, 0, 2,
    [⟨⟨3⟩, .aToB⟩, ⟨⟨5⟩, .bToA⟩], 0, "hash", some ⟨0⟩⟩]
  maximumWaitingBytes := 10
  placements := [⟨⟨0⟩, 4, "first-fit", 1, 0, 2, .placed, [⟨0⟩, ⟨1⟩], "placed", ⟨1, 2, 0⟩, 0, 1⟩]
  telemetry := ⟨{ mode := .off }, [], [], [], [], 0, true⟩

theorem fits_failedReport {reason : String} (text : FitsText reason) (traceHash : Option UInt64) :
    FitsReport (failedReport reason traceHash) where
  simulation := by
    have error : FitsText "worker lost" := by decide
    constructor <;> simp [failedReport, error]
  jobs := by
    refine ⟨by simp [failedReport], fun job member => ?_⟩
    cases List.mem_singleton.mp member
    constructor <;> simp [text]
  timeline := by
    have action : FitsText "collective_started" := by decide
    refine ⟨by simp [failedReport], fun entry member => ?_⟩
    cases List.mem_singleton.mp member
    constructor <;> simp [action]
  collectives := by
    have reason : FitsText "transfer failed" := by decide
    refine ⟨by simp [failedReport], fun result member => ?_⟩
    cases List.mem_singleton.mp member
    constructor <;> simp [reason]
  collectiveTimeline := by
    refine ⟨by simp [failedReport], fun entry member => ?_⟩
    cases List.mem_singleton.mp member
    constructor <;> simp
  decisions := by
    have policy : FitsText "ecmp" := by decide
    have reason : FitsText "hash" := by decide
    refine ⟨by simp [failedReport], fun decision member => ?_⟩
    cases List.mem_singleton.mp member
    constructor <;> simp [NodeId.ofNic, policy, reason]
  placements := by
    have policy : FitsText "first-fit" := by decide
    have reason : FitsText "placed" := by decide
    refine ⟨by simp [failedReport], fun decision member => ?_⟩
    cases List.mem_singleton.mp member
    constructor <;> simp [policy, reason]
  maximumWaitingBytes := by simp [failedReport]

theorem domain_digest_encoding_failed :
    encodeReport (failedReport "worker 0" none) = encodeReport (failedReport "worker 0" (some 5)) ∧
    encodeReport (failedReport "worker 0" none) ≠ encodeReport (failedReport "worker 1" none) ∧
    domainOutcomeDigest (failedReport "worker 0" none) ≠
      domainOutcomeDigest (failedReport "worker 1" none) := by
  obtain ⟨_, iff, _, _, differs⟩ := domain_digest_encoding
  have fits₀ : FitsText "worker 0" := by decide
  have fits₁ : FitsText "worker 1" := by decide
  refine ⟨?_, fun same => ?_, ?_⟩
  · rw [iff _ _ (fits_failedReport fits₀ _) (fits_failedReport fits₀ _)]
    exact ⟨rfl, rfl, rfl, rfl, rfl, rfl, rfl, rfl⟩
  · have outcome := (iff _ _ (fits_failedReport fits₀ _) (fits_failedReport fits₁ _)).mp same
    exact absurd outcome.jobs (by decide)
  · -- the reasons, and so the bytes, differ in the number of the worker
    refine differs _ _ ⟨(encodeReport (failedReport "worker 0" none)).take 178,
      (encodeReport (failedReport "worker 0" none)).drop 179, 48, 49, by decide, ?_, ?_⟩
    all_goals decide +kernel

end NexusLab.Workload
