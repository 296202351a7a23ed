import NexusLab.Topology.ClosSoundness
import NexusLab.Topology.ShortestPath

/-! # Shortest paths of a Clos

Whatever is up or down: between NICs of one leaf there is one shortest path, over the leaf; between
NICs of two leaves there is one for each spine that both leaves reach.  Labels that count how far a
node is from the destination leave a shortest path no choice but the spine. -/

namespace NexusLab.Topology

open Foundation TopologyGraph

/-- An operational arc leads from one node to the other. -/
def TopologyGraph.ArcUp (g : TopologyGraph) (u v : NodeId) : Prop :=
  ∃ id, g.OperationalPath u [id] v

/-- A path that no other path between the same nodes is shorter than. -/
def TopologyGraph.Shortest (g : TopologyGraph) (u v : NodeId) (path : List DirectedLinkId) : Prop :=
  g.OperationalPath u path v ∧ ∀ other, g.OperationalPath u other v → path.length ≤ other.length

/-- A path goes by way of a node. -/
def TopologyGraph.Through (g : TopologyGraph) (u w v : NodeId) (path : List DirectedLinkId) : Prop :=
  ∃ front back, path = front ++ back ∧ g.OperationalPath u front w ∧ g.OperationalPath w back v

/-! ## Labels of the network -/

section Labels

variable {c : ClosShape} {x y : ClosNode c} {e : ClosLink c}

/-- How far a node is at least from a NIC. -/
def climb (l : Fin c.leaves) (n : Fin c.nicsPerLeaf) : ClosNode c → Nat
  | .gpu l' n' _ => (if l' = l then if n' = n then 0 else 2 else 4) + 1
  | .nic l' n' => if l' = l then if n' = n then 0 else 2 else 4
  | .leaf l' => if l' = l then 1 else 3
  | .spine _ => 2

theorem ClosLink.Between.climb_le (between : e.Between x y) (l : Fin c.leaves)
    (n : Fin c.nicsPerLeaf) : climb l n x ≤ climb l n y + 1 := by
  rcases between with ⟨rfl, rfl⟩ | ⟨rfl, rfl⟩ <;> cases e <;>
    simp only [climb, ClosLink.lower, ClosLink.upper] <;> split <;> (try split) <;> omega

/-! Where a step towards the destination leads. -/

theorem ClosLink.Between.from_nic {l l' : Fin c.leaves} {n n' : Fin c.nicsPerLeaf}
    (between : e.Between (.nic l n) y) (falls : climb l' n' (.nic l n) = climb l' n' y + 1) :
    y = .leaf l := by
  rcases between with ⟨lower, rfl⟩ | ⟨rfl, upper⟩
  · cases e <;> cases lower
    rfl
  · cases e <;> cases upper
    simp only [climb, ClosLink.lower] at falls
    omega

theorem ClosLink.Between.from_leaf {l l' : Fin c.leaves} {n' : Fin c.nicsPerLeaf}
    (between : e.Between (.leaf l) y) (falls : climb l' n' (.leaf l) = climb l' n' y + 1) :
    l = l' ∧ y = .nic l' n' ∨ l ≠ l' ∧ ∃ s, y = .spine s := by
  rcases between with ⟨lower, rfl⟩ | ⟨rfl, upper⟩
  · cases e <;> cases lower
    right
    refine ⟨?_, _, rfl⟩
    rintro rfl
    simp [climb, ClosLink.upper] at falls
  · cases e <;> cases upper
    rename_i n
    simp only [climb, ClosLink.lower] at falls
    left
    by_cases leaf : l = l'
    · by_cases nic : n = n'
      · rw [leaf, nic]
        exact ⟨rfl, rfl⟩
      · simp [leaf, nic] at falls
    · simp [leaf] at falls

theorem ClosLink.Between.from_spine {s : Fin c.spines} {l' : Fin c.leaves} {n' : Fin c.nicsPerLeaf}
    (between : e.Between (.spine s) y) (falls : climb l' n' (.spine s) = climb l' n' y + 1) :
    y = .leaf l' := by
  rcases between with ⟨lower, _⟩ | ⟨rfl, upper⟩
  · cases e <;> cases lower
  · cases e <;> cases upper
    rename_i l
    simp only [climb, ClosLink.lower] at falls
    by_cases leaf : l = l'
    · rw [leaf]
      rfl
    · simp [leaf] at falls

end Labels

/-! ## Arcs of a graph over the network -/

section Arcs

variable {c : ClosShape} {g : TopologyGraph} {usable : DirectedLink → Bool} {u v : NodeId}

theorem joins_of_way (canonical : g.Canonical) {id : DirectedLinkId}
    (way : (id, v) ∈ g.ways usable u) : g.outline.Joins id.link.value u v := by
  obtain ⟨⟨i⟩, d⟩ := id
  obtain ⟨_, _, _, source, destination⟩ := canonical.mem_ways_iff.mp way
  cases d with
  | aToB => exact .inl ⟨source, destination⟩
  | bToA => exact .inr ⟨destination, source⟩

theorem ClosFrame.way_between (frame : ClosFrame c g.outline) (canonical : g.Canonical)
    {id : DirectedLinkId} {x : ClosNode c} (way : (id, v) ∈ g.ways usable (frame.node x)) :
    ∃ y, v = frame.node y ∧ ∃ e, frame.link e = id.link.value ∧ e.Between x y := by
  obtain ⟨e, isLink, x', y, isX, rfl, between⟩ := frame.ends_of_joins (joins_of_way canonical way)
  obtain rfl := frame.node_injective isX
  exact ⟨y, rfl, e, isLink, between⟩

/-- At most one arc leads from one node to another. -/
theorem ClosFrame.way_unique (frame : ClosFrame c g.outline) (canonical : g.Canonical)
    {id id' : DirectedLinkId} (first : (id, v) ∈ g.ways usable u)
    (second : (id', v) ∈ g.ways usable u) : id = id' := by
  obtain ⟨e, isLink, x, y, rfl, rfl, between⟩ := frame.ends_of_joins (joins_of_way canonical first)
  obtain ⟨e', isLink', between'⟩ := frame.joins_iff.mp (joins_of_way canonical second)
  obtain rfl := between.unique between'
  obtain ⟨⟨i⟩, d⟩ := id
  obtain ⟨⟨j⟩, d'⟩ := id'
  obtain rfl : i = j := isLink.symm.trans isLink'
  have different : frame.node x ≠ frame.node y := fun same =>
    between.different (frame.node_injective same)
  obtain ⟨_, _, _, source, destination⟩ := canonical.mem_ways_iff.mp first
  obtain ⟨_, _, _, source', destination'⟩ := canonical.mem_ways_iff.mp second
  cases d <;> cases d'
  · rfl
  · exact absurd (Option.some.inj (source.symm.trans destination')) different
  · exact absurd (Option.some.inj (source'.symm.trans destination)) different
  · rfl

theorem arcUp_iff (canonical : g.Canonical) (isNode : u ∈ g.nodes) :
    g.ArcUp u v ↔ ∃ id, (id, v) ∈ g.ways g.isOperational u := by
  unfold ArcUp
  refine exists_congr fun id => ?_
  rw [operationalPath_iff canonical isNode]
  constructor
  · rintro ⟨w, way, rfl⟩
    exact way
  · intro way
    exact ⟨v, way, rfl⟩

/-- The label of a node of the graph. -/
noncomputable def ClosFrame.label (frame : ClosFrame c g.outline) (l : Fin c.leaves)
    (n : Fin c.nicsPerLeaf) : NodeId → Nat :=
  Function.extend frame.node (climb l n) fun _ => 0

variable (frame : ClosFrame c g.outline) (l : Fin c.leaves) (n : Fin c.nicsPerLeaf)

@[simp] theorem label_node (x : ClosNode c) : frame.label l n (frame.node x) = climb l n x :=
  frame.node_injective.extend_apply _ _ x

theorem label_falls (canonical : g.Canonical) : ∀ u, ∀ arc ∈ g.ways usable u,
    frame.label l n u ≤ frame.label l n arc.2 + 1 := by
  rintro u ⟨id, v⟩ way
  obtain ⟨e, _, x, y, rfl, rfl, between⟩ := frame.ends_of_joins (joins_of_way canonical way)
  simp only [label_node]
  exact between.climb_le l n

theorem label_goal : frame.label l n (frame.node (.nic l n)) = 0 := by
  rw [label_node]
  simp [climb]

/-- The first arc of a walk that is as short as can be. -/
theorem tight_step (canonical : g.Canonical) {x : ClosNode c} {id : DirectedLinkId}
    {path : List DirectedLinkId}
    (walk : IsWalk (g.ways usable) (frame.node x) (id :: path) (frame.node (.nic l n)))
    (tight : (id :: path).length = climb l n x) : ∃ y, (id, frame.node y) ∈ g.ways usable (frame.node x) ∧
      IsWalk (g.ways usable) (frame.node y) path (frame.node (.nic l n)) ∧
      path.length = climb l n y ∧ climb l n x = climb l n y + 1 ∧ ∃ e : ClosLink c, e.Between x y := by
  obtain ⟨w, way, rest, length, falls⟩ := walk.falls_of_tight (label_falls frame l n canonical)
    (label_goal frame l n) (by rw [label_node, tight])
  obtain ⟨y, rfl, e, _, between⟩ := frame.way_between canonical way
  rw [label_node] at length
  rw [label_node, label_node] at falls
  exact ⟨y, way, rest, length, falls, e, between⟩

/-! The walks that are as short as the labels allow. -/

theorem walk_from_leaf {path : List DirectedLinkId}
    (walk : IsWalk (g.ways usable) (frame.node (.leaf l)) path (frame.node (.nic l n)))
    (tight : path.length = 1) :
    ∃ down, path = [down] ∧ (down, frame.node (.nic l n)) ∈ g.ways usable (frame.node (.leaf l)) := by
  obtain ⟨down, rfl⟩ := List.length_eq_one_iff.mp tight
  obtain ⟨y, way, rest⟩ := walk
  obtain rfl : y = frame.node (.nic l n) := rest
  exact ⟨down, rfl, way⟩

theorem walk_same_leaf (canonical : g.Canonical) {n₀ : Fin c.nicsPerLeaf} (different : n₀ ≠ n)
    {path : List DirectedLinkId}
    (walk : IsWalk (g.ways usable) (frame.node (.nic l n₀)) path (frame.node (.nic l n)))
    (tight : path.length = 2) :
    ∃ up down, path = [up, down] ∧
      (up, frame.node (.leaf l)) ∈ g.ways usable (frame.node (.nic l n₀)) ∧
      (down, frame.node (.nic l n)) ∈ g.ways usable (frame.node (.leaf l)) := by
  have far : climb l n (.nic l n₀) = 2 := by simp [climb, different]
  cases path with
  | nil => cases tight
  | cons up path =>
    obtain ⟨y, wayUp, rest, length, falls, e, between⟩ :=
      tight_step frame l n canonical walk (tight.trans far.symm)
    obtain rfl := between.from_nic falls
    obtain ⟨down, rfl, wayDown⟩ := walk_from_leaf frame l n rest (by simpa [climb] using length)
    exact ⟨up, down, rfl, wayUp, wayDown⟩

theorem walk_other_leaf (canonical : g.Canonical) {l₀ : Fin c.leaves} {n₀ : Fin c.nicsPerLeaf}
    (different : l₀ ≠ l) {path : List DirectedLinkId}
    (walk : IsWalk (g.ways usable) (frame.node (.nic l₀ n₀)) path (frame.node (.nic l n)))
    (tight : path.length = 4) :
    ∃ s first second third fourth, path = [first, second, third, fourth] ∧
      (first, frame.node (.leaf l₀)) ∈ g.ways usable (frame.node (.nic l₀ n₀)) ∧
      (second, frame.node (.spine s)) ∈ g.ways usable (frame.node (.leaf l₀)) ∧
      (third, frame.node (.leaf l)) ∈ g.ways usable (frame.node (.spine s)) ∧
      (fourth, frame.node (.nic l n)) ∈ g.ways usable (frame.node (.leaf l)) := by
  have far : climb l n (.nic l₀ n₀) = 4 := by simp [climb, different]
  cases path with
  | nil => cases tight
  | cons first path =>
    obtain ⟨y, wayUp, rest, length, falls, e, between⟩ :=
      tight_step frame l n canonical walk (tight.trans far.symm)
    obtain rfl := between.from_nic falls
    cases path with
    | nil => cases tight
    | cons second path =>
      obtain ⟨z, wayOut, rest, length, falls, e, between⟩ :=
        tight_step frame l n canonical rest length
      rcases between.from_leaf falls with ⟨same, _⟩ | ⟨_, s, rfl⟩
      · exact absurd same different
      cases path with
      | nil => cases tight
      | cons third path =>
        obtain ⟨w, wayBack, rest, length, falls, e, between⟩ :=
          tight_step frame l n canonical rest length
        obtain rfl := between.from_spine falls
        obtain ⟨fourth, rfl, wayDown⟩ := walk_from_leaf frame l n rest (by simpa [climb] using length)
        exact ⟨s, first, second, third, fourth, rfl, wayUp, wayOut, wayBack, wayDown⟩

end Arcs

/-! ## Shortest paths -/

section Shortest

variable {c : ClosShape} {g : TopologyGraph} {u v : NodeId}

/-- Once some path is as short as the labels allow, the shortest paths are those that are. -/
theorem shortest_iff (canonical : g.Canonical) (frame : ClosFrame c g.outline) {x : ClosNode c}
    {l : Fin c.leaves} {n : Fin c.nicsPerLeaf} {known : List DirectedLinkId}
    (isPath : g.OperationalPath (frame.node x) known (frame.node (.nic l n)))
    (tight : known.length = climb l n x) (path : List DirectedLinkId) :
    g.Shortest (frame.node x) (frame.node (.nic l n)) path ↔
      g.OperationalPath (frame.node x) path (frame.node (.nic l n)) ∧
        path.length = climb l n x := by
  have isNode : frame.node x ∈ g.nodes := canonical.mem_nodes.mpr (canonical.contains.mp
    (canonical.contains_outline.mpr (frame.contains x)))
  have least : ∀ other, g.OperationalPath (frame.node x) other (frame.node (.nic l n)) →
      climb l n x ≤ other.length := by
    intro other isOther
    have bound := ((operationalPath_iff canonical isNode).mp isOther).label_le
      (label_falls frame l n canonical) (label_goal frame l n)
    rwa [label_node] at bound
  constructor
  · rintro ⟨walk, shortest⟩
    have upper := shortest known isPath
    have lower := least path walk
    exact ⟨walk, by omega⟩
  · rintro ⟨walk, length⟩
    exact ⟨walk, fun other isOther => length ▸ least other isOther⟩

theorem shortest_eq {known : List DirectedLinkId} (shortest : g.Shortest u v known) :
    {path | g.Shortest u v path} =
      {path | g.OperationalPath u path v ∧ path.length = known.length} := by
  ext path
  constructor
  · rintro ⟨isPath, shorter⟩
    have upper := shorter known shortest.1
    have lower := shortest.2 path isPath
    exact ⟨isPath, by omega⟩
  · rintro ⟨isPath, length⟩
    exact ⟨isPath, fun other isOther => length ▸ shortest.2 other isOther⟩

/-- What the two functions of the source answer, from any shortest path.  The count is over the whole
graph, so that it may overflow at other nodes. -/
theorem summary_of_shortest (canonical : g.Canonical) (source : u ∈ g.nodes)
    (destination : v ∈ g.nodes) {known : List DirectedLinkId} (shortest : g.Shortest u v known)
    (upU : g.nodeIsOperational u = true) (upV : g.nodeIsOperational v = true) :
    g.shortestHops u v = .ok (some known.length) ∧
      (g.shortestPathSummary u v = .error countOverflow ∨ g.shortestPathSummary u v =
        .ok (some ⟨known.length, Set.ncard {path | g.Shortest u v path}⟩)) := by
  have isWalk := (operationalPath_iff canonical source).mp shortest.1
  constructor
  · obtain ⟨s, count, finished, ok, _⟩ | ⟨counting, _⟩ :=
      summaryImpl_eq canonical false source destination upU upV
    · have marked : s.hops v = some known.length := by
        refine (finished.hops v known.length).mpr ⟨mem_ends_iff.mpr ⟨known, isWalk, rfl⟩, ?_⟩
        intro m shorter reached
        obtain ⟨path, walk, length⟩ := mem_ends_iff.mp reached
        have least := shortest.2 path ((operationalPath_iff canonical source).mpr walk)
        omega
      simp [shortestHops, ok, marked]
    · cases counting
  · obtain ⟨summary, _⟩ := shortestPathSummary_exact canonical
      (canonical.contains.mpr (canonical.mem_nodes.mp source))
      (canonical.contains.mpr (canonical.mem_nodes.mp destination))
    rcases summary with thrown | ⟨found, isFound, empty, sums⟩
    · exact .inl thrown
    · right
      rw [isFound]
      cases found with
      | none =>
        rcases empty.mp rfl with down | down | none
        · rw [down] at upU
          cases upU
        · rw [down] at upV
          cases upV
        · exact absurd ⟨known, shortest.1⟩ none
      | some summary =>
        obtain ⟨⟨path, isPath, length⟩, least, counted⟩ := sums summary rfl
        have same : summary.hops = known.length := by
          have upper := least known shortest.1
          have lower := shortest.2 path isPath
          omega
        rw [shortest_eq shortest, ← same, counted]

/-- An arc leads to one node. -/
theorem way_target (canonical : g.Canonical) {usable : DirectedLink → Bool} {id : DirectedLinkId}
    {w : NodeId} (first : (id, v) ∈ g.ways usable u) (second : (id, w) ∈ g.ways usable u) :
    v = w := by
  obtain ⟨⟨i⟩, d⟩ := id
  obtain ⟨_, _, _, _, isV⟩ := canonical.mem_ways_iff.mp first
  obtain ⟨_, _, _, _, isW⟩ := canonical.mem_ways_iff.mp second
  exact Option.some.inj (isV.symm.trans isW)

theorem node_mem (canonical : g.Canonical) (frame : ClosFrame c g.outline) (x : ClosNode c) :
    frame.node x ∈ g.nodes :=
  canonical.mem_nodes.mpr (canonical.contains.mp (canonical.contains_outline.mpr (frame.contains x)))

/-- The four arcs of a path over a spine. -/
def ViaSpine (frame : ClosFrame c g.outline) (l₀ : Fin c.leaves) (n₀ : Fin c.nicsPerLeaf)
    (l : Fin c.leaves) (n : Fin c.nicsPerLeaf) (s : Fin c.spines) (path : List DirectedLinkId) :
    Prop :=
  ∃ first second third fourth, path = [first, second, third, fourth] ∧
    (first, frame.node (.leaf l₀)) ∈ g.ways g.isOperational (frame.node (.nic l₀ n₀)) ∧
    (second, frame.node (.spine s)) ∈ g.ways g.isOperational (frame.node (.leaf l₀)) ∧
    (third, frame.node (.leaf l)) ∈ g.ways g.isOperational (frame.node (.spine s)) ∧
    (fourth, frame.node (.nic l n)) ∈ g.ways g.isOperational (frame.node (.leaf l))

section ViaSpine

variable {frame : ClosFrame c g.outline} {l₀ l : Fin c.leaves} {n₀ n : Fin c.nicsPerLeaf}
  {s t : Fin c.spines} {path path' : List DirectedLinkId}

theorem ViaSpine.isPath (canonical : g.Canonical) (via : ViaSpine frame l₀ n₀ l n s path) :
    g.OperationalPath (frame.node (.nic l₀ n₀)) path (frame.node (.nic l n)) := by
  obtain ⟨first, second, third, fourth, rfl, up, out, back, down⟩ := via
  rw [operationalPath_iff canonical (node_mem canonical frame _)]
  exact ⟨_, up, _, out, _, back, _, down, rfl⟩

theorem ViaSpine.unique (canonical : g.Canonical) (via : ViaSpine frame l₀ n₀ l n s path)
    (via' : ViaSpine frame l₀ n₀ l n s path') : path = path' := by
  obtain ⟨first, second, third, fourth, rfl, up, out, back, down⟩ := via
  obtain ⟨first', second', third', fourth', rfl, up', out', back', down'⟩ := via'
  rw [frame.way_unique canonical up up', frame.way_unique canonical out out',
    frame.way_unique canonical back back', frame.way_unique canonical down down']

theorem ViaSpine.length (via : ViaSpine frame l₀ n₀ l n s path) : path.length = 4 := by
  obtain ⟨_, _, _, _, rfl, _⟩ := via
  rfl

theorem ViaSpine.arcs (canonical : g.Canonical) (via : ViaSpine frame l₀ n₀ l n s path) :
    g.ArcUp (frame.node (.leaf l₀)) (frame.node (.spine s)) ∧
      g.ArcUp (frame.node (.spine s)) (frame.node (.leaf l)) := by
  obtain ⟨first, second, third, fourth, rfl, up, out, back, down⟩ := via
  exact ⟨(arcUp_iff canonical (node_mem canonical frame _)).mpr ⟨second, out⟩,
    (arcUp_iff canonical (node_mem canonical frame _)).mpr ⟨third, back⟩⟩

theorem ViaSpine.through (canonical : g.Canonical) (via : ViaSpine frame l₀ n₀ l n s path) :
    g.Through (frame.node (.nic l₀ n₀)) (frame.node (.spine s)) (frame.node (.nic l n)) path := by
  obtain ⟨first, second, third, fourth, rfl, up, out, back, down⟩ := via
  refine ⟨[first, second], [third, fourth], rfl, ?_, ?_⟩
  · rw [operationalPath_iff canonical (node_mem canonical frame _)]
    exact ⟨_, up, _, out, rfl⟩
  · rw [operationalPath_iff canonical (node_mem canonical frame _)]
    exact ⟨_, back, _, down, rfl⟩

/-- A path over a spine goes through no other. -/
theorem ViaSpine.eq_of_through (canonical : g.Canonical) (via : ViaSpine frame l₀ n₀ l n s path)
    (through : g.Through (frame.node (.nic l₀ n₀)) (frame.node (.spine t)) (frame.node (.nic l n))
      path) : t = s := by
  obtain ⟨first, second, third, fourth, rfl, up, out, back, down⟩ := via
  obtain ⟨front, rest, split, isFront, _⟩ := through
  rw [operationalPath_iff canonical (node_mem canonical frame _)] at isFront
  -- the node reached is the start, a leaf, the spine, a leaf or the end
  cases front with
  | nil => cases frame.node_injective isFront
  | cons a front =>
    rw [List.cons_append, List.cons.injEq] at split
    obtain ⟨rfl, split⟩ := split
    obtain ⟨w, way, isFront⟩ := isFront
    obtain rfl := way_target canonical up way
    cases front with
    | nil => cases frame.node_injective isFront
    | cons b front =>
      rw [List.cons_append, List.cons.injEq] at split
      obtain ⟨rfl, split⟩ := split
      obtain ⟨w, way, isFront⟩ := isFront
      obtain rfl := way_target canonical out way
      cases front with
      | nil =>
        cases frame.node_injective isFront
        rfl
      | cons b front =>
        rw [List.cons_append, List.cons.injEq] at split
        obtain ⟨rfl, split⟩ := split
        obtain ⟨w, way, isFront⟩ := isFront
        obtain rfl := way_target canonical back way
        cases front with
        | nil => cases frame.node_injective isFront
        | cons b front =>
          rw [List.cons_append, List.cons.injEq] at split
          obtain ⟨rfl, split⟩ := split
          obtain ⟨w, way, isFront⟩ := isFront
          obtain rfl := way_target canonical down way
          cases front with
          | nil => cases frame.node_injective isFront
          | cons b front => cases split

theorem exists_viaSpine (canonical : g.Canonical)
    (up : g.ArcUp (frame.node (.nic l₀ n₀)) (frame.node (.leaf l₀)))
    (down : g.ArcUp (frame.node (.leaf l)) (frame.node (.nic l n)))
    (out : g.ArcUp (frame.node (.leaf l₀)) (frame.node (.spine s)))
    (back : g.ArcUp (frame.node (.spine s)) (frame.node (.leaf l))) :
    ∃ path, ViaSpine frame l₀ n₀ l n s path := by
  obtain ⟨first, isUp⟩ := (arcUp_iff canonical (node_mem canonical frame _)).mp up
  obtain ⟨second, isOut⟩ := (arcUp_iff canonical (node_mem canonical frame _)).mp out
  obtain ⟨third, isBack⟩ := (arcUp_iff canonical (node_mem canonical frame _)).mp back
  obtain ⟨fourth, isDown⟩ := (arcUp_iff canonical (node_mem canonical frame _)).mp down
  exact ⟨_, first, second, third, fourth, rfl, isUp, isOut, isBack, isDown⟩

/-- With one path over a spine, the shortest paths are the paths over spines. -/
theorem shortest_iff_viaSpine (canonical : g.Canonical) (different : l₀ ≠ l)
    (known : ViaSpine frame l₀ n₀ l n s path) (other : List DirectedLinkId) :
    g.Shortest (frame.node (.nic l₀ n₀)) (frame.node (.nic l n)) other ↔
      ∃ t, ViaSpine frame l₀ n₀ l n t other := by
  have far : climb l n (.nic l₀ n₀) = 4 := by simp [climb, different]
  rw [shortest_iff canonical frame (known.isPath canonical) (known.length.trans far.symm), far]
  constructor
  · rintro ⟨isPath, isFour⟩
    rw [operationalPath_iff canonical (node_mem canonical frame _)] at isPath
    exact walk_other_leaf frame l n canonical different isPath isFour
  · rintro ⟨t, via⟩
    exact ⟨via.isPath canonical, via.length⟩

end ViaSpine

end Shortest

/-! ## What a path may go through -/

section Leaves

variable {c : ClosShape} {g : TopologyGraph} {l₀ l : Fin c.leaves} {n₀ n : Fin c.nicsPerLeaf}

theorem shortest_of_same_leaf (canonical : g.Canonical) (frame : ClosFrame c g.outline)
    (distinct : n₀ ≠ n) (up : g.ArcUp (frame.node (.nic l n₀)) (frame.node (.leaf l)))
    (down : g.ArcUp (frame.node (.leaf l)) (frame.node (.nic l n))) :
    ∃ path, path.length = 2 ∧ ∀ other,
      g.Shortest (frame.node (.nic l n₀)) (frame.node (.nic l n)) other ↔ other = path := by
  obtain ⟨first, isUp⟩ := (arcUp_iff canonical (node_mem canonical frame _)).mp up
  obtain ⟨second, isDown⟩ := (arcUp_iff canonical (node_mem canonical frame _)).mp down
  have far : climb l n (.nic l n₀) = 2 := by simp [climb, distinct]
  have isPath : g.OperationalPath (frame.node (.nic l n₀)) [first, second]
      (frame.node (.nic l n)) := by
    rw [operationalPath_iff canonical (node_mem canonical frame _)]
    exact ⟨_, isUp, _, isDown, rfl⟩
  refine ⟨[first, second], rfl, fun other => ?_⟩
  rw [shortest_iff canonical frame isPath far.symm, far]
  constructor
  · rintro ⟨isOther, length⟩
    rw [operationalPath_iff canonical (node_mem canonical frame _)] at isOther
    obtain ⟨_, _, rfl, isUp', isDown'⟩ := walk_same_leaf frame l n canonical distinct isOther length
    rw [frame.way_unique canonical isUp' isUp, frame.way_unique canonical isDown' isDown]
  · rintro rfl
    exact ⟨isPath, rfl⟩

theorem shortest_of_other_leaf (canonical : g.Canonical) (frame : ClosFrame c g.outline)
    (distinct : l₀ ≠ l) (up : g.ArcUp (frame.node (.nic l₀ n₀)) (frame.node (.leaf l₀)))
    (down : g.ArcUp (frame.node (.leaf l)) (frame.node (.nic l n))) {spines : Set SwitchId}
    (isSpine : ∀ s, s ∈ spines ↔ ∃ t, .ofSwitch s = frame.node (.spine t) ∧
      g.ArcUp (frame.node (.leaf l₀)) (frame.node (.spine t)) ∧
      g.ArcUp (frame.node (.spine t)) (frame.node (.leaf l)))
    (some : spines.Nonempty) :
    (∀ path, g.Shortest (frame.node (.nic l₀ n₀)) (frame.node (.nic l n)) path →
      path.length = 4 ∧ ∃! s, s ∈ spines ∧
        g.Through (frame.node (.nic l₀ n₀)) (.ofSwitch s) (frame.node (.nic l n)) path) ∧
    ∀ s ∈ spines, ∃! path, g.Shortest (frame.node (.nic l₀ n₀)) (frame.node (.nic l n)) path ∧
      g.Through (frame.node (.nic l₀ n₀)) (.ofSwitch s) (frame.node (.nic l n)) path := by
  have atSpine : ∀ {s s' : SwitchId} {t : Fin c.spines}, .ofSwitch s = frame.node (.spine t) →
      .ofSwitch s' = frame.node (.spine t) → s = s' := fun here here' =>
    StrongId.value_injective (congrArg NodeId.value (here.trans here'.symm))
  obtain ⟨s₁, isMember⟩ := some
  obtain ⟨t₁, _, out₁, back₁⟩ := (isSpine s₁).mp isMember
  obtain ⟨known, via₁⟩ := exists_viaSpine canonical up down out₁ back₁
  have iff := shortest_iff_viaSpine canonical distinct via₁
  constructor
  · intro path shortest
    obtain ⟨t, via⟩ := (iff path).mp shortest
    obtain ⟨out, back⟩ := via.arcs canonical
    obtain ⟨switch, _, here, _⟩ := frame.spine_at canonical t
    refine ⟨via.length, switch.id, ⟨(isSpine _).mpr ⟨t, here, out, back⟩, ?_⟩, ?_⟩
    · rw [here]
      exact via.through canonical
    · rintro s ⟨member, through⟩
      obtain ⟨t', here', _⟩ := (isSpine s).mp member
      rw [here'] at through
      obtain rfl := via.eq_of_through canonical through
      exact atSpine here' here
  · intro s member
    obtain ⟨t, here, out, back⟩ := (isSpine s).mp member
    obtain ⟨path, via⟩ := exists_viaSpine canonical up down out back
    rw [here]
    refine ⟨path, ⟨(iff path).mpr ⟨t, via⟩, via.through canonical⟩, ?_⟩
    rintro other ⟨shortest, through⟩
    obtain ⟨t', via'⟩ := (iff other).mp shortest
    obtain rfl := via'.eq_of_through canonical through
    exact via'.unique canonical via

/-- Two sets that a relation pairs off have as many members. -/
theorem ncard_eq_of_paired {α β : Type} {s : Set α} {t : Set β} {paired : α → β → Prop}
    (each : ∀ a ∈ s, ∃! b, b ∈ t ∧ paired a b) (every : ∀ b ∈ t, ∃! a, a ∈ s ∧ paired a b) :
    s.ncard = t.ncard := by
  choose f isPaired only using each
  refine Set.ncard_congr f (fun a member => (isPaired a member).1) ?_ ?_
  · intro a a' member member' same
    have isB := (isPaired a member).1
    have first := (isPaired a member).2
    have second := (isPaired a' member').2
    rw [← same] at second
    exact (every _ isB).unique ⟨member, first⟩ ⟨member', second⟩
  · intro b isB
    obtain ⟨a, ⟨member, pair⟩, _⟩ := every b isB
    exact ⟨a, member, (only a member b ⟨isB, pair⟩).symm⟩

end Leaves

/-- The spines that one leaf reaches and that reach the other. -/
def TopologyGraph.spinesBetween (g : TopologyGraph) (first last : SwitchId) : Set SwitchId :=
  {s | ∃ spine ∈ g.switches, spine.id = s ∧ spine.role = .spine ∧
    g.ArcUp (.ofSwitch first) (.ofSwitch s) ∧ g.ArcUp (.ofSwitch s) (.ofSwitch last)}

section Coordinates

variable {c : ClosShape} {g : TopologyGraph}

theorem mem_spinesBetween (canonical : g.Canonical) (frame : ClosFrame c g.outline)
    {first last s : SwitchId} : s ∈ g.spinesBetween first last ↔
      ∃ t, .ofSwitch s = frame.node (.spine t) ∧ g.ArcUp (.ofSwitch first) (frame.node (.spine t)) ∧
        g.ArcUp (frame.node (.spine t)) (.ofSwitch last) := by
  constructor
  · rintro ⟨spine, member, rfl, role, out, back⟩
    rcases frame.switch_coordinates canonical member with ⟨_, _, other, _⟩ | ⟨t, here, _⟩
    · rw [role] at other
      cases other
    · rw [here] at out back
      exact ⟨t, here, out, back⟩
  · rintro ⟨t, here, out, back⟩
    obtain ⟨spine, member, atSpine, role, _⟩ := frame.spine_at canonical t
    have isSpine : spine.id = s :=
      StrongId.value_injective (congrArg NodeId.value (atSpine.trans here.symm))
    rw [← here] at out back
    exact ⟨spine, member, isSpine, role, out, back⟩

theorem leaf_coordinates (canonical : g.Canonical) (frame : ClosFrame c g.outline)
    {l : Fin c.leaves} {leaf : Switch} (member : leaf ∈ g.switches) (rack : leaf.rack = some ⟨l⟩) :
    .ofSwitch leaf.id = frame.node (.leaf l) := by
  rcases frame.switch_coordinates canonical member with ⟨l', here, _, same⟩ | ⟨_, _, _, none⟩
  · rw [rack] at same
    cases Fin.ext (StrongId.mk.inj (Option.some.inj same))
    exact here
  · rw [rack] at none
    cases none

end Coordinates

theorem nodeIsOperational_nic {g : TopologyGraph} (canonical : g.Canonical) {nic : Nic}
    (member : nic ∈ g.nics) : g.nodeIsOperational (.ofNic nic.id) = true := by
  have known : NodeId.ofNic nic.id ∈ g.nodes := by
    simp only [nodes, List.mem_append, List.mem_map]
    exact .inl (.inr ⟨nic, member, rfl⟩)
  have contains := canonical.contains.mpr (canonical.mem_nodes.mp known)
  unfold nodeIsOperational
  rw [contains]
  rfl

/-- Between two NICs of a valid Clos whose links to their leaves are up: over one leaf there is one
shortest path; over two leaves there is one for each spine that joins them, whatever else is down.
The functions of the source report their length and their number, unless the count overflows. -/
theorem clos_shortest_paths {g : TopologyGraph} {config : ClosConfig} (built : g.Built)
    (valid : validateClosTopology g config = .ok []) {a b : Nic} (isA : a ∈ g.nics)
    (isB : b ∈ g.nics) (different : a ≠ b) {leafA leafB : Switch} (isLeafA : leafA ∈ g.switches)
    (rackA : leafA.rack = some a.rack) (isLeafB : leafB ∈ g.switches)
    (rackB : leafB.rack = some b.rack) (up : g.ArcUp (.ofNic a.id) (.ofSwitch leafA.id))
    (down : g.ArcUp (.ofSwitch leafB.id) (.ofNic b.id)) :
    (a.rack = b.rack →
      (∃ path, path.length = 2 ∧ ∀ other,
        g.Shortest (.ofNic a.id) (.ofNic b.id) other ↔ other = path) ∧
      g.shortestHops (.ofNic a.id) (.ofNic b.id) = .ok (some 2) ∧
      (g.shortestPathSummary (.ofNic a.id) (.ofNic b.id) = .error countOverflow ∨
        g.shortestPathSummary (.ofNic a.id) (.ofNic b.id) = .ok (some ⟨2, 1⟩))) ∧
    (a.rack ≠ b.rack → (g.spinesBetween leafA.id leafB.id).Nonempty →
      (∀ path, g.Shortest (.ofNic a.id) (.ofNic b.id) path → path.length = 4 ∧
        ∃! s, s ∈ g.spinesBetween leafA.id leafB.id ∧
          g.Through (.ofNic a.id) (.ofSwitch s) (.ofNic b.id) path) ∧
      (∀ s ∈ g.spinesBetween leafA.id leafB.id, ∃! path,
        g.Shortest (.ofNic a.id) (.ofNic b.id) path ∧
          g.Through (.ofNic a.id) (.ofSwitch s) (.ofNic b.id) path) ∧
      g.shortestHops (.ofNic a.id) (.ofNic b.id) = .ok (some 4) ∧
      (g.shortestPathSummary (.ofNic a.id) (.ofNic b.id) = .error countOverflow ∨
        g.shortestPathSummary (.ofNic a.id) (.ofNic b.id) =
          .ok (some ⟨4, (g.spinesBetween leafA.id leafB.id).ncard⟩))) := by
  have canonical := built.canonical
  obtain ⟨dimensions, accepted, _⟩ := returned_of_bind valid
  obtain ⟨frame⟩ := (validateClosTopology_iff built accepted).mp valid
  obtain ⟨l₀, n₀, atA, homeA⟩ := frame.nic_coordinates canonical isA
  obtain ⟨l, n, atB, homeB⟩ := frame.nic_coordinates canonical isB
  have upA := nodeIsOperational_nic canonical isA
  have upB := nodeIsOperational_nic canonical isB
  -- both NICs and both leaves have their coordinates in the frame
  have atLeafA := leaf_coordinates canonical frame isLeafA (rackA.trans (congrArg some homeA))
  have atLeafB := leaf_coordinates canonical frame isLeafB (rackB.trans (congrArg some homeB))
  have knownA : NodeId.ofNic a.id ∈ g.nodes := atA ▸ node_mem canonical frame _
  have knownB : NodeId.ofNic b.id ∈ g.nodes := atB ▸ node_mem canonical frame _
  rw [atA, atLeafA] at up
  rw [atLeafB, atB] at down
  rw [homeA, homeB]
  constructor
  · intro sameRack
    cases Fin.ext (StrongId.mk.inj sameRack)
    -- over one leaf the NICs differ in their number
    have distinct : n₀ ≠ n := by
      rintro rfl
      have sameId : a.id = b.id :=
        StrongId.value_injective (congrArg NodeId.value (atA.trans atB.symm))
      have foundA := canonical.aligned.nics.mem isA
      rw [sameId, canonical.aligned.nics.mem isB] at foundA
      exact different (Option.some.inj foundA).symm
    obtain ⟨path, length, only⟩ := shortest_of_same_leaf canonical frame distinct up down
    rw [← atA, ← atB] at only
    obtain ⟨hops, summary⟩ := summary_of_shortest canonical knownA knownB ((only path).mpr rfl) upA upB
    have one : {other | g.Shortest (.ofNic a.id) (.ofNic b.id) other} = {path} := Set.ext only
    rw [length] at hops summary
    rw [one, Set.ncard_singleton] at summary
    exact ⟨⟨path, length, only⟩, hops, summary⟩
  · intro otherRack joined
    -- over two leaves the leaves differ
    have distinct : l₀ ≠ l := by
      rintro rfl
      exact otherRack rfl
    obtain ⟨each, every⟩ := shortest_of_other_leaf canonical frame distinct up down
      (fun s => by rw [mem_spinesBetween canonical frame, atLeafA, atLeafB]) joined
    rw [← atA, ← atB] at each every
    obtain ⟨s, isSpine⟩ := joined
    obtain ⟨known, ⟨shortest, _⟩, _⟩ := every s isSpine
    obtain ⟨hops, summary⟩ := summary_of_shortest canonical knownA knownB shortest upA upB
    rw [(each known shortest).1] at hops summary
    refine ⟨each, every, hops, ?_⟩
    have count : Set.ncard {path | g.Shortest (.ofNic a.id) (.ofNic b.id) path} =
        (g.spinesBetween leafA.id leafB.id).ncard :=
      ncard_eq_of_paired (fun path isShortest => (each path isShortest).2) every
    rw [count] at summary
    exact summary

/-- Two leaves and two spines. -/
def twoLeaves : TopologyGraph :=
  after (connectFabric ⟨.switch, 1⟩ .fabricUplink ⟨.switch, 3⟩ .fabricDownlink)
    (after (connectFabric ⟨.switch, 1⟩ .fabricUplink ⟨.switch, 2⟩ .fabricDownlink)
    (after (connectFabric ⟨.switch, 0⟩ .fabricUplink ⟨.switch, 3⟩ .fabricDownlink)
    (after (connectFabric ⟨.switch, 0⟩ .fabricUplink ⟨.switch, 2⟩ .fabricDownlink)
    (after addSpineSwitch (after addSpineSwitch
    (after (connectFabric ⟨.nic, 1⟩ .fabricUplink ⟨.switch, 1⟩ .fabricDownlink)
    (after (addGpu ⟨1⟩) (after (addNic ⟨1⟩) (after (addLeafSwitch ⟨1⟩) (after addRack
    (after (connectFabric ⟨.nic, 0⟩ .fabricUplink ⟨.switch, 0⟩ .fabricDownlink)
    (after (addGpu ⟨0⟩) (after (addNic ⟨0⟩) (after (addLeafSwitch ⟨0⟩) (after addRack {})))))))))))))))

/-- The cable from the first leaf to the first spine is pulled. -/
def unplugged : TopologyGraph := (twoLeaves.setLinkState ⟨4⟩ .down).2

theorem unplugged_built : unplugged.Built :=
  .setLinkState _ _ (.connectFabric _ _ _ _ (.connectFabric _ _ _ _ (.connectFabric _ _ _ _
    (.connectFabric _ _ _ _ (.addSpineSwitch (.addSpineSwitch (.connectFabric _ _ _ _ (.addGpu _
      (.addNic _ (.addLeafSwitch _ (.addRack (.connectFabric _ _ _ _ (.addGpu _ (.addNic _
        (.addLeafSwitch _ (.addRack .empty))))))))))))))))

theorem clos_shortest_paths_unplugged :
    unplugged.shortestHops ⟨.nic, 0⟩ ⟨.nic, 1⟩ = .ok (some 4) ∧
      unplugged.shortestPathSummary ⟨.nic, 0⟩ ⟨.nic, 1⟩ =
        .ok (some ⟨4, (unplugged.spinesBetween ⟨0⟩ ⟨1⟩).ncard⟩) ∧
      ∃! path, unplugged.Shortest ⟨.nic, 0⟩ ⟨.nic, 1⟩ path ∧
        unplugged.Through ⟨.nic, 0⟩ ⟨.switch, 3⟩ ⟨.nic, 1⟩ path := by
  have canonical := unplugged_built.canonical
  have arc : ∀ {u v : NodeId}, u ∈ unplugged.nodes →
      (∃ id, (id, v) ∈ unplugged.ways unplugged.isOperational u) → unplugged.ArcUp u v :=
    fun isNode => (arcUp_iff canonical isNode).mpr
  have spine : (⟨3⟩ : SwitchId) ∈ unplugged.spinesBetween ⟨0⟩ ⟨1⟩ :=
    ⟨⟨⟨3⟩, none, .spine, [⟨11⟩, ⟨15⟩], .up⟩, by decide +kernel, rfl, rfl,
      arc (by decide +kernel) ⟨⟨⟨5⟩, .aToB⟩, by decide +kernel⟩,
      arc (by decide +kernel) ⟨⟨⟨7⟩, .bToA⟩, by decide +kernel⟩⟩
  obtain ⟨_, other⟩ := @clos_shortest_paths unplugged ⟨2, 1, 1, 2⟩ unplugged_built
    (by decide +kernel) ⟨⟨0⟩, ⟨0⟩, [⟨0⟩], [⟨1⟩, ⟨2⟩]⟩ ⟨⟨1⟩, ⟨1⟩, [⟨1⟩], [⟨5⟩, ⟨6⟩]⟩
    (by decide +kernel) (by decide +kernel) (by decide)
    ⟨⟨0⟩, some ⟨0⟩, .leaf, [⟨3⟩, ⟨8⟩, ⟨10⟩], .up⟩ ⟨⟨1⟩, some ⟨1⟩, .leaf, [⟨7⟩, ⟨12⟩, ⟨14⟩], .up⟩
    (by decide +kernel) rfl (by decide +kernel) rfl
    (arc (by decide +kernel) ⟨⟨⟨1⟩, .aToB⟩, by decide +kernel⟩)
    (arc (by decide +kernel) ⟨⟨⟨3⟩, .bToA⟩, by decide +kernel⟩)
  have counts : (unplugged.shortestPathSummary ⟨.nic, 0⟩ ⟨.nic, 1⟩).isOk = true := by
    decide +kernel
  obtain ⟨_, each, hops, summary⟩ := other (by decide) ⟨_, spine⟩
  refine ⟨hops, summary.resolve_left fun thrown => ?_, each _ spine⟩
  simp only [NodeId.ofNic] at thrown
  rw [thrown] at counts
  cases counts

end NexusLab.Topology
