import NexusLab.Routing.Shortest
import Mathlib.Algebra.Order.BigOperators.Group.List
import Mathlib.Algebra.Order.Ring.Nat

/-! # The path cache cannot be seen

A session is a path service beside a graph whose states change.  Whatever is looked up, the answer
is that of a fresh enumeration, because whatever the cache holds for the current revision was
enumerated on the graph as it is: every change of a state counts the revision up. -/

namespace NexusLab.Routing

open Foundation NexusLab.Topology

/-! ## Enumerated answers -/

section Enumerated

variable {graph : TopologyGraph} {limits : PathLimits} {endpoints : Endpoints} {paths : List Path}

/-- What is known of an answer without knowing the graph. -/
structure Solid (limits : PathLimits) (paths : List Path) : Prop where
  nonempty : ∀ path ∈ paths, 0 < path.length
  bounded : (paths.map List.length).sum ≤ limits.maximumCachedRouteEntries

theorem sum_lengths {n : Nat} (lengths : ∀ path ∈ paths, path.length = n) :
    (paths.map List.length).sum = paths.length * n := by
  induction paths with
  | nil => simp
  | cons path paths ih =>
    rw [List.map_cons, List.sum_cons, lengths path (List.mem_cons_self ..),
      ih fun p member => lengths p (List.mem_cons_of_mem _ member), List.length_cons,
      Nat.add_mul, Nat.one_mul, Nat.add_comm]

theorem Solid.length_le (solid : Solid limits paths) :
    paths.length ≤ (paths.map List.length).sum := by
  have nonempty := solid.nonempty
  clear solid
  induction paths with
  | nil => simp
  | cons path paths ih =>
    have here := nonempty path (List.mem_cons_self ..)
    have rest := ih fun p member => nonempty p (List.mem_cons_of_mem _ member)
    simp only [List.length_cons, List.map_cons, List.sum_cons]
    omega

theorem enumerate_solid (canonical : graph.Canonical)
    (ok : enumerate graph limits endpoints = .ok paths) : Solid limits paths := by
  by_cases known : endpoints.Known graph
  · obtain ⟨there, distance, answer⟩ := enumerate_eq limits canonical known
    rw [ok] at answer
    cases there with
    | none =>
      cases answer
      exact ⟨by simp, by simp⟩
    | some n =>
      simp only at answer
      split at answer
      · cases answer
      · split at answer
        · rename_i fits
          cases answer
          have perm := List.perm_insertionSort (· ≤ ·)
            (walksTo (hops graph) endpoints.destination n endpoints.source)
          have lengths : ∀ path ∈ (walksTo (hops graph) endpoints.destination n
              endpoints.source).insertionSort (· ≤ ·), path.length = n :=
            fun path member => length_of_mem_walksTo (perm.mem_iff.mp member)
          refine ⟨?_, ?_⟩
          · intro path member
            rw [lengths path member]
            by_contra zero
            have isZero : n = 0 := by omega
            subst isZero
            exact known.2.2 distance.eq_of_zero
          · rw [sum_lengths lengths, perm.length_eq]
            exact fits.entries
        · cases answer
  · obtain ⟨what, thrown⟩ := enumerate_unknown limits canonical known
    rw [ok] at thrown
    cases thrown

theorem enumerate_throws (canonical : graph.Canonical) {e : Error}
    (thrown : enumerate graph limits endpoints = .error e) : e.kind ≠ .undefinedBehavior := by
  by_cases known : endpoints.Known graph
  · obtain ⟨there, _, answer⟩ := enumerate_eq limits canonical known
    rw [thrown] at answer
    cases there with
    | none => cases answer
    | some n =>
      simp only at answer
      split at answer
      · cases answer
        decide
      · split at answer
        · cases answer
        · cases answer
          decide
  · obtain ⟨what, refused⟩ := enumerate_unknown limits canonical known
    rw [thrown] at refused
    cases refused
    simp [Error.invalidArgument]

end Enumerated

/-! ## The cache -/

section Cache

variable {graph : TopologyGraph} {s : PathService} {endpoints : Endpoints} {paths : List Path}

def entriesOf (paths : List Path) : Nat := (paths.map List.length).sum

/-- The totals over the cached answers. -/
def totalPaths (cache : OrderedMap Endpoints (List Path)) : Nat :=
  (cache.entries.map fun entry => entry.2.length).sum

def totalEntries (cache : OrderedMap Endpoints (List Path)) : Nat :=
  (cache.entries.map fun entry => entriesOf entry.2).sum

/-- What holds of a service between calls. -/
structure Sound (graph : TopologyGraph) (s : PathService) : Prop where
  order : s.order.Perm s.cache.keys
  paths : s.statistics.paths = totalPaths s.cache
  entries : s.statistics.routeEntries = totalEntries s.cache
  entriesFit : totalEntries s.cache ≤ s.limits.maximumCachedRouteEntries
  pairsFit : s.cache.size ≤ s.limits.maximumCachedPairs
  somePairs : 0 < s.limits.maximumCachedPairs
  solid : ∀ e paths, s.cache.find? e = some paths → Solid s.limits paths
  past : s.revision ≤ graph.operationalRevision
  current : s.revision = graph.operationalRevision →
    ∀ e paths, s.cache.find? e = some paths → enumerate graph s.limits e = .ok paths

theorem foldl_sub {lengths : List Nat} {total : Nat} (le : lengths.sum ≤ total)
    (fits : total ≤ maxU64) :
    lengths.foldl (fun left length => U64.sub left length) total = total - lengths.sum := by
  induction lengths generalizing total with
  | nil => rfl
  | cons length lengths ih =>
    rw [List.sum_cons] at le
    have small : total < 2 ^ 64 := by
      unfold maxU64 at fits
      omega
    rw [List.foldl_cons, U64.sub_eq (by omega) small, ih (by omega) (by omega), List.sum_cons]
    omega

theorem foldl_add {lengths : List Nat} {total : Nat} (fits : total + lengths.sum ≤ maxU64) :
    lengths.foldl (fun sum length => U64.add sum length) total = total + lengths.sum := by
  induction lengths generalizing total with
  | nil => rfl
  | cons length lengths ih =>
    rw [List.sum_cons] at fits
    have small : total + length < 2 ^ 64 := by
      unfold maxU64 at fits
      omega
    rw [List.foldl_cons, U64.add_eq small, ih (by omega), List.sum_cons]
    omega

theorem routeEntriesOf_eq {limits : PathLimits} (solid : Solid limits paths) :
    PathService.routeEntriesOf paths = entriesOf paths := by
  have fits := solid.bounded.trans limits.fits
  have folded := @foldl_add (paths.map List.length) 0 (by simpa using fits)
  rw [List.foldl_map] at folded
  simpa [PathService.routeEntriesOf, entriesOf] using folded

theorem totals_erase {cache : OrderedMap Endpoints (List Path)}
    (found : cache.find? endpoints = some paths) :
    totalPaths cache = paths.length + totalPaths (cache.erase endpoints) ∧
      totalEntries cache = entriesOf paths + totalEntries (cache.erase endpoints) := by
  have perm := OrderedMap.erase_perm found
  exact ⟨(perm.map _).sum_eq, (perm.map _).sum_eq⟩

theorem totals_insert {cache : OrderedMap Endpoints (List Path)}
    (fresh : cache.find? endpoints = none) :
    totalPaths (cache.insert endpoints paths) = paths.length + totalPaths cache ∧
      totalEntries (cache.insert endpoints paths) = entriesOf paths + totalEntries cache := by
  have perm := OrderedMap.insert_perm (v := paths) fresh
  exact ⟨(perm.map _).sum_eq, (perm.map _).sum_eq⟩

/-- Paths have arcs, so there are no more paths than route entries. -/
theorem Sound.paths_le (sound : Sound graph s) : totalPaths s.cache ≤ totalEntries s.cache := by
  refine List.sum_le_sum ?_
  intro entry member
  exact (sound.solid entry.1 entry.2 (OrderedMap.find?_eq_some_iff.mpr member)).length_le

/-- Evicting the oldest answer. -/
theorem wp_evictOldest (sound : Sound graph s) {oldest : Endpoints} {rest : List Endpoints}
    (order : s.order = oldest :: rest) :
    wp PathService.evictOldest
      (fun _ s' => Sound graph s' ∧ s'.order = rest ∧ s'.limits = s.limits ∧
        s'.revision = s.revision ∧ ∀ e paths, s'.cache.find? e = some paths →
          s.cache.find? e = some paths)
      (fun _ _ => False) s := by
  have isKey : oldest ∈ s.cache.keys := sound.order.mem_iff.mp (by simp [order])
  obtain ⟨paths, found⟩ := OrderedMap.mem_keys_iff.mp isKey
  obtain ⟨fewerPaths, fewerEntries⟩ := totals_erase found
  have few := sound.entriesFit.trans s.limits.fits
  have fewPaths := sound.paths_le.trans few
  simp only [PathService.evictOldest, wp_bind, wp_get, order, found, wp_getOrThrow, wp_set,
    Option.some.injEq, forall_eq', reduceCtorEq, false_implies, and_true]
  have left : ∀ e found, (s.cache.erase oldest).find? e = some found →
      s.cache.find? e = some found := by
    intro e found isFound
    rw [OrderedMap.find?_erase] at isFound
    split at isFound
    · cases isFound
    · exact isFound
  refine ⟨?_, trivial, trivial, trivial, left⟩
  constructor
  · have keys : s.cache.keys.Perm (oldest :: (s.cache.erase oldest).keys) :=
      (OrderedMap.erase_perm found).map Prod.fst
    have cut := sound.order.trans keys
    rw [order] at cut
    exact cut.cons_inv
  · have subtracted : U64.sub s.statistics.paths paths.length = s.statistics.paths - paths.length := by
      rw [sound.paths]
      refine U64.sub_eq (by omega) ?_
      unfold maxU64 at fewPaths
      omega
    show U64.sub s.statistics.paths paths.length = totalPaths (s.cache.erase oldest)
    rw [subtracted, sound.paths]
    omega
  · have folded := @foldl_sub (paths.map List.length) s.statistics.routeEntries (by
      rw [sound.entries, fewerEntries]
      exact Nat.le_add_right ..) (by rwa [sound.entries])
    rw [List.foldl_map] at folded
    show paths.foldl _ s.statistics.routeEntries = totalEntries (s.cache.erase oldest)
    rw [folded, sound.entries, fewerEntries]
    exact Nat.add_sub_cancel_left ..
  · exact (Nat.le_of_add_left_le (le_of_eq fewerEntries.symm)).trans sound.entriesFit
  · have fewer := OrderedMap.size_erase_of_found found
    have fits := sound.pairsFit
    show (s.cache.erase oldest).size ≤ s.limits.maximumCachedPairs
    omega
  · exact sound.somePairs
  · exact fun e found isFound => sound.solid e found (left e found isFound)
  · exact sound.past
  · exact fun current e found isFound => sound.current current e found (left e found isFound)

/-- There is room in an empty cache. -/
theorem Sound.room_when_empty (sound : Sound graph s) (empty : s.order = []) {entries : Nat}
    (few : entries ≤ s.limits.maximumCachedRouteEntries) : ¬ s.full entries := by
  have noKeys : s.cache.keys = [] := by
    have perm := sound.order
    rw [empty] at perm
    exact perm.nil_eq.symm
  have noEntries : s.cache.entries = [] := List.map_eq_nil_iff.mp noKeys
  have size : s.cache.size = 0 := by simp [OrderedMap.size, noEntries]
  have none_used : s.statistics.routeEntries = 0 := by
    rw [sound.entries]
    simp [totalEntries, noEntries]
  have fits := s.limits.fits
  have all : U64.sub s.limits.maximumCachedRouteEntries 0 = s.limits.maximumCachedRouteEntries := by
    rw [U64.sub_eq (Nat.zero_le _) (by unfold maxU64 at fits; omega), Nat.sub_zero]
  have some_room := sound.somePairs
  unfold PathService.full
  rw [none_used, all, size]
  omega

/-- Eviction ends, with room, before the cache is empty or then. -/
theorem wp_makeRoom {entries : Nat} {rounds : Nat} (sound : Sound graph s)
    (few : entries ≤ s.limits.maximumCachedRouteEntries) (enough : s.order.length < rounds) :
    wp (PathService.makeRoom entries rounds)
      (fun _ s' => Sound graph s' ∧ ¬ s'.full entries ∧ s'.limits = s.limits ∧
        s'.revision = s.revision ∧ ∀ e paths, s'.cache.find? e = some paths →
          s.cache.find? e = some paths)
      (fun _ _ => False) s := by
  induction rounds generalizing s with
  | zero => omega
  | succ rounds ih =>
    simp only [PathService.makeRoom, wp_bind, wp_get, wp_ite, wp_pure]
    constructor
    · intro full
      cases order : s.order with
      | nil => exact absurd full (sound.room_when_empty order few)
      | cons oldest rest =>
        refine wp_mono (wp_evictOldest sound order) ?_ (fun _ _ never => never)
        rintro _ s' ⟨sound', order', limits, revision, left⟩
        have shorter : s'.order.length < rounds := by
          rw [order']
          rw [order, List.length_cons] at enough
          omega
        refine wp_mono (ih sound' (by rwa [limits]) shorter) ?_ (fun _ _ never => never)
        rintro _ s'' ⟨sound'', room, limits', revision', left'⟩
        exact ⟨sound'', room, limits'.trans limits, revision'.trans revision,
          fun e paths found => left e paths (left' e paths found)⟩
    · intro room
      exact ⟨sound, room, trivial, trivial, fun _ _ found => found⟩

theorem Sound.refresh (sound : Sound graph s) :
    Sound graph (s.refresh graph) ∧ (s.refresh graph).revision = graph.operationalRevision ∧
      (s.refresh graph).limits = s.limits := by
  unfold PathService.refresh
  by_cases stale : s.revision ≠ graph.operationalRevision
  · rw [if_pos stale]
    refine ⟨?_, rfl, rfl⟩
    exact {
      order := .refl _
      paths := rfl
      entries := rfl
      entriesFit := Nat.zero_le _
      pairsFit := Nat.zero_le _
      somePairs := sound.somePairs
      solid := by
        intro e paths found
        cases found
      past := le_refl _
      current := by
        intro _ e paths found
        cases found }
  · rw [if_neg stale]
    exact ⟨sound, not_not.mp stale, rfl⟩

theorem Sound.countHit (sound : Sound graph s) : Sound graph s.countHit := { sound with }

theorem Sound.countMiss (sound : Sound graph s) : Sound graph s.countMiss := { sound with }

theorem Sound.remember (sound : Sound graph s) (fresh : s.cache.find? endpoints = none)
    (solid : Solid s.limits paths) (room : ¬ s.full (entriesOf paths))
    (enumerated : s.revision = graph.operationalRevision →
      enumerate graph s.limits endpoints = .ok paths) :
    Sound graph (s.remember endpoints paths (entriesOf paths)) := by
  obtain ⟨morePaths, moreEntries⟩ := @totals_insert endpoints paths s.cache fresh
  unfold PathService.full at room
  have limitFits := s.limits.fits
  have within := sound.entriesFit
  rw [sound.entries, U64.sub_eq within (by unfold maxU64 at limitFits; omega)] at room
  have added : entriesOf paths + totalEntries s.cache ≤ s.limits.maximumCachedRouteEntries := by
    omega
  have fewer : paths.length + totalPaths s.cache ≤ entriesOf paths + totalEntries s.cache :=
    Nat.add_le_add solid.length_le sound.paths_le
  have found : ∀ e answer, (s.cache.insert endpoints paths).find? e = some answer →
      e = endpoints ∧ answer = paths ∨ s.cache.find? e = some answer := by
    intro e answer isFound
    rw [OrderedMap.find?_insert] at isFound
    split at isFound
    · cases isFound
      exact .inl ⟨‹_›, rfl⟩
    · exact .inr isFound
  exact {
    order := by
      have keys : (s.cache.insert endpoints paths).keys.Perm (endpoints :: s.cache.keys) :=
        (OrderedMap.insert_perm fresh).map Prod.fst
      exact (List.perm_append_singleton endpoints s.order).trans
        ((sound.order.cons endpoints).trans keys.symm)
    paths := by
      show U64.add s.statistics.paths paths.length = totalPaths (s.cache.insert endpoints paths)
      rw [sound.paths, U64.add_eq (by unfold maxU64 at limitFits; omega), morePaths]
      omega
    entries := by
      show U64.add s.statistics.routeEntries (entriesOf paths) =
        totalEntries (s.cache.insert endpoints paths)
      rw [sound.entries, U64.add_eq (by unfold maxU64 at limitFits; omega), moreEntries]
      omega
    entriesFit := by
      show totalEntries (s.cache.insert endpoints paths) ≤ s.limits.maximumCachedRouteEntries
      omega
    pairsFit := by
      show (s.cache.insert endpoints paths).size ≤ s.limits.maximumCachedPairs
      rw [OrderedMap.size_insert_of_fresh fresh]
      omega
    somePairs := sound.somePairs
    solid := by
      intro e answer isFound
      rcases found e answer isFound with ⟨rfl, rfl⟩ | old
      · exact solid
      · exact sound.solid e answer old
    past := sound.past
    current := by
      intro current e answer isFound
      rcases found e answer isFound with ⟨rfl, rfl⟩ | old
      · exact enumerated current
      · exact sound.current current e answer old }

/-- The answer cached for the graph as it is. -/
def PathService.valid (graph : TopologyGraph) (s : PathService) (e : Endpoints) :
    Option (List Path) :=
  if s.revision = graph.operationalRevision then s.cache.find? e else none

theorem valid_refresh (e : Endpoints) : (s.refresh graph).valid graph e = s.valid graph e := by
  unfold PathService.refresh
  by_cases stale : s.revision ≠ graph.operationalRevision
  · simp [PathService.valid, stale]
  · simp [stale]

/-- A lookup answers, or throws, as the enumeration does. -/
theorem wp_lookup (endpoints : Endpoints) (canonical : graph.Canonical) (sound : Sound graph s) :
    wp (PathService.lookup graph endpoints)
      (fun paths s' => Sound graph s' ∧ s'.limits = s.limits ∧
        enumerate graph s.limits endpoints = .ok paths)
      (fun e s' => Sound graph s' ∧ s'.limits = s.limits ∧
        enumerate graph s.limits endpoints = .error e ∧
        ∀ other, s'.valid graph other = s.valid graph other) s := by
  obtain ⟨refreshed, current, limits⟩ := sound.refresh
  have valid := @valid_refresh graph s
  simp only [PathService.lookup, wp_bind, wp_modify, wp_get]
  generalize s.refresh graph = s₁ at refreshed current limits valid
  cases found : s₁.cache.find? endpoints with
  | some paths =>
    simp only [wp_bind, wp_modify, wp_pure]
    refine ⟨refreshed.countHit, limits, ?_⟩
    rw [← limits]
    exact refreshed.current current endpoints paths found
  | none =>
    simp only [wp_bind, wp_modify, wp_get, wp_fromExcept, wp_pure]
    have missed : s₁.countMiss.limits = s.limits := limits
    rw [missed]
    constructor
    · intro paths enumerated
      have solid := enumerate_solid canonical enumerated
      rw [routeEntriesOf_eq solid]
      have few : entriesOf paths ≤ s₁.countMiss.limits.maximumCachedRouteEntries := by
        rw [missed]
        exact solid.bounded
      refine wp_mono (wp_makeRoom refreshed.countMiss few (Nat.lt_succ_self _)) ?_
        (fun _ _ never => never.elim)
      rintro _ s₂ ⟨sound₂, room, limits₂, revision₂, left⟩
      have fresh : s₂.cache.find? endpoints = none := by
        cases isFound : s₂.cache.find? endpoints with
        | none => rfl
        | some answer =>
          have old := left endpoints answer isFound
          rw [show s₁.countMiss.cache = s₁.cache from rfl, found] at old
          cases old
      have same : s₂.limits = s.limits := limits₂.trans missed
      refine ⟨sound₂.remember fresh (by rwa [same]) room ?_, same, enumerated⟩
      intro _
      rw [same]
      exact enumerated
    · intro e thrown
      exact ⟨refreshed.countMiss, rfl, thrown, valid⟩

end Cache

/-! ## Sessions -/

/-- A service and the graph it looks at. -/
structure PathSession where
  graph : TopologyGraph
  service : PathService

namespace PathSession

/-- Lookups, whether they answer or throw, and state changes, whether they are refused or not. -/
inductive Step : PathSession → PathSession → Prop where
  | answered {graph : TopologyGraph} {service service' : PathService} {endpoints : Endpoints}
    {paths : List Path} : service.lookup graph endpoints = .ok paths service' →
    Step ⟨graph, service⟩ ⟨graph, service'⟩
  | threw {graph : TopologyGraph} {service service' : PathService} {endpoints : Endpoints}
    {e : Error} : service.lookup graph endpoints = .error e service' →
    Step ⟨graph, service⟩ ⟨graph, service'⟩
  | setLinkState {graph : TopologyGraph} {service : PathService} (id : LinkId)
    (state : OperationalState) : Step ⟨graph, service⟩ ⟨(graph.setLinkState id state).2, service⟩
  | setPortState {graph : TopologyGraph} {service : PathService} (id : PortId)
    (state : OperationalState) : Step ⟨graph, service⟩ ⟨(graph.setPortState id state).2, service⟩
  | setSwitchState {graph : TopologyGraph} {service : PathService} (id : SwitchId)
    (state : OperationalState) : Step ⟨graph, service⟩ ⟨(graph.setSwitchState id state).2, service⟩

/-- All that can come of a service created over a graph that was built. -/
inductive Reachable (limits : PathLimits) : PathSession → Prop where
  | created {graph : TopologyGraph} {service : PathService} : graph.Built →
    PathService.create graph limits = .ok service → Reachable limits ⟨graph, service⟩
  | step {session session' : PathSession} :
    Reachable limits session → Step session session' → Reachable limits session'

/-- A state change that does anything counts the revision up. -/
theorem setLinkState_revision (graph : TopologyGraph) (id : LinkId) (state : OperationalState) :
    (graph.setLinkState id state).2 = graph ∨
      (graph.setLinkState id state).2.operationalRevision = graph.operationalRevision + 1 := by
  unfold TopologyGraph.setLinkState
  split
  · exact .inl rfl
  · split
    · split
      · exact .inl rfl
      · exact .inr rfl
    · exact .inl rfl

theorem setPortState_revision (graph : TopologyGraph) (id : PortId) (state : OperationalState) :
    (graph.setPortState id state).2 = graph ∨
      (graph.setPortState id state).2.operationalRevision = graph.operationalRevision + 1 := by
  unfold TopologyGraph.setPortState
  split
  · exact .inl rfl
  · split
    · split
      · exact .inl rfl
      · exact .inr rfl
    · exact .inl rfl

theorem setSwitchState_revision (graph : TopologyGraph) (id : SwitchId)
    (state : OperationalState) :
    (graph.setSwitchState id state).2 = graph ∨
      (graph.setSwitchState id state).2.operationalRevision = graph.operationalRevision + 1 := by
  unfold TopologyGraph.setSwitchState
  split
  · exact .inl rfl
  · split
    · split
      · exact .inl rfl
      · exact .inr rfl
    · exact .inl rfl

/-- What was enumerated before a change is not current after it. -/
theorem sound_changed {graph graph' : TopologyGraph} {s : PathService} (sound : Sound graph s)
    (changed : graph' = graph ∨ graph'.operationalRevision = graph.operationalRevision + 1) :
    Sound graph' s := by
  rcases changed with rfl | counted
  · exact sound
  · have past := sound.past
    exact { sound with
      past := by omega
      current := fun current => by omega }

structure Invariant (limits : PathLimits) (session : PathSession) : Prop where
  canonical : session.graph.Canonical
  sound : Sound session.graph session.service
  limits : session.service.limits = limits

theorem Invariant.step {limits : PathLimits} {session session' : PathSession}
    (invariant : Invariant limits session) (step : Step session session') :
    Invariant limits session' := by
  obtain ⟨canonical, sound, sameLimits⟩ := invariant
  cases step with
  | answered ok =>
    obtain ⟨sound', same, _⟩ := wp_of_ok (wp_lookup _ canonical sound) ok
    exact ⟨canonical, sound', same.trans sameLimits⟩
  | threw thrown =>
    obtain ⟨sound', same, _⟩ := wp_of_error (wp_lookup _ canonical sound) thrown
    exact ⟨canonical, sound', same.trans sameLimits⟩
  | setLinkState id state =>
    exact ⟨TopologyGraph.canonical_congr (TopologyGraph.plain_setLinkState id) canonical,
      sound_changed sound (setLinkState_revision ..), sameLimits⟩
  | setPortState id state =>
    exact ⟨TopologyGraph.canonical_congr (TopologyGraph.plain_setPortState id) canonical,
      sound_changed sound (setPortState_revision ..), sameLimits⟩
  | setSwitchState id state =>
    exact ⟨TopologyGraph.canonical_congr (TopologyGraph.plain_setSwitchState id) canonical,
      sound_changed sound (setSwitchState_revision ..), sameLimits⟩

theorem invariant_created {limits : PathLimits} {graph : TopologyGraph} {service : PathService}
    (built : graph.Built) (ok : PathService.create graph limits = .ok service) :
    Invariant limits ⟨graph, service⟩ := by
  unfold PathService.create at ok
  split at ok
  · cases ok
  · rename_i valid
    cases ok
    refine ⟨built.canonical, ?_, rfl⟩
    exact {
      order := .refl _
      paths := rfl
      entries := rfl
      entriesFit := Nat.zero_le _
      pairsFit := Nat.zero_le _
      somePairs := by
        show 0 < limits.maximumCachedPairs
        omega
      solid := by
        intro e paths found
        cases found
      past := le_refl _
      current := by
        intro _ e paths found
        cases found }

theorem Reachable.invariant {limits : PathLimits} {session : PathSession}
    (reachable : Reachable limits session) : Invariant limits session := by
  induction reachable with
  | created built ok => exact invariant_created built ok
  | step _ step ih => exact ih.step step

/-- Whatever was looked up and whatever changed before, a lookup answers or throws as a fresh
enumeration of the graph as it is; a throw touches nothing that is valid for it.  No lookup evicts
from an empty cache or goes on evicting, which would be `undefinedBehavior`. -/
theorem path_cache_transparent {limits : PathLimits} {session : PathSession}
    (reachable : Reachable limits session) :
    (∀ endpoints, match session.service.lookup session.graph endpoints with
      | .ok paths _ => enumerate session.graph limits endpoints = .ok paths
      | .error e service' => enumerate session.graph limits endpoints = .error e ∧
        e.kind ≠ .undefinedBehavior ∧
        ∀ other, service'.valid session.graph other = session.service.valid session.graph other) ∧
      session.service.order.Nodup ∧
      (∀ endpoints, endpoints ∈ session.service.order ↔ endpoints ∈ session.service.cache.keys) ∧
      session.service.statistics.paths = totalPaths session.service.cache ∧
      session.service.statistics.routeEntries = totalEntries session.service.cache ∧
      session.service.statistics.routeEntries ≤ limits.maximumCachedRouteEntries ∧
      session.service.cache.size ≤ limits.maximumCachedPairs := by
  obtain ⟨canonical, sound, sameLimits⟩ := reachable.invariant
  refine ⟨?_, ?_, ?_, sound.paths, sound.entries, ?_, ?_⟩
  · intro endpoints
    have looked := wp_lookup endpoints canonical sound
    rw [sameLimits] at looked
    unfold wp at looked
    cases result : session.service.lookup session.graph endpoints with
    | ok paths service' =>
      rw [result] at looked
      exact looked.2.2
    | error e service' =>
      rw [result] at looked
      exact ⟨looked.2.2.1, enumerate_throws canonical looked.2.2.1, looked.2.2.2⟩
  · exact sound.order.nodup_iff.mpr session.service.cache.keys_nodup
  · intro endpoints
    exact sound.order.mem_iff
  · rw [sound.entries, ← sameLimits]
    exact sound.entriesFit
  · rw [← sameLimits]
    exact sound.pairsFit

open TopologyGraph in
/-- Two NICs on one switch. -/
def star : TopologyGraph :=
  after (connectFabric ⟨.nic, 1⟩ .fabricUplink ⟨.switch, 0⟩ .fabricDownlink)
    (after (connectFabric ⟨.nic, 0⟩ .fabricUplink ⟨.switch, 0⟩ .fabricDownlink)
      (after addSpineSwitch (after (addNic ⟨0⟩) (after (addNic ⟨0⟩) (after addRack {})))))

theorem star_built : star.Built :=
  .connectFabric _ _ _ _ (.connectFabric _ _ _ _ (.addSpineSwitch (.addNic _ (.addNic _
    (.addRack .empty)))))

def acrossStar : Endpoints := ⟨⟨.nic, 0⟩, ⟨.nic, 1⟩⟩

/-- A service that has looked up the way from one NIC to the other. -/
def starLooked : PathService :=
  match PathService.lookup star acrossStar { limits := {}, revision := 0 } with
  | .ok _ service => service
  | .error _ service => service

theorem starLooked_reachable :
    Reachable {} ⟨(star.setLinkState ⟨0⟩ .down).2, starLooked⟩ := by
  refine .step ?_ (.setLinkState ⟨0⟩ .down)
  have created : Reachable {} ⟨star, { limits := {}, revision := 0 }⟩ := .created star_built rfl
  unfold starLooked
  split
  · rename_i looked
    exact .step created (.answered looked)
  · rename_i looked
    exact .step created (.threw looked)

/-- The cache holds the old way, and the answer is that there is none. -/
theorem path_cache_transparent_star :
    (starLooked.cache.find? acrossStar).isSome = true ∧
      match starLooked.lookup (star.setLinkState ⟨0⟩ .down).2 acrossStar with
      | .ok paths _ => paths = []
      | .error _ _ => False := by
  have cached : (starLooked.cache.find? acrossStar).isSome = true := by decide +kernel
  have enumerated : enumerate (star.setLinkState ⟨0⟩ .down).2 {} acrossStar = .ok [] := by
    decide +kernel
  refine ⟨cached, ?_⟩
  have answered := (path_cache_transparent starLooked_reachable).1 acrossStar
  simp only [enumerated] at answered
  split
  · rename_i looked
    rw [looked] at answered
    simpa using answered.symm
  · rename_i looked
    rw [looked] at answered
    simp at answered

end PathSession

end NexusLab.Routing
