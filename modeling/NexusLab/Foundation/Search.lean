import Mathlib

/-! # Breadth-first search

A search over the arcs of a directed graph that marks each vertex with its distance from the
source and with the number of shortest ways to get there.  The marks are exact once the frontier is
empty, which takes no more rounds than there are vertices to be reached.

* `ends next n u`: where the walks of `n` arcs from `u` lead, each walk counted.
* `Search.Invariant`: what holds after any number of rounds.
* `Finished`: what the marks mean at the end.
* `walks arcs n u`: the walks themselves, as lists of arc names.
-/

namespace NexusLab.Foundation

variable {α β : Type}

/-! ## Walks -/

/-- The end points of all walks of a certain length. -/
def ends (next : α → List α) : Nat → α → List α
  | 0, u => [u]
  | n + 1, u => (next u).flatMap (ends next n)

theorem ends_succ_eq (next : α → List α) (n : Nat) (u : α) :
    ends next (n + 1) u = (ends next n u).flatMap next := by
  induction n generalizing u with
  | zero => simp [ends]
  | succ n ih =>
    have inner : ends next (n + 1) = fun w => (ends next n w).flatMap next := funext ih
    calc (next u).flatMap (ends next (n + 1))
        = (next u).flatMap fun w => (ends next n w).flatMap next := by rw [inner]
      _ = ((next u).flatMap (ends next n)).flatMap next := List.flatMap_assoc.symm

/-- Where every arc has an opposite, so has every walk. -/
theorem ends_symm {next : α → List α} (symm : ∀ u v, v ∈ next u → u ∈ next v) {n : Nat} {u v : α}
    (reached : v ∈ ends next n u) : u ∈ ends next n v := by
  induction n generalizing v with
  | zero =>
    rw [List.mem_singleton.mp reached]
    exact List.mem_singleton.mpr rfl
  | succ n ih =>
    rw [ends_succ_eq] at reached
    obtain ⟨w, isW, isNext⟩ := List.mem_flatMap.mp reached
    exact List.mem_flatMap.mpr ⟨w, symm w v isNext, ih isW⟩

/-- What some walk leads to is what the arcs connect. -/
theorem exists_mem_ends {next : α → List α} {u v : α} :
    (∃ n, v ∈ ends next n u) ↔ Relation.ReflTransGen (fun a b => b ∈ next a) u v := by
  constructor
  · rintro ⟨n, reached⟩
    induction n generalizing v with
    | zero =>
      rw [List.mem_singleton.mp reached]
    | succ n ih =>
      rw [ends_succ_eq] at reached
      obtain ⟨w, isW, isNext⟩ := List.mem_flatMap.mp reached
      exact (ih isW).tail isNext
  · intro connected
    induction connected with
    | refl => exact ⟨0, List.mem_singleton.mpr rfl⟩
    | tail _ isNext ih =>
      obtain ⟨n, reached⟩ := ih
      refine ⟨n + 1, ?_⟩
      rw [ends_succ_eq]
      exact List.mem_flatMap.mpr ⟨_, reached, isNext⟩

/-- The walks of a certain length, by the names of their arcs, and where they lead. -/
def walks (arcs : α → List (β × α)) : Nat → α → List (List β × α)
  | 0, u => [([], u)]
  | n + 1, u => (arcs u).flatMap fun arc =>
    (walks arcs n arc.2).map fun walk => (arc.1 :: walk.1, walk.2)

def targets (arcs : α → List (β × α)) (u : α) : List α := (arcs u).map Prod.snd

theorem map_snd_walks (arcs : α → List (β × α)) (n : Nat) (u : α) :
    (walks arcs n u).map Prod.snd = ends (targets arcs) n u := by
  induction n generalizing u with
  | zero => rfl
  | succ n ih =>
    show ((arcs u).flatMap _).map Prod.snd = ((arcs u).map Prod.snd).flatMap _
    rw [List.map_flatMap, List.flatMap_map]
    congr 1
    funext arc
    rw [List.map_map, ← ih]
    rfl

theorem length_of_mem_walks {arcs : α → List (β × α)} {n : Nat} {u : α} {walk : List β × α}
    (member : walk ∈ walks arcs n u) : walk.1.length = n := by
  induction n generalizing u walk with
  | zero =>
    simp only [walks, List.mem_singleton] at member
    simp [member]
  | succ n ih =>
    simp only [walks, List.mem_flatMap, List.mem_map] at member
    obtain ⟨arc, _, tail, isTail, rfl⟩ := member
    simp [ih isTail]

/-- Where arcs have names of their own at each vertex, walks are told apart by names. -/
theorem nodup_walks {arcs : α → List (β × α)} (named : ∀ u, ((arcs u).map Prod.fst).Nodup) (n : Nat)
    (u : α) : ((walks arcs n u).map Prod.fst).Nodup := by
  induction n generalizing u with
  | zero => simp [walks]
  | succ n ih =>
    have flat : (walks arcs (n + 1) u).map Prod.fst = (arcs u).flatMap fun arc =>
        ((walks arcs n arc.2).map Prod.fst).map (arc.1 :: ·) := by
      simp [walks, List.map_flatMap, Function.comp_def]
    rw [flat, List.nodup_flatMap]
    constructor
    · intro arc _
      exact (ih arc.2).map (List.cons_injective)
    · refine List.Pairwise.imp ?_ (List.pairwise_map.mp (named u))
      intro a b different path inA inB
      obtain ⟨_, _, rfl⟩ := List.mem_map.mp inA
      obtain ⟨_, _, same⟩ := List.mem_map.mp inB
      exact different (List.cons.inj same).1.symm

/-- The names of the walks of a certain length to `v`. -/
def walksTo [DecidableEq α] (arcs : α → List (β × α)) (v : α) (n : Nat) (u : α) : List (List β) :=
  ((walks arcs n u).filter fun walk => walk.2 = v).map Prod.fst

section WalksTo

variable [DecidableEq α] {arcs : α → List (β × α)} {u v : α} {n : Nat} {path : List β}

theorem walksTo_zero : walksTo arcs v 0 u = if u = v then [[]] else [] := by
  by_cases same : u = v <;> simp [walksTo, walks, same]

theorem walksTo_succ : walksTo arcs v (n + 1) u =
    (arcs u).flatMap fun arc => (walksTo arcs v n arc.2).map (arc.1 :: ·) := by
  simp only [walksTo, walks, List.filter_flatMap, List.map_flatMap, List.filter_map, List.map_map]
  rfl

theorem length_walksTo : (walksTo arcs v n u).length = (ends (targets arcs) n u).count v := by
  rw [← map_snd_walks, walksTo, List.length_map, List.count_eq_length_filter, List.filter_map,
    List.length_map]
  rfl

theorem walksTo_eq_nil (absent : v ∉ ends (targets arcs) n u) : walksTo arcs v n u = [] := by
  apply List.eq_nil_of_length_eq_zero
  rw [length_walksTo, List.count_eq_zero_of_not_mem absent]

theorem length_of_mem_walksTo (member : path ∈ walksTo arcs v n u) : path.length = n := by
  obtain ⟨walk, isWalk, rfl⟩ := List.mem_map.mp member
  exact length_of_mem_walks (List.mem_filter.mp isWalk).1

/-- A walk by the names of its arcs. -/
def IsWalk (arcs : α → List (β × α)) : α → List β → α → Prop
  | u, [], v => u = v
  | u, name :: path, v => ∃ w, (name, w) ∈ arcs u ∧ IsWalk arcs w path v

theorem mem_walksTo : path ∈ walksTo arcs v n u ↔ IsWalk arcs u path v ∧ path.length = n := by
  induction n generalizing u path with
  | zero =>
    rw [walksTo_zero]
    cases path with
    | nil => by_cases same : u = v <;> simp [IsWalk, same]
    | cons name path => by_cases same : u = v <;> simp [same]
  | succ n ih =>
    rw [walksTo_succ]
    simp only [List.mem_flatMap, List.mem_map, ih]
    cases path with
    | nil => simp
    | cons name path =>
      simp only [IsWalk, List.length_cons, List.cons.injEq, Nat.add_right_cancel_iff]
      constructor
      · rintro ⟨arc, isArc, rest, ⟨isWalk, length⟩, rfl, rfl⟩
        exact ⟨⟨arc.2, isArc, isWalk⟩, length⟩
      · rintro ⟨⟨w, isArc, isWalk⟩, length⟩
        exact ⟨(name, w), isArc, path, ⟨isWalk, length⟩, rfl, rfl⟩

theorem mem_ends_iff : v ∈ ends (targets arcs) n u ↔ ∃ path, IsWalk arcs u path v ∧ path.length = n := by
  rw [← List.count_pos_iff, ← length_walksTo, List.length_pos_iff_exists_mem]
  simp only [mem_walksTo]

theorem nodup_walksTo (named : ∀ u, ((arcs u).map Prod.fst).Nodup) :
    (walksTo arcs v n u).Nodup :=
  (nodup_walks named n u).sublist (List.filter_sublist.map _)

/-! Labels that fall by at most one along an arc say how long a walk must be. -/

section Labels

variable {label : α → Nat}

omit [DecidableEq α] in
theorem IsWalk.label_le (falls : ∀ u, ∀ arc ∈ arcs u, label u ≤ label arc.2 + 1)
    (zero : label v = 0) {u : α} {path : List β} (walk : IsWalk arcs u path v) :
    label u ≤ path.length := by
  induction path generalizing u with
  | nil =>
    obtain rfl : u = v := walk
    simp [zero]
  | cons name path ih =>
    obtain ⟨w, isArc, rest⟩ := walk
    have step : label u ≤ label w + 1 := falls u _ isArc
    have later := ih rest
    rw [List.length_cons]
    omega

omit [DecidableEq α] in
/-- On a walk that is as short as the labels allow, every arc falls. -/
theorem IsWalk.falls_of_tight (falls : ∀ u, ∀ arc ∈ arcs u, label u ≤ label arc.2 + 1)
    (zero : label v = 0) {u : α} {name : β} {path : List β} (walk : IsWalk arcs u (name :: path) v)
    (tight : (name :: path).length = label u) : ∃ w, (name, w) ∈ arcs u ∧
      IsWalk arcs w path v ∧ path.length = label w ∧ label u = label w + 1 := by
  obtain ⟨w, isArc, rest⟩ := walk
  have step : label u ≤ label w + 1 := falls u _ isArc
  have later := rest.label_le falls zero
  rw [List.length_cons] at tight
  exact ⟨w, isArc, rest, by omega, by omega⟩

end Labels

end WalksTo

/-! ## The search -/

variable [DecidableEq α]

/-- The marks a search has made, and the vertices it has still to look at. -/
structure Search (α : Type) where
  hops : α → Option Nat
  paths : α → Nat
  frontier : List α

namespace Search

/-- How far a marked vertex is. -/
def level (s : Search α) (u : α) : Nat := (s.hops u).getD 0

/-- A search that has marked its source only. -/
def start (source : α) : Search α where
  hops u := if u = source then some 0 else none
  paths u := if u = source then 1 else 0
  frontier := [source]

/-- Meets `v` from a vertex at a certain level that has so many shortest ways to it. -/
def discover (level count : Nat) (s : Search α) (v : α) : Search α :=
  match s.hops v with
  | none =>
    { hops := Function.update s.hops v (some (level + 1))
      paths := Function.update s.paths v count
      frontier := s.frontier ++ [v] }
  | some hops =>
    if hops = level + 1 then
      { s with paths := Function.update s.paths v (s.paths v + count) }
    else s

def scan (level count : Nat) (s : Search α) (vs : List α) : Search α :=
  vs.foldl (discover level count) s

/-- One vertex off the frontier. -/
def advance (next : α → List α) (s : Search α) : Search α :=
  match s.frontier with
  | [] => s
  | u :: rest => scan (s.level u) (s.paths u) { s with frontier := rest } (next u)

def explore (next : α → List α) : Nat → Search α → Search α
  | 0, s => s
  | rounds + 1, s => explore next rounds (s.advance next)

/-! ## A scan -/

section Scan

variable {level count : Nat} {s : Search α} {v : α}

theorem hops_discover (w : α) : (discover level count s v).hops w =
    if s.hops w = none ∧ w = v then some (level + 1) else s.hops w := by
  unfold discover
  cases marked : s.hops v with
  | none =>
    by_cases same : w = v
    · subst same
      simp [marked]
    · simp [same]
  | some hops =>
    have old : ¬ (s.hops w = none ∧ w = v) := by
      rintro ⟨unmarked, rfl⟩
      rw [marked] at unmarked
      cases unmarked
    rw [if_neg old]
    by_cases here : hops = level + 1 <;> simp [here]

theorem hops_scan (vs : List α) (w : α) : (scan level count s vs).hops w =
    if s.hops w = none ∧ w ∈ vs then some (level + 1) else s.hops w := by
  induction vs generalizing s with
  | nil => simp [scan]
  | cons v vs ih =>
    show (scan level count (discover level count s v) vs).hops w = _
    rw [ih, hops_discover]
    by_cases unmarked : s.hops w = none
    · by_cases same : w = v
      · subst same
        simp [unmarked]
      · simp [unmarked, same]
    · simp [unmarked]

/-- A vertex that is not marked has no way to it yet. -/
def Clean (s : Search α) : Prop := ∀ v, s.hops v = none → s.paths v = 0

theorem clean_discover (clean : Clean s) : Clean (discover level count s v) := by
  intro w unmarked
  rw [hops_discover] at unmarked
  have old : s.hops w = none := by
    by_contra marked
    rw [if_neg (fun both => marked both.1)] at unmarked
    exact marked unmarked
  have different : w ≠ v := by
    rintro rfl
    simp [old] at unmarked
  unfold discover
  split
  · simp [Function.update_of_ne different, clean w old]
  · split
    · simp [Function.update_of_ne different, clean w old]
    · exact clean w old

theorem clean_scan (clean : Clean s) (vs : List α) : Clean (scan level count s vs) := by
  induction vs generalizing s with
  | nil => exact clean
  | cons v vs ih => exact ih (clean_discover clean)

/-- Only vertices one level up, or not marked before, get more ways. -/
theorem paths_discover (clean : Clean s) (w : α) : (discover level count s v).paths w =
    s.paths w + if (s.hops w).getD (level + 1) = level + 1 ∧ w = v then count else 0 := by
  unfold discover
  cases marked : s.hops v with
  | none =>
    by_cases same : w = v
    · subst same
      simp [marked, clean w marked]
    · simp [same]
  | some hops =>
    by_cases same : w = v
    · subst same
      by_cases here : hops = level + 1 <;> simp [marked, here]
    · by_cases here : hops = level + 1 <;> simp [same, here]

theorem paths_scan (clean : Clean s) (vs : List α) (w : α) : (scan level count s vs).paths w =
    s.paths w + if (s.hops w).getD (level + 1) = level + 1 then count * vs.count w else 0 := by
  induction vs generalizing s with
  | nil => simp [scan]
  | cons v vs ih =>
    show (scan level count (discover level count s v) vs).paths w = _
    rw [ih (clean_discover clean), paths_discover clean, hops_discover]
    by_cases same : w = v
    · subst same
      cases marked : s.hops w with
      | none =>
        simp [Nat.mul_add]
        omega
      | some hops =>
        by_cases here : hops = level + 1
        · simp [here, Nat.mul_add]
          omega
        · simp [here]
    · have other : v ≠ w := fun h => same h.symm
      simp [same, List.count_cons_of_ne other]

theorem frontier_discover : (discover level count s v).frontier =
    if s.hops v = none then s.frontier ++ [v] else s.frontier := by
  unfold discover
  cases marked : s.hops v with
  | none => rfl
  | some hops => by_cases here : hops = level + 1 <;> simp [here]

theorem scan_append (vs ws : List α) :
    scan level count s (vs ++ ws) = scan level count (scan level count s vs) ws :=
  List.foldl_append ..

theorem frontier_scan (vs : List α) : ∃ fresh,
    (scan level count s vs).frontier = s.frontier ++ fresh ∧ fresh.Nodup ∧
      ∀ v, v ∈ fresh ↔ v ∈ vs ∧ s.hops v = none := by
  induction vs generalizing s with
  | nil => exact ⟨[], by simp [scan], List.nodup_nil, by simp⟩
  | cons v vs ih =>
    show ∃ fresh, (scan level count (discover level count s v) vs).frontier = _ ∧ _
    obtain ⟨fresh, appended, nodup, members⟩ := @ih (discover level count s v)
    cases marked : s.hops v with
    | none =>
      refine ⟨v :: fresh, ?_, ?_, ?_⟩
      · rw [appended]
        simp [discover, marked]
      · refine List.nodup_cons.mpr ⟨fun member => ?_, nodup⟩
        have unmarked := ((members v).mp member).2
        simp [hops_discover, marked] at unmarked
      · intro w
        rw [List.mem_cons, List.mem_cons, members, hops_discover]
        by_cases same : w = v
        · simp [same, marked]
        · simp [same]
    | some hops =>
      refine ⟨fresh, ?_, nodup, ?_⟩
      · rw [appended]
        unfold discover
        rw [marked]
        by_cases here : hops = level + 1 <;> simp [here]
      · intro w
        rw [members, hops_discover, List.mem_cons]
        by_cases same : w = v
        · simp [same, marked]
        · simp [same]

end Scan

/-! ## Rounds -/

/-- What holds when the vertices `done` have been looked at. -/
structure Invariant (next : α → List α) (source : α) (done : List α) (s : Search α) : Prop where
  nodup : (done ++ s.frontier).Nodup
  marked : ∀ v, v ∈ done ++ s.frontier ↔ s.hops v ≠ none
  started : s.hops source = some 0
  sorted : (done ++ s.frontier).Pairwise fun u v => s.level u ≤ s.level v
  narrow : ∀ u ∈ s.frontier, ∀ v ∈ s.frontier, s.level v ≤ s.level u + 1
  closed : ∀ u ∈ done, ∀ v ∈ next u, ∃ hops, s.hops v = some hops ∧ hops ≤ s.level u + 1
  sound : ∀ v hops, s.hops v = some hops → v ∈ ends next hops source
  clean : Clean s
  counted : ∀ v hops, s.hops v = some hops → s.paths v = (if v = source then 1 else 0) +
    (done.map fun u => if s.level u + 1 = hops then s.paths u * (next u).count v else 0).sum

section Rounds

variable {next : α → List α} {source : α} {done : List α} {s : Search α}

theorem invariant_start (next : α → List α) (source : α) :
    Invariant next source [] (start source) where
  nodup := List.nodup_singleton _
  marked v := by simp [start]
  started := by simp [start]
  sorted := List.pairwise_singleton ..
  narrow u isU v isV := by
    simp only [start, List.mem_singleton] at isU isV
    simp [isU, isV]
  closed u isU := by cases isU
  sound v hops isMarked := by
    by_cases same : v = source
    · simp [start, same] at isMarked
      simp [ends, same, ← isMarked]
    · simp [start, same] at isMarked
  clean v unmarked := by
    by_cases same : v = source
    · simp [start, same] at unmarked
    · simp [start, same]
  counted v hops _ := by simp [start]

section Advance

variable {u : α} {rest : List α}

theorem level_scan {level count : Nat} {vs : List α} {v : α} (old : s.hops v ≠ none) :
    (scan level count s vs).level v = s.level v := by
  simp [Search.level, hops_scan, old]

/-- Nothing that is marked lies beyond the next level. -/
theorem Invariant.level_le (invariant : Invariant next source done s)
    (front : s.frontier = u :: rest) {v : α} (isMarked : s.hops v ≠ none) :
    s.level v ≤ s.level u + 1 := by
  have member := (invariant.marked v).mpr isMarked
  rw [List.mem_append] at member
  cases member with
  | inl isDone =>
    have sorted := invariant.sorted
    rw [List.pairwise_append] at sorted
    have le := sorted.2.2 v isDone u (by simp [front])
    omega
  | inr waiting => exact invariant.narrow u (by simp [front]) v waiting

theorem Invariant.done_le (invariant : Invariant next source done s)
    (front : s.frontier = u :: rest) {v : α} (isDone : v ∈ done) : s.level v ≤ s.level u := by
  have sorted := invariant.sorted
  rw [List.pairwise_append] at sorted
  exact sorted.2.2 v isDone u (by simp [front])

theorem Invariant.le_rest (invariant : Invariant next source done s)
    (front : s.frontier = u :: rest) {v : α} (waiting : v ∈ rest) : s.level u ≤ s.level v := by
  have sorted := invariant.sorted
  rw [List.pairwise_append, front] at sorted
  exact (List.pairwise_cons.mp sorted.2.1).1 v waiting

/-- What the marked vertices count does not change while `u` is looked at, one level down. -/
theorem Invariant.paths_kept (invariant : Invariant next source done s) {count : Nat}
    {vs : List α} {v : α} (isMarked : s.hops v ≠ none) (low : s.level v ≤ s.level u) :
    (scan (s.level u) count { s with frontier := rest } vs).paths v = s.paths v := by
  rw [paths_scan]
  · obtain ⟨hops, isHops⟩ := Option.ne_none_iff_exists'.mp isMarked
    have value : s.level v = hops := by simp [Search.level, isHops]
    have different : hops ≠ s.level u + 1 := by omega
    simp [isHops, different]
  · exact invariant.clean

theorem Invariant.counted_advance (invariant : Invariant next source done s)
    (front : s.frontier = u :: rest) :
    let s' := scan (s.level u) (s.paths u) { s with frontier := rest } (next u)
    ∀ v hops, s'.hops v = some hops → s'.paths v = (if v = source then 1 else 0) +
      ((done ++ [u]).map fun u => if s'.level u + 1 = hops then s'.paths u * (next u).count v
        else 0).sum := by
  intro s' v hops isHops
  have markedU : s.hops u ≠ none := (invariant.marked u).mp (by simp [front])
  have clean : Clean { s with frontier := rest } := invariant.clean
  have levelU : s'.level u = s.level u := level_scan markedU
  have pathsU : s'.paths u = s.paths u := invariant.paths_kept markedU (le_refl _)
  have olds : done.map (fun u => if s'.level u + 1 = hops then s'.paths u * (next u).count v else 0) =
      done.map fun u => if s.level u + 1 = hops then s.paths u * (next u).count v else 0 := by
    apply List.map_congr_left
    intro w isDone
    have markedW : s.hops w ≠ none := (invariant.marked w).mp (by simp [isDone])
    have level : s'.level w = s.level w := level_scan markedW
    have paths : s'.paths w = s.paths w :=
      invariant.paths_kept markedW (invariant.done_le front isDone)
    rw [level, paths]
  rw [List.map_append, olds, List.sum_append, List.map_singleton, List.sum_singleton, levelU, pathsU,
    ← Nat.add_assoc]
  have paths : s'.paths v = _ := paths_scan clean (next u) v
  rw [paths]
  cases isMarked : s.hops v with
  | some old =>
    have same : old = hops := by
      simpa [s', hops_scan, isMarked] using isHops
    subst same
    rw [invariant.counted v old isMarked]
    simp [eq_comm]
  | none =>
    have isNext : v ∈ next u ∧ hops = s.level u + 1 := by
      rw [hops_scan] at isHops
      by_cases here : v ∈ next u
      · simp [isMarked, here] at isHops
        exact ⟨here, isHops.symm⟩
      · simp [isMarked, here] at isHops
    have notSource : v ≠ source := by
      rintro rfl
      rw [invariant.started] at isMarked
      cases isMarked
    have none_before : (done.map fun u =>
        if s.level u + 1 = hops then s.paths u * (next u).count v else 0).sum = 0 := by
      apply List.sum_eq_zero
      intro term isTerm
      obtain ⟨w, isDone, rfl⟩ := List.mem_map.mp isTerm
      have absent : v ∉ next w := by
        intro member
        obtain ⟨_, found, _⟩ := invariant.closed w isDone v member
        rw [isMarked] at found
        cases found
      simp [List.count_eq_zero_of_not_mem absent]
    rw [none_before]
    simp [invariant.clean v isMarked, isNext.2, notSource]

theorem Invariant.advance (invariant : Invariant next source done s)
    (front : s.frontier = u :: rest) :
    Invariant next source (done ++ [u]) (s.advance next) := by
  have unfolded : s.advance next =
      scan (s.level u) (s.paths u) { s with frontier := rest } (next u) := by
    simp [Search.advance, front]
  rw [unfolded]
  obtain ⟨fresh, appended, freshNodup, isFresh⟩ :=
    @frontier_scan _ _ (s.level u) (s.paths u) { s with frontier := rest } (next u)
  have hops := @hops_scan _ _ (s.level u) (s.paths u) { s with frontier := rest } (next u)
  have oldLevel : ∀ v, s.hops v ≠ none →
      (scan (s.level u) (s.paths u) { s with frontier := rest } (next u)).level v = s.level v :=
    fun v isMarked => level_scan isMarked
  have unscanned : Clean { s with frontier := rest } := invariant.clean
  have clean : Clean (scan (s.level u) (s.paths u) { s with frontier := rest } (next u)) :=
    clean_scan unscanned (next u)
  have counted := invariant.counted_advance front
  generalize scan (s.level u) (s.paths u) { s with frontier := rest } (next u) = s' at *
  simp only at appended isFresh hops
  have markedU : s.hops u ≠ none := (invariant.marked u).mp (by simp [front])
  have freshLevel : ∀ v ∈ fresh, s'.level v = s.level u + 1 := by
    intro v member
    obtain ⟨isNext, unmarked⟩ := (isFresh v).mp member
    show (s'.hops v).getD 0 = _
    rw [hops, if_pos ⟨unmarked, isNext⟩]
    rfl
  have all : done ++ [u] ++ s'.frontier = (done ++ s.frontier) ++ fresh := by
    rw [appended, front]
    simp
  have markedRest : ∀ v ∈ rest, s.hops v ≠ none := by
    intro v waiting
    exact (invariant.marked v).mp (by simp [front, waiting])
  constructor
  -- what is found now had no mark, so that nothing is listed twice
  · rw [all]
    refine invariant.nodup.append freshNodup ?_
    intro v old new
    exact (invariant.marked v).mp old ((isFresh v).mp new).2
  · intro v
    rw [all, List.mem_append, invariant.marked, isFresh, hops]
    by_cases unmarked : s.hops v = none
    · by_cases isNext : v ∈ next u <;> simp [unmarked, isNext]
    · simp [unmarked]
  · rw [hops, if_neg (by simp [invariant.started])]
    exact invariant.started
  -- the levels ascend: the fresh ones are one beyond that of `u`
  · rw [all, List.pairwise_append]
    refine ⟨?_, ?_, ?_⟩
    · refine List.Pairwise.imp_of_mem ?_ invariant.sorted
      intro a b isA isB le
      rwa [oldLevel a ((invariant.marked a).mp isA), oldLevel b ((invariant.marked b).mp isB)]
    · refine List.Pairwise.imp_of_mem (R := fun _ _ => True) ?_ (List.pairwise_of_forall (by simp))
      intro a b isA isB _
      rw [freshLevel a isA, freshLevel b isB]
    · intro a isA b isB
      have isMarked := (invariant.marked a).mp isA
      rw [oldLevel a isMarked, freshLevel b isB]
      exact invariant.level_le front isMarked
  · intro a isA b isB
    rw [appended, List.mem_append] at isA isB
    -- the frontier spans two levels at most
    have levels : s.level u ≤ s'.level a := by
      cases isA with
      | inl old =>
        rw [oldLevel a (markedRest a old)]
        exact invariant.le_rest front old
      | inr new =>
        rw [freshLevel a new]
        omega
    have bounded : s'.level b ≤ s.level u + 1 := by
      cases isB with
      | inl old =>
        rw [oldLevel b (markedRest b old)]
        exact invariant.level_le front (markedRest b old)
      | inr new => rw [freshLevel b new]
    omega
  -- the neighbours of a node that is done are marked, at the next level or before
  · intro a isA b isB
    rw [List.mem_append, List.mem_singleton] at isA
    cases isA with
    | inl isDone =>
      obtain ⟨old, isOld, le⟩ := invariant.closed a isDone b isB
      refine ⟨old, ?_, ?_⟩
      · rw [hops, if_neg (by simp [isOld])]
        exact isOld
      · rwa [oldLevel a ((invariant.marked a).mp (by simp [isDone]))]
    | inr isU =>
      subst isU
      rw [oldLevel a markedU, hops]
      by_cases unmarked : s.hops b = none
      · exact ⟨_, if_pos ⟨unmarked, isB⟩, le_refl _⟩
      · obtain ⟨old, isOld⟩ := Option.ne_none_iff_exists'.mp unmarked
        refine ⟨old, by simp [isOld], ?_⟩
        have le := invariant.level_le front unmarked
        simpa [Search.level, isOld] using le
  · intro v found isFound
    rw [hops] at isFound
    -- a fresh mark stands for a way over `u`
    by_cases new : s.hops v = none ∧ v ∈ next u
    · rw [if_pos new] at isFound
      cases isFound
      rw [ends_succ_eq]
      obtain ⟨levelU, isLevel⟩ := Option.ne_none_iff_exists'.mp markedU
      have reached := invariant.sound u levelU isLevel
      have value : s.level u = levelU := by simp [Search.level, isLevel]
      rw [value]
      exact List.mem_flatMap.mpr ⟨u, reached, new.2⟩
    · rw [if_neg new] at isFound
      exact invariant.sound v found isFound
  · exact clean
  · exact counted

end Advance

/-! ## The end -/

theorem explore_of_empty (empty : s.frontier = []) (rounds : Nat) : s.explore next rounds = s := by
  induction rounds with
  | zero => rfl
  | succ rounds ih =>
    have still : s.advance next = s := by simp [Search.advance, empty]
    show (s.advance next).explore next rounds = s
    rw [still, ih]

/-- Enough rounds for a region that cannot be left empty the frontier. -/
theorem Invariant.explore {region : List α} (invariant : Invariant next source done s)
    (inside : source ∈ region) (kept : ∀ u ∈ region, ∀ v ∈ next u, v ∈ region) {rounds : Nat}
    (enough : region.length ≤ rounds + done.length) :
    ∃ looked, Invariant next source looked (s.explore next rounds) ∧
      (s.explore next rounds).frontier = [] := by
  induction rounds generalizing s done with
  | zero =>
    refine ⟨done, invariant, ?_⟩
    have within : ∀ n v, v ∈ ends next n source → v ∈ region := by
      intro n
      induction n with
      | zero => simp [ends, inside]
      | succ n ih =>
        intro v member
        rw [ends_succ_eq] at member
        obtain ⟨u, reached, isNext⟩ := List.mem_flatMap.mp member
        exact kept u (ih u reached) v isNext
    have subset : done ++ s.frontier ⊆ region := by
      intro v member
      obtain ⟨hops, isHops⟩ := Option.ne_none_iff_exists'.mp ((invariant.marked v).mp member)
      exact within hops v (invariant.sound v hops isHops)
    have short := (List.subperm_of_subset invariant.nodup subset).length_le
    rw [List.length_append] at short
    exact List.eq_nil_of_length_eq_zero (show s.frontier.length = 0 by omega)
  | succ rounds ih =>
    cases front : s.frontier with
    | nil =>
      rw [explore_of_empty front]
      exact ⟨done, invariant, front⟩
    | cons u rest =>
      refine ih (invariant.advance front) ?_
      rw [List.length_append, List.length_singleton]
      omega

/-- What the marks mean once the search is over. -/
structure Finished (next : α → List α) (source : α) (s : Search α) : Prop where
  hops : ∀ v n, s.hops v = some n ↔ v ∈ ends next n source ∧ ∀ m, m < n → v ∉ ends next m source
  unreached : ∀ v, s.hops v = none ↔ ∀ n, v ∉ ends next n source
  paths : ∀ v n, s.hops v = some n → s.paths v = (ends next n source).count v

section Finish

variable (invariant : Invariant next source done s) (empty : s.frontier = [])

include invariant empty

theorem Invariant.complete (n : Nat) {v : α} (reached : v ∈ ends next n source) :
    ∃ hops, s.hops v = some hops ∧ hops ≤ n := by
  induction n generalizing v with
  | zero =>
    simp only [ends, List.mem_singleton] at reached
    exact ⟨0, by rw [reached, invariant.started], le_refl 0⟩
  | succ n ih =>
    rw [ends_succ_eq] at reached
    obtain ⟨u, isU, isNext⟩ := List.mem_flatMap.mp reached
    obtain ⟨before, isBefore, le⟩ := ih isU
    have isDone : u ∈ done := by
      have member := (invariant.marked u).mpr (by simp [isBefore])
      simpa [empty] using member
    obtain ⟨hops, isHops, leU⟩ := invariant.closed u isDone v isNext
    have value : s.level u = before := by simp [Search.level, isBefore]
    exact ⟨hops, isHops, by omega⟩

theorem Invariant.hops_iff (v : α) (n : Nat) :
    s.hops v = some n ↔ v ∈ ends next n source ∧ ∀ m, m < n → v ∉ ends next m source := by
  constructor
  · intro isHops
    refine ⟨invariant.sound v n isHops, ?_⟩
    intro m less reached
    obtain ⟨hops, isHops', le⟩ := invariant.complete empty m reached
    rw [isHops] at isHops'
    cases isHops'
    omega
  · rintro ⟨reached, least⟩
    obtain ⟨hops, isHops, le⟩ := invariant.complete empty n reached
    have same : hops = n := by
      by_contra different
      exact least hops (by omega) (invariant.sound v hops isHops)
    rw [isHops, same]

/-- The sum over all walks is the sum over the vertices looked at, each as often as walks end
there. -/
theorem Invariant.sum_ends (n : Nat) (f : α → Nat) :
    ((ends next n source).map f).sum =
      (done.map fun u => (ends next n source).count u * f u).sum := by
  have doneNodup : done.Nodup := by simpa [empty] using invariant.nodup
  rw [Finset.sum_list_map_count, ← List.sum_toFinset _ doneNodup]
  apply Finset.sum_subset
  · intro u member
    obtain ⟨hops, isHops, _⟩ := invariant.complete empty n (List.mem_toFinset.mp member)
    have isMarked := (invariant.marked u).mpr (by simp [isHops])
    simpa [empty] using isMarked
  · intro u _ absent
    rw [List.mem_toFinset] at absent
    simp [List.count_eq_zero_of_not_mem absent]

theorem Invariant.paths_eq (v : α) (n : Nat) (isHops : s.hops v = some n) :
    s.paths v = (ends next n source).count v := by
  induction n generalizing v with
  | zero =>
    have isSource : v = source := by simpa [ends] using invariant.sound v 0 isHops
    rw [invariant.counted v 0 isHops]
    simp [ends, isSource]
  | succ n ih =>
    have notSource : v ≠ source := by
      rintro rfl
      rw [invariant.started] at isHops
      cases isHops
    rw [invariant.counted v (n + 1) isHops, if_neg notSource, Nat.zero_add, ends_succ_eq,
      List.count_flatMap, invariant.sum_ends empty]
    congr 1
    apply List.map_congr_left
    intro u isDone
    obtain ⟨hops, isMarked⟩ :=
      Option.ne_none_iff_exists'.mp ((invariant.marked u).mp (by simp [isDone]))
    have value : s.level u = hops := by simp [Search.level, isMarked]
    rw [value]
    by_cases here : hops = n
    · subst here
      rw [if_pos rfl, ih u isMarked]
      rfl
    · rw [if_neg (by omega)]
      -- a vertex of another level is either too far for a walk of this length, or it has no arc
      -- that leads so far
      by_cases isNext : v ∈ next u
      · obtain ⟨far, isFar, le⟩ := invariant.closed u isDone v isNext
        rw [isHops] at isFar
        cases isFar
        have beyond : n < hops := by omega
        have absent := ((invariant.hops_iff empty u hops).mp isMarked).2 n beyond
        simp [List.count_eq_zero_of_not_mem absent]
      · simp [List.count_eq_zero_of_not_mem isNext]

theorem Invariant.finished : Finished next source s where
  hops := invariant.hops_iff empty
  unreached v := by
    constructor
    · intro unmarked n reached
      obtain ⟨hops, isHops, _⟩ := invariant.complete empty n reached
      rw [unmarked] at isHops
      cases isHops
    · intro unreached
      by_contra isMarked
      obtain ⟨hops, isHops⟩ := Option.ne_none_iff_exists'.mp isMarked
      exact unreached hops (invariant.sound v hops isHops)
  paths := invariant.paths_eq empty

end Finish

/-- A search within a region gives exact marks. -/
theorem finished_explore {region : List α} (inside : source ∈ region)
    (kept : ∀ u ∈ region, ∀ v ∈ next u, v ∈ region) {rounds : Nat}
    (enough : region.length ≤ rounds) :
    Finished next source ((start source).explore next rounds) ∧
      ((start source).explore next rounds).frontier = [] := by
  obtain ⟨looked, invariant, empty⟩ :=
    (invariant_start next source).explore inside kept (by simpa using enough)
  exact ⟨invariant.finished empty, empty⟩

end Rounds

end Search

/-! ## Worklists -/

section Worklist

variable {γ ε : Type}

/-- Takes one element after the other off a queue, which a step may add to, until it is empty. -/
def drain (stuck : ε) (step : γ → α → List α → Except ε (γ × List α)) :
    Nat → γ → List α → Except ε γ
  | _, state, [] => .ok state
  | 0, _, _ :: _ => .error stuck
  | rounds + 1, state, head :: rest =>
    match step state head rest with
    | .ok next => drain stuck step rounds next.1 next.2
    | .error e => .error e

/-- A worklist loop whose steps follow the search ends with the marks of the search, unless one of
its steps throws. -/
theorem drain_explore (stuck : ε) {step : γ → α → List α → Except ε (γ × List α)}
    {next : α → List α} (Tracks : γ → Search α → Prop) (Throws : ε → Prop)
    (follows : ∀ state s u rest, Tracks state s → s.frontier = u :: rest →
      (∃ state', step state u rest = .ok (state', (s.advance next).frontier) ∧
        Tracks state' (s.advance next)) ∨
      ∃ e, step state u rest = .error e ∧ Throws e)
    {rounds : Nat} {state : γ} {s : Search α} (tracks : Tracks state s)
    (empty : (s.explore next rounds).frontier = []) :
    (∃ final, drain stuck step rounds state s.frontier = .ok final ∧
      Tracks final (s.explore next rounds)) ∨
    ∃ e, drain stuck step rounds state s.frontier = .error e ∧ Throws e := by
  induction rounds generalizing state s with
  | zero =>
    have empty : s.frontier = [] := empty
    rw [empty]
    exact .inl ⟨state, rfl, tracks⟩
  | succ rounds ih =>
    cases front : s.frontier with
    | nil =>
      rw [Search.explore_of_empty front]
      exact .inl ⟨state, rfl, tracks⟩
    | cons u rest =>
      simp only [drain]
      rcases follows state s u rest tracks front with ⟨state', ok, tracks'⟩ | ⟨e, thrown, bad⟩
      · rw [ok]
        exact ih tracks' empty
      · rw [thrown]
        exact .inr ⟨e, rfl, bad⟩

end Worklist

end NexusLab.Foundation
