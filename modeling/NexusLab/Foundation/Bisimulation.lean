import NexusLab.Foundation.Exec

/-! # Two computations that agree

`Simulates R B C V m n` relates two computations over different states.  `B` and `C` mark states
in which something happened that the comparison excuses; marks are never lost.  From states
related by `R`, either one of the final states is marked or both computations end in the same
way: with values related by `V`, or with the same exception, in states related by `R`. -/

namespace NexusLab.Foundation

variable {ε σ τ α α' β β' : Type}

/-- The state a computation ends in. -/
def finalState : EStateM.Result ε σ α → σ
  | .ok _ s => s
  | .error _ s => s

@[simp] theorem finalState_ok (a : α) (s : σ) :
    finalState (.ok a s : EStateM.Result ε σ α) = s := rfl

@[simp] theorem finalState_error (e : ε) (s : σ) :
    finalState (.error e s : EStateM.Result ε σ α) = s := rfl

theorem bind_apply (m : EStateM ε σ α) (f : α → EStateM ε σ β) (s : σ) :
    (m >>= f) s = match m s with
      | .ok a s' => f a s'
      | .error e s' => .error e s' := by
  show EStateM.bind m f s = _
  unfold EStateM.bind
  cases m s <;> rfl

/-- Related values or the same exception, in related states. -/
inductive SameOutcome (R : σ → τ → Prop) (V : α → α' → Prop) :
    EStateM.Result ε σ α → EStateM.Result ε τ α' → Prop
  | ok {a : α} {b : α'} {s : σ} {t : τ} : V a b → R s t → SameOutcome R V (.ok a s) (.ok b t)
  | error (e : ε) {s : σ} {t : τ} : R s t → SameOutcome R V (.error e s) (.error e t)

structure Simulates (R : σ → τ → Prop) (B : σ → Prop) (C : τ → Prop) (V : α → α' → Prop)
    (m : EStateM ε σ α) (n : EStateM ε τ α') : Prop where
  left_marked : ∀ s, B s → B (finalState (m s))
  right_marked : ∀ t, C t → C (finalState (n t))
  agree : ∀ s t, R s t →
    B (finalState (m s)) ∨ C (finalState (n t)) ∨ SameOutcome R V (m s) (n t)

namespace Simulates

variable {R : σ → τ → Prop} {B : σ → Prop} {C : τ → Prop} {V : α → α' → Prop}
  {W : β → β' → Prop}

theorem pure {a : α} {b : α'} (related : V a b) :
    Simulates (ε := ε) R B C V (pure a) (pure b) :=
  ⟨fun _ marked => marked, fun _ marked => marked, fun _ _ h => .inr (.inr (.ok related h))⟩

theorem throw (e : ε) :
    Simulates R B C V (throw e : EStateM ε σ α) (throw e : EStateM ε τ α') :=
  ⟨fun _ marked => marked, fun _ marked => marked, fun _ _ h => .inr (.inr (.error e h))⟩

theorem reads {f : σ → α} {g : τ → α'} (related : ∀ s t, R s t → V (f s) (g t)) :
    Simulates (ε := ε) R B C V (reads f) (reads g) :=
  ⟨fun _ marked => marked, fun _ marked => marked,
    fun s t h => .inr (.inr (.ok (related s t h) h))⟩

theorem modify {f : σ → σ} {g : τ → τ} (left : ∀ s, B s → B (f s)) (right : ∀ t, C t → C (g t))
    (related : ∀ s t, R s t → R (f s) (g t)) :
    Simulates (ε := ε) R B C Eq (modify f) (modify g) :=
  ⟨left, right, fun s t h =>
    .inr (.inr (SameOutcome.ok (α := PUnit) (rfl : PUnit.unit = ⟨⟩) (related s t h)))⟩

theorem bind {m : EStateM ε σ α} {n : EStateM ε τ α'} {f : α → EStateM ε σ β}
    {g : α' → EStateM ε τ β'} (first : Simulates R B C V m n)
    (left : ∀ a s, B s → B (finalState (f a s))) (right : ∀ b t, C t → C (finalState (g b t)))
    (second : ∀ a b, V a b → Simulates R B C W (f a) (g b)) :
    Simulates R B C W (m >>= f) (n >>= g) := by
  have left_kept : ∀ s, B (finalState (m s)) → B (finalState ((m >>= f) s)) := by
    intro s kept
    rw [bind_apply]
    cases h : m s with
    | ok a s' => exact left a s' (by simpa [h] using kept)
    | error e s' => simpa [h] using kept
  have right_kept : ∀ t, C (finalState (n t)) → C (finalState ((n >>= g) t)) := by
    intro t kept
    rw [bind_apply]
    cases h : n t with
    | ok a t' => exact right a t' (by simpa [h] using kept)
    | error e t' => simpa [h] using kept
  refine ⟨fun s marked => left_kept s (first.left_marked s marked),
    fun t marked => right_kept t (first.right_marked t marked), fun s t related => ?_⟩
  rcases first.agree s t related with marked | marked | same
  · exact .inl (left_kept s marked)
  · exact .inr (.inl (right_kept t marked))
  · rw [bind_apply, bind_apply]
    revert same
    cases m s <;> cases n t <;> intro same <;> cases same
    · rename_i values states
      exact (second _ _ values).agree _ _ states
    · rename_i states
      exact .inr (.inr (.error _ states))

/-- `bind` for computations whose values are equal. -/
theorem bind_eq {m : EStateM ε σ α} {n : EStateM ε τ α} {f : α → EStateM ε σ β}
    {g : α → EStateM ε τ β'} (first : Simulates R B C Eq m n)
    (second : ∀ a, Simulates R B C W (f a) (g a)) : Simulates R B C W (m >>= f) (n >>= g) :=
  first.bind (fun a => (second a).left_marked) (fun b => (second b).right_marked)
    (by rintro a _ rfl; exact second a)

theorem map {m : EStateM ε σ α} {n : EStateM ε τ α'} {f : α → β} {g : α' → β'}
    (h : Simulates R B C V m n) (related : ∀ a b, V a b → W (f a) (g b)) :
    Simulates R B C W (f <$> m) (g <$> n) := by
  have rewrite : ∀ {ρ γ γ' : Type} (f : γ → γ') (p : EStateM ε ρ γ),
      f <$> p = p >>= fun a => Pure.pure (f a) := by
    intro ρ γ γ' f p
    funext s
    show EStateM.map f p s = EStateM.bind p _ s
    unfold EStateM.map EStateM.bind
    cases p s <;> rfl
  rw [rewrite, rewrite]
  exact h.bind (fun _ _ marked => marked) (fun _ _ marked => marked)
    fun a b values => .pure (related a b values)

theorem catching {m : EStateM ε σ α} {n : EStateM ε τ α'} {f : ε → EStateM ε σ α}
    {g : ε → EStateM ε τ α'} (body : Simulates R B C V m n)
    (handler : ∀ e, Simulates R B C V (f e) (g e)) :
    Simulates R B C V (catching m f) (catching n g) := by
  have left_kept : ∀ s, B (finalState (m s)) → B (finalState (Foundation.catching m f s)) := by
    intro s kept
    unfold Foundation.catching
    cases h : m s with
    | ok a s' => simpa [h] using kept
    | error e s' => exact (handler e).left_marked s' (by simpa [h] using kept)
  have right_kept : ∀ t, C (finalState (n t)) → C (finalState (Foundation.catching n g t)) := by
    intro t kept
    unfold Foundation.catching
    cases h : n t with
    | ok a t' => simpa [h] using kept
    | error e t' => exact (handler e).right_marked t' (by simpa [h] using kept)
  refine ⟨fun s marked => left_kept s (body.left_marked s marked),
    fun t marked => right_kept t (body.right_marked t marked), fun s t related => ?_⟩
  rcases body.agree s t related with marked | marked | same
  · exact .inl (left_kept s marked)
  · exact .inr (.inl (right_kept t marked))
  · unfold Foundation.catching
    revert same
    cases m s <;> cases n t <;> intro same <;> cases same
    · rename_i values states
      exact .inr (.inr (.ok values states))
    · rename_i states
      exact (handler _).agree _ _ states

theorem ite {c : Prop} [Decidable c] {m m' : EStateM ε σ α} {n n' : EStateM ε τ α'}
    (yes : c → Simulates R B C V m n) (no : ¬ c → Simulates R B C V m' n') :
    Simulates R B C V (if c then m else m') (if c then n else n') := by
  by_cases h : c
  · simpa [h] using yes h
  · simpa [h] using no h

/-- A comparison with a computation that is never marked, from two facts about the first one. -/
theorem of_wp {m : EStateM ε σ α} {n : EStateM ε τ α'}
    (marked : ∀ s, B s → wp m (fun _ s' => B s') (fun _ s' => B s') s)
    (agree : ∀ s t, R s t →
      wp m (fun a s' => B s' ∨ ∃ b t', n t = .ok b t' ∧ V a b ∧ R s' t')
        (fun e s' => B s' ∨ ∃ t', n t = .error e t' ∧ R s' t') s) :
    Simulates R B (fun _ => False) V m n := by
  refine ⟨fun s h => ?_, fun _ h => h, fun s t related => ?_⟩
  · have kept := marked s h
    unfold wp at kept
    cases hm : m s <;> simpa [hm] using kept
  · have agreed := agree s t related
    unfold wp at agreed
    cases hm : m s with
    | ok a s' =>
      simp only [hm] at agreed
      rcases agreed with h | ⟨b, t', hn, values, states⟩
      · exact .inl h
      · exact .inr (.inr (hn ▸ .ok values states))
    | error e s' =>
      simp only [hm] at agreed
      rcases agreed with h | ⟨t', hn, states⟩
      · exact .inl h
      · exact .inr (.inr (hn ▸ .error e states))

/-- Computations over a component agree when the component is run inside related states. -/
theorem zoom {σ' τ' : Type} {R' : σ' → τ' → Prop} {B' : σ' → Prop} {C' : τ' → Prop}
    {l : Lens σ' σ} {r : Lens τ' τ} {m : EStateM ε σ α} {n : EStateM ε τ α'}
    (h : Simulates R B C V m n)
    (left : ∀ s, B' s ↔ B (l.get s)) (right : ∀ t, C' t ↔ C (r.get t))
    (down : ∀ s t, R' s t → R (l.get s) (r.get t))
    (up : ∀ s t s' t', R' s t → R s' t' → R' (l.set s' s) (r.set t' t)) :
    Simulates R' B' C' V (zoom l m) (zoom r n) := by
  refine ⟨fun s marked => ?_, fun t marked => ?_, fun s t related => ?_⟩
  · have kept := h.left_marked _ ((left s).mp marked)
    unfold Foundation.zoom
    cases hm : m (l.get s) <;> exact (left _).mpr (by simpa [hm] using kept)
  · have kept := h.right_marked _ ((right t).mp marked)
    unfold Foundation.zoom
    cases hn : n (r.get t) <;> exact (right _).mpr (by simpa [hn] using kept)
  · have agreed := h.agree _ _ (down s t related)
    unfold Foundation.zoom
    revert agreed
    cases m (l.get s) <;> cases n (r.get t) <;> rintro (marked | marked | same)
    all_goals try exact .inl ((left _).mpr (by simpa using marked))
    all_goals try exact .inr (.inl ((right _).mpr (by simpa using marked)))
    all_goals cases same
    · exact .inr (.inr (.ok ‹_› (up _ _ _ _ related ‹_›)))
    · exact .inr (.inr (.error _ (up _ _ _ _ related ‹_›)))

end Simulates

/-- Runs `m` and hands over how it ended. -/
def attempt (m : EStateM ε σ α) : EStateM ε σ (Except ε α) := fun s =>
  match m s with
  | .ok a s' => .ok (.ok a) s'
  | .error e s' => .ok (.error e) s'

@[simp] theorem wp_attempt (m : EStateM ε σ α) (Q : Except ε α → σ → Prop) (E : ε → σ → Prop)
    (s : σ) :
    wp (attempt m) Q E s ↔ wp m (fun a s' => Q (.ok a) s') (fun e s' => Q (.error e) s') s := by
  unfold wp attempt
  cases m s <;> rfl

theorem Simulates.attempt {R : σ → τ → Prop} {B : σ → Prop} {C : τ → Prop} {m : EStateM ε σ α}
    {n : EStateM ε τ α} (h : Simulates R B C Eq m n) :
    Simulates R B C Eq (attempt m) (attempt n) := by
  refine ⟨fun s marked => ?_, fun t marked => ?_, fun s t related => ?_⟩
  · have kept := h.left_marked s marked
    unfold Foundation.attempt
    cases hm : m s <;> simpa [hm] using kept
  · have kept := h.right_marked t marked
    unfold Foundation.attempt
    cases hn : n t <;> simpa [hn] using kept
  · have agreed := h.agree s t related
    unfold Foundation.attempt
    revert agreed
    cases m s <;> cases n t <;> rintro (marked | marked | same)
    all_goals try exact .inl marked
    all_goals try exact .inr (.inl marked)
    all_goals cases same
    · rename_i values states
      exact .inr (.inr (.ok (congrArg Except.ok values) states))
    · exact .inr (.inr (.ok rfl ‹_›))

end NexusLab.Foundation
