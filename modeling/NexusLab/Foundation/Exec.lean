import Mathlib.Logic.Basic

/-! # Stateful computations that may throw

`EStateM ε σ` keeps the state when an exception is thrown, which is how an imperative program
behaves: whatever was written before the `throw` stays written.  This module gives such
computations a weakest precondition with one postcondition for each way to end, the rules that
push it through the monad's operations, and the combinators the models use.

* `wp m Q E s`: running `m` from `s` ends in `Q` when it returns and in `E` when it throws.
* `Keeps P m`: `m` keeps `P`, however it ends.
* `Lens` and `zoom`: a computation over a component run inside a larger state.
* `wp_forM`: the invariant rule for a loop over a list.
-/

namespace NexusLab.Foundation

variable {ε σ τ α β : Type}

/-! ## Weakest preconditions -/

/-- Every way `m` can end from `s` is accepted: a return by `Q`, a throw by `E`. -/
def wp (m : EStateM ε σ α) (Q : α → σ → Prop) (E : ε → σ → Prop) (s : σ) : Prop :=
  match m s with
  | .ok a s' => Q a s'
  | .error e s' => E e s'

theorem wp_of_ok {m : EStateM ε σ α} {Q : α → σ → Prop} {E : ε → σ → Prop} {s s' : σ} {a : α}
    (h : wp m Q E s) (ok : m s = .ok a s') : Q a s' := by
  simpa [wp, ok] using h

theorem wp_of_error {m : EStateM ε σ α} {Q : α → σ → Prop} {E : ε → σ → Prop} {s s' : σ} {e : ε}
    (h : wp m Q E s) (thrown : m s = .error e s') : E e s' := by
  simpa [wp, thrown] using h

theorem wp_of_eq_ok {m : EStateM ε σ α} {Q : α → σ → Prop} {E : ε → σ → Prop} {s s' : σ} {a : α}
    (ok : m s = .ok a s') (h : Q a s') : wp m Q E s := by
  simpa [wp, ok] using h

theorem wp_intro {m : EStateM ε σ α} {Q : α → σ → Prop} {E : ε → σ → Prop} {s : σ}
    (returns : ∀ a s', m s = .ok a s' → Q a s')
    (throws : ∀ e s', m s = .error e s' → E e s') : wp m Q E s := by
  unfold wp
  split
  · exact returns _ _ ‹_›
  · exact throws _ _ ‹_›

theorem wp_mono {m : EStateM ε σ α} {Q Q' : α → σ → Prop} {E E' : ε → σ → Prop} {s : σ}
    (h : wp m Q E s) (returns : ∀ a s', Q a s' → Q' a s') (throws : ∀ e s', E e s' → E' e s') :
    wp m Q' E' s :=
  wp_intro (fun a s' ok => returns a s' (wp_of_ok h ok))
    (fun e s' thrown => throws e s' (wp_of_error h thrown))

theorem wp_and {m : EStateM ε σ α} {Q Q' : α → σ → Prop} {E E' : ε → σ → Prop} {s : σ}
    (h : wp m Q E s) (h' : wp m Q' E' s) :
    wp m (fun a s' => Q a s' ∧ Q' a s') (fun e s' => E e s' ∧ E' e s') s :=
  wp_intro (fun _ _ ok => ⟨wp_of_ok h ok, wp_of_ok h' ok⟩)
    (fun _ _ thrown => ⟨wp_of_error h thrown, wp_of_error h' thrown⟩)

@[simp] theorem wp_pure (a : α) (Q : α → σ → Prop) (E : ε → σ → Prop) (s : σ) :
    wp (pure a : EStateM ε σ α) Q E s ↔ Q a s := Iff.rfl

@[simp] theorem wp_throw (e : ε) (Q : α → σ → Prop) (E : ε → σ → Prop) (s : σ) :
    wp (throw e : EStateM ε σ α) Q E s ↔ E e s := Iff.rfl

@[simp] theorem wp_bind (m : EStateM ε σ α) (f : α → EStateM ε σ β)
    (Q : β → σ → Prop) (E : ε → σ → Prop) (s : σ) :
    wp (m >>= f) Q E s ↔ wp m (fun a s' => wp (f a) Q E s') E s := by
  show (match EStateM.bind m f s with | .ok a s' => Q a s' | .error e s' => E e s') ↔ _
  unfold wp EStateM.bind
  cases m s <;> rfl

@[simp] theorem wp_map (f : α → β) (m : EStateM ε σ α) (Q : β → σ → Prop) (E : ε → σ → Prop)
    (s : σ) : wp (f <$> m) Q E s ↔ wp m (fun a s' => Q (f a) s') E s := by
  show (match EStateM.map f m s with | .ok a s' => Q a s' | .error e s' => E e s') ↔ _
  unfold wp EStateM.map
  cases m s <;> rfl

@[simp] theorem wp_get (Q : σ → σ → Prop) (E : ε → σ → Prop) (s : σ) :
    wp (get : EStateM ε σ σ) Q E s ↔ Q s s := Iff.rfl

@[simp] theorem wp_set (s' : σ) (Q : PUnit → σ → Prop) (E : ε → σ → Prop) (s : σ) :
    wp (set s' : EStateM ε σ PUnit) Q E s ↔ Q ⟨⟩ s' := Iff.rfl

@[simp] theorem wp_modify (f : σ → σ) (Q : PUnit → σ → Prop) (E : ε → σ → Prop) (s : σ) :
    wp (modify f : EStateM ε σ PUnit) Q E s ↔ Q ⟨⟩ (f s) := Iff.rfl

@[simp] theorem wp_modifyGet (f : σ → α × σ) (Q : α → σ → Prop) (E : ε → σ → Prop) (s : σ) :
    wp (modifyGet f : EStateM ε σ α) Q E s ↔ Q (f s).1 (f s).2 := Iff.rfl

@[simp] theorem wp_ite (c : Prop) [Decidable c] (m n : EStateM ε σ α)
    (Q : α → σ → Prop) (E : ε → σ → Prop) (s : σ) :
    wp (if c then m else n) Q E s ↔ (c → wp m Q E s) ∧ (¬ c → wp n Q E s) := by
  by_cases h : c <;> simp [h]

/-! ## Combinators -/

/-- Reads a function of the state. -/
def reads (f : σ → α) : EStateM ε σ α := fun s => .ok (f s) s

/-- Throws `e` when `c` holds: a guard at the head of a function. -/
def throwIf (c : Prop) [Decidable c] (e : ε) : EStateM ε σ Unit :=
  if c then throw e else pure ()

/-- Runs `m` only when `c` holds. -/
def runIf (c : Prop) [Decidable c] (m : EStateM ε σ Unit) : EStateM ε σ Unit :=
  if c then m else pure ()

/-- The value of an optional result, or a throw. -/
def getOrThrow (o : Option α) (e : ε) : EStateM ε σ α :=
  match o with
  | some a => pure a
  | none => throw e

/-- A pure computation that may throw. -/
def fromExcept (r : Except ε α) : EStateM ε σ α :=
  match r with
  | .ok a => pure a
  | .error e => throw e

/-- Runs `m` and hands a throw to `handler`, with the state as the throw left it. -/
def catching (m : EStateM ε σ α) (handler : ε → EStateM ε σ α) : EStateM ε σ α := fun s =>
  match m s with
  | .ok a s' => .ok a s'
  | .error e s' => handler e s'

@[simp] theorem wp_reads (f : σ → α) (Q : α → σ → Prop) (E : ε → σ → Prop) (s : σ) :
    wp (reads f : EStateM ε σ α) Q E s ↔ Q (f s) s := Iff.rfl

@[simp] theorem wp_throwIf (c : Prop) [Decidable c] (e : ε) (Q : Unit → σ → Prop)
    (E : ε → σ → Prop) (s : σ) :
    wp (throwIf c e : EStateM ε σ Unit) Q E s ↔ (c → E e s) ∧ (¬ c → Q () s) := by
  simp [throwIf]

@[simp] theorem wp_runIf (c : Prop) [Decidable c] (m : EStateM ε σ Unit) (Q : Unit → σ → Prop)
    (E : ε → σ → Prop) (s : σ) :
    wp (runIf c m) Q E s ↔ (c → wp m Q E s) ∧ (¬ c → Q () s) := by
  simp [runIf]

@[simp] theorem wp_getOrThrow (o : Option α) (e : ε) (Q : α → σ → Prop) (E : ε → σ → Prop)
    (s : σ) :
    wp (getOrThrow o e : EStateM ε σ α) Q E s ↔
      (∀ a, o = some a → Q a s) ∧ (o = none → E e s) := by
  cases o <;> simp [getOrThrow]

@[simp] theorem wp_fromExcept (r : Except ε α) (Q : α → σ → Prop) (E : ε → σ → Prop) (s : σ) :
    wp (fromExcept r : EStateM ε σ α) Q E s ↔
      (∀ a, r = .ok a → Q a s) ∧ (∀ e, r = .error e → E e s) := by
  cases r <;> simp [fromExcept]

@[simp] theorem wp_catching (m : EStateM ε σ α) (handler : ε → EStateM ε σ α)
    (Q : α → σ → Prop) (E : ε → σ → Prop) (s : σ) :
    wp (catching m handler) Q E s ↔ wp m Q (fun e s' => wp (handler e) Q E s') s := by
  unfold wp catching
  cases m s <;> rfl

/-! ## Running a computation step by step -/

theorem get_bind_apply (f : σ → EStateM ε σ β) (s : σ) : (get >>= f) s = f s s := rfl

theorem bind_of_ok {m : EStateM ε σ α} {f : α → EStateM ε σ β} {s s' : σ} {a : α}
    (ok : m s = .ok a s') : (m >>= f) s = f a s' := by
  show EStateM.bind m f s = _
  simp [EStateM.bind, ok]

theorem bind_of_error {m : EStateM ε σ α} {f : α → EStateM ε σ β} {s s' : σ} {e : ε}
    (thrown : m s = .error e s') : (m >>= f) s = .error e s' := by
  show EStateM.bind m f s = _
  simp [EStateM.bind, thrown]

/-- What a computation that returned went through. -/
theorem ok_of_bind {m : EStateM ε σ α} {f : α → EStateM ε σ β} {s s' : σ} {b : β}
    (ok : (m >>= f) s = .ok b s') : ∃ a t, m s = .ok a t ∧ f a t = .ok b s' := by
  cases first : m s with
  | ok a t => exact ⟨a, t, rfl, (bind_of_ok first).symm.trans ok⟩
  | error e t => rw [bind_of_error first] at ok; cases ok

/-- A run that cannot throw returns what its postcondition leaves. -/
theorem eq_ok_of_wp {m : EStateM ε σ α} {s s' : σ} {a : α}
    (spec : wp m (fun b t => b = a ∧ t = s') (fun _ _ => False) s) : m s = .ok a s' := by
  unfold wp at spec
  cases run : m s with
  | ok b t =>
    rw [run] at spec
    rw [spec.1, spec.2]
  | error e t =>
    rw [run] at spec
    exact spec.elim

/-- Whether a run returns. -/
def returns (m : EStateM ε σ α) (s : σ) : Bool :=
  match m s with
  | .ok _ _ => true
  | .error _ _ => false

theorem ok_of_returns {m : EStateM ε σ α} {s : σ} (h : returns m s = true) :
    ∃ a s', m s = .ok a s' := by
  unfold returns at h
  split at h
  · exact ⟨_, _, ‹_›⟩
  · cases h

theorem fromExcept_of_ok (a : α) : (fromExcept (.ok a) : EStateM ε σ α) = pure a := rfl

theorem fromExcept_ok {r : Except ε α} {s s' : σ} {a : α}
    (ok : (fromExcept r : EStateM ε σ α) s = .ok a s') : r = .ok a ∧ s = s' := by
  cases r with
  | ok b => cases ok; exact ⟨rfl, rfl⟩
  | error e => cases ok

theorem throwIf_ok {c : Prop} [Decidable c] {e : ε} {s s' : σ} {a : Unit}
    (ok : (throwIf c e : EStateM ε σ Unit) s = .ok a s') : ¬ c ∧ s = s' := by
  unfold throwIf at ok
  split at ok
  · cases ok
  · cases ok
    exact ⟨‹_›, rfl⟩

/-! ## Kept properties -/

/-- `m` keeps `P`, whether it returns or throws. -/
def Keeps (P : σ → Prop) (m : EStateM ε σ α) : Prop :=
  ∀ s, P s → wp m (fun _ => P) (fun _ => P) s

namespace Keeps

variable {P : σ → Prop}

theorem pure (a : α) : Keeps (ε := ε) P (Pure.pure a) := fun _ h => h

theorem throw (e : ε) : Keeps P (MonadExcept.throw e : EStateM ε σ α) := fun _ h => h

theorem get : Keeps P (MonadState.get : EStateM ε σ σ) := fun _ h => h

theorem bind {m : EStateM ε σ α} {f : α → EStateM ε σ β} (first : Keeps P m)
    (second : ∀ a, Keeps P (f a)) : Keeps P (m >>= f) := by
  intro s h
  rw [wp_bind]
  exact wp_mono (first s h) (fun a s' h' => second a s' h') (fun _ _ h' => h')

theorem ite {c : Prop} [Decidable c] {m n : EStateM ε σ α} (yes : Keeps P m) (no : Keeps P n) :
    Keeps P (if c then m else n) := by
  split
  · exact yes
  · exact no

theorem catching {m : EStateM ε σ α} {f : ε → EStateM ε σ α} (body : Keeps P m)
    (handler : ∀ e, Keeps P (f e)) : Keeps P (catching m f) := by
  intro s h
  rw [wp_catching]
  exact wp_mono (body s h) (fun _ _ h' => h') (fun e s' h' => handler e s' h')

theorem throwIf {c : Prop} [Decidable c] (e : ε) : Keeps P (throwIf c e) := ite (throw e) (pure ())

theorem runIf {c : Prop} [Decidable c] {m : EStateM ε σ Unit} (h : Keeps P m) :
    Keeps P (runIf c m) := ite h (pure ())

theorem getOrThrow (o : Option α) (e : ε) : Keeps P (getOrThrow o e) := by
  cases o
  · exact throw e
  · exact pure _

theorem fromExcept (r : Except ε α) : Keeps P (fromExcept r) := by
  cases r
  · exact throw _
  · exact pure _

end Keeps

/-! ## Pure computations that may throw -/

@[simp] theorem ok_bind (a : α) (f : α → Except ε β) : (Except.ok a >>= f) = f a := rfl

@[simp] theorem error_bind (e : ε) (f : α → Except ε β) :
    (Except.error e >>= f) = Except.error e := rfl

/-- What the parts of a computation returned that returned. -/
theorem returned_of_bind {x : Except ε α} {f : α → Except ε β} {b : β}
    (ok : (x >>= f) = .ok b) : ∃ a, x = .ok a ∧ f a = .ok b := by
  cases x with
  | error e => cases ok
  | ok a => exact ⟨a, rfl, ok⟩

@[simp] theorem pure_eq_ok (a : α) : (pure a : Except ε α) = .ok a := rfl

@[simp] theorem throw_eq_error (e : ε) : (throw e : Except ε α) = .error e := rfl

/-! ## Components -/

/-- A component `τ` of a state `σ`. -/
structure Lens (σ τ : Type) where
  get : σ → τ
  set : τ → σ → σ
  get_set : ∀ t s, get (set t s) = t
  set_get : ∀ s, set (get s) s = s
  set_set : ∀ t t' s, set t (set t' s) = set t s

attribute [simp] Lens.get_set Lens.set_get Lens.set_set

/-- Runs a computation over a component inside the whole state, writing the component back
however the computation ends. -/
def zoom (l : Lens σ τ) (m : EStateM ε τ α) : EStateM ε σ α := fun s =>
  match m (l.get s) with
  | .ok a t => .ok a (l.set t s)
  | .error e t => .error e (l.set t s)

@[simp] theorem wp_zoom (l : Lens σ τ) (m : EStateM ε τ α) (Q : α → σ → Prop)
    (E : ε → σ → Prop) (s : σ) :
    wp (zoom l m) Q E s ↔
      wp m (fun a t => Q a (l.set t s)) (fun e t => E e (l.set t s)) (l.get s) := by
  unfold wp zoom
  cases m (l.get s) <;> rfl

theorem zoom_ok {l : Lens σ τ} {m : EStateM ε τ α} {s s' : σ} {a : α}
    (ok : zoom l m s = .ok a s') : ∃ t, m (l.get s) = .ok a t ∧ s' = l.set t s := by
  unfold zoom at ok
  split at ok
  · rename_i t inner
    cases ok
    exact ⟨t, inner, rfl⟩
  · cases ok

theorem zoom_of_ok {l : Lens σ τ} {m : EStateM ε τ α} {s : σ} {t : τ} {a : α}
    (ok : m (l.get s) = .ok a t) : zoom l m s = .ok a (l.set t s) := by
  simp [zoom, ok]

/-! ## Loops over a list -/

theorem forM_cons_apply (a : α) (as : List α) (f : α → EStateM ε σ PUnit) (s : σ) :
    (a :: as).forM f s = (f a >>= fun _ => as.forM f) s := by
  rw [List.forM_eq_forM, List.forM_cons]

@[simp] theorem wp_forM_nil (f : α → EStateM ε σ PUnit) (Q : PUnit → σ → Prop)
    (E : ε → σ → Prop) (s : σ) : wp (([] : List α).forM f) Q E s ↔ Q ⟨⟩ s := Iff.rfl

theorem wp_forM_cons (a : α) (as : List α) (f : α → EStateM ε σ PUnit)
    (Q : PUnit → σ → Prop) (E : ε → σ → Prop) (s : σ) :
    wp ((a :: as).forM f) Q E s ↔ wp (f a) (fun _ s' => wp (as.forM f) Q E s') E s := by
  rw [List.forM_eq_forM, List.forM_cons, wp_bind]

/-- The invariant rule: `I` holds of what is left of the list and of the state before every
iteration. -/
theorem wp_forM (I : List α → σ → Prop) (f : α → EStateM ε σ PUnit) (E : ε → σ → Prop)
    (step : ∀ a as s, I (a :: as) s → wp (f a) (fun _ s' => I as s') E s) :
    ∀ (as : List α) (s : σ), I as s → wp (as.forM f) (fun _ s' => I [] s') E s
  | [], _, h => h
  | a :: as, s, h => by
    rw [wp_forM_cons]
    exact wp_mono (step a as s h) (fun _ s' h' => wp_forM I f E step as s' h') (fun _ _ h => h)

/-- The invariant rule of a counting loop. -/
theorem wp_forM_range (I : Nat → σ → Prop) (f : Nat → EStateM ε σ PUnit) (E : ε → σ → Prop)
    {n : Nat} (step : ∀ i s, i < n → I i s → wp (f i) (fun _ s' => I (i + 1) s') E s) {s : σ}
    (initial : I 0 s) : wp ((List.range n).forM f) (fun _ s' => I n s') E s := by
  have all := wp_forM (fun rest s => ∃ i, i ≤ n ∧ rest = List.range' i (n - i) ∧ I i s) f E
    (fun a rest s h => by
      obtain ⟨i, le, split, holds⟩ := h
      obtain ⟨count, succ⟩ : ∃ count, n - i = count + 1 := ⟨rest.length, by
        simpa using congrArg List.length split.symm⟩
      rw [succ, List.range'_succ, List.cons.injEq] at split
      obtain ⟨rfl, rfl⟩ := split
      refine wp_mono (step a s (by omega) holds) (fun _ s' h => ?_) (fun _ _ h => h)
      exact ⟨a + 1, by omega, by rw [show n - (a + 1) = count by omega], h⟩) (List.range n) s
  refine wp_mono (all ⟨0, Nat.zero_le _, by rw [Nat.sub_zero, List.range_eq_range'], initial⟩)
    (fun _ s' h => ?_) (fun _ _ h => h)
  obtain ⟨i, le, done, holds⟩ := h
  have last : i = n := by
    have := congrArg List.length done
    simp only [List.length_nil, List.length_range'] at this
    omega
  exact last ▸ holds

/-- The invariant rule of a loop that collects: `I` holds of what is left of the list, of what was
collected and of the state. -/
theorem wp_mapM (I : List α → List β → σ → Prop) (f : α → EStateM ε σ β)
    (E : ε → σ → Prop)
    (step : ∀ a as bs s, I (a :: as) bs s → wp (f a) (fun b s' => I as (bs ++ [b]) s') E s) :
    ∀ (as : List α) (bs : List β) (s : σ), I as bs s →
      wp (as.mapM f) (fun cs s' => I [] (bs ++ cs) s') E s
  | [], bs, s, h => by
    rw [List.mapM_nil, wp_pure, List.append_nil]
    exact h
  | a :: as, bs, s, h => by
    rw [List.mapM_cons, wp_bind]
    refine wp_mono (step a as bs s h) (fun b s' h' => ?_) (fun _ _ h' => h')
    rw [wp_bind]
    refine wp_mono (wp_mapM I f E step as (bs ++ [b]) s' h') (fun cs s'' h'' => ?_)
      (fun _ _ h' => h')
    rwa [List.append_assoc] at h''

/-! ## Properties kept on return -/

/-- `m` keeps `P` when it returns. -/
def Preserves (P : σ → Prop) (m : EStateM ε σ α) : Prop :=
  ∀ s, P s → wp m (fun _ => P) (fun _ _ => True) s

namespace Preserves

variable {P : σ → Prop}

theorem pure (a : α) : Preserves (ε := ε) P (Pure.pure a) := fun _ h => h

theorem throw (e : ε) : Preserves P (MonadExcept.throw e : EStateM ε σ α) := fun _ _ => trivial

theorem get : Preserves P (MonadState.get : EStateM ε σ σ) := fun _ h => h

theorem reads (f : σ → β) : Preserves P (reads f : EStateM ε σ β) := fun _ h => h

theorem modify {f : σ → σ} (kept : ∀ s, P s → P (f s)) :
    Preserves P (modify f : EStateM ε σ PUnit) := fun s h => kept s h

theorem bind {m : EStateM ε σ α} {f : α → EStateM ε σ β} (first : Preserves P m)
    (second : ∀ a, Preserves P (f a)) : Preserves P (m >>= f) := by
  intro s h
  rw [wp_bind]
  exact wp_mono (first s h) (fun a s' h' => second a s' h') (fun _ _ h' => h')

theorem ite {c : Prop} [Decidable c] {m n : EStateM ε σ α} (yes : Preserves P m)
    (no : Preserves P n) : Preserves P (if c then m else n) := by
  split
  · exact yes
  · exact no

/-- A handler that throws again leaves nothing to keep. -/
theorem catching {m : EStateM ε σ α} {f : ε → EStateM ε σ α} (body : Preserves P m)
    (rethrows : ∀ e s, wp (f e) (fun _ _ => False) (fun _ _ => True) s) :
    Preserves P (catching m f) := by
  intro s h
  rw [wp_catching]
  refine wp_mono (body s h) (fun _ _ h' => h') (fun e s' _ => ?_)
  exact wp_mono (rethrows e s') (fun _ _ none => none.elim) (fun _ _ h' => h')

theorem throwIf {c : Prop} [Decidable c] (e : ε) : Preserves P (throwIf c e) :=
  ite (throw e) (pure ())

theorem runIf {c : Prop} [Decidable c] {m : EStateM ε σ Unit} (h : Preserves P m) :
    Preserves P (runIf c m) := ite h (pure ())

theorem getOrThrow (o : Option α) (e : ε) : Preserves P (getOrThrow o e) := by
  cases o
  · exact throw e
  · exact pure _

theorem fromExcept (r : Except ε α) : Preserves P (fromExcept r) := by
  cases r
  · exact throw _
  · exact pure _

theorem zoom {P : τ → Prop} (l : Lens σ τ) {m : EStateM ε τ α} (kept : Preserves P m) :
    Preserves (fun s => P (l.get s)) (zoom l m) := by
  intro s h
  rw [wp_zoom]
  refine wp_mono (kept (l.get s) h) (fun a t h' => ?_) (fun _ _ h' => h')
  rw [l.get_set]
  exact h'

theorem forM {f : α → EStateM ε σ PUnit} : ∀ {as : List α}, (∀ a ∈ as, Preserves P (f a)) →
    Preserves P (as.forM f)
  | [], _ => pure _
  | a :: _, each => (each a (List.mem_cons_self ..)).bind fun _ =>
      forM fun b member => each b (List.mem_cons_of_mem _ member)

end Preserves

end NexusLab.Foundation
