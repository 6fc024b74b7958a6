import Mathlib.Data.Nat.Notation

/-!
# Programs that may stop

A C function that reads and writes a state, checks assertions and loops is a program
`Prog σ α`: from a state it either returns a value, or stops for one of the reasons in
`Stop`. The state at the stop is kept, so that what a run did before it aborted can be
spoken about.

## Main definitions

* `Prog`: programs over a state, `assert` and `zoom`, which runs a program on a part of
  the state.
* `Returns p Q`: whatever `p` returns satisfies `Q`.
* `Avoids e p s`: from `s`, `p` does not stop for the reason `e`.
* `loop`: a `for (;;)` loop, given a bound on its iterations. A loop whose bound is used up
  stops as `Stop.exhausted`, which is no behaviour of the C program: results about a run are
  stated for every bound, or for every large enough one.

## Main results

* `run_bind_eq_ok`: a sequence returns exactly when both halves do.
* `run_loop_exit`: how a loop that returns was left.
-/

namespace CProg

/-- Why a program stopped before it returned. -/
inductive Stop where
  /-- An `assert` failed, and the process aborts. -/
  | assertion
  /-- The program did something that C leaves undefined: a write past the end of a buffer,
  or a null pointer handed to a string function. -/
  | undefined
  /-- A loop used up its iteration bound. -/
  | exhausted
  /-- The program waits for something that never comes. -/
  | blocked
  deriving DecidableEq, Repr

/-- Results can be compared, so that a run on a given state can be checked by evaluation. -/
instance decidableEqResult {ε σ α : Type} [DecidableEq ε] [DecidableEq σ] [DecidableEq α] :
    DecidableEq (EStateM.Result ε σ α)
  | .ok a s, .ok a' s' => decidable_of_iff (a = a' ∧ s = s')
      ⟨fun h => h.1 ▸ h.2 ▸ rfl, fun h => EStateM.Result.ok.inj h⟩
  | .error e s, .error e' s' => decidable_of_iff (e = e' ∧ s = s')
      ⟨fun h => h.1 ▸ h.2 ▸ rfl, fun h => EStateM.Result.error.inj h⟩
  | .ok _ _, .error _ _ => isFalse fun h => by cases h
  | .error _ _, .ok _ _ => isFalse fun h => by cases h

/-- Programs over the state `σ`. -/
abbrev Prog (σ : Type) := EStateM Stop σ

variable {σ τ α β : Type}

/-- The state in which a run ended, returning or not. -/
def final : EStateM.Result Stop σ α → σ
  | .ok _ s => s
  | .error _ s => s

@[simp] theorem final_ok (a : α) (s : σ) : final (.ok a s : EStateM.Result Stop σ α) = s := rfl

@[simp] theorem final_error (e : Stop) (s : σ) :
    final (.error e s : EStateM.Result Stop σ α) = s := rfl

/-- Whether a run returned. -/
def returned : EStateM.Result Stop σ α → Bool
  | .ok _ _ => true
  | .error _ _ => false

/-- A run that returned ends in its final state. -/
theorem eq_ok_of_returned {r : EStateM.Result Stop σ Unit} (h : returned r = true) :
    r = .ok () (final r) := by
  cases r with
  | ok _ s => rfl
  | error e s => cases h

/-- What holds of the state in which a run returned can be computed. -/
instance (r : EStateM.Result Stop σ Unit) (P : σ → Prop) [DecidablePred P] :
    Decidable (∀ s, r = .ok () s → P s) :=
  match r with
  | .ok _ s => decidable_of_iff (P s) ⟨fun h _ hs' => (EStateM.Result.ok.inj hs').2 ▸ h,
      fun h => h s rfl⟩
  | .error _ _ => isTrue fun _ h => nomatch h

/-- C's `assert`. -/
def assert (p : Prop) [Decidable p] : Prog σ Unit :=
  if p then pure () else throw .assertion

/-- `assert` returns in the same state, or aborts in it. -/
theorem run_assert (p : Prop) [Decidable p] (s : σ) :
    (assert p : Prog σ Unit).run s = if p then .ok () s else .error .assertion s := by
  unfold assert
  split <;> rfl

@[simp] theorem run_assert_of_true {p : Prop} [Decidable p] (h : p) (s : σ) :
    (assert p : Prog σ Unit).run s = .ok () s := by
  rw [run_assert, if_pos h]

@[simp] theorem run_assert_of_false {p : Prop} [Decidable p] (h : ¬ p) (s : σ) :
    (assert p : Prog σ Unit).run s = .error .assertion s := by
  rw [run_assert, if_neg h]

/-- An `assert` that returned has held, and has changed nothing. -/
theorem run_assert_eq_ok {p : Prop} [Decidable p] {s s' : σ} :
    (assert p : Prog σ Unit).run s = .ok () s' ↔ p ∧ s = s' := by
  rw [run_assert]
  by_cases hp : p
  · simp [hp]
  · simp [hp]

/-- What comes behind is undefined unless `p` holds. -/
def defined (p : Prop) [Decidable p] : Prog σ Unit :=
  if p then pure () else throw .undefined

@[simp] theorem run_defined_of_true {p : Prop} [Decidable p] (h : p) (s : σ) :
    (defined p : Prog σ Unit).run s = .ok () s := by
  rw [defined, if_pos h]
  rfl

@[simp] theorem run_stop (e : Stop) (s : σ) : (throw e : Prog σ α).run s = .error e s := rfl

/-- Likewise for what has to hold if the rest is to be defined. -/
theorem run_defined_eq_ok {p : Prop} [Decidable p] {s s' : σ} :
    (defined p : Prog σ Unit).run s = .ok () s' ↔ p ∧ s = s' := by
  by_cases hp : p
  · rw [run_defined_of_true hp]
    simp [hp]
  · rw [defined, if_neg hp]
    simp [hp]

/-- A function on the result leaves the state as it is. -/
@[simp] theorem run_map (f : α → β) (x : Prog σ α) (s : σ) :
    (f <$> x).run s =
      match x.run s with
      | .ok a s' => .ok (f a) s'
      | .error e s' => .error e s' := by
  rw [map_eq_pure_bind, EStateM.run_bind]
  cases x.run s <;> rfl

/-- A sequence returns exactly when its first half returns and then its second half does. -/
theorem run_bind_eq_ok {x : Prog σ α} {f : α → Prog σ β} {s s'' : σ} {b : β} :
    (x >>= f).run s = .ok b s'' ↔
      ∃ a s', x.run s = .ok a s' ∧ (f a).run s' = .ok b s'' := by
  rw [EStateM.run_bind]
  constructor
  · intro h
    cases hx : x.run s with
    | ok a s' =>
      rw [hx] at h
      exact ⟨a, s', rfl, h⟩
    | error e s' =>
      rw [hx] at h
      cases h
  · rintro ⟨a, s', hx, hf⟩
    rw [hx]
    exact hf

/-- A sequence whose first half returns goes on with its second half. -/
theorem run_bind_of_ok {x : Prog σ α} {f : α → Prog σ β} {s s' : σ} {a : α}
    (h : x.run s = .ok a s') : (x >>= f).run s = (f a).run s' := by
  rw [EStateM.run_bind, h]

/-- A sequence that begins with an `assert` is a case distinction. -/
theorem run_assert_bind {p : Prop} [Decidable p] {f : Unit → Prog σ β} {s : σ} :
    (assert p >>= f).run s = if p then (f ()).run s else .error .assertion s := by
  rw [EStateM.run_bind]
  by_cases hp : p
  · rw [run_assert_of_true hp, if_pos hp]
  · rw [run_assert_of_false hp, if_neg hp]

/-- Whatever `p` returns satisfies `Q`. -/
def Returns (p : Prog σ α) (Q : α → Prop) : Prop := ∀ s a s', p.run s = .ok a s' → Q a

section Returns

variable {Q : β → Prop}

theorem returns_pure {b : β} (h : Q b) : Returns (pure b : Prog σ β) Q := by
  intro s a s' hrun
  cases hrun
  exact h

/-- A program that stops returns nothing. -/
theorem returns_throw (e : Stop) : Returns (throw e : Prog σ β) Q := by
  intro s a s' hrun
  cases hrun

/-- A sequence returns what its second half returns, whatever the first half does. -/
theorem Returns.bind {x : Prog σ α} {f : α → Prog σ β} (h : ∀ a, Returns (f a) Q) :
    Returns (x >>= f) Q := by
  intro s b s' hrun
  obtain ⟨a, t, -, hf⟩ := run_bind_eq_ok.mp hrun
  exact h a t b s' hf

/-- What the first half returns may be used for the second half. -/
theorem Returns.bind_of {P : α → Prop} {x : Prog σ α} {f : α → Prog σ β} (hx : Returns x P)
    (h : ∀ a, P a → Returns (f a) Q) : Returns (x >>= f) Q := by
  intro s b s' hrun
  obtain ⟨a, t, hfirst, hf⟩ := run_bind_eq_ok.mp hrun
  exact h a (hx s a t hfirst) t b s' hf

theorem Returns.ite {p : Prop} [Decidable p] {x y : Prog σ β} (hx : Returns x Q)
    (hy : Returns y Q) : Returns (if p then x else y) Q := by
  by_cases hp : p
  · rwa [if_pos hp]
  · rwa [if_neg hp]

end Returns

/-- Run a program on the part `get s` of the state. -/
def zoom (get : σ → τ) (set : τ → σ → σ) (p : Prog τ α) : Prog σ α := fun s =>
  match p.run (get s) with
  | .ok a t => .ok a (set t s)
  | .error e t => .error e (set t s)

section Zoom

variable {get : σ → τ} {set : τ → σ → σ} {p : Prog τ α} {s : σ} {t : τ}

/-- A run on a part of the state that returns puts the part back. -/
theorem run_zoom_of_ok {a : α} (h : p.run (get s) = .ok a t) :
    (zoom get set p).run s = .ok a (set t s) := by
  simp only [EStateM.run, zoom] at h ⊢
  rw [h]

/-- So does one that stops. -/
theorem run_zoom_of_error {e : Stop} (h : p.run (get s) = .error e t) :
    (zoom get set p).run s = .error e (set t s) := by
  simp only [EStateM.run, zoom] at h ⊢
  rw [h]

/-- A run on a part returns exactly if the program returns on this part. -/
theorem run_zoom_eq_ok {a : α} {s' : σ} :
    (zoom get set p).run s = .ok a s' ↔ ∃ t, p.run (get s) = .ok a t ∧ s' = set t s := by
  cases hp : p.run (get s) with
  | ok a' t =>
    rw [run_zoom_of_ok hp]
    constructor
    · intro h
      cases h
      exact ⟨t, rfl, rfl⟩
    · rintro ⟨t', h, rfl⟩
      cases h
      rfl
  | error e t =>
    rw [run_zoom_of_error hp]
    simp

end Zoom

/-- From `s`, `p` does not stop for the reason `e`. -/
def Avoids (e : Stop) (p : Prog σ α) (s : σ) : Prop := ∀ s', p.run s ≠ .error e s'

section Avoids

variable {e : Stop} {s : σ}

/-- A run that returns has not stopped. -/
theorem avoids_of_ok {p : Prog σ α} {a : α} {s' : σ} (h : p.run s = .ok a s') : Avoids e p s := by
  intro s'' herror
  rw [h] at herror
  cases herror

/-- A run that stops for another reason has not stopped for this one. -/
theorem avoids_of_error {p : Prog σ α} {e' : Stop} {s' : σ} (he : e' ≠ e)
    (h : p.run s = .error e' s') : Avoids e p s := by
  intro s'' herror
  rw [h] at herror
  cases herror
  exact he rfl

theorem avoids_pure (a : α) : Avoids e (pure a : Prog σ α) s := avoids_of_ok rfl

theorem avoids_throw {e' : Stop} (he : e' ≠ e) : Avoids e (throw e' : Prog σ α) s :=
  avoids_of_error he rfl

/-- An `assert` stops for no reason but its own. -/
theorem avoids_assert {p : Prop} [Decidable p] (he : .assertion ≠ e) :
    Avoids e (assert p : Prog σ Unit) s := by
  by_cases hp : p
  · exact avoids_of_ok (run_assert_of_true hp s)
  · exact avoids_of_error he (run_assert_of_false hp s)

/-- A sequence avoids what both halves avoid, the second one from where the first one returns. -/
theorem avoids_bind {x : Prog σ α} {f : α → Prog σ β} :
    Avoids e (x >>= f) s ↔
      Avoids e x s ∧ ∀ a s', x.run s = .ok a s' → Avoids e (f a) s' := by
  unfold Avoids
  simp only [EStateM.run_bind]
  cases hx : x.run s with
  | ok a s' => simp
  | error e' s' => simp

/-- Behind a first half that returns, only the second half matters. -/
theorem avoids_bind_of_ok {x : Prog σ α} {f : α → Prog σ β} {a : α} {s' : σ}
    (h : x.run s = .ok a s') : Avoids e (x >>= f) s ↔ Avoids e (f a) s' := by
  unfold Avoids
  rw [EStateM.run_bind, h]

/-- A first half that stops for another reason is all that happens. -/
theorem avoids_bind_of_error {x : Prog σ α} {f : α → Prog σ β} {e' : Stop} {s' : σ} (he : e' ≠ e)
    (h : x.run s = .error e' s') : Avoids e (x >>= f) s := by
  have hrun : (x >>= f).run s = .error e' s' := by
    rw [EStateM.run_bind, h]
  exact avoids_of_error he hrun

/-- A sequence avoids what its second half avoids from every state. -/
theorem Avoids.bind {x : Prog σ α} {f : α → Prog σ β} (hx : Avoids e x s)
    (hf : ∀ a s', Avoids e (f a) s') : Avoids e (x >>= f) s :=
  avoids_bind.mpr ⟨hx, fun a s' _ => hf a s'⟩

/-- A branch need only avoid it where it is taken. -/
theorem Avoids.ite {p : Prop} [Decidable p] {x y : Prog σ α} (hx : p → Avoids e x s)
    (hy : ¬ p → Avoids e y s) : Avoids e (if p then x else y) s := by
  by_cases hp : p
  · rw [if_pos hp]
    exact hx hp
  · rw [if_neg hp]
    exact hy hp

/-- If the first branch is harmless, the second one decides. -/
theorem Avoids.ite_iff {p : Prop} [Decidable p] {x y : Prog σ α} (hx : Avoids e x s) :
    Avoids e (if p then x else y) s ↔ (¬ p → Avoids e y s) := by
  by_cases hp : p
  · rw [if_pos hp]
    exact iff_of_true hx fun h => absurd hp h
  · rw [if_neg hp]
    exact ⟨fun h _ => h, fun h => h hp⟩

/-- A program on a part of the state stops for the reasons for which it stops there. -/
theorem avoids_zoom {get : σ → τ} {set : τ → σ → σ} {p : Prog τ α} :
    Avoids e (zoom get set p) s ↔ Avoids e p (get s) := by
  cases hp : p.run (get s) with
  | ok a t => exact iff_of_true (avoids_of_ok (run_zoom_of_ok hp)) (avoids_of_ok hp)
  | error e' t =>
    unfold Avoids
    rw [run_zoom_of_error hp, hp]
    simp

end Avoids

/-- A `for (;;)` loop of at most `n` iterations. One iteration turns the loop variable into
its next value (`.inl`) or leaves the loop with a result (`.inr`). -/
def loop (body : α → Prog σ (α ⊕ β)) : ℕ → α → Prog σ β
  | 0, _ => throw .exhausted
  | n + 1, a => do
    match ← body a with
    | .inl a' => loop body n a'
    | .inr b => pure b

section Loop

variable {body : α → Prog σ (α ⊕ β)} {n : ℕ} {a : α} {s s' : σ}

@[simp] theorem run_loop_zero : (loop body 0 a).run s = .error .exhausted s := rfl

/-- A round that asks for another one uses up one of the bound. -/
theorem run_loop_of_next {a' : α} (h : (body a).run s = .ok (.inl a') s') :
    (loop body (n + 1) a).run s = (loop body n a').run s' := by
  rw [loop, EStateM.run_bind, h]

/-- A round that leaves the loop gives its result. -/
theorem run_loop_of_done {b : β} (h : (body a).run s = .ok (.inr b) s') :
    (loop body (n + 1) a).run s = .ok b s' := by
  rw [loop, EStateM.run_bind, h]
  rfl

/-- A round that stops ends the loop. -/
theorem run_loop_of_error {e : Stop} (h : (body a).run s = .error e s') :
    (loop body (n + 1) a).run s = .error e s' := by
  rw [loop, EStateM.run_bind, h]

/-- A loop that returns leaves from a round whose start has what every round keeps. -/
theorem run_loop_exit {P : σ → Prop} {b : β}
    (hnext : ∀ a s a' s', P s → (body a).run s = .ok (.inl a') s' → P s') (hs : P s)
    (h : (loop body n a).run s = .ok b s') : ∃ a' t, P t ∧ (body a').run t = .ok (.inr b) s' := by
  induction n generalizing a s with
  | zero => cases h
  | succ n ih =>
    obtain ⟨r, t, hbody, hrest⟩ := run_bind_eq_ok.mp h
    rcases r with a' | b'
    · exact ih (hnext a s a' t hs hbody) hrest
    · cases hrest
      exact ⟨a, s, hs, hbody⟩

/-- A loop avoids what its body avoids from every state, unless it is to run out. -/
theorem Avoids.loop {e : Stop} (he : .exhausted ≠ e) (h : ∀ a s, Avoids e (body a) s) (n : ℕ)
    (a : α) (s : σ) : Avoids e (loop body n a) s := by
  induction n generalizing a s with
  | zero => exact avoids_of_error he run_loop_zero
  | succ n ih =>
    rw [CProg.loop]
    refine (h a s).bind fun r s' => ?_
    cases r with
    | inl a' => exact ih a' s'
    | inr b => exact avoids_pure b

end Loop

end CProg
