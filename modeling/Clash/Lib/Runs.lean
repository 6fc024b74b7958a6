import Mathlib.Algebra.Ring.Nat

/-!
# Runs of a transition system

A system whose steps are chosen by actions: `step s a` is the state behind the step, or nothing if
the action is not enabled. Nondeterminism, such as the order in which threads run, is in the choice
of the actions.

## Main definitions

* `Run step s as s'`: the actions `as` lead from `s` to `s'`.

## Main results

* `Run.induct`: what holds at the start of a run and is preserved by every step holds at its end.
* `run_iff_foldlM`: a run can be computed.
* `Run.length_add_le`: what every step uses up bounds the length of a run.
* `exists_run_to_end`: where steps of a kind use something up, they lead to a state without them.
-/

namespace Runs

variable {σ α : Type} {step : σ → α → Option σ}

/-- The actions lead from the first state to the last. -/
inductive Run (step : σ → α → Option σ) (s : σ) : List α → σ → Prop
  | nil : Run step s [] s
  | snoc {as : List α} {s' : σ} {a : α} {s'' : σ} :
      Run step s as s' → step s' a = some s'' → Run step s (as ++ [a]) s''

variable {s s' s'' : σ} {as as' : List α} {a : α}

/-- What holds at the start and is preserved by every step holds at the end of a run. -/
theorem Run.induct {P : List α → σ → Prop} (hnil : P [] s)
    (hsnoc : ∀ as s' a s'', P as s' → step s' a = some s'' → P (as ++ [a]) s'')
    (h : Run step s as s') : P as s' := by
  induction h with
  | nil => exact hnil
  | snoc _ hstep ih => exact hsnoc _ _ _ _ ih hstep

theorem Run.trans (h : Run step s as s') (h' : Run step s' as' s'') :
    Run step s (as ++ as') s'' := by
  induction h' with
  | nil => rwa [List.append_nil]
  | snoc _ hstep ih =>
    rw [← List.append_assoc]
    exact .snoc ih hstep

theorem Run.single (h : step s a = some s') : Run step s [a] s' := .snoc .nil h

theorem Run.cons (h : step s a = some s') (h' : Run step s' as s'') :
    Run step s (a :: as) s'' :=
  (Run.single h).trans h'

/-- A run can be computed from its actions. -/
theorem run_iff_foldlM : Run step s as s' ↔ as.foldlM step s = some s' := by
  constructor
  · intro h
    induction h with
    | nil => rfl
    | snoc _ hstep ih => rw [List.foldlM_append, ih]; simpa using hstep
  · intro h
    induction as generalizing s with
    | nil =>
      cases h
      exact .nil
    | cons a as ih =>
      rw [List.foldlM_cons, Option.bind_eq_bind, Option.bind_eq_some_iff] at h
      obtain ⟨s₁, hstep, hrest⟩ := h
      exact .cons hstep (ih hrest)

/-- Where every step uses up some of what is left, apart from what its action gives back, a run has
no more steps than there was at its start and its actions gave back. -/
theorem Run.length_add_le {left : σ → ℕ} {back : α → ℕ}
    (hstep : ∀ s a s', step s a = some s' → left s' + 1 ≤ left s + back a)
    (h : Run step s as s') : as.length + left s' ≤ left s + (as.map back).sum := by
  induction h with
  | nil => exact Nat.le_of_eq (Nat.add_comm _ _)
  | snoc _ hlast ih =>
    have hle := hstep _ _ _ hlast
    rw [List.length_append, List.map_append, List.sum_append, List.length_singleton,
      List.map_singleton, List.sum_singleton]
    omega

/-- Where the steps with the actions in `p` use something up, they can be taken until none of them
is enabled. -/
theorem exists_run_to_end {left : σ → ℕ} {p : α → Prop}
    (hstep : ∀ s a s', step s a = some s' → p a → left s' < left s) (s : σ) :
    ∃ as s', Run step s as s' ∧ (∀ a ∈ as, p a) ∧ ∀ a s'', step s' a = some s'' → ¬ p a := by
  induction hleft : left s using Nat.strongRecOn generalizing s with
  | ind k ih =>
    by_cases hend : ∀ a s'', step s a = some s'' → ¬ p a
    · exact ⟨[], s, .nil, fun a ha => absurd ha (List.not_mem_nil), hend⟩
    · simp only [Classical.not_forall, Classical.not_not] at hend
      obtain ⟨a, s₁, hfirst, ha⟩ := hend
      obtain ⟨as, s', hrun, hall, hend⟩ := ih _ (hleft ▸ hstep s a s₁ hfirst ha) s₁ rfl
      refine ⟨a :: as, s', .cons hfirst hrun, ?_, hend⟩
      intro b hb
      rcases List.mem_cons.mp hb with rfl | hb
      · exact ha
      · exact hall b hb

end Runs
