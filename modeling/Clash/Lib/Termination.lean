import Clash.Lib.CProg

/-!
# Rounds of a loop

A `for (;;)` loop ends when something decreases with every round.

## Main definitions

* `StartsRound body a s a' s'`: the loop from `a` in `s` starts a round with `a'` in `s'`.

* `Settles p s`: from `s`, some bound on its loops is large enough for `p` to return or to fail
  an assertion.

## Main results

* `settled_loop`: a loop whose rounds decrease a measure settles.
-/

namespace CProg

variable {σ α β : Type}

/-- A run that returned or failed an assertion. -/
def Settled (r : EStateM.Result Stop σ α) : Prop :=
  (∃ a s, r = .ok a s) ∨ ∃ s, r = .error .assertion s

theorem settled_ok (a : α) (s : σ) : Settled (.ok a s : EStateM.Result Stop σ α) :=
  .inl ⟨a, s, rfl⟩

theorem settled_assertion (s : σ) : Settled (.error .assertion s : EStateM.Result Stop σ α) :=
  .inr ⟨s, rfl⟩

theorem not_settled_of_ne {e : Stop} (he : e ≠ .assertion) (s : σ) :
    ¬ Settled (.error e s : EStateM.Result Stop σ α) := by
  rintro (⟨a, s', h⟩ | ⟨s', h⟩)
  · cases h
  · cases h
    exact he rfl

/-- From `s`, some bound on its loops is large enough for `p` to return or to fail an assertion. -/
def Settles (p : ℕ → Prog σ α) (s : σ) : Prop := ∃ n, Settled ((p n).run s)

section Loop

variable {body : α → Prog σ (α ⊕ β)} {P : α → σ → Prop} {a : α} {s : σ}

/-- A loop that starts with `a` in `s` comes to a round that starts with the given loop variable in
the given state. -/
inductive StartsRound (body : α → Prog σ (α ⊕ β)) (a : α) (s : σ) : α → σ → Prop
  | first : StartsRound body a s a s
  | next {a' a'' : α} {s' s'' : σ} (h : StartsRound body a s a' s')
      (hrun : (body a').run s' = .ok (.inl a'') s'') : StartsRound body a s a'' s''

/-- The rounds of a loop from a state with `P` keep `P` and decrease the measure, as long as they
neither leave the loop nor fail an assertion. -/
def Decreases (body : α → Prog σ (α ⊕ β)) (P : α → σ → Prop) (measure : σ → ℕ) : Prop :=
  ∀ a s, P a s →
    (∃ b s', (body a).run s = .ok (.inr b) s') ∨ (∃ s', (body a).run s = .error .assertion s') ∨
      ∃ a' s', (body a).run s = .ok (.inl a') s' ∧ P a' s' ∧ measure s' < measure s

/-- A loop whose rounds decrease a measure settles within that many rounds and one more. -/
theorem settled_loop {measure : σ → ℕ} (hbody : Decreases body P measure) (hP : P a s) {n : ℕ}
    (hn : measure s < n) : Settled ((loop body n a).run s) := by
  induction n generalizing a s with
  | zero => exact absurd hn (Nat.not_lt_zero _)
  | succ n ih =>
    obtain ⟨b, s', hrun⟩ | ⟨s', hrun⟩ | ⟨a', s', hrun, hP', hlt⟩ := hbody a s hP
    · rw [run_loop_of_done hrun]
      exact settled_ok b s'
    · rw [run_loop_of_error hrun]
      exact settled_assertion s'
    · rw [run_loop_of_next hrun]
      exact ih hP' (by omega)

/-- A loop whose rounds all return stops for no other reason than its bound. -/
theorem avoids_loop_of_ok {e : Stop} (he : .exhausted ≠ e) {Q : σ → Prop}
    (hbody : ∀ a s, Q s → ∃ r s', (body a).run s = .ok r s' ∧ Q s') (hQ : Q s) (n : ℕ) :
    Avoids e (loop body n a) s := by
  induction n generalizing a s with
  | zero => exact avoids_throw he
  | succ n ih =>
    obtain ⟨r, s', hrun, hQ'⟩ := hbody a s hQ
    rw [loop, avoids_bind_of_ok hrun]
    rcases r with a' | b
    · exact ih hQ'
    · exact avoids_pure b

end Loop

end CProg
