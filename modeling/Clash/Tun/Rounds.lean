import Mathlib.Tactic.ByContra
import Mathlib.Tactic.SplitIfs
import Clash.Tun.StartStop

/-!
# Several rounds of ss

What becomes of a program that calls `start_ss` and `stop_ss` more than once.

## Main definitions

* `State.withRounds`: a state of a program with another number of rounds.

## Main results

* `rounds_of_run`: up to the second call of `start_ss`, a run is a run of a single round.
* `rounds_safe_iff`: no assertion can fail exactly if there is at most one round, and in a run an
  assertion fails exactly at the second call of `start_ss`.
-/

open Runs

namespace Threads

variable {env : Env} {n : ℕ} {acts : List Action} {s s' : State} {a : Action}

/-- The state with `rounds` rounds to go. -/
def State.withRounds (s : State) (rounds : ℕ) : State := { s with rounds }

section WithRounds

variable (s : State) (rounds : ℕ)

/-- A signal does not look at the rounds that are left. -/
@[simp] theorem signal_withRounds :
    signal (s.withRounds rounds) = (signal s).withRounds rounds := by
  unfold signal
  show (if s.main = .blocked then _ else if s.ss = .blocked then _ else _) = _
  split_ifs <;> rfl

/-- Nor does an assertion on the status, -/
theorem check_withRounds (p : Prop) [Decidable p] (next : State) :
    check p (s.withRounds rounds) (next.withRounds rounds) =
      (check p s next).withRounds rounds := by
  unfold check
  split_ifs <;> rfl

/-- nor a change of the status, -/
theorem statusChangeTo_withRounds (s1 : Status) :
    statusChangeTo s1 (s.withRounds rounds) = (statusChangeTo s1 s).withRounds rounds := by
  rw [statusChangeTo, statusChangeTo, ← check_withRounds, ← signal_withRounds]
  rfl

/-- nor one from a given status. -/
theorem statusChangeFromTo_withRounds (s0 s1 : Status) :
    statusChangeFromTo s0 s1 (s.withRounds rounds) =
      (statusChangeFromTo s0 s1 s).withRounds rounds := by
  rw [statusChangeFromTo, statusChangeFromTo, ← check_withRounds, ← signal_withRounds]
  rfl

end WithRounds

/-- Only `start_ss` looks at the number of rounds. -/
theorem step_withRounds (ha : a ≠ .start) (hstep : step env s a = some s') (rounds : ℕ) :
    step env (s.withRounds rounds) a = some (s'.withRounds rounds) := by
  obtain ⟨haborted, hsteps⟩ := steps_of_step hstep
  refine step_of_steps haborted ?_
  -- the steps that change the status are the same with other rounds
  cases hsteps with
  | start => exact absurd rfl ha
  | create hmain => exact .create hmain
  | mainTest hmain => exact .mainTest hmain
  | mainWake hspurious hmain => exact .mainWake hspurious hmain
  | switchUp hmain => exact .switchUp hmain
  | switchFail hmain => exact .switchFail hmain
  | switchDown hmain => exact .switchDown hmain
  | stop hmain =>
    rw [← statusChangeFromTo_withRounds]
    exact .stop hmain
  | kill hmain => exact .kill hmain
  | libFail hss => exact .libFail hss
  | callback hss =>
    rw [← statusChangeTo_withRounds]
    exact .callback hss
  | libReturn hreturn hss => exact .libReturn hreturn hss
  | report hss =>
    rw [← statusChangeFromTo_withRounds]
    exact .report hss
  | ssTest hss => exact .ssTest hss
  | ssWake hspurious hss => exact .ssWake hspurious hss
  | assertUp hss =>
    rename_i ret
    have hcheck := check_withRounds s rounds (ret = .up) { s with ss := .ended }
    rw [← hcheck]
    exact .assertUp hss

/-- In a round in which no assertion has failed, main is not in front of `start_ss` again unless
`thread` is set. -/
theorem Phase.thread_of_start {early cb failed : Bool} (h : Phase early cb failed s)
    (hmain : s.main = .idle ∨ s.main = .stopped) :
    s = init 1 ∨ s.rounds = 0 ∧ s.thread = true := by
  cases h with
  | idle => exact .inl rfl
  | create => simp at hmain
  | _ => exact .inr ⟨rfl, rfl⟩

/-- In no phase the program has aborted. -/
theorem Phase.aborted {early cb failed : Bool} (h : Phase early cb failed s) :
    s.aborted = false := by
  cases h <;> rfl

/-- Up to the second call of `start_ss` a run is a run of a single round, and this call fails its
assertion. -/
theorem rounds_of_run (h : Run (step env) (init n) acts s) :
    (acts.count .start ≤ 1 ∧ s.rounds + acts.count .start = n ∧
        Run (step env) (init 1) acts (s.withRounds (1 - acts.count .start))) ∨
      acts.count .start = 2 ∧ 2 ≤ n ∧ s.aborted = true := by
  induction h with
  | nil => exact .inl ⟨Nat.zero_le 1, Nat.add_zero n, .nil⟩
  | @snoc acts s a s' _ hstep ih =>
    obtain ⟨-, -, haborted⟩ | ⟨hcount, hrounds, hrun⟩ := ih.symm
    · rw [(steps_of_step hstep).1] at haborted
      cases haborted
    rw [List.count_append, List.count_singleton]
    by_cases ha : a = .start
    · subst ha
      obtain ⟨_, _, hphase, -⟩ := phase_of_run hrun
      obtain ⟨-, hsteps⟩ := steps_of_step hstep
      obtain ⟨hmain, hpos⟩ := hsteps
      obtain hinit | ⟨hzero, hthread⟩ := hphase.thread_of_start hmain
      -- the first call
      · left
        have hzero : acts.count .start = 0 := by
          have hone : 1 - acts.count .start = 1 := congrArg State.rounds hinit
          omega
        obtain ⟨m, rfl⟩ : ∃ m, s = init m :=
          ⟨s.rounds, congrArg (·.withRounds s.rounds) hinit⟩
        refine ⟨by rw [hzero]; decide, ?_, ?_⟩
        · have hpos : 0 < m := hpos
          have hm : m + acts.count .start = n := hrounds
          show m - 1 + (acts.count .start + 1) = n
          omega
        · rw [hzero] at hrun ⊢
          exact .snoc hrun rfl
      -- the second call
      · right
        have hone : acts.count .start = 1 := by
          have : 1 - acts.count .start = 0 := hzero
          omega
        have hthread : s.thread = true := hthread
        refine ⟨by rw [hone]; rfl, by omega, ?_⟩
        rw [check, if_neg (by rw [hthread]; decide)]
    · left
      have hne : (a == Action.start) = false := by simpa using ha
      have hrounds' : s'.rounds = s.rounds := by
        have hsame : step env s a = some (s'.withRounds s.rounds) :=
          step_withRounds ha hstep s.rounds
        rw [hstep] at hsame
        calc s'.rounds = (s'.withRounds s.rounds).rounds :=
              congrArg State.rounds (Option.some.inj hsame)
          _ = s.rounds := rfl
      rw [hne, if_neg Bool.false_ne_true, Nat.add_zero]
      exact ⟨hcount, by rw [hrounds', hrounds], .snoc hrun (step_withRounds ha hstep _)⟩

/-- A second round stops in the assertion of `start_ss` that `thread` is 0. -/
theorem aborts_of_two_le (env : Env) (h : 2 ≤ n) :
    ∃ acts s, Run (step env) (init n) acts s ∧ s.aborted = true := by
  obtain ⟨m, rfl⟩ : ∃ m, n = m + 2 := ⟨n - 2, by omega⟩
  refine ⟨[.start, .create, .callback, .mainTest, .switch, .stop, .kill, .start], _,
    run_iff_foldlM.mpr rfl, rfl⟩

/-- `n` rounds run without a failed assertion in every interleaving exactly if `n ≤ 1`: a run fails
an assertion exactly if it enters `start_ss` for the second time, since `stop_ss` leaves `thread` as
it was. -/
theorem rounds_safe_iff (env : Env) (n : ℕ) :
    ((∀ acts s, Run (step env) (init n) acts s → s.aborted = false) ↔ n ≤ 1) ∧
      ∀ acts s, Run (step env) (init n) acts s → (s.aborted = true ↔ 2 ≤ acts.count .start) := by
  -- a run is within its first round, or has aborted in front of the second
  have hrun : ∀ acts s, Run (step env) (init n) acts s →
      (s.aborted = true ↔ 2 ≤ acts.count .start) := by
    intro acts s h
    rcases rounds_of_run h with ⟨hcount, -, hround⟩ | ⟨hcount, -, haborted⟩
    · obtain ⟨_, _, hphase, -⟩ := phase_of_run hround
      have haborted : s.aborted = false := hphase.aborted
      rw [haborted]
      exact iff_of_false Bool.false_ne_true (by omega)
    · exact iff_of_true haborted (Nat.le_of_eq hcount.symm)
  refine ⟨⟨fun hsafe => ?_, fun hn acts s h => ?_⟩, hrun⟩
  · -- with two rounds there is a run that aborts
    by_contra hn
    obtain ⟨acts, s, h, haborted⟩ := aborts_of_two_le env (Nat.lt_of_not_le hn)
    rw [hsafe acts s h] at haborted
    cases haborted
  · by_contra haborted
    have hcount := (hrun acts s h).mp (by simpa using haborted)
    rcases rounds_of_run h with ⟨hle, -⟩ | ⟨-, hle, -⟩
    · omega
    · omega

/-- `rounds_safe_iff` for two rounds. -/
theorem rounds_safe_two :
    ∃ acts s, Run (step ⟨false, false⟩) (init 2) acts s ∧ acts.count .start = 2 ∧
      s.aborted = true := by
  have hrun : Run (step ⟨false, false⟩) (init 2)
      [.start, .create, .callback, .mainTest, .switch, .stop, .kill, .start] _ :=
    run_iff_foldlM.mpr rfl
  exact ⟨_, _, hrun, by decide, ((rounds_safe_iff _ 2).2 _ _ hrun).mpr (by decide)⟩

/-- In the second of two rounds `start_ss` finds `thread` set. -/
theorem not_safe_two_rounds :
    ¬ ∀ n acts s, Run (step ⟨false, false⟩) (init n) acts s → s.aborted = false := by
  intro h
  obtain ⟨acts, s, hrun, haborted⟩ := aborts_of_two_le ⟨false, false⟩ (Nat.le_refl 2)
  rw [h 2 acts s hrun] at haborted
  cases haborted

end Threads
