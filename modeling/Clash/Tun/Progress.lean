import Clash.Tun.Rounds

/-!
# Progress of start_ss and stop_ss

The two threads come to an end, in whatever order they run, and where they can end.

`pthread_cond_wait` may return without a signal any number of times. Apart from these returns, and
from the tests of the status behind them, no thread runs for ever.

## Main definitions

* `State.left`: a bound on the steps that are left.
* `Action.back`: what a return of `pthread_cond_wait` without a signal adds to it.

## Main results

* `length_le_of_run`: the bound on the length of a run.
* `rounds_end`: where a run ends that cannot go on.
-/

open Runs

namespace Threads

variable {env : Env} {n : ℕ} {acts : List Action} {s s' : State} {a : Action}

/-! ## The length of a run -/

/-- What main has in front of it. -/
def MainPc.left : MainPc → ℕ
  | .idle => 0
  | .create => 13
  | .wait => 6
  | .blocked => 5
  | .returned _ => 4
  | .started _ => 3
  | .kill => 1
  | .stopped => 0

/-- What the ss thread has in front of it. -/
def SsPc.left : SsPc → ℕ
  | .absent => 0
  | .starting => 5
  | .failed => 2
  | .serving => 3
  | .wait => 2
  | .blocked => 1
  | .returned _ => 1
  | .ended => 0

/-- A bound on the steps that are left, apart from wake-ups without a signal. -/
def State.left (s : State) : ℕ :=
  20 * s.rounds + s.main.left + s.ss.left + if s.aborted then 0 else 1

/-- `pthread_cond_wait` returns without a signal. -/
def Action.spurious : Action → Bool
  | .mainWake => true
  | .ssWake => true
  | _ => false

/-- What a wake-up without a signal adds to the steps that are left. -/
def Action.back (a : Action) : ℕ := if a.spurious then 2 else 0

/-- A signal adds the test behind it. -/
theorem left_signal_le (s : State) : (signal s).left ≤ s.left + 1 := by
  unfold signal
  split
  · rename_i hmain
    simp only [State.left, hmain, MainPc.left]
    omega
  · split
    · rename_i hss
      simp only [State.left, hss, SsPc.left]
      omega
    · exact Nat.le_succ _

/-- A failed assertion ends the program. -/
theorem left_aborted (haborted : s.aborted = false) :
    ({ s with aborted := true } : State).left + 1 = s.left := by
  simp [State.left, haborted]

/-- A check uses up what the step behind it does, or ends the program. -/
theorem left_check {p : Prop} [Decidable p] {next : State} {k : ℕ} (haborted : s.aborted = false)
    (hnext : next.left + 1 ≤ s.left + k) : (check p s next).left + 1 ≤ s.left + k := by
  unfold check
  split
  · exact hnext
  · rw [left_aborted haborted]
    exact Nat.le_add_right _ _

/-- A change of the status adds the test of the thread that it wakes. -/
theorem left_statusChangeTo {t : State} {s1 : Status} (haborted : t.aborted = false)
    (h : t.left + 2 ≤ s.left) : (statusChangeTo s1 t).left + 1 ≤ s.left := by
  have hsignal := left_signal_le { t with status := s1 }
  have hcheck : (statusChangeTo s1 t).left + 1 ≤ t.left + 2 :=
    left_check haborted (Nat.succ_le_succ hsignal)
  exact Nat.le_trans hcheck h

theorem left_statusChangeFromTo {t : State} {s0 s1 : Status} (haborted : t.aborted = false)
    (h : t.left + 2 ≤ s.left) : (statusChangeFromTo s0 s1 t).left + 1 ≤ s.left := by
  have hsignal := left_signal_le { t with status := s1 }
  have hcheck : (statusChangeFromTo s0 s1 t).left + 1 ≤ t.left + 2 :=
    left_check haborted (Nat.succ_le_succ hsignal)
  exact Nat.le_trans hcheck h

/-- What a step of main alone leaves. -/
theorem left_main {main : MainPc} {k : ℕ} (h : main.left + 1 ≤ s.main.left + k) :
    ({ s with main } : State).left + 1 ≤ s.left + k := by
  simp only [State.left]
  omega

/-- What a step of the ss thread alone leaves. -/
theorem left_ss {ss : SsPc} {k : ℕ} (h : ss.left + 1 ≤ s.ss.left + k) :
    ({ s with ss } : State).left + 1 ≤ s.left + k := by
  simp only [State.left]
  omega

/-- Every step but a wake-up without a signal leaves less. -/
theorem left_step (hstep : step env s a = some s') : s'.left + 1 ≤ s.left + a.back := by
  obtain ⟨haborted, hsteps⟩ := steps_of_step hstep
  cases hsteps with
  | start hmain hrounds =>
    have hleft : s.main.left = 0 := by
      rcases hmain with hmain | hmain
      · rw [hmain]
        rfl
      · rw [hmain]
        rfl
    refine left_check haborted ?_
    -- the new round takes its share of those that are left
    rw [State.left, State.left, hleft]
    simp only [statusInit, MainPc.left, haborted]
    omega
  | create hmain =>
    simp only [State.left, hmain, MainPc.left, SsPc.left]
    omega
  | mainTest hmain =>
    refine left_main ?_
    rw [hmain]
    split
    · decide
    · exact Nat.le_succ 5
  | mainWake hspurious hmain =>
    -- the test is made once more
    refine left_main ?_
    rw [hmain]
    decide
  | switchUp hmain =>
    refine left_main ?_
    rw [hmain]
    decide
  | switchFail hmain =>
    refine left_main ?_
    rw [hmain]
    decide
  | switchDown hmain => exact Nat.le_of_eq (left_aborted haborted)
  | stop hmain =>
    -- the ss thread may wait for this signal
    refine left_statusChangeFromTo haborted ?_
    simp only [State.left, hmain, MainPc.left]
    omega
  | kill hmain =>
    simp only [State.left, hmain, MainPc.left]
    omega
  | libFail hss =>
    refine left_ss ?_
    rw [hss]
    decide
  | callback hss =>
    -- main may wait for this signal
    refine left_statusChangeTo haborted ?_
    simp only [State.left, hss, SsPc.left]
    omega
  | libReturn hreturn hss =>
    refine left_ss ?_
    rw [hss]
    decide
  | report hss =>
    refine left_statusChangeFromTo haborted ?_
    simp only [State.left, hss, SsPc.left]
    omega
  | ssTest hss =>
    refine left_ss ?_
    rw [hss]
    split
    · decide
    · exact Nat.le_refl 2
  | ssWake hspurious hss =>
    refine left_ss ?_
    rw [hss]
    decide
  | assertUp hss =>
    refine left_check haborted (left_ss ?_)
    rw [hss]
    exact Nat.le_refl 1

theorem sum_back (acts : List Action) :
    (acts.map Action.back).sum = 2 * acts.countP Action.spurious := by
  induction acts with
  | nil => rfl
  | cons a acts ih =>
    rw [List.map_cons, List.sum_cons, List.countP_cons, ih, Action.back]
    split
    · omega
    · omega

/-- A run has at most as many steps as its rounds allow, and two for every wake-up without a
signal. -/
theorem length_le_of_run (h : Run (step env) (init n) acts s) :
    acts.length ≤ 20 * n + 1 + 2 * acts.countP Action.spurious := by
  have hlength : acts.length + s.left ≤ (init n).left + (acts.map Action.back).sum :=
    h.length_add_le fun s a s' (hstep : step env s a = some s') => left_step hstep
  have hinit : (init n).left = 20 * n + 1 := rfl
  rw [sum_back, hinit] at hlength
  omega

/-! ## Where a run ends -/

/-- No step but a wake-up without a signal is enabled. -/
def Ended (env : Env) (s : State) : Prop :=
  ∀ a s', step env s a = some s' → ¬ a.spurious = false

theorem not_ended (hstep : (step env s a).isSome = true) (ha : a.spurious = false) :
    ¬ Ended env s := by
  intro hended
  obtain ⟨s', hs'⟩ := Option.isSome_iff_exists.mp hstep
  exact hended a s' hs' ha

/-- Where the two threads of a round can end: main has been told that the library call failed, or is
behind `stop_ss`. -/
inductive RoundEnd (early : Bool) : Bool → Bool → State → Prop
  | failed : RoundEnd early false true (.at .fail false (.started false) .ended)
  | blocked : RoundEnd early true false (.at .down true .stopped .blocked)
  | ended (h : early = true) : RoundEnd early true false (.at .down true .stopped .ended)

/-- In any other phase a step is enabled. -/
theorem Phase.end_of_ended {cb failed : Bool} (h : Phase env.early cb failed s) (rounds : ℕ)
    (hended : Ended env (s.withRounds rounds)) :
    s = init 1 ∨ RoundEnd env.early cb failed s := by
  -- for each phase the step that is enabled
  cases h with
  | idle => exact .inl rfl
  | create => exact absurd hended (not_ended (a := .create) rfl rfl)
  | starting => exact absurd hended (not_ended (a := .libFail) rfl rfl)
  | failed => exact absurd hended (not_ended (a := .report) rfl rfl)
  | reported hmain =>
    cases hmain with
    | wait => exact absurd hended (not_ended (a := .mainTest) rfl rfl)
    | returned => exact absurd hended (not_ended (a := .switch) rfl rfl)
    | started => exact .inr .failed
  | serving hmain =>
    cases hmain with
    | wait => exact absurd hended (not_ended (a := .mainTest) rfl rfl)
    | returned => exact absurd hended (not_ended (a := .switch) rfl rfl)
    | started => exact absurd hended (not_ended (a := .stop) rfl rfl)
  | stopping hmain hss =>
    cases hmain with
    | kill => exact absurd hended (not_ended (a := .kill) rfl rfl)
    | stopped =>
      cases hss with
      | serving => exact absurd hended (not_ended (a := .libReturn) rfl rfl)
      | wait => exact absurd hended (not_ended (a := .ssTest) rfl rfl)
      | blocked => exact .inr .blocked
      | returned => exact absurd hended (not_ended (a := .assertUp) rfl rfl)
      | ended hearly => exact .inr (.ended hearly)

/-- However the threads take turns, they come to an end unless `pthread_cond_wait` keeps returning
without a signal. There `start_ss` has returned, false just if the library call failed, and the ss
thread has ended or waits behind `stop_ss`, or `start_ss` has been called again. -/
theorem rounds_end (h : Run (step env) (init n) acts s) :
    acts.length ≤ 20 * n + 1 + 2 * acts.countP Action.spurious ∧
      (∃ acts' s', Run (step env) s acts' s' ∧ (∀ a ∈ acts', a.spurious = false) ∧ Ended env s') ∧
      (Ended env s → n = 0 ∧ s = init 0 ∨ 2 ≤ n ∧ s.aborted = true ∨
        .libFail ∈ acts ∧ s.main = .started false ∧ s.ss = .ended ∨
        .callback ∈ acts ∧ n = 1 ∧ s.main = .stopped ∧
          (s.ss = .blocked ∨ env.early = true ∧ s.ss = .ended)) := by
  have hless : ∀ s a s', step env s a = some s' → a.spurious = false → s'.left < s.left := by
    intro s a s' hstep ha
    have hleft := left_step hstep
    rw [Action.back, ha, if_neg Bool.false_ne_true] at hleft
    exact hleft
  refine ⟨length_le_of_run h, exists_run_to_end hless s, fun hended => ?_⟩
  rcases rounds_of_run h with ⟨hcount, hrounds, hround⟩ | ⟨-, htwo, haborted⟩
  · obtain ⟨cb, failed, hphase, hcb, hfailed⟩ := phase_of_run hround
    rcases hphase.end_of_ended s.rounds hended with hinit | hend
    · -- no round has begun
      left
      have hone : 1 - acts.count .start = 1 := congrArg State.rounds hinit
      obtain ⟨m, rfl⟩ : ∃ m, s = init m := ⟨s.rounds, congrArg (·.withRounds s.rounds) hinit⟩
      have hm : m + acts.count .start = n := hrounds
      rcases m with _ | m
      · exact ⟨by omega, rfl⟩
      · exact absurd hended (not_ended (a := .start) rfl rfl)
    · have haborted : s.aborted = false := hphase.aborted
      -- behind `stop_ss` another round can begin
      have hlast (hmain : s.main = .stopped) (hzero : 1 - acts.count .start = 0) : n = 1 := by
        by_contra hne
        have hpos : 0 < s.rounds := by omega
        refine absurd hended (not_ended (a := .start) ?_ rfl)
        rw [step, if_neg (by rw [haborted]; decide), if_pos ⟨.inr hmain, hpos⟩]
        rfl
      generalize ht : s.withRounds (1 - acts.count .start) = t at hend
      have hmain : s.main = t.main := by
        rw [← ht]
        rfl
      have hss : s.ss = t.ss := by
        rw [← ht]
        rfl
      have hzero : 1 - acts.count .start = t.rounds := by
        rw [← ht]
        rfl
      right
      right
      cases hend with
      | failed => exact .inl ⟨hfailed.mp rfl, hmain, hss⟩
      | blocked => exact .inr ⟨hcb.mp rfl, hlast hmain hzero, hmain, .inl hss⟩
      | ended hearly => exact .inr ⟨hcb.mp rfl, hlast hmain hzero, hmain, .inr ⟨hearly, hss⟩⟩
  · exact .inr (.inl ⟨htwo, haborted⟩)

/-- `rounds_end` for a round in which the library call fails. -/
theorem rounds_end_failed :
    ∃ s, Run (step ⟨false, true⟩) (init 1)
      [.start, .create, .mainTest, .mainWake, .libFail, .mainTest, .report, .mainTest, .switch] s ∧
      s.main = .started false ∧ s.ss = .ended := by
  have hrun : Run (step ⟨false, true⟩) (init 1)
      [.start, .create, .mainTest, .mainWake, .libFail, .mainTest, .report, .mainTest, .switch]
      (.at .fail false (.started false) .ended) := run_iff_foldlM.mpr (by decide)
  have hended : Ended ⟨false, true⟩ (.at .fail false (.started false) .ended) := by
    intro a s' hstep
    cases a <;> simp [step, State.at] at hstep
  rcases (rounds_end hrun).2.2 hended with ⟨hzero, -⟩ | ⟨htwo, -⟩ | ⟨-, hmain, hss⟩ | ⟨hcb, -⟩
  · cases hzero
  · exact absurd htwo (by decide)
  · exact ⟨_, hrun, hmain, hss⟩
  · exact absurd hcb (by decide)

end Threads
