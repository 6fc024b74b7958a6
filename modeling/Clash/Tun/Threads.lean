import Clash.Lib.Runs

/-!
# status.c and shadowsocks2.c

The main thread starts the ss thread and waits until it is up, and later stops it. The two threads
tell each other about their progress through a status word.

A section of `status.c` under its mutex is one step. `pthread_cond_wait` blocks until a signal, or
with `spurious` also without one. The library call of the ss thread either returns -1 at once, or
calls its callback, serves, and returns when it is interrupted, or with `early` also before.

## Main definitions

* `State`, `Action`, `step`: the two threads, taking turns in any order.
* `Steps`: the steps as a relation, one rule for each way that an action can go.

## Main results

* `steps_of_step`, `step_of_steps`: `step` makes just these steps.
-/

namespace Threads

/-- `Status`. -/
inductive Status where
  | down
  | fail
  | up
  deriving DecidableEq, Repr

/-- Where the main thread is. -/
inductive MainPc where
  /-- In front of `start_ss`. -/
  | idle
  /-- In `start_ss`, behind `status_init`. -/
  | create
  /-- In `status_wait_change_from(DOWN)`, in front of the test of its loop. -/
  | wait
  /-- In `pthread_cond_wait`. -/
  | blocked
  /-- In `start_ss`, in front of its `switch`. -/
  | returned (ret : Status)
  /-- Behind `start_ss`, which returned. -/
  | started (ret : Bool)
  /-- In `stop_ss`, in front of `pthread_kill`. -/
  | kill
  /-- Behind `stop_ss`. -/
  | stopped
  deriving DecidableEq, Repr

/-- Where the ss thread is. -/
inductive SsPc where
  | absent
  /-- In the library call, before it returned -1 or called `callback`. -/
  | starting
  /-- Behind the library call, which returned -1. -/
  | failed
  /-- In the library call, behind `callback`. -/
  | serving
  /-- In `status_wait_change_from(DOWN)`, in front of the test of its loop. -/
  | wait
  /-- In `pthread_cond_wait`. -/
  | blocked
  /-- In front of the assertion on what `status_wait_change_from` returned. -/
  | returned (ret : Status)
  | ended
  deriving DecidableEq, Repr

/-- What the environment may do. -/
structure Env where
  /-- The library call may return before it is interrupted. -/
  early : Bool
  /-- `pthread_cond_wait` may return without a signal. -/
  spurious : Bool
  deriving DecidableEq, Repr

structure State where
  status : Status
  /-- The global `thread` is not 0. -/
  thread : Bool
  /-- The ss thread has been sent SIGINT. -/
  sigint : Bool
  main : MainPc
  ss : SsPc
  /-- How often main still calls `start_ss`. -/
  rounds : ℕ
  /-- An assertion failed. -/
  aborted : Bool
  deriving DecidableEq, Repr

/-- The start of a program that starts and stops ss `rounds` times. -/
def init (rounds : ℕ) : State where
  status := .down
  thread := false
  sigint := false
  main := .idle
  ss := .absent
  rounds := rounds
  aborted := false

/-- `pthread_cond_signal`: a thread that waits goes on. There is at most one. -/
def signal (s : State) : State :=
  if s.main = .blocked then { s with main := .wait }
  else if s.ss = .blocked then { s with ss := .wait }
  else s

/-- `assert(p)`, with the state behind it. -/
def check (p : Prop) [Decidable p] (s : State) (next : State) : State :=
  if p then next else { s with aborted := true }

/-- `status_init`. -/
def statusInit (s : State) : State := { s with status := .down }

/-- `status_change_to(s1)`. -/
def statusChangeTo (s1 : Status) (s : State) : State :=
  check (s.status ≠ s1) s (signal { s with status := s1 })

/-- `status_change_from_to(s0,s1)`. -/
def statusChangeFromTo (s0 s1 : Status) (s : State) : State :=
  check (s.status = s0 ∧ s0 ≠ s1) s (signal { s with status := s1 })

/-- The steps of the threads. -/
inductive Action where
  /-- main enters `start_ss`. -/
  | start
  | create
  /-- main tests the status in `status_wait_change_from(DOWN)`. -/
  | mainTest
  | mainWake
  /-- The `switch` of `start_ss`. -/
  | switch
  /-- main enters `stop_ss`. -/
  | stop
  | kill
  /-- The library call returns -1. -/
  | libFail
  /-- The library calls `callback`. -/
  | callback
  /-- The library call returns another value. -/
  | libReturn
  /-- The ss thread reports that the library call failed. -/
  | report
  /-- The ss thread tests the status in `status_wait_change_from(DOWN)`. -/
  | ssTest
  | ssWake
  /-- The assertion at the end of `start_routine`. -/
  | assertUp
  deriving DecidableEq, Repr

/-- The state behind a step, if it is enabled. -/
def step (env : Env) (s : State) (a : Action) : Option State :=
  if s.aborted then none
  else
    match a with
    | .start =>
      if (s.main = .idle ∨ s.main = .stopped) ∧ 0 < s.rounds then
        some (check (s.thread = false) s
          (statusInit { s with main := .create, rounds := s.rounds - 1 }))
      else none
    | .create =>
      if s.main = .create then some { s with main := .wait, thread := true, ss := .starting }
      else none
    -- behind the loop the status is not `DOWN`, as `status_wait_change_from` asserts
    | .mainTest =>
      if s.main = .wait then
        some { s with main := if s.status = .down then .blocked else .returned s.status }
      else none
    | .mainWake =>
      if env.spurious ∧ s.main = .blocked then some { s with main := .wait } else none
    | .switch =>
      match s.main with
      | .returned .up => some { s with main := .started true }
      | .returned .fail => some { s with main := .started false }
      | .returned .down => some { s with aborted := true }
      | _ => none
    -- main asserts that `start_ss` returned true
    | .stop =>
      if s.main = .started true then
        some (statusChangeFromTo .up .down { s with main := .kill })
      else none
    | .kill => if s.main = .kill then some { s with main := .stopped, sigint := true } else none
    | .libFail => if s.ss = .starting then some { s with ss := .failed } else none
    | .callback =>
      if s.ss = .starting then some (statusChangeTo .up { s with ss := .serving }) else none
    | .libReturn =>
      if s.ss = .serving ∧ (s.sigint ∨ env.early) then some { s with ss := .wait } else none
    | .report =>
      if s.ss = .failed then some (statusChangeFromTo .down .fail { s with ss := .ended })
      else none
    | .ssTest =>
      if s.ss = .wait then
        some { s with ss := if s.status = .down then .blocked else .returned s.status }
      else none
    | .ssWake =>
      if env.spurious ∧ s.ss = .blocked then some { s with ss := .wait } else none
    | .assertUp =>
      match s.ss with
      | .returned ret => some (check (ret = .up) s { s with ss := .ended })
      | _ => none

/-- When a step is enabled, and what is behind it. -/
inductive Steps (env : Env) (s : State) : Action → State → Prop
  | start (hmain : s.main = .idle ∨ s.main = .stopped) (hrounds : 0 < s.rounds) :
      Steps env s .start (check (s.thread = false) s
        (statusInit { s with main := .create, rounds := s.rounds - 1 }))
  | create (hmain : s.main = .create) :
      Steps env s .create { s with main := .wait, thread := true, ss := .starting }
  | mainTest (hmain : s.main = .wait) : Steps env s .mainTest
      { s with main := if s.status = .down then .blocked else .returned s.status }
  | mainWake (hspurious : env.spurious = true) (hmain : s.main = .blocked) :
      Steps env s .mainWake { s with main := .wait }
  | switchUp (hmain : s.main = .returned .up) : Steps env s .switch { s with main := .started true }
  | switchFail (hmain : s.main = .returned .fail) :
      Steps env s .switch { s with main := .started false }
  | switchDown (hmain : s.main = .returned .down) : Steps env s .switch { s with aborted := true }
  | stop (hmain : s.main = .started true) :
      Steps env s .stop (statusChangeFromTo .up .down { s with main := .kill })
  | kill (hmain : s.main = .kill) : Steps env s .kill { s with main := .stopped, sigint := true }
  | libFail (hss : s.ss = .starting) : Steps env s .libFail { s with ss := .failed }
  | callback (hss : s.ss = .starting) :
      Steps env s .callback (statusChangeTo .up { s with ss := .serving })
  | libReturn (hreturn : s.sigint = true ∨ env.early = true) (hss : s.ss = .serving) :
      Steps env s .libReturn { s with ss := .wait }
  | report (hss : s.ss = .failed) :
      Steps env s .report (statusChangeFromTo .down .fail { s with ss := .ended })
  | ssTest (hss : s.ss = .wait) : Steps env s .ssTest
      { s with ss := if s.status = .down then .blocked else .returned s.status }
  | ssWake (hspurious : env.spurious = true) (hss : s.ss = .blocked) :
      Steps env s .ssWake { s with ss := .wait }
  | assertUp {ret : Status} (hss : s.ss = .returned ret) :
      Steps env s .assertUp (check (ret = .up) s { s with ss := .ended })

theorem of_ite_eq_some {p : Prop} [Decidable p] {s s' : State}
    (h : (if p then some s else none) = some s') : p ∧ s = s' := by
  rwa [Option.ite_none_right_eq_some, Option.some.injEq] at h

/-- `step` makes no other steps, and none behind a failed assertion. -/
theorem steps_of_step {env : Env} {s s' : State} {a : Action} (h : step env s a = some s') :
    s.aborted = false ∧ Steps env s a s' := by
  unfold step at h
  by_cases haborted : s.aborted = true
  · rw [if_pos haborted] at h
    cases h
  rw [if_neg haborted] at h
  refine ⟨Bool.eq_false_iff.mpr haborted, ?_⟩
  -- one branch for each action, whose guard is what the constructor asks for
  cases a with
  | start =>
    obtain ⟨⟨hmain, hrounds⟩, rfl⟩ := of_ite_eq_some h
    exact .start hmain hrounds
  | create =>
    obtain ⟨hmain, rfl⟩ := of_ite_eq_some h
    exact .create hmain
  | mainTest =>
    obtain ⟨hmain, rfl⟩ := of_ite_eq_some h
    exact .mainTest hmain
  | mainWake =>
    obtain ⟨⟨hspurious, hmain⟩, rfl⟩ := of_ite_eq_some h
    exact .mainWake hspurious hmain
  | switch =>
    -- the status that `start_ss` has found behind its wait
    dsimp only at h
    split at h
    next hmain =>
      cases h
      exact .switchUp hmain
    next hmain =>
      cases h
      exact .switchFail hmain
    next hmain =>
      cases h
      exact .switchDown hmain
    next => cases h
  | stop =>
    obtain ⟨hmain, rfl⟩ := of_ite_eq_some h
    exact .stop hmain
  | kill =>
    obtain ⟨hmain, rfl⟩ := of_ite_eq_some h
    exact .kill hmain
  | libFail =>
    obtain ⟨hss, rfl⟩ := of_ite_eq_some h
    exact .libFail hss
  | callback =>
    obtain ⟨hss, rfl⟩ := of_ite_eq_some h
    exact .callback hss
  | libReturn =>
    obtain ⟨⟨hss, hreturn⟩, rfl⟩ := of_ite_eq_some h
    exact .libReturn hreturn hss
  | report =>
    obtain ⟨hss, rfl⟩ := of_ite_eq_some h
    exact .report hss
  | ssTest =>
    obtain ⟨hss, rfl⟩ := of_ite_eq_some h
    exact .ssTest hss
  | ssWake =>
    obtain ⟨⟨hspurious, hss⟩, rfl⟩ := of_ite_eq_some h
    exact .ssWake hspurious hss
  | assertUp =>
    dsimp only at h
    split at h
    next ret hss =>
      cases h
      exact .assertUp hss
    next => cases h

/-- `step` makes all of these steps. -/
theorem step_of_steps {env : Env} {s s' : State} {a : Action} (haborted : s.aborted = false)
    (h : Steps env s a s') : step env s a = some s' := by
  unfold step
  rw [if_neg (Bool.eq_false_iff.mp haborted)]
  cases h with
  | start hmain hrounds => exact if_pos ⟨hmain, hrounds⟩
  | mainWake hspurious hmain => exact if_pos ⟨hspurious, hmain⟩
  | libReturn hreturn hss => exact if_pos ⟨hss, hreturn⟩
  | ssWake hspurious hss => exact if_pos ⟨hspurious, hss⟩
  | switchUp hmain => simp only [hmain]
  | switchFail hmain => simp only [hmain]
  | switchDown hmain => simp only [hmain]
  | assertUp hss => simp only [hss]
  | _ =>
    rename_i hat
    exact if_pos hat

end Threads
