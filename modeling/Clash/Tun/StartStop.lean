import Clash.Tun.Threads

/-!
# Starting and stopping ss

One round of `start_ss` and `stop_ss`, in every interleaving with the ss thread.

## Main definitions

* `Phase`: the states of a round, by what the library call has done and how far main is.
* `Stuck`, `CanGetStuck`: main and the library call are done with each other, and the ss thread
  waits for ever.

## Main results

* `phase_of_run`: every run is in a phase that fits its actions.
* `start_stop_safe`: no assertion on the status fails, no wake-up is lost, and `start_ss` reports
  what the library call did.
* `stuck_reachable_iff`: once the library call does not fail, the ss thread gets stuck behind
  `stop_ss`.
-/

open Runs

namespace Threads

/-- A state of a round in which no assertion has failed. -/
def State.at (status : Status) (sigint : Bool) (main : MainPc) (ss : SsPc) : State where
  status := status
  thread := true
  sigint := sigint
  main := main
  ss := ss
  rounds := 0
  aborted := false

/-- Where main can be once the status is no longer `DOWN`: it is not blocked. -/
inductive Told (ret : Status) (ok : Bool) : MainPc → Prop
  | wait : Told ret ok .wait
  | returned : Told ret ok (.returned ret)
  | started : Told ret ok (.started ok)

/-- Where the ss thread can be behind `callback` and in front of `stop_ss`. -/
inductive Serving (early : Bool) : SsPc → Prop
  | serving : Serving early .serving
  | wait (h : early = true) : Serving early .wait
  | returned (h : early = true) : Serving early (.returned .up)
  | ended (h : early = true) : Serving early .ended

/-- Where main can be once the status is `DOWN` again, and whether it has sent the signal. -/
inductive Stopped : Bool → MainPc → Prop
  | kill : Stopped false .kill
  | stopped : Stopped true .stopped

/-- Where the ss thread can be once the status is `DOWN` again. -/
inductive Stopping (early sigint : Bool) : SsPc → Prop
  | serving : Stopping early sigint .serving
  | wait (h : sigint = true ∨ early = true) : Stopping early sigint .wait
  | blocked (h : sigint = true ∨ early = true) : Stopping early sigint .blocked
  | returned (h : early = true) : Stopping early sigint (.returned .up)
  | ended (h : early = true) : Stopping early sigint .ended

theorem Serving.stopping {early : Bool} {ss : SsPc} (h : Serving early ss) :
    Stopping early false ss := by
  cases h with
  | serving => exact .serving
  | wait h => exact .wait (.inr h)
  | returned h => exact .returned h
  | ended h => exact .ended h

theorem Stopping.signalled {early : Bool} {ss : SsPc} (h : Stopping early false ss) :
    Stopping early true ss := by
  cases h with
  | serving => exact .serving
  | wait => exact .wait (.inl rfl)
  | blocked => exact .blocked (.inl rfl)
  | returned h => exact .returned h
  | ended h => exact .ended h

/-- The phases of a round: whether `callback` was called, whether the library call failed, and the
state. -/
inductive Phase (early : Bool) : Bool → Bool → State → Prop
  | idle : Phase early false false (init 1)
  | create : Phase early false false { init 1 with main := .create, rounds := 0 }
  | starting {main : MainPc} (hmain : main = .wait ∨ main = .blocked) :
      Phase early false false (.at .down false main .starting)
  | failed {main : MainPc} (hmain : main = .wait ∨ main = .blocked) :
      Phase early false true (.at .down false main .failed)
  | reported {main : MainPc} (hmain : Told .fail false main) :
      Phase early false true (.at .fail false main .ended)
  | serving {main : MainPc} {ss : SsPc} (hmain : Told .up true main) (hss : Serving early ss) :
      Phase early true false (.at .up false main ss)
  | stopping {sigint : Bool} {main : MainPc} {ss : SsPc} (hmain : Stopped sigint main)
      (hss : Stopping early sigint ss) : Phase early true false (.at .down sigint main ss)

section Steps

variable {env : Env} {s' : State} {a : Action} {main : MainPc}

/-- While the library call has neither failed nor called `callback`, main waits. -/
theorem phase_of_starting (hmain : main = .wait ∨ main = .blocked)
    (h : Steps env (.at .down false main .starting) a s') :
    Phase env.early (a = .callback) (a = .libFail) s' := by
  cases h with
  | mainTest => exact .starting (.inr rfl)
  | mainWake => exact .starting (.inl rfl)
  | libFail => exact .failed hmain
  | callback =>
    -- the signal wakes main up
    have hwait : statusChangeTo .up (.at .down false main .serving) =
        .at .up false .wait .serving := by
      obtain rfl | rfl := hmain <;> rfl
    exact hwait ▸ .serving .wait .serving
  | _ =>
    rename_i hat
    obtain rfl | rfl := hmain <;> cases hat

/-- Main waits until the ss thread reports that the library call has failed. -/
theorem phase_of_failed (hmain : main = .wait ∨ main = .blocked)
    (h : Steps env (.at .down false main .failed) a s') :
    Phase env.early (a = .callback) true s' := by
  cases h with
  | mainTest => exact .failed (.inr rfl)
  | mainWake => exact .failed (.inl rfl)
  | report =>
    have hwait : statusChangeFromTo .down .fail (.at .down false main .ended) =
        .at .fail false .wait .ended := by
      obtain rfl | rfl := hmain <;> rfl
    exact hwait ▸ .reported .wait
  | _ =>
    rename_i hat
    obtain rfl | rfl := hmain <;> cases hat

/-- The ss thread has ended, and `start_ss` goes on to return false. -/
theorem phase_of_reported (hmain : Told .fail false main)
    (h : Steps env (.at .fail false main .ended) a s') :
    Phase env.early (a = .callback) true s' := by
  cases h with
  | mainTest => exact .reported .returned
  | switchFail => exact .reported .started
  | _ =>
    rename_i hat
    cases hmain <;> cases hat

/-- Behind `callback` main goes on to return true and enters `stop_ss`; the library call may return
early. -/
theorem phase_of_serving {ss : SsPc} (hmain : Told .up true main) (hss : Serving env.early ss)
    (h : Steps env (.at .up false main ss) a s') :
    Phase env.early true (a = .libFail) s' := by
  cases h with
  | mainTest => exact .serving .returned hss
  | switchUp => exact .serving .started hss
  | stop =>
    -- the status was `UP`, and nobody waits for the change
    have hkill : statusChangeFromTo .up .down (.at .up false .kill ss) =
        .at .down false .kill ss := by
      cases hss <;> rfl
    exact hkill ▸ .stopping .kill hss.stopping
  | libReturn hreturn => exact .serving hmain (.wait (hreturn.resolve_left Bool.false_ne_true))
  | ssTest hat =>
    cases hss with
    | wait hearly => exact .serving hmain (.returned hearly)
    | _ => cases hat
  | assertUp hat =>
    cases hss with
    | returned hearly =>
      cases hat
      exact .serving hmain (.ended hearly)
    | _ => cases hat
  | _ =>
    -- neither thread is where this step begins
    rename_i hat
    cases hmain <;> cases hss <;> cases hat

/-- Behind the change to `DOWN` in `stop_ss` the ss thread finds the status `DOWN`, and waits. -/
theorem phase_of_stopping {sigint : Bool} {ss : SsPc} (hmain : Stopped sigint main)
    (hss : Stopping env.early sigint ss) (h : Steps env (.at .down sigint main ss) a s') :
    Phase env.early true (a = .libFail) s' := by
  cases h with
  | kill hat =>
    cases hmain with
    | kill => exact .stopping .stopped hss.signalled
    | stopped => cases hat
  | libReturn hreturn => exact .stopping hmain (.wait hreturn)
  | ssTest hat =>
    cases hss with
    -- the status is `DOWN` again, so the wait goes on
    | wait h => exact .stopping hmain (.blocked h)
    | _ => cases hat
  | ssWake _ hat =>
    cases hss with
    | blocked h => exact .stopping hmain (.wait h)
    | _ => cases hat
  | assertUp hat =>
    cases hss with
    | returned hearly =>
      cases hat
      exact .stopping hmain (.ended hearly)
    | _ => cases hat
  | _ =>
    -- neither thread is where this step begins
    rename_i hat
    cases hmain <;> cases hss <;> cases hat

end Steps

/-- A step leads from a phase to the one that its action asks for. -/
theorem Phase.step {env : Env} {cb failed : Bool} {s s' : State} {a : Action}
    (h : Phase env.early cb failed s) (hstep : step env s a = some s') :
    Phase env.early (cb || a = .callback) (failed || a = .libFail) s' := by
  obtain ⟨-, hsteps⟩ := steps_of_step hstep
  cases h with
  | idle =>
    cases hsteps with
    | start => exact .create
    | _ =>
      rename_i hat
      cases hat
  | create =>
    cases hsteps with
    | create => exact .starting (.inl rfl)
    | _ =>
      rename_i hat
      cases hat
  | starting hmain => exact phase_of_starting hmain hsteps
  | failed hmain => exact phase_of_failed hmain hsteps
  | reported hmain => exact phase_of_reported hmain hsteps
  | serving hmain hss => exact phase_of_serving hmain hss hsteps
  | stopping hmain hss => exact phase_of_stopping hmain hss hsteps

/-- Every run of a round is in a phase that fits its actions. -/
theorem phase_of_run {env : Env} {acts : List Action} {s : State}
    (h : Run (step env) (init 1) acts s) :
    ∃ cb failed, Phase env.early cb failed s ∧ (cb = true ↔ .callback ∈ acts) ∧
      (failed = true ↔ .libFail ∈ acts) := by
  induction h with
  | nil => exact ⟨false, false, .idle, by simp, by simp⟩
  | @snoc _ _ a _ _ hstep ih =>
    obtain ⟨cb, failed, hphase, hcb, hfailed⟩ := ih
    exact ⟨_, _, hphase.step hstep, by simp [hcb, @eq_comm _ .callback a],
      by simp [hfailed, @eq_comm _ .libFail a]⟩

/-- `start_ss` can return once the status is not `DOWN`. -/
theorem Told.run {env : Env} {ret : Status} {ok : Bool} {main : MainPc} {ss : SsPc}
    (h : Told ret ok main) (hret : ret = .up ∧ ok = true ∨ ret = .fail ∧ ok = false) :
    ∃ acts, Run (step env) (.at ret false main ss) acts (.at ret false (.started ok) ss) := by
  have hswitch : Run (step env) (.at ret false (.returned ret) ss) [.switch]
      (.at ret false (.started ok) ss) := by
    obtain ⟨rfl, rfl⟩ | ⟨rfl, rfl⟩ := hret <;> exact .single rfl
  cases h with
  | wait =>
    refine ⟨[.mainTest, .switch], .cons ?_ hswitch⟩
    obtain ⟨rfl, rfl⟩ | ⟨rfl, rfl⟩ := hret <;> rfl
  | returned => exact ⟨_, hswitch⟩
  | started => exact ⟨[], .nil⟩

/-- The status stays `FAIL`. -/
theorem Phase.status_fail {env : Env} {cb failed : Bool} {s s' : State} {a : Action}
    (h : Phase env.early cb failed s) (hfail : s.status = .fail)
    (hstep : Threads.step env s a = some s') : s'.status = .fail := by
  obtain ⟨-, hsteps⟩ := steps_of_step hstep
  cases h with
  | reported hmain =>
    cases hsteps with
    | mainTest => rfl
    | switchFail => rfl
    | _ =>
      rename_i hat
      cases hmain <;> cases hat
  | _ => cases hfail

theorem status_fail_of_run {env : Env} {acts acts' : List Action} {s s' : State}
    (h : Run (step env) (init 1) acts s) (hfail : s.status = .fail)
    (h' : Run (step env) s acts' s') : s'.status = .fail := by
  induction h' with
  | nil => exact hfail
  | snoc hrun hstep ih =>
    obtain ⟨_, _, hphase, -⟩ := phase_of_run (h.trans hrun)
    exact hphase.status_fail ih hstep

/-- Main is not blocked in a phase with `callback` called or the status `FAIL`. -/
theorem Phase.main_ne_blocked {early cb failed : Bool} {s : State} (h : Phase early cb failed s)
    (hleft : cb = true ∨ s.status = .fail) : s.main ≠ .blocked := by
  cases h with
  | idle => simp [init]
  | create => simp
  | starting => simp [State.at] at hleft
  | failed => simp [State.at] at hleft
  | reported hmain => cases hmain <;> simp [State.at]
  | serving hmain => cases hmain <;> simp [State.at]
  | stopping hmain => cases hmain <;> simp [State.at]

/-- Once the status has left `DOWN`, main is never blocked again. -/
theorem main_ne_blocked_of_run {env : Env} {acts acts' : List Action} {s s' : State}
    (h : Run (step env) (init 1) acts s) (hleft : s.status ≠ .down)
    (h' : Run (step env) s acts' s') : s'.main ≠ .blocked := by
  obtain ⟨_, _, hphase', hcb', -⟩ := phase_of_run (h.trans h')
  refine hphase'.main_ne_blocked ?_
  obtain ⟨_, _, hphase, hcb, -⟩ := phase_of_run h
  cases hphase with
  | serving => exact .inl (hcb'.mpr (List.mem_append_left _ (hcb.mp rfl)))
  | reported =>
    exact .inr (status_fail_of_run h rfl h')
  | _ => exact absurd rfl hleft

/-- `start_ss` can return once the status has left `DOWN` and `stop_ss` is not entered. -/
theorem returns_of_run {env : Env} {acts : List Action} {s : State}
    (h : Run (step env) (init 1) acts s) (hleft : s.status ≠ .down) :
    ∃ acts' ok s', Run (step env) s acts' s' ∧ s'.main = .started ok := by
  obtain ⟨_, _, hphase, -⟩ := phase_of_run h
  cases hphase with
  | reported hmain =>
    obtain ⟨acts', hrun⟩ := hmain.run (.inr ⟨rfl, rfl⟩)
    exact ⟨acts', false, _, hrun, rfl⟩
  | serving hmain =>
    obtain ⟨acts', hrun⟩ := hmain.run (.inl ⟨rfl, rfl⟩)
    exact ⟨acts', true, _, hrun, rfl⟩
  | _ => exact absurd rfl hleft

/-- In a round no assertion on the status fails; once the status has left `DOWN` main is not blocked
and `start_ss` can return; it returns true just if `callback` was called and false just if the
library call failed, and `stop_ss` is entered with the status `UP`. -/
theorem start_stop_safe {env : Env} {acts : List Action} {s : State}
    (h : Run (step env) (init 1) acts s) :
    s.aborted = false ∧
      (s.status ≠ .down →
        (∀ acts' s', Run (step env) s acts' s' → s'.main ≠ .blocked) ∧
          ∃ acts' ok s', Run (step env) s acts' s' ∧ s'.main = .started ok) ∧
      (∀ ok, s.main = .started ok →
        (ok = true ↔ .callback ∈ acts) ∧ (ok = false ↔ .libFail ∈ acts)) ∧
      (s.main = .started true → s.status = .up) := by
  refine and_left_comm.mp
    ⟨fun hleft => ⟨fun _ _ => main_ne_blocked_of_run h hleft, returns_of_run h hleft⟩, ?_⟩
  obtain ⟨cb, failed, hphase, hcb, hfailed⟩ := phase_of_run h
  rw [← hcb, ← hfailed]
  -- what has been called, and what has become of it, by phases
  cases hphase with
  | idle => simp [init]
  | create => simp [init]
  | starting hmain => obtain rfl | rfl := hmain <;> simp [State.at]
  | failed hmain => obtain rfl | rfl := hmain <;> simp [State.at]
  | reported hmain => cases hmain <;> simp [State.at]
  | serving hmain hss => cases hmain <;> simp [State.at]
  | stopping hmain hss => cases hmain <;> simp [State.at]

/-- `start_stop_safe` behind a `start_ss` whose library call called `callback`. -/
theorem start_stop_safe_callback :
    ∃ acts s, Run (step ⟨false, false⟩) (init 1) acts s ∧ s.main = .started true ∧
      s.aborted = false ∧ s.status = .up ∧ .callback ∈ acts := by
  have hrun : Run (step ⟨false, false⟩) (init 1)
      [.start, .create, .mainTest, .callback, .mainTest, .switch]
      (.at .up false (.started true) .serving) :=
    run_iff_foldlM.mpr (by decide)
  obtain ⟨haborted, -, hstarted, hup⟩ := start_stop_safe hrun
  exact ⟨_, _, hrun, rfl, haborted, hup rfl, (hstarted true rfl).1.mp rfl⟩

/-- A state in which `stop_ss` and the library call have returned, the ss thread is blocked, and no
step changes the status any more. -/
def Stuck (env : Env) (s : State) : Prop :=
  s.main = .stopped ∧ s.ss = .blocked ∧
    ∀ acts s', Run (step env) s acts s' → s'.status = s.status

/-- Behind `stop_ss` the status stays `DOWN`. -/
theorem status_of_run_stopped {env : Env} {acts : List Action} {s : State} {ss : SsPc}
    (hss : ss = .wait ∨ ss = .blocked) (h : Run (step env) (.at .down true .stopped ss) acts s) :
    s.status = .down := by
  suffices hs : s = .at .down true .stopped .wait ∨ s = .at .down true .stopped .blocked by
    obtain rfl | rfl := hs <;> rfl
  -- the ss thread goes round between its test and its wait
  induction h with
  | nil => obtain rfl | rfl := hss <;> simp
  | snoc _ hstep ih =>
    obtain ⟨-, hsteps⟩ := steps_of_step hstep
    obtain rfl | rfl := ih
    · cases hsteps with
      | ssTest => exact .inr rfl
      | _ =>
        rename_i hat
        cases hat
    · cases hsteps with
      | ssWake => exact .inl rfl
      | _ =>
        rename_i hat
        cases hat

theorem stuck_blocked (env : Env) : Stuck env (.at .down true .stopped .blocked) :=
  ⟨rfl, rfl, fun _ _ => status_of_run_stopped (.inr rfl)⟩

/-- Some run leads to a stuck state. -/
def CanGetStuck (env : Env) (s : State) : Prop :=
  ∃ acts s', Run (step env) s acts s' ∧ Stuck env s'

theorem CanGetStuck.of_step {env : Env} {s s' : State} (a : Action) (hstep : step env s a = some s')
    (h : CanGetStuck env s') : CanGetStuck env s := by
  obtain ⟨acts, s'', hrun, hstuck⟩ := h
  exact ⟨a :: acts, s'', .cons hstep hrun, hstuck⟩

theorem canGetStuck_stopped {env : Env} (ss : SsPc)
    (hss : ss = .serving ∨ ss = .wait ∨ ss = .blocked) :
    CanGetStuck env (.at .down true .stopped ss) := by
  have hblocked : CanGetStuck env (.at .down true .stopped .blocked) :=
    ⟨[], _, .nil, stuck_blocked env⟩
  have hwait : CanGetStuck env (.at .down true .stopped .wait) := hblocked.of_step .ssTest rfl
  obtain rfl | rfl | rfl := hss
  · exact hwait.of_step .libReturn rfl
  · exact hwait
  · exact hblocked

theorem canGetStuck_stopping {env : Env} {sigint : Bool} {main : MainPc} {ss : SsPc}
    (hearly : env.early = false) (hmain : Stopped sigint main)
    (hss : Stopping env.early sigint ss) : CanGetStuck env (.at .down sigint main ss) := by
  have hstopped : CanGetStuck env (.at .down true .stopped ss) := by
    refine canGetStuck_stopped ss ?_
    cases hss with
    | serving => exact .inl rfl
    | wait => exact .inr (.inl rfl)
    | blocked => exact .inr (.inr rfl)
    | returned h => rw [hearly] at h; cases h
    | ended h => rw [hearly] at h; cases h
  cases hmain with
  | kill => exact hstopped.of_step .kill rfl
  | stopped => exact hstopped

theorem canGetStuck_serving {env : Env} {main : MainPc} {ss : SsPc} (hearly : env.early = false)
    (hmain : Told .up true main) (hss : Serving env.early ss) :
    CanGetStuck env (.at .up false main ss) := by
  have hstarted : CanGetStuck env (.at .up false (.started true) ss) := by
    refine (canGetStuck_stopping hearly .kill hss.stopping).of_step .stop ?_
    cases hss <;> rfl
  have hreturned : CanGetStuck env (.at .up false (.returned .up) ss) :=
    hstarted.of_step .switch rfl
  cases hmain with
  | wait => exact hreturned.of_step .mainTest rfl
  | returned => exact hreturned
  | started => exact hstarted

/-- As long as the library call has not failed, the ss thread can get stuck. -/
theorem Phase.canGetStuck {env : Env} {cb : Bool} {s : State} (hearly : env.early = false)
    (h : Phase env.early cb false s) : CanGetStuck env s := by
  have hstarting (main : MainPc) (hmain : main = .wait ∨ main = .blocked) :
      CanGetStuck env (.at .down false main .starting) := by
    refine (canGetStuck_serving hearly .wait .serving).of_step .callback ?_
    obtain rfl | rfl := hmain <;> rfl
  have hcreate := (hstarting .wait (.inl rfl)).of_step
    (s := { init 1 with main := .create, rounds := 0 }) .create rfl
  cases h with
  | idle => exact hcreate.of_step .start rfl
  | create => exact hcreate
  | starting hmain => exact hstarting _ hmain
  | serving hmain hss => exact canGetStuck_serving hearly hmain hss
  | stopping hmain hss => exact canGetStuck_stopping hearly hmain hss

/-- A stuck thread was not told that the library call failed, but that it was up. -/
theorem Phase.of_stuck {env : Env} {cb failed : Bool} {s : State}
    (h : Phase env.early cb failed s) (hstuck : Stuck env s) : cb = true ∧ failed = false := by
  obtain ⟨hmain, hss, -⟩ := hstuck
  cases h with
  | idle => cases hmain
  | create => cases hmain
  | starting => cases hss
  | failed => cases hss
  | reported => cases hss
  | serving => exact ⟨rfl, rfl⟩
  | stopping => exact ⟨rfl, rfl⟩

/-- Where the library call returns only when it is interrupted, the ss thread does not get stuck
without `callback`, and it can get stuck just as long as the library call has not failed. -/
theorem stuck_reachable_iff {env : Env} (hearly : env.early = false) {acts : List Action}
    {s : State} (h : Run (step env) (init 1) acts s) :
    (Stuck env s → .callback ∈ acts) ∧ (CanGetStuck env s ↔ .libFail ∉ acts) := by
  obtain ⟨cb, failed, hphase, hcb, hfailed⟩ := phase_of_run h
  refine ⟨fun hstuck => hcb.mp (hphase.of_stuck hstuck).1, ?_⟩
  constructor
  · rintro ⟨acts', s', hrun, hstuck⟩ hmem
    obtain ⟨_, failed', hphase', -, hfailed'⟩ := phase_of_run (h.trans hrun)
    have hfailed := hfailed'.mpr (List.mem_append_left _ hmem)
    rw [(hphase'.of_stuck hstuck).2] at hfailed
    cases hfailed
  · intro hmem
    obtain rfl : failed = false := by simpa [hmem] using hfailed
    exact hphase.canGetStuck hearly

theorem stuck_reachable_callback :
    ∃ acts s, Run (step ⟨false, false⟩) (init 1) acts s ∧ .callback ∈ acts ∧
      CanGetStuck ⟨false, false⟩ s := by
  have hrun : Run (step ⟨false, false⟩) (init 1) [.start, .create, .callback]
      (.at .up false .wait .serving) := run_iff_foldlM.mpr (by decide)
  exact ⟨_, _, hrun, by decide, (stuck_reachable_iff rfl hrun).2.mpr (by decide)⟩

/-- A round in which stop wins: the ss thread waits for the status to leave `DOWN`, for ever. -/
theorem stuck_round :
    ∃ s, Run (step ⟨false, false⟩) (init 1)
      [.start, .create, .callback, .mainTest, .switch, .stop, .kill, .libReturn, .ssTest] s ∧
      Stuck ⟨false, false⟩ s :=
  ⟨_, run_iff_foldlM.mpr (by decide), stuck_blocked _⟩

end Threads
