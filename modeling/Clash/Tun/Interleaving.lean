import Mathlib.Tactic.ByContra
import Clash.Tun.Brackets
import Clash.Tun.Threads

/-!
# Privileges next to the ss thread

The effective ids belong to the process. While main goes through a session, the ss thread serves
with the ids that main has set.

## Main definitions

* `State`, `Action`, `State.step`: the two threads with the ids that they share, taking turns in any
  order.
* `SsUnprivileged`: the ss thread never takes a step with the effective user id 0.
* `InBracket`: main is between the entry of `privilege_escalate` and the return of `privilege_drop`.

## Main results

* `ss_privileged_in_bracket`: the ss thread takes a step with the effective user id 0 only while
  main is in a bracket.
* `exists_serve`: it can serve wherever main is in the session.
-/

open CProg CString Netlink Privilege Runs Escalated

namespace Interleaving

/-! ## The two threads -/

/-- The two threads, and the ids that they share. -/
structure State where
  threads : Threads.State
  cred : Cred
  /-- What main has done since `start_ss`. -/
  past : List Event
  /-- What it does up to `stop_ss`. -/
  todo : List Event
  /-- Why it stops before that. -/
  ending : Option Stop
  deriving DecidableEq

/-- The steps of the threads. -/
inductive Action where
  /-- main goes on in its session. -/
  | main
  /-- A step of `start_ss`, of `stop_ss` or of `start_routine`. -/
  | thread (a : Threads.Action)
  /-- The ss thread handles network traffic. -/
  | serve
  deriving DecidableEq

/-- The ss thread takes the step. -/
def Action.OfSs : Action → Prop
  | .main => False
  | .serve => True
  | .thread a =>
    a = .libFail ∨ a = .callback ∨ a = .libReturn ∨ a = .report ∨ a = .ssTest ∨ a = .ssWake ∨
      a = .assertUp

/-- The state behind a step, if it is enabled. -/
def State.step (env : Threads.Env) (s : State) : Action → Option State
  | .main =>
    if s.threads.main = .started true ∧ s.threads.aborted = false then
      match s.todo with
      | e :: todo => some { s with cred := s.cred.after e, past := s.past ++ [e], todo }
      | [] =>
        if s.ending = some .assertion then
          some { s with threads := { s.threads with aborted := true } }
        else none
    else none
  -- `stop_ss` is behind the session
  | .thread a =>
    if a = .stop → s.todo = [] ∧ s.ending = none then
      (Threads.step env s.threads a).map fun threads => { s with threads }
    else none
  | .serve => if s.threads.ss = .serving ∧ s.threads.aborted = false then some s else none

/-- In front of `start_ss`, for a session that main runs from the state `s` as `r`. -/
def start {ω : Type} (s : Proc ω) (r : EStateM.Result Stop (Proc ω) Unit) : State where
  threads := Threads.init 1
  cred := s.cred
  past := []
  todo := (final r).trace.drop s.trace.length
  ending :=
    match r with
    | .ok _ _ => none
    | .error e _ => some e

/-- The ss thread never takes a step with the effective user id of root. -/
def SsUnprivileged (env : Threads.Env) (s₀ : State) : Prop :=
  ∀ acts s a s', Run (State.step env) s₀ acts s → a.OfSs → s.step env a = some s' →
    s.cred.uid.effective ≠ 0

/-- Main is between the entry of `privilege_escalate` and the return of `privilege_drop`. -/
def InBracket (past : List Event) : Prop :=
  ∃ before after, past = before ++ .escalate :: after ∧ .dropped ∉ after

/-! ## The ids of main -/

theorem cred_of_step {m m' : Mode} {e : Event} (h : Mode.Step m e m') :
    m'.cred = m.cred.after e := by
  cases h <;> rfl

/-- Outside of brackets the process has the effective ids of the user. -/
theorem cred_of_modeOf {events : List Event} {m : Mode} (h : modeOf events = some m)
    (hm : m.place = .outside) : m.cred = .dropped := by
  induction modeOf_eq_some.mp h with
  | nil => rfl
  | snoc hrun hnext ih =>
    cases Mode.step_of_next hnext with
    | dropped => rfl
    | callOutside => exact ih (modeOf_eq_some.mpr hrun) rfl
    | seteuid hplace =>
      rcases hplace with hplace | hplace <;> cases hm.symm.trans hplace
    | setegid hplace =>
      rcases hplace with hplace | hplace <;> cases hm.symm.trans hplace
    | _ => cases hm

/-- Where `modeOf` does not find the process outside of brackets, it is in a bracket. -/
theorem inBracket_of_modeOf {events : List Event} {m : Mode} (h : modeOf events = some m)
    (hm : m.place ≠ .outside) : InBracket events := by
  induction modeOf_eq_some.mp h with
  | nil => exact absurd rfl hm
  | @snoc before m₁ e m₂ hrun hnext ih =>
    by_cases hm₁ : m₁.place = .outside
    -- only the entry of a bracket leads out of this place
    · refine ⟨before, [], ?_, List.not_mem_nil⟩
      cases Mode.step_of_next hnext with
      | escalate => rfl
      | callOutside => exact absurd rfl hm
      | seteuid => exact absurd hm₁ hm
      | setegid => exact absurd hm₁ hm
      | _ => cases hm₁
    · obtain ⟨before', after, rfl, hafter⟩ := ih (modeOf_eq_some.mpr hrun) hm₁
      refine ⟨before', after ++ [e], by rw [List.append_assoc, List.cons_append], ?_⟩
      rw [List.mem_append, List.mem_singleton, not_or]
      refine ⟨hafter, ?_⟩
      rintro rfl
      cases Mode.step_of_next hnext
      exact hm rfl

/-- The ids and the events of main fit each other. -/
structure Tracked (events : List Event) (s : State) : Prop where
  events_eq : s.past ++ s.todo = events
  mode : ∃ m, modeOf s.past = some m ∧ m.cred = s.cred

section Joint

variable {env : Threads.Env} {events : List Event} {s s' : State} {a : Action}

/-- What a step of main can be: its next event, or the end of the process. -/
theorem main_of_step (h : s.step env .main = some s') :
    (∃ e todo, s.todo = e :: todo ∧
      s' = { s with cred := s.cred.after e, past := s.past ++ [e], todo }) ∨
      s' = { s with threads := { s.threads with aborted := true } } := by
  unfold State.step at h
  obtain ⟨-, hmain⟩ := Option.ite_none_right_eq_some.mp h
  cases htodo : s.todo with
  | cons e todo =>
    rw [htodo] at hmain
    cases hmain
    exact .inl ⟨e, todo, rfl, rfl⟩
  | nil =>
    rw [htodo] at hmain
    obtain ⟨-, hend⟩ := Option.ite_none_right_eq_some.mp hmain
    cases hend
    exact .inr rfl

/-- The other steps leave main where it is. -/
theorem frame_of_step (ha : a ≠ .main) (h : s.step env a = some s') :
    s'.cred = s.cred ∧ s'.past = s.past ∧ s'.todo = s.todo := by
  cases a with
  | main => exact absurd rfl ha
  | thread a =>
    obtain ⟨-, hthread⟩ := Option.ite_none_right_eq_some.mp h
    obtain ⟨threads, -, rfl⟩ := Option.map_eq_some_iff.mp hthread
    exact ⟨rfl, rfl, rfl⟩
  | serve =>
    obtain ⟨-, hserve⟩ := Option.ite_none_right_eq_some.mp h
    cases hserve
    exact ⟨rfl, rfl, rfl⟩

/-- A step keeps the ids and the events of main in line, as long as the session is in order. -/
theorem Tracked.step {mEnd : Mode} (hevents : modeOf events = some mEnd) (h : Tracked events s)
    (hstep : s.step env a = some s') : Tracked events s' := by
  obtain ⟨hsplit, m, hmode, hcred⟩ := h
  by_cases ha : a = .main
  · subst ha
    rcases main_of_step hstep with ⟨e, todo, htodo, rfl⟩ | rfl
    · rw [htodo] at hsplit
      refine ⟨by rw [← hsplit, List.append_assoc, List.singleton_append], ?_⟩
      -- the next event of a session in order has a mode behind it
      rw [← hsplit] at hevents
      obtain ⟨m₁, hpast, hrest⟩ := run_append (modeOf_eq_some.mp hevents)
      obtain rfl : m₁ = m := Option.some.inj ((modeOf_eq_some.mpr hpast).symm.trans hmode)
      obtain ⟨m₂, hnext, -⟩ := run_cons hrest
      refine ⟨m₂, modeOf_eq_some.mpr (hpast.snoc hnext), ?_⟩
      rw [cred_of_step (Mode.step_of_next hnext), hcred]
    · exact ⟨hsplit, m, hmode, hcred⟩
  · obtain ⟨hcred', hpast, htodo⟩ := frame_of_step ha hstep
    refine ⟨by rw [hpast, htodo, hsplit], m, by rw [hpast, hmode], by rw [hcred', hcred]⟩

end Joint

/-! ## Sessions -/

section Session

variable {env : Env} {κ : Type} {sys : Sys κ} {remoteHost : CString} {past : List Event}
  {s₀ s₁ s₂ : Proc (World κ)} {tenv : Threads.Env} {ops : List Escalated.Op}

theorem keeps_call_then {α : Type} {p : Prog (Proc (World κ)) α} (c : Call)
    (hp : Keeps (Outside past) (Safe past) p) :
    Keeps (Outside past) (Safe past) (do
      let _ ← call env c
      p) :=
  (keeps_call_outside env c).bind fun _ => hp

/-- A session leads from outside of brackets to outside of brackets. -/
theorem keeps_session (henv : env.pw = some ⟨1000, 1000⟩) :
    Keeps (Outside past) (Safe past) (session env sys remoteHost) := by
  have hnetlink (op : Netlink.Op) : Keeps (Outside past) (Safe past) (netlinkOp env sys op) :=
    keeps_netlinkOp henv op
  have hprintf : Keeps (Outside past) (Safe past) (device env sys).printf :=
    keeps_call_then _ (keeps_pure _)
  have htunUp : Keeps (Outside past) (Safe past) (device env sys).tunUp := by
    refine (keeps_ioctlTunCreate henv _).bind fun _ => ?_
    exact (hnetlink (.tunAddr _ _ _)).bind fun _ => hnetlink (.flags _ _)
  have hset : Keeps (Outside past) (Safe past) (set env sys remoteHost) := by
    refine htunUp.bind fun _ => (hnetlink .getGateway).bind fun _ => hprintf.bind fun _ => ?_
    refine keeps_get.bind fun s => (hnetlink (.route _ _ _ _ _)).bind fun _ => ?_
    refine (hnetlink (.route _ _ _ _ _)).bind fun _ => ?_
    exact keeps_get.bind fun s => hnetlink (.route _ _ _ _ _)
  have hreset : Keeps (Outside past) (Safe past) (reset env sys remoteHost) := by
    refine keeps_get.bind fun s => (hnetlink (.route _ _ _ _ _)).bind fun _ => ?_
    refine (hnetlink (.route _ _ _ _ _)).bind fun _ => hprintf.bind fun _ => ?_
    refine keeps_get.bind fun s => (hnetlink (.route _ _ _ _ _)).bind fun _ => ?_
    exact (hnetlink (.flags _ _)).bind fun _ => hnetlink (.delLink _)
  have hassert (P : Prop) [Decidable P] :
      Keeps (Outside past) (Safe past) (assert P : Prog (Proc (World κ)) Unit) :=
    keeps_assert Outside.safe P
  have hunlink (f : CString) : Keeps (Outside past) (Safe past)
      (unlinkNofail env f : Prog (Proc (World κ)) Unit) := by
    refine (keeps_call_outside env _).bind fun i => Keeps.ite ?_ (keeps_pure _)
    exact (hassert _).bind fun _ => keeps_call_then _ (keeps_pure _)
  have hfork : Keeps (Outside past) (Safe past)
      (startTun2socks env : Prog (Proc (World κ)) ℤ) := by
    refine (keeps_call_outside env _).bind fun pid => keeps_get.bind fun s => ?_
    exact (hassert _).bind fun _ => (hassert _).bind fun _ => keeps_call_then _ (keeps_pure _)
  -- the session itself, call by call
  refine (keeps_netlinkInit henv).bind fun _ => hset.bind fun _ => (hunlink _).bind fun _ => ?_
  refine keeps_call_then _ (hfork.bind fun pid => keeps_call_then _ ?_)
  refine Keeps.bind (keeps_call_then _ (keeps_check_outside _ (· ≠ 0))) fun _ => ?_
  refine keeps_call_then _ (Keeps.bind (keeps_escalated henv ?_) fun _ => ?_)
  · exact keeps_check_inside _ (· = 0)
  refine hreset.bind fun _ => (keeps_check_outside _ (· = 0)).bind fun _ => ?_
  exact keeps_lift_outside _

/-- A safe process has gone through modes since it was outside of brackets. -/
theorem mode_of_safe (h : Safe past s₁) :
    ∃ m, modeOf (s₁.trace.drop past.length) = some m := by
  rcases h with ⟨⟨events, htrace, hmode⟩, -⟩ | ⟨⟨events, htrace, hmode⟩, -⟩
  · rw [htrace, List.drop_left]
    exact ⟨_, hmode⟩
  · rw [htrace, List.drop_left]
    exact ⟨_, hmode⟩

/-- In every interleaving of a session with the ss thread, behind any operations in front of it, the
ss thread takes a step with the effective user id 0 only while main is in a bracket. Otherwise the
effective ids are those of the user. -/
theorem ss_privileged_in_bracket (hids : Rooted s₀.cred)
    (hdrop : (privilegeDrop env).run s₀ = .ok () s₁)
    (hops : (runOps env sys ops).run s₁ = .ok () s₂)
    {acts : List Action} {s : State}
    (hrun : Run (State.step tenv) (start s₂ ((session env sys remoteHost).run s₂)) acts s) :
    ∀ a s', a.OfSs → s.step tenv a = some s' →
      (s.cred.uid.effective = 0 → InBracket s.past) ∧
        (¬ InBracket s.past → s.cred.uid.effective = 1000 ∧ s.cred.gid.effective = 1000) := by
  intro a s' _ _
  obtain ⟨henv, houtside⟩ := outside_of_privilegeDrop hids hdrop
  have houtside₂ : s₂.cred = .dropped := ((keeps_runOps henv sys ops).of_ok houtside hops).cred
  -- the events of the session are those of a process that keeps its brackets, also if it aborts
  obtain ⟨mEnd, hevents⟩ : ∃ m, modeOf (start s₂ ((session env sys remoteHost).run s₂)).todo =
      some m := by
    have houtside : Outside s₂.trace s₂ := ⟨⟨[], (List.append_nil _).symm, rfl⟩, houtside₂⟩
    have hkeeps : Keeps (Outside s₂.trace) (Safe s₂.trace) (session env sys remoteHost) :=
      keeps_session henv
    apply mode_of_safe
    cases hsession : (session env sys remoteHost).run s₂ with
    | ok _ s₃ => exact .inl (hkeeps.of_ok houtside hsession)
    | error e s₃ => exact hkeeps.of_error houtside hsession
  -- every step of the interleaving keeps main in a mode that its past leads to
  obtain ⟨-, m, hmode, hcred⟩ :
      Tracked (start s₂ ((session env sys remoteHost).run s₂)).todo s := by
    refine Run.induct (P := fun _ t =>
      Tracked (start s₂ ((session env sys remoteHost).run s₂)).todo t) ?_ ?_ hrun
    · exact ⟨rfl, _, rfl, houtside₂.symm⟩
    · exact fun _ _ _ _ h hstep => h.step hevents hstep
  have hdropped (hm : m.place = .outside) : s.cred = .dropped := by
    rw [← hcred, cred_of_modeOf hmode hm]
  constructor
  · intro hroot
    refine inBracket_of_modeOf hmode fun hm => ?_
    rw [hdropped hm] at hroot
    cases hroot
  · intro hbracket
    have hm : m.place = .outside := by
      by_contra hm
      exact hbracket (inBracket_of_modeOf hmode hm)
    rw [hdropped hm]
    exact ⟨rfl, rfl⟩

/-- main can go on through its events while the ss thread stays where it is. -/
theorem run_main {pre post : List Event} {s : State}
    (hthreads : s.threads.main = .started true ∧ s.threads.aborted = false)
    (htodo : s.todo = pre ++ post) :
    Run (State.step tenv) s (List.replicate pre.length .main)
      { s with cred := pre.foldl Cred.after s.cred, past := s.past ++ pre, todo := post } := by
  -- one step of main for each event
  induction pre generalizing s with
  | nil =>
    obtain ⟨threads, cred, past, todo, ending⟩ := s
    obtain rfl : todo = post := htodo
    rw [List.append_nil]
    exact .nil
  | cons e pre ih =>
    have hstep : s.step tenv .main =
        some { s with cred := s.cred.after e, past := s.past ++ [e], todo := pre ++ post } := by
      unfold State.step
      rw [if_pos hthreads, htodo]
      rfl
    refine .cons hstep ?_
    have hpast : s.past ++ e :: pre = s.past ++ [e] ++ pre := by
      rw [List.append_assoc, List.singleton_append]
    rw [hpast]
    exact ih hthreads rfl

/-- Wherever main is in a session, there is an interleaving in which the ss thread serves there. -/
theorem exists_serve {ω : Type} {s : Proc ω} {r : EStateM.Result Stop (Proc ω) Unit}
    {pre post : List Event} (h : (start s r).todo = pre ++ post) :
    ∃ acts s', Run (State.step tenv) (start s r) acts s' ∧ s'.past = pre ∧
      s'.cred = pre.foldl Cred.after s.cred ∧ s'.step tenv .serve = some s' := by
  let served : State :=
    { start s r with
      threads := { Threads.init 1 with
        status := .up, thread := true, main := .started true, ss := .serving, rounds := 0 } }
  have hstart : Run (State.step tenv) (start s r)
      [.thread .start, .thread .create, .thread .mainTest, .thread .callback, .thread .mainTest,
        .thread .switch] served := run_iff_foldlM.mpr rfl
  have hmain : Run (State.step tenv) served (List.replicate pre.length .main)
      { served with cred := pre.foldl Cred.after s.cred, past := pre, todo := post } :=
    run_main ⟨rfl, rfl⟩ h
  exact ⟨_, _, hstart.trans hmain, rfl, rfl, rfl⟩

end Session

/-! ## A session that succeeds -/

/-- A session behind the first `privilege_drop`, with calls that succeed. -/
def sampleStart : State :=
  start (final ((privilegeDrop allowed).run fresh))
    ((session allowed oneRoute (utf8 "1.2.3.4")).run (final ((privilegeDrop allowed).run fresh)))

/-- `start_ss` returns while the ss thread serves, and main enters `netlink_init` up to its call of
`socket`. -/
def sampleActs : List Action :=
  [.thread .start, .thread .create, .thread .mainTest, .thread .callback, .thread .mainTest,
    .thread .switch] ++ List.replicate 4 .main

theorem sampleActs_serve :
    ∃ s, Run (State.step ⟨false, false⟩) sampleStart sampleActs s ∧
      s.step ⟨false, false⟩ .serve = some s ∧ s.cred.uid.effective = 0 := by
  have hany : (sampleActs.foldlM (State.step ⟨false, false⟩) sampleStart).any (fun s =>
      s.step ⟨false, false⟩ .serve = some s ∧ s.cred.uid.effective = 0) = true := by
    decide +kernel
  obtain ⟨s, hs, hserve⟩ := (Option.any_eq_true _ _).mp hany
  exact ⟨s, run_iff_foldlM.mpr hs, of_decide_eq_true hserve⟩

/-- The ss thread serves with the effective user id 0. -/
theorem not_ssUnprivileged : ¬ SsUnprivileged ⟨false, false⟩ sampleStart := by
  obtain ⟨s, hrun, hserve, hroot⟩ := sampleActs_serve
  intro h
  exact h sampleActs s .serve s hrun trivial hserve hroot

/-- `ss_privileged_in_bracket` at this step. -/
theorem ss_privileged_in_bracket_sampleStart :
    ∃ s, Run (State.step ⟨false, false⟩) sampleStart sampleActs s ∧
      s.step ⟨false, false⟩ .serve = some s ∧ InBracket s.past := by
  obtain ⟨s, hrun, hserve, hroot⟩ := sampleActs_serve
  have hdrop : (privilegeDrop allowed).run fresh =
      .ok () (final ((privilegeDrop allowed).run fresh)) := rfl
  have hops : (runOps allowed oneRoute []).run (final ((privilegeDrop allowed).run fresh)) =
      .ok () (final ((privilegeDrop allowed).run fresh)) := rfl
  have hbracket :=
    ss_privileged_in_bracket ⟨⟨rfl, rfl⟩, rfl, rfl⟩ hdrop hops hrun .serve s trivial hserve
  exact ⟨s, hrun, hserve, hbracket.1 hroot⟩

end Interleaving
