import Clash.Lib.Directory
import Clash.Lib.Traces
import Clash.Tun.Program

/-!
# Milestones of main

What `main` of clash_tun does beyond its process comes in one order, and a run that aborts has done
a part of it.

## Main definitions

* `Milestone`, `milestone`: the calls that reach beyond the process.
* `script`: the milestones of a run, in their order.

## Main results

* `reaches_netlinkOp`, `reaches_set`, `reaches_session`, …: the milestones of the parts.
* `performs_main`: a run that returns performs the script, and one that stops a prefix of it.
* `milestones_of_main`, `signals_of_main`: what this says of every moment of a run.
-/

open CProg CString Escalated Privilege Traces

namespace Main

variable {κ α : Type} (env : Env) (sys : Netlink.Sys κ) (out : Outside) (fuel : ℕ)

/-- What a run does beyond the process. -/
inductive Milestone where
  | busOpen
  /-- A rename that succeeds. -/
  | renamed (r : CString × CString)
  | restart
  | flush
  | socket
  | tun
  /-- A request to the kernel. -/
  | request
  | fork
  /-- A signal to the process that a pidfd stands for. -/
  | process (tid : ℤ)
  /-- A process is found to be gone. -/
  | gone
  /-- A signal to the child. -/
  | child
  /-- A signal to anything else. -/
  | stray
  /-- A signal to the ss thread. -/
  | thread (sig : ℕ)
  | busClose
  deriving DecidableEq

/-- A process id, and the pidfd that is opened for it. -/
def opened (past : List Event) : Event → Option (ℤ × ℤ)
  | .call (.pidfdOpen tid) _ => some (tid, env.result past (.pidfdOpen tid))
  | _ => none

/-- The process that a pidfd stands for: the last one that it was opened for. -/
def holder (past : List Event) (pidfd : ℤ) : Option ℤ :=
  ((select (opened env) [] past).reverse.find? fun o => o.2 = pidfd).map Prod.fst

/-- The result of a `fork`. -/
def forked (past : List Event) : Event → Option ℤ
  | .call .fork _ => some (env.result past .fork)
  | _ => none

/-- A signal to this id reaches the last child, and no group of processes. -/
def IsChild (past : List Event) (pid : ℤ) : Prop :=
  1 ≤ pid ∧ (select (forked env) [] past).getLast? = some pid

instance (past : List Event) (pid : ℤ) : Decidable (IsChild env past pid) :=
  inferInstanceAs (Decidable (_ ∧ _))

/-- The milestone of an event. -/
def milestone (past : List Event) : Event → Option Milestone
  | .call .busDefaultSystem _ => some .busOpen
  | .call (.rename old new) _ =>
    if env.result past (.rename old new) = 0 then some (.renamed (old, new)) else none
  | .call (.busCallMethod _ _ _ method _) _ =>
    if method = utf8 "RestartUnit" then some .restart else some .flush
  | .call .socket _ => some .socket
  | .call .tunsetiff _ => some .tun
  | .call (.send _) _ => some .request
  | .call .fork _ => some .fork
  | .call (.pidfdSendSignal pidfd) _ =>
    match holder env past pidfd with
    | some tid => some (.process tid)
    | none => some .stray
  | .call .poll cred => if env.pollin (past ++ [.call .poll cred]) then some .gone else none
  | .call (.kill pid) _ => some (if IsChild env past pid then .child else .stray)
  | .call (.pthreadKill sig) _ => some (.thread sig)
  | .call .busFlushCloseUnref _ => some .busClose
  | _ => none

theorem milestone_busCallMethod {destination path interface method : CString}
    {args : List CString} (past : List Event) (cred : Cred) :
    milestone env past (.call (.busCallMethod destination path interface method args) cred) =
      if method = utf8 "RestartUnit" then some .restart else some .flush := rfl

/-- The renames that put the new configuration of the resolver in place. -/
def switch : List (CString × CString) := [
  (dnsold ++ utf8 "conf", dnsold ++ utf8 "bak"),
  (dnsnew ++ utf8 "bak", dnsnew ++ utf8 "conf")
]

/-- The milestones of `set`. -/
def setScript : List Milestone := .tun :: List.replicate 6 .request

/-- Those of `kill_sync`: the processes with the name are interrupted and gone, one by one. -/
def killScript (procs : List ProcT) (name : CString) : List Milestone :=
  procs.flatMap fun proc => if name = proc.cmd then [.process proc.tid, .gone] else []

/-- Those of the session. -/
def sessionScript : List Milestone :=
  .socket :: (setScript ++ .fork :: .child :: List.replicate 5 .request)

/-- Those of the first part about names. -/
def redirectScript : List Milestone := .busOpen :: (switch.map .renamed ++ [.restart, .flush])

/-- Those of the last one. -/
def restoreScript : List Milestone :=
  (Directory.undo switch).map .renamed ++ [.restart, .flush, .busClose]

/-- The milestones of a run that returns. -/
def script (procs : List ProcT) : List Milestone :=
  redirectScript ++ (killScript procs (utf8 "clash") ++
    (sessionScript ++ .thread sigint :: restoreScript))

/-! ## Parts -/

section Parts

variable {env sys out fuel} {ω : Type} {l : List Milestone}

/-- The program performs these milestones. -/
abbrev Reaches (env : Env) (l : List Milestone) (p : Prog (Proc ω) α) : Prop :=
  Performs Proc.trace (milestone env) l p

/-- A call, for whatever is picked from the events. -/
theorem performs_call {β : Type} {f : List Event → Event → Option β} (c : Call) {m : Option β}
    (h : ∀ past cred, f past (.call c cred) = m) :
    Performs Proc.trace f m.toList (call env c : Prog (Proc ω) ℤ) := by
  intro s
  refine ⟨[.call c s.cred], rfl, ?_⟩
  rw [select_singleton, h]

theorem reaches_call (c : Call) {m : Option Milestone}
    (h : ∀ past cred, milestone env past (.call c cred) = m) :
    Reaches env m.toList (call env c : Prog (Proc ω) ℤ) := performs_call c h

/-- A call that is no milestone. -/
theorem reaches_call_nil (c : Call) (h : ∀ past cred, milestone env past (.call c cred) = none) :
    Reaches env [] (call env c : Prog (Proc ω) ℤ) := performs_call c h

/-- A rename that has to succeed. -/
theorem reaches_rename (old new : CString) :
    Reaches env [.renamed (old, new)] (do
      assert ((← call env (.rename old new)) = 0) : Prog (Proc ω) Unit) := by
  intro s
  have hselect : select (milestone env) s.trace [.call (.rename old new) s.cred] =
      (if env.result s.trace (.rename old new) = 0 then some (.renamed (old, new))
        else none : Option Milestone).toList := select_singleton
  -- a rename that fails is no milestone, and ends the run
  by_cases hresult : env.result s.trace (.rename old new) = 0
  · have hrun : (do assert ((← call env (.rename old new)) = 0) : Prog (Proc ω) Unit).run s =
        .ok () { s with trace := s.trace ++ [.call (.rename old new) s.cred] } :=
      run_assert_of_true hresult _
    rw [hrun]
    refine ⟨_, rfl, ?_⟩
    rw [hselect, if_pos hresult]
    rfl
  · have hrun : (do assert ((← call env (.rename old new)) = 0) : Prog (Proc ω) Unit).run s =
        .error .assertion { s with trace := s.trace ++ [.call (.rename old new) s.cred] } :=
      run_assert_of_false hresult _
    rw [hrun]
    refine ⟨_, rfl, ?_⟩
    rw [hselect, if_neg hresult]
    exact List.nil_prefix

/-- Two renames, one behind the other. -/
theorem reaches_renames (r r' : CString × CString) :
    Reaches env [.renamed r, .renamed r'] (do
      assert ((← call env (.rename r.1 r.2)) = 0)
      assert ((← call env (.rename r'.1 r'.2)) = 0) : Prog (Proc ω) Unit) := by
  have h := Performs.bind (reaches_rename r.1 r.2 : Reaches env _ (_ : Prog (Proc ω) Unit))
    fun _ => reaches_rename r'.1 r'.2
  rw [bind_assoc] at h
  exact h

/-- Only calls are milestones. -/
theorem reaches_mark (e : Event) (h : ∀ past, milestone env past e = none) :
    Reaches env [] (mark e : Prog (Proc ω) Unit) := by
  intro s
  refine ⟨[e], rfl, ?_⟩
  rw [select_singleton, h]
  rfl

theorem reaches_seteuid (uid : ℕ) : Reaches env [] (seteuid uid : Prog (Proc ω) ℤ) := by
  refine performs_get.skip fun s => (reaches_mark _ fun _ => rfl).skip fun _ => ?_
  refine Performs.ite (Performs.skip ?_ fun _ => performs_pure _) (performs_pure _)
  exact performs_modify fun _ => rfl

theorem reaches_setegid (gid : ℕ) : Reaches env [] (setegid gid : Prog (Proc ω) ℤ) := by
  refine performs_get.skip fun s => (reaches_mark _ fun _ => rfl).skip fun _ => ?_
  refine Performs.ite (Performs.skip ?_ fun _ => performs_pure _) (performs_pure _)
  exact performs_modify fun _ => rfl

theorem reaches_privilegeEscalate : Reaches env [] (privilegeEscalate : Prog (Proc ω) Unit) := by
  refine (reaches_mark _ fun _ => rfl).skip fun _ => performs_get.skip fun _ => ?_
  refine (performs_assert _).skip fun _ => performs_get.skip fun _ => ?_
  refine (performs_assert _).skip fun _ => (reaches_seteuid 0).skip fun _ => ?_
  refine (performs_assert _).skip fun _ => (reaches_setegid 0).skip fun _ => ?_
  exact (performs_assert _).skip fun _ => reaches_mark _ fun _ => rfl

theorem reaches_privilegeDrop : Reaches env [] (privilegeDrop env : Prog (Proc ω) Unit) := by
  refine (reaches_mark _ fun _ => rfl).skip fun _ => performs_get.skip fun _ => ?_
  refine (performs_assert _).skip fun _ => performs_get.skip fun _ => ?_
  refine (performs_assert _).skip fun _ => ?_
  rcases hpw : env.pw with _ | pw
  · exact performs_throw _
  refine (performs_assert _).skip fun _ => (reaches_setegid _).skip fun _ => ?_
  refine (performs_assert _).skip fun _ => (reaches_seteuid _).skip fun _ => ?_
  exact (performs_assert _).skip fun _ => reaches_mark _ fun _ => rfl

/-- A bracket performs what is in it. -/
theorem reaches_escalated {x : Prog (Proc ω) Unit} (hx : Reaches env l x) :
    Reaches env l (escalated env x) :=
  reaches_privilegeEscalate.skip fun _ => hx.skip_last fun _ => reaches_privilegeDrop

theorem reaches_lift (p : Prog ω α) : Reaches env [] (Privilege.lift p) :=
  performs_zoom_nil p fun _ _ => rfl

/-- A call that is no milestone, an assertion on its result, and what comes behind. -/
theorem reaches_check (c : Call) (P : ℤ → Prop) [DecidablePred P]
    (h : ∀ past cred, milestone env past (.call c cred) = none) {p : Prog (Proc ω) α}
    (hp : Reaches env l p) :
    Reaches env l (do
      assert (P (← call env c))
      p) :=
  (reaches_call_nil c h).skip fun _ => (performs_assert _).skip fun _ => hp

/-! ### Operations -/

section Operations

variable {p : Prog (Proc (World κ)) α}

theorem reaches_onNet (p : Prog (Netlink.Net κ) α) : Reaches env [] (onNet p) := reaches_lift _

theorem reaches_netlinkInit :
    Reaches env [.socket] (netlinkInit env : Prog (Proc (World κ)) Unit) := by
  have hsocket : Reaches env [.socket] (do
      let fd ← call env .socket
      Privilege.lift (modify fun w => { w with netlinkfd := fd })
      assert (3 ≤ fd) : Prog (Proc (World κ)) Unit) :=
    (reaches_call .socket fun _ _ => rfl).skip_last fun _ =>
      (reaches_lift _).skip fun _ => performs_assert _
  refine (reaches_escalated hsocket).skip_last fun _ => ?_
  exact (reaches_call_nil .bind fun _ _ => rfl).skip fun _ => performs_assert _

theorem reaches_netlinkEnd : Reaches env [] (netlinkEnd env : Prog (Proc (World κ)) Unit) :=
  reaches_check .close (· = 0) (fun _ _ => rfl) (reaches_lift _)

/-- A request, its reply, and what comes behind them. -/
theorem reaches_exchange (req : List UInt8) (hp : Reaches env [] p) :
    Reaches env [.request] (do
      Escalated.send env sys req
      Escalated.receive env
      p) := by
  have hsend : Reaches env [.request] (Escalated.send env sys req) := by
    apply reaches_escalated
    refine (reaches_call (.send req.length) fun _ _ => rfl).skip_last fun _ => ?_
    exact (performs_assert _).skip fun _ => reaches_onNet _
  have hreceive : Reaches env [] (Escalated.receive env : Prog (Proc (World κ)) Unit) := by
    apply reaches_escalated
    refine performs_get.skip fun s => Performs.loop (fun p => ?_) _ _
    exact reaches_check .recv (0 ≤ ·) (fun _ _ => rfl) (reaches_onNet _)
  exact hsend.skip_last fun _ => hreceive.skip fun _ => hp

/-- Every operation of `netlink.c` sends one request. -/
theorem reaches_netlinkOp (op : Netlink.Op) : Reaches env [.request] (netlinkOp env sys op) := by
  have hack : Reaches env [] (do
      onNet Netlink.ack
      onNet Netlink.clearbuf : Prog (Proc (World κ)) Unit) :=
    (reaches_onNet _).skip fun _ => reaches_onNet _
  -- the request is what all of them have in common
  cases op with
  | route add gw dev dst via =>
    refine (performs_assert _).skip fun _ => performs_get.skip fun s => ?_
    refine (performs_assert _).skip fun _ => (performs_assert _).skip fun _ => ?_
    refine (performs_assert _).skip fun _ => (reaches_onNet _).skip fun req => ?_
    exact reaches_exchange req hack
  | getGateway => exact reaches_exchange _ (reaches_onNet _)
  | delLink dev => exact (reaches_onNet _).skip fun req => reaches_exchange req hack
  | tunAddr dev ipv4 prefixlen =>
    refine (performs_assert _).skip fun _ => (performs_assert _).skip fun _ => ?_
    refine (performs_assert _).skip fun _ => performs_get.skip fun s => ?_
    refine (performs_assert _).skip fun _ => (reaches_onNet _).skip fun req => ?_
    exact reaches_exchange req hack
  | flags up dev =>
    refine (performs_assert _).skip fun _ => performs_get.skip fun s => ?_
    exact (performs_assert _).skip fun _ => reaches_exchange _ hack

theorem reaches_ioctlTunCreate (dev : CString) :
    Reaches env [.tun] (ioctlTunCreate env sys dev) := by
  refine (performs_assert _).skip fun _ => ?_
  refine reaches_check .openTun (3 ≤ ·) (fun _ _ => rfl) (Performs.skip_last ?_ fun _ => ?_)
  · apply reaches_escalated
    refine (reaches_call .tunsetiff fun _ _ => rfl).skip_last fun _ => ?_
    refine (performs_assert _).skip fun _ => ?_
    exact reaches_check .tunsetpersist (· = 0) (fun _ _ => rfl) (reaches_onNet _)
  · exact (reaches_call_nil .close fun _ _ => rfl).skip fun _ => performs_pure _

/-- A round of the loop over `poll` is the last one if the process is gone. -/
theorem lastPerforms_pollBody (u : Unit) :
    LastPerforms Proc.trace (milestone env) [.gone]
      (pollBody env u : Prog (Proc (World κ)) (Unit ⊕ Unit)) := by
  intro s
  let e : Event := .call .poll s.cred
  have hselect : select (milestone env) s.trace [e] =
      (if env.pollin (s.trace ++ [e]) then some .gone else none : Option Milestone).toList :=
    select_singleton
  by_cases hresult : 0 ≤ env.result s.trace .poll
  · by_cases hpollin : env.pollin (s.trace ++ [e]) = true
    · -- the last round
      have hbody : (pollBody env u).run s = .ok (.inr ()) { s with trace := s.trace ++ [e] } := by
        rw [pollBody, EStateM.run_bind]
        change (assert (0 ≤ env.result s.trace .poll) >>= _).run _ = _
        rw [run_assert_bind, if_pos hresult]
        change (if env.pollin (s.trace ++ [e]) = true then _ else _ : Prog _ _).run _ = _
        rw [if_pos hpollin]
        rfl
      rw [hbody]
      refine ⟨[e], rfl, ?_⟩
      rw [hselect, if_pos hpollin]
      rfl
    · -- another round, behind a pause
      have hbody : (pollBody env u).run s =
          .ok (.inl ()) { s with trace := s.trace ++ [e] ++ [.call .usleep s.cred] } := by
        rw [pollBody, EStateM.run_bind]
        change (assert (0 ≤ env.result s.trace .poll) >>= _).run _ = _
        rw [run_assert_bind, if_pos hresult]
        change (if env.pollin (s.trace ++ [e]) = true then _ else _ : Prog _ _).run _ = _
        rw [if_neg hpollin]
        rfl
      rw [hbody]
      refine ⟨[e] ++ [.call .usleep s.cred], (List.append_assoc _ _ _), ?_⟩
      rw [select_append, hselect, if_neg hpollin]
      rfl
  · -- `poll` fails, whatever it would have found
    have hbody : (pollBody env u).run s = .error .assertion { s with trace := s.trace ++ [e] } := by
      rw [pollBody, EStateM.run_bind]
      change (assert (0 ≤ env.result s.trace .poll) >>= _).run _ = _
      rw [run_assert_bind, if_neg hresult]
    rw [hbody]
    refine ⟨[e], rfl, ?_⟩
    rw [hselect]
    split
    · exact List.prefix_refl _
    · exact List.nil_prefix

/-- The loop over `poll` ends with the process gone. -/
theorem reaches_poll (n : ℕ) (u : Unit) :
    Reaches env [.gone] (loop (pollBody env) n u : Prog (Proc (World κ)) Unit) :=
  LastPerforms.loop lastPerforms_pollBody n u

/-- A pidfd stands for the process that it has just been opened for. -/
theorem holder_opened (past : List Event) (tid : ℤ) (cred : Cred) :
    holder env (past ++ [.call (.pidfdOpen tid) cred]) (env.result past (.pidfdOpen tid)) =
      some tid := by
  have hselect : select (opened env) [] (past ++ [.call (.pidfdOpen tid) cred]) =
      select (opened env) [] past ++ [(tid, env.result past (.pidfdOpen tid))] := by
    rw [select_append, select_singleton, List.nil_append]
    rfl
  rw [holder, hselect, List.reverse_append, List.reverse_singleton, List.singleton_append,
    List.find?_cons_of_pos (by simp)]
  rfl

/-- A process with the name is interrupted, and gone. -/
theorem reaches_interrupt (n : ℕ) (proc : ProcT) :
    Reaches env [.process proc.tid, .gone]
      (interrupt env n proc : Prog (Proc (World κ)) Unit) := by
  let Held (pidfd : ℤ) (s : Proc (World κ)) : Prop := holder env s.trace pidfd = some proc.tid
  have hopen : Tracks Proc.trace (milestone env) (fun _ => True) []
      (call env (.pidfdOpen proc.tid) : Prog (Proc (World κ)) ℤ) Held := by
    refine (reaches_call_nil _ fun _ _ => rfl).tracks fun s pidfd s' _ hrun => ?_
    cases hrun
    exact holder_opened s.trace proc.tid s.cred
  -- no other process is opened before the signal
  have hkeep {α : Type} {p : Prog (Proc (World κ)) α} (pidfd : ℤ) (hp : Reaches env [] p)
      (hnone : Performs Proc.trace (opened env) [] p) :
      Tracks Proc.trace (milestone env) (Held pidfd) [] p fun _ => Held pidfd :=
    Performs.keeps (A := fun os => (os.reverse.find? fun o => o.2 = pidfd).map Prod.fst =
      some proc.tid) hp hnone
  have hsignal (pidfd : ℤ) : Tracks Proc.trace (milestone env) (Held pidfd) [.process proc.tid]
      (call env (.pidfdSendSignal pidfd) : Prog (Proc (World κ)) ℤ) fun _ _ => True := by
    intro s hs
    refine ⟨trivial, [.call (.pidfdSendSignal pidfd) s.cred], rfl, ?_⟩
    have hmilestone : milestone env s.trace (.call (.pidfdSendSignal pidfd) s.cred) =
        some (.process proc.tid) := by
      rw [milestone, show holder env s.trace pidfd = some proc.tid from hs]
    rw [select_singleton, hmilestone]
    rfl
  have hwait : Reaches env [.gone] (do
      loop (pollBody env) n ()
      let _ ← call env .printf : Prog (Proc (World κ)) Unit) :=
    (reaches_poll n ()).skip_last fun _ =>
      (reaches_call_nil .printf fun _ _ => rfl).skip fun _ => performs_pure _
  refine Tracks.performs (Q := fun _ _ => True) (hopen.skip fun pidfd => ?_)
  refine (hkeep pidfd (performs_assert _) (performs_assert _)).skip fun _ => ?_
  rcases proc.cmdline with _ | cmdline
  · exact (performs_throw _).tracks fun _ _ _ _ _ => trivial
  · have hprintf : Performs Proc.trace (opened env) []
        (call env .printf : Prog (Proc (World κ)) ℤ) := performs_call (m := none) _ fun _ _ => rfl
    refine (hkeep pidfd (reaches_call_nil .printf fun _ _ => rfl) hprintf).skip fun _ => ?_
    refine (hsignal pidfd).bind fun r => Performs.tracks ?_ fun _ _ _ _ _ => trivial
    exact (performs_assert _).skip fun _ => hwait

/-- `kill_sync` interrupts the processes with the name, each once the one before it is gone. -/
theorem reaches_killSync (n : ℕ) (procs : List ProcT) (name : CString) :
    Reaches env (killScript procs name)
      (killSync env n procs name : Prog (Proc (World κ)) Unit) := by
  refine Performs.forM fun proc => ?_
  by_cases hname : name = proc.cmd
  · rw [inspectProc, if_pos hname, if_pos hname]
    exact (performs_assert _).skip fun _ => reaches_escalated (reaches_interrupt n proc)
  · rw [inspectProc, if_neg hname, if_neg hname]
    exact performs_pure _

theorem reaches_busInit : Reaches env [.busOpen] (busInit env sys) := by
  refine performs_get.skip fun s => (reaches_lift _).skip fun _ => ?_
  refine (performs_assert _).skip fun _ => ?_
  refine reaches_check (.unsetenv _) (· = 0) (fun _ _ => rfl) ?_
  refine reaches_check (.unsetenv _) (· = 0) (fun _ _ => rfl) (Performs.skip_last ?_ fun _ => ?_)
  · apply reaches_escalated
    refine (reaches_call .busDefaultSystem fun _ _ => rfl).skip_last fun r => ?_
    exact (reaches_lift _).skip fun _ => performs_assert _
  · exact performs_get.skip fun _ => performs_assert _

theorem reaches_busEnd : Reaches env [.busClose] (busEnd env : Prog (Proc (World κ)) Unit) := by
  refine Performs.skip_last (reaches_escalated ?_) fun _ => reaches_lift _
  exact (reaches_call .busFlushCloseUnref fun _ _ => rfl).skip_last fun _ => performs_assert _

theorem reaches_busCall {f : Prog (Proc (World κ)) Unit} (hf : Reaches env l f) :
    Reaches env l (busCall env f) :=
  (reaches_escalated hf).skip_last fun _ => performs_get.skip fun _ => performs_assert _

theorem reaches_restart :
    Reaches env [.restart] (busCall env (resolvedRestartservice env) :
      Prog (Proc (World κ)) Unit) := by
  refine reaches_busCall (Performs.skip_last ?_ fun r => performs_assert _)
  exact reaches_call (m := some .restart) _ fun past cred =>
    (milestone_busCallMethod env past cred).trans (if_pos rfl)

theorem reaches_flush :
    Reaches env [.flush] (busCall env (resolvedFlushcache env) :
      Prog (Proc (World κ)) Unit) := by
  refine reaches_busCall (Performs.skip_last ?_ fun r => performs_assert _)
  exact reaches_call (m := some .flush) _ fun past cred =>
    (milestone_busCallMethod env past cred).trans (if_neg (by decide))

theorem reaches_renameNew :
    Reaches env (switch.map .renamed) (renameNew env : Prog (Proc (World κ)) Unit) :=
  reaches_escalated (reaches_renames (_, _) (_, _))

theorem reaches_renameOld :
    Reaches env ((Directory.undo switch).map .renamed)
      (renameOld env : Prog (Proc (World κ)) Unit) :=
  reaches_escalated (reaches_renames (_, _) (_, _))

theorem reaches_unlinkNofail (f : CString) :
    Reaches env [] (unlinkNofail env f : Prog (Proc (World κ)) Unit) := by
  refine (reaches_call_nil (.unlink f) fun _ _ => rfl).skip fun i => ?_
  refine Performs.ite ((performs_assert _).skip fun _ => ?_) (performs_pure _)
  exact (reaches_call_nil .printf fun _ _ => rfl).skip fun _ => performs_pure _

theorem reaches_printf : Reaches env [] (device env sys).printf :=
  (reaches_call_nil .printf fun _ _ => rfl).skip fun _ => performs_pure _

/-- `set` creates the device and sends six requests. -/
theorem reaches_set (remoteHost : CString) :
    Reaches env setScript (Escalated.set env sys remoteHost) := by
  have htunUp : Reaches env [.tun, .request, .request] (device env sys).tunUp := by
    refine (reaches_ioctlTunCreate _).bind fun _ => ?_
    exact (reaches_netlinkOp (.tunAddr _ _ _)).bind fun _ => reaches_netlinkOp (.flags _ _)
  refine htunUp.bind fun _ => (reaches_netlinkOp .getGateway).bind fun _ => ?_
  refine reaches_printf.skip fun _ => performs_get.skip fun s => ?_
  refine (reaches_netlinkOp (.route _ _ _ _ _)).bind fun _ => ?_
  refine (reaches_netlinkOp (.route _ _ _ _ _)).bind fun _ => performs_get.skip fun s => ?_
  exact reaches_netlinkOp (.route _ _ _ _ _)

/-- `reset` sends five. -/
theorem reaches_reset (remoteHost : CString) :
    Reaches env (List.replicate 5 .request) (Escalated.reset env sys remoteHost) := by
  refine performs_get.skip fun s => (reaches_netlinkOp (.route _ _ _ _ _)).bind fun _ => ?_
  refine (reaches_netlinkOp (.route _ _ _ _ _)).bind fun _ => ?_
  refine reaches_printf.skip fun _ => performs_get.skip fun s => ?_
  refine (reaches_netlinkOp (.route _ _ _ _ _)).bind fun _ => ?_
  exact (reaches_netlinkOp (.flags _ _)).bind fun _ => reaches_netlinkOp (.delLink _)

theorem reaches_startTun2socks :
    Reaches env [.fork] (startTun2socks env : Prog (Proc (World κ)) ℤ) := by
  refine (reaches_call .fork fun _ _ => rfl).skip_last fun pid => performs_get.skip fun s => ?_
  refine (performs_assert _).skip fun _ => (performs_assert _).skip fun _ => ?_
  exact (reaches_call_nil .printf fun _ _ => rfl).skip fun _ => performs_pure _

/-- A part without milestones forks no child. -/
theorem keeps_child (pid : ℤ) (hp : Reaches env [] p) :
    Tracks Proc.trace (milestone env) (fun s => IsChild env s.trace pid) [] p
      fun _ s => IsChild env s.trace pid := by
  have hforked : ∀ past e, milestone env past e = none → forked env past e = none := by
    intro past e he
    unfold forked
    split
    · cases he
    · rfl
  exact Performs.keeps (A := fun ps => 1 ≤ pid ∧ ps.getLast? = some pid) hp (hp.nil_of hforked)

/-- Where the parent goes on, it has the id of its child. -/
theorem tracks_startTun2socks :
    Tracks Proc.trace (milestone env) (fun _ => True) [.fork]
      (startTun2socks env : Prog (Proc (World κ)) ℤ) fun pid s => IsChild env s.trace pid := by
  refine reaches_startTun2socks.tracks fun s pid s' _ hrun => ?_
  obtain ⟨r, s₁, hfork, hrun⟩ := run_bind_eq_ok.mp hrun
  cases hfork
  obtain ⟨_, _, hget, hrun⟩ := run_bind_eq_ok.mp hrun
  cases hget
  obtain ⟨_, s₂, hassert, hrun⟩ := run_bind_eq_ok.mp hrun
  obtain ⟨-, rfl⟩ := run_assert_eq_ok.mp hassert
  obtain ⟨_, s₃, hassert, hrun⟩ := run_bind_eq_ok.mp hrun
  obtain ⟨hpid, rfl⟩ := run_assert_eq_ok.mp hassert
  cases hrun
  -- the fork is the last one so far
  have hselect : select (forked env) []
      (s.trace ++ [.call .fork s.cred] ++ [.call .printf s.cred]) =
      select (forked env) [] s.trace ++ [env.result s.trace .fork] := by
    rw [select_append, select_append, select_singleton, select_singleton]
    exact List.append_nil _
  refine ⟨hpid, ?_⟩
  dsimp only
  rw [hselect]
  exact List.getLast?_concat

/-- The signal reaches the child. -/
theorem tracks_killTun2socks (pid : ℤ) :
    Tracks Proc.trace (milestone env) (fun s => IsChild env s.trace pid) [.child]
      (killTun2socks env pid : Prog (Proc (World κ)) Unit) fun _ _ => True := by
  have hkill : Tracks Proc.trace (milestone env) (fun s => IsChild env s.trace pid) [.child]
      (call env (.kill pid) : Prog (Proc (World κ)) ℤ) fun _ _ => True := by
    intro s hs
    refine ⟨trivial, [.call (.kill pid) s.cred], rfl, ?_⟩
    rw [select_singleton, milestone, if_pos hs]
    rfl
  have hblock : Tracks Proc.trace (milestone env) (fun s => IsChild env s.trace pid) [.child] (do
      assert ((← call env (.kill pid)) = 0) : Prog (Proc (World κ)) Unit) fun _ _ => True :=
    hkill.bind fun r => (performs_assert (r = 0)).tracks fun _ _ _ _ _ => trivial
  refine (keeps_child pid reaches_privilegeEscalate).skip fun _ => hblock.bind fun _ => ?_
  exact reaches_privilegeDrop.tracks fun _ _ _ _ _ => trivial

theorem reaches_session (remoteHost : CString) :
    Reaches env sessionScript (session env sys remoteHost) := by
  have hprintf {p : Prog (Proc (World κ)) Unit} {l : List Milestone} (hp : Reaches env l p) :
      Reaches env l (do
        let _ ← call env .printf
        p) := (reaches_call_nil .printf fun _ _ => rfl).skip fun _ => hp
  have hreadR : Reaches env [] (readR env : Prog (Proc (World κ)) Unit) :=
    hprintf ((reaches_call_nil .fgets fun _ _ => rfl).skip fun _ => performs_assert _)
  have hback : Reaches env (List.replicate 5 .request) (do
      Escalated.reset env sys remoteHost
      netlinkEnd env) := (reaches_reset remoteHost).skip_last fun _ => reaches_netlinkEnd
  -- from the child on
  have hchild : Reaches env (.fork :: .child :: List.replicate 5 .request) (do
      let pid ← startTun2socks env
      let _ ← call env .sleep
      readR env
      let _ ← call env .printf
      killTun2socks env pid
      Escalated.reset env sys remoteHost
      netlinkEnd env) := by
    refine Tracks.performs (Q := fun _ _ => True) (tracks_startTun2socks.bind fun pid => ?_)
    refine (keeps_child pid (reaches_call_nil .sleep fun _ _ => rfl)).skip fun _ => ?_
    refine (keeps_child pid hreadR).skip fun _ => ?_
    refine (keeps_child pid (reaches_call_nil .printf fun _ _ => rfl)).skip fun _ => ?_
    refine (tracks_killTun2socks pid).bind fun _ => ?_
    exact hback.tracks fun _ _ _ _ _ => trivial
  refine reaches_netlinkInit.bind fun _ => (reaches_set remoteHost).bind fun _ => ?_
  exact (reaches_unlinkNofail _).skip fun _ => hprintf hchild

end Operations

/-! ### main -/

theorem reaches_onWorld {p : Prog (Proc (World κ)) α} (hp : Reaches env l p) :
    Reaches env l (onWorld p) := Performs.zoom hp (fun _ => rfl) fun _ _ => rfl

theorem reaches_onFiles (p : Prog SsLocal.World α) :
    Reaches env [] (onFiles p : Prog (Proc (Memory κ)) α) := reaches_lift _

theorem reaches_loadNode :
    Reaches env [] (loadNode env out fuel : Prog (Proc (Memory κ)) CString) := by
  have hload (name : CString) :
      Reaches env [] (loadProfile out fuel name : Prog (Proc (Memory κ)) Unit) :=
    (performs_zoom_nil _ fun _ _ => rfl).skip fun _ => reaches_onFiles _
  refine (reaches_call_nil .printf fun _ _ => rfl).skip fun _ => ?_
  refine (performs_assert _).skip fun _ => reaches_privilegeDrop.skip fun _ => ?_
  refine (performs_assert _).skip fun _ => ?_
  refine (performs_of_inert (inert_now _)).skip fun name => ?_
  refine (reaches_call_nil .printf fun _ _ => rfl).skip fun _ => ?_
  refine (reaches_onFiles _).skip fun _ => (performs_assert _).skip fun _ => ?_
  refine (hload name).skip fun _ => (reaches_onFiles _).skip fun _ => ?_
  exact (performs_assert _).skip fun _ => performs_pure _

theorem reaches_prepare : Reaches env [] (prepare env out fuel : Prog (Proc (Memory κ)) Unit) :=
  reaches_loadNode.skip fun _ => reaches_onFiles _

theorem reaches_redirectNames :
    Reaches env redirectScript (redirectNames env sys) := by
  refine reaches_busInit.bind fun _ => reaches_renameNew.bind fun _ => ?_
  exact reaches_restart.bind fun _ => reaches_flush

theorem reaches_restoreNames :
    Reaches env restoreScript (restoreNames env : Prog (Proc (World κ)) Unit) := by
  refine reaches_renameOld.bind fun _ => reaches_restart.bind fun _ => ?_
  exact reaches_flush.bind fun _ => reaches_busEnd

theorem reaches_startShadowsocks :
    Reaches env (killScript out.procs (utf8 "clash"))
      (startShadowsocks env out fuel : Prog (Proc (Memory κ)) Unit) := by
  have hstart : Reaches env [] (startSs out : Prog (Proc (Memory κ)) Bool) := by
    refine performs_get.skip fun s => (performs_assert _).skip fun _ => ?_
    refine (reaches_lift _).skip fun _ => performs_get.skip fun s => ?_
    rcases s.world.status with _ | _ | _
    · exact performs_throw _
    · exact performs_pure _
    · exact performs_pure _
  refine (reaches_onWorld (reaches_killSync _ _ _)).skip_last fun _ => ?_
  refine (reaches_onFiles _).skip fun _ => (performs_assert _).skip fun _ => ?_
  refine (reaches_onWorld (reaches_unlinkNofail _)).skip fun _ => ?_
  exact hstart.skip fun _ => performs_assert _

theorem reaches_tunnel :
    Reaches env sessionScript (tunnel env sys) := by
  refine performs_get.skip fun s => Performs.skip ?_ fun remoteHost =>
    reaches_onWorld (reaches_session remoteHost)
  rcases s.world.files.profile.remoteHost with _ | remoteHost
  · exact performs_throw _
  · exact performs_pure _

/-- A run of `main` that returns performs the script, and one that stops a prefix of it. -/
theorem performs_main : Reaches env (script out.procs) (main env sys out fuel) := by
  have hstop : Reaches env [.thread sigint] (stopSs env : Prog (Proc (Memory κ)) Unit) := by
    refine performs_get.skip fun s => (performs_assert _).skip fun _ => ?_
    refine (reaches_lift _).skip fun _ => ?_
    refine (reaches_call (.pthreadKill sigint) fun _ _ => rfl).skip_last fun _ => ?_
    refine (performs_assert _).skip fun _ => ?_
    exact (reaches_call_nil .printf fun _ _ => rfl).skip fun _ => performs_pure _
  have hnames : Reaches env restoreScript
      (onWorld (restoreNames env) : Prog (Proc (Memory κ)) Unit) :=
    reaches_onWorld reaches_restoreNames
  refine reaches_prepare.skip fun _ => (reaches_onWorld reaches_redirectNames).bind fun _ => ?_
  refine reaches_startShadowsocks.bind fun _ => reaches_tunnel.bind fun _ => ?_
  exact hstop.bind fun _ => hnames

end Parts

/-! ## Whole runs -/

section Runs

variable {env sys out fuel} {s s' : Proc (Memory κ)} {es : List Event} {procs post : List ProcT}
  {name : CString} {l rest : List Milestone} {tid : ℤ}

/-- At no moment of a run anything has happened out of order, and a run that returns has done all
of it. -/
theorem milestones_of_main (hs : s.trace = []) :
    (∀ es, es <+: (final ((main env sys out fuel).run s)).trace →
      select (milestone env) [] es <+: script out.procs) ∧
      ∀ s', (main env sys out fuel).run s = .ok () s' →
        select (milestone env) [] s'.trace = script out.procs :=
  ⟨fun _ hes => performs_main.prefix_of_run hs hes, fun _ hrun => performs_main.of_ok hs hrun⟩

/-- `milestones_of_main` for a run that returns. -/
theorem milestones_of_homeRun :
    ∃ s', homeRun allowed = .ok () s' ∧ select (milestone allowed) [] s'.trace =
      script homeOutside.procs := by
  have hrun := eq_ok_of_returned returned_homeRun
  exact ⟨_, hrun, (milestones_of_main rfl).2 _ hrun⟩

/-- Nothing of `kill_sync` is anything else than an interrupt or an end. -/
theorem eq_of_mem_killScript {m : Milestone} (h : m ∈ killScript procs name) :
    (∃ tid, m = .process tid) ∨ m = .gone := by
  obtain ⟨proc, -, hm⟩ := List.mem_flatMap.mp h
  by_cases hname : name = proc.cmd
  · rw [if_pos hname] at hm
    rcases List.mem_pair.mp hm with rfl | rfl
    · exact .inl ⟨_, rfl⟩
    · exact .inr rfl
  · rw [if_neg hname] at hm
    cases hm

/-- The process that is interrupted. Those before it in the table are gone. -/
theorem exists_of_killScript (h : l ++ [.process tid] <+: killScript procs name ++ rest)
    (hrest : .process tid ∉ rest) :
    ∃ pre proc post, procs = pre ++ proc :: post ∧ name = proc.cmd ∧ tid = proc.tid ∧
      l = killScript pre name := by
  induction procs generalizing l with
  | nil => exact absurd (h.subset (List.mem_append_right l (List.mem_singleton_self _))) hrest
  | cons proc procs ih =>
    by_cases hname : name = proc.cmd
    · have hscript : killScript (proc :: procs) name =
          .process proc.tid :: .gone :: killScript procs name := by
        rw [killScript, List.flatMap_cons, if_pos hname]
        rfl
      rw [hscript] at h
      rcases l with _ | ⟨m, _ | ⟨m', l⟩⟩
      · obtain ⟨htid, -⟩ := List.cons_prefix_cons.mp h
        cases htid
        exact ⟨[], proc, procs, rfl, hname, rfl, rfl⟩
      · -- `gone` is not a process
        cases (List.cons_prefix_cons.mp (List.cons_prefix_cons.mp h).2).1
      · obtain ⟨rfl, hsecond⟩ := List.cons_prefix_cons.mp h
        obtain ⟨rfl, hthird⟩ := List.cons_prefix_cons.mp hsecond
        obtain ⟨pre, proc', post, rfl, hname', htid, rfl⟩ := ih hthird
        refine ⟨proc :: pre, proc', post, rfl, hname', htid, ?_⟩
        rw [killScript, killScript, List.flatMap_cons, if_pos hname]
        rfl
    · have hskip (procs : List ProcT) : killScript (proc :: procs) name =
          killScript procs name := by
        rw [killScript, List.flatMap_cons, if_neg hname]
        rfl
      rw [hskip] at h
      obtain ⟨pre, proc', post, rfl, hname', htid, rfl⟩ := ih h
      exact ⟨proc :: pre, proc', post, rfl, hname', htid, (hskip pre).symm⟩

/-- Where the milestones of a run come from. -/
theorem mem_script {m : Milestone} (h : m ∈ script procs) : m ∈ redirectScript ∨
    (∃ tid, m = .process tid) ∨ m = .gone ∨ m ∈ sessionScript ∨ m = .thread sigint ∨
      m ∈ restoreScript := by
  rcases List.mem_append.mp h with h | h
  · exact .inl h
  rcases List.mem_append.mp h with h | h
  · rcases eq_of_mem_killScript h with h | h
    · exact .inr (.inl h)
    · exact .inr (.inr (.inl h))
  rcases List.mem_append.mp h with h | h
  · exact .inr (.inr (.inr (.inl h)))
  · exact .inr (.inr (.inr (.inr (List.mem_cons.mp h))))

theorem stray_notMem_script : .stray ∉ script procs := by
  intro h
  rcases mem_script h with h | ⟨_, h⟩ | h | h | h | h
  · exact absurd h (by decide +kernel)
  · cases h
  · cases h
  · exact absurd h (by decide +kernel)
  · cases h
  · exact absurd h (by decide +kernel)

/-- What is in front of a signal through a pidfd. -/
theorem before_process (h : l ++ [.process tid] <+: script procs) :
    ∃ pre proc post, procs = pre ++ proc :: post ∧ proc.cmd = utf8 "clash" ∧ tid = proc.tid ∧
      l = redirectScript ++ killScript pre (utf8 "clash") := by
  have hfirst : .process tid ∉ redirectScript := by
    simp [redirectScript]
  have hrest : .process tid ∉ sessionScript ++ .thread sigint :: restoreScript := by
    simp [sessionScript, setScript, restoreScript]
  obtain ⟨l', rfl, hpart⟩ := append_of_part h hfirst
  obtain ⟨pre, proc, post, hprocs, hname, htid, rfl⟩ := exists_of_killScript hpart hrest
  exact ⟨pre, proc, post, hprocs, hname.symm, htid, rfl⟩

/-- What is in front of the signal to the child, which occurs once. -/
theorem before_child (h : l ++ [.child] <+: script procs) :
    l = redirectScript ++ (killScript procs (utf8 "clash") ++
      (.socket :: (setScript ++ [.fork]))) := by
  have hscript : script procs = (redirectScript ++ (killScript procs (utf8 "clash") ++
      (.socket :: (setScript ++ [.fork])))) ++
      .child :: (List.replicate 5 .request ++ .thread sigint :: restoreScript) := by
    simp only [script, sessionScript, List.append_assoc, List.cons_append, List.nil_append]
  rw [hscript] at h
  refine eq_of_part h ?_ (by decide +kernel)
  intro hmem
  rcases List.mem_append.mp hmem with hmem | hmem
  · exact absurd hmem (by decide +kernel)
  rcases List.mem_append.mp hmem with hmem | hmem
  · rcases eq_of_mem_killScript hmem with ⟨_, hmem⟩ | hmem <;> cases hmem
  · exact absurd hmem (by decide)

/-- What is in front of the signal to the ss thread, which occurs once. -/
theorem before_thread {sig : ℕ} (h : l ++ [.thread sig] <+: script procs) :
    sig = sigint ∧ l = redirectScript ++ (killScript procs (utf8 "clash") ++ sessionScript) := by
  -- no other part of the script signals a thread
  have hsig : sig = sigint := by
    rcases mem_script (h.subset (List.mem_append_right l (List.mem_singleton_self _))) with
      h | ⟨_, h⟩ | h | h | h | h
    · simp [redirectScript] at h
    · cases h
    · cases h
    · simp [sessionScript, setScript] at h
    · cases h
      rfl
    · simp [restoreScript] at h
  subst hsig
  have hscript : script procs = (redirectScript ++ (killScript procs (utf8 "clash") ++
      sessionScript)) ++ .thread sigint :: restoreScript := by
    simp only [script, List.append_assoc]
  rw [hscript] at h
  refine ⟨rfl, eq_of_part h ?_ (by decide +kernel)⟩
  -- and it is not in the parts before
  intro hmem
  rcases List.mem_append.mp hmem with hmem | hmem
  · exact absurd hmem (by decide +kernel)
  rcases List.mem_append.mp hmem with hmem | hmem
  · rcases eq_of_mem_killScript hmem with ⟨_, hmem⟩ | hmem <;> cases hmem
  · exact absurd hmem (by decide)

/-- In no run a process is signalled but those with the name `clash`, each when those before it in
the table are gone, and the child, once. A thread is interrupted once, by `stop_ss`, when the
routes are back. -/
theorem signals_of_main (hs : s.trace = []) :
    (∀ before pidfd cred, before ++ [.call (.pidfdSendSignal pidfd) cred] <+:
        (final ((main env sys out fuel).run s)).trace →
      ∃ pre proc post, out.procs = pre ++ proc :: post ∧ proc.cmd = utf8 "clash" ∧
        holder env before pidfd = some proc.tid ∧
        select (milestone env) [] before = redirectScript ++ killScript pre (utf8 "clash")) ∧
      (∀ before pid cred, before ++ [.call (.kill pid) cred] <+:
          (final ((main env sys out fuel).run s)).trace →
        IsChild env before pid ∧ select (milestone env) [] before =
          redirectScript ++ (killScript out.procs (utf8 "clash") ++
            (.socket :: (setScript ++ [.fork])))) ∧
      ∀ before sig cred, before ++ [.call (.pthreadKill sig) cred] <+:
          (final ((main env sys out fuel).run s)).trace →
        sig = sigint ∧ select (milestone env) [] before =
          redirectScript ++ (killScript out.procs (utf8 "clash") ++ sessionScript) := by
  -- the milestone of an event, behind those before it
  have hsnoc {before : List Event} {e : Event} {m : Milestone}
      (hes : before ++ [e] <+: (final ((main env sys out fuel).run s)).trace)
      (hm : milestone env before e = some m) :
      select (milestone env) [] before ++ [m] <+: script out.procs := by
    have hscript := performs_main.prefix_of_run hs hes
    rw [select_append, select_singleton, List.nil_append, hm] at hscript
    exact hscript
  -- nothing of a run is a signal to anything else
  have hstray {before : List Event} {e : Event}
      (hes : before ++ [e] <+: (final ((main env sys out fuel).run s)).trace) :
      milestone env before e ≠ some .stray := fun hm =>
    stray_notMem_script ((hsnoc hes hm).subset
      (List.mem_append_right _ (List.mem_singleton_self _)))
  refine ⟨?_, ?_, ?_⟩
  · intro before pidfd cred hes
    rcases hholder : holder env before pidfd with _ | tid
    · -- a pidfd that stands for nothing
      have hm : milestone env before (.call (.pidfdSendSignal pidfd) cred) = some .stray := by
        rw [milestone, hholder]
      exact absurd hm (hstray hes)
    · have hm : milestone env before (.call (.pidfdSendSignal pidfd) cred) =
          some (.process tid) := by
        rw [milestone, hholder]
      obtain ⟨pre, proc, post, hprocs, hname, rfl, hl⟩ := before_process (hsnoc hes hm)
      exact ⟨pre, proc, post, hprocs, hname, rfl, hl⟩
  · intro before pid cred hes
    by_cases hchild : IsChild env before pid
    · have hm : milestone env before (.call (.kill pid) cred) = some .child := by
        rw [milestone, if_pos hchild]
      exact ⟨hchild, before_child (hsnoc hes hm)⟩
    · have hm : milestone env before (.call (.kill pid) cred) = some .stray := by
        rw [milestone, if_neg hchild]
      exact absurd hm (hstray hes)
  · intro before sig cred hes
    exact before_thread (hsnoc hes rfl)

/-- `signals_of_main` for a run that returns. -/
theorem signals_of_homeRun :
    (∀ before pidfd cred, before ++ [.call (.pidfdSendSignal pidfd) cred] <+:
        (final (homeRun allowed)).trace →
      ∃ pre proc post, homeOutside.procs = pre ++ proc :: post ∧ proc.cmd = utf8 "clash" ∧
        holder allowed before pidfd = some proc.tid ∧
        select (milestone allowed) [] before = redirectScript ++ killScript pre (utf8 "clash")) ∧
      (∀ before pid cred, before ++ [.call (.kill pid) cred] <+:
          (final (homeRun allowed)).trace →
        IsChild allowed before pid ∧ select (milestone allowed) [] before =
          redirectScript ++ (killScript homeOutside.procs (utf8 "clash") ++
            (.socket :: (setScript ++ [.fork])))) ∧
      ∀ before sig cred, before ++ [.call (.pthreadKill sig) cred] <+:
          (final (homeRun allowed)).trace →
        sig = sigint ∧ select (milestone allowed) [] before =
          redirectScript ++ (killScript homeOutside.procs (utf8 "clash") ++ sessionScript) :=
  signals_of_main rfl

end Runs

end Main
