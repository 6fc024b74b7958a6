import Clash.Tun.Program

/-!
# What a run of main takes back

A run of `main` of clash_tun that returns leaves the links and routes of the kernel as they were,
and closes what it has opened.

## Main definitions

* `Closed`: the process behind `main`.

## Main results

* `projects_session`: between `netlink_init` and `netlink_end`, only `set` and `reset` change the
  kernel.
* `remoteHost_of_prepare`: the profile that is loaded holds a printed address.
* `main_restores`: the kernel and the process behind a run that returns.
-/

open CProg CString Escalated Inet Privilege

namespace Main

variable {κ α ω τ : Type} {env : Env} {sys : Netlink.Sys κ} {out : Outside} {fuel : ℕ}

/-! ## Parts that leave the kernel alone -/

section Spares

variable {g : ω → τ}

theorem spares_call (c : Call) : Spares (fun s => g s.world) (call env c : Prog (Proc ω) ℤ) :=
  fun _ => rfl

theorem spares_mark (e : Event) : Spares (fun s => g s.world) (mark e : Prog (Proc ω) Unit) :=
  fun _ => rfl

theorem spares_seteuid (uid : ℕ) :
    Spares (fun s => g s.world) (seteuid uid : Prog (Proc ω) ℤ) := by
  refine spares_get.bind fun s => (spares_mark _).bind fun _ => Spares.ite ?_ (spares_pure _)
  exact Spares.bind (spares_modify fun _ => rfl) fun _ => spares_pure _

theorem spares_setegid (gid : ℕ) :
    Spares (fun s => g s.world) (setegid gid : Prog (Proc ω) ℤ) := by
  refine spares_get.bind fun s => (spares_mark _).bind fun _ => Spares.ite ?_ (spares_pure _)
  exact Spares.bind (spares_modify fun _ => rfl) fun _ => spares_pure _

theorem spares_privilegeEscalate :
    Spares (fun s => g s.world) (privilegeEscalate : Prog (Proc ω) Unit) := by
  refine (spares_mark _).bind fun _ => spares_get.bind fun _ => (spares_assert _).bind fun _ => ?_
  refine spares_get.bind fun _ => (spares_assert _).bind fun _ => ?_
  refine (spares_seteuid 0).bind fun _ => (spares_assert _).bind fun _ => ?_
  refine (spares_setegid 0).bind fun _ => (spares_assert _).bind fun _ => ?_
  exact spares_mark _

theorem spares_privilegeDrop :
    Spares (fun s => g s.world) (privilegeDrop env : Prog (Proc ω) Unit) := by
  refine (spares_mark _).bind fun _ => spares_get.bind fun _ => (spares_assert _).bind fun _ => ?_
  refine spares_get.bind fun _ => (spares_assert _).bind fun _ => ?_
  rcases env.pw with _ | pw
  · exact spares_throw _
  refine (spares_assert _).bind fun _ => (spares_setegid _).bind fun _ => ?_
  refine (spares_assert _).bind fun _ => (spares_seteuid _).bind fun _ => ?_
  exact (spares_assert _).bind fun _ => spares_mark _

theorem spares_lift {p : Prog ω α} (hp : Spares g p) :
    Spares (fun s => g s.world) (Privilege.lift p) := hp.zoom (fun _ => rfl) fun _ _ => rfl

/-- A bracket leaves alone what the program in it leaves alone. -/
theorem spares_escalated {x : Prog (Proc ω) Unit} (hx : Spares (fun s => g s.world) x) :
    Spares (fun s => g s.world) (escalated env x) :=
   spares_privilegeEscalate.bind fun _ => hx.bind fun _ => spares_privilegeDrop

/-- A call, an assertion on its result, and what comes behind. -/
theorem spares_check (c : Call) (P : ℤ → Prop) [DecidablePred P] {p : Prog (Proc ω) α}
    (hp : Spares (fun s => g s.world) p) :
    Spares (fun s => g s.world) (do
      assert (P (← call env c))
      p) :=
  (spares_call c).bind fun _ => (spares_assert _).bind fun _ => hp

theorem spares_unlinkNofail (f : CString) {g : World κ → τ} :
    Spares (fun s => g s.world) (unlinkNofail env f) := by
  refine (spares_call _).bind fun i => Spares.ite ?_ (spares_pure _)
  exact (spares_assert _).bind fun _ => (spares_call _).bind fun _ => spares_pure _

/-- `kill_sync` changes no memory. -/
theorem spares_killSync (n : ℕ) (procs : List ProcT) (name : CString) {g : World κ → τ} :
    Spares (fun s => g s.world) (killSync env n procs name) := by
  have hpoll (u : Unit) : Spares (fun s => g s.world) (pollBody env u) := by
    refine spares_check .poll (0 ≤ ·) (spares_get.bind fun s => Spares.ite (spares_pure _) ?_)
    exact (spares_call _).bind fun _ => spares_pure _
  have hinterrupt (proc : ProcT) : Spares (fun s => g s.world) (interrupt env n proc) := by
    refine (spares_call _).bind fun pidfd => (spares_assert _).bind fun _ => ?_
    rcases proc.cmdline with _ | cmdline
    · exact spares_throw _
    refine (spares_call _).bind fun _ => spares_check (.pidfdSendSignal pidfd) (· = 0) ?_
    exact (Spares.loop hpoll n ()).bind fun _ => (spares_call _).bind fun _ => spares_pure _
  refine Spares.forM fun proc => Spares.ite ?_ (spares_pure _)
  exact (spares_assert _).bind fun _ => spares_escalated (hinterrupt proc)

/-- The parts about names change no memory but `bus` and `ifi`. -/
theorem spares_redirectNames {g : World κ → τ} (hbus : ∀ w b, g { w with bus := b } = g w)
    (hifi : ∀ w i, g { w with ifi := i } = g w) :
    Spares (fun s => g s.world) (redirectNames env sys) := by
  have hinit : Spares (fun s => g s.world) (busInit env sys) := by
    refine spares_get.bind fun s => Spares.bind ?_ fun _ => (spares_assert _).bind fun _ => ?_
    · exact spares_lift (spares_modify fun w => hifi w _)
    refine spares_check (.unsetenv _) (· = 0) (spares_check (.unsetenv _) (· = 0) ?_)
    refine Spares.bind (spares_escalated ((spares_call _).bind fun r => Spares.bind ?_ fun _ =>
      spares_assert _)) fun _ => spares_get.bind fun s => spares_assert _
    exact spares_lift (spares_modify fun w => hbus w _)
  have hrename : Spares (fun s => g s.world) (renameNew env) :=
    spares_escalated (spares_check _ (· = 0) ((spares_call _).bind fun _ => spares_assert _))
  have hcall {f : Prog (Proc (World κ)) Unit} (hf : Spares (fun s => g s.world) f) :
      Spares (fun s => g s.world) (busCall env f) :=
    (spares_escalated hf).bind fun _ => spares_get.bind fun s => spares_assert _
  refine hinit.bind fun _ => hrename.bind fun _ => ?_
  exact (hcall ((spares_call _).bind fun _ => spares_assert _)).bind fun _ =>
    hcall ((spares_call _).bind fun _ => spares_assert _)

theorem spares_restoreNames {g : World κ → τ} (h : ∀ w b i, g { w with bus := b, ifi := i } = g w) :
    Spares (fun s => g s.world) (restoreNames env) := by
  have hrename : Spares (fun s => g s.world) (renameOld env) :=
    spares_escalated (spares_check _ (· = 0) ((spares_call _).bind fun _ => spares_assert _))
  have hcall {f : Prog (Proc (World κ)) Unit} (hf : Spares (fun s => g s.world) f) :
      Spares (fun s => g s.world) (busCall env f) :=
    (spares_escalated hf).bind fun _ => spares_get.bind fun s => spares_assert _
  have hend : Spares (fun s => g s.world) (busEnd env) := by
    refine Spares.bind (spares_escalated ?_) fun _ => ?_
    · exact (spares_call _).bind fun _ => spares_assert _
    exact spares_lift (spares_modify fun w => h w _ _)
  refine hrename.bind fun _ => Spares.bind (hcall ?_) fun _ => Spares.bind (hcall ?_) fun _ => hend
  · exact (spares_call _).bind fun _ => spares_assert _
  · exact (spares_call _).bind fun _ => spares_assert _

/-- `start_ss` changes `thread` and `status`. -/
theorem spares_startSs {g : Memory κ → τ}
    (h : ∀ m t st, g { m with thread := t, status := st } = g m) :
    Spares (fun s => g s.world) (startSs out) := by
  refine spares_get.bind fun s => (spares_assert _).bind fun _ => ?_
  refine (spares_lift (spares_modify fun m => h m _ _)).bind fun _ => spares_get.bind fun s => ?_
  rcases s.world.status with _ | _ | _
  · exact spares_throw _
  · exact spares_pure _
  · exact spares_pure _

/-- `stop_ss` changes `status`. -/
theorem spares_stopSs {g : Memory κ → τ} (h : ∀ m st, g { m with status := st } = g m) :
    Spares (fun s => g s.world) (stopSs env) := by
  refine spares_get.bind fun s => (spares_assert _).bind fun _ => ?_
  refine (spares_lift (spares_modify fun m => h m _)).bind fun _ => ?_
  exact spares_check (.pthreadKill sigint) (· = 0) ((spares_call _).bind fun _ => spares_pure _)

end Spares

/-! ## The session -/

section Session

variable (env sys) (remoteHost : CString)

/-- Between `netlink_init` and `netlink_end`, only `set` and `reset` change the kernel. -/
theorem projects_session :
    Projects net (session env sys remoteHost) (do
      ClashTun.set sys remoteHost
      ClashTun.reset sys remoteHost) := by
  have hcall (c : Call) : Spares net (call env c : Prog (Proc (World κ)) ℤ) :=
    spares_call (g := World.net) c
  have hinit : Spares net (netlinkInit env : Prog (Proc (World κ)) Unit) := by
    refine Spares.bind (spares_escalated (g := World.net) ?_) fun _ =>
      (hcall .bind).bind fun _ => spares_assert _
    refine (spares_call _).bind fun fd => Spares.bind ?_ fun _ => spares_assert _
    exact Spares.zoom (spares_modify fun _ => rfl) (fun _ => rfl) fun _ _ => rfl
  have hend : Spares net (netlinkEnd env : Prog (Proc (World κ)) Unit) := by
    refine spares_check (g := World.net) .close (· = 0) ?_
    exact Spares.zoom (spares_modify fun _ => rfl) (fun _ => rfl) fun _ _ => rfl
  have hfork : Spares net (startTun2socks env : Prog (Proc (World κ)) ℤ) := by
    refine (hcall .fork).bind fun pid => spares_get.bind fun s => (spares_assert _).bind fun _ => ?_
    exact (spares_assert _).bind fun _ => (hcall .printf).bind fun _ => spares_pure _
  have hread : Spares net (readR env : Prog (Proc (World κ)) Unit) :=
    (hcall .printf).bind fun _ => (hcall .fgets).bind fun _ => spares_assert _
  have hkill (pid : ℤ) : Spares net (killTun2socks env pid : Prog (Proc (World κ)) Unit) :=
    spares_escalated (g := World.net) ((spares_call _).bind fun _ => spares_assert _)
  -- everything but `set` and `reset` is passed over
  refine Projects.skip hinit.of_ok fun _ => (projects_set env sys remoteHost).bind fun _ => ?_
  refine Projects.skip (spares_unlinkNofail (g := World.net) _).of_ok fun _ => ?_
  refine Projects.skip (hcall _).of_ok fun _ => Projects.skip hfork.of_ok fun pid => ?_
  refine Projects.skip (hcall _).of_ok fun _ => Projects.skip hread.of_ok fun _ => ?_
  refine Projects.skip (hcall _).of_ok fun _ => Projects.skip (hkill pid).of_ok fun _ => ?_
  exact (projects_reset env sys remoteHost).skip_last hend.of_ok

end Session

/-! ## The profile -/

/-- The profile has a printed address. -/
def HasAddress (p : ProfileJson.ProfileT) : Prop := ∃ x : InAddr, p.remoteHost = some (ntop4 x)

section Profile

/-- The profile of the process. -/
def profile (s : Proc (Memory κ)) : ProfileJson.ProfileT := s.world.files.profile

theorem spares_onWorld (p : Prog (Proc (World κ)) α) : Spares profile (onWorld p) := by
  apply spares_zoom
  intro t s
  rfl

/-- `unlink_nofail` and `profile_to_json` leave the profile as it is. -/
theorem spares_writeProfile (o : FileSystem.Outcomes CString)
    (text : ProfileJson.JsonObject → CString) (title : Option CString) :
    Spares SsLocal.World.profile (SsLocal.writeProfile o text title) := by
  have hunlink : Spares SsLocal.World.profile (SsLocal.unlinkNofail o SsLocal.ssLocalJson) := by
    intro w
    rw [SsLocal.run_unlinkNofail, final_ok]
    split <;> rfl
  have hfprintf (f : ℕ) (s : CString) : Spares SsLocal.World.profile (SsLocal.fprintf o f s) :=
    spares_modify fun _ => rfl
  have hcreate (text : CString) :
      Spares SsLocal.World.profile (SsLocal.jsonObjectToFileExt o text) := by
    intro w
    rw [SsLocal.jsonObjectToFileExt, EStateM.run_bind, EStateM.run_get]
    dsimp only
    split <;> rfl
  have hopen : Spares SsLocal.World.profile (SsLocal.fopen o) := by
    intro w
    rw [SsLocal.fopen, EStateM.run_bind, EStateM.run_get]
    dsimp only
    split <;> rfl
  -- no call on a file touches the profile
  refine hunlink.bind fun _ => Spares.bind ?_ fun root => ?_
  · exact inert_jsonRoot.spares.zoom (fun _ => rfl) fun _ _ => rfl
  refine (hcreate _).bind fun _ => (spares_assert _).bind fun _ => hopen.bind fun f => ?_
  rcases f with _ | f
  · exact spares_throw _
  refine (hfprintf _ _).bind fun _ => ?_
  rcases title with _ | title
  · exact spares_pure _
  · exact (spares_assert _).bind fun _ => hfprintf _ _

theorem spares_onFiles {p : Prog SsLocal.World α} (hp : Spares SsLocal.World.profile p) :
    Spares (profile : Proc (Memory κ) → ProfileJson.ProfileT) (onFiles p) :=
  Spares.zoom (hp.zoom (fun _ => rfl) fun _ _ => rfl :
    Spares (fun m : Memory κ => m.files.profile) _) (fun _ => rfl) fun _ _ => rfl

theorem spares_profileLoaded : Spares profile (profileLoaded : Prog (Proc (Memory κ)) Bool) :=
  spares_onFiles (inert_profileLoaded.spares.zoom (fun _ => rfl) fun _ _ => rfl)

/-- The ss thread starts with the profile that was loaded. -/
theorem spares_startShadowsocks :
    Spares profile (startShadowsocks env out fuel : Prog (Proc (Memory κ)) Unit) := by
  have hstart : Spares profile (startSs out : Prog (Proc (Memory κ)) Bool) :=
    spares_startSs (g := fun m => m.files.profile) fun _ _ _ => rfl
  refine (spares_onWorld _).bind fun _ => spares_profileLoaded.bind fun _ => ?_
  refine (spares_assert _).bind fun _ => (spares_onWorld _).bind fun _ => ?_
  exact hstart.bind fun _ => spares_assert _

/-- The profile stays as it is behind `prepare`. -/
theorem profile_of_main {s s' : Proc (Memory κ)} (h : (main env sys out fuel).run s = .ok () s') :
    ∃ s₁, (prepare env out fuel).run s = .ok () s₁ ∧ profile s' = profile s₁ := by
  have htunnel : Spares profile (tunnel env sys) := by
    refine spares_get.bind fun t => Spares.bind ?_ fun _ => spares_onWorld _
    rcases t.world.files.profile.remoteHost with _ | remoteHost
    · exact spares_throw _
    · exact spares_pure _
  have hstop : Spares profile (stopSs env : Prog (Proc (Memory κ)) Unit) :=
    spares_stopSs (g := fun m => m.files.profile) fun _ _ => rfl
  obtain ⟨_, s₁, hprepare, hrest⟩ := run_bind_eq_ok.mp h
  refine ⟨s₁, hprepare, Spares.of_ok ?_ _ _ _ hrest⟩
  refine (spares_onWorld _).bind fun _ => spares_startShadowsocks.bind fun _ => ?_
  exact htunnel.bind fun _ => hstop.bind fun _ => spares_onWorld _

/-- `main` tunnels to the address that it has found for its node. -/
theorem hasAddress_of_prepare {s s' : Proc (Memory κ)}
    (h : (prepare env out fuel).run s = .ok () s') : HasAddress (profile s') := by
  -- `yaml2profile` returns what `resolv` has returned
  have hload (name : CString) : Triple (fun _ => True)
      (loadProfile out fuel name : Prog (Proc (Memory κ)) Unit)
      (fun _ s => HasAddress (profile s)) (fun _ => True) := by
    intro s _
    cases hrun : (loadProfile out fuel name : Prog (Proc (Memory κ)) Unit).run s with
    | error e s' => exact trivial
    | ok a s' =>
      obtain ⟨p, s₁, hyaml, hset⟩ := run_bind_eq_ok.mp hrun
      obtain ⟨_, hyaml, -⟩ := run_zoom_eq_ok.mp hyaml
      obtain ⟨n, -, hhost, -⟩ := Yaml2Profile.node_of_run_yaml2profile hyaml
      obtain ⟨x, hx⟩ := Resolv.resolv_eq_some hhost
      cases hset
      exact ⟨x, congrArg some hx⟩
  have hnode : Triple (fun _ => True) (loadNode env out fuel : Prog (Proc (Memory κ)) CString)
      (fun _ s => HasAddress (profile s)) (fun _ => True) := by
    refine Triple.skip fun _ => Triple.skip fun _ => Triple.skip fun _ => Triple.skip fun _ => ?_
    refine Triple.skip fun name => Triple.skip fun _ => Triple.skip fun _ => Triple.skip fun _ => ?_
    refine (hload name).bind fun _ => ?_
    exact Spares.keeps (spares_profileLoaded.bind fun _ => (spares_assert _).bind fun _ =>
      spares_pure _) HasAddress fun _ _ => trivial
  -- writing the file does not change it
  have hprepare : Triple (fun _ => True) (prepare env out fuel : Prog (Proc (Memory κ)) Unit)
      (fun _ s => HasAddress (profile s)) (fun _ => True) :=
    hnode.bind fun _ => (spares_onFiles (spares_writeProfile _ _ _)).keeps HasAddress
      fun _ _ => trivial
  exact hprepare.of_ok trivial h

end Profile

/-! ## The kernel -/

/-- What `netlink.c` reads and writes, with the kernel. -/
def netOf (s : Proc (Memory κ)) : Netlink.Net κ := s.world.world.net

section Net

theorem spares_net_call (c : Call) : Spares netOf (call env c : Prog (Proc (Memory κ)) ℤ) :=
  spares_call (g := fun m : Memory κ => m.world.net) c

theorem spares_net_onFiles (p : Prog SsLocal.World α) :
    Spares (netOf : Proc (Memory κ) → Netlink.Net κ) (onFiles p) := by
  apply spares_lift (g := fun m : Memory κ => m.world.net)
  apply spares_zoom
  intro files m
  rfl

theorem spares_net_onWorld {p : Prog (Proc (World κ)) α} (hp : Spares net p) :
    Spares netOf (onWorld p) := hp.zoom (fun _ => rfl) fun _ _ => rfl

theorem spares_net_prepare :
    Spares netOf (prepare env out fuel : Prog (Proc (Memory κ)) Unit) := by
  have hload (name : CString) :
      Spares netOf (loadProfile out fuel name : Prog (Proc (Memory κ)) Unit) := by
    refine Spares.bind (spares_zoom ?_ _) fun p => spares_net_onFiles _
    intro t s
    rfl
  have hdrop : Spares netOf (privilegeDrop env : Prog (Proc (Memory κ)) Unit) :=
    spares_privilegeDrop (g := fun m : Memory κ => m.world.net)
  refine Spares.bind ?_ fun name => spares_net_onFiles _
  refine (spares_net_call _).bind fun _ => (spares_assert _).bind fun _ => hdrop.bind fun _ => ?_
  refine (spares_assert _).bind fun _ => (inert_now _).spares.bind fun name => ?_
  refine (spares_net_call _).bind fun _ => (spares_net_onFiles _).bind fun _ => ?_
  refine (spares_assert _).bind fun _ => (hload name).bind fun _ => ?_
  exact (spares_net_onFiles _).bind fun _ => (spares_assert _).bind fun _ => spares_pure _

theorem spares_net_startShadowsocks :
    Spares netOf (startShadowsocks env out fuel : Prog (Proc (Memory κ)) Unit) := by
  have hstart : Spares netOf (startSs out : Prog (Proc (Memory κ)) Bool) :=
    spares_startSs (g := fun m => m.world.net) fun _ _ _ => rfl
  refine (spares_net_onWorld (spares_killSync (g := World.net) _ _ _)).bind fun _ => ?_
  refine (spares_net_onFiles _).bind fun _ => (spares_assert _).bind fun _ => ?_
  refine (spares_net_onWorld (spares_unlinkNofail (g := World.net) _)).bind fun _ => ?_
  exact hstart.bind fun _ => spares_assert _

end Net

/-! ## main -/

/-- What is open in the process behind `main`: nothing. -/
structure Closed (s : Proc (Memory κ)) : Prop where
  netlinkfd : s.world.world.netlinkfd = -1
  bus : s.world.world.bus = false
  ifi : s.world.world.ifi = 0
  status : s.world.status = .down
  ids : s.cred.uid.effective = 1000 ∧ s.cred.gid.effective = 1000

/-- The last part about names closes the bus, and leaves the sockets and the kernel alone. -/
theorem restoreNames_closes {s s' : Proc (World κ)}
    (h : (restoreNames env).run s = .ok () s') :
    s'.world.bus = false ∧ s'.world.ifi = 0 ∧ s'.world.net = s.world.net ∧
      s'.world.netlinkfd = s.world.netlinkfd ∧ s'.cred.uid.effective = 1000 ∧
      s'.cred.gid.effective = 1000 := by
  have hcall {f : Prog (Proc (World κ)) Unit} (hf : Spares Proc.world f) :
      Spares Proc.world (busCall env f) :=
    (spares_escalated (g := id) hf).bind fun _ => spares_get.bind fun s => spares_assert _
  have hrename : Spares Proc.world (renameOld env : Prog (Proc (World κ)) Unit) :=
    spares_escalated (g := id)
      (spares_check (g := id) _ (· = 0) ((spares_call _).bind fun _ => spares_assert _))
  obtain ⟨_, s₁, h₁, h⟩ := run_bind_eq_ok.mp h
  obtain ⟨_, s₂, h₂, h⟩ := run_bind_eq_ok.mp h
  obtain ⟨_, s₃, h₃, h⟩ := run_bind_eq_ok.mp h
  have hworld : s₃.world = s.world := by
    rw [(hcall ((spares_call (g := id) _).bind fun _ => spares_assert _)).of_ok _ _ _ h₃,
      (hcall ((spares_call (g := id) _).bind fun _ => spares_assert _)).of_ok _ _ _ h₂,
      hrename.of_ok _ _ _ h₁]
  -- `bus_end` ends with a `privilege_drop`, and then clears its variables
  obtain ⟨_, s₄, h₄, hclear⟩ := run_bind_eq_ok.mp h
  have hclose : Spares Proc.world (escalated env do
      assert ((← call env .busFlushCloseUnref) = 0) : Prog (Proc (World κ)) Unit) :=
    spares_escalated (g := id) ((spares_call _).bind fun _ => spares_assert _)
  have hworld₄ : s₄.world = s₃.world := hclose.of_ok _ _ _ h₄
  have hnet : s₄.world.net = s.world.net := by rw [hworld₄, hworld]
  have hfd : s₄.world.netlinkfd = s.world.netlinkfd := by rw [hworld₄, hworld]
  obtain ⟨_, s₅, -, h₅⟩ := run_bind_eq_ok.mp h₄
  obtain ⟨_, s₆, -, hdrop⟩ := run_bind_eq_ok.mp h₅
  obtain ⟨-, rfl, -⟩ := eq_of_run_privilegeDrop hdrop
  cases hclear
  exact ⟨rfl, rfl, hnet, hfd, rfl, rfl⟩

/-- A session closes its socket. -/
theorem netlinkfd_of_session {remoteHost : CString} {s s' : Proc (World κ)}
    (h : (session env sys remoteHost).run s = .ok () s') : s'.world.netlinkfd = -1 := by
  have hend : Triple (fun _ => True) (netlinkEnd env : Prog (Proc (World κ)) Unit)
      (fun _ s => s.world.netlinkfd = -1) (fun _ => True) := by
    refine Triple.skip fun r => Triple.skip fun _ => ?_
    intro s _
    exact rfl
  have hsession : Triple (fun _ => True) (session env sys remoteHost)
      (fun _ s => s.world.netlinkfd = -1) (fun _ => True) := by
    refine Triple.skip fun _ => Triple.skip fun _ => Triple.skip fun _ => Triple.skip fun _ => ?_
    refine Triple.skip fun _ => Triple.skip fun _ => Triple.skip fun _ => Triple.skip fun _ => ?_
    exact Triple.skip fun _ => Triple.skip fun _ => hend
  exact hsession.of_ok trivial h

section Kernel

open Kernel

variable {pol : Policy} {s s' : Proc (Memory State)}

/-- A run of `main` that returns has tunnelled to the address of its node, has closed all that it
has opened, and has the ids of the user. From a settled kernel, with an empty socket and with the
default route where `netlink_get_gateway` reaches it, `set` has redirected that route, and the links
and the main table are put back. -/
theorem main_restores (hrun : (main env (Kernel.sys pol) out fuel).run s = .ok () s') :
    ∃ remote : InAddr, (profile s').remoteHost = some (ntop4 remote) ∧ Closed s' ∧
      ∀ gw index d others, Netlink.Idle (netOf s) → Clear pol (netOf s) →
        Settled pol gw remote index (netOf s).kernel d others →
        ∃ w, (ClashTun.set (Kernel.sys pol) (ntop4 remote)).run (netOf s) = .ok () w ∧
          w.gw = ntop4 gw ∧ Redirected gw remote w.kernel ∧
          Restored (netOf s).kernel w.kernel (netOf s').kernel := by
  obtain ⟨_, s₁, hprepare, hrun⟩ := run_bind_eq_ok.mp hrun
  obtain ⟨_, s₂, hredirect, hrun⟩ := run_bind_eq_ok.mp hrun
  obtain ⟨_, s₃, hstart, hrun⟩ := run_bind_eq_ok.mp hrun
  obtain ⟨_, s₄, htunnel, hrun⟩ := run_bind_eq_ok.mp hrun
  obtain ⟨_, s₅, hstop, hrestore⟩ := run_bind_eq_ok.mp hrun
  -- the last part about names
  obtain ⟨t, hnames, rfl⟩ := run_zoom_eq_ok.mp hrestore
  obtain ⟨hbus, hifi, hnet, hfd, hids⟩ := restoreNames_closes hnames
  dsimp only at hnet hfd
  -- the session in the middle
  obtain ⟨_, _, hget, hbody⟩ := run_bind_eq_ok.mp htunnel
  cases hget
  obtain ⟨remoteHost, _, hderef, hbody⟩ := run_bind_eq_ok.mp hbody
  obtain ⟨x, hx⟩ : HasAddress (profile s₃) := by
    rw [spares_startShadowsocks.of_ok _ _ _ hstart, (spares_onWorld _).of_ok _ _ _ hredirect]
    exact hasAddress_of_prepare hprepare
  change (ProfileJson.deref (profile s₃).remoteHost).run s₃ = _ at hderef
  rw [hx] at hderef
  cases hderef
  obtain ⟨t', hsession, rfl⟩ := run_zoom_eq_ok.mp hbody
  have hstatus : s₅.world.status = .down := by
    obtain ⟨_, _, hget, hstop⟩ := run_bind_eq_ok.mp hstop
    cases hget
    obtain ⟨_, _, hassert, hstop⟩ := run_bind_eq_ok.mp hstop
    obtain ⟨-, rfl⟩ := run_assert_eq_ok.mp hassert
    obtain ⟨_, s₄', hlift, hstop⟩ := run_bind_eq_ok.mp hstop
    obtain ⟨m, hmodify, rfl⟩ := run_zoom_eq_ok.mp hlift
    cases hmodify
    obtain ⟨_, _, hkill, hstop⟩ := run_bind_eq_ok.mp hstop
    obtain ⟨_, _, hassert, hstop⟩ := run_bind_eq_ok.mp hstop
    obtain ⟨-, rfl⟩ := run_assert_eq_ok.mp hassert
    obtain ⟨_, _, hcall, hstop⟩ := run_bind_eq_ok.mp hstop
    cases hstop
    rw [world_of_run_call hcall, world_of_run_call hkill]
  have hstopped : s₅.world.world = t'.world :=
    (spares_stopSs (g := fun m => m.world) fun _ _ => rfl).of_ok _ _ _ hstop
  have hkernel : netOf s₃ = netOf s := by
    rw [spares_net_startShadowsocks.of_ok _ _ _ hstart,
      (spares_net_onWorld (spares_redirectNames (fun _ _ => rfl) fun _ _ => rfl)).of_ok _ _ _
        hredirect,
      spares_net_prepare.of_ok _ _ _ hprepare]
  have hsetReset := projects_session env (Kernel.sys pol) (ntop4 x) _ _ _ hsession
  rw [hstopped] at hnet hfd
  have hprofile := (spares_stopSs (g := fun m => m.files.profile) fun _ _ => rfl).of_ok _ _ _ hstop
  refine ⟨x, ?_, ⟨?_, hbus, hifi, hstatus, hids⟩, ?_⟩
  · exact (congrArg ProfileJson.ProfileT.remoteHost hprofile).trans hx
  · exact hfd.trans (netlinkfd_of_session hsession)
  · intro gw index d others hidle hclear hsettled
    obtain ⟨w₁, w₂, hset, hreset, hgw, hduring, -, hlinks, hnext⟩ :=
      run_session hidle hsettled (pton4_ntop4 x) hclear
    -- the session of the run is this one
    have hrun₂ : (do
        ClashTun.set (sys pol) (ntop4 x)
        ClashTun.reset (sys pol) (ntop4 x)).run (netOf s) = .ok () w₂ :=
      run_bind_eq_ok.mpr ⟨(), w₁, hset, hreset⟩
    have hw₂ : t'.world.net = w₂ := by
      have hsame : (do
          ClashTun.set (sys pol) (ntop4 x)
          ClashTun.reset (sys pol) (ntop4 x)).run (netOf s) = .ok () t'.world.net := by
        rw [← hkernel]
        exact hsetReset
      rw [hrun₂] at hsame
      cases hsame
      rfl
    have hrestored := hduring.restored hsettled hsettled hlinks hnext
    rw [← hw₂, ← hnet] at hrestored
    exact ⟨w₁, hset, hgw, hduring.redirected hsettled, hrestored⟩

/-- `main_restores` on a host in a home network. -/
theorem main_restores_home :
    ∃ s', homeRun allowed = .ok () s' ∧
      (profile s').remoteHost = some (ntop4 ⟨203, 0, 113, 7⟩) ∧ Closed s' ∧
      ∃ w, (ClashTun.set (Kernel.sys linux) (ntop4 ⟨203, 0, 113, 7⟩)).run
          (Kernel.home [dhcpRoute, lanRoute]) = .ok () w ∧
        w.gw = ntop4 ⟨192, 168, 1, 1⟩ ∧
        Redirected ⟨192, 168, 1, 1⟩ ⟨203, 0, 113, 7⟩ w.kernel ∧
        Restored (Kernel.home [dhcpRoute, lanRoute]).kernel w.kernel (netOf s').kernel := by
  have hrun := eq_ok_of_returned returned_homeRun
  have hclear : Clear linux (Kernel.home [dhcpRoute, lanRoute]) := by decide +kernel
  obtain ⟨remote, hremote, hclosed, hsession⟩ := main_restores hrun
  -- the profile is the one behind `prepare`
  obtain ⟨s₁, hprepare, hprofile⟩ := profile_of_main hrun
  have hready : s₁ = homeReady allowed [dhcpRoute, lanRoute] := by
    rw [run_prepare_home (run_loadNode_home _)] at hprepare
    cases hprepare
    rfl
  have hloaded : some (ntop4 remote) = some (ntop4 ⟨203, 0, 113, 7⟩) := by
    rw [← hremote, hprofile, hready]
    decide +kernel
  obtain rfl : remote = ⟨203, 0, 113, 7⟩ := by
    have hread := congrArg (Option.bind · pton4) hloaded
    rwa [Option.bind_some, Option.bind_some, pton4_ntop4, pton4_ntop4, Option.some.injEq] at hread
  obtain ⟨w, hset⟩ := hsession _ _ _ _ (idle_home _) hclear (settled_home (.refl _))
  exact ⟨_, hrun, hremote, hclosed, w, hset⟩

end Kernel

end Main
