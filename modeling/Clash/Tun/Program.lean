import Clash.Profile.Accepted
import Clash.Profile.File
import Clash.Restful.Selection
import Clash.Tun.Brackets
import Clash.Tun.Sessions
import Clash.Tun.Threads

/-!
# main of clash_tun

The whole of `main`: ask Clash for the node, load its profile, and redirect names, connections and
routes one after the other, and back in the opposite order.

What the threads of `start_ss` and `stop_ss` do to each other is `Threads`. Here the ss thread
either comes up or fails, and the main thread finds the status that it has left.

## Main definitions

* `Memory`: the memory of the process behind `main`.
* `Outside`: what `main` finds besides the answers to its system calls.
* `main`: the whole function.
-/

open CProg CString Escalated Privilege

namespace Main

/-- The memory of the process. -/
structure Memory (κ : Type) where
  world : Escalated.World κ
  /-- The files, `errno` and `profile`. -/
  files : SsLocal.World
  /-- `thread` of shadowsocks2.c is not 0. -/
  thread : Bool
  /-- `status` of status.c. -/
  status : Threads.Status

/-- What `main` finds. -/
structure Outside where
  curlGlobalInit : ℤ
  argc : ℕ
  /-- The RESTful API. -/
  http : CString → Option Restful.JsonObject
  getaddrinfo : CString → Option (List Resolv.Addrinfo)
  /-- The tokens of `YAML_PATH`. -/
  config : Yaml.Scanner
  outcomes : FileSystem.Outcomes CString
  /-- The text that `json_object_to_file_ext` writes. -/
  text : ProfileJson.JsonObject → CString
  /-- What `readproctab` returns. -/
  procs : List ProcT
  /-- The library calls `callback`, and does not return -1. -/
  callback : Bool

variable {κ α : Type}

/-- A program on the memory behind the operations. -/
def onWorld (p : Prog (Proc (World κ)) α) : Prog (Proc (Memory κ)) α :=
  zoom (fun s => ⟨s.cred, s.trace, s.world.world⟩)
    (fun t s => ⟨t.cred, t.trace, { s.world with world := t.world }⟩) p

/-- A program on the files. -/
def onFiles (p : Prog SsLocal.World α) : Prog (Proc (Memory κ)) α :=
  lift (zoom Memory.files (fun files m => { m with files }) p)

theorem run_onFiles_of_ok {p : Prog SsLocal.World α} {s : Proc (Memory κ)} {a : α}
    {files : SsLocal.World} (h : p.run s.world.files = .ok a files) :
    (onFiles p).run s = .ok a { s with world := { s.world with files } } :=
  run_zoom_of_ok (run_zoom_of_ok h)

/-- `profile_loaded`. -/
def profileLoaded : Prog (Proc (Memory κ)) Bool :=
  onFiles (zoom (fun w => ⟨w.profile, none⟩) (fun s w => { w with profile := s.profile })
    ProfileJson.profileLoaded)

variable (env : Env) (sys : Netlink.Sys κ) (out : Outside) (fuel : ℕ)

/-- `yaml2profile(true,&profile,YAML_PATH,name)`. The parser starts anew. -/
def loadProfile (name : CString) : Prog (Proc (Memory κ)) Unit := do
  let p ← zoom (fun _ => out.config) (fun _ s => s)
    (Yaml2Profile.yaml2profile (Resolv.resolv out.getaddrinfo) fuel true name)
  onFiles (modify fun w => { w with profile :=
    { w.profile with remoteHost := some p.remoteHost, method := some p.method,
                     password := some p.password, remotePort := p.remotePort } })

/-- `start_ss`. -/
def startSs : Prog (Proc (Memory κ)) Bool := do
  assert ((← get).world.thread = false)
  lift (modify fun m => { m with thread := true, status := if out.callback then .up else .fail })
  match (← get).world.status with
  | .up => return true
  | .fail => return false
  | .down => throw .assertion

/-- `SIGINT`. -/
def sigint : ℕ := 2

/-- `stop_ss`. The status is DOWN before the ss thread is interrupted. -/
def stopSs : Prog (Proc (Memory κ)) Unit := do
  assert ((← get).world.status = .up)
  lift (modify fun m => { m with status := .down })
  assert ((← call env (.pthreadKill sigint)) = 0)
  let _ ← call env .printf

/-- `main` up to the profile of the node that is in use. -/
def loadNode : Prog (Proc (Memory κ)) CString := do
  let _ ← call env .printf
  assert (out.curlGlobalInit = 0)
  privilegeDrop env
  assert (out.argc = 1)
  let name ← Restful.now out.http
  let _ ← call env .printf
  assert ((← profileLoaded) = false)
  loadProfile out fuel name
  assert ((← profileLoaded) = true)
  return name

/-- `main` up to the profile that is loaded and written for `ss-local`. -/
def prepare : Prog (Proc (Memory κ)) Unit := do
  let name ← loadNode env out fuel
  onFiles (SsLocal.writeProfile out.outcomes out.text (some name))

/-- The first part about names. -/
def redirectNames : Prog (Proc (World κ)) Unit := do
  busInit env sys
  renameNew env
  busCall env (resolvedRestartservice env)
  busCall env (resolvedFlushcache env)

/-- The last part about names. -/
def restoreNames : Prog (Proc (World κ)) Unit := do
  renameOld env
  busCall env (resolvedRestartservice env)
  busCall env (resolvedFlushcache env)
  busEnd env

/-- The first part about Shadowsocks. -/
def startShadowsocks : Prog (Proc (Memory κ)) Unit := do
  onWorld (killSync env fuel out.procs (utf8 "clash"))
  assert ((← profileLoaded) = true)
  onWorld (unlinkNofail env ProfileJson.ssLog)
  assert ((← startSs out) = true)

/-- The parts about the TUN device and the routes. `set` and `reset` read `profile.remote_host`. -/
def tunnel : Prog (Proc (Memory κ)) Unit := do
  let p := (← get).world.files.profile
  let remoteHost ← ProfileJson.deref p.remoteHost
  onWorld (session env sys remoteHost)

/-- `main`. -/
def main : Prog (Proc (Memory κ)) Unit := do
  prepare env out fuel
  onWorld (redirectNames env sys)
  startShadowsocks env out fuel
  tunnel env sys
  stopSs env
  onWorld (restoreNames env)

/-! ## Parts that only read -/

section Inert

variable {σ : Type}

theorem inert_fieldStringGet (j : Restful.JsonObject) (k : CString) :
    Inert (Restful.fieldStringGet j k : Prog σ CString) := by
  unfold Restful.fieldStringGet
  split
  · exact (inert_assert _).bind fun _ => inert_pure _
  · exact inert_throw _

theorem inert_fieldStringAssert (j : Restful.JsonObject) (k v : CString) :
    Inert (Restful.fieldStringAssert j k v : Prog σ Unit) :=
  (inert_fieldStringGet j k).bind fun _ => inert_assert _

theorem inert_urlOf (s : Option CString) : Inert (Restful.urlOf s : Prog σ CString) := by
  cases s with
  | none => exact inert_pure _
  | some s => exact (inert_assert _).bind fun _ => inert_pure _

theorem inert_objectAt (http : CString → Option Restful.JsonObject) (url : CString) :
    Inert (Restful.objectAt http url : Prog σ Restful.JsonObject) := by
  unfold Restful.objectAt
  split
  · exact inert_pure _
  · exact inert_throw _

theorem inert_jsonGet (http : CString → Option Restful.JsonObject) (s : Option CString) :
    Inert (Restful.jsonGet http s : Prog σ Restful.JsonObject) :=
  (inert_urlOf s).bind fun url => inert_objectAt http url

/-- `now` leaves the process alone. -/
theorem inert_now (http : CString → Option Restful.JsonObject) :
    Inert (Restful.now http : Prog σ CString) := by
  refine (inert_jsonGet http none).bind fun j => ?_
  refine (inert_fieldStringAssert j _ _).bind fun _ => ?_
  refine (inert_fieldStringAssert j _ _).bind fun _ => ?_
  refine (inert_fieldStringGet j _).bind fun s => (inert_jsonGet http _).bind fun j => ?_
  refine (inert_fieldStringAssert j _ _).bind fun _ => ?_
  refine (inert_fieldStringGet j _).bind fun type => Inert.ite ?_ (inert_pure _)
  -- the selected name is that of a group
  refine (inert_fieldStringAssert j _ _).bind fun _ => ?_
  refine (inert_fieldStringGet j _).bind fun s => (inert_jsonGet http _).bind fun j => ?_
  refine (inert_fieldStringAssert j _ _).bind fun _ => ?_
  exact (inert_fieldStringAssert j _ _).bind fun _ => inert_pure _

theorem inert_profileLoaded : Inert ProfileJson.profileLoaded := by
  refine inert_get.bind fun s => (inert_assert _).bind fun _ => ?_
  rcases s.profile.remoteHost with _ | host
  · exact (inert_assert _).bind fun _ => inert_pure _
  · exact (inert_assert _).bind fun _ => inert_pure _

/-- What `profile_to_json` builds leaves the profile as it is. -/
theorem inert_jsonRoot : Inert ProfileJson.jsonRoot := by
  have hmatch (string regex : CString) :
      Inert (ProfileJson.matchString string regex : Prog ProfileJson.State Unit) := by
    unfold ProfileJson.matchString
    split
    · exact inert_throw _
    split
    · exact inert_throw _
    · exact inert_assert _
  have happend (root : ProfileJson.JsonObject) (k v : CString) :
      Inert (ProfileJson.appendjson root k v : Prog ProfileJson.State ProfileJson.JsonObject) :=
    (hmatch _ _).bind fun _ => (hmatch _ _).bind fun _ => inert_pure _
  have hderef (v : Option CString) :
      Inert (ProfileJson.deref v : Prog ProfileJson.State CString) := by
    cases v with
    | none => exact inert_throw _
    | some v => exact inert_pure v
  have hstrcpy (size : ℕ) (src : CString) :
      Inert (strcpy size src : Prog ProfileJson.State CString) :=
    Inert.ite (inert_pure _) (inert_throw _)
  -- one `appendjson` after the other
  refine inert_profileLoaded.bind fun _ => (inert_assert _).bind fun _ => ?_
  refine inert_get.bind fun s => (hstrcpy _ _).bind fun port => ?_
  refine (hderef _).bind fun _ => (happend _ _ _).bind fun root => ?_
  refine (happend _ _ _).bind fun root => ?_
  refine (hderef _).bind fun _ => (happend _ _ _).bind fun root => ?_
  refine (happend _ _ _).bind fun root => ?_
  refine (hderef _).bind fun _ => (happend _ _ _).bind fun root => ?_
  refine (hderef _).bind fun _ => (happend _ _ _).bind fun root => ?_
  refine (happend _ _ _).bind fun root => (inert_assert _).bind fun _ => ?_
  exact (happend _ _ _).bind fun root => (inert_assert _).bind fun _ => inert_pure _

end Inert

/-! ## A host in a home network -/

/-- A configuration with one node, which is in use, and two processes, one of them Clash. -/
def homeOutside : Outside where
  curlGlobalInit := 0
  argc := 1
  http url :=
    if url = Restful.proxiesUrl ++ utf8 "GLOBAL" then
      some (Restful.selectorObject (utf8 "GLOBAL") (utf8 "hk"))
    else some (Restful.nodeObject (utf8 "hk"))
  getaddrinfo := ProfileJson.sampleAddrinfo
  config := ProfileJson.sampleScanner ProfileJson.sampleNode
  outcomes := SsLocal.stickyDirectory
  text := SsLocal.prettyText
  procs := [⟨7, 7, 7, 7, utf8 "clash", some (utf8 "clash")⟩, ⟨8, 8, 8, 8, utf8 "sh", none⟩]
  callback := true

/-- A directory without files, and a profile that is not loaded. -/
def homeFiles : SsLocal.World where
  fs := { inodes := [], names := fun _ => none, names_lt := fun _ _ => nofun }
  errno := 0
  profile := .static

/-- The process at its start, with the routes of the kernel. -/
def homeStart (routes : List Kernel.Route) : Proc (Memory Kernel.State) where
  cred := .root
  trace := []
  world :=
    { world := { net := Kernel.home routes, netlinkfd := -1, bus := false, ifi := 0 }
      files := homeFiles
      thread := false
      status := .down }

/-- A run on this host, with the answers of the system calls. -/
def homeRun (env : Env) : EStateM.Result Stop (Proc (Memory Kernel.State)) Unit :=
  (main env (Kernel.sys Kernel.linux) homeOutside 8).run
    (homeStart [Kernel.dhcpRoute, Kernel.lanRoute])

/-- The files with the profile of the node. -/
def homeLoaded : SsLocal.World :=
  { homeFiles with
    profile :=
      .loaded (utf8 "203.0.113.7") (utf8 "aes-256-gcm") (utf8 "ItuYNH19tMHEBnAuGSwn") 8443 }

/-- The object for the node. -/
def homeRoot : ProfileJson.JsonObject :=
  ProfileJson.jsonOf (utf8 "203.0.113.7") (utf8 "aes-256-gcm") (utf8 "ItuYNH19tMHEBnAuGSwn") 8443

/-- The profile is written for `ss-local`, over no file. -/
def homeWriting : EStateM.Result Stop SsLocal.World Unit :=
  (SsLocal.writeObject SsLocal.stickyDirectory (SsLocal.prettyText homeRoot)
    (some (utf8 "hk"))).run { homeLoaded with errno := FileSystem.enoent }

theorem run_writeProfile_home :
    (SsLocal.writeProfile SsLocal.stickyDirectory SsLocal.prettyText (some (utf8 "hk"))).run
        homeLoaded = homeWriting := by
  let w : SsLocal.World := { homeLoaded with errno := FileSystem.enoent }
  have hroot : ProfileJson.jsonRoot.run ⟨w.profile, none⟩ = .ok homeRoot ⟨w.profile, none⟩ :=
    ProfileJson.run_jsonRoot none (by decide +kernel) (by decide +kernel) (by decide +kernel)
      (by decide) (by decide +kernel)
  rw [SsLocal.writeProfile, EStateM.run_bind, SsLocal.run_unlinkNofail, if_neg (by decide +kernel)]
  dsimp only
  rw [SsLocal.run_profileToJson_of_root (w := w) SsLocal.prettyText (some (utf8 "hk")) hroot]
  rfl

/-- The process with the profile of the node. -/
def homePrepared (env : Env) (routes : List Kernel.Route) : Proc (Memory Kernel.State) where
  cred := .dropped
  trace := (final ((loadNode env homeOutside 8).run (homeStart routes))).trace
  world := { (homeStart routes).world with files := homeLoaded }

theorem run_loadNode_home (routes : List Kernel.Route) :
    (loadNode allowed homeOutside 8).run (homeStart routes) =
      .ok (utf8 "hk") (homePrepared allowed routes) := rfl

theorem profile_homeWriting : (final homeWriting).profile = homeLoaded.profile := by decide +kernel

/-- The process with these files. -/
def homeWith (env : Env) (routes : List Kernel.Route) (files : SsLocal.World) :
    Proc (Memory Kernel.State) :=
  { homePrepared env routes with world := { (homePrepared env routes).world with files } }

/-- The process behind `prepare`. Nothing that follows reads more of the files. -/
def homeReady (env : Env) (routes : List Kernel.Route) : Proc (Memory Kernel.State) :=
  homeWith env routes ⟨(final homeWriting).fs, (final homeWriting).errno, homeLoaded.profile⟩

theorem run_prepare_home {env : Env} {routes : List Kernel.Route}
    (hload : (loadNode env homeOutside 8).run (homeStart routes) =
      .ok (utf8 "hk") (homePrepared env routes)) :
    (prepare env homeOutside 8).run (homeStart routes) = .ok () (homeReady env routes) := by
  have hreturned : returned homeWriting = true := by decide +kernel
  have heta {files : SsLocal.World} {profile : ProfileJson.ProfileT}
      (h : files.profile = profile) : files = ⟨files.fs, files.errno, profile⟩ := by
    rw [← h]
  have hready : homeWith env routes (final homeWriting) = homeReady env routes :=
    congrArg (homeWith env routes) (heta profile_homeWriting)
  have hfiles : (onFiles (SsLocal.writeProfile SsLocal.stickyDirectory SsLocal.prettyText
      (some (utf8 "hk")))).run (homePrepared env routes) = .ok () (homeReady env routes) := by
    rw [← hready]
    exact run_onFiles_of_ok (run_writeProfile_home.trans (eq_ok_of_returned hreturned))
  exact run_bind_eq_ok.mpr ⟨_, _, hload, hfiles⟩

/-- The run returns. -/
theorem returned_homeRun : returned (homeRun allowed) = true := by
  have hrest : returned ((do
      onWorld (redirectNames allowed (Kernel.sys Kernel.linux))
      startShadowsocks allowed homeOutside 8
      tunnel allowed (Kernel.sys Kernel.linux)
      stopSs allowed
      onWorld (restoreNames allowed) : Prog (Proc (Memory Kernel.State)) Unit).run
        (homeReady allowed [Kernel.dhcpRoute, Kernel.lanRoute])) = true := by
    decide +kernel
  have hrun : homeRun allowed = .ok () _ :=
    run_bind_eq_ok.mpr ⟨(), _, run_prepare_home (run_loadNode_home _), eq_ok_of_returned hrest⟩
  rw [hrun]
  rfl

end Main
