import Clash.Tun.Main
import Clash.Tun.Operations
import Clash.Tun.Privilege

/-!
# Operations with privileges

The operations of `netlink.c`, `ioctl.c`, `proc.c` and `bus.c` and the blocks of `main` that take
privileges back, with the calls that they make and the ids that they make them with.

The functions of `netlink.c`, `set` and `reset` are those of `Netlink` and `ClashTun`, over a socket
and a device that take privileges for their calls. A bracket that the source writes out is
`escalated` as well.

## Main definitions

* `World`: the memory behind the operations.
* `netlinkInit`, `send`, `receive`, `channel`: the socket, with privileges.
* `ioctlTunCreate`, `killSync`, `busInit`, `busCall`, `busEnd`: those of the other files.
* `Op`: an operation with its arguments.
* `session`: what `main` does between `start_ss` and `stop_ss`.

## Main results

* `projects_netlinkOp`, `projects_ioctlTunCreate`: an operation that returns does to the kernel and
  the buffers what the one without privileges does.
* `projects_set`, `projects_reset`: so do `set` and `reset`.
-/

open CProg CString Netlink Privilege Rtnetlink

namespace Escalated

/-- What the operations read and write. -/
structure World (κ : Type) where
  net : Net κ
  netlinkfd : ℤ
  /-- `bus` of `bus.c` is not `NULL`. -/
  bus : Bool
  ifi : ℕ

variable {κ α : Type}

/-- The part of the state that `Netlink` is about. -/
def net (s : Proc (World κ)) : Net κ := s.world.net

/-- A program on this part. -/
def onNet (p : Prog (Net κ) α) : Prog (Proc (World κ)) α :=
  lift (zoom World.net (fun net w => { w with net }) p)

/-! ## netlink.c -/

section Netlink

variable (env : Env) (sys : Sys κ)

/-- `netlink_init`. -/
def netlinkInit : Prog (Proc (World κ)) Unit := do
  escalated env do
    let fd ← call env .socket
    lift (modify fun w => { w with netlinkfd := fd })
    assert (3 ≤ fd)
  -- without privileges
  assert ((← call env .bind) = 0)

/-- `netlink_end`. -/
def netlinkEnd : Prog (Proc (World κ)) Unit := do
  assert ((← call env .close) = 0)
  lift (modify fun w => { w with netlinkfd := -1 })

/-- `ESCALATED(assert(sizeof(Req)==send(netlinkfd,&req,sizeof(Req),0)))`. -/
def send (req : List UInt8) : Prog (Proc (World κ)) Unit :=
  escalated env do
    assert ((← call env (.send req.length)) = req.length)
    onNet (Netlink.send sys req)

/-- One round of the loop in `receive`. -/
def receiveBody (p : ℕ) : Prog (Proc (World κ)) (ℕ ⊕ Unit) := do
  assert (0 ≤ (← call env .recv))
  onNet (Netlink.receiveBody p)

/-- `receive`. -/
def receive : Prog (Proc (World κ)) Unit :=
  escalated env do
    loop (receiveBody env) ((← get).world.net.socket.length + 1) 0

/-- The socket, with privileges for every call. -/
def channel : Channel κ (Proc (World κ)) where
  sys := sys
  net := net
  onNet := onNet
  send := send env sys
  receive := receive env

/-- Run an operation of `netlink.c` with privileges. -/
def netlinkOp (op : Netlink.Op) : Prog (Proc (World κ)) Unit := (channel env sys).op op

/-! ## ioctl.c -/

/-- `ioctl_tun_create(dev)`. -/
def ioctlTunCreate (dev : CString) : Prog (Proc (World κ)) Unit := do
  assert (dev ≠ [])
  let tunfd ← call env .openTun
  assert (3 ≤ tunfd)
  escalated env do
    assert ((← call env .tunsetiff) = 0)
    assert ((← call env .tunsetpersist) = 0)
    onNet (ClashTun.tunsetiff sys dev)
  let _ ← call env .close

end Netlink

/-! ## proc.c -/

section Proc

variable (env : Env)

/-- An entry of the process table. -/
structure ProcT where
  tid : ℤ
  pgrp : ℤ
  tgid : ℤ
  tpgid : ℤ
  cmd : CString
  /-- `none` for a `cmdline` that is `NULL`. -/
  cmdline : Option CString

/-- One round of the loop that waits for the end of a process. -/
def pollBody : Unit → Prog (Proc (World κ)) (Unit ⊕ Unit) := fun _ => do
  assert (0 ≤ (← call env .poll))
  if env.pollin (← get).trace then return .inr ()
  let _ ← call env .usleep
  return .inl ()

/-- What `inspect_proc` does in its bracket. The loop has at most `n` rounds. -/
def interrupt (n : ℕ) (proc : ProcT) : Prog (Proc (World κ)) Unit := do
  let pidfd ← call env (.pidfdOpen proc.tid)
  assert (0 ≤ pidfd)
  match proc.cmdline with
  | none => throw .undefined
  | some _ =>
    let _ ← call env .printf
    assert ((← call env (.pidfdSendSignal pidfd)) = 0)
    loop (pollBody env) n ()
    let _ ← call env .printf

/-- `inspect_proc(proc,name)`. -/
def inspectProc (n : ℕ) (proc : ProcT) (name : CString) : Prog (Proc (World κ)) Unit := do
  if name = proc.cmd then
    -- the main thread of a process that leads the group in the foreground
    assert (proc.tid = proc.pgrp ∧ proc.tid = proc.tgid ∧ proc.tid = proc.tpgid)
    escalated env (interrupt env n proc)

/-- `kill_sync(name)`, for what `readproctab` returns. -/
def killSync (n : ℕ) (procs : List ProcT) (name : CString) : Prog (Proc (World κ)) Unit :=
  procs.forM fun proc => inspectProc env n proc name

end Proc

/-! ## bus.c -/

section Bus

variable (env : Env) (sys : Sys κ)

/-- `bus_init`. -/
def busInit : Prog (Proc (World κ)) Unit := do
  let ifi := sys.ifNametoindex (← get).world.net.kernel ClashTun.wlo
  lift (modify fun w => { w with ifi })
  assert (1 ≤ ifi)
  assert ((← call env (.unsetenv (utf8 "DBUS_SESSION_BUS_ADDRESS"))) = 0)
  assert ((← call env (.unsetenv (utf8 "DBUS_SYSTEM_BUS_ADDRESS"))) = 0)
  escalated env do
    let r ← call env .busDefaultSystem
    -- the pointer is stored just if the call succeeds
    lift (modify fun w => { w with bus := 0 ≤ r })
    assert (0 ≤ r)
  assert ((← get).world.bus = true)

/-- `bus_end`. The call returns a null pointer as 0. -/
def busEnd : Prog (Proc (World κ)) Unit := do
  escalated env do
    assert ((← call env .busFlushCloseUnref) = 0)
  lift (modify fun w => { w with bus := false, ifi := 0 })

/-- `resolved_restartservice`. -/
def resolvedRestartservice : Prog (Proc (World κ)) Unit := do
  assert (0 ≤ (← call env (.busCallMethod (utf8 "org.freedesktop.systemd1")
    (utf8 "/org/freedesktop/systemd1") (utf8 "org.freedesktop.systemd1.Manager")
    (utf8 "RestartUnit") [utf8 "systemd-resolved.service", utf8 "replace"])))

/-- `resolved_flushcache`. -/
def resolvedFlushcache : Prog (Proc (World κ)) Unit := do
  assert (0 ≤ (← call env (.busCallMethod (utf8 "org.freedesktop.resolve1")
    (utf8 "/org/freedesktop/resolve1") (utf8 "org.freedesktop.resolve1.Manager")
    (utf8 "FlushCaches") [])))

/-- `bus_call(f)`. -/
def busCall (f : Prog (Proc (World κ)) Unit) : Prog (Proc (World κ)) Unit := do
  escalated env f
  assert (env.errorIsSet (← get).trace = false)

end Bus

/-! ## main.c -/

section Main

variable (env : Env)

/-- `DNSOLD`. -/
def dnsold : CString := utf8 "/etc/systemd/resolved.conf.d/ali."

/-- `DNSNEW`. -/
def dnsnew : CString := utf8 "/etc/systemd/resolved.conf.d/google."

/-- The block that puts the new configuration of the resolver in place. -/
def renameNew : Prog (Proc (World κ)) Unit :=
  escalated env do
    assert ((← call env (.rename (dnsold ++ utf8 "conf") (dnsold ++ utf8 "bak"))) = 0)
    assert ((← call env (.rename (dnsnew ++ utf8 "bak") (dnsnew ++ utf8 "conf"))) = 0)

/-- The block that puts the old one back. -/
def renameOld : Prog (Proc (World κ)) Unit :=
  escalated env do
    assert ((← call env (.rename (dnsnew ++ utf8 "conf") (dnsnew ++ utf8 "bak"))) = 0)
    assert ((← call env (.rename (dnsold ++ utf8 "bak") (dnsold ++ utf8 "conf"))) = 0)

/-- `ESCALATED(assert(0==kill(pid,SIGINT)))`. -/
def killTun2socks (pid : ℤ) : Prog (Proc (World κ)) Unit :=
  escalated env do
    assert ((← call env (.kill pid)) = 0)

/-- `unlink_nofail(f)`. The assertion on `errno` assigns to it, and never fails. -/
def unlinkNofail (f : CString) : Prog (Proc (World κ)) Unit := do
  let i ← call env (.unlink f)
  if i ≠ -1 then
    assert (i = 0)
    let _ ← call env .printf

/-- `start_tun2socks`, in the parent. -/
def startTun2socks : Prog (Proc (World κ)) ℤ := do
  let pid ← call env .fork
  assert ((← get).cred.uid.effective = 1000)
  -- the other branch is for the child, and asserts that the pid is 0
  assert (1 ≤ pid)
  let _ ← call env .printf
  return pid

/-- `read_r`. `fgets` returns 0 as a null pointer. -/
def readR : Prog (Proc (World κ)) Unit := do
  let _ ← call env .printf
  assert ((← call env .fgets) ≠ 0)

variable (sys : Sys κ) (remoteHost : CString)

/-- The socket and the device, with privileges for every call. -/
def device : ClashTun.Device κ (Proc (World κ)) where
  toChannel := channel env sys
  ioctlTunCreate := ioctlTunCreate env sys
  printf := do
    let _ ← call env .printf

/-- `set`. -/
def set : Prog (Proc (World κ)) Unit := (device env sys).set remoteHost

/-- `reset`. -/
def reset : Prog (Proc (World κ)) Unit := (device env sys).reset remoteHost

/-- `main` from behind `start_ss` to `stop_ss`. -/
def session : Prog (Proc (World κ)) Unit := do
  netlinkInit env
  set env sys remoteHost
  unlinkNofail env (utf8 "/tmp/tun2socks.log")
  let _ ← call env .printf
  let pid ← startTun2socks env
  let _ ← call env .sleep
  readR env
  let _ ← call env .printf
  killTun2socks env pid
  reset env sys remoteHost
  netlinkEnd env

end Main

/-! ## Operations -/

/-- An operation with its arguments. -/
inductive Op where
  | netlinkInit
  | netlink (op : Netlink.Op)
  | ioctlTunCreate (dev : CString)
  | killSync (n : ℕ) (procs : List ProcT) (name : CString)
  | busInit
  /-- `bus_call(&resolved_restartservice)`. -/
  | busRestartservice
  /-- `bus_call(&resolved_flushcache)`. -/
  | busFlushcache
  | busEnd
  | renameNew
  | renameOld
  | killTun2socks (pid : ℤ)

/-- Run an operation. -/
def Op.run (env : Env) (sys : Sys κ) : Op → Prog (Proc (World κ)) Unit
  | .netlinkInit => Escalated.netlinkInit env
  | .netlink op => netlinkOp env sys op
  | .ioctlTunCreate dev => Escalated.ioctlTunCreate env sys dev
  | .killSync n procs name => Escalated.killSync env n procs name
  | .busInit => Escalated.busInit env sys
  | .busRestartservice => busCall env (resolvedRestartservice env)
  | .busFlushcache => busCall env (resolvedFlushcache env)
  | .busEnd => Escalated.busEnd env
  | .renameNew => Escalated.renameNew env
  | .renameOld => Escalated.renameOld env
  | .killTun2socks pid => Escalated.killTun2socks env pid

/-- Run a row of operations. -/
def runOps (env : Env) (sys : Sys κ) (ops : List Op) : Prog (Proc (World κ)) Unit :=
  ops.forM (Op.run env sys)

/-! ## Without privileges -/

section Projects

variable {env : Env} {sys : Sys κ}

theorem projects_onNet (p : Prog (Net κ) α) : Projects net (onNet p) p := by
  intro s a s' h
  obtain ⟨w, hlift, rfl⟩ := run_zoom_eq_ok.mp h
  obtain ⟨n, hp, rfl⟩ := run_zoom_eq_ok.mp hlift
  exact hp

/-- A call and an assertion on its result leave the kernel and the buffers alone. -/
theorem projects_check {q : Prog (Net κ) α} {p : Prog (Proc (World κ)) α} (c : Call)
    (P : ℤ → Prop) [DecidablePred P] (hp : Projects net p q) :
    Projects net (do
      assert (P (← call env c))
      p) q := by
  refine Projects.skip (fun s r s' h => congrArg World.net (world_of_run_call h)) fun r => ?_
  refine Projects.skip (fun s _ s' h => ?_) fun _ => hp
  obtain ⟨-, rfl⟩ := run_assert_eq_ok.mp h
  rfl

theorem projects_send (req : List UInt8) : Projects net (send env sys req) (Netlink.send sys req) :=
  projects_escalated World.net (projects_check _ (· = (req.length : ℤ)) (projects_onNet _))

theorem projects_receive : Projects net (receive env) (Netlink.receive : Prog (Net κ) Unit) := by
  apply projects_escalated World.net
  apply projects_get_bind
  intro s
  apply Projects.loop
  intro p
  exact projects_check _ (0 ≤ ·) (projects_onNet _)

/-- A request and its reply, and what comes behind them. -/
theorem projects_exchange {p : Prog (Proc (World κ)) Unit} {q : Prog (Net κ) Unit}
    (req : List UInt8) (hp : Projects net p q) :
    Projects net (do
      send env sys req
      receive env
      p) (do
      Netlink.send sys req
      Netlink.receive
      q) :=
  (projects_send req).bind fun _ => projects_receive.bind fun _ => hp

/-- An operation of `netlink.c` that returns with privileges does to the kernel and the buffers what
it does without. -/
theorem projects_netlinkOp (op : Netlink.Op) :
    Projects net (netlinkOp env sys op) (op.run sys) := by
  have hacked : Projects net (do
      onNet ack
      onNet clearbuf : Prog (Proc (World κ)) Unit) (do
      ack
      clearbuf) := (projects_onNet _).bind fun _ => projects_onNet _
  -- the same function over the two channels, call by call
  cases op with
  | route add gw dev dst via =>
    refine (projects_assert _).bind fun _ => projects_get_bind fun s => ?_
    refine (projects_assert _).bind fun _ => (projects_assert _).bind fun _ => ?_
    refine (projects_assert _).bind fun _ => (projects_onNet _).bind fun req => ?_
    exact projects_exchange req hacked
  | getGateway => exact projects_exchange _ (projects_onNet _)
  | delLink dev => exact (projects_onNet _).bind fun req => projects_exchange req hacked
  | tunAddr dev ipv4 prefixlen =>
    refine (projects_assert _).bind fun _ => (projects_assert _).bind fun _ => ?_
    refine (projects_assert _).bind fun _ => projects_get_bind fun s => ?_
    refine (projects_assert _).bind fun _ => (projects_onNet _).bind fun req => ?_
    exact projects_exchange req hacked
  | flags up dev =>
    refine (projects_assert _).bind fun _ => projects_get_bind fun s => ?_
    exact (projects_assert _).bind fun _ => projects_exchange _ hacked

theorem projects_ioctlTunCreate (dev : CString) :
    Projects net (ioctlTunCreate env sys dev) (ClashTun.ioctlTunCreate sys dev) := by
  -- of the calls in its bracket only `TUNSETIFF` changes the kernel
  have htun : Projects net (do
      let tunfd ← call env .openTun
      assert (3 ≤ tunfd)
      escalated env do
        assert ((← call env .tunsetiff) = 0)
        assert ((← call env .tunsetpersist) = 0)
        onNet (ClashTun.tunsetiff sys dev)
      let _ ← call env .close) (ClashTun.tunsetiff sys dev) := by
    refine projects_check _ (3 ≤ ·) (Projects.skip_last ?_ fun s r s' h => ?_)
    · apply projects_escalated World.net
      exact projects_check _ (· = 0) (projects_check _ (· = 0) (projects_onNet _))
    · obtain ⟨_, _, hcall, h⟩ := run_bind_eq_ok.mp h
      cases h
      exact congrArg World.net (world_of_run_call hcall)
  exact (projects_assert _).bind fun _ => htun

theorem projects_printf : Projects net (device env sys).printf (ClashTun.device sys).printf := by
  intro s a s' h
  obtain ⟨_, _, hcall, h⟩ := run_bind_eq_ok.mp h
  cases h
  exact congrArg (EStateM.Result.ok ()) (congrArg World.net (world_of_run_call hcall)).symm

variable (env sys) (remoteHost : CString)

/-- `set` with privileges redirects the routes that it redirects without. -/
theorem projects_set : Projects net (set env sys remoteHost) (ClashTun.set sys remoteHost) := by
  have htun : Projects net (device env sys).tunUp (ClashTun.device sys).tunUp := by
    refine (projects_ioctlTunCreate _).bind fun _ => ?_
    exact (projects_netlinkOp (.tunAddr _ _ _)).bind fun _ => projects_netlinkOp (.flags _ _)
  refine htun.bind fun _ => (projects_netlinkOp .getGateway).bind fun _ => ?_
  refine projects_printf.bind fun _ => projects_get_bind fun s => ?_
  refine (projects_netlinkOp (.route _ _ _ _ _)).bind fun _ => ?_
  refine (projects_netlinkOp (.route _ _ _ _ _)).bind fun _ => projects_get_bind fun s => ?_
  exact projects_netlinkOp (.route _ _ _ _ _)

/-- `reset` with privileges takes back what it takes back without. -/
theorem projects_reset :
    Projects net (reset env sys remoteHost) (ClashTun.reset sys remoteHost) := by
  refine projects_get_bind fun s => (projects_netlinkOp (.route _ _ _ _ _)).bind fun _ => ?_
  refine (projects_netlinkOp (.route _ _ _ _ _)).bind fun _ => projects_printf.bind fun _ => ?_
  refine projects_get_bind fun s => (projects_netlinkOp (.route _ _ _ _ _)).bind fun _ => ?_
  exact (projects_netlinkOp (.flags _ _)).bind fun _ => projects_netlinkOp (.delLink _)

end Projects

end Escalated
