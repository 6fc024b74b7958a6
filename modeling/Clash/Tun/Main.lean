import Clash.Tun.Kernel

/-!
# set and reset of main.c

`set` redirects the default route to the TUN device, and `reset` takes everything back.

## Main definitions

* `Device`: how a program gets at the socket and the TUN device, and the two functions over it.
* `set`, `reset`: the two functions over a system, without privileges.
* `sessions`: several times `set` and `reset`.
-/

open CProg CString Netlink

namespace ClashTun

/-- `TUN`. -/
def tun : CString := utf8 "tun0"

/-- `WLO`. -/
def wlo : CString := utf8 "wlp2s0"

variable {κ : Type}

/-- How a program gets at the socket and the TUN device. -/
structure Device (κ σ : Type) extends Channel κ σ where
  /-- `ioctl_tun_create(dev)`. -/
  ioctlTunCreate : CString → Prog σ Unit
  /-- A message to the terminal. -/
  printf : Prog σ Unit

namespace Device

variable {σ : Type} (c : Device κ σ)

/-- The calls of `set` in front of `netlink_get_gateway`. -/
def tunUp : Prog σ Unit := do
  c.ioctlTunCreate tun
  c.netlinkTunAddr tun (utf8 "10.0.0.1") 24
  c.netlinkFlags true tun

/-- `set`. -/
def set (remoteHost : CString) : Prog σ Unit := do
  c.tunUp
  c.netlinkGetGateway
  c.printf
  c.netlinkRoute false true wlo none (c.net (← get)).gw
  c.netlinkRoute true true tun none (utf8 "10.0.0.2")
  c.netlinkRoute true false wlo (some remoteHost) (c.net (← get)).gw

/-- `reset`. -/
def reset (remoteHost : CString) : Prog σ Unit := do
  c.netlinkRoute false false wlo (some remoteHost) (c.net (← get)).gw
  c.netlinkRoute false true tun none (utf8 "10.0.0.2")
  c.printf
  c.netlinkRoute true true wlo none (c.net (← get)).gw
  c.netlinkFlags false tun
  c.netlinkDelLink tun

end Device

/-- What `TUNSETIFF` and `TUNSETPERSIST` do to the kernel. The name of a link has at most 15
bytes. -/
def tunsetiff (sys : Sys κ) (dev : CString) : Prog (Net κ) Unit := do
  match sys.tunsetiff (← get).kernel (dev.take 15) with
  | some kernel => modify fun s => { s with kernel }
  | none => throw .assertion

/-- `ioctl_tun_create(dev)`. -/
def ioctlTunCreate (sys : Sys κ) (dev : CString) : Prog (Net κ) Unit := do
  assert (dev ≠ [])
  tunsetiff sys dev

/-- The socket and the device, for a program about nothing else. -/
def device (sys : Sys κ) : Device κ (Net κ) where
  toChannel := channel sys
  ioctlTunCreate := ioctlTunCreate sys
  printf := pure ()

def tunUp (sys : Sys κ) : Prog (Net κ) Unit := (device sys).tunUp

def set (sys : Sys κ) (remoteHost : CString) : Prog (Net κ) Unit := (device sys).set remoteHost

def reset (sys : Sys κ) (remoteHost : CString) : Prog (Net κ) Unit := (device sys).reset remoteHost

/-- Several sessions of `set` and `reset`. -/
def sessions (sys : Sys κ) (remoteHost : CString) : ℕ → Prog (Net κ) Unit
  | 0 => pure ()
  | n + 1 => do
    sessions sys remoteHost n
    set sys remoteHost
    reset sys remoteHost

end ClashTun
