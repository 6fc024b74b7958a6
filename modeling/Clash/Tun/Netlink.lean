import Clash.Tun.Requests

/-!
# netlink.c

The functions of `netlink.c` over a socket. What the kernel does with a request is a parameter: it
changes its own state and puts datagrams into the socket. Messages to the terminal are left out.
The brackets that take privileges come in with a `Channel`; without them, a program is one about the
kernel and the buffers.

## Main definitions

* `Sys`: what the program calls outside of itself.
* `Net`: the kernel, the socket, and the static variables of `netlink.c`.
* `Channel`: how a program gets at the socket.
* `netlinkRoute`, `netlinkTunAddr`, `netlinkFlags`, `netlinkDelLink`, `netlinkGetGateway`.
-/

open CProg CString Inet Memory Records Rtnetlink

namespace Netlink

/-- What the program relies on: the kernel behind system calls, with states in `κ`. -/
structure Sys (κ : Type) where
  /-- `getpid()`. -/
  pid : ℕ
  /-- `if_nametoindex`, 0 if there is no such link. -/
  ifNametoindex : κ → CString → ℕ
  /-- A request that was sent, and the datagrams that answer it. -/
  send : κ → List UInt8 → κ × List (List UInt8)
  /-- `TUNSETIFF` and `TUNSETPERSIST` for a name, if they succeed. -/
  tunsetiff : κ → CString → Option κ

/-- The state. -/
structure Net (κ : Type) where
  kernel : κ
  /-- The datagrams that have not been received. -/
  socket : List (List UInt8)
  recvbuf : List UInt8
  len : ℤ
  /-- `gw` of `main.c`, the buffer that `netlink_get_gateway` writes to. -/
  gw : CString
  deriving DecidableEq

variable {κ : Type}

/-! ## Receiving -/

/-- `clearbuf`. -/
def clearbuf : Prog (Net κ) Unit :=
  modify fun s => { s with recvbuf := List.replicate sz 0, len := 0 }

/-- One round of the loop in `receive`. `p` is the offset in `recvbuf`. -/
def receiveBody (p : ℕ) : Prog (Net κ) (ℕ ⊕ Unit) := do
  let s ← get
  match s.socket with
  | [] => throw .blocked
  | datagram :: socket =>
    -- `sizeof(recvbuf)-len` is a `size_t`, and `recv` drops what is behind it
    let segment := datagram.take (((sz : ℤ) - s.len) % 2 ^ 64).toNat
    defined (p + segment.length ≤ s.recvbuf.length)
    let recvbuf := splice s.recvbuf p segment
    set { s with socket, recvbuf }
    assert (1 ≤ segment.length)
    modify fun s => { s with len := s.len + segment.length }
    defined (p + 6 ≤ recvbuf.length)
    let type := nlmsgType (recvbuf.drop p)
    if type = nlmsgDone ∨ type = nlmsgError then return .inr ()
    return .inl (p + segment.length)

/-- `receive`. -/
def receive : Prog (Net κ) Unit := do
  -- every round takes a datagram or blocks
  loop receiveBody ((← get).socket.length + 1) 0

/-- `ack`. -/
def ack : Prog (Net κ) Unit := do
  let s ← get
  assert (nlmsgType s.recvbuf = nlmsgError)
  let e := ofLE (slice s.recvbuf 16 4)
  if e ≠ 0 then assert False

/-! ## Sending -/

/-- Fill a struct that is a local variable. -/
def build (req : List UInt8) (p : Prog (List UInt8) Unit) : Prog (Net κ) (List UInt8) :=
  match p.run req with
  | .ok _ block => pure block
  | .error e _ => throw e

/-- `send` on the socket. -/
def send (sys : Sys κ) (req : List UInt8) : Prog (Net κ) Unit :=
  modify fun s =>
    let (kernel, datagrams) := sys.send s.kernel req
    { s with kernel, socket := s.socket ++ datagrams }

/-- How a program with states in `σ` gets at the socket. The functions of `netlink.c` are the same
whether it has nothing but the kernel and the buffers in its states, or takes privileges around its
calls. -/
structure Channel (κ σ : Type) where
  sys : Sys κ
  /-- The kernel and the buffers. -/
  net : σ → Net κ
  /-- A program that changes only these. -/
  onNet {α : Type} : Prog (Net κ) α → Prog σ α
  /-- `send` on the socket. -/
  send : List UInt8 → Prog σ Unit
  /-- `receive`. -/
  receive : Prog σ Unit

/-- The request of `netlink_flags`. -/
def flagsReq (pid : ℕ) (up : Bool) (index : ℕ) : List UInt8 :=
  nlmsghdr 32 rtmNewlink (nlmFRequest ||| nlmFAck) 0 pid ++
    ifinfomsg afUnspec 0 index (if up then iffUp else 0) iffUp

namespace Channel

variable {σ : Type} (c : Channel κ σ)

/-- `netlink_route(add,gw,dev,dst,via)`. `dst` is `none` for `NULL`. -/
def netlinkRoute (add gw : Bool) (dev : CString) (dst : Option CString) (via : CString) :
    Prog σ Unit := do
  assert (dev ≠ [])
  let oif := c.sys.ifNametoindex (c.net (← get)).kernel dev
  -- `oif` is an `int`
  assert (1 ≤ oif ∧ oif < 2 ^ 31)
  -- a default route has no destination
  assert (if gw then dst = none else dst ≠ none ∧ dst ≠ some [])
  assert (via ≠ [])
  let req ← c.onNet (build (routeReq c.sys.pid add gw) (routeAttrs gw oif (dst.getD []) via))
  c.send req
  c.receive
  c.onNet ack
  c.onNet clearbuf

/-- `netlink_tun_addr(dev,ipv4,prefixlen)`. -/
def netlinkTunAddr (dev ipv4 : CString) (prefixlen : UInt8) : Prog σ Unit := do
  assert (prefixlen ≤ 32)
  assert (ipv4 ≠ [])
  assert (dev ≠ [])
  let index := c.sys.ifNametoindex (c.net (← get)).kernel dev
  assert (0 < index)
  let req ← c.onNet (build (tunAddrReq c.sys.pid prefixlen index) (tunAddrAttrs ipv4))
  c.send req
  c.receive
  c.onNet ack
  c.onNet clearbuf

/-- `netlink_flags(up,dev)`. -/
def netlinkFlags (up : Bool) (dev : CString) : Prog σ Unit := do
  assert (dev ≠ [])
  let index := c.sys.ifNametoindex (c.net (← get)).kernel dev
  assert (1 ≤ index)
  c.send (flagsReq c.sys.pid up index)
  c.receive
  c.onNet ack
  c.onNet clearbuf

/-- `netlink_del_link(dev)`. -/
def netlinkDelLink (dev : CString) : Prog σ Unit := do
  let req ← c.onNet (build (delLinkReq c.sys.pid) (delLinkAttrs dev))
  c.send req
  c.receive
  c.onNet ack
  c.onNet clearbuf

end Channel

/-! ## The gateway -/

/-- The request of `ask_route`. -/
def askRouteReq (pid : ℕ) : List UInt8 :=
  nlmsghdr 28 rtmGetroute (nlmFRequest ||| nlmFRoot) 0 pid ++
    Rtmsg.bytes
      { family := afInet, dstLen := 0, srcLen := 0, tos := 0, table := 0,
        protocol := rtprotUnspec, scope := rtScopeUniverse, type := rtnUnspec, flags := 0 }

/-- `*((int*)q)`, as its bits. -/
def readInt (q : List UInt8) : Prog (Net κ) ℕ :=
  if 4 ≤ q.length then pure (ofLE (slice q 0 4)) else throw .undefined

/-- The address at a pointer. -/
def readAddr : List UInt8 → Prog (Net κ) InAddr
  | a :: b :: c :: d :: _ => pure ⟨a, b, c, d⟩
  | _ => throw .undefined

/-- The body of the loop over the attributes of a default route. `s` is `gw`. -/
def gatewayAttr (rta : List UInt8) : Prog (Net κ) Unit :=
  if rtaType rta = rtaGateway then do
    -- `inet_ntop` into the buffer of the caller
    let gw ← readAddr (rta.drop 4)
    modify fun s => { s with gw := ntop4 gw }
  else if rtaType rta = rtaOif then do
    let oif ← readInt (rta.drop 4)
    assert (oif = 2 ∨ oif = 3)
  else if rtaType rta = rtaPrefsrc then pure ()
  else if rtaType rta = rtaPriority then do
    let metric ← readInt (rta.drop 4)
    assert (metric = 303 ∨ metric = 3003 ∨ metric = 3002)
  else if rtaType rta = rtaTable then do
    let table ← readInt (rta.drop 4)
    assert (table = rtTableMain.toNat)
  else throw .assertion

/-- The `struct rtmsg` at a pointer. -/
def readRtmsg : List UInt8 → Prog (Net κ) Rtmsg
  | family :: dstLen :: srcLen :: tos :: table :: protocol :: scope :: type :: flags =>
    if 4 ≤ flags.length then
      pure
        { family, dstLen, srcLen, tos, table, protocol, scope, type,
          flags := UInt32.ofNat (ofLE (slice flags 0 4)) }
    else throw .undefined
  | _ => throw .undefined

/-- The route is skipped: it is not a default route of the main table. -/
def Skipped (rtm : Rtmsg) : Prop :=
  rtm.dstLen ≠ 0 ∨ rtm.table ≠ rtTableMain ∨ rtm.scope ≠ rtScopeUniverse

instance (rtm : Rtmsg) : Decidable (Skipped rtm) := inferInstanceAs (Decidable (_ ∨ _ ∨ _))

/-- The body of the loop over the messages, and whether it returns from the function. -/
def gatewayMsg (sys : Sys κ) (nh : List UInt8) : Prog (Net κ) Bool := do
  assert (nlmsgType nh = rtmNewroute ∧ nlmsgFlags nh = nlmFMulti ∧ nlmsgSeq nh = 0 ∧
    nlmsgPid nh = sys.pid)
  let rtm ← readRtmsg (nh.drop 16)
  if Skipped rtm then
    -- the one kind of route that may be skipped
    assert (rtm.dstLen = 24)
    assert (rtm.table = rtTableLocal)
    assert (rtm.scope = rtScopeLink)
    return false
  -- the default route, from DHCP or from `netlink_route`
  assert (rtm.family = afInet ∧ rtm.srcLen = 0 ∧ rtm.tos = 0 ∧
    (rtm.protocol = rtprotDhcp ∨ rtm.protocol = rtprotBoot) ∧ rtm.type = rtnUnicast ∧ rtm.flags = 0)
  (rta.walk (nh.drop 28) ((nlmsgLen nh : ℤ) - 28)).1.forM gatewayAttr
  clearbuf
  return true

/-- The loop over the messages, and whether it returns from the function. -/
def gatewayMsgs (sys : Sys κ) : List (List UInt8) → Prog (Net κ) Bool
  | [] => return false
  | nh :: nhs => do
    if ← gatewayMsg sys nh then return true
    gatewayMsgs sys nhs

/-- The loop over some messages, and the bytes that are left behind them. -/
def messagesLoop (sys : Sys κ) (nhs : List (List UInt8)) (rem : ℤ) : Prog (Net κ) Unit := do
  -- `NLMSG_NEXT` has taken the messages off `len` when the loop ends without a return
  if ¬ (← gatewayMsgs sys nhs) then modify fun s => { s with len := rem }

/-- The loop over the messages in the buffer. -/
def gatewayLoop (sys : Sys κ) : Prog (Net κ) Unit := do
  let s ← get
  let (nhs, rem) := nlmsg.walk s.recvbuf s.len
  messagesLoop sys nhs rem

/-- `ask_route`. -/
def Channel.askRoute {σ : Type} (c : Channel κ σ) : Prog σ Unit :=
  c.send (askRouteReq c.sys.pid)

/-- `netlink_get_gateway(gw)`. -/
def Channel.netlinkGetGateway {σ : Type} (c : Channel κ σ) : Prog σ Unit := do
  c.askRoute
  c.receive
  c.onNet (gatewayLoop c.sys)

/-! ## Without privileges -/

section Plain

variable (sys : Sys κ)

/-- The socket, for a program about nothing else. -/
def channel : Channel κ (Net κ) where
  sys := sys
  net s := s
  onNet p := p
  send := send sys
  receive := receive

def netlinkRoute (add gw : Bool) (dev : CString) (dst : Option CString) (via : CString) :
    Prog (Net κ) Unit :=
  (channel sys).netlinkRoute add gw dev dst via

def netlinkTunAddr (dev ipv4 : CString) (prefixlen : UInt8) : Prog (Net κ) Unit :=
  (channel sys).netlinkTunAddr dev ipv4 prefixlen

def netlinkFlags (up : Bool) (dev : CString) : Prog (Net κ) Unit :=
  (channel sys).netlinkFlags up dev

def netlinkDelLink (dev : CString) : Prog (Net κ) Unit := (channel sys).netlinkDelLink dev

def askRoute : Prog (Net κ) Unit := (channel sys).askRoute

def netlinkGetGateway : Prog (Net κ) Unit := (channel sys).netlinkGetGateway

end Plain

/-- Behind a reply that was received, the call is the loop over its messages. -/
theorem run_netlinkGetGateway_of_receive {sys : Sys κ} {s s₁ s₂ : Net κ}
    (hask : (askRoute sys).run s = .ok () s₁) (hreceive : receive.run s₁ = .ok () s₂) :
    (netlinkGetGateway sys).run s = (messagesLoop sys (nlmsg.walk s₂.recvbuf s₂.len).1
      (nlmsg.walk s₂.recvbuf s₂.len).2).run s₂ := by
  rw [netlinkGetGateway, Channel.netlinkGetGateway]
  exact (run_bind_of_ok hask).trans (run_bind_of_ok hreceive)

end Netlink
