import Clash.Tun.Netlink

/-!
# A kernel behind the socket

Links, their addresses and the routing tables of a kernel, as far as the requests of `netlink.c`
change them. A route is kept as its message shows it. What a kernel is free to choose is a
`Policy`.

## Main definitions

* `Route`, `Link`, `State`: the state of the kernel.
* `Policy`: where new routes are listed, the indices of new links, the routes of local addresses,
  and how a dump is cut into datagrams.
* `handle`: what a request does, and the answer.
* `sys`: the kernel as the system that `netlink.c` talks to.
-/

open CProg CString Inet Memory Records Rtnetlink Netlink

namespace Kernel

/-! ## State -/

/-- A route: the header and the attributes of its message. -/
structure Route where
  rtm : Rtmsg
  attrs : List (ℕ × List UInt8)
  deriving DecidableEq, Repr

/-- The payload of the first attribute of a type. -/
def find (attrs : List (ℕ × List UInt8)) (type : ℕ) : Option (List UInt8) := attrs.lookup type

namespace Route

def dst (r : Route) : Option (List UInt8) := find r.attrs rtaDst
def gateway (r : Route) : Option (List UInt8) := find r.attrs rtaGateway
def oif (r : Route) : Option (List UInt8) := find r.attrs rtaOif
def metric (r : Route) : Option (List UInt8) := find r.attrs rtaPriority

end Route

/-- A link with its addresses. -/
structure Link where
  name : CString
  index : ℕ
  up : Bool
  /-- The addresses and the lengths of their networks. -/
  addrs : List (List UInt8 × UInt8)
  deriving DecidableEq, Repr

structure State where
  links : List Link
  /-- The routes of all tables, in the order of a dump. -/
  routes : List Route
  /-- How many links have been created. -/
  created : ℕ
  deriving DecidableEq, Repr

/-- What a kernel is free to choose. -/
structure Policy where
  /-- The port of the socket, which is the process. -/
  pid : ℕ
  pid_lt : pid < 2 ^ 32
  /-- The place of a new route among the routes. -/
  place : List Route → Route → ℕ
  /-- The index of the link that is created next. -/
  newIndex : ℕ → ℕ
  newIndex_pos : ∀ n, 0 < newIndex n
  newIndex_lt : ∀ n, newIndex n < 2 ^ 31
  /-- The routes to an address of a link itself, and its broadcast routes. -/
  localRoutes : ℕ → List UInt8 × UInt8 → List Route
  broadcastRoutes : ℕ → List UInt8 × UInt8 → List Route
  /-- They are not in the main table, and go to the link. -/
  localRoutes_spec : ∀ i a, ∀ r ∈ localRoutes i a ++ broadcastRoutes i a,
    r.rtm.table ≠ rtTableMain ∧ r.oif = some (le32 i)
  /-- How the messages of a dump are put into datagrams. -/
  cut : List (List UInt8) → List (List (List UInt8))
  cut_flatten : ∀ ms, (cut ms).flatten = ms
  cut_ne_nil : ∀ ms, ∀ segment ∈ cut ms, segment ≠ []

variable (pol : Policy)

/-! ## Routes -/

/-- The routes with a new one. -/
def insert (routes : List Route) (r : Route) : List Route :=
  routes.take (pol.place routes r) ++ r :: routes.drop (pol.place routes r)

/-- A route to the same destination with the same metric. -/
def SameRoute (r r' : Route) : Prop :=
  r.rtm.table = r'.rtm.table ∧ r.dst = r'.dst ∧ r.rtm.dstLen = r'.rtm.dstLen ∧ r.metric = r'.metric

instance (r r' : Route) : Decidable (SameRoute r r') :=
  inferInstanceAs (Decidable (_ ∧ _ ∧ _ ∧ _))

/-- The route that a request to delete one is about: the destination, the gateway and the link. -/
def Matches (rtm : Rtmsg) (attrs : List (ℕ × List UInt8)) (r : Route) : Prop :=
  r.rtm.table = rtm.table ∧ r.rtm.dstLen = rtm.dstLen ∧ r.dst = find attrs rtaDst ∧
    r.gateway = find attrs rtaGateway ∧ r.oif = find attrs rtaOif

instance (rtm : Rtmsg) (attrs : List (ℕ × List UInt8)) (r : Route) :
    Decidable (Matches rtm attrs r) := inferInstanceAs (Decidable (_ ∧ _ ∧ _ ∧ _ ∧ _))

/-- `RTM_NEWROUTE` with `NLM_F_EXCL` and `NLM_F_CREATE`. -/
def newRoute (k : State) (rtm : Rtmsg) (attrs : List (ℕ × List UInt8)) : Except ℕ State :=
  let r : Route := { rtm, attrs := (rtaTable, le32 rtm.table.toNat) :: attrs }
  -- EEXIST
  if ∃ r' ∈ k.routes, SameRoute r' r then .error 17
  else .ok { k with routes := insert pol k.routes r }

/-- `RTM_DELROUTE` removes the first match. -/
def delRoute (k : State) (rtm : Rtmsg) (attrs : List (ℕ × List UInt8)) : Except ℕ State :=
  if ∃ r ∈ k.routes, Matches rtm attrs r then
    .ok { k with routes := k.routes.eraseP fun r => Matches rtm attrs r }
  -- ESRCH
  else .error 3

/-! ## Addresses and links -/

/-- A byte with its first `n` bits. -/
def maskByte (b : UInt8) (n : ℕ) : UInt8 := UInt8.ofNat (b.toNat / 2 ^ (8 - n) * 2 ^ (8 - n))

/-- The network of an address. -/
def network (address : List UInt8) (prefixlen : ℕ) : List UInt8 :=
  address.mapIdx fun i b => maskByte b (prefixlen - 8 * i)

/-- The route to the network of an address of a link. -/
def connected (index : ℕ) (a : List UInt8 × UInt8) : Route where
  rtm :=
    { family := afInet, dstLen := a.2, srcLen := 0, tos := 0, table := rtTableMain,
      protocol := rtprotKernel, scope := rtScopeLink, type := rtnUnicast, flags := 0 }
  attrs :=
    [(rtaTable, le32 rtTableMain.toNat), (rtaDst, network a.1 a.2.toNat), (rtaPrefsrc, a.1),
      (rtaOif, le32 index)]

/-- The routes that an address brings along once its link is up. -/
def upRoutes (index : ℕ) (a : List UInt8 × UInt8) : List Route :=
  connected index a :: pol.broadcastRoutes index a

/-- The routes without those of a link. -/
def withoutLink (index : ℕ) (routes : List Route) : List Route :=
  routes.filter fun r => r.oif ≠ some (le32 index)

/-- The state with another link in place of those with an index. -/
def setLink (k : State) (index : ℕ) (f : Link → Link) : State :=
  { k with links := k.links.map fun l => if l.index = index then f l else l }

/-- The routes with several new ones. -/
def insertAll (routes : List Route) (rs : List Route) : List Route := rs.foldl (insert pol) routes

/-- `RTM_NEWADDR` with `NLM_F_EXCL` and `NLM_F_CREATE`. -/
def newAddr (k : State) (index : ℕ) (a : List UInt8 × UInt8) : Except ℕ State :=
  match k.links.find? fun l => l.index = index with
  -- ENODEV
  | none => .error 19
  | some l =>
    -- EEXIST
    if a ∈ l.addrs then .error 17
    else
      let k := setLink k index fun l => { l with addrs := l.addrs ++ [a] }
      .ok { k with
        routes := insertAll pol k.routes
          (pol.localRoutes index a ++ if l.up then upRoutes pol index a else []) }

/-- `RTM_NEWLINK` that changes `IFF_UP`: the networks of the addresses become connected, or all
routes of the link go. -/
def changeUp (k : State) (index : ℕ) (up : Bool) : Except ℕ State :=
  match k.links.find? fun l => l.index = index with
  -- ENODEV
  | none => .error 19
  | some l =>
    let k := setLink k index fun l => { l with up }
    if up ∧ ¬ l.up then
      .ok { k with routes := insertAll pol k.routes (l.addrs.flatMap (upRoutes pol index)) }
    else if up then .ok k
    else .ok { k with routes := withoutLink index k.routes }

/-- `RTM_DELLINK`: the link goes with its addresses and routes. -/
def delLink (k : State) (name : CString) : Except ℕ State :=
  match k.links.find? fun l => l.name = name with
  -- ENODEV
  | none => .error 19
  | some l =>
    .ok { k with
      links := k.links.filter fun l' => l'.name ≠ name
      routes := withoutLink l.index k.routes }

/-- `TUNSETIFF` creates the link, or finds it. -/
def tunsetiff (k : State) (name : CString) : Option State :=
  if ∃ l ∈ k.links, l.name = name then some k
  else
    some { k with
      links := k.links ++ [{ name, index := pol.newIndex k.created, up := false, addrs := [] }]
      created := k.created + 1 }

/-! ## Messages -/

/-- An attribute with its padding. -/
def padded (a : ℕ × List UInt8) : List UInt8 :=
  rtattr a.1 a.2 ++ List.replicate (space a.2.length - rtaLength a.2.length) 0

/-- The attributes of a message. -/
def attrBytes (attrs : List (ℕ × List UInt8)) : List UInt8 := attrs.flatMap padded

/-- The message of a route in a dump. -/
def routeMsg (r : Route) : List UInt8 :=
  nlmsghdr (28 + (attrBytes r.attrs).length) rtmNewroute nlmFMulti 0 pol.pid ++ r.rtm.bytes ++
    attrBytes r.attrs

/-- The end of a dump. -/
def doneMsg : List UInt8 := nlmsghdr 20 nlmsgDone nlmFMulti 0 pol.pid ++ le32 0

/-- The datagrams of a dump. The end is in a datagram of its own. -/
def dump (routes : List Route) : List (List UInt8) :=
  (pol.cut (routes.map (routeMsg pol))).map List.flatten ++ [doneMsg pol]

/-- The acknowledgement of a request: the error as a negative number, and the header. -/
def ackMsg (req : List UInt8) (e : ℕ) : List UInt8 :=
  nlmsghdr 36 nlmsgError 0x100 0 pol.pid ++ le32 (2 ^ 32 - e) ++ req.take 16

/-- The attributes of a request behind `header` bytes. -/
def reqAttrs (req : List UInt8) (header : ℕ) : List (ℕ × List UInt8) :=
  (attributes (req.drop header) ((nlmsgLen req : ℤ) - header)).1

/-- The `struct rtmsg` of a request. -/
def reqRtmsg (req : List UInt8) : Option Rtmsg :=
  match req.drop 16 with
  | family :: dstLen :: srcLen :: tos :: table :: protocol :: scope :: type :: flags =>
    some
      { family, dstLen, srcLen, tos, table, protocol, scope, type,
        flags := UInt32.ofNat (ofLE (slice flags 0 4)) }
  | _ => none

/-- What a request that is acknowledged does. -/
def change (k : State) (req : List UInt8) : Except ℕ State :=
  let type := nlmsgType req
  if type = rtmNewroute then
    match reqRtmsg req with
    | some rtm => newRoute pol k rtm (reqAttrs req 28)
    | none => .error 22
  else if type = rtmDelroute then
    match reqRtmsg req with
    | some rtm => delRoute k rtm (reqAttrs req 28)
    | none => .error 22
  else if type = rtmNewaddr then
    -- `ifa_prefixlen`, `ifa_index`
    match find (reqAttrs req 24) ifaLocal with
    | some address =>
      newAddr pol k (ofLE (slice req 20 4)) (address, UInt8.ofNat (ofLE (slice req 17 1)))
    | none => .error 22
  else if type = rtmNewlink then
    -- `ifi_index`, `ifi_flags`
    changeUp pol k (ofLE (slice req 20 4)) (ofLE (slice req 24 4) % 2 = 1)
  else if type = rtmDellink then
    match find (reqAttrs req 32) iflaIfname with
    | some name => delLink k (ofBlock name)
    | none => .error 22
  -- EOPNOTSUPP
  else .error 95

/-- What a request does, and the datagrams that answer it. -/
def handle (k : State) (req : List UInt8) : State × List (List UInt8) :=
  if nlmsgType req = rtmGetroute then (k, dump pol k.routes)
  else
    match change pol k req with
    | .ok k' => (k', [ackMsg pol req 0])
    | .error e => (k, [ackMsg pol req e])

/-- The index of a link. -/
def ifNametoindex (k : State) (name : CString) : ℕ :=
  match k.links.find? fun l => l.name = name with
  | some l => l.index
  | none => 0

/-- The kernel as a system. -/
def sys : Sys State where
  pid := pol.pid
  ifNametoindex := ifNametoindex
  send := handle pol
  tunsetiff := tunsetiff pol

/-! ## The routes of a home network -/

/-- The default route from DHCP. -/
def dhcpRoute : Route where
  rtm :=
    { family := afInet, dstLen := 0, srcLen := 0, tos := 0, table := rtTableMain,
      protocol := rtprotDhcp, scope := rtScopeUniverse, type := rtnUnicast, flags := 0 }
  attrs :=
    [(rtaTable, le32 rtTableMain.toNat), (rtaPriority, le32 303), (rtaPrefsrc, [192, 168, 1, 2]),
      (rtaGateway, [192, 168, 1, 1]), (rtaOif, le32 2)]

/-- The route to the network of the wireless link. -/
def lanRoute : Route := connected 2 ([192, 168, 1, 2], 24)

end Kernel
