import Clash.Tun.Gateway

/-!
# Requests to the kernel

What the functions of `netlink.c` do to the state of the kernel, when it accepts the request.

## Main results

* `run_request`: a request that the kernel accepts is acknowledged, and nothing else changes.
* `run_netlinkRoute`, `run_netlinkTunAddr`, `run_netlinkFlags`, `run_netlinkDelLink`: the kernel
  carries out what the arguments say.
-/

open CProg CString Inet Memory Records Rtnetlink Netlink

namespace Kernel

variable {pol : Policy} {w : Net State} {k : State} {req block : List UInt8}

/-! ## Acknowledged requests -/

theorem acknowledges_ackMsg (hreq : 16 ≤ req.length) : Acknowledges (ackMsg pol req 0) 0 := by
  have hlength : (ackMsg pol req 0).length = 36 := by
    rw [ackMsg, List.length_append, List.length_append, length_nlmsghdr, length_le32,
      List.length_take]
    omega
  constructor
  · omega
  · rw [hlength]
    decide
  · rw [ackMsg, List.append_assoc]
    exact nlmsgType_nlmsghdr (by decide)
  · rfl

/-- A request that the kernel accepts is acknowledged, and nothing else changes. -/
theorem run_request (hidle : Idle w) (hreq : 16 ≤ req.length)
    (htype : nlmsgType req ≠ rtmGetroute) (hchange : change pol w.kernel req = .ok k) :
    (do
      send (sys pol) req
      receive
      ack
      clearbuf).run w = .ok () { w with kernel := k } := by
  have hhandle : (sys pol).send w.kernel req = (k, [ackMsg pol req 0]) := by
    change handle pol w.kernel req = _
    rw [handle, if_neg htype, hchange]
  have hidle' : Idle { w with kernel := k } := ⟨hidle.socket, hidle.recvbuf, hidle.len⟩
  rw [EStateM.run_bind, run_send _ hidle, hhandle]
  dsimp only
  refine (run_receive_ack (acknowledges_ackMsg hreq)).trans (congrArg _ ?_)
  exact hidle'.eq_received.symm

/-! ## What the kernel reads -/

variable {block₀ : List UInt8} {start : ℕ} {as : List (ℕ × List UInt8)}

/-- The header of a request is still there behind its attributes. -/
theorem slice_appends (h : Appends block₀ start as block) {off n : ℕ} (hoff : 4 ≤ off)
    (hn : off + n ≤ start) : slice block off n = slice block₀ off n := by
  apply List.ext_getElem?
  intro i
  rw [getElem?_slice, getElem?_slice]
  split
  · exact h.frame _ (by omega) (.inl (by omega))
  · rfl

theorem reqAttrs_appends (hroom : Room block₀ start) (h : Appends block₀ start as block)
    (htypes : ∀ a ∈ as, a.1 < 2 ^ 16) (hfit : extent start as ≤ block₀.length) :
    reqAttrs block start = as := by
  rw [reqAttrs, h.attributes_eq hroom htypes hfit]

theorem reqRtmsg_of_slice {rtm : Rtmsg} (h : slice req 16 12 = rtm.bytes) :
    reqRtmsg req = some rtm := by
  have hdrop : req.drop 16 = rtm.bytes ++ req.drop 28 := by
    rw [← h, slice, show 28 = 16 + 12 from rfl, ← List.drop_drop, List.take_append_drop]
  rw [reqRtmsg, hdrop]
  exact congrArg (fun flags => some { rtm with flags }) (rtm.read_flags (req.drop 28))

/-! ## Routes -/

/-- What a request about a route does. -/
def changeRoute (pol : Policy) (k : State) (add : Bool) (rtm : Rtmsg)
    (as : List (ℕ × List UInt8)) : Except ℕ State :=
  if add then newRoute pol k rtm as else delRoute k rtm as

theorem change_routeReq {add gw : Bool} {pid : ℕ} (h : Appends (routeReq pid add gw) 28 as block)
    (htypes : ∀ a ∈ as, a.1 < 2 ^ 16) (hfit : extent 28 as ≤ sizeofRoute) :
    nlmsgType block ≠ rtmGetroute ∧
      change pol k block = changeRoute pol k add (routeRtmsg add gw) as := by
  have htype : nlmsgType block = if add then rtmNewroute else rtmDelroute := by
    rw [nlmsgType, slice_appends h (by decide) (by decide)]
    cases add <;> rfl
  have hrtm : reqRtmsg block = some (routeRtmsg add gw) :=
    reqRtmsg_of_slice (by
      rw [slice_appends h (by decide) (by decide)]
      cases add <;> cases gw <;> rfl)
  have hattrs : reqAttrs block 28 = as :=
    reqAttrs_appends room_routeReq h htypes (by rwa [length_routeReq])
  rw [change, htype, hrtm, hattrs, changeRoute]
  cases add <;> exact ⟨by decide, rfl⟩

/-- The attributes that `netlink_route` asks for. -/
def routeAs (dst : Option InAddr) (via : InAddr) (oif : ℕ) : List (ℕ × List UInt8) :=
  dst.toList.map (fun d => (rtaDst, d.bytes)) ++ [(rtaGateway, via.bytes), (rtaOif, le32 oif)]

/-- `dst` is the text of an address, or `NULL`. -/
def IsDst (dst : Option CString) (d : Option InAddr) : Prop :=
  dst = none ∧ d = none ∨ ∃ s x, dst = some s ∧ s ≠ [] ∧ pton4 s = some x ∧ d = some x

theorem extent_routeAs_le (d : Option InAddr) (v : InAddr) (oif : ℕ) :
    extent 28 (routeAs d v oif) ≤ sizeofRoute := by
  cases d with
  | none => exact extent_gateway_le v oif
  | some d => exact extent_route_le d v oif

theorem routeAs_type_lt (d : Option InAddr) (v : InAddr) (oif : ℕ) :
    ∀ a ∈ routeAs d v oif, a.1 < 2 ^ 16 := by
  cases d <;> simp [routeAs, rtaGateway, rtaOif]

/-- `netlink_route` builds its request. -/
theorem run_routeAttrs {add : Bool} {pid oif : ℕ} {dst : Option CString} {via : CString}
    {d : Option InAddr} {v : InAddr} (hdst : IsDst dst d) (hvia : pton4 via = some v) :
    ∃ block, (routeAttrs d.isNone oif (dst.getD []) via).run (routeReq pid add d.isNone) =
      .ok () block ∧ Appends (routeReq pid add d.isNone) 28 (routeAs d v oif) block := by
  have hfit : extent 28 ([] ++ routeAs d v oif) ≤ (routeReq pid add d.isNone).length := by
    rw [length_routeReq]
    exact extent_routeAs_le d v oif
  have hnil : Appends (routeReq pid add d.isNone) 28 [] _ := .nil nlmsgLen_routeReq
  obtain ⟨rfl, rfl⟩ | ⟨s, x, rfl, -, hx, rfl⟩ := hdst
  · obtain ⟨block, hrun, happends⟩ := run_attrs_of_le room_routeReq hnil (asks_gateway hvia) hfit
    rw [length_routeReq, ← routeAttrs_gateway] at hrun
    exact ⟨block, hrun, happends⟩
  · obtain ⟨block, hrun, happends⟩ := run_attrs_of_le room_routeReq hnil (asks_route hx hvia) hfit
    rw [length_routeReq, ← routeAttrs_route] at hrun
    exact ⟨block, hrun, happends⟩

theorem run_build {κ : Type} {s : Net κ} {p : Prog (List UInt8) Unit}
    (h : p.run req = .ok () block) : (build req p).run s = .ok block s := by
  rw [build, h]
  rfl

theorem length_of_appends (hroom : Room block₀ start) (h : Appends block₀ start as block) :
    16 ≤ block.length := by
  rw [h.length]
  exact hroom.header.trans hroom.le_length

/-- `netlink_route` when the kernel accepts its request. -/
theorem run_netlinkRoute {add : Bool} {dev via : CString} {dst : Option CString} {oif : ℕ}
    {d : Option InAddr} {v : InAddr} (hidle : Idle w) (hdev : dev ≠ [])
    (hindex : (sys pol).ifNametoindex w.kernel dev = oif) (hoif : 1 ≤ oif ∧ oif < 2 ^ 31)
    (hdst : IsDst dst d) (hvia : pton4 via = some v)
    (hchange : changeRoute pol w.kernel add (routeRtmsg add d.isNone) (routeAs d v oif) = .ok k) :
    (netlinkRoute (sys pol) add d.isNone dev dst via).run w = .ok () { w with kernel := k } := by
  obtain ⟨block, hbuild, happends⟩ :
      ∃ block, (routeAttrs d.isNone oif (dst.getD []) via).run
          (routeReq (sys pol).pid add d.isNone) = .ok () block ∧
        Appends (routeReq (sys pol).pid add d.isNone) 28 (routeAs d v oif) block :=
    run_routeAttrs hdst hvia
  obtain ⟨htype, hblock⟩ :
      nlmsgType block ≠ rtmGetroute ∧ change pol w.kernel block = _ :=
    change_routeReq happends (routeAs_type_lt _ _ _) (extent_routeAs_le _ _ _)
  -- `gw` is set exactly if there is no destination, as the assertion wants
  have hdstOk : if d.isNone then dst = none else dst ≠ none ∧ dst ≠ some [] := by
    obtain ⟨rfl, rfl⟩ | ⟨s, x, rfl, hs, -, rfl⟩ := hdst
    · rfl
    · exact ⟨Option.some_ne_none s, fun h => hs (Option.some.inj h)⟩
  have hviaOk : via ≠ [] := by
    rintro rfl
    cases hvia
  rw [netlinkRoute, Channel.netlinkRoute, EStateM.run_bind, run_assert_of_true hdev]
  dsimp only [channel]
  rw [EStateM.run_bind, EStateM.run_get]
  dsimp only
  rw [hindex, EStateM.run_bind, run_assert_of_true hoif]
  dsimp only
  rw [EStateM.run_bind, run_assert_of_true hdstOk]
  dsimp only
  rw [EStateM.run_bind, run_assert_of_true hviaOk]
  dsimp only
  rw [EStateM.run_bind, run_build hbuild]
  exact run_request hidle (length_of_appends room_routeReq happends) htype (hblock.trans hchange)

/-! ## Addresses -/

/-- What a request for an address does. The kernel reads back what was appended. -/
theorem change_tunAddrReq {pid index : ℕ} {prefixlen : UInt8} {x : InAddr}
    (happends : Appends (tunAddrReq pid prefixlen index) 24
      [(ifaAddress, x.bytes), (ifaLocal, x.bytes)] block) (hlt : index < 2 ^ 32) :
    nlmsgType block ≠ rtmGetroute ∧
      change pol k block = newAddr pol k index (x.bytes, prefixlen) := by
  have hfit := extent_tunAddr_le x
  -- the fields are in front of the attributes, which leave them alone
  have htype : nlmsgType block = rtmNewaddr := by
    rw [nlmsgType, slice_appends happends (by decide) (by decide)]
    rfl
  have hattrs : reqAttrs block 24 = [(ifaAddress, x.bytes), (ifaLocal, x.bytes)] :=
    reqAttrs_appends room_tunAddrReq happends (by simp [ifaLocal]) (by rwa [length_tunAddrReq])
  have hprefixlen : UInt8.ofNat (ofLE (slice block 17 1)) = prefixlen := by
    rw [slice_appends happends (by decide) (by decide)]
    exact UInt8.ofNat_toNat
  have hindex : ofLE (slice block 20 4) = index := by
    rw [slice_appends happends (by decide) (by decide)]
    exact (ofLE_le32 index).trans (Nat.mod_eq_of_lt hlt)
  rw [change, htype, hattrs, hprefixlen, hindex]
  exact ⟨by decide, rfl⟩

/-- `netlink_tun_addr` when the kernel accepts its request. -/
theorem run_netlinkTunAddr {dev ipv4 : CString} {prefixlen : UInt8} {index : ℕ} {x : InAddr}
    (hidle : Idle w) (hprefixlen : prefixlen ≤ 32) (hdev : dev ≠ [])
    (hindex : (sys pol).ifNametoindex w.kernel dev = index) (hpos : 0 < index)
    (hlt : index < 2 ^ 32) (hipv4 : pton4 ipv4 = some x)
    (hchange : newAddr pol w.kernel index (x.bytes, prefixlen) = .ok k) :
    (netlinkTunAddr (sys pol) dev ipv4 prefixlen).run w = .ok () { w with kernel := k } := by
  have hnil : Appends (tunAddrReq (sys pol).pid prefixlen index) 24 [] _ :=
    .nil nlmsgLen_tunAddrReq
  have hfit := extent_tunAddr_le x
  -- the request, with the attributes that `attr` appends
  obtain ⟨block, hbuild, happends⟩ :=
    run_attrs_of_le room_tunAddrReq hnil (asks_tunAddr hipv4) (by rwa [length_tunAddrReq])
  rw [length_tunAddrReq, ← tunAddrAttrs_eq] at hbuild
  -- what the kernel makes of it
  obtain ⟨htype, hblock⟩ : nlmsgType block ≠ rtmGetroute ∧ change pol w.kernel block = _ :=
    change_tunAddrReq happends hlt
  have hipv4Ok : ipv4 ≠ [] := by
    rintro rfl
    cases hipv4
  -- the assertions in front of the exchange
  rw [netlinkTunAddr, Channel.netlinkTunAddr, EStateM.run_bind, run_assert_of_true hprefixlen]
  dsimp only [channel]
  rw [EStateM.run_bind, run_assert_of_true hipv4Ok]
  dsimp only
  rw [EStateM.run_bind, run_assert_of_true hdev]
  dsimp only
  rw [EStateM.run_bind, EStateM.run_get]
  dsimp only
  rw [hindex, EStateM.run_bind, run_assert_of_true hpos]
  dsimp only
  rw [EStateM.run_bind, run_build hbuild]
  exact run_request hidle (length_of_appends room_tunAddrReq happends) htype (hblock.trans hchange)

/-! ## Links -/

/-- What a request about the flags of a link does. -/
theorem change_flagsReq {pid index : ℕ} {up : Bool} (hlt : index < 2 ^ 32) :
    nlmsgType (flagsReq pid up index) ≠ rtmGetroute ∧
      change pol k (flagsReq pid up index) = changeUp pol k index up := by
  have htype : nlmsgType (flagsReq pid up index) = rtmNewlink := nlmsgType_nlmsghdr (by decide)
  have hindex : ofLE (slice (flagsReq pid up index) 20 4) = index :=
    (ofLE_le32 index).trans (Nat.mod_eq_of_lt hlt)
  have hup : ofLE (slice (flagsReq pid up index) 24 4) % 2 = if up then 1 else 0 := by
    cases up <;> rfl
  rw [change, htype, hindex, hup]
  cases up <;> exact ⟨by decide, rfl⟩

/-- `netlink_flags` when the kernel accepts its request. -/
theorem run_netlinkFlags {dev : CString} {up : Bool} {index : ℕ} (hidle : Idle w) (hdev : dev ≠ [])
    (hindex : (sys pol).ifNametoindex w.kernel dev = index) (hpos : 1 ≤ index)
    (hlt : index < 2 ^ 32) (hchange : changeUp pol w.kernel index up = .ok k) :
    (netlinkFlags (sys pol) up dev).run w = .ok () { w with kernel := k } := by
  obtain ⟨htype, hreq⟩ : nlmsgType (flagsReq (sys pol).pid up index) ≠ rtmGetroute ∧
      change pol w.kernel (flagsReq (sys pol).pid up index) = _ := change_flagsReq hlt
  rw [netlinkFlags, Channel.netlinkFlags, EStateM.run_bind, run_assert_of_true hdev]
  dsimp only [channel]
  rw [EStateM.run_bind, EStateM.run_get]
  dsimp only
  rw [hindex, EStateM.run_bind, run_assert_of_true hpos]
  dsimp only
  refine run_request hidle ?_ htype (hreq.trans hchange)
  rw [flagsReq, List.length_append, length_nlmsghdr, length_ifinfomsg]
  decide

/-- What a request to delete a link does. -/
theorem change_delLinkReq {pid : ℕ} {dev : CString} (hnul : 0 ∉ dev) (hlen : dev.length < 8188)
    (happends : Appends (delLinkReq pid) 32 [(iflaIfname, dev ++ [0])] block) :
    nlmsgType block ≠ rtmGetroute ∧ change pol k block = delLink k dev := by
  have hfit := extent_delLink_le hlen
  have htype : nlmsgType block = rtmDellink := by
    rw [nlmsgType, slice_appends happends (by decide) (by decide)]
    rfl
  have hattrs : reqAttrs block 32 = [(iflaIfname, dev ++ [0])] :=
    reqAttrs_appends room_delLinkReq happends (by simp [iflaIfname]) (by rwa [length_delLinkReq])
  have hname : find [(iflaIfname, dev ++ [0])] iflaIfname = some (dev ++ [0]) := rfl
  rw [change, htype, hattrs, hname]
  refine ⟨by decide, ?_⟩
  change delLink k (ofBlock (dev ++ [0])) = _
  rw [ofBlock_append_nul hnul]

/-- `netlink_del_link` when the kernel accepts its request. -/
theorem run_netlinkDelLink {dev : CString} (hidle : Idle w) (hnul : 0 ∉ dev)
    (hlen : dev.length < 8188) (hchange : delLink w.kernel dev = .ok k) :
    (netlinkDelLink (sys pol) dev).run w = .ok () { w with kernel := k } := by
  have hnil : Appends (delLinkReq (sys pol).pid) 32 [] _ := .nil nlmsgLen_delLinkReq
  have hfit := extent_delLink_le hlen
  obtain ⟨block, hbuild, happends⟩ :=
    run_attrs_of_le room_delLinkReq hnil (asks_delLink hnul) (by rwa [length_delLinkReq])
  rw [length_delLinkReq, ← delLinkAttrs_eq] at hbuild
  obtain ⟨htype, hblock⟩ : nlmsgType block ≠ rtmGetroute ∧ change pol w.kernel block = _ :=
    change_delLinkReq hnul hlen happends
  rw [netlinkDelLink, Channel.netlinkDelLink]
  dsimp only [channel]
  rw [EStateM.run_bind, run_build hbuild]
  exact run_request hidle (length_of_appends room_delLinkReq happends) htype (hblock.trans hchange)

end Kernel
