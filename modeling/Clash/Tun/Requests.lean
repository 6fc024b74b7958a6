import Clash.Tun.Attributes

/-!
# Requests of netlink.c

The structs that `netlink_route`, `netlink_tun_addr` and `netlink_del_link` fill and send, and what
a loop over their attributes reads back.

## Main definitions

* `routeReq`, `tunAddrReq`, `delLinkReq`: the structs as they are initialised.
* `routeAttrs`, `tunAddrAttrs`, `delLinkAttrs`: the calls of `attr` on them.
* `Correct`: a sequence of calls fails an assertion exactly if an attribute does not fit, and
  otherwise builds a request that is read back as its attributes.

## Main results

* `attrs_correct_iff`: the calls are correct exactly where no aligned length wraps.
-/

open CProg CString Inet Memory Records Rtnetlink

namespace Netlink

/-- `SZ`. -/
abbrev sz : ℕ := 8192

/-! ## Routes -/

/-- `sizeof(Req)` in `netlink_route`. -/
abbrev sizeofRoute : ℕ := 28 + sz

/-- `req.rt` in `netlink_route`. -/
def routeRtmsg (add gw : Bool) : Rtmsg where
  family := afInet
  dstLen := if gw then 0 else 32
  srcLen := 0
  tos := 0
  table := rtTableMain
  protocol := if add then rtprotBoot else rtprotUnspec
  scope := rtScopeUniverse
  type := rtnUnicast
  flags := 0

/-- `req` in `netlink_route`. -/
def routeReq (pid : ℕ) (add gw : Bool) : List UInt8 :=
  nlmsghdr 28 (if add then rtmNewroute else rtmDelroute)
      (nlmFRequest ||| nlmFAck ||| if add then nlmFExcl ||| nlmFCreate else 0) 0 pid ++
    (routeRtmsg add gw).bytes ++ List.replicate sz 0

/-- The calls of `attr` in `netlink_route`. -/
def routeAttrs (gw : Bool) (oif : ℕ) (dst via : CString) : Prog (List UInt8) Unit := do
  if ¬ gw then attr sizeofRoute rtaDst (dst ++ [0])
  attr sizeofRoute rtaGateway (via ++ [0])
  attr sizeofRoute rtaOif (le32 oif)

/-! ## Addresses -/

/-- `sizeof(Req)` in `netlink_tun_addr`. -/
abbrev sizeofTunAddr : ℕ := 24 + sz

/-- `req` in `netlink_tun_addr`. -/
def tunAddrReq (pid : ℕ) (prefixlen : UInt8) (index : ℕ) : List UInt8 :=
  nlmsghdr 24 rtmNewaddr (nlmFRequest ||| nlmFAck ||| nlmFExcl ||| nlmFCreate) 0 pid ++
    ifaddrmsg afInet prefixlen ifaFPermanent rtScopeUniverse index ++ List.replicate sz 0

/-- The calls of `attr` in `netlink_tun_addr`. -/
def tunAddrAttrs (ipv4 : CString) : Prog (List UInt8) Unit := do
  attr sizeofTunAddr ifaAddress (ipv4 ++ [0])
  attr sizeofTunAddr ifaLocal (ipv4 ++ [0])

/-! ## Links -/

/-- `sizeof(Req_chlink)`. -/
abbrev sizeofChlink : ℕ := 32 + sz

/-- `req` in `netlink_del_link`. -/
def delLinkReq (pid : ℕ) : List UInt8 :=
  nlmsghdr 32 rtmDellink (nlmFRequest ||| nlmFAck) 0 pid ++
    ifinfomsg afUnspec 0 0 0 0xFFFFFFFF ++ List.replicate sz 0

/-- The call of `attr` in `netlink_del_link`. -/
def delLinkAttrs (dev : CString) : Prog (List UInt8) Unit :=
  attr sizeofChlink iflaIfname (dev ++ [0])

/-! ## Reading back -/

variable {block₀ block : List UInt8} {start : ℕ} {calls as : List (ℕ × List UInt8)}

/-- The run built a request that is read back as the attributes from `start` on. -/
def Decodes (start : ℕ) (r : EStateM.Result Stop (List UInt8) Unit)
    (as : List (ℕ × List UInt8)) : Prop :=
  ∃ block, r = .ok () block ∧
    attributes (block.drop start) ((nlmsgLen block : ℤ) - start) = (as, 0)

/-- The calls fail an assertion exactly if an attribute does not fit. Otherwise they leave
everything alone in front of `start` but the length, and everything behind the attributes, and the
attributes are read back with their full lengths. -/
def Correct (block₀ : List UInt8) (start : ℕ) (calls as : List (ℕ × List UInt8)) : Prop :=
  ((∃ block, (attrs block₀.length calls).run block₀ = .error .assertion block) ↔
    ∃ pre a, pre ++ [a] <+: as ∧ block₀.length < extent start pre + space a.2.length) ∧
  ((∀ pre a, pre ++ [a] <+: as → extent start pre + space a.2.length ≤ block₀.length) →
    ∃ block, (attrs block₀.length calls).run block₀ = .ok () block ∧
      nlmsgLen block % 4 = 0 ∧ nlmsgLen block ≤ block₀.length ∧
      block.length = block₀.length ∧
      (∀ i, 4 ≤ i → i < start ∨ nlmsgLen block ≤ i → block[i]? = block₀[i]?) ∧
      (∀ a ∈ as, rtaLength a.2.length < 2 ^ 16) ∧
      attributes (block.drop start) ((nlmsgLen block : ℤ) - start) = (as, 0))

/-- The types of the attributes of a request fit into two bytes. -/
theorem Asks.type_lt (h : Asks calls as) : ∀ a ∈ as, a.1 < 2 ^ 16 := by
  induction h with
  | nil => exact List.forall_mem_nil _
  | cons hpl _ ih => exact List.forall_mem_cons.mpr ⟨hpl.1 ▸ type_lt_of_payload hpl.2, ih⟩

/-- What was appended is read back. -/
theorem Appends.attributes_eq (hroom : Room block₀ start) (h : Appends block₀ start as block)
    (htypes : ∀ a ∈ as, a.1 < 2 ^ 16) (hfit : extent start as ≤ block₀.length) :
    attributes (block.drop start) ((nlmsgLen block : ℤ) - start) = (as, 0) := by
  have hstart : start ≤ extent start as := le_extent
  have hlength := hroom.length_le
  have hattributes := attributes_of_holds htypes h.holds (by omega)
  rw [h.len]
  rwa [Nat.cast_sub hstart] at hattributes

/-- Attributes that fit into a request have lengths that fit into two bytes. -/
theorem length_lt_of_extent_le (hroom : Room block₀ start)
    (hfit : extent start as ≤ block₀.length) : ∀ a ∈ as, rtaLength a.2.length < 2 ^ 16 := by
  intro a hmem
  obtain ⟨pre, post, rfl⟩ := List.append_of_mem hmem
  have hpre : start ≤ extent start pre := le_extent
  have hpost : extent start pre + space a.2.length ≤ block₀.length := by
    rw [extent_append] at hfit
    exact le_extent.trans hfit
  have := hroom.length_le
  unfold space at hpost
  omega

/-- The calls are correct exactly where every attribute that does not fit is stopped by the
assertion, before an aligned length has wrapped. -/
theorem correct_iff (hroom : Room block₀ start) (hlen : nlmsgLen block₀ = start)
    (hcalls : Asks calls as) :
    Correct block₀ start calls as ↔ Guarded block₀.length start as := by
  have hnil := Appends.nil hlen
  have hexceeds : _ ↔ block₀.length < extent start as := exists_exceeding_iff hroom.le_length
  rw [Correct, hexceeds]
  constructor
  · rintro ⟨hassert, hok⟩
    by_contra hguard
    obtain ⟨block, hrun⟩ := run_attrs_of_not_guarded hroom hnil hcalls hroom.le_length hguard
    rw [hrun] at hassert hok
    -- the run neither fails the assertion nor returns
    rcases Nat.lt_or_ge block₀.length (extent start as) with hlt | hge
    · obtain ⟨_, herror⟩ := hassert.mpr hlt
      cases herror
    · obtain ⟨_, hreturn, -⟩ := hok fun pre a hpre =>
        not_lt.mp fun hlt => absurd (hexceeds.mp ⟨pre, a, hpre, hlt⟩) (not_lt.mpr hge)
      cases hreturn
  · intro hguard
    rcases Nat.lt_or_ge block₀.length (extent start as) with hlt | hge
    · have hassert := run_attrs_of_guarded hroom hnil hcalls hroom.le_length hguard hlt
      refine ⟨⟨fun _ => hlt, fun _ => hassert⟩, fun hfits => ?_⟩
      obtain ⟨pre, a, hpre, hexceed⟩ := hexceeds.mpr hlt
      exact absurd (hfits pre a hpre) (not_le.mpr hexceed)
    · obtain ⟨block, hrun, happends⟩ := run_attrs_of_le hroom hnil hcalls hge
      rw [List.nil_append] at happends
      rw [hrun]
      refine ⟨⟨fun ⟨_, herror⟩ => (nomatch herror), fun hlt => absurd hge (not_le.mpr hlt)⟩,
        fun _ => ⟨block, rfl, ?_, ?_, happends.length, ?_, length_lt_of_extent_le hroom hge,
          happends.attributes_eq hroom hcalls.type_lt hge⟩⟩
      · rw [happends.len]
        exact extent_mod hroom.aligned
      · rwa [happends.len]
      · rw [happends.len]
        exact happends.frame

/-- Attributes that fit are read back. -/
theorem decodes_of_le (hroom : Room block₀ start) (hlen : nlmsgLen block₀ = start)
    (hcalls : Asks calls as) (hfit : extent start as ≤ block₀.length) :
    Decodes start ((attrs block₀.length calls).run block₀) as := by
  obtain ⟨block, hrun, happends⟩ := run_attrs_of_le hroom (.nil hlen) hcalls hfit
  exact ⟨block, hrun, happends.attributes_eq hroom hcalls.type_lt hfit⟩

/-! ## The requests -/

variable {pid oif index : ℕ} {add gw : Bool} {prefixlen : UInt8} {dst via ipv4 dev : CString}

/-- A request for a route has the size of its struct. -/
@[simp] theorem length_routeReq : (routeReq pid add gw).length = sizeofRoute := by
  rw [routeReq, List.length_append, List.length_append, length_nlmsghdr, Rtmsg.length_bytes,
    List.length_replicate]

@[simp] theorem length_tunAddrReq : (tunAddrReq pid prefixlen index).length = sizeofTunAddr := by
  rw [tunAddrReq, List.length_append, List.length_append, length_nlmsghdr, length_ifaddrmsg,
    List.length_replicate]

@[simp] theorem length_delLinkReq : (delLinkReq pid).length = sizeofChlink := by
  rw [delLinkReq, List.length_append, List.length_append, length_nlmsghdr, length_ifinfomsg,
    List.length_replicate]

/-- The headers end where the attributes begin. -/
theorem room_routeReq : Room (routeReq pid add gw) 28 := by
  constructor <;> simp [sizeofRoute, sz]

theorem room_tunAddrReq : Room (tunAddrReq pid prefixlen index) 24 := by
  constructor <;> simp [sizeofTunAddr, sz]

theorem room_delLinkReq : Room (delLinkReq pid) 32 := by
  constructor <;> simp [sizeofChlink, sz]

/-- At first, the length in the header is that of the headers. -/
theorem nlmsgLen_routeReq : nlmsgLen (routeReq pid add gw) = 28 := by
  rw [routeReq, List.append_assoc]
  exact nlmsgLen_nlmsghdr (by decide)

theorem nlmsgLen_tunAddrReq : nlmsgLen (tunAddrReq pid prefixlen index) = 24 := by
  rw [tunAddrReq, List.append_assoc]
  exact nlmsgLen_nlmsghdr (by decide)

theorem nlmsgLen_delLinkReq : nlmsgLen (delLinkReq pid) = 32 := by
  rw [delLinkReq, List.append_assoc]
  exact nlmsgLen_nlmsghdr (by decide)

/-- The calls of `attr` for a route to a host. -/
theorem routeAttrs_route :
    routeAttrs false oif dst via = attrs sizeofRoute
      [(rtaDst, dst ++ [0]), (rtaGateway, via ++ [0]), (rtaOif, le32 oif)] := by
  simp [routeAttrs, attrs]

/-- The calls for a default route, which has no destination. -/
theorem routeAttrs_gateway :
    routeAttrs true oif dst via =
      attrs sizeofRoute [(rtaGateway, via ++ [0]), (rtaOif, le32 oif)] := by
  simp [routeAttrs, attrs]

/-- The calls for an address. -/
theorem tunAddrAttrs_eq :
    tunAddrAttrs ipv4 =
      attrs sizeofTunAddr [(ifaAddress, ipv4 ++ [0]), (ifaLocal, ipv4 ++ [0])] := by
  simp [tunAddrAttrs, attrs]

/-- The call for the name of a link. -/
theorem delLinkAttrs_eq :
    delLinkAttrs dev = attrs sizeofChlink [(iflaIfname, dev ++ [0])] := by
  simp [delLinkAttrs, attrs]

/-! ## What is asked for -/

/-- What `attr` writes for a printed address: its four bytes. -/
theorem payload_address {type : ℕ} {x : InAddr}
    (htype : type = rtaGateway ∨ type = ifaAddress ∨ type = ifaLocal) (h : pton4 ipv4 = some x) :
    payload type (ipv4 ++ [0]) = some x.bytes := by
  have hnul : 0 ∈ ipv4 ++ [0] := List.mem_append_right _ (List.mem_singleton_self 0)
  obtain rfl | rfl | rfl := htype <;>
    simp [payload, hnul, ofBlock_append_nul (zero_notMem_of_pton4 h), h]

/-- What it writes for the index of a link: the bytes of the `int`. -/
theorem payload_word (v : ℕ) : payload rtaOif (le32 v) = some (le32 v) := rfl

/-- What it writes for a name: the string with its NUL. -/
theorem payload_label (h : 0 ∉ dev) : payload iflaIfname (dev ++ [0]) = some (dev ++ [0]) := by
  simp [payload, ofBlock_append_nul h]

/-- The attributes that the calls for a route ask for. -/
theorem asks_route {d v : InAddr} (hdst : pton4 dst = some d) (hvia : pton4 via = some v) :
    Asks [(rtaDst, dst ++ [0]), (rtaGateway, via ++ [0]), (rtaOif, le32 oif)]
      [(rtaDst, d.bytes), (rtaGateway, v.bytes), (rtaOif, le32 oif)] :=
  .cons ⟨rfl, payload_address (.inr (.inl rfl)) hdst⟩
    (.cons ⟨rfl, payload_address (.inl rfl) hvia⟩ (.cons ⟨rfl, payload_word oif⟩ .nil))

/-- Those of a default route. -/
theorem asks_gateway {v : InAddr} (hvia : pton4 via = some v) :
    Asks [(rtaGateway, via ++ [0]), (rtaOif, le32 oif)]
      [(rtaGateway, v.bytes), (rtaOif, le32 oif)] :=
  .cons ⟨rfl, payload_address (.inl rfl) hvia⟩ (.cons ⟨rfl, payload_word oif⟩ .nil)

/-- Those of an address. -/
theorem asks_tunAddr {x : InAddr} (hipv4 : pton4 ipv4 = some x) :
    Asks [(ifaAddress, ipv4 ++ [0]), (ifaLocal, ipv4 ++ [0])]
      [(ifaAddress, x.bytes), (ifaLocal, x.bytes)] :=
  .cons ⟨rfl, payload_address (.inr (.inl rfl)) hipv4⟩
    (.cons ⟨rfl, payload_address (.inr (.inr rfl)) hipv4⟩ .nil)

/-- That of a link. -/
theorem asks_delLink (hnul : 0 ∉ dev) :
    Asks [(iflaIfname, dev ++ [0])] [(iflaIfname, dev ++ [0])] :=
  .cons ⟨rfl, payload_label hnul⟩ .nil

/-- The attributes of a route fit into its struct. -/
theorem extent_route_le (d v : InAddr) (oif : ℕ) :
    extent 28 [(rtaDst, d.bytes), (rtaGateway, v.bytes), (rtaOif, le32 oif)] ≤ sizeofRoute := by
  simp only [extent, InAddr.length_bytes, length_le32]
  decide

/-- So do those of a default route. -/
theorem extent_gateway_le (v : InAddr) (oif : ℕ) :
    extent 28 [(rtaGateway, v.bytes), (rtaOif, le32 oif)] ≤ sizeofRoute := by
  simp only [extent, InAddr.length_bytes, length_le32]
  decide

/-- So do those of an address. -/
theorem extent_tunAddr_le (x : InAddr) :
    extent 24 [(ifaAddress, x.bytes), (ifaLocal, x.bytes)] ≤ sizeofTunAddr := by
  simp only [extent, InAddr.length_bytes]
  decide

/-- The name of a link fits if it is shorter than the buffer behind the headers. -/
theorem extent_delLink_le (hlen : dev.length < 8188) :
    extent 32 [(iflaIfname, dev ++ [0])] ≤ sizeofChlink := by
  rw [extent, extent, List.length_append, List.length_singleton, space, rtaLength, sizeofChlink, sz]
  omega

/-! ## Main results -/

/-- The kernel reads back the attributes of the request for a route. -/
theorem decodes_route {d v : InAddr} (hdst : pton4 dst = some d) (hvia : pton4 via = some v) :
    Decodes 28 ((routeAttrs false oif dst via).run (routeReq pid add false))
      [(rtaDst, d.bytes), (rtaGateway, v.bytes), (rtaOif, le32 oif)] := by
  rw [routeAttrs_route, ← length_routeReq]
  refine decodes_of_le room_routeReq nlmsgLen_routeReq (asks_route hdst hvia) ?_
  rw [length_routeReq]
  exact extent_route_le d v oif

/-- So it does for a default route. -/
theorem decodes_gateway {v : InAddr} (hvia : pton4 via = some v) :
    Decodes 28 ((routeAttrs true oif dst via).run (routeReq pid add true))
      [(rtaGateway, v.bytes), (rtaOif, le32 oif)] := by
  rw [routeAttrs_gateway, ← length_routeReq]
  refine decodes_of_le room_routeReq nlmsgLen_routeReq (asks_gateway hvia) ?_
  rw [length_routeReq]
  exact extent_gateway_le v oif

/-- So it does for an address. -/
theorem decodes_tunAddr {x : InAddr} (hipv4 : pton4 ipv4 = some x) :
    Decodes 24 ((tunAddrAttrs ipv4).run (tunAddrReq pid prefixlen index))
      [(ifaAddress, x.bytes), (ifaLocal, x.bytes)] := by
  rw [tunAddrAttrs_eq, ← length_tunAddrReq]
  refine decodes_of_le room_tunAddrReq nlmsgLen_tunAddrReq (asks_tunAddr hipv4) ?_
  rw [length_tunAddrReq]
  exact extent_tunAddr_le x

/-- So it does for the deletion of a link. -/
theorem decodes_delLink (hnul : 0 ∉ dev) (hlen : dev.length < 8188) :
    Decodes 32 ((delLinkAttrs dev).run (delLinkReq pid)) [(iflaIfname, dev ++ [0])] := by
  rw [delLinkAttrs_eq, ← length_delLinkReq]
  refine decodes_of_le room_delLinkReq nlmsgLen_delLinkReq (asks_delLink hnul) ?_
  rw [length_delLinkReq]
  exact extent_delLink_le hlen

/-- The calls of `attr` on a request are correct exactly where no aligned length wraps before the
assertion stops them. In particular the requests for routes, addresses and links are read back as
what they ask for. -/
theorem attrs_correct_iff (hroom : Room block₀ start) (hlen : nlmsgLen block₀ = start)
    (hcalls : Asks calls as) :
    (Correct block₀ start calls as ↔ Guarded block₀.length start as) ∧
      (∀ pid add oif dst via d v, pton4 dst = some d → pton4 via = some v →
        Decodes 28 ((routeAttrs false oif dst via).run (routeReq pid add false))
          [(rtaDst, d.bytes), (rtaGateway, v.bytes), (rtaOif, le32 oif)]) ∧
      (∀ pid add oif dst via v, pton4 via = some v →
        Decodes 28 ((routeAttrs true oif dst via).run (routeReq pid add true))
          [(rtaGateway, v.bytes), (rtaOif, le32 oif)]) ∧
      (∀ pid prefixlen index ipv4 x, pton4 ipv4 = some x →
        Decodes 24 ((tunAddrAttrs ipv4).run (tunAddrReq pid prefixlen index))
          [(ifaAddress, x.bytes), (ifaLocal, x.bytes)]) ∧
      ∀ pid dev, 0 ∉ dev → dev.length < 8188 →
        Decodes 32 ((delLinkAttrs dev).run (delLinkReq pid)) [(iflaIfname, dev ++ [0])] :=
  ⟨correct_iff hroom hlen hcalls, fun _ _ _ _ _ _ _ hdst hvia => decodes_route hdst hvia,
    fun _ _ _ _ _ _ hvia => decodes_gateway hvia, fun _ _ _ _ _ hipv4 => decodes_tunAddr hipv4,
    fun _ _ hnul hlen => decodes_delLink hnul hlen⟩

/-- `attrs_correct_iff` for `netlink_del_link` of `tun0`. -/
theorem attrs_correct_tun :
    Correct (delLinkReq 1000) 32 [(iflaIfname, utf8 "tun0" ++ [0])]
      [(iflaIfname, utf8 "tun0" ++ [0])] :=
  (attrs_correct_iff room_delLinkReq nlmsgLen_delLinkReq (.cons ⟨rfl, rfl⟩ .nil)).1.mpr
    (.inr ⟨by decide, trivial⟩)

/-- The name of a link that is so long that its aligned length wraps to zero. -/
def longName : CString := List.replicate (2 ^ 32 - 5) 97

/-- The assertion lets a name of this length through, and `netlink_del_link` writes outside its
request. -/
theorem not_correct_of_length (hnul : 0 ∉ dev) (hlen : dev.length = 2 ^ 32 - 5) :
    ¬ Correct (delLinkReq pid) 32 [(iflaIfname, dev ++ [0])] [(iflaIfname, dev ++ [0])] := by
  have hlength : (dev ++ [0]).length = 2 ^ 32 - 4 := by
    rw [List.length_append, hlen]
    rfl
  rw [correct_iff room_delLinkReq nlmsgLen_delLinkReq (.cons ⟨rfl, payload_label hnul⟩ .nil),
    length_delLinkReq, Guarded, hlength]
  rintro (hstop | ⟨hmask, -⟩)
  · exact absurd hstop (by decide)
  · exact absurd hmask (by decide)

/-- A name with just below 2^32 bytes passes the check of its length and does not fit. -/
theorem not_correct_longName :
    ¬ Correct (delLinkReq 1000) 32 [(iflaIfname, longName ++ [0])]
      [(iflaIfname, longName ++ [0])] :=
  not_correct_of_length (fun hmem => absurd (List.eq_of_mem_replicate hmem) (by decide))
    List.length_replicate

end Netlink
