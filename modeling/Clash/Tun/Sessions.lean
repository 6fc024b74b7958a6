import Clash.Tun.Exchange
import Clash.Tun.Main
import Clash.Tun.Routes

/-!
# Sessions of set and reset

A session takes the default route of the main table away from the link behind the gateway, and gives
it back. Between two sessions the routes are the first ones, up to the header of the default route.

## Main definitions

* `Leads`: a route of the main table that leads to an address, or a default route.
* `Settled`: the kernel between two sessions.
* `Redirected`, `Restored`: what holds behind `set`, and behind `reset`.
* `Clear`: `netlink_get_gateway` finds the default route where it can reach it.

## Main results

* `run_set`, `run_reset`: one session.
* `sessions_restore`: any number of sessions.
-/

open CProg CString Inet Memory Rtnetlink Netlink ClashTun

namespace Kernel

variable {pol : Policy} {w : Net State} {k : State} {r : Route} {rs rest : List Route}
  {links : List Link} {created : ℕ}

/-! ## Routes of the main table -/

/-- A route of the main table that leads to an address alone, or a default route. -/
def Leads (d : Option InAddr) (r : Route) : Prop :=
  r.rtm.table = rtTableMain ∧
    match d with
    | none => r.rtm.dstLen = 0
    | some x => r.rtm.dstLen = 32 ∧ r.dst = some x.bytes

instance (d : Option InAddr) (r : Route) : Decidable (Leads d r) :=
  match d with
  | none => inferInstanceAs (Decidable (_ ∧ _))
  | some _ => inferInstanceAs (Decidable (_ ∧ _ ∧ _))

/-- The route that `netlink_route` adds. -/
def addedRoute (d : Option InAddr) (via : InAddr) (oif : ℕ) : Route :=
  requested (routeRtmsg true d.isNone) (routeAs d via oif)

variable {d d' : Option InAddr} {v : InAddr} {oif : ℕ}

/-- A route that is the same as an added one leads to where that one leads. -/
theorem leads_of_sameRoute (h : SameRoute r (addedRoute d v oif)) : Leads d r := by
  obtain ⟨htable, hdst, hdstLen, -⟩ := h
  cases d with
  | none => exact ⟨htable, hdstLen⟩
  | some x => exact ⟨htable, hdstLen, hdst⟩

/-- So does a route that a deletion matches. -/
theorem leads_of_matches (h : Matches (routeRtmsg false d.isNone) (routeAs d v oif) r) :
    Leads d r := by
  obtain ⟨htable, hdstLen, hdst, -⟩ := h
  cases d with
  | none => exact ⟨htable, hdstLen⟩
  | some x => exact ⟨htable, hdstLen, hdst⟩

/-- A deletion matches the route that was added with the same arguments. -/
theorem matches_addedRoute (d : Option InAddr) (v : InAddr) (oif : ℕ) :
    Matches (routeRtmsg false d.isNone) (routeAs d v oif) (addedRoute d v oif) := by
  cases d <;> exact ⟨rfl, rfl, rfl, rfl, rfl⟩

/-- An added route leads to its own destination only. -/
theorem leads_addedRoute : Leads d' (addedRoute d v oif) ↔ d' = d := by
  constructor
  · intro h
    obtain ⟨-, h⟩ := h
    -- a default route has no destination, and two addresses differ in a byte
    cases d' <;> cases d
    · rfl
    · cases h
    · cases h.1
    · rename_i x y
      have hbytes : some y.bytes = some x.bytes := h.2
      cases x
      cases y
      simp_all [InAddr.bytes]
  · rintro rfl
    cases d'
    · exact ⟨rfl, rfl⟩
    · exact ⟨rfl, rfl, rfl⟩

/-- The gateway of an added route. -/
theorem gateway_addedRoute (d : Option InAddr) (v : InAddr) (oif : ℕ) :
    (addedRoute d v oif).gateway = some v.bytes := by
  cases d <;> rfl

/-- The link of an added route. -/
theorem oif_addedRoute (d : Option InAddr) (v : InAddr) (oif : ℕ) :
    (addedRoute d v oif).oif = some (le32 oif) := by
  cases d <;> rfl

/-- `netlink_route` adds a route that leads somewhere else than all the others. -/
theorem run_addRoute (pol : Policy) {dev via : CString} {dst : Option CString} (hidle : Idle w)
    (h : Has w.kernel links created rs) (hdev : dev ≠ [])
    (hindex : ifNametoindex w.kernel dev = oif) (hoif : 1 ≤ oif ∧ oif < 2 ^ 31)
    (hdst : IsDst dst d) (hvia : pton4 via = some v) (hfree : ∀ r ∈ rs, ¬ Leads d r) :
    ∃ k, (netlinkRoute (sys pol) true d.isNone dev dst via).run w = .ok () { w with kernel := k } ∧
      Has k links created (addedRoute d v oif :: rs) := by
  obtain ⟨k, hchange, hhas⟩ :
      ∃ k, newRoute pol w.kernel (routeRtmsg true d.isNone) (routeAs d v oif) = .ok k ∧
        Has k links created (addedRoute d v oif :: rs) :=
    h.newRoute fun r hr hsame => hfree r hr (leads_of_sameRoute hsame)
  exact ⟨k, run_netlinkRoute hidle hdev hindex hoif hdst hvia hchange, hhas⟩

/-- `netlink_route` removes the only route that leads there. -/
theorem run_delRoute (pol : Policy) {dev via : CString} {dst : Option CString} (hidle : Idle w)
    (h : Has w.kernel links created (r :: rest)) (hdev : dev ≠ [])
    (hindex : ifNametoindex w.kernel dev = oif) (hoif : 1 ≤ oif ∧ oif < 2 ^ 31)
    (hdst : IsDst dst d) (hvia : pton4 via = some v)
    (hr : Matches (routeRtmsg false d.isNone) (routeAs d v oif) r)
    (hfree : ∀ r ∈ rest, ¬ Leads d r) :
    ∃ k, (netlinkRoute (sys pol) false d.isNone dev dst via).run w =
      .ok () { w with kernel := k } ∧ Has k links created rest := by
  obtain ⟨k, hchange, hhas⟩ := h.delRoute hr fun r hr hmatches =>
    hfree r hr (leads_of_matches hmatches)
  exact ⟨k, run_netlinkRoute hidle hdev hindex hoif hdst hvia hchange, hhas⟩

/-! ## Between two sessions -/

/-- The kernel between two sessions: the default route of the main table is `d`, via `gw` on the
wireless link, and no other route leads to the remote host. New links get new indices. -/
structure Settled (pol : Policy) (gw remote : InAddr) (index : ℕ) (k : State) (d : Route)
    (others : List Route) : Prop where
  routes : k.routes.Perm (d :: others)
  default : DefaultRoute d gw index
  noDefault : ∀ r ∈ others, ¬ Leads none r
  noHost : ∀ r ∈ others, ¬ Leads (some remote) r
  wlo : ifNametoindex k wlo = index
  lt : index < 2 ^ 31
  noTun : ∀ l ∈ k.links, l.name ≠ tun
  fresh : ∀ n, k.created ≤ n → (∀ l ∈ k.links, l.index ≠ pol.newIndex n) ∧
    ∀ r ∈ others, r.oif ≠ some (le32 (pol.newIndex n))

variable {gw remote : InAddr} {index : ℕ} {d : Route} {others : List Route}

namespace Settled

/-- `netlink_get_gateway` has accepted the link of the default route. -/
theorem index_eq (h : Settled pol gw remote index k d others) : index = 2 ∨ index = 3 := by
  have hlt := h.lt
  have hmod : index % 2 ^ 32 = index := Nat.mod_eq_of_lt (by omega)
  have hok := h.default.attrs _ (mem_of_find h.default.oif)
  obtain ⟨htype, -⟩ | ⟨-, -, hoif⟩ | htype | ⟨htype, -⟩ | ⟨htype, -⟩ := hok
  · cases htype
  · rwa [ofLE_le32, hmod] at hoif
  · cases htype
  · cases htype
  · cases htype

/-- Indices of links begin at 1. -/
theorem pos (h : Settled pol gw remote index k d others) : 0 < index := by
  have := h.index_eq
  omega

/-- The link that is to come is another one than the default route leaves by. -/
theorem newIndex_ne (h : Settled pol gw remote index k d others) :
    index ≠ pol.newIndex k.created := by
  have hpos := h.pos
  have hwlo := h.wlo
  unfold ifNametoindex at hwlo
  split at hwlo
  · rename_i l hfind
    rw [← hwlo]
    exact (h.fresh _ le_rfl).1 l (List.mem_of_find?_eq_some hfind)
  · omega

/-- The link `tun0` is new. -/
theorem fresh_tun (h : Settled pol gw remote index k d others) :
    Fresh k.links tun (pol.newIndex k.created) := ⟨h.noTun, (h.fresh _ le_rfl).1⟩

/-- `tun0` does not hide the wireless link. -/
theorem wlo_append (h : Settled pol gw remote index k d others) {k' : State} {ls : List Link}
    (hk : k'.links = k.links ++ ls) : ifNametoindex k' ClashTun.wlo = index := by
  have hpos : 0 < ifNametoindex k ClashTun.wlo := by
    rw [h.wlo]
    exact h.pos
  rw [ifNametoindex_append hk hpos, h.wlo]

/-- The routes of a settled table. -/
theorem has (h : Settled pol gw remote index k d others) :
    Has k k.links k.created (d :: others) := ⟨rfl, rfl, h.routes⟩

end Settled

/-! ## A session -/

/-- The address of `tun0` with the length of its network. -/
def tunAddr : List UInt8 × UInt8 := ([10, 0, 0, 1], 24)

/-- The gateway behind `tun0`. -/
def tunGw : InAddr := ⟨10, 0, 0, 2⟩

theorem pton4_tunGw : pton4 (utf8 "10.0.0.2") = some tunGw := by decide

/-- `tun0` while a session lasts. -/
def tunLink (index : ℕ) : Link where
  name := tun
  index := index
  up := true
  addrs := [tunAddr]

/-- The routes of the link itself lead neither to the default nor to the server. -/
theorem leads_of_mem_linkRoutes (hr : r ∈ linkRoutes pol index tunAddr) (d : Option InAddr) :
    ¬ Leads d r := by
  rintro ⟨htable, h⟩
  have hdstLen : r.rtm.dstLen = 24 := (linkRoutes_spec hr).2 htable
  cases d with
  | none => exact absurd (hdstLen.symm.trans h) (by decide)
  | some x => exact absurd (hdstLen.symm.trans h.1) (by decide)

theorem tun_ne_nil : tun ≠ [] := by decide

theorem wlo_ne_nil : wlo ≠ [] := by decide

/-- `set` brings `tun0` up. -/
theorem run_tunUp (hidle : Idle w) (h : Has w.kernel links created rs)
    (hfresh : Fresh links tun (pol.newIndex created)) :
    ∃ k, (tunUp (sys pol)).run w = .ok () { w with kernel := k } ∧
      Has k (links ++ [tunLink (pol.newIndex created)]) (created + 1)
        (linkRoutes pol (pol.newIndex created) tunAddr ++ rs) := by
  have hpos := pol.newIndex_pos created
  have hlt := pol.newIndex_lt created
  set t := pol.newIndex created with ht
  -- the link, its address, and its flag, each on the kernel that the one before has left
  obtain ⟨k₁, hk₁, hhas₁⟩ := h.tunsetiff pol hfresh.name
  have hidle₁ : Idle { w with kernel := k₁ } := ⟨hidle.socket, hidle.recvbuf, hidle.len⟩
  have hindex₁ : ifNametoindex k₁ tun = t :=
    ifNametoindex_last (l := ⟨tun, t, false, []⟩) hfresh hhas₁.links
  obtain ⟨k₂, hk₂, hhas₂⟩ := hhas₁.newAddr pol (a := tunAddr) hfresh
  have hidle₂ : Idle { w with kernel := k₂ } := ⟨hidle.socket, hidle.recvbuf, hidle.len⟩
  have hindex₂ : ifNametoindex k₂ tun = t :=
    ifNametoindex_last (l := ⟨tun, t, false, [tunAddr]⟩) hfresh hhas₂.links
  obtain ⟨k₃, hk₃, hhas₃⟩ := hhas₂.changeUp_true pol hfresh
  have hcreate : (ioctlTunCreate (sys pol) tun).run w = .ok () { w with kernel := k₁ } := by
    have hname : tun.take 15 = tun := by decide
    have htunsetiff : (sys pol).tunsetiff w.kernel tun = some k₁ := hk₁
    refine (run_bind_of_ok (run_assert_of_true tun_ne_nil w)).trans ?_
    rw [ClashTun.tunsetiff, EStateM.run_bind, EStateM.run_get]
    dsimp only
    rw [hname, htunsetiff]
    rfl
  refine ⟨k₃, ?_, ?_⟩
  · have haddr := run_netlinkTunAddr hidle₁ (by decide) tun_ne_nil hindex₁ hpos (by omega)
      (by decide : pton4 (utf8 "10.0.0.1") = some ⟨10, 0, 0, 1⟩) hk₂
    refine (run_bind_of_ok hcreate).trans ((run_bind_of_ok haddr).trans ?_)
    exact run_netlinkFlags hidle₂ tun_ne_nil hindex₂ hpos (by omega) hk₃
  · -- what is left is to bracket the appends alike
    refine hhas₃.perm ?_
    rw [linkRoutes, List.append_assoc]

/-- The routes that the dump lists in front of the default route may be skipped, and the dump fits
the buffer, when `set` asks for the gateway. -/
def Clear (pol : Policy) (w : Net State) : Prop :=
  ∀ w', (tunUp (sys pol)).run w = .ok () w' → Listed pol w'.kernel.routes

instance (pol : Policy) (w : Net State) : Decidable (Clear pol w) :=
  inferInstanceAs (Decidable (∀ w', (tunUp (sys pol)).run w = .ok () w' →
    Listed pol w'.kernel.routes))

/-- The kernel while a session lasts that has started from `k₀`. -/
def During (pol : Policy) (gw remote : InAddr) (index : ℕ) (k₀ k : State)
    (others : List Route) : Prop :=
  Has k (k₀.links ++ [tunLink (pol.newIndex k₀.created)]) (k₀.created + 1)
    (addedRoute (some remote) gw index :: addedRoute none tunGw (pol.newIndex k₀.created) ::
      (linkRoutes pol (pol.newIndex k₀.created) tunAddr ++ others))

variable {remoteHost : CString}

theorem isDst_none : IsDst none none := .inl ⟨rfl, rfl⟩

/-- What `inet_pton` reads is the destination. -/
theorem isDst_of_pton4 {s : CString} {x : InAddr} (h : pton4 s = some x) :
    IsDst (some s) (some x) := by
  refine .inr ⟨s, x, rfl, ?_, h, rfl⟩
  rintro rfl
  cases h

/-- A destination stays free beside the routes of the link. -/
theorem free_append (hothers : ∀ r ∈ others, ¬ Leads d' r) :
    ∀ r ∈ linkRoutes pol index tunAddr ++ others, ¬ Leads d' r := by
  intro r hr
  rcases List.mem_append.mp hr with hr | hr
  · exact leads_of_mem_linkRoutes hr d'
  · exact hothers r hr

/-- A default route of the main table is not skipped only if it is the default route. -/
theorem eq_of_not_skipped (hothers : ∀ r ∈ others, ¬ Leads none r)
    (hroutes : rs.Perm (linkRoutes pol index tunAddr ++ d :: others)) (hr : r ∈ rs)
    (hskip : ¬ Skipped r.rtm) : r = d := by
  have hleads : Leads none r := by
    simp only [Skipped, not_or, not_not] at hskip
    exact ⟨hskip.2.1, hskip.1⟩
  rcases List.mem_append.mp (hroutes.mem_iff.mp hr) with hr | hr
  · exact absurd hleads (leads_of_mem_linkRoutes hr none)
  · rcases List.mem_cons.mp hr with rfl | hr
    · rfl
    · exact absurd hleads (hothers r hr)

/-- The deletion of the default route matches the one that is there. -/
theorem matches_default (h : DefaultRoute d gw index) :
    Matches (routeRtmsg false true) (routeAs none gw index) d := by
  have hskip := h.notSkipped
  simp only [Skipped, not_or, not_not] at hskip
  exact ⟨hskip.2.1, hskip.1, h.dst, h.gateway, h.oif⟩

/-- `set` redirects the default route. -/
theorem run_set (hidle : Idle w) (hsettled : Settled pol gw remote index w.kernel d others)
    (hremote : pton4 remoteHost = some remote) (hclear : Clear pol w) :
    ∃ k, (set (sys pol) remoteHost).run w = .ok () { w with kernel := k, gw := ntop4 gw } ∧
      During pol gw remote index w.kernel k others := by
  have hfresh := hsettled.fresh_tun
  have hindex : 1 ≤ index ∧ index < 2 ^ 31 := ⟨hsettled.pos, hsettled.lt⟩
  have htun : 1 ≤ pol.newIndex w.kernel.created ∧ pol.newIndex w.kernel.created < 2 ^ 31 :=
    ⟨pol.newIndex_pos _, pol.newIndex_lt _⟩
  have hwlo {k : State} (hk : k.links =
      w.kernel.links ++ [tunLink (pol.newIndex w.kernel.created)]) :
      ifNametoindex k wlo = index := hsettled.wlo_append hk
  -- `tun0` is up
  obtain ⟨k₁, hrun₁, hhas₁⟩ := run_tunUp hidle hsettled.has hfresh
  have hidle₁ : Idle { w with kernel := k₁ } := ⟨hidle.socket, hidle.recvbuf, hidle.len⟩
  -- the gateway
  have hmem : d ∈ k₁.routes :=
    hhas₁.routes.mem_iff.mpr (List.mem_append_right _ List.mem_cons_self)
  have hgateway : (netlinkGetGateway (sys pol)).run { w with kernel := k₁ } =
      .ok () { w with kernel := k₁, gw := ntop4 gw } :=
    run_netlinkGetGateway hidle₁ (hclear _ hrun₁) hmem hsettled.default
      fun r hr => eq_of_not_skipped hsettled.noDefault hhas₁.routes hr
  -- the default route moves to `tun0`
  have hidle₂ (k : State) : Idle { w with kernel := k, gw := ntop4 gw } :=
    ⟨hidle.socket, hidle.recvbuf, hidle.len⟩
  obtain ⟨k₂, hrun₂, hhas₂⟩ :
      ∃ k₂, (netlinkRoute (sys pol) false true wlo none (ntop4 gw)).run
          { w with kernel := k₁, gw := ntop4 gw } = .ok () { w with kernel := k₂, gw := ntop4 gw } ∧
        Has k₂ _ _ _ :=
    run_delRoute pol (d := none) (hidle₂ k₁) (hhas₁.perm List.perm_middle) wlo_ne_nil
      (hwlo hhas₁.links) hindex isDst_none (pton4_ntop4 gw) (matches_default hsettled.default)
      (free_append hsettled.noDefault)
  obtain ⟨k₃, hrun₃, hhas₃⟩ :
      ∃ k₃, (netlinkRoute (sys pol) true true tun none (utf8 "10.0.0.2")).run
          { w with kernel := k₂, gw := ntop4 gw } = .ok () { w with kernel := k₃, gw := ntop4 gw } ∧
        Has k₃ _ _ _ :=
    run_addRoute pol (d := none) (hidle₂ k₂) hhas₂ tun_ne_nil
      (ifNametoindex_last (l := tunLink _) hfresh hhas₂.links) htun isDst_none pton4_tunGw
      (free_append hsettled.noDefault)
  -- the route to the remote host
  have hfree : ∀ r ∈ addedRoute none tunGw (pol.newIndex w.kernel.created) ::
      (linkRoutes pol (pol.newIndex w.kernel.created) tunAddr ++ others),
      ¬ Leads (some remote) r := by
    refine List.forall_mem_cons.mpr ⟨?_, free_append hsettled.noHost⟩
    rw [leads_addedRoute]
    exact Option.some_ne_none remote
  obtain ⟨k₄, hrun₄, hhas₄⟩ :
      ∃ k₄, (netlinkRoute (sys pol) true false wlo (some remoteHost) (ntop4 gw)).run
          { w with kernel := k₃, gw := ntop4 gw } = .ok () { w with kernel := k₄, gw := ntop4 gw } ∧
        Has k₄ _ _ _ :=
    run_addRoute pol (d := some remote) (hidle₂ k₃) hhas₃ wlo_ne_nil (hwlo hhas₃.links) hindex
      (isDst_of_pton4 hremote) (pton4_ntop4 gw) hfree
  refine ⟨k₄, ?_, hhas₄⟩
  -- `set` without messages
  change (do
    tunUp (sys pol)
    netlinkGetGateway (sys pol)
    netlinkRoute (sys pol) false true wlo none (← get).gw
    netlinkRoute (sys pol) true true tun none (utf8 "10.0.0.2")
    netlinkRoute (sys pol) true false wlo (some remoteHost) (← get).gw).run w = _
  rw [run_bind_of_ok hrun₁, run_bind_of_ok hgateway, run_bind_of_ok (EStateM.run_get _),
    run_bind_of_ok hrun₂, run_bind_of_ok hrun₃, run_bind_of_ok (EStateM.run_get _)]
  exact hrun₄

/-- The attributes of a default route that was added. -/
theorem attr_addedRoute {gw : InAddr} {a : ℕ × List UInt8}
    (ha : a ∈ (addedRoute none gw index).attrs) :
    a = (rtaTable, le32 rtTableMain.toNat) ∨ a = (rtaGateway, gw.bytes) ∨
      a = (rtaOif, le32 index) := by
  have ha : a ∈ [(rtaTable, le32 rtTableMain.toNat), (rtaGateway, gw.bytes),
    (rtaOif, le32 index)] := ha
  simpa only [List.mem_cons, List.not_mem_nil, or_false] using ha

/-- The default route that `reset` adds is accepted in the next session. -/
theorem defaultRoute_addedRoute (gw : InAddr) (hindex : index = 2 ∨ index = 3) :
    DefaultRoute (addedRoute none gw index) gw index where
  notSkipped := by
    have hrtm : (addedRoute none gw index).rtm = routeRtmsg true true := rfl
    rw [hrtm]
    decide
  header := ⟨rfl, rfl, rfl, .inr rfl, rfl, rfl⟩
  attrs := by
    have hoif : ofLE (le32 index) = 2 ∨ ofLE (le32 index) = 3 := by
      rcases hindex with rfl | rfl
      · exact .inl rfl
      · exact .inr rfl
    intro a ha
    rcases attr_addedRoute ha with rfl | rfl | rfl
    · exact .inr (.inr (.inr (.inr ⟨rfl, rfl, rfl⟩)))
    · exact .inl ⟨rfl, rfl⟩
    · exact .inr (.inl ⟨rfl, rfl, hoif⟩)
  dst := rfl
  gateway := rfl
  gateways := by
    intro a ha htype
    rcases attr_addedRoute ha with rfl | rfl | rfl
    · cases htype
    · rfl
    · cases htype
  oif := rfl

/-- Indices of links are told apart by their four bytes. -/
theorem le32_injOn {i j : ℕ} (hi : i < 2 ^ 31) (hj : j < 2 ^ 31) (h : le32 i = le32 j) : i = j := by
  have hread := congrArg ofLE h
  rw [ofLE_le32, ofLE_le32] at hread
  omega

/-- `reset` gives the default route back, and removes `tun0`. -/
theorem run_reset (hsettled : Settled pol gw remote index k d others)
    (hremote : pton4 remoteHost = some remote) (hidle : Idle w) (hgw : w.gw = ntop4 gw)
    (hduring : During pol gw remote index k w.kernel others) :
    ∃ k', (reset (sys pol) remoteHost).run w = .ok () { w with kernel := k' } ∧
      Has k' k.links (k.created + 1) (addedRoute none gw index :: others) := by
  have hfresh := hsettled.fresh_tun
  have hindex : 1 ≤ index ∧ index < 2 ^ 31 := ⟨hsettled.pos, hsettled.lt⟩
  have htun : 1 ≤ pol.newIndex k.created ∧ pol.newIndex k.created < 2 ^ 31 :=
    ⟨pol.newIndex_pos _, pol.newIndex_lt _⟩
  have hvia : pton4 w.gw = some gw := by
    rw [hgw, pton4_ntop4]
  have hne := hsettled.newIndex_ne
  have hothers := (hsettled.fresh _ le_rfl).2
  set t := pol.newIndex k.created with ht
  have hwlo {k' : State} (hk' : k'.links = k.links ++ [tunLink t]) :
      ifNametoindex k' wlo = index := hsettled.wlo_append hk'
  have htunIndex {k' : State} (hk' : k'.links = k.links ++ [tunLink t]) :
      ifNametoindex k' tun = t := ifNametoindex_last (l := tunLink t) hfresh hk'
  have hidle' (k' : State) : Idle { w with kernel := k' } :=
    ⟨hidle.socket, hidle.recvbuf, hidle.len⟩
  -- the routes of the session
  have hfree₁ : ∀ r ∈ addedRoute none tunGw t :: (linkRoutes pol t tunAddr ++ others),
      ¬ Leads (some remote) r := by
    refine List.forall_mem_cons.mpr ⟨?_, free_append hsettled.noHost⟩
    rw [leads_addedRoute]
    exact Option.some_ne_none remote
  obtain ⟨k₁, hrun₁, hhas₁⟩ :
      ∃ k₁, (netlinkRoute (sys pol) false false wlo (some remoteHost) w.gw).run w =
          .ok () { w with kernel := k₁ } ∧ Has k₁ _ _ _ :=
    run_delRoute pol (d := some remote) hidle hduring wlo_ne_nil (hwlo hduring.links) hindex
      (isDst_of_pton4 hremote) hvia (matches_addedRoute _ _ _) hfree₁
  obtain ⟨k₂, hrun₂, hhas₂⟩ :
      ∃ k₂, (netlinkRoute (sys pol) false true tun none (utf8 "10.0.0.2")).run
          { w with kernel := k₁ } = .ok () { w with kernel := k₂ } ∧ Has k₂ _ _ _ :=
    run_delRoute pol (d := none) (hidle' k₁) hhas₁ tun_ne_nil (htunIndex hhas₁.links) htun
      isDst_none pton4_tunGw (matches_addedRoute _ _ _) (free_append hsettled.noDefault)
  -- the default route
  obtain ⟨k₃, hrun₃, hhas₃⟩ :
      ∃ k₃, (netlinkRoute (sys pol) true true wlo none w.gw).run
          { w with kernel := k₂ } = .ok () { w with kernel := k₃ } ∧ Has k₃ _ _ _ :=
    run_addRoute pol (d := none) (hidle' k₂) hhas₂ wlo_ne_nil (hwlo hhas₂.links) hindex
      isDst_none hvia (free_append hsettled.noDefault)
  -- `tun0` takes its routes along
  obtain ⟨k₄, hchange₄, hhas₄⟩ := hhas₃.changeUp_false pol hfresh
  have hrun₄ := run_netlinkFlags (hidle' k₃) tun_ne_nil (htunIndex hhas₃.links) htun.1 (by omega)
    hchange₄
  have hothers' : ∀ r ∈ addedRoute none gw index :: others, r.oif ≠ some (le32 t) := by
    refine List.forall_mem_cons.mpr ⟨?_, hothers⟩
    rw [oif_addedRoute]
    exact fun h => hne (le32_injOn hindex.2 htun.2 (Option.some.inj h))
  have hroutes : (withoutLink t (addedRoute none gw index ::
      (linkRoutes pol t tunAddr ++ others))).Perm (addedRoute none gw index :: others) := by
    refine (List.perm_middle.symm.filter _).trans (.of_eq ?_)
    exact withoutLink_append (fun r hr => (linkRoutes_spec hr).1) hothers'
  obtain ⟨k₅, hchange₅, hhas₅⟩ := (hhas₄.perm hroutes).delLink hfresh
  have hrun₅ : (netlinkDelLink (sys pol) tun).run { w with kernel := k₄ } =
      .ok () { w with kernel := k₅ } :=
    run_netlinkDelLink (hidle' k₄) (by decide) (by decide) hchange₅
  have hkept : withoutLink t (addedRoute none gw index :: others) =
      addedRoute none gw index :: others :=
    withoutLink_append (L := []) (by simp) hothers'
  refine ⟨k₅, ?_, ?_⟩
  · change (do
      netlinkRoute (sys pol) false false wlo (some remoteHost) (← get).gw
      netlinkRoute (sys pol) false true tun none (utf8 "10.0.0.2")
      netlinkRoute (sys pol) true true wlo none (← get).gw
      netlinkFlags (sys pol) false tun
      netlinkDelLink (sys pol) tun).run w = _
    rw [run_bind_of_ok (EStateM.run_get _), run_bind_of_ok hrun₁, run_bind_of_ok hrun₂,
      run_bind_of_ok (EStateM.run_get _), run_bind_of_ok hrun₃, run_bind_of_ok hrun₄]
    exact hrun₅
  · rwa [hkept] at hhas₅

/-- `reset` leaves the kernel settled for the next session. -/
theorem Settled.next (h : Settled pol gw remote index k d others) {k' : State}
    (hk' : Has k' k.links (k.created + 1) (addedRoute none gw index :: others)) :
    Settled pol gw remote index k' (addedRoute none gw index) others where
  routes := hk'.routes
  default := defaultRoute_addedRoute gw h.index_eq
  noDefault := h.noDefault
  noHost := h.noHost
  wlo := by
    have hlinks : k'.links = k.links ++ [] := by
      rw [hk'.links, List.append_nil]
    exact h.wlo_append hlinks
  lt := h.lt
  noTun := by
    rw [hk'.links]
    exact h.noTun
  fresh := by
    rw [hk'.links, hk'.created]
    exact fun n hn => h.fresh n (by omega)

/-! ## Sessions -/

/-- The destination of a route, the length of its prefix, the gateway and the link. -/
def Route.key (r : Route) :
    Option (List UInt8) × UInt8 × Option (List UInt8) × Option (List UInt8) :=
  (r.dst, r.rtm.dstLen, r.gateway, r.oif)

/-- The main table up to the headers of its routes. -/
def mainTable (k : State) :
    List (Option (List UInt8) × UInt8 × Option (List UInt8) × Option (List UInt8)) :=
  (k.routes.filter fun r => r.rtm.table = rtTableMain).map Route.key

/-- The default route goes through `tun0`, and the only route to the remote host goes through the
gateway. -/
structure Redirected (gw remote : InAddr) (k : State) : Prop where
  up : ∃ l ∈ k.links, l.name = tun ∧ l.up = true
  default : ∃ r, k.routes.filter (Leads none) = [r] ∧ r.gateway = some tunGw.bytes ∧
    r.oif = some (le32 (ifNametoindex k tun))
  host : ∃ r, k.routes.filter (Leads (some remote)) = [r] ∧ r.gateway = some gw.bytes ∧
    r.oif = some (le32 (ifNametoindex k wlo))

/-- `tun0` is gone with its routes, and the links and the main table are those of `k₀`. `k₁` is the
kernel before `reset`. -/
structure Restored (k₀ k₁ k : State) : Prop where
  links : k.links = k₀.links
  noTun : ∀ l ∈ k.links, l.name ≠ tun
  noRoute : ∀ r ∈ k.routes, r.oif ≠ some (le32 (ifNametoindex k₁ tun))
  mainTable : (mainTable k).Perm (mainTable k₀)

/-- The only route that leads somewhere. -/
theorem filter_leads {d : Option InAddr} {rs rs₂ : List Route} (rs₁ : List Route)
    (h : rs.Perm (rs₁ ++ r :: rs₂)) (hr : Leads d r) (h₁ : ∀ r ∈ rs₁, ¬ Leads d r)
    (h₂ : ∀ r ∈ rs₂, ¬ Leads d r) : rs.filter (Leads d) = [r] := by
  refine List.perm_singleton.mp ((h.filter _).trans (.of_eq ?_))
  rw [List.filter_append, List.filter_cons_of_pos (by simpa using hr),
    List.filter_eq_nil_iff.mpr (by simpa using h₁), List.filter_eq_nil_iff.mpr (by simpa using h₂)]
  rfl

/-- During a session the traffic is redirected. -/
theorem During.redirected (hsettled : Settled pol gw remote index k₀ d others)
    (h : During pol gw remote index k₀ k others) : Redirected gw remote k where
  up := ⟨tunLink (pol.newIndex k₀.created), by rw [h.links]; simp, rfl, rfl⟩
  default := by
    refine ⟨addedRoute none tunGw (pol.newIndex k₀.created), ?_, rfl, ?_⟩
    · refine filter_leads [addedRoute (some remote) gw index] h.routes
        (leads_addedRoute.mpr rfl) ?_ (free_append hsettled.noDefault)
      rw [List.forall_mem_singleton, leads_addedRoute]
      exact (Option.some_ne_none remote).symm
    · rw [oif_addedRoute]
      exact congrArg (fun i => some (le32 i))
        (ifNametoindex_last (l := tunLink _) hsettled.fresh_tun h.links).symm
  host := by
    refine ⟨addedRoute (some remote) gw index, ?_, gateway_addedRoute _ _ _, ?_⟩
    · refine filter_leads [] h.routes (leads_addedRoute.mpr rfl) (by simp) ?_
      refine List.forall_mem_cons.mpr ⟨?_, free_append hsettled.noHost⟩
      rw [leads_addedRoute]
      exact Option.some_ne_none remote
    · rw [oif_addedRoute, hsettled.wlo_append h.links]

/-- Between sessions the main table depends on the default route only in its header. -/
theorem Settled.mainTable_perm (h : Settled pol gw remote index k d others) :
    (mainTable k).Perm ((none, 0, some gw.bytes, some (le32 index)) ::
      (others.filter fun r => r.rtm.table = rtTableMain).map Route.key) := by
  have hskip := h.default.notSkipped
  simp only [Skipped, not_or, not_not] at hskip
  obtain ⟨hdstLen, htable, -⟩ := hskip
  refine ((h.routes.filter _).map _).trans (.of_eq ?_)
  rw [List.filter_cons_of_pos (by simpa using htable), List.map_cons, Route.key, hdstLen,
    h.default.dst, h.default.gateway, h.default.oif]

/-- What a session restores of the kernel `k₀`, from which the sessions before it have led to its
start. -/
theorem During.restored {k₀ k₁ k₂ : State} {d₀ : Route}
    (hfirst : Settled pol gw remote index k₀ d₀ others)
    (hsettled : Settled pol gw remote index k d others)
    (h : During pol gw remote index k k₁ others) (hlinks : k₂.links = k₀.links)
    (hnext : Settled pol gw remote index k₂ (addedRoute none gw index) others) :
    Restored k₀ k₁ k₂ := by
  refine ⟨hlinks, hnext.noTun, ?_, hnext.mainTable_perm.trans hfirst.mainTable_perm.symm⟩
  have htun : ifNametoindex k₁ tun = pol.newIndex k.created :=
    ifNametoindex_last (l := tunLink _) hsettled.fresh_tun h.links
  intro r hr
  rw [htun]
  rcases List.mem_cons.mp (hnext.routes.mem_iff.mp hr) with rfl | hr
  · rw [oif_addedRoute]
    exact fun h => hsettled.newIndex_ne
      (le32_injOn hsettled.lt (pol.newIndex_lt _) (Option.some.inj h))
  · exact (hsettled.fresh _ le_rfl).2 r hr

/-- One more session. -/
theorem run_sessions_succ {w₀ w₁ w₂ : Net State} {n : ℕ}
    (hrun : (sessions (sys pol) remoteHost n).run w₀ = .ok () w)
    (hset : (set (sys pol) remoteHost).run w = .ok () w₁)
    (hreset : (reset (sys pol) remoteHost).run w₁ = .ok () w₂) :
    (sessions (sys pol) remoteHost (n + 1)).run w₀ = .ok () w₂ := by
  rw [sessions, EStateM.run_bind, hrun]
  dsimp only
  rw [EStateM.run_bind, hset]
  exact hreset

/-- `set` and `reset` bring a settled kernel to a settled kernel. -/
theorem run_session (hidle : Idle w) (hsettled : Settled pol gw remote index w.kernel d others)
    (hremote : pton4 remoteHost = some remote) (hclear : Clear pol w) :
    ∃ w₁ w₂, (set (sys pol) remoteHost).run w = .ok () w₁ ∧
      (reset (sys pol) remoteHost).run w₁ = .ok () w₂ ∧ w₁.gw = ntop4 gw ∧
      During pol gw remote index w.kernel w₁.kernel others ∧ Idle w₂ ∧
      w₂.kernel.links = w.kernel.links ∧
      Settled pol gw remote index w₂.kernel (addedRoute none gw index) others := by
  obtain ⟨k₁, hset, hduring⟩ := run_set hidle hsettled hremote hclear
  have hidle₁ : Idle { w with kernel := k₁, gw := ntop4 gw } :=
    ⟨hidle.socket, hidle.recvbuf, hidle.len⟩
  obtain ⟨k₂, hreset, hhas⟩ := run_reset hsettled hremote hidle₁ rfl hduring
  exact ⟨_, { w with kernel := k₂, gw := ntop4 gw }, hset, hreset, rfl, hduring,
    ⟨hidle.socket, hidle.recvbuf, hidle.len⟩, hhas.links, hsettled.next hhas⟩

/-- Behind any number of sessions the kernel is settled. -/
theorem settled_of_sessions {w₀ : Net State} (hidle : Idle w₀)
    (hsettled : Settled pol gw remote index w₀.kernel d others)
    (hremote : pton4 remoteHost = some remote) {n : ℕ}
    (hclear : ∀ m < n, ∀ w, (sessions (sys pol) remoteHost m).run w₀ = .ok () w → Clear pol w) :
    ∃ w d', (sessions (sys pol) remoteHost n).run w₀ = .ok () w ∧ Idle w ∧
      Settled pol gw remote index w.kernel d' others ∧ w.kernel.links = w₀.kernel.links := by
  induction n with
  | zero => exact ⟨w₀, d, rfl, hidle, hsettled, rfl⟩
  | succ n ih =>
    obtain ⟨w, d', hrun, hidle', hsettled', hlinks⟩ := ih fun m hm => hclear m (by omega)
    obtain ⟨w₁, w₂, hset, hreset, -, -, hidle₂, hlinks₂, hnext⟩ :=
      run_session hidle' hsettled' hremote (hclear n (by omega) w hrun)
    exact ⟨w₂, _, run_sessions_succ hrun hset hreset, hidle₂, hnext, hlinks₂.trans hlinks⟩

/-- Sessions, one behind the other, redirect the default route and restore the main table, as long
as `netlink_get_gateway` reaches the default route in each of them. -/
theorem sessions_restore {w₀ : Net State} (hidle : Idle w₀)
    (hsettled : Settled pol gw remote index w₀.kernel d others)
    (hremote : pton4 remoteHost = some remote) (n : ℕ)
    (hclear : ∀ m < n, ∀ w, (sessions (sys pol) remoteHost m).run w₀ = .ok () w → Clear pol w) :
    ∀ m < n, ∃ w w₁ w₂, (sessions (sys pol) remoteHost m).run w₀ = .ok () w ∧
      (set (sys pol) remoteHost).run w = .ok () w₁ ∧
      (reset (sys pol) remoteHost).run w₁ = .ok () w₂ ∧
      (sessions (sys pol) remoteHost (m + 1)).run w₀ = .ok () w₂ ∧
      w₁.gw = ntop4 gw ∧ Redirected gw remote w₁.kernel ∧
      Restored w₀.kernel w₁.kernel w₂.kernel := by
  intro m hm
  -- what the sessions before have left is settled again
  obtain ⟨w, d', hrun, hidle', hsettled', hlinks⟩ :=
    settled_of_sessions hidle hsettled hremote fun i hi => hclear i (hi.trans hm)
  obtain ⟨w₁, w₂, hset, hreset, hgw, hduring, -, hlinks₂, hnext⟩ :=
    run_session hidle' hsettled' hremote (hclear m hm w hrun)
  exact ⟨w, w₁, w₂, hrun, hset, hreset, run_sessions_succ hrun hset hreset, hgw,
    hduring.redirected hsettled', hduring.restored hsettled hsettled' (hlinks₂.trans hlinks) hnext⟩

/-! ## A host in a home network -/

/-- The route to an address of a link itself. -/
def localRoute (index : ℕ) (a : List UInt8 × UInt8) : Route where
  rtm :=
    { family := afInet, dstLen := 32, srcLen := 0, tos := 0, table := rtTableLocal,
      protocol := rtprotKernel, scope := rtScopeHost, type := rtnLocal, flags := 0 }
  attrs := [(rtaTable, le32 rtTableLocal.toNat), (rtaDst, a.1), (rtaPrefsrc, a.1),
    (rtaOif, le32 index)]

/-- A kernel that lists default routes in front of all others. -/
def linux : Policy where
  pid := 4711
  pid_lt := by decide
  place rs r := if r.rtm.dstLen = 0 then 0 else rs.length
  newIndex n := n % 2 ^ 20 + 4
  newIndex_pos n := Nat.succ_pos _
  newIndex_lt n := by omega
  localRoutes index a := [localRoute index a]
  broadcastRoutes _ _ := []
  localRoutes_spec index a r hr := by
    obtain rfl : r = localRoute index a := by simpa using hr
    exact ⟨by change rtTableLocal ≠ rtTableMain; decide, rfl⟩
  cut ms := ms.map fun m => [m]
  cut_flatten ms := by
    rw [← List.flatMap_def]
    exact List.flatMap_singleton' ms
  cut_ne_nil ms segment h := by
    obtain ⟨m, -, rfl⟩ := List.mem_map.mp h
    exact List.cons_ne_nil m []

/-- A host with one link, before the first session. -/
def home (routes : List Route) : Net State where
  kernel := { links := [⟨wlo, 2, true, [([192, 168, 1, 2], 24)]⟩], routes, created := 0 }
  socket := []
  recvbuf := List.replicate sz 0
  len := 0
  gw := []

/-- Nothing is under way on the socket. -/
theorem idle_home (routes : List Route) : Idle (home routes) := ⟨rfl, rfl, rfl⟩

/-- The example is settled whatever the order of its two routes. -/
theorem settled_home {routes : List Route} (h : routes.Perm [dhcpRoute, lanRoute]) :
    Settled linux ⟨192, 168, 1, 1⟩ ⟨203, 0, 113, 7⟩ 2 (home routes).kernel dhcpRoute
      [lanRoute] where
  routes := h
  default := ⟨⟨by decide, by decide, by decide⟩, rfl, rfl, by decide, rfl⟩
  noDefault := by decide
  noHost := by decide
  wlo := rfl
  lt := by decide
  noTun := List.forall_mem_singleton.mpr (by decide : wlo ≠ tun)
  fresh n _ := by
    refine ⟨?_, ?_⟩
    · rw [home, List.forall_mem_singleton]
      change 2 ≠ n % 2 ^ 20 + 4
      omega
    · rw [List.forall_mem_singleton]
      intro h
      have hread := le32_injOn (i := 2) (by decide) (linux.newIndex_lt n) (Option.some.inj h)
      change 2 = n % 2 ^ 20 + 4 at hread
      omega

/-- `sessions_restore` for the second session on such a host. -/
theorem sessions_restore_home :
    ∃ w w₁ w₂,
      (sessions (sys linux) (utf8 "203.0.113.7") 1).run (home [dhcpRoute, lanRoute]) = .ok () w ∧
      (set (sys linux) (utf8 "203.0.113.7")).run w = .ok () w₁ ∧
      (reset (sys linux) (utf8 "203.0.113.7")).run w₁ = .ok () w₂ ∧
      (sessions (sys linux) (utf8 "203.0.113.7") 2).run (home [dhcpRoute, lanRoute]) =
        .ok () w₂ ∧
      w₁.gw = ntop4 ⟨192, 168, 1, 1⟩ ∧
      Redirected ⟨192, 168, 1, 1⟩ ⟨203, 0, 113, 7⟩ w₁.kernel ∧
      Restored (home [dhcpRoute, lanRoute]).kernel w₁.kernel w₂.kernel :=
  sessions_restore (idle_home _) (settled_home (.refl _)) (by decide) 2 (by decide +kernel) 1
    (by decide)

/-- Where the home network is listed in front of the default route, `set` aborts. -/
theorem set_aborts_home :
    Idle (home [lanRoute, dhcpRoute]) ∧
      Settled linux ⟨192, 168, 1, 1⟩ ⟨203, 0, 113, 7⟩ 2 (home [lanRoute, dhcpRoute]).kernel
        dhcpRoute [lanRoute] ∧
      pton4 (utf8 "203.0.113.7") = some ⟨203, 0, 113, 7⟩ ∧
      returned ((set (sys linux) (utf8 "203.0.113.7")).run (home [lanRoute, dhcpRoute])) = false :=
  ⟨idle_home _, settled_home (.swap _ _ _), by decide, by decide +kernel⟩

end Kernel
