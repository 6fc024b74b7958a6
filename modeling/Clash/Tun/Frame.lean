import Clash.Tun.Restored

/-!
# What a run leaves alone

A session changes default routes, routes to the remote host, and what belongs to the TUN link.
However it ends, the other routes and links of the kernel are as they were.

## Main definitions

* `Own`, `OwnLink`: the routes and links that a session may change.
* `Kept`: the others are as they were.

## Main results

* `Kept.request`: a request of a session leaves the others as they were.
* `triple_session`: so does a session, however it ends.
* `main_keeps`: whatever a run of `main` comes to.
-/

open CProg CString Inet Memory Rtnetlink Netlink

namespace Kernel

variable {κ : Type} {pol : Policy} {k k₀ k' : State} {remote : InAddr} {i : ℕ} {r : Route}
  {rs xs : List Route}

/-! ## The routes and links of others -/

/-- The index that the TUN link has, or will have. -/
def tunIndex (pol : Policy) (k : State) : ℕ :=
  match k.links.find? fun l => l.name = ClashTun.tun with
  | some l => l.index
  | none => pol.newIndex k.created

/-- A route that a session may add or remove. -/
def Own (remote : InAddr) (i : ℕ) (r : Route) : Prop :=
  Leads none r ∨ Leads (some remote) r ∨ r.oif = some (le32 i)

instance (r : Route) : Decidable (Own remote i r) := inferInstanceAs (Decidable (_ ∨ _ ∨ _))

/-- A link that a session may add, change or remove. -/
def OwnLink (i : ℕ) (l : Link) : Prop := l.name = ClashTun.tun ∨ l.index = i

instance (l : Link) : Decidable (OwnLink i l) := inferInstanceAs (Decidable (_ ∨ _))

/-- The routes of others, in their order. -/
def foreignRoutes (remote : InAddr) (i : ℕ) (rs : List Route) : List Route :=
  rs.filter fun r => ¬ Own remote i r

def foreignLinks (i : ℕ) (ls : List Link) : List Link := ls.filter fun l => ¬ OwnLink i l

/-- The routes and links of others are as they were, and the TUN link has its index. -/
structure Kept (remote : InAddr) (i : ℕ) (k₀ k : State) : Prop where
  routes : foreignRoutes remote i k.routes = foreignRoutes remote i k₀.routes
  links : foreignLinks i k.links = foreignLinks i k₀.links
  tun : ∀ l, k.links.find? (fun l => l.name = ClashTun.tun) = some l → l.index = i

theorem foreignRoutes_insert (h : Own remote i r) :
    foreignRoutes remote i (insert pol rs r) = foreignRoutes remote i rs := by
  rw [foreignRoutes, insert, List.filter_append, List.filter_cons_of_neg (by simpa using h),
    ← List.filter_append, List.take_append_drop, foreignRoutes]

theorem foreignRoutes_insertAll (h : ∀ x ∈ xs, Own remote i x) :
    foreignRoutes remote i (insertAll pol rs xs) = foreignRoutes remote i rs := by
  induction xs generalizing rs with
  | nil => rfl
  | cons x xs ih =>
    rw [List.forall_mem_cons] at h
    exact (ih h.2).trans (foreignRoutes_insert h.1)

theorem foreignRoutes_eraseP {p : Route → Bool} (h : ∀ r, p r = true → Own remote i r) :
    foreignRoutes remote i (rs.eraseP p) = foreignRoutes remote i rs := by
  induction rs with
  | nil => rfl
  | cons r rs ih =>
    by_cases hr : p r = true
    · rw [List.eraseP_cons_of_pos hr, foreignRoutes, foreignRoutes,
        List.filter_cons_of_neg (by simpa using h r hr)]
    · rw [List.eraseP_cons_of_neg hr]
      rw [foreignRoutes, foreignRoutes] at ih ⊢
      rw [List.filter_cons, List.filter_cons, ih]

theorem foreignRoutes_withoutLink :
    foreignRoutes remote i (withoutLink i rs) = foreignRoutes remote i rs := by
  rw [foreignRoutes, withoutLink, List.filter_filter, foreignRoutes]
  apply List.filter_congr
  intro r _
  by_cases hoif : r.oif = some (le32 i)
  · have hown : Own remote i r := .inr (.inr hoif)
    simp [hown]
  · simp [hoif]

section SetLink

variable {f : Link → Link}

/-- A change to the TUN link is no change to a link of others. -/
theorem foreignLinks_setLink (hindex : ∀ l, (f l).index = l.index) :
    foreignLinks i (setLink k i f).links = foreignLinks i k.links := by
  rw [setLink]
  dsimp only
  induction k.links with
  | nil => rfl
  | cons l ls ih =>
    rw [foreignLinks, foreignLinks] at ih ⊢
    rw [List.map_cons]
    by_cases hl : l.index = i
    · have hown : OwnLink i (f l) := .inr ((hindex l).trans hl)
      have hown' : OwnLink i l := .inr hl
      rw [if_pos hl, List.filter_cons_of_neg (by simpa using hown),
        List.filter_cons_of_neg (by simpa using hown'), ih]
    · rw [if_neg hl, List.filter_cons, List.filter_cons, ih]

/-- The TUN link keeps its index. -/
theorem index_of_find_setLink {j : ℕ} (hname : ∀ l, (f l).name = l.name)
    (hindex : ∀ l, (f l).index = l.index)
    (h : ∀ l, k.links.find? (fun l => l.name = ClashTun.tun) = some l → l.index = i) {l : Link}
    (hl : (setLink k j f).links.find? (fun l => l.name = ClashTun.tun) = some l) : l.index = i := by
  rw [setLink] at hl
  dsimp only at hl
  rw [List.find?_map] at hl
  obtain ⟨l₀, hl₀, rfl⟩ := Option.map_eq_some_iff.mp hl
  -- names stay, so it is the same link that is found
  have hsame : ((fun l => decide (l.name = ClashTun.tun)) ∘ fun l =>
      if l.index = j then f l else l) = fun l : Link => decide (l.name = ClashTun.tun) := by
    funext l
    dsimp only [Function.comp]
    split
    · rw [hname]
    · rfl
  rw [hsame] at hl₀
  split
  · rw [hindex]
    exact h l₀ hl₀
  · exact h l₀ hl₀

end SetLink

/-! ## Requests of a session -/

namespace Kept

theorem refl (pol : Policy) (remote : InAddr) (k : State) : Kept remote (tunIndex pol k) k k where
  routes := rfl
  links := rfl
  tun l hl := by rw [tunIndex, hl]

/-- The TUN link is there already, or is the one that is created. -/
theorem tunsetiff (h : tunsetiff pol k ClashTun.tun = some k') :
    Kept remote (tunIndex pol k) k k' := by
  unfold Kernel.tunsetiff at h
  split at h
  · cases h
    exact refl pol remote k
  · rename_i hnone
    cases h
    -- no link has the name, so the one at the end is the first
    have hfind : k.links.find? (fun l => l.name = ClashTun.tun) = none := by
      rw [List.find?_eq_none]
      intro l hl
      simpa using fun hname => hnone ⟨l, hl, hname⟩
    refine ⟨rfl, ?_, fun l hl => ?_⟩
    · rw [foreignLinks, List.filter_append, List.filter_cons_of_neg, List.filter_nil,
        List.append_nil, foreignLinks]
      have hown : OwnLink (tunIndex pol k) ⟨ClashTun.tun, pol.newIndex k.created, false, []⟩ :=
        .inl rfl
      simpa using hown
    · rw [List.find?_append, hfind] at hl
      cases hl
      rw [tunIndex, hfind]

variable {d : Option InAddr} {v : InAddr} {oif : ℕ}

/-- Routes to nowhere else are added and removed. -/
theorem changeRoute {add : Bool} (h : Kept remote i k₀ k) (hd : d = none ∨ d = some remote)
    (hchange : changeRoute pol k add (routeRtmsg add d.isNone) (routeAs d v oif) = .ok k') :
    Kept remote i k₀ k' := by
  have hown {r : Route} (hr : Leads d r) : Own remote i r := by
    rcases hd with rfl | rfl
    · exact .inl hr
    · exact .inr (.inl hr)
  unfold Kernel.changeRoute at hchange
  -- what is added or removed is a route to the destination
  cases add with
  | true =>
    rw [if_pos rfl, newRoute] at hchange
    split at hchange
    · cases hchange
    · cases hchange
      have hadded : Own remote i (addedRoute d v oif) := hown (leads_addedRoute.mpr rfl)
      exact ⟨(foreignRoutes_insert hadded).trans h.routes, h.links, h.tun⟩
  | false =>
    rw [if_neg Bool.false_ne_true, delRoute] at hchange
    split at hchange
    · cases hchange
      refine ⟨(foreignRoutes_eraseP fun r hr => ?_).trans h.routes, h.links, h.tun⟩
      exact hown (leads_of_matches (of_decide_eq_true hr))
    · cases hchange

theorem setLink (f : Link → Link) (h : Kept remote i k₀ k) (hname : ∀ l, (f l).name = l.name)
    (hindex : ∀ l, (f l).index = l.index) : Kept remote i k₀ (setLink k i f) :=
  ⟨h.routes, (foreignLinks_setLink hindex).trans h.links,
    fun _ => index_of_find_setLink hname hindex h.tun⟩

theorem newAddr {a : List UInt8 × UInt8} (h : Kept remote i k₀ k)
    (hchange : newAddr pol k i a = .ok k') : Kept remote i k₀ k' := by
  unfold Kernel.newAddr at hchange
  split at hchange
  · cases hchange
  rename_i l _
  split at hchange
  · cases hchange
  cases hchange
  have hset := h.setLink (fun l => { l with addrs := l.addrs ++ [a] }) (fun _ => rfl) fun _ => rfl
  refine ⟨(foreignRoutes_insertAll fun r hr => ?_).trans hset.routes, hset.links, hset.tun⟩
  -- the routes that come with an address lead through its link
  have hmem : r ∈ linkRoutes pol i a := by
    rw [linkRoutes]
    rcases List.mem_append.mp hr with hr | hr
    · exact List.mem_append_right _ hr
    · split at hr
      · exact List.mem_append_left _ hr
      · cases hr
  exact .inr (.inr (linkRoutes_spec hmem).1)

theorem changeUp {up : Bool} (h : Kept remote i k₀ k) (hchange : changeUp pol k i up = .ok k') :
    Kept remote i k₀ k' := by
  unfold Kernel.changeUp at hchange
  split at hchange
  · cases hchange
  rename_i l _
  have hset := h.setLink (fun l => { l with up }) (fun _ => rfl) fun _ => rfl
  dsimp only at hchange
  split at hchange
  · cases hchange
    refine ⟨(foreignRoutes_insertAll fun r hr => ?_).trans hset.routes, hset.links, hset.tun⟩
    obtain ⟨a, -, hr⟩ := List.mem_flatMap.mp hr
    exact .inr (.inr (linkRoutes_spec (a := a) (List.mem_append_left _ hr)).1)
  · split at hchange
    · cases hchange
      exact hset
    · cases hchange
      exact ⟨foreignRoutes_withoutLink.trans hset.routes, hset.links, hset.tun⟩

theorem delLink (h : Kept remote i k₀ k) (hchange : delLink k ClashTun.tun = .ok k') :
    Kept remote i k₀ k' := by
  unfold Kernel.delLink at hchange
  split at hchange
  · cases hchange
  rename_i l hl
  cases hchange
  -- the link that goes is the TUN link
  have hi : l.index = i := h.tun l hl
  refine ⟨?_, ?_, fun l' hl' => ?_⟩
  · dsimp only
    rw [hi]
    exact foreignRoutes_withoutLink.trans h.routes
  · rw [← h.links, foreignLinks, List.filter_filter, foreignLinks]
    apply List.filter_congr
    intro l' _
    by_cases hname : l'.name = ClashTun.tun
    · have hown : OwnLink i l' := .inl hname
      simp [hown]
    · simp [hname]
  · have hname := List.find?_some hl'
    have hmem := (List.mem_filter.mp (List.mem_of_find?_eq_some hl')).2
    simp_all

end Kept

/-! ## Requests as they are sent -/

section Built

variable {req : List UInt8} {pid oif index : ℕ} {via ipv4 : CString} {prefixlen : UInt8}

/-- A request is built by the calls of `attr` on its header. -/
theorem exists_of_built {block₀ : List UInt8} {start : ℕ} {calls : List (ℕ × List UInt8)}
    (hroom : Room block₀ start) (hlen : nlmsgLen block₀ = start)
    (h : built block₀ (attrs block₀.length calls) = some req) :
    ∃ as, Asks calls as ∧ Appends block₀ start as req := by
  unfold built at h
  split at h
  · rename_i block hrun
    cases h
    obtain ⟨as, hasks, happends⟩ := appends_of_run_attrs hroom (.nil hlen) hroom.le_length hrun
    exact ⟨as, hasks, happends⟩
  · cases h

/-- The text of an address is written as its bytes. -/
theorem exists_of_payload {type : ℕ} {data pl : List UInt8}
    (htype : type = rtaGateway ∨ type = ifaAddress ∨ type = ifaLocal)
    (h : payload type data = some pl) : ∃ x, pton4 (ofBlock data) = some x ∧ pl = x.bytes := by
  rcases payload_cases h with ⟨rfl, -⟩ | ⟨rfl | rfl, -⟩ | ⟨-, -, hx⟩
  · exact absurd htype (by decide)
  · exact absurd htype (by decide)
  · exact absurd htype (by decide)
  · exact hx

theorem exists_of_asks {as : List (ℕ × List UInt8)}
    (h : Asks [(rtaGateway, via ++ [0]), (rtaOif, le32 oif)] as) :
    ∃ v : InAddr, as = [(rtaGateway, v.bytes), (rtaOif, le32 oif)] := by
  rcases List.forall₂_cons_left_iff.mp h with ⟨⟨type, pl⟩, as, ⟨rfl, hpl⟩, hrest, rfl⟩
  rcases List.forall₂_cons_left_iff.mp hrest with ⟨⟨type, pl'⟩, as, ⟨rfl, hpl'⟩, hnil, rfl⟩
  obtain ⟨v, -, rfl⟩ := exists_of_payload (.inl rfl) hpl
  obtain rfl : le32 oif = pl' := Option.some.inj ((payload_word oif).symm.trans hpl')
  rw [List.forall₂_nil_left_iff.mp hnil]
  exact ⟨v, rfl⟩

variable (pol k) in
/-- A request of `netlink_route` is about the route that its arguments name. -/
theorem change_route {add : Bool} (d : Option InAddr)
    (h : built (routeReq pid add d.isNone)
      (routeAttrs d.isNone oif ((d.map ntop4).getD []) via) = some req) :
    ∃ v, change pol k req = changeRoute pol k add (routeRtmsg add d.isNone) (routeAs d v oif) := by
  obtain ⟨v, happends⟩ : ∃ v, Appends (routeReq pid add d.isNone) 28 (routeAs d v oif) req := by
    cases d with
    | none =>
      change built _ (routeAttrs true oif _ via) = _ at h
      rw [routeAttrs_gateway, ← length_routeReq] at h
      obtain ⟨as, hasks, happends⟩ := exists_of_built room_routeReq nlmsgLen_routeReq h
      obtain ⟨v, rfl⟩ := exists_of_asks hasks
      exact ⟨v, happends⟩
    | some x =>
      change built _ (routeAttrs false oif (ntop4 x) via) = _ at h
      rw [routeAttrs_route, ← length_routeReq] at h
      obtain ⟨as, hasks, happends⟩ := exists_of_built room_routeReq nlmsgLen_routeReq h
      rcases List.forall₂_cons_left_iff.mp hasks with ⟨⟨type, pl⟩, as, ⟨rfl, hpl⟩, hrest, rfl⟩
      rw [payload_address (.inr (.inl rfl)) (pton4_ntop4 x)] at hpl
      cases hpl
      obtain ⟨v, rfl⟩ := exists_of_asks hrest
      exact ⟨v, happends⟩
  exact ⟨v, (change_routeReq happends (routeAs_type_lt _ _ _) (extent_routeAs_le _ _ _)).2⟩

variable (pol k) in
/-- A request of `netlink_tun_addr` is for an address of its link. -/
theorem change_tunAddr (hlt : index < 2 ^ 32)
    (h : built (tunAddrReq pid prefixlen index) (tunAddrAttrs ipv4) = some req) :
    ∃ a, change pol k req = newAddr pol k index a := by
  rw [tunAddrAttrs_eq, ← length_tunAddrReq] at h
  obtain ⟨as, hasks, happends⟩ := exists_of_built room_tunAddrReq nlmsgLen_tunAddrReq h
  rcases List.forall₂_cons_left_iff.mp hasks with ⟨⟨type, pl⟩, as, ⟨rfl, hpl⟩, hrest, rfl⟩
  rcases List.forall₂_cons_left_iff.mp hrest with ⟨⟨type, pl'⟩, as, ⟨rfl, hpl'⟩, hnil, rfl⟩
  obtain ⟨x, hx, rfl⟩ := exists_of_payload (.inr (.inl rfl)) hpl
  obtain ⟨x', hx', rfl⟩ := exists_of_payload (.inr (.inr rfl)) hpl'
  rw [hx] at hx'
  cases hx'
  rw [List.forall₂_nil_left_iff.mp hnil] at happends
  exact ⟨_, (change_tunAddrReq happends hlt).2⟩

/-- A request of `netlink_del_link` is about its link. -/
theorem change_delLink {dev : CString} (hnul : 0 ∉ dev) (hlen : dev.length < 8188)
    (h : built (delLinkReq pid) (delLinkAttrs dev) = some req) :
    change pol k req = delLink k dev := by
  rw [delLinkAttrs_eq, ← length_delLinkReq] at h
  obtain ⟨as, hasks, happends⟩ := exists_of_built room_delLinkReq nlmsgLen_delLinkReq h
  rcases List.forall₂_cons_left_iff.mp hasks with ⟨⟨type, pl⟩, as, ⟨rfl, hpl⟩, hnil, rfl⟩
  obtain rfl : dev ++ [0] = pl := Option.some.inj ((payload_label hnul).symm.trans hpl)
  rw [List.forall₂_nil_left_iff.mp hnil] at happends
  exact (change_delLinkReq hnul hlen happends).2

end Built

/-- The operations of a session, whatever gateways they are about. -/
def InSession (remote : InAddr) : Netlink.Op → Prop
  | .route _ gw _ dst _ => gw = true ∧ dst = none ∨ gw = false ∧ dst = some (ntop4 remote)
  | .getGateway => True
  | .delLink dev => dev = ClashTun.tun
  | .tunAddr dev _ _ => dev = ClashTun.tun
  | .flags _ dev => dev = ClashTun.tun

/-- The link that an operation looks up is there. -/
def Found (sys : Sys κ) (k : κ) : Netlink.Op → Prop
  | .route _ _ dev _ _ => 1 ≤ sys.ifNametoindex k dev
  | .tunAddr dev _ _ => 1 ≤ sys.ifNametoindex k dev
  | .flags _ dev => 1 ≤ sys.ifNametoindex k dev
  | _ => True

/-- A request of a session leaves the routes and links of others alone. -/
theorem Kept.request {op : Netlink.Op} {req : List UInt8} (h : Kept remote i k₀ k)
    (hi : i < 2 ^ 31) (hop : InSession remote op) (hfound : Found (sys pol) k op)
    (hreq : op.request (sys pol) k = some req) : Kept remote i k₀ (handle pol k req).1 := by
  -- the TUN link, if it is there
  have hindex (hpos : 1 ≤ ifNametoindex k ClashTun.tun) : ifNametoindex k ClashTun.tun = i := by
    unfold ifNametoindex at hpos ⊢
    split
    · rename_i l hl
      exact h.tun l hl
    · rename_i hl
      rw [hl] at hpos
      exact absurd hpos (by decide)
  rw [handle]
  split
  · exact h
  split
  · rename_i k' hchange
    cases op with
    | route add gw dev dst via =>
      rcases hop with ⟨rfl, rfl⟩ | ⟨rfl, rfl⟩
      · obtain ⟨v, hroute⟩ := change_route pol k none hreq
        exact h.changeRoute (.inl rfl) (hroute.symm.trans hchange)
      · obtain ⟨v, hroute⟩ := change_route pol k (some remote) hreq
        exact h.changeRoute (.inr rfl) (hroute.symm.trans hchange)
    | getGateway =>
      cases hreq
      rename_i htype
      exact absurd rfl htype
    | delLink dev =>
      obtain rfl : dev = ClashTun.tun := hop
      exact h.delLink ((change_delLink (by decide) (by decide) hreq).symm.trans hchange)
    | tunAddr dev ipv4 prefixlen =>
      obtain rfl : dev = ClashTun.tun := hop
      have hreq : built (tunAddrReq pol.pid prefixlen (ifNametoindex k ClashTun.tun))
          (tunAddrAttrs ipv4) = some req := hreq
      rw [hindex hfound] at hreq
      obtain ⟨a, haddr⟩ := change_tunAddr pol k (by omega) hreq
      exact h.newAddr (haddr.symm.trans hchange)
    | flags up dev =>
      obtain rfl : dev = ClashTun.tun := hop
      have hreq : some (flagsReq pol.pid up (ifNametoindex k ClashTun.tun)) = some req := hreq
      rw [hindex hfound] at hreq
      cases hreq
      exact h.changeUp ((change_flagsReq (by omega)).2.symm.trans hchange)
  · exact h

end Kernel

/-! ## Operations -/

namespace Escalated

open Kernel Privilege

variable {κ α : Type} {env : Env} {sys : Sys κ} {k : κ}

/-- The kernel behind the memory. -/
def kernelOf (s : Proc (World κ)) : κ := s.world.net.kernel

section Spares

/-- A round of `receive` leaves the kernel alone. -/
theorem spares_receiveBody (p : ℕ) :
    Spares Net.kernel (Netlink.receiveBody p : Prog (Net κ) (ℕ ⊕ Unit)) := by
  have hrest (n : ℕ) (recvbuf : List UInt8) : Spares Net.kernel (do
      assert (1 ≤ n)
      modify fun s => { s with len := s.len + n }
      defined (p + 6 ≤ recvbuf.length)
      let type := nlmsgType (recvbuf.drop p)
      if type = nlmsgDone ∨ type = nlmsgError then return .inr ()
      return .inl (p + n) : Prog (Net κ) (ℕ ⊕ Unit)) := by
    refine (spares_assert _).bind fun _ => Spares.bind (spares_modify fun _ => rfl) fun _ => ?_
    refine (spares_defined _).bind fun _ => Spares.ite ?_ ?_
    · exact (spares_pure _).bind fun _ => spares_pure _
    · exact (spares_pure _).bind fun _ => spares_pure _
  intro w
  rw [Netlink.receiveBody, EStateM.run_bind, EStateM.run_get]
  dsimp only
  cases w.socket with
  | nil => rfl
  | cons datagram socket =>
    dsimp only
    rw [EStateM.run_bind, defined]
    by_cases hroom : p + (datagram.take (((sz : ℤ) - w.len) % 2 ^ 64).toNat).length ≤
        w.recvbuf.length
    · -- what `recv` writes goes to the buffer
      rw [if_pos hroom]
      exact hrest _ _ { w with socket, recvbuf := _ }
    · rw [if_neg hroom]
      rfl

theorem spares_ack : Spares Net.kernel (ack : Prog (Net κ) Unit) := by
  refine spares_get.bind fun w => (spares_assert _).bind fun _ => ?_
  exact Spares.ite (spares_assert _) (spares_pure _)

theorem spares_clearbuf : Spares Net.kernel (clearbuf : Prog (Net κ) Unit) :=
  spares_modify fun _ => rfl

/-- What `netlink_get_gateway` reads changes no more than `gw` and the buffer. -/
theorem spares_gatewayLoop : Spares Net.kernel (gatewayLoop sys) := by
  have hint (q : List UInt8) : Spares Net.kernel (readInt q : Prog (Net κ) ℕ) :=
    Spares.ite (spares_pure _) (spares_throw _)
  -- the cases of an attribute
  have hattr (rta : List UInt8) : Spares Net.kernel (gatewayAttr rta : Prog (Net κ) Unit) := by
    have haddr (q : List UInt8) : Spares Net.kernel (readAddr q : Prog (Net κ) InAddr) := by
      unfold readAddr
      split
      · exact spares_pure _
      · exact spares_throw _
    refine Spares.ite ((haddr _).bind fun gw => spares_modify fun _ => rfl) ?_
    refine Spares.ite ((hint _).bind fun _ => spares_assert _) (Spares.ite (spares_pure _) ?_)
    refine Spares.ite ((hint _).bind fun _ => spares_assert _) ?_
    exact Spares.ite ((hint _).bind fun _ => spares_assert _) (spares_throw _)
  have hrtmsg (q : List UInt8) : Spares Net.kernel (readRtmsg q : Prog (Net κ) Rtmsg) := by
    unfold readRtmsg
    split
    · exact Spares.ite (spares_pure _) (spares_throw _)
    · exact spares_throw _
  -- a message is skipped, or its attributes are read
  have hmsg (nh : List UInt8) : Spares Net.kernel (gatewayMsg sys nh) := by
    refine (spares_assert _).bind fun _ => (hrtmsg _).bind fun rtm => Spares.ite ?_ ?_
    · refine (spares_assert _).bind fun _ => (spares_assert _).bind fun _ => ?_
      exact (spares_assert _).bind fun _ => spares_pure _
    · refine (spares_assert _).bind fun _ => (Spares.forM hattr).bind fun _ => ?_
      exact spares_clearbuf.bind fun _ => spares_pure _
  have hmsgs (nhs : List (List UInt8)) : Spares Net.kernel (gatewayMsgs sys nhs) := by
    induction nhs with
    | nil => exact spares_pure _
    | cons nh nhs ih => exact (hmsg nh).bind fun b => Spares.ite (spares_pure _) ih
  -- the messages, and then the length that is left
  refine spares_get.bind fun w => (hmsgs _).bind fun b => Spares.ite ?_ (spares_pure _)
  exact spares_modify fun _ => rfl

theorem spares_onNet {p : Prog (Net κ) α} (hp : Spares Net.kernel p) :
    Spares kernelOf (onNet p) :=
  Main.spares_lift (hp.zoom (fun _ => rfl) fun _ _ => rfl)

theorem spares_kernel_call (c : Call) :
    Spares kernelOf (call env c : Prog (Proc (World κ)) ℤ) :=
  Main.spares_call (g := fun w : World κ => w.net.kernel) c

theorem spares_kernel_privilegeEscalate :
    Spares kernelOf (privilegeEscalate : Prog (Proc (World κ)) Unit) :=
  Main.spares_privilegeEscalate (g := fun w : World κ => w.net.kernel)

theorem spares_kernel_privilegeDrop :
    Spares kernelOf (privilegeDrop env : Prog (Proc (World κ)) Unit) :=
  Main.spares_privilegeDrop (g := fun w : World κ => w.net.kernel)

theorem spares_kernel_escalated {x : Prog (Proc (World κ)) Unit} (hx : Spares kernelOf x) :
    Spares kernelOf (escalated env x) :=
  Main.spares_escalated (g := fun w : World κ => w.net.kernel) hx

theorem spares_receive : Spares kernelOf (receive env : Prog (Proc (World κ)) Unit) := by
  refine spares_kernel_escalated (spares_get.bind fun s => Spares.loop (fun p => ?_) _ _)
  refine (spares_kernel_call _).bind fun _ => (spares_assert _).bind fun _ => ?_
  exact spares_onNet (spares_receiveBody p)

end Spares

/-! ## Requests -/

section Keeps

variable {P : Proc (World κ) → Prop} {Q : α → Proc (World κ) → Prop} {R : κ → Prop}

theorem triple_onNet {P E : Net κ → Prop} {Q : α → Net κ → Prop} {p : Prog (Net κ) α}
    (h : Triple P p Q E) :
    Triple (fun s => P (net s)) (onNet p) (fun a s => Q a (net s)) fun s => E (net s) :=
  (h.zoom World.net _ fun _ _ => rfl).zoom Proc.world _ fun _ _ => rfl

/-- A request that does not fit is not sent. -/
theorem triple_build_bind {req : List UInt8} {p : Prog (List UInt8) Unit}
    {f : List UInt8 → Prog (Proc (World κ)) α} {E : Proc (World κ) → Prop} (hE : ∀ s, P s → E s)
    (h : ∀ block, built req p = some block → Triple P (f block) Q E) :
    Triple P (onNet (build req p) >>= f) Q E := by
  intro s hs
  rw [EStateM.run_bind]
  -- the request is built on a block of its own, so the state stays
  cases hp : p.run req with
  | ok a block =>
    have hbuilt : built req p = some block := by rw [built, hp]
    have hrun : (onNet (build req p)).run s = .ok block s := by
      apply run_zoom_of_ok (t := s.world)
      exact run_zoom_of_ok (t := s.world.net) (by rw [build, hp]; rfl)
    rw [hrun]
    exact h block hbuilt s hs
  | error e block =>
    have hrun : (onNet (build req p)).run s = .error e s := by
      apply run_zoom_of_error (t := s.world)
      exact run_zoom_of_error (t := s.world.net) (by rw [build, hp]; rfl)
    rw [hrun]
    exact hE s hs

/-- A request is handled by the kernel, or it is not sent. -/
theorem triple_send {req : List UInt8} (hk : R k) (hreq : R (sys.send k req).1) :
    Triple (fun s => kernelOf s = k) (send env sys req) (fun _ s => R (kernelOf s))
      fun s => R (kernelOf s) := by
  have heq {s : Proc (World κ)} (hs : kernelOf s = k) : R (kernelOf s) := hs ▸ hk
  have hspare {β : Type} {p : Prog (Proc (World κ)) β} (hp : Spares kernelOf p) :
      Triple (fun s => kernelOf s = k) p (fun _ s => kernelOf s = k) fun s => R (kernelOf s) :=
    hp.keeps (· = k) fun _ => heq
  refine (hspare spares_kernel_privilegeEscalate).bind fun _ => ?_
  refine Triple.bind (Q := fun _ s => R (kernelOf s)) ?_ fun _ => ?_
  · refine (hspare (spares_kernel_call _)).bind fun r => ?_
    refine (hspare (spares_assert _)).bind fun _ => ?_
    intro s hs
    obtain rfl : kernelOf s = k := hs
    exact hreq
  · exact spares_kernel_privilegeDrop.keeps R fun _ hs => hs

/-- What holds of the kernel before and behind a request holds wherever the exchange ends. -/
theorem triple_exchange {req : List UInt8} {p : Prog (Proc (World κ)) Unit} (hk : R k)
    (hreq : R (sys.send k req).1) (hp : Spares kernelOf p) :
    Triple (fun s => kernelOf s = k) (do
      send env sys req
      receive env
      p) (fun _ s => R (kernelOf s)) fun s => R (kernelOf s) :=
  (triple_send hk hreq).bind fun _ => (spares_receive.bind fun _ => hp).keeps R fun _ hs => hs

/-- An operation keeps what its request keeps. -/
theorem keeps_request {op : Netlink.Op}
    (h : ∀ k req, R k → Found sys k op → op.request sys k = some req → R (sys.send k req).1) :
    Keeps (fun s => R (kernelOf s)) (fun s => R (kernelOf s)) (netlinkOp env sys op) := by
  intro s hs
  -- the link is looked up in the kernel that gets the request
  have hop : Triple (fun t => kernelOf t = kernelOf s) (netlinkOp env sys op)
      (fun _ t => R (kernelOf t)) fun t => R (kernelOf t) := by
    have hE : ∀ t, kernelOf t = kernelOf s → R (kernelOf t) := fun t ht => ht ▸ hs
    have hacked : Spares kernelOf (do
        onNet ack
        onNet clearbuf : Prog (Proc (World κ)) Unit) :=
      (spares_onNet spares_ack).bind fun _ => spares_onNet spares_clearbuf
    cases op with
    | route add gw dev dst via =>
      refine Triple.assert_bind hE fun _ => Triple.get_bind fun t ht => ?_
      refine Triple.assert_bind hE fun hoif => Triple.assert_bind hE fun _ => ?_
      refine Triple.assert_bind hE fun _ => triple_build_bind hE fun req hreq => ?_
      -- what `if_nametoindex` gave here is still the index when the request arrives
      change _ = kernelOf s at ht
      change 1 ≤ sys.ifNametoindex (kernelOf t) dev ∧ _ at hoif
      change built _ (routeAttrs gw (sys.ifNametoindex (kernelOf t) dev) _ via) = _ at hreq
      rw [ht] at hoif hreq
      exact triple_exchange hs (h _ req hs hoif.1 hreq) hacked
    | getGateway =>
      exact triple_exchange hs (h _ _ hs trivial rfl) (spares_onNet spares_gatewayLoop)
    | delLink dev =>
      refine triple_build_bind hE fun req hreq => ?_
      exact triple_exchange hs (h _ req hs trivial hreq) hacked
    | tunAddr dev ipv4 prefixlen =>
      refine Triple.assert_bind hE fun _ => Triple.assert_bind hE fun _ => ?_
      refine Triple.assert_bind hE fun _ => Triple.get_bind fun t ht => ?_
      refine Triple.assert_bind hE fun hpos => triple_build_bind hE fun req hreq => ?_
      change 0 < sys.ifNametoindex (kernelOf t) dev at hpos
      change built (tunAddrReq _ _ (sys.ifNametoindex (kernelOf t) dev)) _ = _ at hreq
      rw [ht] at hpos hreq
      exact triple_exchange hs (h _ req hs hpos hreq) hacked
    | flags up dev =>
      refine Triple.assert_bind hE fun _ => Triple.get_bind fun t ht => ?_
      refine Triple.assert_bind hE fun hpos => ?_
      change 1 ≤ sys.ifNametoindex (kernelOf t) dev at hpos
      change Triple _ (do
        send env sys (flagsReq _ up (sys.ifNametoindex (kernelOf t) dev))
        _) _ _
      rw [ht] at hpos ⊢
      exact triple_exchange hs (h _ _ hs hpos rfl) hacked
  exact hop s rfl

end Keeps

/-! ## Sessions -/

section Session

variable {pol : Policy} {k₀ : State} {remote : InAddr}

/-- The link is created first, or it was there. -/
theorem triple_ioctlTunCreate :
    Triple (fun s => kernelOf s = k₀) (ioctlTunCreate env (Kernel.sys pol) ClashTun.tun)
      (fun _ s => Kept remote (tunIndex pol k₀) k₀ (kernelOf s))
      fun s => Kept remote (tunIndex pol k₀) k₀ (kernelOf s) := by
  have hrefl (s : Proc (World State)) (hs : kernelOf s = k₀) :
      Kept remote (tunIndex pol k₀) k₀ (kernelOf s) := by
    rw [hs]
    exact Kept.refl pol remote k₀
  have hspare {β : Type} {p : Prog (Proc (World State)) β} (hp : Spares kernelOf p) :
      Triple (fun s => kernelOf s = k₀) p (fun _ s => kernelOf s = k₀)
        fun s => Kept remote (tunIndex pol k₀) k₀ (kernelOf s) :=
    hp.keeps (· = k₀) hrefl
  have htun : Triple (fun w => w.kernel = k₀) (ClashTun.tunsetiff (Kernel.sys pol) ClashTun.tun)
      (fun _ w => Kept remote (tunIndex pol k₀) k₀ w.kernel)
      fun w => Kept remote (tunIndex pol k₀) k₀ w.kernel := by
    refine Triple.get_bind fun w hw => ?_
    obtain ⟨k', hset⟩ : ∃ k', Kernel.tunsetiff pol k₀ ClashTun.tun = some k' := by
      unfold Kernel.tunsetiff
      split <;> exact ⟨_, rfl⟩
    have hsome : (Kernel.sys pol).tunsetiff w.kernel (ClashTun.tun.take 15) = some k' := by
      rw [hw]
      exact hset
    rw [hsome]
    intro w _
    exact Kept.tunsetiff hset
  -- only `ioctl` reaches the kernel, with the privileges of root
  refine Triple.assert_bind hrefl fun _ => (hspare (spares_kernel_call _)).bind fun tunfd => ?_
  refine Triple.assert_bind hrefl fun _ => Triple.bind
    (Q := fun _ s => Kept remote (tunIndex pol k₀) k₀ (kernelOf s)) ?_ fun _ => ?_
  · refine (hspare spares_kernel_privilegeEscalate).bind fun _ => Triple.bind
      (Q := fun _ s => Kept remote (tunIndex pol k₀) k₀ (kernelOf s)) ?_ fun _ => ?_
    · refine (hspare (spares_kernel_call _)).bind fun r => Triple.assert_bind hrefl fun _ => ?_
      refine (hspare (spares_kernel_call _)).bind fun r => Triple.assert_bind hrefl fun _ => ?_
      exact triple_onNet htun
    · exact spares_kernel_privilegeDrop.keeps (Kept remote (tunIndex pol k₀) k₀) fun _ hs => hs
  · exact ((spares_kernel_call _).bind fun _ => spares_pure _).keeps
      (Kept remote (tunIndex pol k₀) k₀) fun _ hs => hs

variable (env remote) in
/-- A session leaves the routes and links of others alone, however it ends. -/
theorem triple_session (hi : tunIndex pol k₀ < 2 ^ 31) :
    Triple (fun s => kernelOf s = k₀) (session env (Kernel.sys pol) (ntop4 remote))
      (fun _ s => Kept remote (tunIndex pol k₀) k₀ (kernelOf s))
      fun s => Kept remote (tunIndex pol k₀) k₀ (kernelOf s) := by
  let K (s : Proc (World State)) : Prop := Kept remote (tunIndex pol k₀) k₀ (kernelOf s)
  have hspare {β : Type} {p : Prog (Proc (World State)) β} (hp : Spares kernelOf p) :
      Keeps K K p := hp.keeps (Kept remote (tunIndex pol k₀) k₀) fun _ hs => hs
  have hop (op : Netlink.Op) (hop : InSession remote op) :
      Keeps K K (netlinkOp env (Kernel.sys pol) op) :=
    keeps_request fun k req hk hfound hreq => hk.request hi hop hfound hreq
  have hinit : Spares kernelOf (netlinkInit env : Prog (Proc (World State)) Unit) := by
    refine Spares.bind (spares_kernel_escalated ((spares_kernel_call _).bind fun fd => ?_)) fun _ =>
      (spares_kernel_call _).bind fun _ => spares_assert _
    refine Spares.bind ?_ fun _ => spares_assert _
    exact Main.spares_lift (g := fun w : World State => w.net.kernel) (spares_modify fun _ => rfl)
  -- the address of the link, its state, the gateway, and three routes
  have hprintf : Keeps K K (device env (Kernel.sys pol)).printf :=
    hspare ((spares_kernel_call _).bind fun _ => spares_pure _)
  have htunUp : Triple (fun s => kernelOf s = k₀) (device env (Kernel.sys pol)).tunUp
      (fun _ => K) K := by
    refine triple_ioctlTunCreate.bind fun _ => (hop (.tunAddr _ _ _) rfl).bind fun _ => ?_
    exact hop (.flags _ _) rfl
  have hset : Triple (fun s => kernelOf s = k₀) (set env (Kernel.sys pol) (ntop4 remote))
      (fun _ => K) K := by
    refine htunUp.bind fun _ => (hop .getGateway trivial).bind fun _ => ?_
    refine hprintf.bind fun _ => keeps_get.bind fun s => ?_
    refine (hop (.route _ _ _ _ _) (.inl ⟨rfl, rfl⟩)).bind fun _ => ?_
    refine (hop (.route _ _ _ _ _) (.inl ⟨rfl, rfl⟩)).bind fun _ => keeps_get.bind fun s => ?_
    exact hop (.route _ _ _ _ _) (.inr ⟨rfl, rfl⟩)
  have hreset : Keeps K K (reset env (Kernel.sys pol) (ntop4 remote)) := by
    refine keeps_get.bind fun s => (hop (.route _ _ _ _ _) (.inr ⟨rfl, rfl⟩)).bind fun _ => ?_
    refine (hop (.route _ _ _ _ _) (.inl ⟨rfl, rfl⟩)).bind fun _ => ?_
    refine hprintf.bind fun _ => keeps_get.bind fun s => ?_
    refine (hop (.route _ _ _ _ _) (.inl ⟨rfl, rfl⟩)).bind fun _ => ?_
    exact (hop (.flags _ _) rfl).bind fun _ => hop (.delLink _) rfl
  -- nothing else in a session speaks to the kernel's tables
  have hend : Spares kernelOf (netlinkEnd env : Prog (Proc (World State)) Unit) := by
    refine (spares_kernel_call _).bind fun _ => (spares_assert _).bind fun _ => ?_
    exact Main.spares_lift (g := fun w : World State => w.net.kernel) (spares_modify fun _ => rfl)
  have hfork : Spares kernelOf (startTun2socks env : Prog (Proc (World State)) ℤ) := by
    refine (spares_kernel_call _).bind fun pid => spares_get.bind fun s => ?_
    refine (spares_assert _).bind fun _ => (spares_assert _).bind fun _ => ?_
    exact (spares_kernel_call _).bind fun _ => spares_pure _
  have hread : Spares kernelOf (readR env : Prog (Proc (World State)) Unit) :=
    (spares_kernel_call _).bind fun _ => (spares_kernel_call _).bind fun _ => spares_assert _
  have hkill (pid : ℤ) : Spares kernelOf (killTun2socks env pid : Prog (Proc (World State)) Unit) :=
    spares_kernel_escalated ((spares_kernel_call _).bind fun _ => spares_assert _)
  have hlog : Spares kernelOf (unlinkNofail env (utf8 "/tmp/tun2socks.log")) :=
    Main.spares_unlinkNofail (g := fun w : World State => w.net.kernel) _
  refine Triple.bind (hinit.keeps (· = k₀) fun s hs => ?_) fun _ => hset.bind fun _ => ?_
  · rw [hs]
    exact Kept.refl pol remote k₀
  refine (hspare hlog).bind fun _ => (hspare (spares_kernel_call _)).bind fun _ => ?_
  refine (hspare hfork).bind fun pid => (hspare (spares_kernel_call _)).bind fun _ => ?_
  refine (hspare hread).bind fun _ => (hspare (spares_kernel_call _)).bind fun _ => ?_
  exact (hspare (hkill pid)).bind fun _ => Triple.bind hreset fun _ => hspare hend

end Session

end Escalated

/-! ## main -/

namespace Main

open Escalated Kernel Privilege

variable {env : Env} {pol : Policy} {out : Outside} {fuel : ℕ} {s : Proc (Memory State)}

/-- However a run of `main` ends, the routes and links of the kernel are as they were, but for
default routes, the routes to the address of the node, and what belongs to the TUN link. -/
theorem main_keeps (hi : tunIndex pol (netOf s).kernel < 2 ^ 31) :
    (netOf (final ((main env (Kernel.sys pol) out fuel).run s))).kernel = (netOf s).kernel ∨
      ∃ remote : InAddr,
        (profile (final ((main env (Kernel.sys pol) out fuel).run s))).remoteHost =
          some (ntop4 remote) ∧
        Kept remote (tunIndex pol (netOf s).kernel) (netOf s).kernel
          (netOf (final ((main env (Kernel.sys pol) out fuel).run s))).kernel := by
  let k₀ := (netOf s).kernel
  -- the kernel and the profile
  let part (s : Proc (Memory State)) : State × ProfileJson.ProfileT := ((netOf s).kernel, profile s)
  let Ready (x : State × ProfileJson.ProfileT) : Prop := x.1 = k₀ ∧ HasAddress x.2
  let Done (x : State × ProfileJson.ProfileT) : Prop :=
    ∃ remote : InAddr, x.2.remoteHost = some (ntop4 remote) ∧ Kept remote (tunIndex pol k₀) k₀ x.1
  let E (s : Proc (Memory State)) : Prop := (netOf s).kernel = k₀ ∨ Done (part s)
  have hkernel {α : Type} {p : Prog (Proc (Memory State)) α} (hp : Spares netOf p) :
      Spares (fun s => (netOf s).kernel) p := fun s => congrArg Netlink.Net.kernel (hp s)
  have hready {α : Type} {p : Prog (Proc (Memory State)) α} (hnet : Spares netOf p)
      (hprofile : Spares profile p) :
      Triple (fun s => Ready (part s)) p (fun _ s => Ready (part s)) E :=
    ((hkernel hnet).prod hprofile).keeps Ready fun _ hs => .inl hs.1
  have hdone {α : Type} {p : Prog (Proc (Memory State)) α} (hnet : Spares netOf p)
      (hprofile : Spares profile p) :
      Triple (fun s => Done (part s)) p (fun _ s => Done (part s)) E :=
    ((hkernel hnet).prod hprofile).keeps Done fun _ => .inr
  -- the address is known before the kernel is touched
  have hprepare : Triple (fun s => (netOf s).kernel = k₀) (prepare env out fuel)
      (fun _ s => Ready (part s)) E := by
    intro s hs
    have hspares : Spares (fun s : Proc (Memory State) => netOf s) (prepare env out fuel) :=
      spares_net_prepare
    have hnet := hkernel hspares s
    cases hrun : (prepare env out fuel).run s with
    | ok a s' =>
      rw [hrun] at hnet
      exact ⟨hnet.trans hs, hasAddress_of_prepare hrun⟩
    | error e s' =>
      rw [hrun] at hnet
      exact .inl (hnet.trans hs)
  have htunnel : Triple (fun s => Ready (part s)) (tunnel env (Kernel.sys pol))
      (fun _ s => Done (part s)) E := by
    intro s hs
    obtain ⟨remote, hremote⟩ := hs.2
    have hfixed : Triple (fun t => (netOf t).kernel = k₀ ∧
        (profile t).remoteHost = some (ntop4 remote)) (tunnel env (Kernel.sys pol))
          (fun _ s => Done (part s)) E := by
      refine Triple.get_bind fun t ht => ?_
      change Triple _ (ProfileJson.deref (profile t).remoteHost >>= _) _ _
      rw [ht.2]
      -- the session is the one to this address
      change Triple _ (pure (ntop4 remote) >>= _) _ _
      rw [pure_bind]
      have hsession := (triple_session env remote hi).zoom
        (fun s : Proc (Memory State) => ⟨s.cred, s.trace, s.world.world⟩)
        (fun t s => ⟨t.cred, t.trace, { s.world with world := t.world }⟩) fun _ _ => rfl
      refine (hsession.frame (spares_onWorld _)
        fun p => p.remoteHost = some (ntop4 remote)).imp ?_ ?_ ?_
      · exact fun _ hs => hs
      · exact fun _ _ hs => ⟨remote, hs.2, hs.1⟩
      · exact fun _ hs => .inr ⟨remote, hs.2, hs.1⟩
    exact hfixed s ⟨hs.1, hremote⟩
  have hmain : Triple (fun s => (netOf s).kernel = k₀) (main env (Kernel.sys pol) out fuel)
      (fun _ s => Done (part s)) E := by
    refine hprepare.bind fun _ => (hready ?_ (spares_onWorld _)).bind fun _ => ?_
    · exact spares_net_onWorld (spares_redirectNames (fun _ _ => rfl) fun _ _ => rfl)
    refine (hready spares_net_startShadowsocks spares_startShadowsocks).bind fun _ => ?_
    refine htunnel.bind fun _ => Triple.bind (hdone ?_ ?_) fun _ => hdone ?_ (spares_onWorld _)
    · exact spares_stopSs (g := fun m : Memory State => m.world.net) fun _ _ => rfl
    · exact spares_stopSs (g := fun m : Memory State => m.files.profile) fun _ _ => rfl
    · exact spares_net_onWorld (spares_restoreNames fun _ _ _ => rfl)
  cases hrun : (main env (Kernel.sys pol) out fuel).run s with
  | ok a s' => exact .inr (hmain.of_ok rfl hrun)
  | error e s' => exact hmain.of_error rfl hrun

/-- `main_keeps` on a host in a home network. -/
theorem main_keeps_home :
    (netOf (final (homeRun allowed))).kernel =
        (Kernel.home [Kernel.dhcpRoute, Kernel.lanRoute]).kernel ∨
      ∃ remote : InAddr,
        (profile (final (homeRun allowed))).remoteHost = some (ntop4 remote) ∧
        Kept remote (tunIndex linux (Kernel.home [Kernel.dhcpRoute, Kernel.lanRoute]).kernel)
          (Kernel.home [Kernel.dhcpRoute, Kernel.lanRoute]).kernel
          (netOf (final (homeRun allowed))).kernel :=
  main_keeps (s := homeStart [Kernel.dhcpRoute, Kernel.lanRoute]) (by decide)

end Main
