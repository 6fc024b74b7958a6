import Clash.Tun.Kernel
import Clash.Tun.Receive

/-!
# The gateway in a dump

What `netlink_get_gateway` reads from a dump of routes.

## Main definitions

* `DefaultRoute`: a default route with a header and attributes that `netlink_get_gateway` accepts.
* `Passable`: a route that it may skip.
* `Listed`: the first default route of the main table stands behind passable routes only, and the
  dump fits the buffer.

## Main results

* `run_netlinkGetGateway`: then it stores the gateway of that default route.
-/

open CProg CString Inet Memory Records Rtnetlink Netlink

namespace Kernel

variable {pol : Policy}

/-! ## Messages in memory -/

theorem length_padded (a : ℕ × List UInt8) : (padded a).length = space a.2.length := by
  rw [padded, List.length_append, length_rtattr, List.length_replicate]
  unfold space
  omega

theorem length_attrBytes_mod (attrs : List (ℕ × List UInt8)) :
    (attrBytes attrs).length % 4 = 0 := by
  induction attrs with
  | nil => rfl
  | cons a attrs ih =>
    rw [attrBytes, List.flatMap_cons, List.length_append, length_padded, ← attrBytes]
    unfold space
    omega

theorem rtaLength_le_of_mem {attrs : List (ℕ × List UInt8)} {a : ℕ × List UInt8} (h : a ∈ attrs) :
    rtaLength a.2.length ≤ (attrBytes attrs).length := by
  obtain ⟨before, after, rfl⟩ := List.append_of_mem h
  rw [attrBytes, List.flatMap_append, List.flatMap_cons, List.length_append, List.length_append,
    length_padded]
  unfold space
  omega

/-- Encoded attributes are attributes in memory. -/
theorem holds_attrBytes {attrs : List (ℕ × List UInt8)} {rest : List UInt8}
    (hlen : ∀ a ∈ attrs, rtaLength a.2.length < 2 ^ 16) :
    rta.Holds (attrBytes attrs ++ rest) (attrs.map fun a => rtattr a.1 a.2)
      (attrBytes attrs).length := by
  -- the first attribute is where the bytes begin, the next one behind its padding
  induction attrs with
  | nil => exact .nil _
  | cons a attrs ih =>
    rw [List.forall_mem_cons] at hlen
    have ha := hlen.1
    have hspace : align (rtattr a.1 a.2).length = space a.2.length := by
      rw [length_rtattr]
      exact align_rtaLength (by unfold rtaLength at ha; omega)
    have hpre : rtattr a.1 a.2 <+: attrBytes (a :: attrs) ++ rest := by
      rw [attrBytes, List.flatMap_cons, padded]
      simp only [List.append_assoc]
      exact List.prefix_append _ _
    have hdrop : (attrBytes (a :: attrs) ++ rest).drop (align (rtattr a.1 a.2).length) =
        attrBytes attrs ++ rest := by
      rw [hspace, ← length_padded, attrBytes, List.flatMap_cons, List.append_assoc, List.drop_left]
      rfl
    have hlength : (attrBytes (a :: attrs)).length =
        align (rtattr a.1 a.2).length + (attrBytes attrs).length := by
      rw [hspace, attrBytes, List.flatMap_cons, List.length_append, length_padded]
      rfl
    rw [hlength]
    refine .cons (pointsTo_rtattr hpre ha) ?_ ?_
    · rw [length_rtattr]
      omega
    · rw [hdrop]
      exact ih hlen.2

/-- The message about a route that a process is sent. -/
def routeMessage (pid : ℕ) (r : Route) : List UInt8 :=
  nlmsghdr (28 + (attrBytes r.attrs).length) rtmNewroute nlmFMulti 0 pid ++ r.rtm.bytes ++
    attrBytes r.attrs

theorem routeMsg_eq_routeMessage : routeMsg pol = routeMessage pol.pid := rfl

variable {pid : ℕ}

theorem length_routeMessage (r : Route) :
    (routeMessage pid r).length = 28 + (attrBytes r.attrs).length := by
  rw [routeMessage, List.length_append, List.length_append, length_nlmsghdr, Rtmsg.length_bytes]

theorem length_routeMessage_mod (r : Route) : (routeMessage pid r).length % 4 = 0 := by
  have := length_attrBytes_mod r.attrs
  rw [length_routeMessage]
  omega

theorem nlmsgLen_routeMessage {r : Route} (h : (routeMessage pid r).length < 2 ^ 32)
    (rest : List UInt8) : nlmsgLen (routeMessage pid r ++ rest) = (routeMessage pid r).length := by
  rw [length_routeMessage] at h ⊢
  rw [routeMessage, List.append_assoc, List.append_assoc]
  exact nlmsgLen_nlmsghdr h

/-- Messages of routes are messages in memory. -/
theorem holds_routeMessages {rs : List Route} {rest : List UInt8}
    (hlen : ∀ r ∈ rs, (routeMessage pid r).length + 3 < 2 ^ 32) :
    nlmsg.Holds ((rs.map (routeMessage pid)).flatten ++ rest) (rs.map (routeMessage pid))
      (rs.map (routeMessage pid)).flatten.length := by
  induction rs with
  | nil => exact .nil _
  | cons r rs ih =>
    rw [List.forall_mem_cons] at hlen
    have hr := hlen.1
    -- the length of a message is a multiple of 4, so nothing is between two of them
    have halign : align (routeMessage pid r).length = (routeMessage pid r).length :=
      align_of_mod (length_routeMessage_mod r) (by omega)
    rw [List.map_cons, List.flatten_cons, List.append_assoc, List.length_append, ← halign]
    refine .cons ⟨List.prefix_append _ _, nlmsgLen_routeMessage (by omega) _, ?_⟩ hr ?_
    · rw [length_routeMessage]
      exact Nat.le_add_right_of_le (by decide)
    · rw [halign, List.drop_left]
      exact ih hlen.2

/-! ## The attributes of a default route -/

/-- An attribute that `netlink_get_gateway` accepts. -/
def AttrOk (a : ℕ × List UInt8) : Prop :=
  a.1 = rtaGateway ∧ a.2.length = 4 ∨
    a.1 = rtaOif ∧ a.2.length = 4 ∧ (ofLE a.2 = 2 ∨ ofLE a.2 = 3) ∨
    a.1 = rtaPrefsrc ∨
    a.1 = rtaPriority ∧ a.2.length = 4 ∧ (ofLE a.2 = 303 ∨ ofLE a.2 = 3003 ∨ ofLE a.2 = 3002) ∨
    a.1 = rtaTable ∧ a.2.length = 4 ∧ ofLE a.2 = rtTableMain.toNat

instance (a : ℕ × List UInt8) : Decidable (AttrOk a) :=
  inferInstanceAs (Decidable (_ ∧ _ ∨ _ ∧ _ ∧ (_ ∨ _) ∨ _ ∨ _ ∧ _ ∧ (_ ∨ _ ∨ _) ∨ _ ∧ _ ∧ _))

theorem AttrOk.type_lt {a : ℕ × List UInt8} (h : AttrOk a) : a.1 < 2 ^ 16 := by
  obtain ⟨htype, -⟩ | ⟨htype, -⟩ | htype | ⟨htype, -⟩ | ⟨htype, -⟩ := h <;>
    (rw [htype]; decide)

variable {κ : Type} {s : Net κ} {gw : InAddr} {p pl rest : List UInt8} {type : ℕ}

theorem run_readInt (h : pl.length = 4) :
    (readInt (pl ++ rest)).run s = .ok (ofLE pl) s := by
  have hlen : 4 ≤ (pl ++ rest).length := by
    rw [List.length_append]
    omega
  rw [readInt, if_pos hlen, slice, List.drop_zero, ← h, List.take_left]
  rfl

/-- The body of the loop accepts such an attribute, and stores a gateway. -/
theorem run_gatewayAttr (hp : rta.PointsTo p (rtattr type pl)) (hok : AttrOk (type, pl))
    (hgw : type = rtaGateway → pl = gw.bytes) :
    (gatewayAttr p).run s =
      .ok () (if type = rtaGateway then { s with gw := ntop4 gw } else s) := by
  have hread := (Prod.mk.inj (read_of_pointsTo hp hok.type_lt)).1
  obtain ⟨⟨rest, rfl⟩, -⟩ := hp
  have hdrop : (rtattr type pl ++ rest).drop 4 = pl ++ rest := rfl
  rw [gatewayAttr, hread, hdrop]
  -- gateway, link, preferred source, metric and table
  obtain ⟨rfl, -⟩ | ⟨rfl, hlen, hoif⟩ | rfl | ⟨rfl, hlen, hmetric⟩ | ⟨rfl, hlen, htable⟩ := hok
  · rw [hgw rfl]
    rfl
  · rw [if_neg (by decide), if_pos rfl, if_neg (by decide), EStateM.run_bind, run_readInt hlen]
    exact run_assert_of_true hoif s
  · rfl
  · rw [if_neg (by decide), if_neg (by decide), if_neg (by decide), if_pos rfl, if_neg (by decide),
      EStateM.run_bind, run_readInt hlen]
    exact run_assert_of_true hmetric s
  · rw [if_neg (by decide), if_neg (by decide), if_neg (by decide), if_neg (by decide), if_pos rfl,
      if_neg (by decide), EStateM.run_bind, run_readInt hlen]
    exact run_assert_of_true htable s

/-- The loop stores the gateway, if there is one. -/
theorem run_gatewayAttrs {attrs : List (ℕ × List UInt8)} {ps : List (List UInt8)}
    (hps : List.Forall₂ rta.PointsTo ps (attrs.map fun a => rtattr a.1 a.2))
    (hok : ∀ a ∈ attrs, AttrOk a) (hgw : ∀ a ∈ attrs, a.1 = rtaGateway → a.2 = gw.bytes) :
    (ps.forM gatewayAttr).run s =
      .ok () (if ∃ a ∈ attrs, a.1 = rtaGateway then { s with gw := ntop4 gw } else s) := by
  -- a gateway that comes later is the same one
  induction attrs generalizing ps s with
  | nil =>
    cases hps
    rw [if_neg (by simp)]
    rfl
  | cons a attrs ih =>
    obtain ⟨p, ps, hp, hps', rfl⟩ := List.forall₂_cons_right_iff.mp hps
    rw [List.forall_mem_cons] at hok hgw
    change EStateM.run (gatewayAttr p >>= fun _ => ps.forM gatewayAttr) s = _
    rw [EStateM.run_bind, run_gatewayAttr hp hok.1 hgw.1]
    dsimp only
    rw [ih hps' hok.2 hgw.2]
    by_cases hfirst : a.1 = rtaGateway
    · have hsome : ∃ b ∈ a :: attrs, b.1 = rtaGateway := ⟨a, List.mem_cons_self, hfirst⟩
      rw [if_pos hfirst, if_pos hsome]
      split <;> rfl
    · simp only [hfirst, ↓reduceIte, List.exists_mem_cons_iff, false_or]

/-! ## The messages -/

/-- The checks of the header of a default route. -/
def HeaderOk (rtm : Rtmsg) : Prop :=
  rtm.family = afInet ∧ rtm.srcLen = 0 ∧ rtm.tos = 0 ∧
    (rtm.protocol = rtprotDhcp ∨ rtm.protocol = rtprotBoot) ∧ rtm.type = rtnUnicast ∧ rtm.flags = 0

instance (rtm : Rtmsg) : Decidable (HeaderOk rtm) :=
  inferInstanceAs (Decidable (_ ∧ _ ∧ _ ∧ (_ ∨ _) ∧ _ ∧ _))

/-- A default route of the main table that passes the checks. -/
structure Checked (r : Route) : Prop where
  notSkipped : ¬ Skipped r.rtm
  header : HeaderOk r.rtm
  attrs : ∀ a ∈ r.attrs, AttrOk a

/-- A default route that passes the checks, with its gateway and link. -/
structure DefaultRoute (r : Route) (gw : InAddr) (oif : ℕ) : Prop extends Checked r where
  dst : r.dst = none
  gateway : r.gateway = some gw.bytes
  gateways : ∀ a ∈ r.attrs, a.1 = rtaGateway → a.2 = gw.bytes
  oif : r.oif = some (le32 oif)

/-- A route that `netlink_get_gateway` skips without a failed assertion. -/
def Passable (rtm : Rtmsg) : Prop :=
  rtm.dstLen = 24 ∧ rtm.table = rtTableLocal ∧ rtm.scope = rtScopeLink

instance (rtm : Rtmsg) : Decidable (Passable rtm) := inferInstanceAs (Decidable (_ ∧ _ ∧ _))

theorem run_readRtmsg (rtm : Rtmsg) (rest : List UInt8) :
    (readRtmsg (rtm.bytes ++ rest)).run s = .ok rtm s := by
  have hlen : 4 ≤ (le32 rtm.flags.toNat ++ rest).length := by
    rw [List.length_append, length_le32]
    omega
  change EStateM.run (if 4 ≤ (le32 rtm.flags.toNat ++ rest).length then
    pure { rtm with flags := UInt32.ofNat (ofLE (slice (le32 rtm.flags.toNat ++ rest) 0 4)) }
    else throw Stop.undefined) s = _
  rw [if_pos hlen, rtm.read_flags]
  rfl

/-- The assertion on the header of a message. -/
theorem header_routeMessage (hpid : pid < 2 ^ 32) (r : Route) (rest : List UInt8) :
    nlmsgType (routeMessage pid r ++ rest) = rtmNewroute ∧
      nlmsgFlags (routeMessage pid r ++ rest) = nlmFMulti ∧
      nlmsgSeq (routeMessage pid r ++ rest) = 0 ∧ nlmsgPid (routeMessage pid r ++ rest) = pid := by
  rw [routeMessage, List.append_assoc, List.append_assoc]
  exact ⟨nlmsgType_nlmsghdr (by decide), nlmsgFlags_nlmsghdr (by decide),
    nlmsgSeq_nlmsghdr (by decide), nlmsgPid_nlmsghdr hpid⟩

theorem drop_routeMessage (r : Route) (rest : List UInt8) :
    (routeMessage pid r ++ rest).drop 16 = r.rtm.bytes ++ (attrBytes r.attrs ++ rest) := by
  rw [routeMessage, List.append_assoc, List.append_assoc]
  rfl

variable {net : Sys κ} {r : Route}

/-- What the program does with the message of a route, behind the checks of the message header. -/
theorem run_gatewayMsg (hpid : net.pid < 2 ^ 32) (hlen : (routeMessage net.pid r).length < 2 ^ 16)
    (hp : nlmsg.PointsTo p (routeMessage net.pid r)) :
    ∃ ps, List.Forall₂ rta.PointsTo ps (r.attrs.map fun a => rtattr a.1 a.2) ∧
      (gatewayMsg net p).run s =
        (if Skipped r.rtm then do
            assert (r.rtm.dstLen = 24)
            assert (r.rtm.table = rtTableLocal)
            assert (r.rtm.scope = rtScopeLink)
            return false
          else do
            assert (HeaderOk r.rtm)
            ps.forM gatewayAttr
            clearbuf
            return true : Prog (Net κ) Bool).run s := by
  obtain ⟨⟨rest, rfl⟩, -⟩ := hp
  have hattrs : (attrBytes r.attrs).length + 28 < 2 ^ 16 := by
    rw [length_routeMessage] at hlen
    omega
  have hdrop : (routeMessage net.pid r ++ rest).drop 28 = attrBytes r.attrs ++ rest := by
    rw [show 28 = 16 + 12 from rfl, ← List.drop_drop, drop_routeMessage]
    rfl
  have hrtl : ((nlmsgLen (routeMessage net.pid r ++ rest) : ℕ) : ℤ) - 28 =
      (attrBytes r.attrs).length := by
    rw [nlmsgLen_routeMessage (by omega), length_routeMessage]
    omega
  have hpayloads : ∀ a ∈ r.attrs, rtaLength a.2.length < 2 ^ 16 := fun a ha =>
    (rtaLength_le_of_mem ha).trans_lt (by omega)
  -- `RTM_PAYLOAD` is the length of the attributes, so the loop over them ends where they end
  obtain ⟨ps, hwalk, hps⟩ := Format.walk_of_holds (holds_attrBytes hpayloads) (by omega)
  refine ⟨ps, hps, ?_⟩
  rw [gatewayMsg, EStateM.run_bind, run_assert_of_true (header_routeMessage hpid r rest)]
  dsimp only
  rw [drop_routeMessage, EStateM.run_bind, run_readRtmsg]
  dsimp only
  rw [hdrop, hrtl, hwalk]
  by_cases hskip : Skipped r.rtm
  · rw [if_pos hskip, if_pos hskip]
  · rw [if_neg hskip, if_neg hskip]
    rfl

/-- A passable route is skipped. -/
theorem run_gatewayMsg_of_passable (hr : Passable r.rtm) (hpid : net.pid < 2 ^ 32)
    (hlen : (routeMessage net.pid r).length < 2 ^ 16)
    (hp : nlmsg.PointsTo p (routeMessage net.pid r)) :
    (gatewayMsg net p).run s = .ok false s := by
  obtain ⟨hdstLen, htable, hscope⟩ := hr
  obtain ⟨ps, -, hrun⟩ := run_gatewayMsg hpid hlen hp
  rw [hrun]
  have hskip : Skipped r.rtm := .inl (by rw [hdstLen]; decide)
  rw [if_pos hskip, EStateM.run_bind, run_assert_of_true hdstLen]
  dsimp only
  rw [EStateM.run_bind, run_assert_of_true htable]
  dsimp only
  rw [EStateM.run_bind, run_assert_of_true hscope]
  rfl

theorem mem_of_find {attrs : List (ℕ × List UInt8)} (h : find attrs type = some pl) :
    (type, pl) ∈ attrs := by
  obtain ⟨before, after, rfl, -⟩ := List.lookup_eq_some_iff.mp h
  exact List.mem_append_right _ List.mem_cons_self

/-- A default route with accepted attributes ends the loop, with its gateway stored if it has
one. -/
theorem run_gatewayMsg_of_accepted (hskip : ¬ Skipped r.rtm) (hheader : HeaderOk r.rtm)
    (hok : ∀ a ∈ r.attrs, AttrOk a) (hgw : ∀ a ∈ r.attrs, a.1 = rtaGateway → a.2 = gw.bytes)
    (hpid : net.pid < 2 ^ 32) (hlen : (routeMessage net.pid r).length < 2 ^ 16)
    (hp : nlmsg.PointsTo p (routeMessage net.pid r)) :
    (gatewayMsg net p).run s =
      .ok true
        { s with
          recvbuf := List.replicate sz 0
          len := 0
          gw := if ∃ a ∈ r.attrs, a.1 = rtaGateway then ntop4 gw else s.gw } := by
  obtain ⟨ps, hps, hrun⟩ := run_gatewayMsg hpid hlen hp
  rw [hrun, if_neg hskip, EStateM.run_bind, run_assert_of_true hheader]
  dsimp only
  rw [EStateM.run_bind, run_gatewayAttrs hps hok hgw]
  by_cases hexists : ∃ a ∈ r.attrs, a.1 = rtaGateway
  · rw [if_pos hexists, if_pos hexists]
    rfl
  · rw [if_neg hexists, if_neg hexists]
    rfl

/-- Behind passable routes the loop goes on. -/
theorem run_gatewayMsgs_of_passable {before : List Route} {ps after : List (List UInt8)}
    (hbefore : ∀ r ∈ before, Passable r.rtm) (hpid : net.pid < 2 ^ 32)
    (hlen : ∀ r ∈ before, (routeMessage net.pid r).length < 2 ^ 16)
    (hps : List.Forall₂ nlmsg.PointsTo ps (before.map (routeMessage net.pid))) :
    (gatewayMsgs net (ps ++ after)).run s = (gatewayMsgs net after).run s := by
  induction before generalizing ps with
  | nil =>
    cases hps
    rfl
  | cons r before ih =>
    obtain ⟨p, ps, hp, hps', rfl⟩ := List.forall₂_cons_right_iff.mp hps
    rw [List.forall_mem_cons] at hbefore hlen
    rw [List.cons_append, gatewayMsgs, EStateM.run_bind,
      run_gatewayMsg_of_passable hbefore.1 hpid hlen.1 hp]
    exact ih hbefore.2 hlen.2 hps'

/-- Behind passable routes the loop stops at the default route. -/
theorem run_gatewayMsgs {oif : ℕ} {before : List Route} {after : List (List UInt8)}
    {ps : List (List UInt8)} (hbefore : ∀ r ∈ before, Passable r.rtm) (hr : DefaultRoute r gw oif)
    (hpid : net.pid < 2 ^ 32)
    (hlen : ∀ r' ∈ before ++ [r], (routeMessage net.pid r').length < 2 ^ 16)
    (hps : List.Forall₂ nlmsg.PointsTo ps ((before ++ [r]).map (routeMessage net.pid))) :
    (gatewayMsgs net (ps ++ after)).run s =
      .ok true { s with recvbuf := List.replicate sz 0, len := 0, gw := ntop4 gw } := by
  rw [List.forall_mem_append, List.forall_mem_singleton] at hlen
  rw [List.map_append] at hps
  -- the messages in front, and the one of the default route
  have hfront := List.forall₂_take_append _ _ _ hps
  have hback := List.forall₂_drop_append _ _ _ hps
  obtain ⟨p, ps', hp, -, hdrop⟩ := List.forall₂_cons_right_iff.mp hback
  have hexists : ∃ a ∈ r.attrs, a.1 = rtaGateway := ⟨_, mem_of_find hr.gateway, rfl⟩
  rw [← List.take_append_drop (before.map (routeMessage net.pid)).length ps, List.append_assoc,
    run_gatewayMsgs_of_passable hbefore hpid hlen.1 hfront, hdrop, List.cons_append, gatewayMsgs,
    EStateM.run_bind,
    run_gatewayMsg_of_accepted hr.notSkipped hr.header hr.attrs hr.gateways hpid hlen.2 hp,
    if_pos hexists]
  rfl

/-! ## The dump -/

variable {w : Net State}

/-- The bytes of the messages of routes. -/
def msgBytes (pol : Policy) (rs : List Route) : List UInt8 := (rs.map (routeMsg pol)).flatten

/-- The routes in front of the first default route of the main table may be skipped, and with the
end of the dump, up to its type, the messages fit the buffer. -/
def Listed (pol : Policy) (rs : List Route) : Prop :=
  (∀ r ∈ rs.takeWhile fun r => Skipped r.rtm, Passable r.rtm) ∧ (msgBytes pol rs).length + 6 ≤ sz

instance (pol : Policy) (rs : List Route) : Decidable (Listed pol rs) :=
  inferInstanceAs (Decidable
    ((∀ r ∈ rs.takeWhile fun r => Skipped r.rtm, Passable r.rtm) ∧
      (msgBytes pol rs).length + 6 ≤ sz))

/-- The datagrams of a dump up to its end. -/
def segments (pol : Policy) (rs : List Route) : List (List UInt8) :=
  (pol.cut (rs.map (routeMsg pol))).map List.flatten

theorem flatten_segments (rs : List Route) : (segments pol rs).flatten = msgBytes pol rs := by
  rw [segments, ← List.flatten_flatten, pol.cut_flatten, msgBytes]

/-- A datagram of a dump is not taken for its end. -/
theorem segments_spec {rs : List Route} :
    ∀ seg ∈ segments pol rs, 6 ≤ seg.length ∧ ¬ Last seg := by
  intro seg hseg
  obtain ⟨ms, hms, rfl⟩ := List.mem_map.mp hseg
  obtain ⟨m, ms', rfl⟩ := List.exists_cons_of_ne_nil (pol.cut_ne_nil _ ms hms)
  have hmem : m ∈ rs.map (routeMsg pol) := by
    rw [← pol.cut_flatten (rs.map (routeMsg pol))]
    exact List.mem_flatten_of_mem hms List.mem_cons_self
  obtain ⟨r, -, rfl⟩ := List.mem_map.mp hmem
  rw [List.flatten_cons]
  refine ⟨?_, ?_⟩
  · rw [List.length_append, routeMsg_eq_routeMessage, length_routeMessage]
    omega
  · rw [Last, routeMsg_eq_routeMessage, (header_routeMessage pol.pid_lt r _).1]
    decide

/-- The end of a dump is recognised as soon as its type is received. -/
theorem last_doneMsg {n : ℕ} (h : 6 ≤ n) :
    6 ≤ ((doneMsg pol).take n).length ∧ Last ((doneMsg pol).take n) := by
  have hlen : 6 ≤ ((doneMsg pol).take n).length := by
    rw [List.length_take, doneMsg, List.length_append, length_nlmsghdr, length_le32]
    omega
  refine ⟨hlen, .inl ?_⟩
  rw [← nlmsgType_append hlen, List.take_append_drop]
  exact nlmsgType_nlmsghdr (by decide)

theorem handle_askRoute (k : State) :
    handle pol k (askRouteReq (sys pol).pid) = (k, segments pol k.routes ++ [doneMsg pol]) := by
  have htype : nlmsgType (askRouteReq (sys pol).pid) = rtmGetroute :=
    nlmsgType_nlmsghdr (by decide)
  rw [handle, if_pos htype]
  rfl

/-- The first route that is not skipped, with what is in front of it. -/
theorem eq_takeWhile_append {rs : List Route} (hmem : r ∈ rs) (hr : ¬ Skipped r.rtm)
    (honly : ∀ r' ∈ rs, ¬ Skipped r'.rtm → r' = r) :
    ∃ after, rs = (rs.takeWhile (fun r => Skipped r.rtm) ++ [r]) ++ after := by
  induction rs with
  | nil => cases hmem
  | cons r' rs ih =>
    by_cases hskip : Skipped r'.rtm
    · obtain rfl | hmem := List.mem_cons.mp hmem
      · exact absurd hskip hr
      · obtain ⟨after, hafter⟩ := ih hmem fun r'' hr'' => honly r'' (List.mem_cons_of_mem _ hr'')
        refine ⟨after, ?_⟩
        rw [List.takeWhile_cons_of_pos (by simpa using hskip), List.cons_append, List.cons_append,
          ← hafter]
    · obtain rfl := honly r' List.mem_cons_self hskip
      exact ⟨rs, by rw [List.takeWhile_cons_of_neg (by simpa using hskip)]; rfl⟩

/-- `netlink_get_gateway` stores the gateway of the default route, and the buffer is clean behind
it. -/
theorem run_netlinkGetGateway {oif : ℕ} (hidle : Idle w) (hlisted : Listed pol w.kernel.routes)
    (hmem : r ∈ w.kernel.routes) (hr : DefaultRoute r gw oif)
    (honly : ∀ r' ∈ w.kernel.routes, ¬ Skipped r'.rtm → r' = r) :
    (netlinkGetGateway (sys pol)).run w = .ok () { w with gw := ntop4 gw } := by
  obtain ⟨hpass, hfit⟩ := hlisted
  obtain ⟨after, hroutes⟩ := eq_takeWhile_append hmem hr.notSkipped honly
  set rs := w.kernel.routes with hrs
  set before := rs.takeWhile fun r => Skipped r.rtm
  have hmsg : ∀ r ∈ rs, (routeMessage (sys pol).pid r).length < 2 ^ 16 := by
    intro r hr
    have hle : (routeMessage (sys pol).pid r).length ≤ (msgBytes pol rs).length :=
      (List.sublist_flatten_of_mem (List.mem_map_of_mem hr)).length_le
    unfold sz at hfit
    omega
  -- the dump is asked for and received
  have hask : (askRoute (sys pol)).run w =
      .ok () (received w [] (segments pol rs ++ [doneMsg pol])) := by
    have hsend := run_send (sys pol) hidle (askRouteReq (sys pol).pid)
    have hhandle : (sys pol).send w.kernel (askRouteReq (sys pol).pid) = _ :=
      handle_askRoute w.kernel
    rw [askRoute, Channel.askRoute, channel, hsend, hhandle]
  obtain ⟨hlen, hlast⟩ :
      6 ≤ ((doneMsg pol).take (sz - (msgBytes pol rs).length)).length ∧
        Last ((doneMsg pol).take (sz - (msgBytes pol rs).length)) :=
    last_doneMsg (by omega)
  set seg := (doneMsg pol).take (sz - (msgBytes pol rs).length) with hseg
  set s := received w (msgBytes pol rs ++ seg) [] with hs
  have hreceive : receive.run (received w [] (segments pol rs ++ [doneMsg pol])) = .ok () s := by
    have hrun := run_receive (s := w) segments_spec (by rw [flatten_segments]) hlen hlast
    rwa [flatten_segments] at hrun
  -- the loop finds the messages of the routes
  have hsz : (msgBytes pol rs).length + seg.length ≤ sz := by
    rw [hseg, List.length_take]
    omega
  have hholds : nlmsg.Holds s.recvbuf (rs.map (routeMsg pol)) (msgBytes pol rs).length := by
    change nlmsg.Holds (filled (msgBytes pol rs ++ seg)) _ _
    rw [filled, List.append_assoc]
    refine holds_routeMessages fun r hr => ?_
    exact lt_of_lt_of_le (Nat.add_lt_add_right (hmsg r hr) 3) (by decide)
  obtain ⟨ps, hwalk, hps⟩ := Format.walk_add_of_holds (m := seg.length) hholds (by
    unfold sz at hsz
    omega)
  rw [← List.length_append] at hwalk
  rw [hroutes, List.map_append] at hps
  have hloop (ps' : List (List UInt8)) : (gatewayMsgs (sys pol) (ps ++ ps')).run s =
      .ok true { s with recvbuf := List.replicate sz 0, len := 0, gw := ntop4 gw } := by
    rw [← List.take_append_drop ((before ++ [r]).map (routeMsg pol)).length ps, List.append_assoc]
    refine run_gatewayMsgs hpass hr pol.pid_lt ?_ (List.forall₂_take_append _ _ _ hps)
    intro r' hr'
    exact hmsg r' (by rw [hroutes]; exact List.mem_append_left _ hr')
  have hlen' : s.len = ((msgBytes pol rs ++ seg).length : ℕ) := rfl
  rw [run_netlinkGetGateway_of_receive hask hreceive, hlen', hwalk, messagesLoop, EStateM.run_bind,
    hloop]
  obtain ⟨hsocket, hrecvbuf, hlen₀⟩ := hidle
  rw [hsocket, hrecvbuf, hlen₀]
  rfl

end Kernel
