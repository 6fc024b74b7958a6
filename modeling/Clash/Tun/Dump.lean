import Clash.Tun.Operations

/-!
# Dumps of any routes

`netlink_get_gateway` looks for the first default route of the main table and is to pass over all
other routes. The branch that does so asserts that they are of one kind.

## Main definitions

* `WellFormed`, `RouteDump`: routes as the kernel lists them, and the datagrams of a dump.
* `Acceptable`: a default route that the program accepts, with a gateway.

## Main results

* `passable_of_run_gatewayMsg`: a route on which the loop does not fail an assertion is of the one
  kind, or is a default route that passes the checks.
* `run_netlinkGetGateway_iff`: the gateway of the first acceptable route is stored exactly if every
  route in front of it is of this kind, and the end of the dump is in a datagram of its own.
-/

open CProg CString Inet Memory Records Rtnetlink Kernel

namespace Netlink

variable {κ : Type} {net : Sys κ} {s s' : Net κ} {r : Route} {gw : InAddr} {p : List UInt8}

/-! ## Routes in a dump -/

/-- The attributes of a route: one of each type, and numbers and gateways have four bytes. -/
structure WellFormed (r : Route) : Prop where
  nodup : (r.attrs.map Prod.fst).Nodup
  type_lt : ∀ a ∈ r.attrs, a.1 < 2 ^ 16
  length_eq : ∀ a ∈ r.attrs, a.1 ∈ [rtaOif, rtaGateway, rtaPriority, rtaTable] → a.2.length = 4

/-- A default route that passes the checks and has a gateway. -/
def Acceptable (r : Route) (gw : InAddr) : Prop := Checked r ∧ r.gateway = some gw.bytes

/-- The datagrams of a dump of routes, packed in any way. -/
structure RouteDump (pid : ℕ) (rs : List Route) (done : List UInt8)
    (datagrams : List (List (List UInt8))) : Prop where
  ne_nil : ∀ ms ∈ datagrams, ms ≠ []
  messages : datagrams.flatten = rs.map (routeMessage pid) ++ [done]
  wellFormed : ∀ r ∈ rs, WellFormed r
  ended : Whole done ∧ nlmsgType done = nlmsgDone
  length_le : datagrams.flatten.flatten.length ≤ sz

/-! ## Attributes that pass -/

/-- What a field that is compared with some values is, if the check is passed. -/
theorem of_run_checkInt {q : List UInt8} {P : ℕ → Prop} [DecidablePred P]
    (h : (do
      let v ← readInt q
      assert (P v) : Prog (Net κ) Unit).run s = .ok () s') : P (ofLE (slice q 0 4)) := by
  obtain ⟨v, s₁, hread, hassert⟩ := run_bind_eq_ok.mp h
  rw [readInt] at hread
  split at hread
  · cases hread
    exact (run_assert_eq_ok.mp hassert).1
  · cases hread

theorem slice_payload {pl rest : List UInt8} (h : pl.length = 4) :
    slice (pl ++ rest) 0 4 = pl := by
  rw [slice, List.drop_zero, ← h, List.take_left]

/-- The loop over the attributes only goes on behind attributes that are accepted. -/
theorem attrOk_of_run_gatewayAttr {type : ℕ} {pl : List UInt8}
    (hp : rta.PointsTo p (rtattr type pl)) (htype : type < 2 ^ 16)
    (hlength : type ∈ [rtaOif, rtaGateway, rtaPriority, rtaTable] → pl.length = 4)
    (hrun : (gatewayAttr p).run s = .ok () s') : AttrOk (type, pl) := by
  have hread := (Prod.mk.inj (read_of_pointsTo hp htype)).1
  obtain ⟨⟨rest, rfl⟩, -⟩ := hp
  have hdrop : (rtattr type pl ++ rest).drop 4 = pl ++ rest := rfl
  rw [gatewayAttr, hread, hdrop] at hrun
  by_cases hgateway : type = rtaGateway
  · exact .inl ⟨hgateway, hlength (by simp [hgateway])⟩
  rw [if_neg hgateway] at hrun
  by_cases hoif : type = rtaOif
  · have hlen : pl.length = 4 := hlength (by simp [hoif])
    rw [if_pos hoif] at hrun
    have hvalue := of_run_checkInt (P := fun oif => oif = 2 ∨ oif = 3) hrun
    rw [slice_payload hlen] at hvalue
    exact .inr (.inl ⟨hoif, hlen, hvalue⟩)
  rw [if_neg hoif] at hrun
  by_cases hprefsrc : type = rtaPrefsrc
  · exact .inr (.inr (.inl hprefsrc))
  rw [if_neg hprefsrc] at hrun
  by_cases hpriority : type = rtaPriority
  · have hlen : pl.length = 4 := hlength (by simp [hpriority])
    rw [if_pos hpriority] at hrun
    have hvalue := of_run_checkInt
      (P := fun metric => metric = 303 ∨ metric = 3003 ∨ metric = 3002) hrun
    rw [slice_payload hlen] at hvalue
    exact .inr (.inr (.inr (.inl ⟨hpriority, hlen, hvalue⟩)))
  rw [if_neg hpriority] at hrun
  by_cases htable : type = rtaTable
  · have hlen : pl.length = 4 := hlength (by simp [htable])
    rw [if_pos htable] at hrun
    have hvalue := of_run_checkInt (P := fun table => table = rtTableMain.toNat) hrun
    rw [slice_payload hlen] at hvalue
    exact .inr (.inr (.inr (.inr ⟨htable, hlen, hvalue⟩)))
  -- `default`
  · rw [if_neg htable] at hrun
    cases hrun

theorem attrOk_of_run_gatewayAttrs {attrs : List (ℕ × List UInt8)} {ps : List (List UInt8)}
    (hps : List.Forall₂ rta.PointsTo ps (attrs.map fun a => rtattr a.1 a.2))
    (htype : ∀ a ∈ attrs, a.1 < 2 ^ 16)
    (hlength : ∀ a ∈ attrs, a.1 ∈ [rtaOif, rtaGateway, rtaPriority, rtaTable] → a.2.length = 4)
    (hrun : (ps.forM gatewayAttr).run s = .ok () s') : ∀ a ∈ attrs, AttrOk a := by
  induction attrs generalizing ps s with
  | nil => exact List.forall_mem_nil _
  | cons a attrs ih =>
    obtain ⟨p, ps, hp, hps', rfl⟩ := List.forall₂_cons_right_iff.mp hps
    rw [List.forall_mem_cons] at htype hlength ⊢
    obtain ⟨_, s₁, hfirst, hrest⟩ :=
      run_bind_eq_ok.mp (show (gatewayAttr p >>= fun _ => ps.forM gatewayAttr).run s = _ from hrun)
    exact ⟨attrOk_of_run_gatewayAttr hp htype.1 hlength.1 hfirst, ih hps' htype.2 hlength.2 hrest⟩

/-! ## Messages that pass -/

section Messages

variable (hpid : net.pid < 2 ^ 32)

include hpid

/-- The loop over the messages only goes on, or ends, at a route of the one kind or at a default
route that passes the checks. -/
theorem passable_of_run_gatewayMsg {b : Bool} (hr : WellFormed r)
    (hlen : (routeMessage net.pid r).length < 2 ^ 16)
    (hp : nlmsg.PointsTo p (routeMessage net.pid r))
    (hrun : (gatewayMsg net p).run s = .ok b s') : Passable r.rtm ∨ Checked r := by
  obtain ⟨ps, hps, heq⟩ := run_gatewayMsg (s := s) hpid hlen hp
  rw [heq] at hrun
  by_cases hskip : Skipped r.rtm
  · rw [if_pos hskip] at hrun
    obtain ⟨_, _, hdstLen, hrun⟩ := run_bind_eq_ok.mp hrun
    obtain ⟨_, _, htable, hrun⟩ := run_bind_eq_ok.mp hrun
    obtain ⟨_, _, hscope, -⟩ := run_bind_eq_ok.mp hrun
    exact .inl ⟨(run_assert_eq_ok.mp hdstLen).1, (run_assert_eq_ok.mp htable).1,
      (run_assert_eq_ok.mp hscope).1⟩
  · rw [if_neg hskip] at hrun
    obtain ⟨_, _, hheader, hrun⟩ := run_bind_eq_ok.mp hrun
    obtain ⟨_, _, hattrs, -⟩ := run_bind_eq_ok.mp hrun
    refine .inr ⟨hskip, (run_assert_eq_ok.mp hheader).1, ?_⟩
    exact attrOk_of_run_gatewayAttrs hps hr.type_lt hr.length_eq hattrs

/-- A default route without a gateway ends the loop, and leaves the buffer of the caller as it
is. -/
theorem run_gatewayMsg_of_checked (hr : Checked r) (hnone : ∀ a ∈ r.attrs, a.1 ≠ rtaGateway)
    (hlen : (routeMessage net.pid r).length < 2 ^ 16)
    (hp : nlmsg.PointsTo p (routeMessage net.pid r)) :
    (gatewayMsg net p).run s = .ok true { s with recvbuf := List.replicate sz 0, len := 0 } := by
  have hgw : ∀ a ∈ r.attrs, a.1 = rtaGateway → a.2 = (⟨0, 0, 0, 0⟩ : InAddr).bytes :=
    fun a ha htype => absurd htype (hnone a ha)
  have hexists : ¬ ∃ a ∈ r.attrs, a.1 = rtaGateway := fun ⟨a, ha, htype⟩ => hnone a ha htype
  rw [run_gatewayMsg_of_accepted hr.notSkipped hr.header hr.attrs hgw hpid hlen hp,
    if_neg hexists]

/-- An acceptable route ends the loop with its gateway. -/
theorem run_gatewayMsg_of_acceptable (hwf : WellFormed r) (hr : Acceptable r gw)
    (hlen : (routeMessage net.pid r).length < 2 ^ 16)
    (hp : nlmsg.PointsTo p (routeMessage net.pid r)) :
    (gatewayMsg net p).run s =
      .ok true { s with recvbuf := List.replicate sz 0, len := 0, gw := ntop4 gw } := by
  obtain ⟨hchecked, hgateway⟩ := hr
  have hmem := mem_of_find hgateway
  have hgw : ∀ a ∈ r.attrs, a.1 = rtaGateway → a.2 = gw.bytes := fun a ha htype =>
    congrArg Prod.snd (List.inj_on_of_nodup_map hwf.nodup ha hmem htype)
  have hexists : ∃ a ∈ r.attrs, a.1 = rtaGateway := ⟨_, hmem, rfl⟩
  rw [run_gatewayMsg_of_accepted hchecked.notSkipped hchecked.header hchecked.attrs hgw hpid hlen
    hp, if_pos hexists]

omit hpid in
/-- A default route that passes the checks and is not acceptable has no gateway. -/
theorem ne_gateway_of_not_acceptable (hwf : WellFormed r) (hr : Checked r)
    (hnot : ¬ ∃ gw, Acceptable r gw) : ∀ a ∈ r.attrs, a.1 ≠ rtaGateway := by
  have hnone : find r.attrs rtaGateway = none := by
    rw [Option.eq_none_iff_forall_ne_some]
    intro pl hpl
    obtain ⟨b₀, b₁, b₂, b₃, rfl⟩ :=
      List.length_eq_four.mp (hwf.length_eq _ (mem_of_find hpl) (by simp))
    exact hnot ⟨⟨b₀, b₁, b₂, b₃⟩, hr, hpl⟩
  intro a ha htype
  have hne := List.lookup_eq_none_iff.mp hnone a ha
  rw [htype] at hne
  simp at hne

/-- If the loop ends with the gateway of the first acceptable route, whatever the buffer of the
caller held before, then the routes in front of it are all of the one kind. -/
theorem passable_of_run_gatewayMsgs {before : List Route} {ps after : List (List UInt8)}
    (hwf : ∀ r ∈ before, WellFormed r) (hfirst : ∀ r ∈ before, ¬ ∃ gw, Acceptable r gw)
    (hlen : ∀ r ∈ before, (routeMessage net.pid r).length < 2 ^ 16)
    (hps : List.Forall₂ nlmsg.PointsTo ps (before.map (routeMessage net.pid)))
    (hrun : ∀ old, ∃ b s', (gatewayMsgs net (ps ++ after)).run { s with gw := old } = .ok b s' ∧
      s'.gw = ntop4 gw) : ∀ r ∈ before, Passable r.rtm := by
  induction before generalizing ps with
  | nil => exact List.forall_mem_nil _
  | cons r before ih =>
    obtain ⟨p, ps, hp, hps', rfl⟩ := List.forall₂_cons_right_iff.mp hps
    rw [List.forall_mem_cons] at hwf hfirst hlen ⊢
    have hstep (old : CString) :
        (gatewayMsgs net (p :: ps ++ after)).run { s with gw := old } = _ := EStateM.run_bind ..
    obtain ⟨b, s₁, hok, -⟩ := hrun []
    obtain ⟨b₁, s₂, hmsg, -⟩ := run_bind_eq_ok.mp hok
    rcases passable_of_run_gatewayMsg hpid hwf.1 hlen.1 hp hmsg with hpass | hchecked
    · refine ⟨hpass, ih hwf.2 hfirst.2 hlen.2 hps' fun old => ?_⟩
      obtain ⟨b, s', hrun, hgw⟩ := hrun old
      rw [hstep, run_gatewayMsg_of_passable hpass hpid hlen.1 hp] at hrun
      exact ⟨b, s', hrun, hgw⟩
    · -- the buffer of the caller would have to hold every text
      have hnone := ne_gateway_of_not_acceptable hwf.1 hchecked hfirst.1
      have hkeeps (old : CString) : old = ntop4 gw := by
        obtain ⟨b, s', hrun, hgw⟩ := hrun old
        rw [hstep, run_gatewayMsg_of_checked hpid hchecked hnone hlen.1 hp] at hrun
        cases hrun
        exact hgw
      exact absurd ((hkeeps []).trans (hkeeps [0]).symm) (by decide)

end Messages

/-! ## The whole call -/

theorem RouteDump.reply {pid : ℕ} (hpid : pid < 2 ^ 32) {rs : List Route} {done : List UInt8}
    {datagrams : List (List (List UInt8))} (h : RouteDump pid rs done datagrams) :
    Reply datagrams := by
  obtain ⟨hne, hmessages, -, ⟨hdone, htype⟩, hlength⟩ := h
  -- every message of a route is whole, and ends nothing
  have hmsg : ∀ m ∈ rs.map (routeMessage pid), Whole m ∧ ¬ Last m := by
    intro m hm
    obtain ⟨r, hr, rfl⟩ := List.mem_map.mp hm
    have hle : (routeMessage pid r).length ≤ datagrams.flatten.flatten.length := by
      rw [hmessages]
      exact (List.sublist_flatten_of_mem (List.mem_append_left _ hm)).length_le
    have hlen : nlmsgLen (routeMessage pid r) = (routeMessage pid r).length := by
      have hlt : (routeMessage pid r).length < 2 ^ 32 := by
        unfold sz at hlength
        omega
      have happend := nlmsgLen_routeMessage hlt []
      rwa [List.append_nil] at happend
    refine ⟨⟨?_, ?_, ?_⟩, ?_⟩
    · rw [hlen, length_routeMessage]
      omega
    · omega
    · rw [hlen]
      exact le_align (by unfold sz at hlength; omega)
    · have htype := (header_routeMessage hpid r []).1
      rw [List.append_nil] at htype
      rw [Last, htype]
      decide
  -- the last message is `NLMSG_DONE`
  refine ⟨hne, ?_, ?_, hlength⟩
  · intro ms hms m hm
    have hmem : m ∈ datagrams.flatten := List.mem_flatten_of_mem hms hm
    rw [hmessages, List.mem_append, List.mem_singleton] at hmem
    rcases hmem with hmem | rfl
    · exact (hmsg m hmem).1
    · exact hdone
  · exact ⟨_, done, hmessages, fun m hm => (hmsg m hm).2, .inl htype⟩

section Call

variable {rs : List Route} {done : List UInt8} {datagrams : List (List (List UInt8))}

/-- The messages of a dump are short. -/
theorem RouteDump.length_lt {pid : ℕ} (h : RouteDump pid rs done datagrams) :
    ∀ r ∈ rs, (routeMessage pid r).length < 2 ^ 16 := by
  intro r hr
  have hmem : routeMessage pid r ∈ datagrams.flatten := by
    rw [h.messages]
    exact List.mem_append_left _ (List.mem_map_of_mem hr)
  have hle := (List.sublist_flatten_of_mem hmem).length_le
  have hlength := h.length_le
  unfold sz at hlength
  omega

/-- The loop over the messages finds those of the routes. -/
theorem RouteDump.walk {pid : ℕ} (h : RouteDump pid rs done datagrams) :
    ∃ ps tail rem, List.Forall₂ nlmsg.PointsTo ps (rs.map (routeMessage pid)) ∧
      nlmsg.walk (filled (packed datagrams).flatten) ((packed datagrams).flatten.length : ℕ) =
        (ps ++ tail, rem) := by
  have hlt := h.length_lt
  have hlength := h.length_le
  rw [flatten_packed]
  rw [h.messages, List.flatten_append, List.flatten_singleton] at hlength ⊢
  rw [List.length_append] at hlength ⊢
  -- the messages are at the front of the buffer; the last one and the zeros are behind them
  have hholds : nlmsg.Holds (filled ((rs.map (routeMessage pid)).flatten ++ done))
      (rs.map (routeMessage pid)) (rs.map (routeMessage pid)).flatten.length := by
    rw [filled, List.append_assoc]
    exact holds_routeMessages fun r hr =>
      lt_of_lt_of_le (Nat.add_lt_add_right (hlt r hr) 3) (by decide)
  obtain ⟨ps, hwalk, hps⟩ := Format.walk_add_of_holds (m := done.length) hholds (by
    unfold sz at hlength
    omega)
  exact ⟨ps, _, _, hps, hwalk⟩

/-- Behind a dump that was received, the call is the loop over its messages. -/
theorem run_netlinkGetGateway_of_alone (hidle : Idle s) (hpid : net.pid < 2 ^ 32)
    (hdump : RouteDump net.pid rs done datagrams)
    (hreply : (net.send s.kernel (askRouteReq net.pid)).2 = packed datagrams)
    (halone : datagrams.getLast? = some [done]) :
    ∃ ps tail rem, ∃ st : Net κ, List.Forall₂ nlmsg.PointsTo ps (rs.map (routeMessage net.pid)) ∧
      ∀ old, (netlinkGetGateway net).run { s with gw := old } =
        (messagesLoop net (ps ++ tail) rem).run { st with gw := old } := by
  obtain ⟨ps, tail, rem, hps, hwalk⟩ := hdump.walk
  refine ⟨ps, tail, rem, received { s with kernel := (net.send s.kernel (askRouteReq net.pid)).1 }
    (packed datagrams).flatten [], hps, fun old => ?_⟩
  have hidle' : Idle { s with gw := old } := ⟨hidle.socket, hidle.recvbuf, hidle.len⟩
  -- `receive` stops at the last datagram, since it holds nothing but the end of the dump
  have hreceive := run_receive_of_alone (hdump.reply hpid) halone
    { s with kernel := (net.send s.kernel (askRouteReq net.pid)).1, gw := old } []
  rw [List.append_nil] at hreceive
  have hask := run_send net hidle' (askRouteReq net.pid)
  rw [hreply] at hask
  rw [run_netlinkGetGateway_of_receive hask hreceive]
  show (messagesLoop net (nlmsg.walk (filled (packed datagrams).flatten)
    ((packed datagrams).flatten.length : ℕ)).1 (nlmsg.walk (filled (packed datagrams).flatten)
    ((packed datagrams).flatten.length : ℕ)).2).run _ = _
  rw [hwalk]
  rfl

/-- For every dump with an acceptable route: whatever the buffer of the caller held before, the call
returns with the gateway of the first acceptable route, and with nothing left in the receive buffer,
exactly if the end of the dump is in a datagram of its own and the routes in front of that route are
all of the one kind. -/
theorem run_netlinkGetGateway_iff {before after : List Route} (hidle : Idle s)
    (hpid : net.pid < 2 ^ 32) (hdump : RouteDump net.pid (before ++ r :: after) done datagrams)
    (hreply : (net.send s.kernel (askRouteReq net.pid)).2 = packed datagrams)
    (hfirst : ∀ r' ∈ before, ¬ ∃ gw', Acceptable r' gw') (hr : Acceptable r gw) :
    (∀ old, ∃ s', (netlinkGetGateway net).run { s with gw := old } = .ok () s' ∧
        s'.gw = ntop4 gw ∧ s'.len = 0) ↔
      datagrams.getLast? = some [done] ∧ ∀ r' ∈ before, Passable r'.rtm := by
  have hwf := hdump.wellFormed
  have hlt := hdump.length_lt
  rw [List.forall_mem_append, List.forall_mem_cons] at hwf hlt
  constructor
  · intro hrun
    have halone : datagrams.getLast? = some [done] := by
      obtain ⟨s', hok, -⟩ := hrun s.gw
      obtain ⟨m, hlast⟩ : ∃ m, datagrams.getLast? = some [m] := by
        -- otherwise `receive` looks at the first message of the last datagram and asks for another
        by_contra hnot
        obtain ⟨_, s₁, hask, hok⟩ := run_bind_eq_ok.mp hok
        obtain ⟨_, s₂, hreceive, -⟩ := run_bind_eq_ok.mp hok
        have hsend := (run_send net hidle (askRouteReq net.pid)).symm.trans hask
        rw [hreply] at hsend
        cases hsend
        rw [← List.append_nil (packed datagrams)] at hreceive
        exact absurd (socket_lt_of_run_receive (hdump.reply hpid) hnot hreceive) (Nat.not_lt_zero _)
      obtain ⟨ds, rfl⟩ := List.getLast?_eq_some_iff.mp hlast
      have hmessages := hdump.messages
      rw [List.flatten_append, List.flatten_singleton, List.append_singleton_inj] at hmessages
      rw [hlast, hmessages.2]
    refine ⟨halone, ?_⟩
    obtain ⟨ps, tail, rem, st, hps, heq⟩ :=
      run_netlinkGetGateway_of_alone hidle hpid hdump hreply halone
    rw [List.map_append] at hps
    have hloop (old : CString) : ∃ b s₁,
        (gatewayMsgs net (ps.take (before.map (routeMessage net.pid)).length ++
          (ps.drop (before.map (routeMessage net.pid)).length ++ tail))).run { st with gw := old } =
            .ok b s₁ ∧ s₁.gw = ntop4 gw := by
      obtain ⟨s', hok, hgw, -⟩ := hrun old
      rw [heq] at hok
      obtain ⟨b, s₁, hmsgs, hrest⟩ := run_bind_eq_ok.mp hok
      rw [← List.append_assoc, List.take_append_drop]
      refine ⟨b, s₁, hmsgs, ?_⟩
      -- what is left only changes the length
      cases b
      · cases hrest
        exact hgw
      · cases hrest
        exact hgw
    exact passable_of_run_gatewayMsgs hpid hwf.1 hfirst hlt.1 (List.forall₂_take_append _ _ _ hps)
      hloop
  · rintro ⟨halone, hbefore⟩ old
    obtain ⟨ps, tail, rem, st, hps, heq⟩ :=
      run_netlinkGetGateway_of_alone hidle hpid hdump hreply halone
    rw [List.map_append] at hps
    -- the loop skips the routes in front, and returns at the acceptable one
    have hfront := List.forall₂_take_append _ _ _ hps
    obtain ⟨p, ps', hp, -, hdrop⟩ :=
      List.forall₂_cons_right_iff.mp (List.forall₂_drop_append _ _ _ hps)
    rw [heq, messagesLoop, EStateM.run_bind,
      ← List.take_append_drop (before.map (routeMessage net.pid)).length ps, List.append_assoc,
      run_gatewayMsgs_of_passable hbefore hpid hlt.1 hfront, hdrop, List.cons_append, gatewayMsgs,
      EStateM.run_bind, run_gatewayMsg_of_acceptable hpid hwf.2.1 hr hlt.2.1 hp]
    exact ⟨_, rfl, rfl, rfl⟩

end Call

/-! ## A home network -/

/-- The route to the network of the link, in the local table. -/
def localRoute : Route := { lanRoute with rtm := { lanRoute.rtm with table := rtTableLocal } }

/-- A dump of routes in one datagram, with its end in another one. -/
def twoDatagrams (rs : List Route) : List (List (List UInt8)) :=
  [rs.map (routeMessage 1000), [doneMessage]]

/-- A kernel that lists these routes. -/
def listing (rs : List Route) : Sys Unit where
  pid := 1000
  ifNametoindex _ _ := 2
  send _ _ := ((), packed (twoDatagrams rs))
  tunsetiff _ _ := some ()

instance (r : Route) : Decidable (WellFormed r) :=
  decidable_of_iff ((r.attrs.map Prod.fst).Nodup ∧ (∀ a ∈ r.attrs, a.1 < 2 ^ 16) ∧
      ∀ a ∈ r.attrs, a.1 ∈ [rtaOif, rtaGateway, rtaPriority, rtaTable] → a.2.length = 4)
    ⟨fun ⟨h₁, h₂, h₃⟩ => ⟨h₁, h₂, h₃⟩, fun ⟨h₁, h₂, h₃⟩ => ⟨h₁, h₂, h₃⟩⟩

theorem routeDump_pair (r₁ r₂ : Route) (hwf : ∀ r ∈ [r₁, r₂], WellFormed r)
    (hlength : (twoDatagrams [r₁, r₂]).flatten.flatten.length ≤ sz) :
    RouteDump 1000 [r₁, r₂] doneMessage (twoDatagrams [r₁, r₂]) where
  ne_nil := by simp [twoDatagrams]
  messages := by simp [twoDatagrams]
  wellFormed := hwf
  ended := by decide +kernel
  length_le := hlength

theorem acceptable_dhcpRoute : Acceptable dhcpRoute ⟨192, 168, 1, 1⟩ :=
  ⟨⟨by decide, by decide, by decide⟩, by decide⟩

/-- A route that is skipped is not acceptable. -/
theorem not_acceptable_of_skipped (h : Skipped r.rtm) : ¬ ∃ gw, Acceptable r gw :=
  fun ⟨_, hchecked, _⟩ => hchecked.notSkipped h

/-- A program that has received nothing yet. -/
def idleNet : Net Unit := ⟨(), [], List.replicate sz 0, 0, []⟩

theorem run_netlinkGetGateway_iff_local : ∃ s',
    (netlinkGetGateway (listing [localRoute, dhcpRoute])).run idleNet = .ok () s' ∧
      s'.gw = ntop4 ⟨192, 168, 1, 1⟩ ∧ s'.len = 0 := by
  have hidle : Idle idleNet := ⟨rfl, rfl, rfl⟩
  have hdump : RouteDump (listing [localRoute, dhcpRoute]).pid
      ([localRoute] ++ dhcpRoute :: []) doneMessage (twoDatagrams [localRoute, dhcpRoute]) :=
    routeDump_pair localRoute dhcpRoute (by decide) (by decide +kernel)
  have hskip : ∀ r ∈ [localRoute], ¬ ∃ gw, Acceptable r gw :=
    List.forall_mem_singleton.mpr (not_acceptable_of_skipped (by decide))
  have hiff := run_netlinkGetGateway_iff hidle (by decide) hdump rfl hskip acceptable_dhcpRoute
  exact hiff.mpr ⟨rfl, by decide⟩ []

/-- The route to the network of the link in front of the default route stops the program. -/
theorem not_run_netlinkGetGateway_lan :
    ¬ ∀ (net : Sys Unit) (s : Net Unit) (before after : List Route) (r : Route) (gw : InAddr)
      (done : List UInt8) (datagrams : List (List (List UInt8))),
      Idle s → net.pid < 2 ^ 32 → RouteDump net.pid (before ++ r :: after) done datagrams →
      (net.send s.kernel (askRouteReq net.pid)).2 = packed datagrams →
      (∀ r' ∈ before, ¬ ∃ gw', Acceptable r' gw') → Acceptable r gw →
      ∃ s', (netlinkGetGateway net).run s = .ok () s' ∧ s'.gw = ntop4 gw ∧ s'.len = 0 := by
  intro h
  have hdump := routeDump_pair lanRoute dhcpRoute (by decide) (by decide +kernel)
  obtain ⟨s', hrun, -⟩ := h (listing [lanRoute, dhcpRoute]) idleNet [lanRoute] [] dhcpRoute _
    _ _ ⟨rfl, rfl, rfl⟩ (by decide) hdump rfl
    (List.forall_mem_singleton.mpr (not_acceptable_of_skipped (by decide))) acceptable_dhcpRoute
  have hstop : returned ((netlinkGetGateway (listing [lanRoute, dhcpRoute])).run idleNet) =
      false := by
    decide +kernel
  rw [hrun] at hstop
  cases hstop

end Netlink
