import Clash.Tun.Exchange
import Clash.Tun.Packing

/-!
# Rows of operations

What is left of the receive buffer between the operations of `netlink.c`, in any order and with any
arguments, as long as the kernel answers each request with an acknowledgement or with a dump.

## Main definitions

* `Op`: the operations with their arguments.
* `Answers`: what the kernel sends for a request.
* `Served`: an operation used the reply to its own request, and left nothing of it.

## Main results

* `run_gatewayMsgs_cases`: the loop over the messages of a dump stops at a default route, or fails
  an assertion.
* `operations_served`: every operation of a row that returns was served.
-/

open CProg CString Inet Memory Records Rtnetlink

namespace Netlink

variable {κ : Type} {sys : Sys κ} {s s' : Net κ} {req : List UInt8}

/-! ## Operations and replies -/

/-- An operation with its arguments. -/
inductive Op where
  | route (add gw : Bool) (dev : CString) (dst : Option CString) (via : CString)
  | getGateway
  | delLink (dev : CString)
  | tunAddr (dev ipv4 : CString) (prefixlen : UInt8)
  | flags (up : Bool) (dev : CString)

/-- An operation over a channel. -/
def Channel.op {σ : Type} (c : Channel κ σ) : Op → Prog σ Unit
  | .route add gw dev dst via => c.netlinkRoute add gw dev dst via
  | .getGateway => c.netlinkGetGateway
  | .delLink dev => c.netlinkDelLink dev
  | .tunAddr dev ipv4 prefixlen => c.netlinkTunAddr dev ipv4 prefixlen
  | .flags up dev => c.netlinkFlags up dev

/-- Run an operation. -/
def Op.run (sys : Sys κ) (op : Op) : Prog (Net κ) Unit := (channel sys).op op

/-- A request, if the calls of `attr` on it return. -/
def built (req : List UInt8) (p : Prog (List UInt8) Unit) : Option (List UInt8) :=
  match p.run req with
  | .ok _ block => some block
  | .error _ _ => none

/-- The request of an operation. -/
def Op.request (sys : Sys κ) (k : κ) : Op → Option (List UInt8)
  | .route add gw dev dst via =>
    built (routeReq sys.pid add gw) (routeAttrs gw (sys.ifNametoindex k dev) (dst.getD []) via)
  | .getGateway => some (askRouteReq sys.pid)
  | .delLink dev => built (delLinkReq sys.pid) (delLinkAttrs dev)
  | .tunAddr dev ipv4 prefixlen =>
    built (tunAddrReq sys.pid prefixlen (sys.ifNametoindex k dev)) (tunAddrAttrs ipv4)
  | .flags up dev => some (flagsReq sys.pid up (sys.ifNametoindex k dev))

/-- The datagrams of a dump: messages, and the end of the dump in a datagram of its own. -/
structure Dump (reply : List (List UInt8)) (datagrams : List (List (List UInt8)))
    (done : List UInt8) : Prop where
  reply_eq : reply = packed datagrams ++ [done]
  ne_nil : ∀ ms ∈ datagrams, ms ≠ []
  whole : ∀ ms ∈ datagrams, ∀ m ∈ ms, Whole m ∧ m.length % 4 = 0 ∧ ¬ Last m
  ended : Whole done ∧ nlmsgType done = nlmsgDone
  length_le : (packed datagrams).flatten.length + done.length ≤ sz

/-- In the states `K`, the kernel acknowledges the requests that ask for it, and answers a request
for the routes with a dump. -/
structure Answers (sys : Sys κ) (K : κ → Prop) : Prop where
  acked : ∀ k req, K k → 16 ≤ req.length → nlmsgFlags req &&& nlmFAck ≠ 0 →
    ∃ datagram e, (sys.send k req).2 = [datagram] ∧ Acknowledges datagram e
  dumped : ∀ k req, K k → 16 ≤ req.length → nlmsgType req = rtmGetroute →
    nlmsgFlags req &&& nlmFRoot ≠ 0 → nlmsgFlags req &&& nlmFAck = 0 →
    ∃ datagrams done, Dump (sys.send k req).2 datagrams done
  closed : ∀ k req, K k → K (sys.send k req).1

/-! ## Acknowledged requests -/

/-- A request that asks for an acknowledgement and returns got one without an error. -/
theorem acked_of_run {K : κ → Prop} (h : Answers sys K) (hidle : Idle s) (hkernel : K s.kernel)
    (hreq : 16 ≤ req.length) (hflags : nlmsgFlags req &&& nlmFAck ≠ 0)
    (hrun : (do
      send sys req
      receive
      ack
      clearbuf).run s = .ok () s') :
    Idle s' ∧ s'.kernel = (sys.send s.kernel req).1 ∧
      ∃ datagram, (sys.send s.kernel req).2 = [datagram] ∧ Acknowledges datagram 0 ∧
        s'.gw = s.gw := by
  obtain ⟨datagram, e, hreply, hack⟩ := h.acked s.kernel req hkernel hreq hflags
  rw [EStateM.run_bind, run_send sys hidle, hreply] at hrun
  dsimp only at hrun
  rw [EStateM.run_bind, run_receive_single hack] at hrun
  dsimp only at hrun
  rw [EStateM.run_bind, run_ack hack] at hrun
  -- `ack` asserts that the error is 0
  by_cases he : e = 0
  · subst he
    rw [if_pos rfl] at hrun
    cases hrun
    exact ⟨⟨rfl, rfl, rfl⟩, rfl, datagram, hreply, hack, rfl⟩
  · rw [if_neg he] at hrun
    cases hrun

/-- A request that the calls of `attr` have filled still asks for what its header asks for. -/
theorem nlmsgFlags_of_run_attrs {block₀ block : List UInt8} {start : ℕ}
    {calls : List (ℕ × List UInt8)} (hroom : Room block₀ start) (hlen : nlmsgLen block₀ = start)
    (hrun : (attrs block₀.length calls).run block₀ = .ok () block) :
    16 ≤ block.length ∧ nlmsgFlags block = nlmsgFlags block₀ := by
  obtain ⟨as, -, happends⟩ := appends_of_run_attrs hroom (.nil hlen) hroom.le_length hrun
  refine ⟨Kernel.length_of_appends hroom happends, ?_⟩
  have := hroom.header
  rw [nlmsgFlags, Kernel.slice_appends happends (by decide) (by omega), nlmsgFlags]

/-- `build` returns what the calls have filled. -/
theorem run_build_eq_ok {p : Prog (List UInt8) Unit} {req block : List UInt8} :
    (build req p).run s = .ok block s' ↔ p.run req = .ok () block ∧ s = s' := by
  rw [build]
  cases hp : p.run req with
  | ok u b => simp
  | error e b => simp

section Requests

variable {pid index : ℕ} {add gw up : Bool} {prefixlen : UInt8}

theorem asksAck_routeReq : nlmsgFlags (routeReq pid add gw) &&& nlmFAck ≠ 0 := by
  rw [routeReq, List.append_assoc, nlmsgFlags_nlmsghdr (by cases add <;> decide)]
  cases add <;> decide

theorem asksAck_tunAddrReq : nlmsgFlags (tunAddrReq pid prefixlen index) &&& nlmFAck ≠ 0 := by
  rw [tunAddrReq, List.append_assoc, nlmsgFlags_nlmsghdr (by decide)]
  decide

theorem asksAck_delLinkReq : nlmsgFlags (delLinkReq pid) &&& nlmFAck ≠ 0 := by
  rw [delLinkReq, List.append_assoc, nlmsgFlags_nlmsghdr (by decide)]
  decide

theorem asksAck_flagsReq : nlmsgFlags (flagsReq pid up index) &&& nlmFAck ≠ 0 := by
  rw [flagsReq, nlmsgFlags_nlmsghdr (by decide)]
  decide

end Requests

/-- An operation other than `netlink_get_gateway` that returns has sent a request for an
acknowledgement, and received and checked the answer. -/
theorem acked_request_of_run {op : Op} (hop : op ≠ .getGateway)
    (hrun : (op.run sys).run s = .ok () s') :
    ∃ req, op.request sys s.kernel = some req ∧ 16 ≤ req.length ∧
      nlmsgFlags req &&& nlmFAck ≠ 0 ∧
      (do
        send sys req
        receive
        ack
        clearbuf).run s = .ok () s' := by
  cases op with
  | getGateway => exact absurd rfl hop
  | route add gw dev dst via =>
    -- the checks of the arguments come first, in the order of the function
    obtain ⟨_, _, hdev, hrun⟩ := run_bind_eq_ok.mp hrun
    obtain ⟨-, rfl⟩ := run_assert_eq_ok.mp hdev
    obtain ⟨_, _, hget, hrun⟩ := run_bind_eq_ok.mp hrun
    cases hget
    obtain ⟨_, _, hoif, hrun⟩ := run_bind_eq_ok.mp hrun
    obtain ⟨-, rfl⟩ := run_assert_eq_ok.mp hoif
    obtain ⟨_, _, hdst, hrun⟩ := run_bind_eq_ok.mp hrun
    obtain ⟨-, rfl⟩ := run_assert_eq_ok.mp hdst
    obtain ⟨_, _, hvia, hrun⟩ := run_bind_eq_ok.mp hrun
    obtain ⟨-, rfl⟩ := run_assert_eq_ok.mp hvia
    obtain ⟨req, _, hbuild, hrun⟩ := run_bind_eq_ok.mp hrun
    obtain ⟨hattrs, rfl⟩ := run_build_eq_ok.mp hbuild
    dsimp only [channel] at hattrs
    have hrequest : Op.request sys s.kernel (.route add gw dev dst via) = some req := by
      rw [Op.request, built, hattrs]
    -- which attributes are written depends on the kind of route
    have hcalls : ∃ calls, routeAttrs gw (sys.ifNametoindex s.kernel dev) (dst.getD []) via =
        attrs (routeReq sys.pid add gw).length calls := by
      rw [length_routeReq]
      cases gw with
      | false => exact ⟨_, routeAttrs_route⟩
      | true => exact ⟨_, routeAttrs_gateway⟩
    obtain ⟨calls, hcalls⟩ := hcalls
    rw [hcalls] at hattrs
    obtain ⟨hlen, hflags⟩ := nlmsgFlags_of_run_attrs room_routeReq nlmsgLen_routeReq hattrs
    exact ⟨req, hrequest, hlen, by rw [hflags]; exact asksAck_routeReq, hrun⟩
  | delLink dev =>
    obtain ⟨req, _, hbuild, hrun⟩ := run_bind_eq_ok.mp hrun
    obtain ⟨hattrs, rfl⟩ := run_build_eq_ok.mp hbuild
    dsimp only [channel] at hattrs
    have hrequest : Op.request sys s.kernel (.delLink dev) = some req := by
      rw [Op.request, built, hattrs]
    have hlength : (delLinkReq sys.pid).length = sizeofChlink := length_delLinkReq
    rw [delLinkAttrs_eq, ← hlength] at hattrs
    obtain ⟨hlen, hflags⟩ := nlmsgFlags_of_run_attrs room_delLinkReq nlmsgLen_delLinkReq hattrs
    exact ⟨req, hrequest, hlen, by rw [hflags]; exact asksAck_delLinkReq, hrun⟩
  | tunAddr dev ipv4 prefixlen =>
    obtain ⟨_, _, hprefixlen, hrun⟩ := run_bind_eq_ok.mp hrun
    obtain ⟨-, rfl⟩ := run_assert_eq_ok.mp hprefixlen
    obtain ⟨_, _, hipv4, hrun⟩ := run_bind_eq_ok.mp hrun
    obtain ⟨-, rfl⟩ := run_assert_eq_ok.mp hipv4
    obtain ⟨_, _, hdev, hrun⟩ := run_bind_eq_ok.mp hrun
    obtain ⟨-, rfl⟩ := run_assert_eq_ok.mp hdev
    obtain ⟨_, _, hget, hrun⟩ := run_bind_eq_ok.mp hrun
    cases hget
    obtain ⟨_, _, hindex, hrun⟩ := run_bind_eq_ok.mp hrun
    obtain ⟨-, rfl⟩ := run_assert_eq_ok.mp hindex
    obtain ⟨req, _, hbuild, hrun⟩ := run_bind_eq_ok.mp hrun
    obtain ⟨hattrs, rfl⟩ := run_build_eq_ok.mp hbuild
    dsimp only [channel] at hattrs
    have hrequest : Op.request sys s.kernel (.tunAddr dev ipv4 prefixlen) = some req := by
      rw [Op.request, built, hattrs]
    have hlength : (tunAddrReq sys.pid prefixlen (sys.ifNametoindex s.kernel dev)).length =
        sizeofTunAddr := length_tunAddrReq
    rw [tunAddrAttrs_eq, ← hlength] at hattrs
    obtain ⟨hlen, hflags⟩ := nlmsgFlags_of_run_attrs room_tunAddrReq nlmsgLen_tunAddrReq hattrs
    exact ⟨req, hrequest, hlen, by rw [hflags]; exact asksAck_tunAddrReq, hrun⟩
  | flags up dev =>
    obtain ⟨_, _, hdev, hrun⟩ := run_bind_eq_ok.mp hrun
    obtain ⟨-, rfl⟩ := run_assert_eq_ok.mp hdev
    obtain ⟨_, _, hget, hrun⟩ := run_bind_eq_ok.mp hrun
    cases hget
    obtain ⟨_, _, hindex, hrun⟩ := run_bind_eq_ok.mp hrun
    obtain ⟨-, rfl⟩ := run_assert_eq_ok.mp hindex
    -- this request has no attributes
    refine ⟨_, rfl, ?_, asksAck_flagsReq, hrun⟩
    rw [flagsReq, List.length_append, length_nlmsghdr, length_ifinfomsg]
    decide

/-! ## The messages of a dump -/

/-- The loop over messages in memory goes through them, with what stands behind each. -/
theorem walk_messages {ms : List (List UInt8)} (h : ∀ m ∈ ms, Whole m ∧ m.length % 4 = 0)
    (rest : List UInt8) {n : ℕ} (hn : ms.flatten.length + n + 3 < 2 ^ 32) :
    ∃ ps, nlmsg.walk (ms.flatten ++ rest) ((ms.flatten.length + n : ℕ) : ℤ) =
        (ps ++ (nlmsg.walk rest n).1, (nlmsg.walk rest n).2) ∧
      List.Forall₂ (fun p m => ∃ after, p = m ++ after ++ rest) ps ms := by
  induction ms with
  | nil => exact ⟨[], by simp, .nil⟩
  | cons m ms ih =>
    rw [List.forall_mem_cons] at h
    obtain ⟨⟨hwhole, hmod⟩, h⟩ := h
    obtain ⟨hheader, hle, hlength⟩ := hwhole
    rw [List.flatten_cons, List.length_append] at hn ⊢
    obtain ⟨ps, hwalk, hps⟩ := ih h (by omega)
    have hp : m ++ ms.flatten ++ rest = m ++ (ms.flatten ++ rest) := List.append_assoc ..
    have hlengthAt : nlmsg.lengthAt (m ++ (ms.flatten ++ rest)) = nlmsgLen m := by
      show nlmsgLen _ = _
      rw [nlmsgLen, slice_append (by omega), nlmsgLen]
    -- the next header starts behind this message, whose length is a multiple of four
    have halign : align (nlmsgLen m) = m.length := by
      have := align_mod_four (nlmsgLen m)
      have := align_lt (nlmsgLen m)
      omega
    have hok :
        nlmsg.Ok (m ++ (ms.flatten ++ rest)) ((m.length + ms.flatten.length + n : ℕ) : ℤ) := by
      refine ⟨?_, ?_, ?_⟩
      · show (16 : ℤ) ≤ _
        omega
      · rw [hlengthAt]
        exact hheader
      · rw [hlengthAt]
        omega
    have hrem : ((m.length + ms.flatten.length + n : ℕ) : ℤ) - m.length =
        (ms.flatten.length + n : ℕ) := by omega
    refine ⟨(m ++ (ms.flatten ++ rest)) :: ps, ?_, .cons ⟨ms.flatten, hp.symm⟩ hps⟩
    rw [hp, Format.walk_of_ok hok (by omega), hlengthAt, halign, List.drop_left, hrem, hwalk]
    rfl

/-- The address in an attribute. -/
def addrAt (rta : List UInt8) : InAddr :=
  ⟨rta.getD 4 0, rta.getD 5 0, rta.getD 6 0, rta.getD 7 0⟩

/-- What an attribute makes of the gateway. -/
def storeGateway (gw : CString) (rta : List UInt8) : CString :=
  if rtaType rta = rtaGateway then ntop4 (addrAt rta) else gw

/-- The gateway that the attributes of a message say, if any, and otherwise the one before. -/
def gatewayOf (nh : List UInt8) (gw : CString) : CString :=
  (rta.walk (nh.drop 28) ((nlmsgLen nh : ℤ) - 28)).1.foldl storeGateway gw

/-- The message is about a route without a destination in the main table, with universal scope. -/
def IsDefault (nh : List UInt8) : Prop :=
  nlmsgType nh = rtmNewroute ∧ nh[17]? = some 0 ∧ nh[20]? = some rtTableMain ∧
    nh[22]? = some rtScopeUniverse

theorem run_readInt_of_le {q : List UInt8} (h : 4 ≤ q.length) :
    (readInt q).run s = .ok (ofLE (slice q 0 4)) s := by
  rw [readInt, if_pos h]
  rfl

theorem run_readAddr_of_le {rta : List UInt8} (h : 8 ≤ rta.length) :
    (readAddr (rta.drop 4)).run s = .ok (addrAt rta) s := by
  obtain ⟨a₀, a₁, a₂, a₃, a, b, c, d, rest, rfl⟩ : ∃ a₀ a₁ a₂ a₃ a b c d rest,
      rta = a₀ :: a₁ :: a₂ :: a₃ :: a :: b :: c :: d :: rest := by
    rcases rta with _ | ⟨a₀, _ | ⟨a₁, _ | ⟨a₂, _ | ⟨a₃, _ | ⟨a, _ | ⟨b, _ | ⟨c, _ | ⟨d, rest⟩⟩⟩⟩⟩⟩⟩⟩
    all_goals first
      | exact ⟨_, _, _, _, _, _, _, _, _, rfl⟩
      | exact absurd h (by simp)
  rfl

/-- A field that is compared with some values. -/
theorem run_checkInt_cases {q : List UInt8} (h : 4 ≤ q.length) (p : ℕ → Prop) [DecidablePred p] :
    (do
      let v ← readInt q
      assert (p v) : Prog (Net κ) Unit).run s = .ok () s ∨
    ∃ s', (do
      let v ← readInt q
      assert (p v) : Prog (Net κ) Unit).run s = .error .assertion s' := by
  rw [EStateM.run_bind, run_readInt_of_le h]
  dsimp only
  by_cases hp : p (ofLE (slice q 0 4))
  · exact .inl (run_assert_of_true hp s)
  · exact .inr ⟨s, run_assert_of_false hp s⟩

/-- An attribute stores a gateway, or passes, or fails an assertion. -/
theorem run_gatewayAttr_cases {rta : List UInt8} (h : 8 ≤ rta.length) :
    (gatewayAttr rta).run s = .ok () { s with gw := storeGateway s.gw rta } ∨
      ∃ s', (gatewayAttr rta).run s = .error .assertion s' := by
  have hdrop : 4 ≤ (rta.drop 4).length := by
    rw [List.length_drop]
    omega
  rw [gatewayAttr, storeGateway]
  -- the cases of the `switch` in their order
  by_cases hgateway : rtaType rta = rtaGateway
  · rw [if_pos hgateway, if_pos hgateway, EStateM.run_bind, run_readAddr_of_le h]
    exact .inl rfl
  rw [if_neg hgateway, if_neg hgateway]
  by_cases hoif : rtaType rta = rtaOif
  · rw [if_pos hoif]
    exact run_checkInt_cases hdrop fun oif => oif = 2 ∨ oif = 3
  rw [if_neg hoif]
  by_cases hprefsrc : rtaType rta = rtaPrefsrc
  · rw [if_pos hprefsrc]
    exact .inl rfl
  rw [if_neg hprefsrc]
  by_cases hpriority : rtaType rta = rtaPriority
  · rw [if_pos hpriority]
    exact run_checkInt_cases hdrop fun metric => metric = 303 ∨ metric = 3003 ∨ metric = 3002
  rw [if_neg hpriority]
  by_cases htable : rtaType rta = rtaTable
  · rw [if_pos htable]
    exact run_checkInt_cases hdrop fun table => table = rtTableMain.toNat
  · -- the default of the `switch`
    rw [if_neg htable]
    exact .inr ⟨s, rfl⟩

theorem run_gatewayAttrs_cases {ps : List (List UInt8)} (h : ∀ p ∈ ps, 8 ≤ p.length) :
    (ps.forM gatewayAttr).run s = .ok () { s with gw := ps.foldl storeGateway s.gw } ∨
      ∃ s', (ps.forM gatewayAttr).run s = .error .assertion s' := by
  induction ps generalizing s with
  | nil => exact .inl rfl
  | cons p ps ih =>
    rw [List.forall_mem_cons] at h
    show (gatewayAttr p >>= fun _ => ps.forM gatewayAttr).run s = _ ∨
      ∃ s', (gatewayAttr p >>= fun _ => ps.forM gatewayAttr).run s = _
    rw [EStateM.run_bind]
    rcases run_gatewayAttr_cases (s := s) h.1 with hrun | ⟨s', hrun⟩
    · rw [hrun]
      exact ih h.2
    · rw [hrun]
      exact .inr ⟨s', rfl⟩

/-- The state behind a clean buffer, with a gateway stored. -/
def cleared (s : Net κ) (gw : CString) : Net κ :=
  { s with recvbuf := List.replicate sz 0, len := 0, gw }

theorem run_readRtmsg_of_le {q : List UInt8} (h : 12 ≤ q.length) :
    ∃ rtm, (∀ s : Net κ, (readRtmsg q).run s = .ok rtm s) ∧ q[1]? = some rtm.dstLen ∧
      q[4]? = some rtm.table ∧ q[6]? = some rtm.scope := by
  -- eight bytes, and the word of the flags
  obtain ⟨family, dstLen, srcLen, tos, table, protocol, scope, type, flags, rfl⟩ :
      ∃ family dstLen srcLen tos table protocol scope type flags,
        q = family :: dstLen :: srcLen :: tos :: table :: protocol :: scope :: type :: flags := by
    rcases q with _ | ⟨a₀, _ | ⟨a₁, _ | ⟨a₂, _ | ⟨a₃, _ | ⟨a, _ | ⟨b, _ | ⟨c, _ | ⟨d, rest⟩⟩⟩⟩⟩⟩⟩⟩
    all_goals first
      | exact ⟨_, _, _, _, _, _, _, _, _, rfl⟩
      | exact absurd h (by simp)
  have hflags : 4 ≤ flags.length := by
    simp only [List.length_cons] at h
    omega
  let rtm : Rtmsg :=
    { family, dstLen, srcLen, tos, table, protocol, scope, type,
      flags := UInt32.ofNat (ofLE (slice flags 0 4)) }
  refine ⟨rtm, fun s => ?_, rfl, rfl, rfl⟩
  rw [readRtmsg, if_pos hflags]
  rfl

variable (sys s) in
/-- A message in front of other bytes of the reply is passed over, or ends the loop as a default
route, or fails an assertion. -/
theorem run_gatewayMsg_cases {m rest : List UInt8} (hm : Whole m) (hrest : 16 ≤ rest.length) :
    (gatewayMsg sys (m ++ rest)).run s = .ok false s ∨
      IsDefault (m ++ rest) ∧ (gatewayMsg sys (m ++ rest)).run s =
        .ok true (cleared s (gatewayOf (m ++ rest) s.gw)) ∨
      ∃ s', (gatewayMsg sys (m ++ rest)).run s = .error .assertion s' := by
  obtain ⟨hheader, hle, -⟩ := hm
  set nh := m ++ rest with hnh
  have hnhlen : m.length + rest.length = nh.length := (List.length_append).symm
  have hlen : nlmsgLen nh = nlmsgLen m := by
    rw [hnh, nlmsgLen, slice_append (by omega), nlmsgLen]
  have hstop : ∃ s', (.error .assertion s : EStateM.Result Stop (Net κ) Bool) =
      .error .assertion s' := ⟨s, rfl⟩
  obtain ⟨rtm, hrun, hdstLen, htable, hscope⟩ :=
    run_readRtmsg_of_le (κ := κ) (by rw [List.length_drop]; omega : 12 ≤ (nh.drop 16).length)
  rw [gatewayMsg, run_assert_bind]
  split
  swap
  · exact .inr (.inr hstop)
  rename_i hhead
  rw [EStateM.run_bind, hrun]
  dsimp only
  -- the checks of the message header are behind; the kind of the route decides
  by_cases hskip : Skipped rtm
  · rw [if_pos hskip, run_assert_bind]
    split
    swap
    · exact .inr (.inr hstop)
    rw [run_assert_bind]
    split
    swap
    · exact .inr (.inr hstop)
    rw [run_assert_bind]
    split
    swap
    · exact .inr (.inr hstop)
    exact .inl rfl
  · rw [if_neg hskip]
    right
    show IsDefault nh ∧ _ ∨ _
    rw [run_assert_bind]
    split
    swap
    · exact .inr hstop
    have hdefault : IsDefault nh := by
      simp only [Skipped, not_or, not_not] at hskip
      refine ⟨hhead.1, ?_, ?_, ?_⟩
      · rw [← hskip.1, ← hdstLen, List.getElem?_drop]
      · rw [← hskip.2.1, ← htable, List.getElem?_drop]
      · rw [← hskip.2.2, ← hscope, List.getElem?_drop]
    -- the attributes are in the message, so what is read of them is in the reply
    have hattrs : ∀ p ∈ (rta.walk (nh.drop 28) ((nlmsgLen nh : ℤ) - 28)).1, 8 ≤ p.length := by
      intro p hp
      have hlt := nlmsgLen_lt nh
      obtain ⟨k, rfl, hk⟩ := Format.drop_of_mem_walk (by omega) hp
      have hheader : rta.header = 4 := rfl
      rw [List.length_drop, List.length_drop]
      omega
    rw [EStateM.run_bind]
    rcases run_gatewayAttrs_cases (s := s) hattrs with hloop | ⟨s', hloop⟩
    · rw [hloop]
      exact .inl ⟨hdefault, rfl⟩
    · rw [hloop]
      exact .inr ⟨s', rfl⟩

variable (sys s) in
/-- The loop over the messages of a dump ends at a default route, or fails an assertion at the end
of the dump if not before. -/
theorem run_gatewayMsgs_cases {ms ps : List (List UInt8)} (tail : List (List UInt8))
    {pd rest : List UInt8} (hps : List.Forall₂ (fun p m => ∃ after, p = m ++ after ++ rest) ps ms)
    (hms : ∀ m ∈ ms, Whole m) (hrest : 16 ≤ rest.length) (hdone : nlmsgType pd = nlmsgDone) :
    (∃ p ∈ ps, (∃ m ∈ ms, m <+: p) ∧ IsDefault p ∧
      (gatewayMsgs sys (ps ++ pd :: tail)).run s = .ok true (cleared s (gatewayOf p s.gw))) ∨
      ∃ s', (gatewayMsgs sys (ps ++ pd :: tail)).run s = .error .assertion s' := by
  induction hps with
  | nil =>
    -- the end of the dump is not a route, which the loop asserts
    have htype : ¬ (nlmsgType pd = rtmNewroute ∧ nlmsgFlags pd = nlmFMulti ∧ nlmsgSeq pd = 0 ∧
        nlmsgPid pd = sys.pid) := by
      rw [hdone]
      exact fun h => absurd h.1 (by decide)
    rw [List.nil_append, gatewayMsgs, EStateM.run_bind, gatewayMsg, run_assert_bind, if_neg htype]
    exact .inr ⟨s, rfl⟩
  | @cons p m ps ms hp hps ih =>
    obtain ⟨after, rfl⟩ := hp
    rw [List.forall_mem_cons] at hms
    have hlen : 16 ≤ (after ++ rest).length := by
      rw [List.length_append]
      omega
    rw [List.cons_append, gatewayMsgs, EStateM.run_bind, List.append_assoc]
    rcases run_gatewayMsg_cases sys s hms.1 hlen with
      hrun | ⟨hdefault, hrun⟩ | ⟨s', hrun⟩
    · -- passed over: the loop goes on
      rw [hrun]
      rcases ih hms.2 with ⟨p, hp, ⟨m', hm', hpre⟩, h⟩ | h
      · exact .inl ⟨p, List.mem_cons_of_mem _ hp, ⟨m', List.mem_cons_of_mem _ hm', hpre⟩, h⟩
      · exact .inr h
    · rw [hrun]
      exact .inl ⟨_, List.mem_cons_self, ⟨m, List.mem_cons_self, List.prefix_append _ _⟩, hdefault,
        rfl⟩
    · rw [hrun]
      exact .inr ⟨s', rfl⟩

variable (sys s) in
/-- Where a dump is received from a clean buffer, the loop over its messages ends at a default route
or fails an assertion. -/
theorem run_gatewayMsgs_of_dump {reply : List (List UInt8)}
    {datagrams : List (List (List UInt8))} {done : List UInt8} (h : Dump reply datagrams done) :
    receive.run (received s [] reply) = .ok () (received s reply.flatten []) ∧
      ((∃ p, (∃ m ∈ datagrams.flatten, m <+: p) ∧ p <:+ filled reply.flatten ∧ IsDefault p ∧
          (gatewayMsgs sys (nlmsg.walk (filled reply.flatten) reply.flatten.length).1).run
            (received s reply.flatten []) =
              .ok true (cleared (received s reply.flatten []) (gatewayOf p s.gw))) ∨
        ∃ s', (gatewayMsgs sys (nlmsg.walk (filled reply.flatten) reply.flatten.length).1).run
          (received s reply.flatten []) = .error .assertion s') := by
  obtain ⟨rfl, hne, hwhole, ⟨⟨hheader, hle, -⟩, htype⟩, hlength⟩ := h
  have hsegs : ∀ seg ∈ packed datagrams, 6 ≤ seg.length ∧ ¬ Last seg := by
    refine packed_spec fun ms hms => ?_
    obtain ⟨m, ms', rfl⟩ := List.exists_cons_of_ne_nil (hne ms hms)
    obtain ⟨hm, -, hlast⟩ := hwhole _ hms m List.mem_cons_self
    exact ⟨m, ms', rfl, hm, hlast⟩
  have hms : ∀ m ∈ datagrams.flatten, Whole m ∧ m.length % 4 = 0 := by
    intro m hm
    obtain ⟨ms, hms, hm⟩ := List.mem_flatten.mp hm
    exact ⟨(hwhole ms hms m hm).1, (hwhole ms hms m hm).2.1⟩
  have hdone : done = done.take (sz - (packed datagrams).flatten.length) :=
    (List.take_of_length_le (by omega)).symm
  have hbytes : (packed datagrams ++ [done]).flatten = datagrams.flatten.flatten ++ done := by
    rw [List.flatten_append, List.flatten_singleton, flatten_packed]
  rw [flatten_packed] at hlength
  have hsmall : datagrams.flatten.flatten.length + done.length + 3 < 2 ^ 32 := by
    unfold sz at hlength
    omega
  set bytes := datagrams.flatten.flatten with hbytes'
  -- the end of the dump stands behind the messages
  set rest := done ++ List.replicate (sz - (bytes ++ done).length) 0 with hrest
  have hfilled : filled (bytes ++ done) = bytes ++ rest := by
    rw [filled, List.append_assoc]
  obtain ⟨ps, hwalk, hps⟩ := walk_messages hms rest hsmall
  have hrestType : nlmsgType rest = nlmsgDone := by
    rw [hrest, nlmsgType_append (by omega), htype]
  have hrestLen : nlmsgLen rest = nlmsgLen done := by
    rw [hrest, nlmsgLen, slice_append (by omega), nlmsgLen]
  have hok : nlmsg.Ok rest done.length := by
    refine ⟨?_, ?_, ?_⟩
    · show (16 : ℤ) ≤ done.length
      omega
    · show 16 ≤ nlmsgLen rest
      omega
    · show ((nlmsgLen rest : ℕ) : ℤ) ≤ done.length
      omega
  obtain ⟨tail, htail⟩ : ∃ tail, (nlmsg.walk rest done.length).1 = rest :: tail := by
    rw [Format.walk_of_ok hok (by omega)]
    exact ⟨_, rfl⟩
  have hpointers : (nlmsg.walk (filled (bytes ++ done)) (bytes ++ done).length).1 =
      ps ++ rest :: tail := by
    rw [hfilled, List.length_append, hwalk, htail]
  constructor
  · have hrun := run_receive (s := s) hsegs hdone (by omega) (.inl htype)
    rwa [flatten_packed, ← hbytes', ← hbytes] at hrun
  · rw [hbytes, hpointers]
    have hrestLength : 16 ≤ rest.length := by
      rw [hrest, List.length_append]
      omega
    rcases run_gatewayMsgs_cases sys (received s (bytes ++ done) []) tail
      hps (fun m hm => (hms m hm).1) hrestLength hrestType with ⟨p, hp, hpre, hdefault, hrun⟩ | h
    · have hmem : p ∈ (nlmsg.walk (filled (bytes ++ done)) (bytes ++ done).length).1 := by
        rw [hpointers]
        exact List.mem_append_left _ hp
      obtain ⟨k, hk, -⟩ := Format.drop_of_mem_walk (by rw [List.length_append]; omega) hmem
      exact .inl ⟨p, hpre, hk ▸ List.drop_suffix k _, hdefault, hrun⟩
    · exact .inr h

/-! ## Rows of operations -/

/-- What an operation uses of a reply: an acknowledgement without an error, or the gateway of a
default route that a message of the dump is about. -/
def Used (reply : List (List UInt8)) (gw gw' : CString) : Op → Prop
  | .getGateway => ∃ datagrams done, Dump reply datagrams done ∧ ∃ p,
      (∃ m ∈ datagrams.flatten, m <+: p) ∧ p <:+ filled reply.flatten ∧ IsDefault p ∧
        gw' = gatewayOf p gw
  | _ => ∃ datagram, reply = [datagram] ∧ Acknowledges datagram 0 ∧ gw' = gw

/-- An operation used the reply to its own request, and left nothing of it. -/
structure Served (sys : Sys κ) (op : Op) (s s' : Net κ) : Prop where
  idle : Idle s'
  own : ∃ req, op.request sys s.kernel = some req ∧ s'.kernel = (sys.send s.kernel req).1 ∧
    Used (sys.send s.kernel req).2 s.gw s'.gw op

/-- In `netlink_get_gateway` from `s`, the loop over the messages returns at a default route or
fails an assertion. -/
def LoopEnds (sys : Sys κ) (s : Net κ) : Prop :=
  ∃ st, (do
    askRoute sys
    receive).run s = .ok () st ∧
    ((∃ p st', p <:+ st.recvbuf ∧ IsDefault p ∧
        (gatewayMsgs sys (nlmsg.walk st.recvbuf st.len).1).run st = .ok true st') ∨
      ∃ st', (gatewayMsgs sys (nlmsg.walk st.recvbuf st.len).1).run st = .error .assertion st')

section Run

variable {K : κ → Prop} (h : Answers sys K)

include h

/-- The request for the routes is answered with a dump. -/
theorem dump_of_askRoute (hidle : Idle s) (hkernel : K s.kernel) :
    ∃ k reply datagrams done, sys.send s.kernel (askRouteReq sys.pid) = (k, reply) ∧
      Dump reply datagrams done ∧
      (askRoute sys).run s = .ok () (received { s with kernel := k } [] reply) := by
  have hreq : askRouteReq sys.pid = nlmsghdr 28 rtmGetroute (nlmFRequest ||| nlmFRoot) 0 sys.pid ++
      (askRouteReq sys.pid).drop 16 := rfl
  have hflags : nlmsgFlags (askRouteReq sys.pid) = nlmFRequest ||| nlmFRoot := by
    rw [hreq, nlmsgFlags_nlmsghdr (by decide)]
  have htype : nlmsgType (askRouteReq sys.pid) = rtmGetroute := by
    rw [hreq, nlmsgType_nlmsghdr (by decide)]
  have hlen : (askRouteReq sys.pid).length = 28 := by
    rw [askRouteReq, List.length_append, length_nlmsghdr, Rtmsg.length_bytes]
  obtain ⟨datagrams, done, hdump⟩ := h.dumped s.kernel (askRouteReq sys.pid) hkernel
    (by rw [hlen]; decide) htype (by rw [hflags]; decide) (by rw [hflags]; decide)
  exact ⟨_, _, datagrams, done, rfl, hdump, run_send sys hidle _⟩

theorem loopEnds (hidle : Idle s) (hkernel : K s.kernel) : LoopEnds sys s := by
  obtain ⟨k, reply, datagrams, done, -, hdump, hask⟩ := dump_of_askRoute h hidle hkernel
  obtain ⟨hreceive, hloop⟩ := run_gatewayMsgs_of_dump sys { s with kernel := k } hdump
  refine ⟨received { s with kernel := k } reply.flatten [], ?_, ?_⟩
  · rw [EStateM.run_bind, hask]
    exact hreceive
  · rcases hloop with ⟨p, -, hsuffix, hdefault, hrun⟩ | hfail
    · exact .inl ⟨p, _, hsuffix, hdefault, hrun⟩
    · exact .inr hfail

/-- An operation that returns from a clean state was served. -/
theorem served_of_run {op : Op} (hidle : Idle s) (hkernel : K s.kernel)
    (hrun : (op.run sys).run s = .ok () s') : Served sys op s s' := by
  by_cases hop : op = .getGateway
  · subst hop
    obtain ⟨k, reply, datagrams, done, hsend, hdump, hask⟩ := dump_of_askRoute h hidle hkernel
    obtain ⟨hreceive, hloop⟩ :=
      run_gatewayMsgs_of_dump sys { s with kernel := k } hdump
    have hrun : (netlinkGetGateway sys).run s = .ok () s' := hrun
    rw [run_netlinkGetGateway_of_receive hask hreceive] at hrun
    have hrecvbuf : (received { s with kernel := k } reply.flatten []).recvbuf =
        filled reply.flatten := rfl
    have hlen : (received { s with kernel := k } reply.flatten []).len = reply.flatten.length := rfl
    rw [hrecvbuf, hlen, messagesLoop, EStateM.run_bind] at hrun
    -- the loop is not left behind the last message
    rcases hloop with ⟨p, hpre, hsuffix, hdefault, hloop⟩ | ⟨st', hloop⟩
    · rw [hloop] at hrun
      dsimp only at hrun
      rw [if_neg (not_not.mpr rfl)] at hrun
      cases hrun
      refine ⟨⟨rfl, rfl, rfl⟩, _, rfl, ?_, ?_⟩
      · rw [hsend]
        rfl
      · rw [hsend]
        exact ⟨datagrams, done, hdump, p, hpre, hsuffix, hdefault, rfl⟩
    · rw [hloop] at hrun
      cases hrun
  · -- the other operations read an acknowledgement
    obtain ⟨req, hrequest, hlen, hflags, hrun⟩ := acked_request_of_run hop hrun
    obtain ⟨hidle', hkernel', hused⟩ := acked_of_run h hidle hkernel hlen hflags hrun
    refine ⟨hidle', req, hrequest, hkernel', ?_⟩
    cases op with
    | getGateway => exact absurd rfl hop
    | _ => exact hused

/-- In a row of operations, from a state in which nothing has been received, every operation that
returns used the reply to its own request and left the buffer and the socket empty; and the loop of
`netlink_get_gateway` never ends but at a default route or in an assertion. -/
theorem operations_served {s₁ : Net κ} {ops : List Op} (hidle : Idle s) (hkernel : K s.kernel)
    (hrun : (ops.forM (Op.run sys)).run s = .ok () s₁) :
    Idle s₁ ∧ LoopEnds sys s₁ ∧
      ∀ op s₂, (op.run sys).run s₁ = .ok () s₂ → Served sys op s₁ s₂ := by
  suffices hclean : Idle s₁ ∧ K s₁.kernel from
    ⟨hclean.1, loopEnds h hclean.1 hclean.2, fun op s₂ => served_of_run h hclean.1 hclean.2⟩
  induction ops generalizing s with
  | nil =>
    cases hrun
    exact ⟨hidle, hkernel⟩
  | cons op ops ih =>
    obtain ⟨_, s', hfirst, hrest⟩ := run_bind_eq_ok.mp hrun
    obtain ⟨hidle', req, -, hkernel', -⟩ := served_of_run h hidle hkernel hfirst
    refine ih hidle' ?_ hrest
    rw [hkernel']
    exact h.closed _ _ hkernel

end Run

/-! ## A kernel with one route -/

/-- The message of a default route with a gateway. -/
def gatewayMessage : List UInt8 :=
  nlmsghdr 52 rtmNewroute nlmFMulti 0 1000 ++
    Rtmsg.bytes
      { family := afInet, dstLen := 0, srcLen := 0, tos := 0, table := rtTableMain,
        protocol := rtprotDhcp, scope := rtScopeUniverse, type := rtnUnicast, flags := 0 } ++
    rtattr rtaGateway [192, 168, 1, 1] ++ rtattr rtaOif (le32 2) ++ rtattr rtaPriority (le32 303)

/-- The end of a dump. -/
def doneMessage : List UInt8 := nlmsghdr 20 nlmsgDone nlmFMulti 0 1000 ++ le32 0

/-- An acknowledgement without an error. -/
def ackMessage (req : List UInt8) : List UInt8 :=
  nlmsghdr 36 nlmsgError 0 0 1000 ++ le32 0 ++ req.take 16

/-- A kernel that acknowledges every request, and lists one default route. -/
def oneRoute : Sys Unit where
  pid := 1000
  ifNametoindex _ _ := 2
  send _ req := ((), if nlmsgFlags req &&& nlmFAck ≠ 0 then [ackMessage req]
    else [gatewayMessage, doneMessage])
  tunsetiff _ _ := some ()

theorem answers_oneRoute : Answers oneRoute fun _ => True where
  acked k req _ hlen hflags := by
    have hlength : (ackMessage req).length = 36 := by
      rw [ackMessage, List.length_append, List.length_append, length_nlmsghdr, length_le32,
        List.length_take]
      omega
    refine ⟨ackMessage req, 0, if_pos hflags, ?_, ?_, ?_, rfl⟩
    · omega
    · rw [hlength]
      decide
    · rw [ackMessage, List.append_assoc]
      exact nlmsgType_nlmsghdr (by decide)
  dumped k req _ _ _ _ hflags := by
    refine ⟨[[gatewayMessage]], doneMessage, ?_, ?_, ?_, ?_, ?_⟩
    · exact if_neg (not_not.mpr hflags)
    · simp
    · decide +kernel
    · decide +kernel
    · decide +kernel
  closed _ _ _ := trivial

/-- Link up, read the gateway, delete the default route. -/
def sampleOps : List Op :=
  [.flags true (utf8 "tun0"), .getGateway,
    .route false true (utf8 "wlp2s0") none (utf8 "192.168.1.1")]

/-- `operations_served` for this row of operations. -/
theorem operations_served_sampleOps :
    ∃ s₁, (sampleOps.forM (Op.run oneRoute)).run ⟨(), [], List.replicate sz 0, 0, []⟩ = .ok () s₁ ∧
      s₁.gw = utf8 "192.168.1.1" ∧ Idle s₁ ∧ LoopEnds oneRoute s₁ ∧
      ∀ op s₂, (op.run oneRoute).run s₁ = .ok () s₂ → Served oneRoute op s₁ s₂ := by
  have hreturned : returned ((sampleOps.forM (Op.run oneRoute)).run
      ⟨(), [], List.replicate sz 0, 0, []⟩) = true := by
    decide +kernel
  have hrun := eq_ok_of_returned hreturned
  refine ⟨_, hrun, by decide +kernel, ?_⟩
  exact operations_served answers_oneRoute ⟨rfl, rfl, rfl⟩ trivial hrun

end Netlink
