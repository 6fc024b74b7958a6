import Clash.Tun.Receive

/-!
# Replies in datagrams

A reply is a row of messages, which the kernel packs into datagrams as it likes. `receive` looks at
the first message of each datagram only.

## Main definitions

* `Whole`: a netlink message.
* `Reply`: messages in datagrams, of which the last one ends the reply.

## Main results

* `socket_lt_of_run_loop`: every round of `receive` takes a datagram.
* `receive_reply_iff`: `receive` takes the datagrams of a reply and no other one exactly if the
  message that ends the reply is alone in its datagram.
-/

open CProg CString Inet Memory Records Rtnetlink

namespace Netlink

variable {κ : Type} {s s' : Net κ}

/-- A message, with or without its padding. -/
structure Whole (m : List UInt8) : Prop where
  header_le : 16 ≤ nlmsgLen m
  le_length : nlmsgLen m ≤ m.length
  length_le : m.length ≤ align (nlmsgLen m)

instance (m : List UInt8) : Decidable (Whole m) :=
  decidable_of_iff (16 ≤ nlmsgLen m ∧ nlmsgLen m ≤ m.length ∧ m.length ≤ align (nlmsgLen m))
    ⟨fun ⟨h₁, h₂, h₃⟩ => ⟨h₁, h₂, h₃⟩, fun ⟨h₁, h₂, h₃⟩ => ⟨h₁, h₂, h₃⟩⟩

/-- The messages of a reply, datagram by datagram. -/
structure Reply (datagrams : List (List (List UInt8))) : Prop where
  ne_nil : ∀ ms ∈ datagrams, ms ≠ []
  whole : ∀ ms ∈ datagrams, ∀ m ∈ ms, Whole m
  /-- The last message ends the reply, and no other one does. -/
  ended : ∃ before m, datagrams.flatten = before ++ [m] ∧ (∀ m' ∈ before, ¬ Last m') ∧ Last m
  length_le : datagrams.flatten.flatten.length ≤ sz

/-- The datagrams on the wire. -/
def packed (datagrams : List (List (List UInt8))) : List (List UInt8) := datagrams.map List.flatten

theorem flatten_packed (datagrams : List (List (List UInt8))) :
    (packed datagrams).flatten = datagrams.flatten.flatten := by
  rw [packed, ← List.flatten_flatten]

/-- A datagram starts with its first message. -/
theorem last_flatten_cons {m : List UInt8} (ms : List (List UInt8)) (h : Whole m) :
    6 ≤ (m :: ms).flatten.length ∧ (Last (m :: ms).flatten ↔ Last m) := by
  have hlen : 6 ≤ m.length := by
    have := h.header_le
    have := h.le_length
    omega
  rw [List.flatten_cons, List.length_append]
  refine ⟨by omega, ?_⟩
  rw [Last, Last, nlmsgType_append hlen]

/-- The datagram starts with a message that does not end the reply. -/
def Opens (ms : List (List UInt8)) : Prop := ∃ m ms', ms = m :: ms' ∧ Whole m ∧ ¬ Last m

/-- Datagrams that start with messages which do not end the reply. -/
theorem packed_spec {datagrams : List (List (List UInt8))} (h : ∀ ms ∈ datagrams, Opens ms) :
    ∀ seg ∈ packed datagrams, 6 ≤ seg.length ∧ ¬ Last seg := by
  intro seg hseg
  obtain ⟨ms, hms, rfl⟩ := List.mem_map.mp hseg
  obtain ⟨m, ms', rfl, hwhole, hlast⟩ := h ms hms
  obtain ⟨hlen, hiff⟩ := last_flatten_cons ms' hwhole
  exact ⟨hlen, fun hl => hlast (hiff.mp hl)⟩

/-- Every round takes a datagram. -/
theorem socket_of_run_receiveBody {p : ℕ} {r : ℕ ⊕ Unit}
    (h : (receiveBody p).run s = .ok r s') : s.socket.length = s'.socket.length + 1 := by
  obtain ⟨s₀, s₁, hget, h⟩ := run_bind_eq_ok.mp h
  cases hget
  cases hsocket : s.socket with
  | nil =>
    rw [hsocket] at h
    cases h
  | cons datagram socket =>
    rw [hsocket] at h
    obtain ⟨_, s₂, hfits, h⟩ := run_bind_eq_ok.mp h
    obtain ⟨-, rfl⟩ := run_defined_eq_ok.mp hfits
    obtain ⟨_, s₃, hset, h⟩ := run_bind_eq_ok.mp h
    cases hset
    obtain ⟨_, s₄, hlen, h⟩ := run_bind_eq_ok.mp h
    obtain ⟨-, rfl⟩ := run_assert_eq_ok.mp hlen
    obtain ⟨_, s₅, hmodify, h⟩ := run_bind_eq_ok.mp h
    cases hmodify
    obtain ⟨_, s₆, htype, h⟩ := run_bind_eq_ok.mp h
    obtain ⟨-, rfl⟩ := run_defined_eq_ok.mp htype
    -- nothing is taken from here on
    dsimp only at h
    split at h
    · cases h
      rfl
    · cases h
      rfl

theorem socket_lt_of_run_loop {n p : ℕ} (h : (loop receiveBody n p).run s = .ok () s') :
    s'.socket.length < s.socket.length := by
  induction n generalizing p s with
  | zero => cases h
  | succ n ih =>
    obtain ⟨r, s₁, hbody, hrest⟩ := run_bind_eq_ok.mp h
    have hsocket := socket_of_run_receiveBody hbody
    rcases r with p' | u
    · have := ih hrest
      omega
    · cases hrest
      omega

/-- Segments that do not end the reply are all taken. -/
theorem run_receive_segments {segs later : List (List UInt8)}
    (hsegs : ∀ seg ∈ segs, 6 ≤ seg.length ∧ ¬ Last seg) (hfits : segs.flatten.length ≤ sz) :
    receive.run (received s [] (segs ++ later)) =
      (loop receiveBody (later.length + 1) segs.flatten.length).run
        (received s segs.flatten later) := by
  rw [receive, EStateM.run_bind, EStateM.run_get]
  show (loop receiveBody ((segs ++ later).length + 1) 0).run (received s [] (segs ++ later)) = _
  rw [List.length_append, Nat.add_assoc]
  exact run_loop_segments [] hsegs hfits (later.length + 1)

/-- The last message of a reply is the last one of its last datagram. -/
theorem eq_append_of_flatten {datagrams : List (List (List UInt8))} {before : List (List UInt8)}
    {m : List UInt8} (hne : ∀ ms ∈ datagrams, ms ≠ [])
    (hmsgs : datagrams.flatten = before ++ [m]) :
    ∃ ds ms, datagrams = ds ++ [ms ++ [m]] ∧ before = ds.flatten ++ ms := by
  have hnil : datagrams ≠ [] := by
    rintro rfl
    simp at hmsgs
  obtain ⟨ds, d, rfl⟩ : ∃ ds d, datagrams = ds ++ [d] :=
    ⟨_, _, (List.dropLast_append_getLast hnil).symm⟩
  have hd : d ≠ [] := hne d (by simp)
  rw [List.flatten_append, List.flatten_singleton, ← List.dropLast_append_getLast hd,
    ← List.append_assoc, List.append_singleton_inj] at hmsgs
  refine ⟨ds, d.dropLast, ?_, hmsgs.1.symm⟩
  rw [← hmsgs.2, List.dropLast_append_getLast hd]

/-- Every datagram of a reply in front of the last one opens with a message that does not end the
reply, and so does the last one if it has more than one message. -/
theorem Reply.opens {ds : List (List (List UInt8))} {ms : List (List UInt8)} {m : List UInt8}
    (h : Reply (ds ++ [ms ++ [m]])) : (∀ d ∈ ds, Opens d) ∧ (ms ≠ [] → Opens (ms ++ [m])) := by
  obtain ⟨before, m₁, hmsgs, hbefore, -⟩ := h.ended
  rw [List.flatten_append, List.flatten_singleton, ← List.append_assoc,
    List.append_singleton_inj] at hmsgs
  obtain ⟨rfl, rfl⟩ := hmsgs
  constructor
  · intro d hd
    obtain ⟨m', ms', rfl⟩ := List.exists_cons_of_ne_nil (h.ne_nil d (by simp [hd]))
    refine ⟨m', ms', rfl, h.whole _ (List.mem_append_left _ hd) m' List.mem_cons_self, ?_⟩
    exact hbefore m' (List.mem_append_left _ (List.mem_flatten_of_mem hd List.mem_cons_self))
  · intro hms
    obtain ⟨m', ms', rfl⟩ := List.exists_cons_of_ne_nil hms
    refine ⟨m', ms' ++ [m], rfl, ?_, ?_⟩
    · exact h.whole (m' :: ms' ++ [m]) (by simp) m' List.mem_cons_self
    · exact hbefore m' (List.mem_append_right _ List.mem_cons_self)

/-- A reply whose last message is alone in its datagram is received. -/
theorem run_receive_of_alone {datagrams : List (List (List UInt8))} (h : Reply datagrams)
    {m : List UInt8} (halone : datagrams.getLast? = some [m]) (s : Net κ)
    (later : List (List UInt8)) :
    receive.run (received s [] (packed datagrams ++ later)) =
      .ok () (received s (packed datagrams).flatten later) := by
  obtain ⟨ds, rfl⟩ := List.getLast?_eq_some_iff.mp halone
  have hlength := h.length_le
  -- the last message of the reply is the one that ends it
  have hm : Last m := by
    obtain ⟨before, m', hmsgs, -, hm'⟩ := h.ended
    rw [List.flatten_append, List.flatten_singleton, List.append_singleton_inj] at hmsgs
    exact hmsgs.2 ▸ hm'
  have hwhole : Whole m := h.whole [m] (by simp) m List.mem_cons_self
  have hds : ∀ d ∈ ds, Opens d := (show Reply (ds ++ [[] ++ [m]]) from h).opens.1
  have hpacked : packed (ds ++ [[m]]) = packed ds ++ [m] := by simp [packed]
  have hfits : (packed ds).flatten.length + m.length ≤ sz := by
    simpa [flatten_packed] using hlength
  have hlen : 6 ≤ m.length := by
    have := hwhole.header_le
    have := hwhole.le_length
    omega
  -- it is not cut, as the whole reply fits
  have hlast : m = m.take (sz - (packed ds).flatten.length) :=
    (List.take_of_length_le (by omega)).symm
  have hround : (receiveBody (packed ds).flatten.length).run
      (received s (packed ds).flatten (m :: later)) =
        .ok (.inr ()) (received s ((packed ds).flatten ++ m) later) := by
    rw [run_receiveBody hlast hlen (by omega), if_pos hm]
  -- the datagrams in front of it are taken first
  rw [hpacked, List.append_assoc, run_receive_segments (packed_spec hds) (by omega),
    List.flatten_append, List.flatten_singleton]
  exact run_loop_of_done hround

/-- Otherwise `receive` goes on behind the last datagram, whose first message does not end the
reply. -/
theorem socket_lt_of_run_receive {datagrams : List (List (List UInt8))} (h : Reply datagrams)
    (halone : ¬ ∃ m, datagrams.getLast? = some [m]) {later : List (List UInt8)}
    (hrun : receive.run (received s [] (packed datagrams ++ later)) = .ok () s') :
    s'.socket.length < later.length := by
  obtain ⟨before, m, hmsgs, -, -⟩ := h.ended
  obtain ⟨ds, ms, rfl, -⟩ := eq_append_of_flatten h.ne_nil hmsgs
  have hms : ms ≠ [] := by
    rintro rfl
    exact halone ⟨m, List.getLast?_concat⟩
  have hall : ∀ d ∈ ds ++ [ms ++ [m]], Opens d := by
    rw [List.forall_mem_append, List.forall_mem_singleton]
    exact ⟨h.opens.1, h.opens.2 hms⟩
  rw [run_receive_segments (packed_spec hall) (by rw [flatten_packed]; exact h.length_le)] at hrun
  exact socket_lt_of_run_loop hrun

/-- `receive` from a clean buffer takes exactly the datagrams of a reply, whatever comes later in
the socket, if and only if the message that ends the reply is alone in its datagram. -/
theorem receive_reply_iff {datagrams : List (List (List UInt8))} (h : Reply datagrams)
    (s : Net κ) (later : List (List UInt8)) :
    (∃ s', receive.run (received s [] (packed datagrams ++ later)) = .ok () s' ∧
        s'.socket = later ∧ s'.len = (packed datagrams).flatten.length ∧
        slice s'.recvbuf 0 (packed datagrams).flatten.length = (packed datagrams).flatten) ↔
      ∃ m, datagrams.getLast? = some [m] := by
  constructor
  · rintro ⟨s', hrun, hsocket, -, -⟩
    by_contra halone
    have hlt := socket_lt_of_run_receive h halone hrun
    rw [hsocket] at hlt
    exact absurd hlt (lt_irrefl _)
  · rintro ⟨m, halone⟩
    refine ⟨_, run_receive_of_alone h halone s later, rfl, rfl, ?_⟩
    show ((filled (packed datagrams).flatten).drop 0).take _ = _
    rw [List.drop_zero, filled, List.take_left]

/-- A message without a payload. -/
def emptyMessage (type : ℕ) : List UInt8 := nlmsghdr 16 type nlmFMulti 0 0

/-- The end of a dump in one datagram with a message in front of it. -/
def sharedDatagram : List (List (List UInt8)) :=
  [[emptyMessage rtmNewroute, emptyMessage nlmsgDone]]

/-- The same messages in two datagrams. -/
def separateDatagrams : List (List (List UInt8)) :=
  [[emptyMessage rtmNewroute], [emptyMessage nlmsgDone]]

/-- This reply is received. -/
theorem receive_reply_alone :
    ∃ s', receive.run
        (received (κ := Unit) ⟨(), [], [], 0, []⟩ [] (packed separateDatagrams ++ [])) =
          .ok () s' ∧ s'.socket = [] ∧ s'.len = (packed separateDatagrams).flatten.length ∧
      slice s'.recvbuf 0 (packed separateDatagrams).flatten.length =
        (packed separateDatagrams).flatten := by
  refine (receive_reply_iff ⟨?_, ?_, ?_, ?_⟩ _ []).mpr ⟨_, rfl⟩
  · simp [separateDatagrams]
  · decide +kernel
  · exact ⟨[emptyMessage rtmNewroute], emptyMessage nlmsgDone, rfl, by decide +kernel,
      by decide +kernel⟩
  · decide +kernel

/-- On this reply `receive` waits for another datagram. -/
theorem not_receive_sharedDatagram :
    Reply sharedDatagram ∧
      ¬ ∃ s', receive.run (received (κ := Unit) ⟨(), [], [], 0, []⟩ [] (packed sharedDatagram)) =
        .ok () s' := by
  refine ⟨⟨?_, ?_, ?_, ?_⟩, ?_⟩
  · simp [sharedDatagram]
  · decide +kernel
  · exact ⟨[emptyMessage rtmNewroute], emptyMessage nlmsgDone, rfl, by decide +kernel,
      by decide +kernel⟩
  · decide +kernel
  · rintro ⟨s', hrun⟩
    have hstop : returned (receive.run
        (received (κ := Unit) ⟨(), [], [], 0, []⟩ [] (packed sharedDatagram))) = false := by
      decide +kernel
    rw [hrun] at hstop
    cases hstop

end Netlink
