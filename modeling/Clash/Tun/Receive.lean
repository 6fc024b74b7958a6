import Clash.Tun.Netlink

/-!
# Receiving a reply

What `receive` and `ack` do with datagrams that fit the buffer.

## Main definitions

* `filled`: the buffer with some bytes, and zeros behind them.
* `Idle`: nothing has been received or waits to be.

## Main results

* `run_receive`: datagrams up to one that starts with an end or an error end up in the buffer.
* `run_ack`: an acknowledgement is accepted exactly if it reports no error.
-/

open CProg CString Inet Memory Records Rtnetlink

namespace Netlink

variable {κ : Type}

/-! ## The buffer -/

/-- The buffer with some bytes in front, and zeros behind them. -/
def filled (bs : List UInt8) : List UInt8 := bs ++ List.replicate (sz - bs.length) 0

theorem length_filled {bs : List UInt8} (h : bs.length ≤ sz) : (filled bs).length = sz := by
  rw [filled, List.length_append, List.length_replicate]
  omega

/-- Bytes written behind those in the buffer. -/
theorem splice_filled (bs seg : List UInt8) :
    splice (filled bs) bs.length seg = filled (bs ++ seg) := by
  rw [splice, filled, filled, List.take_left, List.drop_append, List.drop_of_length_le (by omega),
    List.nil_append, List.drop_replicate, List.length_append, Nat.add_sub_cancel_left]
  rw [show sz - bs.length - seg.length = sz - (bs.length + seg.length) by omega]

theorem drop_filled (bs seg : List UInt8) :
    (filled (bs ++ seg)).drop bs.length = seg ++ List.replicate (sz - (bs ++ seg).length) 0 := by
  rw [filled, List.append_assoc, List.drop_left]

/-- Nothing has been received, and nothing waits to be. -/
structure Idle (s : Net κ) : Prop where
  socket : s.socket = []
  recvbuf : s.recvbuf = List.replicate sz 0
  len : s.len = 0

/-! ## `receive` -/

/-- The buffer holds `bs`. -/
def received (s : Net κ) (bs : List UInt8) (socket : List (List UInt8)) : Net κ :=
  { s with socket, recvbuf := filled bs, len := bs.length }

theorem nlmsgType_append {seg rest : List UInt8} (h : 6 ≤ seg.length) :
    nlmsgType (seg ++ rest) = nlmsgType seg := by
  unfold nlmsgType slice
  rw [List.drop_append_of_le_length (by omega),
    List.take_append_of_le_length (by rw [List.length_drop]; omega)]

/-- A segment that starts with an end or an error is the last one. -/
def Last (seg : List UInt8) : Prop := nlmsgType seg = nlmsgDone ∨ nlmsgType seg = nlmsgError

instance (seg : List UInt8) : Decidable (Last seg) := inferInstanceAs (Decidable (_ ∨ _))

/-- A round of the loop takes a segment to the end of what was received. -/
theorem run_receiveBody {s : Net κ} {bs datagram seg : List UInt8} {socket : List (List UInt8)}
    (hseg : seg = datagram.take (sz - bs.length)) (hlen : 6 ≤ seg.length) (hbs : bs.length ≤ sz) :
    (receiveBody bs.length).run (received s bs (datagram :: socket)) =
      .ok (if Last seg then .inr () else .inl (bs ++ seg).length)
        (received s (bs ++ seg) socket) := by
  -- `SZ-p` does not wrap, as `p` is at most `SZ`
  have hsize : (((sz : ℤ) - bs.length) % 2 ^ 64).toNat = sz - bs.length := by
    unfold sz at hbs ⊢
    omega
  have hcut : datagram.take (((sz : ℤ) - bs.length) % 2 ^ 64).toNat = seg := by
    rw [hsize, hseg]
  have hfits : bs.length + seg.length ≤ sz := by
    rw [hseg, List.length_take]
    omega
  -- the type is read behind what was received before
  have htype : nlmsgType ((filled (bs ++ seg)).drop bs.length) = nlmsgType seg := by
    rw [drop_filled, nlmsgType_append hlen]
  have hfilled : (filled (bs ++ seg)).length = sz := length_filled (by rwa [List.length_append])
  simp only [receiveBody, received, EStateM.run_bind, EStateM.run_get]
  rw [run_defined_of_true (by rwa [hcut, length_filled hbs])]
  dsimp only [EStateM.run_set]
  rw [run_assert_of_true (by rw [hcut]; omega)]
  dsimp only [EStateM.run_modify]
  rw [run_defined_of_true (by rw [hcut, splice_filled, hfilled]; omega)]
  dsimp only
  rw [hcut, splice_filled, htype, List.length_append, Nat.cast_add]
  change EStateM.run
    (if Last seg then pure (Sum.inr ()) else pure (Sum.inl (bs.length + seg.length))) _ = _
  -- the segment decides whether there is another round
  by_cases hlast : Last seg
  · rw [if_pos hlast, if_pos hlast]
    rfl
  · rw [if_neg hlast, if_neg hlast]
    rfl

/-- The loop goes on behind segments that are not the last one. -/
theorem run_loop_segments {s : Net κ} (bs : List UInt8) {segs socket : List (List UInt8)}
    (hsegs : ∀ seg ∈ segs, 6 ≤ seg.length ∧ ¬ Last seg)
    (hfits : (bs ++ segs.flatten).length ≤ sz) (n : ℕ) :
    (loop receiveBody (segs.length + n) bs.length).run (received s bs (segs ++ socket)) =
      (loop receiveBody n (bs ++ segs.flatten).length).run
        (received s (bs ++ segs.flatten) socket) := by
  induction segs generalizing bs with
  | nil => rw [List.length_nil, Nat.zero_add, List.flatten_nil, List.append_nil, List.nil_append]
  | cons first segs ih =>
    obtain ⟨⟨hfirst, hnext⟩, hsegs⟩ := List.forall_mem_cons.mp hsegs
    rw [List.flatten_cons, ← List.append_assoc] at hfits ⊢
    have hlength : bs.length + first.length ≤ sz := by
      rw [List.length_append, List.length_append] at hfits
      omega
    -- the first segment is not cut off
    have hwhole : first = first.take (sz - bs.length) :=
      (List.take_of_length_le (by omega)).symm
    have hround : (receiveBody bs.length).run (received s bs (first :: (segs ++ socket))) =
        .ok (.inl (bs ++ first).length) (received s (bs ++ first) (segs ++ socket)) := by
      rw [run_receiveBody hwhole hfirst (by omega), if_neg hnext]
    rw [List.cons_append, List.length_cons, Nat.add_right_comm, run_loop_of_next hround]
    exact ih _ hsegs hfits

/-- The loop takes all segments up to the last one. -/
theorem run_loop_receiveBody {s : Net κ} {bs last seg : List UInt8}
    {segs socket : List (List UInt8)} {n : ℕ} (hn : segs.length < n)
    (hsegs : ∀ seg ∈ segs, 6 ≤ seg.length ∧ ¬ Last seg)
    (hlast : seg = last.take (sz - (bs ++ segs.flatten).length)) (hlen : 6 ≤ seg.length)
    (hdone : Last seg) :
    (loop receiveBody n bs.length).run (received s bs (segs ++ last :: socket)) =
      .ok () (received s (bs ++ segs.flatten ++ seg) socket) := by
  have hfits : (bs ++ segs.flatten).length ≤ sz := by
    have := congrArg List.length hlast
    rw [List.length_take] at this
    omega
  obtain ⟨n, rfl⟩ : ∃ i, n = segs.length + (i + 1) := ⟨n - segs.length - 1, by omega⟩
  rw [run_loop_segments bs hsegs hfits]
  refine run_loop_of_done ?_
  rw [run_receiveBody hlast hlen hfits, if_pos hdone]

/-- Datagrams up to a last one end up in the buffer, as far as they fit. -/
theorem run_receive {s : Net κ} {last seg : List UInt8} {segs : List (List UInt8)}
    (hsegs : ∀ seg ∈ segs, 6 ≤ seg.length ∧ ¬ Last seg)
    (hlast : seg = last.take (sz - segs.flatten.length)) (hlen : 6 ≤ seg.length)
    (hdone : Last seg) :
    receive.run (received s [] (segs ++ [last])) =
      .ok () (received s (segs.flatten ++ seg) []) := by
  have hn : segs.length < (segs ++ [last]).length + 1 := by
    rw [List.length_append]
    omega
  have hlast' : seg = last.take (sz - ([] ++ segs.flatten).length) := by rwa [List.nil_append]
  have hloop : (loop receiveBody ((segs ++ [last]).length + 1) ([] : List UInt8).length).run
      (received s [] (segs ++ [last])) = .ok () (received s ([] ++ segs.flatten ++ seg) []) :=
    run_loop_receiveBody hn hsegs hlast' hlen hdone
  rw [List.nil_append] at hloop
  rw [receive, EStateM.run_bind, EStateM.run_get]
  exact hloop

/-! ## Requests that are acknowledged -/

theorem Idle.eq_received {s : Net κ} (h : Idle s) : s = received s [] [] := by
  obtain ⟨hsocket, hrecvbuf, hlen⟩ := h
  cases s
  simp_all [received, filled]

theorem run_send (sys : Sys κ) {s : Net κ} (hidle : Idle s) (req : List UInt8) :
    (send sys req).run s =
      .ok () (received { s with kernel := (sys.send s.kernel req).1 } []
        (sys.send s.kernel req).2) := by
  obtain ⟨hsocket, hrecvbuf, hlen⟩ := hidle
  rw [send, EStateM.run_modify]
  simp [received, filled, hsocket, hrecvbuf, hlen]

/-- An acknowledgement: a datagram with an error code that fits the buffer. -/
structure Acknowledges (datagram : List UInt8) (e : ℕ) : Prop where
  le_length : 20 ≤ datagram.length
  length_le : datagram.length ≤ sz
  type : nlmsgType datagram = nlmsgError
  error : ofLE (slice datagram 16 4) = e

theorem slice_append {bs rest : List UInt8} {off n : ℕ} (h : off + n ≤ bs.length) :
    slice (bs ++ rest) off n = slice bs off n := by
  unfold slice
  rw [List.drop_append_of_le_length (by omega),
    List.take_append_of_le_length (by rw [List.length_drop]; omega)]

theorem run_receive_single {s : Net κ} {datagram : List UInt8} {e : ℕ}
    (h : Acknowledges datagram e) :
    receive.run (received s [] [datagram]) = .ok () (received s datagram []) := by
  have hwhole : datagram = datagram.take sz := (List.take_of_length_le h.length_le).symm
  have hlen : 6 ≤ datagram.length := le_trans (by decide) h.le_length
  exact run_receive (List.forall_mem_nil _) hwhole hlen (.inr h.type)

/-- `ack` reads the error code of the acknowledgement in the buffer. -/
theorem run_ack {s : Net κ} {datagram : List UInt8} {e : ℕ} (h : Acknowledges datagram e) :
    ack.run (received s datagram []) =
      if e = 0 then .ok () (received s datagram [])
      else .error .assertion (received s datagram []) := by
  obtain ⟨hle, -, htype, herror⟩ := h
  -- what `ack` reads is within the datagram, not in the zeros behind it
  have htype : nlmsgType (received s datagram []).recvbuf = nlmsgError := by
    show nlmsgType (filled datagram) = _
    rw [filled, nlmsgType_append (by omega), htype]
  have herror : ofLE (slice (received s datagram []).recvbuf 16 4) = e := by
    show ofLE (slice (filled datagram) 16 4) = _
    rw [filled, slice_append (by omega), herror]
  rw [ack, EStateM.run_bind, EStateM.run_get]
  dsimp only
  rw [EStateM.run_bind, run_assert_of_true htype]
  dsimp only
  rw [herror]
  by_cases he : e = 0
  · rw [if_neg (not_not.mpr he), if_pos he]
    rfl
  · rw [if_pos he, if_neg he, run_assert_of_false not_false]

/-- An acknowledgement without an error is taken, and the buffer is clean behind it. -/
theorem run_receive_ack {s : Net κ} {datagram : List UInt8} (h : Acknowledges datagram 0) :
    (do
      receive
      ack
      clearbuf).run (received s [] [datagram]) = .ok () (received s [] []) := by
  rw [EStateM.run_bind, run_receive_single h]
  dsimp only
  rw [EStateM.run_bind, run_ack h, if_pos rfl]
  rfl

end Netlink
