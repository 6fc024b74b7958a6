import Clash.Lib.Termination
import Clash.Tun.Receive

/-!
# Room for the next header

`receive` hands the room that is left in the buffer to `recv`, which cuts off what does not fit,
and then reads the type in the header of what came. When one to fifteen bytes are left, that
header is not all there, and when fewer than six are left its type lies behind the buffer.

## Main definitions

* `HeaderInside`: the round reads the type of a header that was received whole.
* `Roomy`: behind every part of the reply there is room for what `receive` does next.

## Main results

* `receive_iff`: headers are received whole, and replies that do not fit fail an assertion, exactly
  if there is such room. The length never leaves the buffer.
-/

open CProg CString Inet Memory Records Rtnetlink

namespace Netlink

variable {κ : Type} {s s' : Net κ} {bs d : List UInt8} {ds : List (List UInt8)} {p : ℕ}

/-- What `recv` copies of a datagram. -/
def copied (s : Net κ) (d : List UInt8) : List UInt8 :=
  d.take (((sz : ℤ) - s.len) % 2 ^ 64).toNat

/-- If the round that starts with offset `p` gets to reading the type of a header, the header lies
inside the buffer and inside what was received by the round. -/
def HeaderInside (p : ℕ) (s : Net κ) : Prop :=
  ∀ d ds, s.socket = d :: ds → 1 ≤ (copied s d).length →
    16 ≤ (copied s d).length ∧ p + 16 ≤ s.recvbuf.length

/-- The length lies inside the buffer when the round starts, and when it ends. -/
def LenInside (p : ℕ) (s : Net κ) : Prop :=
  (0 ≤ s.len ∧ s.len ≤ sz) ∧ 0 ≤ (final ((receiveBody p).run s)).len ∧
    (final ((receiveBody p).run s)).len ≤ sz

/-- Behind datagrams that do not end the reply and do not fill the buffer there is room for a
header, and if the next datagram ends the reply, for all of it. -/
def Roomy (datagrams : List (List UInt8)) : Prop :=
  ∀ before d after, datagrams = before ++ d :: after → (∀ x ∈ before, ¬ Last x) →
    before.flatten.length < sz →
    before.flatten.length + 16 ≤ sz ∧ (Last d → (before ++ [d]).flatten.length ≤ sz)

/-! ## One round -/

theorem copied_received (hbs : bs.length ≤ sz) (s : Net κ) (ds : List (List UInt8)) :
    copied (received s bs ds) d = d.take (sz - bs.length) := by
  have hsize : (((sz : ℤ) - bs.length) % 2 ^ 64).toNat = sz - bs.length := by
    unfold sz at hbs ⊢
    omega
  change d.take (((sz : ℤ) - bs.length) % 2 ^ 64).toNat = _
  rw [hsize]

theorem length_copied (hbs : bs.length ≤ sz) (s : Net κ) (ds : List (List UInt8)) :
    (copied (received s bs ds) d).length = min (sz - bs.length) d.length := by
  rw [copied_received hbs, List.length_take]

/-- A round up to the check of what `recv` returned. -/
theorem run_receiveBody_received (hbs : bs.length ≤ sz) {seg : List UInt8}
    (hseg : seg = d.take (sz - bs.length)) :
    (receiveBody bs.length).run (received s bs (d :: ds)) =
      (do
        assert (1 ≤ seg.length)
        modify fun s : Net κ => { s with len := s.len + seg.length }
        defined (bs.length + 6 ≤ (filled (bs ++ seg)).length)
        let type := nlmsgType ((filled (bs ++ seg)).drop bs.length)
        if type = nlmsgDone ∨ type = nlmsgError then return .inr ()
        return .inl (bs.length + seg.length) : Prog (Net κ) (ℕ ⊕ Unit)).run
        { received s bs ds with recvbuf := filled (bs ++ seg) } := by
  have hcut : d.take (((sz : ℤ) - bs.length) % 2 ^ 64).toNat = seg := by
    rw [hseg, ← copied_received hbs s ds]
    rfl
  have hfits : bs.length + seg.length ≤ sz := by
    rw [hseg, List.length_take]
    omega
  simp only [receiveBody, received, EStateM.run_bind, EStateM.run_get]
  rw [run_defined_of_true (by rwa [hcut, length_filled hbs])]
  dsimp only [EStateM.run_set]
  rw [hcut, splice_filled]

/-- `recv` without room returns 0, which fails the assertion. -/
theorem run_receiveBody_of_full (hbs : bs.length = sz) :
    (receiveBody bs.length).run (received s bs (d :: ds)) =
      .error .assertion (received s bs ds) := by
  have hseg : [] = d.take (sz - bs.length) := by
    rw [hbs, Nat.sub_self, List.take_zero]
  rw [run_receiveBody_received (Nat.le_of_eq hbs) hseg, EStateM.run_bind,
    run_assert_of_false (by decide), List.append_nil]
  rfl

/-- With less than six bytes left, the type is read behind the buffer. -/
theorem run_receiveBody_of_short (hbs : bs.length < sz) (hshort : sz < bs.length + 6)
    (hd : 16 ≤ d.length) :
    (receiveBody bs.length).run (received s bs (d :: ds)) =
      .error .undefined (received s (bs ++ d.take (sz - bs.length)) ds) := by
  have hlen : (d.take (sz - bs.length)).length = sz - bs.length := by
    rw [List.length_take]
    omega
  have hfilled : (filled (bs ++ d.take (sz - bs.length))).length = sz :=
    length_filled (by rw [List.length_append]; omega)
  rw [run_receiveBody_received (Nat.le_of_lt hbs) rfl, EStateM.run_bind,
    run_assert_of_true (by omega)]
  dsimp only
  rw [EStateM.run_bind, EStateM.run_modify]
  dsimp only
  rw [EStateM.run_bind, defined, if_neg (by omega)]
  -- `len` has counted the bytes already
  have hcast : ((bs ++ d.take (sz - bs.length)).length : ℤ) =
      bs.length + (d.take (sz - bs.length)).length := by
    rw [List.length_append, Nat.cast_add]
  simp only [run_stop, received, hcast]

theorem last_take_iff {n : ℕ} (hn : 6 ≤ n) (hd : 6 ≤ d.length) : Last (d.take n) ↔ Last d := by
  have hlen : 6 ≤ (d.take n).length := by
    rw [List.length_take]
    omega
  have htype : nlmsgType d = nlmsgType (d.take n) := calc
    nlmsgType d = nlmsgType (d.take n ++ d.drop n) := by rw [List.take_append_drop]
    _ = nlmsgType (d.take n) := nlmsgType_append hlen
  rw [Last, Last, htype]

/-- What a round does with a datagram: it aborts if there is no room, it reads behind the buffer if
there is room for less than six bytes, and otherwise it takes what fits. -/
theorem run_receiveBody_cases (hbs : bs.length ≤ sz) (hd : 16 ≤ d.length) (s : Net κ)
    (ds : List (List UInt8)) :
    (bs.length = sz ∧ (receiveBody bs.length).run (received s bs (d :: ds)) =
      .error .assertion (received s bs ds)) ∨
    ((bs.length < sz ∧ sz < bs.length + 6) ∧
      (receiveBody bs.length).run (received s bs (d :: ds)) =
        .error .undefined (received s (bs ++ d.take (sz - bs.length)) ds)) ∨
    (bs.length + 6 ≤ sz ∧ (receiveBody bs.length).run (received s bs (d :: ds)) =
      .ok (if Last d then .inr () else .inl (bs ++ d.take (sz - bs.length)).length)
        (received s (bs ++ d.take (sz - bs.length)) ds)) := by
  by_cases hfull : bs.length = sz
  · exact .inl ⟨hfull, run_receiveBody_of_full hfull⟩
  by_cases hshort : sz < bs.length + 6
  · have hlt : bs.length < sz := by omega
    exact .inr (.inl ⟨⟨hlt, hshort⟩, run_receiveBody_of_short hlt hshort hd⟩)
  · right; right
    have hlen : 6 ≤ (d.take (sz - bs.length)).length := by
      rw [List.length_take]
      omega
    refine ⟨by omega, ?_⟩
    rw [run_receiveBody rfl hlen hbs]
    simp only [last_take_iff (show 6 ≤ sz - bs.length by omega) (show 6 ≤ d.length by omega)]

/-! ## All rounds -/

/-- The rounds that `receive` starts from a clean buffer with datagrams in the socket. -/
abbrev StartsReceive (s : Net κ) (datagrams : List (List UInt8)) : ℕ → Net κ → Prop :=
  StartsRound receiveBody 0 (received s [] datagrams)

/-- What is in the buffer when a round starts: the datagrams so far, none of which ends the reply,
as far as they fit. -/
structure Filled (s : Net κ) (datagrams : List (List UInt8)) (before after : List (List UInt8))
    (p : ℕ) (s' : Net κ) : Prop where
  split : datagrams = before ++ after
  goesOn : ∀ x ∈ before, ¬ Last x
  eq : s' = received s (before.flatten.take sz) after
  offset : p = (before.flatten.take sz).length

variable {datagrams before after : List (List UInt8)}

theorem take_flatten_append (before : List (List UInt8)) (d : List UInt8) :
    (before ++ [d]).flatten.take sz =
      before.flatten.take sz ++ d.take (sz - (before.flatten.take sz).length) := by
  have hroom : sz - (before.flatten.take sz).length = sz - before.flatten.length := by
    rw [List.length_take]
    omega
  rw [List.flatten_append, List.flatten_singleton, List.take_append, hroom]

theorem length_take_le (bs : List UInt8) : (bs.take sz).length ≤ sz := by
  rw [List.length_take]
  exact Nat.min_le_left _ _

theorem filled_of_startsReceive (hlen : ∀ d ∈ datagrams, 16 ≤ d.length)
    (h : StartsReceive s datagrams p s') :
    ∃ before after, Filled s datagrams before after p s' := by
  -- a round that goes on has taken the next datagram, which was not the last one
  induction h with
  | first => exact ⟨[], datagrams, rfl, List.forall_mem_nil _, rfl, rfl⟩
  | next h hrun ih =>
    obtain ⟨before, after, rfl, hgoesOn, rfl, rfl⟩ := ih
    rcases after with _ | ⟨d, after⟩
    · cases hrun
    have hd := hlen d (List.mem_append_right _ List.mem_cons_self)
    obtain ⟨-, hround⟩ | ⟨-, hround⟩ | ⟨-, hround⟩ :=
      run_receiveBody_cases (length_take_le before.flatten) hd s after
    · rw [hround] at hrun
      cases hrun
    · rw [hround] at hrun
      cases hrun
    · rw [hround] at hrun
      by_cases hlast : Last d
      · rw [if_pos hlast] at hrun
        cases hrun
      · rw [if_neg hlast] at hrun
        cases hrun
        refine ⟨before ++ [d], after, (List.append_assoc before [d] after).symm, ?_, ?_, ?_⟩
        · rw [List.forall_mem_append, List.forall_mem_singleton]
          exact ⟨hgoesOn, hlast⟩
        · rw [take_flatten_append]
        · rw [take_flatten_append]

/-- The length never leaves the buffer. -/
theorem lenInside_of_filled (hlen : ∀ d ∈ datagrams, 16 ≤ d.length)
    (h : Filled s datagrams before after p s') : LenInside p s' := by
  obtain ⟨rfl, -, rfl, rfl⟩ := h
  have hle (bs : List UInt8) (hbs : bs.length ≤ sz) (ds : List (List UInt8)) :
      0 ≤ (received s bs ds).len ∧ (received s bs ds).len ≤ sz :=
    ⟨Int.natCast_nonneg _, Int.ofNat_le.mpr hbs⟩
  refine ⟨hle _ (length_take_le _) _, ?_⟩
  rcases after with _ | ⟨d, after⟩
  · exact hle _ (length_take_le before.flatten) []
  have hd := hlen d (List.mem_append_right _ List.mem_cons_self)
  have hnext : (before.flatten.take sz ++ d.take (sz - (before.flatten.take sz).length)).length ≤
      sz := by
    rw [← take_flatten_append]
    exact length_take_le _
  obtain ⟨-, hround⟩ | ⟨-, hround⟩ | ⟨-, hround⟩ :=
    run_receiveBody_cases (length_take_le before.flatten) hd s after
  · rw [hround]
    exact hle _ (length_take_le before.flatten) after
  · rw [hround]
    exact hle _ hnext after
  · rw [hround]
    exact hle _ hnext after

/-- A header is received whole when the buffer is full, so that none is read, or has room for it. -/
theorem headerInside_iff (hbs : bs.length ≤ sz) (hd : 16 ≤ d.length) :
    HeaderInside bs.length (received s bs (d :: ds)) ↔ bs.length = sz ∨ bs.length + 16 ≤ sz := by
  have hcopied : (copied (received s bs (d :: ds)) d).length = min (sz - bs.length) d.length :=
    length_copied hbs s (d :: ds)
  have hbuffer : (received s bs (d :: ds)).recvbuf.length = sz := length_filled hbs
  constructor
  · intro h
    by_cases hfull : bs.length = sz
    · exact .inl hfull
    · have hinside := h d ds rfl (by omega)
      omega
  · rintro hroom d' ds' hsocket hone
    obtain ⟨rfl, -⟩ := List.cons.inj hsocket
    omega

/-- The rounds go on behind datagrams that do not end the reply and do not fill the buffer. -/
theorem startsReceive_of_goesOn (hlen : ∀ d ∈ before, 16 ≤ d.length)
    (hgoesOn : ∀ x ∈ before, ¬ Last x) (hroom : before.flatten.length < sz)
    (hdatagrams : datagrams = before ++ after) :
    StartsReceive s datagrams before.flatten.length (received s before.flatten after) := by
  -- the last of the datagrams is taken behind those before it
  induction before using List.reverseRecOn generalizing after with
  | nil =>
    obtain rfl : datagrams = after := hdatagrams
    exact .first
  | append_singleton before d ih =>
    simp only [List.forall_mem_append, List.forall_mem_singleton] at hlen hgoesOn
    rw [List.flatten_append, List.flatten_singleton, List.length_append] at hroom
    rw [List.append_assoc] at hdatagrams
    have hstart := ih hlen.1 hgoesOn.1 (by omega) hdatagrams
    have hwhole : d.take (sz - before.flatten.length) = d := List.take_of_length_le (by omega)
    have hle : before.flatten.length ≤ sz := by omega
    refine .next hstart ?_
    -- there is room, so the round goes on
    obtain ⟨hfull, -⟩ | ⟨hshort, -⟩ | ⟨-, hround⟩ := run_receiveBody_cases hle hlen.2 s after
    · omega
    · omega
    · rw [List.singleton_append, hround, if_neg hgoesOn.2, hwhole, List.flatten_append,
        List.flatten_singleton]

/-! ## The whole reply -/

/-- A buffer that the datagrams fill before the reply ends aborts the program, if no header is cut
off on the way. -/
theorem run_loop_of_full (bs : List UInt8) {last : List UInt8} {n : ℕ} (hbs : bs.length ≤ sz)
    (hlen : ∀ d ∈ before, 16 ≤ d.length) (hgoesOn : ∀ x ∈ before, ¬ Last x)
    (hfull : sz ≤ bs.length + before.flatten.length)
    (hroom : ∀ b c, before = b ++ c → bs.length + b.flatten.length < sz →
      bs.length + b.flatten.length + 6 ≤ sz) (hn : before.length < n) :
    ∃ s', (loop receiveBody n bs.length).run (received s bs (before ++ last :: after)) =
      .error .assertion s' := by
  induction before generalizing bs n with
  | nil =>
    obtain ⟨n, rfl⟩ : ∃ m, n = m + 1 := ⟨n - 1, by omega⟩
    -- the buffer is full, and `recv` returns 0
    have hbs : bs.length = sz := by
      rw [List.flatten_nil, List.length_nil] at hfull
      omega
    exact ⟨_, run_loop_of_error (run_receiveBody_of_full hbs)⟩
  | cons d before ih =>
    obtain ⟨n, rfl⟩ : ∃ m, n = m + 1 := ⟨n - 1, by omega⟩
    rw [List.forall_mem_cons] at hlen hgoesOn
    rw [List.flatten_cons, List.length_append] at hfull
    rw [List.length_cons] at hn
    obtain ⟨-, hround⟩ | ⟨⟨hlt, hshort⟩, -⟩ | ⟨-, hround⟩ :=
      run_receiveBody_cases hbs hlen.1 s (before ++ last :: after)
    · exact ⟨_, run_loop_of_error hround⟩
    · -- there is room for a type, so the round is not cut off inside of it
      have := hroom [] (d :: before) rfl (by simpa using hlt)
      simp only [List.flatten_nil, List.length_nil, Nat.add_zero] at this
      omega
    · rw [if_neg hgoesOn.1] at hround
      rw [List.cons_append, run_loop_of_next hround]
      have hnext : (bs ++ d.take (sz - bs.length)).length =
          bs.length + min (sz - bs.length) d.length := by
        rw [List.length_append, List.length_take]
      refine ih _ (by omega) hlen.2 hgoesOn.2 (by omega) ?_ (by omega)
      rintro b c rfl hlt
      -- a datagram that was cut off fills the buffer
      have hwhole : bs.length + d.length < sz := by omega
      have := hroom (d :: b) c rfl (by rw [List.flatten_cons, List.length_append]; omega)
      rw [List.flatten_cons, List.length_append] at this
      omega

/-- The reply does not fit: the datagrams up to the one that ends it are longer than the buffer. -/
structure Overlong (datagrams before : List (List UInt8)) (last : List UInt8)
    (after : List (List UInt8)) : Prop where
  split : datagrams = before ++ last :: after
  goesOn : ∀ x ∈ before, ¬ Last x
  ends : Last last
  long : sz < (before ++ [last]).flatten.length

/-- From a clean buffer, for datagrams of at least a header each: the length never leaves the
buffer, and every header whose type is read is received whole, and a reply that does not fit ends in
the failed assertion, exactly if there is room behind every part of the reply. -/
theorem receive_iff (s : Net κ) (hlen : ∀ d ∈ datagrams, 16 ≤ d.length) :
    (∀ p s', StartsReceive s datagrams p s' → LenInside p s') ∧
    (((∀ p s', StartsReceive s datagrams p s' → HeaderInside p s') ∧
      (∀ before last after, Overlong datagrams before last after →
        ∃ s', receive.run (received s [] datagrams) = .error .assertion s')) ↔
      Roomy datagrams) := by
  have hreceive (ds : List (List UInt8)) : receive.run (received s [] ds) =
      (loop receiveBody (ds.length + 1) ([] : List UInt8).length).run (received s [] ds) := by
    rw [receive, EStateM.run_bind, EStateM.run_get]
    rfl
  refine ⟨?_, ?_, ?_⟩
  · intro p s' h
    obtain ⟨before, after, hfilled⟩ := filled_of_startsReceive hlen h
    exact lenInside_of_filled hlen hfilled
  · rintro ⟨hheaders, hoverlong⟩ before d after rfl hgoesOn hlt
    have hd : 16 ≤ d.length := hlen d (List.mem_append_right _ List.mem_cons_self)
    have hbefore : ∀ x ∈ before, 16 ≤ x.length := fun x hx => hlen x (List.mem_append_left _ hx)
    have hroom : before.flatten.length + 16 ≤ sz := by
      -- the datagram is the next one to be received, in front of the end of the buffer
      have hstart : StartsReceive s (before ++ d :: after) before.flatten.length
          (received s before.flatten (d :: after)) :=
        startsReceive_of_goesOn hbefore hgoesOn hlt rfl
      have hinside := (headerInside_iff (by omega) hd).mp (hheaders _ _ hstart)
      omega
    refine ⟨hroom, fun hends => ?_⟩
    by_contra hlong
    -- the end of the reply is taken although it was cut off
    obtain ⟨s', hrun⟩ := hoverlong before d after ⟨rfl, hgoesOn, hends, by omega⟩
    have hcut : 6 ≤ (d.take (sz - ([] ++ before.flatten).length)).length := by
      rw [List.nil_append, List.length_take]
      omega
    have htaken := (last_take_iff (d := d) (n := sz - ([] ++ before.flatten).length)
      (by rw [List.nil_append]; omega) (by omega)).mpr hends
    have hgo : ∀ x ∈ before, 6 ≤ x.length ∧ ¬ Last x := fun x hx =>
      ⟨le_trans (by decide) (hbefore x hx), hgoesOn x hx⟩
    have hlength : before.length < (before ++ d :: after).length + 1 := by
      rw [List.length_append]
      omega
    have hok : ∃ s'', (loop receiveBody ((before ++ d :: after).length + 1)
        ([] : List UInt8).length).run (received s [] (before ++ d :: after)) = .ok () s'' :=
      ⟨_, run_loop_receiveBody hlength hgo rfl hcut htaken⟩
    obtain ⟨s'', hok⟩ := hok
    rw [hreceive, hok] at hrun
    cases hrun
  · intro hroomy
    refine ⟨?_, ?_⟩
    · intro p s' h
      obtain ⟨before, after, rfl, hgoesOn, rfl, rfl⟩ := filled_of_startsReceive hlen h
      rcases after with _ | ⟨d, after⟩
      · intro d ds hsocket
        cases hsocket
      have hd : 16 ≤ d.length := hlen d (List.mem_append_right _ List.mem_cons_self)
      rw [headerInside_iff (length_take_le _) hd, List.length_take]
      -- behind a full buffer nothing is received, and no type is read
      by_cases hlt : before.flatten.length < sz
      · have := (hroomy before d after rfl hgoesOn hlt).1
        omega
      · omega
    · rintro before last after ⟨rfl, hgoesOn, hends, hlong⟩
      -- what ends the reply is received whole unless the buffer was full before it
      have hfull : sz ≤ before.flatten.length := by
        by_contra hlt
        have := (hroomy before last after rfl hgoesOn (by omega)).2 hends
        omega
      rw [hreceive]
      refine run_loop_of_full [] (Nat.zero_le _)
        (fun x hx => hlen x (List.mem_append_left _ hx)) hgoesOn
        (by rwa [List.length_nil, Nat.zero_add]) ?_ (by rw [List.length_append]; omega)
      rintro b c rfl hlt
      rw [List.length_nil, Nat.zero_add] at hlt ⊢
      have hgo : ∀ x ∈ b, ¬ Last x := fun x hx => hgoesOn x (List.mem_append_left _ hx)
      rcases c with _ | ⟨d, c⟩
      · have := (hroomy b last after (by rw [List.append_nil]) hgo hlt).1
        omega
      · have := (hroomy b d (c ++ last :: after) (by simp) hgo hlt).1
        omega

/-- A program that has received nothing yet. -/
def cleanNet : Net Unit where
  kernel := ()
  socket := []
  recvbuf := List.replicate sz 0
  len := 0
  gw := []

/-- The end of a dump. -/
def endOfDump : List UInt8 := nlmsghdr 20 nlmsgDone nlmFMulti 0 1000 ++ le32 0

theorem receive_iff_endOfDump : HeaderInside 0 (received cleanNet [] [endOfDump]) := by
  have hroomy : Roomy [endOfDump] := by
    rintro before d after hsplit - -
    rcases before with _ | ⟨x, before⟩
    · obtain rfl : endOfDump = d := (List.cons.inj hsplit).1
      exact ⟨by decide, fun _ => by decide⟩
    · simp at hsplit
  exact ((receive_iff cleanNet (by decide)).2.mpr hroomy).1 0 _ .first

/-- When eight bytes are left, the next header is cut off in its middle. -/
theorem not_headerInside :
    ¬ ∀ (s : Net Unit) (datagrams : List (List UInt8)), (∀ d ∈ datagrams, 16 ≤ d.length) →
      ∀ p s', StartsReceive s datagrams p s' → HeaderInside p s' := by
  intro h
  have hlen : ∀ d ∈ [List.replicate (sz - 8) 0, endOfDump], 16 ≤ d.length := by
    simp only [List.forall_mem_cons, List.length_replicate]
    exact ⟨by decide, by decide, List.forall_mem_nil _⟩
  have hzeros : ¬ Last (List.replicate (sz - 8) (0 : UInt8)) := by decide
  have hbefore : ∀ d ∈ [List.replicate (sz - 8) (0 : UInt8)], 16 ≤ d.length := by
    simp only [List.forall_mem_singleton, List.length_replicate]
    decide
  have hflatten : [List.replicate (sz - 8) (0 : UInt8)].flatten.length = sz - 8 := by
    rw [List.flatten_singleton, List.length_replicate]
  -- a datagram that leaves eight bytes
  have hstart : StartsReceive cleanNet [List.replicate (sz - 8) 0, endOfDump] _
      (received cleanNet _ [endOfDump]) :=
    startsReceive_of_goesOn hbefore (List.forall_mem_singleton.mpr hzeros)
      (by rw [hflatten]; decide) rfl
  have hinside :=
    (headerInside_iff (by rw [hflatten]; decide) (by decide)).mp (h _ _ hlen _ _ hstart)
  rw [hflatten] at hinside
  exact absurd hinside (by decide)

end Netlink
