import Mathlib.Algebra.BigOperators.Group.List.Basic
import Clash.Tun.Attr

/-!
# Requests with several attributes

What a sequence of calls of `attr` makes of a request, and what the loop over its attributes reads
back.

## Main definitions

* `extent`: the length that a request should have behind some attributes.
* `Appends`: a request is another one with attributes behind it.
* `Guarded`: the assertion of `attr` stops what does not fit.

## Main results

* `run_attrs_of_le`, `run_attrs_of_guarded`, `run_attrs_of_not_guarded`: the calls append the
  attributes, or fail an assertion, or write outside the request.
* `appends_of_run_attrs`: calls that return have appended what they ask for.
-/

open CProg CString Inet Memory Records Rtnetlink

namespace Netlink

/-! ## Lengths -/

/-- The room that an attribute needs, without a 32-bit mask. -/
def space (n : ℕ) : ℕ := (rtaLength n + 3) / 4 * 4

theorem align_rtaLength {n : ℕ} (h : n + 7 < 2 ^ 32) : align (rtaLength n) = space n := by
  unfold align space rtaLength
  omega

/-- The length of a request behind attributes that start at `start`. -/
def extent (start : ℕ) : List (ℕ × List UInt8) → ℕ
  | [] => start
  | a :: as => extent (start + space a.2.length) as

variable {start maxlen : ℕ} {as as' : List (ℕ × List UInt8)} {a : ℕ × List UInt8}

theorem extent_append : extent start (as ++ as') = extent (extent start as) as' := by
  induction as generalizing start with
  | nil => rfl
  | cons a as ih => exact ih

theorem le_extent : start ≤ extent start as := by
  induction as generalizing start with
  | nil => exact le_rfl
  | cons a as ih => exact (Nat.le_add_right _ _).trans ih

theorem extent_mod (h : start % 4 = 0) : extent start as % 4 = 0 := by
  induction as generalizing start with
  | nil => exact h
  | cons a as ih => exact ih (by unfold space; omega)

/-- Some attribute exceeds `maxlen` exactly when all of them do. -/
theorem exists_exceeding_iff (h : start ≤ maxlen) :
    (∃ pre a, pre ++ [a] <+: as ∧ maxlen < extent start pre + space a.2.length) ↔
      maxlen < extent start as := by
  constructor
  · rintro ⟨pre, a, ⟨post, rfl⟩, hexceeds⟩
    rw [extent_append, extent_append]
    exact hexceeds.trans_le le_extent
  · intro hexceeds
    induction as generalizing start with
    | nil => exact absurd hexceeds (by simpa [extent] using h)
    | cons a as ih =>
      rcases Nat.lt_or_ge maxlen (start + space a.2.length) with hlt | hge
      · exact ⟨[], a, ⟨as, rfl⟩, hlt⟩
      · obtain ⟨pre, b, hpre, hlt⟩ := ih hge hexceeds
        exact ⟨a :: pre, b, List.cons_prefix_cons.mpr ⟨rfl, hpre⟩, hlt⟩

/-- The assertion of `attr` stops the first attribute that does not fit: no earlier one is so long
that its aligned length wraps to something that fits. -/
def Guarded (maxlen : ℕ) : ℕ → List (ℕ × List UInt8) → Prop
  | _, [] => True
  | len, a :: as =>
    maxlen < len + align (rtaLength a.2.length) ∨
      a.2.length + 7 < 2 ^ 32 ∧ Guarded maxlen (len + space a.2.length) as

/-! ## One attribute -/

/-- A request is another one with attributes from `start` on. -/
structure Appends (block₀ : List UInt8) (start : ℕ) (as : List (ℕ × List UInt8))
    (block : List UInt8) : Prop where
  length : block.length = block₀.length
  len : nlmsgLen block = extent start as
  frame : ∀ i, 4 ≤ i → i < start ∨ extent start as ≤ i → block[i]? = block₀[i]?
  holds : rta.Holds (block.drop start) (as.map fun a => rtattr a.1 a.2) (extent start as - start)

/-- The request and the place of its attributes. -/
structure Room (block₀ : List UInt8) (start : ℕ) : Prop where
  header : 16 ≤ start
  aligned : start % 4 = 0
  le_length : start ≤ block₀.length
  length_le : block₀.length ≤ start + 8192
  length_lt : block₀.length < 2 ^ 32

variable {block₀ block : List UInt8}

theorem Appends.nil (h : nlmsgLen block₀ = start) : Appends block₀ start [] block₀ where
  length := rfl
  len := h
  frame _ _ _ := rfl
  holds := by
    rw [extent, Nat.sub_self]
    exact .nil _

theorem Appends.align_len (hroom : Room block₀ start) (h : Appends block₀ start as block)
    (hle : extent start as ≤ block₀.length) : align (nlmsgLen block) = extent start as := by
  have := hroom.length_lt
  rw [h.len, align_of_mod (extent_mod hroom.aligned) (by omega)]

/-- `attr` with room appends the attribute. -/
theorem Appends.snoc (hroom : Room block₀ start) (h : Appends block₀ start as block)
    {type : ℕ} {pl : List UInt8} (hfit : extent start as + space pl.length ≤ block₀.length) :
    Appends block₀ start (as ++ [(type, pl)]) (appended block type pl) := by
  have hroom' := hroom
  obtain ⟨h16, hmod, hstart, hle, hlt⟩ := hroom'
  have hoff := h.align_len hroom (by omega)
  have hmask : pl.length + 7 < 2 ^ 32 := by unfold space rtaLength at hfit; omega
  have hlen : rtaLength pl.length ≤ space pl.length := by unfold space; omega
  have hnewlen : newlen (nlmsgLen block) pl.length = extent start as + space pl.length := by
    rw [newlen, hoff, align_rtaLength hmask]
  have hextent : start ≤ extent start as := le_extent
  set e := extent start as with he
  have happended : extent start (as ++ [(type, pl)]) = e + space pl.length := by
    rw [extent_append]
    rfl
  have hr : e + (rtattr type pl).length ≤ block.length := by
    rw [length_rtattr, h.length]
    omega
  have hl : 0 + (le32 (e + space pl.length)).length ≤
      (splice block e (rtattr type pl)).length := by
    rw [length_splice hr, length_le32, h.length]
    omega
  rw [appended, hoff, hnewlen]
  constructor
  · rw [length_splice hl, length_splice hr, h.length]
  · rw [happended, nlmsgLen, ← length_le32 (e + space pl.length), slice_splice_self hl, ofLE_le32]
    exact Nat.mod_eq_of_lt (by omega)
  · intro i hi hout
    rw [happended] at hout
    rw [getElem?_splice hl, if_neg (by omega), if_neg (by rw [length_le32]; omega),
      getElem?_splice hr, length_rtattr]
    split_ifs with hbefore hinside
    · exact h.frame i hi (by omega)
    · omega
    · exact h.frame i hi (by omega)
  · rw [happended, List.map_append,
      show e + space pl.length - start = e - start + space pl.length by omega]
    -- the old attributes are in front of both writes
    refine (h.holds.congr ?_).append ?_
    · exact ((slice_splice_of_disjoint hl (.inr (by rw [length_le32]; omega))).trans
        (slice_splice_of_disjoint hr (.inl (by omega)))).symm
    · rw [List.drop_drop, show start + (e - start) = e by omega]
      have hslice :
          slice (splice (splice block e (rtattr type pl)) 0 (le32 (e + space pl.length))) e
            (rtattr type pl).length = rtattr type pl := by
        rw [slice_splice_of_disjoint hl (.inr (by rw [length_le32]; omega)), slice_splice_self hr]
      have hpoints := pointsTo_rtattr (List.prefix_iff_eq_take.mpr hslice.symm)
        (by unfold space at hfit; omega)
      have hholds := Format.Holds.cons hpoints (by rw [length_rtattr, rtaLength]; omega) (.nil _)
      rwa [length_rtattr, align_rtaLength hmask] at hholds

theorem Appends.run_attr (hroom : Room block₀ start) (h : Appends block₀ start as block)
    {type : ℕ} {data pl : List UInt8} (hpl : payload type data = some pl)
    (hfit : extent start as + space pl.length ≤ block₀.length) :
    (attr block₀.length type data).run block = .ok () (appended block type pl) := by
  have hoff := h.align_len hroom (by omega)
  have hmask : pl.length + 7 < 2 ^ 32 := by
    have := hroom.length_lt
    unfold space rtaLength at hfit
    omega
  have h16 : 16 ≤ extent start as := hroom.header.trans le_extent
  refine run_attr_of_le hpl (by omega) ?_ ?_
  · rwa [newlen, hoff, align_rtaLength hmask]
  · rw [hoff, h.length]
    unfold space rtaLength at hfit
    omega

/-! ## A sequence of calls -/

/-- The calls of `attr` with their types and data, one after the other. -/
def attrs (maxlen : ℕ) (calls : List (ℕ × List UInt8)) : Prog (List UInt8) Unit :=
  calls.forM fun c => attr maxlen c.1 c.2

/-- The calls have supported types and valid data, and ask for the attributes. -/
def Asks (calls as : List (ℕ × List UInt8)) : Prop :=
  List.Forall₂ (fun c a => c.1 = a.1 ∧ payload c.1 c.2 = some a.2) calls as

variable {calls : List (ℕ × List UInt8)}

theorem attrs_cons (maxlen : ℕ) (c : ℕ × List UInt8) :
    attrs maxlen (c :: calls) = attr maxlen c.1 c.2 >>= fun _ => attrs maxlen calls := rfl

/-- What fits is appended. -/
theorem run_attrs_of_le (hroom : Room block₀ start) (h : Appends block₀ start as block)
    (hcalls : Asks calls as') (hfit : extent start (as ++ as') ≤ block₀.length) :
    ∃ block', (attrs block₀.length calls).run block = .ok () block' ∧
      Appends block₀ start (as ++ as') block' := by
  induction hcalls generalizing as block with
  | nil => exact ⟨block, rfl, by rwa [List.append_nil]⟩
  | @cons c a calls as' hpl _ ih =>
    obtain ⟨type, pl⟩ := a
    obtain ⟨rfl, hpl⟩ := hpl
    have hfirst : extent start as + space pl.length ≤ block₀.length := by
      rw [extent_append] at hfit
      exact le_extent.trans hfit
    obtain ⟨block', hrun, happends⟩ := ih (h.snoc hroom hfirst)
      (by rwa [List.append_assoc])
    rw [List.append_assoc] at happends
    refine ⟨block', ?_, happends⟩
    rw [attrs_cons, EStateM.run_bind, h.run_attr hroom hpl hfirst]
    exact hrun

/-- What does not fit is stopped by the assertion, as long as no aligned length wraps. -/
theorem run_attrs_of_guarded (hroom : Room block₀ start) (h : Appends block₀ start as block)
    (hcalls : Asks calls as') (hle : extent start as ≤ block₀.length)
    (hguard : Guarded block₀.length (extent start as) as')
    (hlt : block₀.length < extent start (as ++ as')) :
    ∃ block', (attrs block₀.length calls).run block = .error .assertion block' := by
  -- the calls that fit are passed one by one, until one does not
  induction hcalls generalizing as block with
  | nil => exact absurd hle (by simpa using hlt)
  | @cons c a calls as' hpl _ ih =>
    obtain ⟨type, pl⟩ := a
    obtain ⟨rfl, hpl⟩ := hpl
    have hoff := h.align_len hroom hle
    rw [attrs_cons, EStateM.run_bind]
    rcases Nat.lt_or_ge block₀.length (newlen (nlmsgLen block) pl.length) with hstop | hpass
    · rw [run_attr_of_lt hpl hstop]
      exact ⟨_, rfl⟩
    · -- its aligned length does not wrap, so what passes the assertion fits
      rw [newlen, hoff] at hpass
      obtain hstop | ⟨hmask, hguard⟩ := hguard
      · exact absurd hpass (not_le.mpr hstop)
      · rw [align_rtaLength hmask] at hpass
        rw [h.run_attr hroom hpl hpass]
        have happends : Appends block₀ start (as ++ [(c.1, pl)]) _ := h.snoc hroom hpass
        refine ih happends ?_ ?_ ?_
        · rwa [extent_append]
        · rwa [extent_append]
        · rwa [List.append_assoc]

/-- Where an aligned length wraps to something that fits, the write leaves the request. -/
theorem run_attrs_of_not_guarded (hroom : Room block₀ start) (h : Appends block₀ start as block)
    (hcalls : Asks calls as') (hle : extent start as ≤ block₀.length)
    (hguard : ¬ Guarded block₀.length (extent start as) as') :
    ∃ block', (attrs block₀.length calls).run block = .error .undefined block' := by
  induction hcalls generalizing as block with
  | nil => exact absurd trivial hguard
  | @cons c a calls as' hpl _ ih =>
    obtain ⟨type, pl⟩ := a
    obtain ⟨rfl, hpl⟩ := hpl
    obtain ⟨hpass, hrest⟩ := not_or.mp hguard
    have hoff := h.align_len hroom hle
    rw [attrs_cons, EStateM.run_bind]
    -- the length of this attribute wraps, or that of a later one
    by_cases hmask : pl.length + 7 < 2 ^ 32
    · rw [align_rtaLength hmask, not_lt] at hpass
      rw [h.run_attr hroom hpl hpass]
      have happends : Appends block₀ start (as ++ [(c.1, pl)]) _ := h.snoc hroom hpass
      refine ih happends ?_ ?_
      · rwa [extent_append]
      · rw [extent_append]
        exact fun hguard => hrest ⟨hmask, hguard⟩
    · have := hroom.length_lt
      have := hroom.header
      have hextent : start ≤ extent start as := le_extent
      have hpass : newlen (nlmsgLen block) pl.length ≤ block.length := by
        rw [newlen, hoff, h.length]
        exact not_lt.mp hpass
      obtain ⟨block', hrun⟩ := run_attr_of_outside hpl hpass
        (by rw [hoff, h.length]; dsimp only at hmask ⊢; omega)
      rw [h.length] at hrun
      rw [hrun]
      exact ⟨_, rfl⟩

/-- Calls that return have appended what they ask for. -/
theorem appends_of_run_attrs (hroom : Room block₀ start) (h : Appends block₀ start as block)
    (hle : extent start as ≤ block₀.length) {block' : List UInt8}
    (hrun : (attrs block₀.length calls).run block = .ok () block') :
    ∃ as', Asks calls as' ∧ Appends block₀ start (as ++ as') block' := by
  induction calls generalizing as block with
  | nil =>
    cases hrun
    exact ⟨[], .nil, by rwa [List.append_nil]⟩
  | cons c calls ih =>
    rw [attrs_cons] at hrun
    obtain ⟨_, block₁, hattr, hrun⟩ := run_bind_eq_ok.mp hrun
    obtain ⟨pl, hpl⟩ := payload_of_run_attr hattr
    have hoff := h.align_len hroom hle
    -- the assertion holds, and the attribute does not leave the request
    have hpass : newlen (nlmsgLen block) pl.length ≤ block.length := by
      by_contra hstop
      rw [h.length] at hstop
      rw [run_attr_of_lt hpl (by omega)] at hattr
      cases hattr
    have hinside : extent start as + 4 + pl.length ≤ block.length := by
      by_contra hout
      obtain ⟨b, herror⟩ := run_attr_of_outside hpl hpass (by omega)
      rw [h.length, hattr] at herror
      cases herror
    have hmask : pl.length + 7 < 2 ^ 32 := by
      have := hroom.length_lt
      have := hroom.header
      have hextent : start ≤ extent start as := le_extent
      rw [h.length] at hinside
      omega
    rw [newlen, hoff, align_rtaLength hmask, h.length] at hpass
    rw [h.run_attr hroom hpl hpass] at hattr
    cases hattr
    obtain ⟨as', hasks, happends⟩ := ih (h.snoc hroom hpass) (by rwa [extent_append]) hrun
    exact ⟨(c.1, pl) :: as', .cons ⟨rfl, hpl⟩ hasks, by rwa [List.append_assoc] at happends⟩

end Netlink
