import Clash.Lib.Inet
import Clash.Lib.Rtnetlink

/-!
# Attributes of a request

`attr` in `netlink.c` appends an attribute to a request. The request is the block of its bytes, and
`data` is the memory that the `const void *` points to.

## Main definitions

* `attr`: append one attribute.
* `payload`: what `attr` is meant to append for a type and its data.
* `newlen`: the length of the request behind an attribute.

## Main results

* `run_attr`: with valid data, `attr` either writes the attribute behind the request, or fails its
  assertion, or writes outside the request.
-/

open CProg CString Inet Memory Records Rtnetlink

namespace Netlink

/-- A `const char *` into some memory that holds a NUL. -/
def cstr (data : List UInt8) : Prog (List UInt8) CString :=
  if 0 ∈ data then pure (ofBlock data) else throw .undefined

/-- The `int` or `unsigned` that some memory starts with. -/
def word (data : List UInt8) : Prog (List UInt8) (List UInt8) :=
  if 4 ≤ data.length then pure (data.take 4) else throw .undefined

/-- `NEWLEN(x)`, with `n->nlmsg_len`. -/
def newlen (len x : ℕ) : ℕ := align len + align (rtaLength x)

/-- `FILL(x)`. -/
def fill (maxlen type rta x : ℕ) : Prog (List UInt8) Unit := do
  assert (newlen (nlmsgLen (← get)) x ≤ maxlen)
  write (rta + 2) (le16 type)
  write rta (le16 (rtaLength x))

/-- The `switch` of `attr`, which sets `l`. -/
def attrSwitch (maxlen type rta : ℕ) (data : List UInt8) : Prog (List UInt8) ℕ :=
  if type = ifaLabel then do
    let s ← cstr data
    -- the string with its NUL
    fill maxlen type rta (s.length + 1)
    write (rta + 4) (s ++ [0])
    return s.length + 1
  else if type = ifaFlags then do
    fill maxlen type rta 4
    write (rta + 4) (← word data)
    return 4
  else if type = rtaOif then do
    fill maxlen type rta 4
    write (rta + 4) (← word data)
    return 4
  else if type = rtaGateway ∨ type = ifaAddress ∨ type = ifaLocal then do
    fill maxlen type rta 4
    -- `bzero`, and then `inet_pton` in place
    write (rta + 4) [0, 0, 0, 0]
    match pton4 (← cstr data) with
    | some x => write (rta + 4) x.bytes
    | none => throw .assertion
    return 4
  else throw .assertion

/-- `attr(n,maxlen,type,data)`. -/
def attr (maxlen type : ℕ) (data : List UInt8) : Prog (List UInt8) Unit := do
  let rta := align (nlmsgLen (← get))
  let l ← attrSwitch maxlen type rta data
  -- `nlmsg_len` covers the attribute from now on
  write 0 (le32 (newlen (nlmsgLen (← get)) l))

/-- The payload for a supported type with valid data. -/
def payload (type : ℕ) (data : List UInt8) : Option (List UInt8) :=
  if type = ifaLabel then if 0 ∈ data then some (ofBlock data ++ [0]) else none
  else if type = ifaFlags ∨ type = rtaOif then if 4 ≤ data.length then some (data.take 4) else none
  else if type = rtaGateway ∨ type = ifaAddress ∨ type = ifaLocal then
    if 0 ∈ data then (pton4 (ofBlock data)).map InAddr.bytes else none
  else none

variable {maxlen type rta x : ℕ} {block data pl : List UInt8}

/-- The payloads one by one: a name with its NUL, a word as it is, an address as `inet_pton` reads
it. -/
theorem payload_cases (h : payload type data = some pl) :
    type = ifaLabel ∧ 0 ∈ data ∧ pl = ofBlock data ++ [0] ∨
      (type = ifaFlags ∨ type = rtaOif) ∧ 4 ≤ data.length ∧ pl = data.take 4 ∨
      (type = rtaGateway ∨ type = ifaAddress ∨ type = ifaLocal) ∧ 0 ∈ data ∧
        ∃ x, pton4 (ofBlock data) = some x ∧ pl = x.bytes := by
  -- in the order in which `payload` asks
  unfold payload at h
  split at h
  · simp_all
  · split at h
    · simp_all
    · split at h
      · rename_i htype
        obtain ⟨hmem, x, hx, rfl⟩ :
            0 ∈ data ∧ ∃ x, pton4 (ofBlock data) = some x ∧ x.bytes = pl := by
          simpa using h
        exact .inr (.inr ⟨htype, hmem, x, hx, rfl⟩)
      · cases h

/-- The types that `attr` knows fit `rta_type`. -/
theorem type_lt_of_payload (h : payload type data = some pl) : type < 2 ^ 16 := by
  obtain ⟨rfl, -⟩ | ⟨rfl | rfl, -⟩ | ⟨rfl | rfl | rfl, -⟩ := payload_cases h <;> decide

/-- A C string in the caller's memory ends within it. -/
@[simp] theorem run_cstr (h : 0 ∈ data) : (cstr data).run block = .ok (ofBlock data) block := by
  rw [cstr, if_pos h]
  rfl

/-- A word in the caller's memory is four bytes of it. -/
@[simp] theorem run_word (h : 4 ≤ data.length) :
    (word data).run block = .ok (data.take 4) block := by
  rw [word, if_pos h]
  rfl

/-- A write past the end of the block is undefined. -/
theorem run_write_of_lt {off : ℕ} {bs : List UInt8} (h : block.length < off + bs.length) :
    (write off bs).run block = .error .undefined block := by
  rw [run_write, if_neg (by omega)]

/-! ## `FILL` -/

/-- The assertion in front of the header: the message has to stay within `maxlen`. -/
theorem run_fill_of_lt (h : maxlen < newlen (nlmsgLen block) x) :
    (fill maxlen type rta x).run block = .error .assertion block := by
  simp only [fill, EStateM.run_bind, EStateM.run_get]
  rw [run_assert_of_false (by omega)]

/-- Under it, the header is written where `rta` points. -/
theorem run_fill_of_le (h : newlen (nlmsgLen block) x ≤ maxlen) (hrta : rta + 4 ≤ block.length) :
    (fill maxlen type rta x).run block =
      .ok () (splice block rta (le16 (rtaLength x) ++ le16 type)) := by
  have htype : rta + 2 + (le16 type).length ≤ block.length := hrta
  have hlen : rta + (le16 (rtaLength x)).length ≤ (splice block (rta + 2) (le16 type)).length := by
    rw [length_splice htype, length_le16]
    omega
  simp only [fill, EStateM.run_bind, EStateM.run_get]
  rw [run_assert_of_true h]
  dsimp only
  rw [run_write_of_le htype]
  dsimp only
  rw [run_write_of_le hlen]
  exact congrArg _ (@splice_splice_left block (le16 (rtaLength x)) rta (le16 type) hrta)

/-- The assertion says nothing about the header itself, which may end behind the block. -/
theorem run_fill_of_outside (h : newlen (nlmsgLen block) x ≤ maxlen)
    (hrta : block.length < rta + 4) :
    (fill maxlen type rta x).run block = .error .undefined block := by
  simp only [fill, EStateM.run_bind, EStateM.run_get]
  rw [run_assert_of_true h]
  dsimp only
  rw [run_write_of_lt (by rw [length_le16]; omega)]

/-! ## The payload -/

/-- The request with an attribute behind it. -/
def appended (block : List UInt8) (type : ℕ) (pl : List UInt8) : List UInt8 :=
  splice (splice block (align (nlmsgLen block)) (rtattr type pl)) 0
    (le32 (newlen (nlmsgLen block) pl.length))

/-- The case of the name. -/
theorem attrSwitch_label : attrSwitch maxlen ifaLabel rta data = do
    let s ← cstr data
    fill maxlen ifaLabel rta (s.length + 1)
    write (rta + 4) (s ++ [0])
    return s.length + 1 := rfl

/-- The two cases of a word. -/
theorem attrSwitch_word (htype : type = ifaFlags ∨ type = rtaOif) :
    attrSwitch maxlen type rta data = do
      fill maxlen type rta 4
      write (rta + 4) (← word data)
      return 4 := by
  obtain rfl | rfl := htype <;> rfl

/-- The three cases of an address. -/
theorem attrSwitch_address (htype : type = rtaGateway ∨ type = ifaAddress ∨ type = ifaLocal) :
    attrSwitch maxlen type rta data = do
      fill maxlen type rta 4
      write (rta + 4) [0, 0, 0, 0]
      match pton4 (← cstr data) with
      | some x => write (rta + 4) x.bytes
      | none => throw .assertion
      return 4 := by
  obtain rfl | rfl | rfl := htype <;> rfl

/-- A payload that takes the message past `maxlen` fails the assertion. -/
theorem run_attrSwitch_of_lt (hpl : payload type data = some pl)
    (h : maxlen < newlen (nlmsgLen block) pl.length) :
    (attrSwitch maxlen type rta data).run block = .error .assertion block := by
  obtain ⟨rfl, hmem, rfl⟩ | ⟨htype, hdata, rfl⟩ | ⟨htype, hmem, x, hx, rfl⟩ := payload_cases hpl
  · rw [List.length_append, List.length_singleton] at h
    rw [attrSwitch_label, EStateM.run_bind, run_cstr hmem]
    dsimp only
    rw [EStateM.run_bind, run_fill_of_lt h]
  · rw [List.length_take, Nat.min_eq_left hdata] at h
    rw [attrSwitch_word htype, EStateM.run_bind, run_fill_of_lt h]
  · have h : maxlen < newlen (nlmsgLen block) 4 := h
    rw [attrSwitch_address htype, EStateM.run_bind, run_fill_of_lt h]

/-- A header and a payload behind it are one write. -/
theorem splice_header (h : rta + 4 + pl.length ≤ block.length) :
    splice (splice block rta (le16 (rtaLength pl.length) ++ le16 type)) (rta + 4) pl =
      splice block rta (rtattr type pl) :=
  splice_splice_right h

/-- One that fits the block is written there whole, behind its header. -/
theorem run_attrSwitch_of_le (hpl : payload type data = some pl)
    (h : newlen (nlmsgLen block) pl.length ≤ maxlen) (hfit : rta + 4 + pl.length ≤ block.length) :
    (attrSwitch maxlen type rta data).run block =
      .ok pl.length (splice block rta (rtattr type pl)) := by
  set block₁ := splice block rta (le16 (rtaLength pl.length) ++ le16 type) with hblock₁
  have hlen : block₁.length = block.length := length_splice (by simp; omega)
  have hfill : (fill maxlen type rta pl.length).run block = .ok () block₁ :=
    run_fill_of_le h (by omega)
  have hwrite : (write (rta + 4) pl).run block₁ = .ok () (splice block rta (rtattr type pl)) := by
    rw [run_write_of_le (by omega), hblock₁, splice_header hfit]
  clear_value block₁
  -- a label, a word or an address
  obtain ⟨rfl, hmem, rfl⟩ | ⟨htype, hdata, rfl⟩ | ⟨htype, hmem, x, hx, rfl⟩ := payload_cases hpl
  · rw [List.length_append, List.length_singleton] at hfill ⊢
    rw [attrSwitch_label, EStateM.run_bind, run_cstr hmem]
    dsimp only
    rw [EStateM.run_bind, hfill]
    dsimp only
    rw [EStateM.run_bind, hwrite]
    rfl
  · rw [List.length_take, Nat.min_eq_left hdata] at hfill ⊢
    rw [attrSwitch_word htype, EStateM.run_bind, hfill]
    dsimp only
    rw [EStateM.run_bind, run_word hdata]
    dsimp only
    rw [EStateM.run_bind, hwrite]
    rfl
  -- the address is written over the zeros
  · rw [InAddr.length_bytes] at hfill hfit ⊢
    have hzeros : rta + 4 + [0, 0, 0, (0 : UInt8)].length ≤ block₁.length := by
      rw [hlen]
      exact hfit
    rw [← run_write_splice hzeros x.length_bytes] at hwrite
    rw [attrSwitch_address htype, EStateM.run_bind, hfill]
    dsimp only
    rw [EStateM.run_bind, run_write_of_le hzeros]
    dsimp only
    rw [EStateM.run_bind, run_cstr hmem]
    dsimp only
    rw [hx]
    dsimp only
    rw [EStateM.run_bind, hwrite]
    rfl

/-- A payload that does not fit, but passes the assertion, belongs to a string. -/
theorem label_of_outside (hpl : payload type data = some pl)
    (h : newlen (nlmsgLen block) pl.length ≤ block.length)
    (hout : block.length < align (nlmsgLen block) + 4 + pl.length) :
    type = ifaLabel ∧ 0 ∈ data ∧ pl = ofBlock data ++ [0] := by
  have hword (hlen : pl.length = 4) : False := by
    rw [hlen, newlen, show align (rtaLength 4) = 8 from rfl] at h
    omega
  obtain hlabel | ⟨-, hdata, rfl⟩ | ⟨-, -, x, -, rfl⟩ := payload_cases hpl
  · exact hlabel
  · exact (hword (by simpa using hdata)).elim
  · exact (hword rfl).elim

/-- One that passes the assertion but not the end of the block is undefined. -/
theorem run_attrSwitch_of_outside (hpl : payload type data = some pl)
    (h : newlen (nlmsgLen block) pl.length ≤ block.length)
    (hout : block.length < align (nlmsgLen block) + 4 + pl.length) :
    ∃ block', (attrSwitch block.length type (align (nlmsgLen block)) data).run block =
      .error .undefined block' := by
  obtain ⟨rfl, hmem, rfl⟩ := label_of_outside hpl h hout
  set rta := align (nlmsgLen block)
  rw [attrSwitch_label, EStateM.run_bind, run_cstr hmem]
  dsimp only
  rw [List.length_append, List.length_singleton] at h hout
  rcases Nat.lt_or_ge block.length (rta + 4) with hheader | hheader
  -- already the header is outside
  · rw [EStateM.run_bind, run_fill_of_outside h hheader]
    exact ⟨_, rfl⟩
  · rw [EStateM.run_bind, run_fill_of_le h hheader]
    dsimp only
    rw [EStateM.run_bind, run_write_of_lt]
    · exact ⟨_, rfl⟩
    · rw [length_splice (by simpa using hheader), List.length_append, List.length_singleton]
      omega

/-! ## `attr` -/

/-- Without room in front of `maxlen` the assertion fails. -/
theorem run_attr_of_lt (hpl : payload type data = some pl)
    (h : maxlen < newlen (nlmsgLen block) pl.length) :
    (attr maxlen type data).run block = .error .assertion block := by
  simp only [attr, EStateM.run_bind, EStateM.run_get]
  rw [run_attrSwitch_of_lt hpl h]

/-- With room the attribute is appended. -/
theorem run_attr_of_le (hpl : payload type data = some pl) (h4 : 4 ≤ align (nlmsgLen block))
    (h : newlen (nlmsgLen block) pl.length ≤ maxlen)
    (hfit : align (nlmsgLen block) + 4 + pl.length ≤ block.length) :
    (attr maxlen type data).run block = .ok () (appended block type pl) := by
  have hattr : align (nlmsgLen block) + (rtattr type pl).length ≤ block.length := by
    rw [length_rtattr, rtaLength]
    omega
  have hlen : nlmsgLen (splice block (align (nlmsgLen block)) (rtattr type pl)) = nlmsgLen block :=
    congrArg ofLE (slice_splice_of_disjoint hattr (.inl h4))
  simp only [attr, EStateM.run_bind, EStateM.run_get]
  rw [run_attrSwitch_of_le hpl h hfit]
  dsimp only
  rw [hlen, run_write_of_le (by rw [length_splice hattr, length_le32]; omega)]
  rfl

/-- Where the assertion lets an attribute through that does not fit, `attr` writes outside the
request. -/
theorem run_attr_of_outside (hpl : payload type data = some pl)
    (h : newlen (nlmsgLen block) pl.length ≤ block.length)
    (hout : block.length < align (nlmsgLen block) + 4 + pl.length) :
    ∃ block', (attr block.length type data).run block = .error .undefined block' := by
  obtain ⟨block', hswitch⟩ := run_attrSwitch_of_outside hpl h hout
  refine ⟨block', ?_⟩
  simp only [attr, EStateM.run_bind, EStateM.run_get]
  rw [hswitch]

/-- `cstr` returns only on a string that ends. -/
theorem run_cstr_eq_ok {s block' : List UInt8} (h : (cstr data).run block = .ok s block') :
    0 ∈ data ∧ s = ofBlock data := by
  rw [cstr] at h
  by_cases hmem : 0 ∈ data
  · rw [if_pos hmem] at h
    cases h
    exact ⟨hmem, rfl⟩
  · rw [if_neg hmem] at h
    cases h

/-- `attr` returns only for a supported type with valid data. -/
theorem payload_of_run_attr {block' : List UInt8}
    (h : (attr maxlen type data).run block = .ok () block') :
    ∃ pl, payload type data = some pl := by
  obtain ⟨s, _, hget, h⟩ := run_bind_eq_ok.mp h
  cases hget
  obtain ⟨l, block₁, hswitch, -⟩ := run_bind_eq_ok.mp h
  -- the cases of the `switch` in their order
  by_cases hlabel : type = ifaLabel
  · subst hlabel
    rw [attrSwitch_label] at hswitch
    obtain ⟨s, _, hcstr, -⟩ := run_bind_eq_ok.mp hswitch
    exact ⟨ofBlock data ++ [0], by rw [payload, if_pos rfl, if_pos (run_cstr_eq_ok hcstr).1]⟩
  by_cases hword : type = ifaFlags ∨ type = rtaOif
  · rw [attrSwitch_word hword] at hswitch
    obtain ⟨_, _, -, hswitch⟩ := run_bind_eq_ok.mp hswitch
    obtain ⟨v, _, hdata, -⟩ := run_bind_eq_ok.mp hswitch
    have hlen : 4 ≤ data.length := by
      by_contra hlen
      rw [word, if_neg hlen] at hdata
      cases hdata
    exact ⟨data.take 4, by rw [payload, if_neg hlabel, if_pos hword, if_pos hlen]⟩
  by_cases haddress : type = rtaGateway ∨ type = ifaAddress ∨ type = ifaLocal
  · rw [attrSwitch_address haddress] at hswitch
    obtain ⟨_, _, -, hswitch⟩ := run_bind_eq_ok.mp hswitch
    obtain ⟨_, _, -, hswitch⟩ := run_bind_eq_ok.mp hswitch
    obtain ⟨s, _, hcstr, hswitch⟩ := run_bind_eq_ok.mp hswitch
    obtain ⟨hmem, rfl⟩ := run_cstr_eq_ok hcstr
    cases hx : pton4 (ofBlock data) with
    | none =>
      rw [hx] at hswitch
      cases hswitch
    | some x =>
      refine ⟨x.bytes, ?_⟩
      rw [payload, if_neg hlabel, if_neg hword, if_pos haddress, if_pos hmem, hx]
      rfl
  · -- no other type has a case
    obtain ⟨hflags, hoif⟩ := not_or.mp hword
    rw [attrSwitch, if_neg hlabel, if_neg hflags, if_neg hoif, if_neg haddress] at hswitch
    cases hswitch

end Netlink
