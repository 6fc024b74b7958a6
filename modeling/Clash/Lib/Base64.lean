import Clash.Lib.CString

/-!
# Base64

Padded base64 with the standard alphabet, whose last two digits are `+` and `/`.

## Main definitions

* `sextets`: the groups of six bits of a byte string, the last one filled up with zeros.
* `encode`, `decode`.

## Main results

* `decode_encode`: decoding gives back what was encoded.
* `length_encode`: the length of an encoding.
* `slash_mem_encode_iff`: an encoding contains `/` exactly if a group of six bits is all ones.
-/

namespace Base64

/-- The digit for six bits. -/
def digit (n : ℕ) : UInt8 :=
  UInt8.ofNat (if n < 26 then 65 + n else if n < 52 then 71 + n else if n < 62 then n - 4
    else if n = 62 then 43 else 47)

/-- The six bits of a digit. -/
def value (c : UInt8) : Option ℕ :=
  if 65 ≤ c ∧ c ≤ 90 then some (c.toNat - 65)
  else if 97 ≤ c ∧ c ≤ 122 then some (c.toNat - 71)
  else if 48 ≤ c ∧ c ≤ 57 then some (c.toNat + 4)
  else if c = 43 then some 62
  else if c = 47 then some 63
  else none

/-- The groups of six bits of a byte string. -/
def sextets : List UInt8 → List ℕ
  | [] => []
  | [a] => [a.toNat / 4, a.toNat % 4 * 16]
  | [a, b] => [a.toNat / 4, a.toNat % 4 * 16 + b.toNat / 16, b.toNat % 16 * 4]
  | a :: b :: c :: s =>
    a.toNat / 4 :: (a.toNat % 4 * 16 + b.toNat / 16) :: (b.toNat % 16 * 4 + c.toNat / 64) ::
      c.toNat % 64 :: sextets s

/-- The number of `=` behind the digits. -/
def padding (s : List UInt8) : ℕ := (3 - s.length % 3) % 3

/-- Encode: a digit for every group, and padding to a multiple of four. -/
def encode (s : List UInt8) : List UInt8 := (sextets s).map digit ++ List.replicate (padding s) 61

/-- Decode four digits after four digits; only the last ones may be padded. -/
def decode : List UInt8 → Option (List UInt8)
  | [] => some []
  | a :: b :: c :: d :: s =>
    match value a, value b, value c, value d with
    | some a, some b, some c, some d =>
      (decode s).map fun t =>
        UInt8.ofNat (a * 4 + b / 16) :: UInt8.ofNat (b % 16 * 16 + c / 4) ::
          UInt8.ofNat (c % 4 * 64 + d) :: t
    | some a, some b, some c, none =>
      if d = 61 ∧ s = [] then
        some [UInt8.ofNat (a * 4 + b / 16), UInt8.ofNat (b % 16 * 16 + c / 4)]
      else none
    | some a, some b, none, none =>
      if c = 61 ∧ d = 61 ∧ s = [] then some [UInt8.ofNat (a * 4 + b / 16)] else none
    | _, _, _, _ => none
  | _ => none

private theorem value_digit_of_mem : ∀ n ∈ List.range 64, value (digit n) = some n := by
  decide

/-- A digit has the value that it stands for. -/
theorem value_digit {n : ℕ} (hn : n < 64) : value (digit n) = some n :=
  value_digit_of_mem n (List.mem_range.mpr hn)

/-- The padding has none. -/
@[simp] theorem value_pad : value 61 = none := by
  decide

@[simp] theorem encode_nil : encode [] = [] := rfl

/-- Three bytes are four digits. -/
theorem encode_cons₃ (a b c : UInt8) (s : List UInt8) :
    encode (a :: b :: c :: s) =
      digit (a.toNat / 4) :: digit (a.toNat % 4 * 16 + b.toNat / 16) ::
        digit (b.toNat % 16 * 4 + c.toNat / 64) :: digit (c.toNat % 64) :: encode s := by
  have hpadding : padding (a :: b :: c :: s) = padding s := by
    rw [padding, padding, List.length_cons, List.length_cons, List.length_cons]
    omega
  rw [encode, sextets, hpadding]
  rfl

/-- Decoding gives back what was encoded. -/
@[simp] theorem decode_encode (s : List UInt8) : decode (encode s) = some s := by
  fun_induction sextets s with
  | case1 => rfl
  | case2 a =>
    have ha : a.toNat < 256 := a.toNat_lt
    have hencode : encode [a] = [digit (a.toNat / 4), digit (a.toNat % 4 * 16), 61, 61] := rfl
    -- the eight bits are in two digits
    have hbyte : a.toNat / 4 * 4 + a.toNat % 4 * 16 / 16 = a.toNat := by omega
    rw [hencode, decode]
    simp only [value_digit (by omega : a.toNat / 4 < 64),
      value_digit (by omega : a.toNat % 4 * 16 < 64), value_pad, hbyte, and_self, ↓reduceIte,
      UInt8.ofNat_toNat]
  | case3 a b =>
    have ha : a.toNat < 256 := a.toNat_lt
    have hb : b.toNat < 256 := b.toNat_lt
    have hencode : encode [a, b] = [digit (a.toNat / 4), digit (a.toNat % 4 * 16 + b.toNat / 16),
        digit (b.toNat % 16 * 4), 61] := rfl
    -- each byte lies in two digits that are next to each other
    have hbyte₁ : a.toNat / 4 * 4 + (a.toNat % 4 * 16 + b.toNat / 16) / 16 = a.toNat := by omega
    have hbyte₂ : (a.toNat % 4 * 16 + b.toNat / 16) % 16 * 16 + b.toNat % 16 * 4 / 4 = b.toNat := by
      omega
    rw [hencode, decode]
    simp only [value_digit (by omega : a.toNat / 4 < 64),
      value_digit (by omega : a.toNat % 4 * 16 + b.toNat / 16 < 64),
      value_digit (by omega : b.toNat % 16 * 4 < 64), value_pad, hbyte₁, hbyte₂, and_self,
      ↓reduceIte, UInt8.ofNat_toNat]
  | case4 a b c s ih =>
    have ha : a.toNat < 256 := a.toNat_lt
    have hb : b.toNat < 256 := b.toNat_lt
    have hc : c.toNat < 256 := c.toNat_lt
    have hbyte₁ : a.toNat / 4 * 4 + (a.toNat % 4 * 16 + b.toNat / 16) / 16 = a.toNat := by omega
    have hbyte₂ : (a.toNat % 4 * 16 + b.toNat / 16) % 16 * 16 +
        (b.toNat % 16 * 4 + c.toNat / 64) / 4 = b.toNat := by
      omega
    have hbyte₃ : (b.toNat % 16 * 4 + c.toNat / 64) % 4 * 64 + c.toNat % 64 = c.toNat := by omega
    rw [encode_cons₃, decode]
    simp only [value_digit (by omega : a.toNat / 4 < 64),
      value_digit (by omega : a.toNat % 4 * 16 + b.toNat / 16 < 64),
      value_digit (by omega : b.toNat % 16 * 4 + c.toNat / 64 < 64),
      value_digit (by omega : c.toNat % 64 < 64), ih, hbyte₁, hbyte₂, hbyte₃,
      UInt8.ofNat_toNat, Option.map_some]

/-! ## The alphabet of encodings -/

/-- Sextets have six bits. -/
theorem lt_of_mem_sextets {s : List UInt8} {n : ℕ} (h : n ∈ sextets s) : n < 64 := by
  fun_induction sextets s with
  | case1 => cases h
  | case2 a =>
    have ha : a.toNat < 256 := a.toNat_lt
    simp only [List.mem_cons, List.not_mem_nil, or_false] at h
    omega
  | case3 a b =>
    have ha : a.toNat < 256 := a.toNat_lt
    have hb : b.toNat < 256 := b.toNat_lt
    simp only [List.mem_cons, List.not_mem_nil, or_false] at h
    omega
  | case4 a b c s ih =>
    have ha : a.toNat < 256 := a.toNat_lt
    have hb : b.toNat < 256 := b.toNat_lt
    have hc : c.toNat < 256 := c.toNat_lt
    simp only [List.mem_cons] at h
    -- four sextets of the three bytes, or one of the rest
    rcases h with h | h | h | h | h
    · omega
    · omega
    · omega
    · omega
    · exact ih h

/-- The bytes of encodings. -/
def alphabet : List UInt8 := (List.range 64).map digit ++ [61]

/-- Encodings are written in the alphabet. -/
theorem mem_alphabet_of_mem_encode {s : List UInt8} {c : UInt8} (h : c ∈ encode s) :
    c ∈ alphabet := by
  rw [encode, List.mem_append, List.mem_map] at h
  rw [alphabet, List.mem_append, List.mem_map]
  rcases h with ⟨n, hn, rfl⟩ | h
  · exact .inl ⟨n, List.mem_range.mpr (lt_of_mem_sextets hn), rfl⟩
  · exact .inr (List.mem_singleton.mpr (List.eq_of_mem_replicate h))

private theorem digit_eq_slash_of_mem : ∀ n ∈ List.range 64, digit n = 47 ↔ n = 63 := by
  decide

/-- An encoding contains `/` exactly if a group of six bits is all ones. -/
theorem slash_mem_encode_iff (s : List UInt8) : 47 ∈ encode s ↔ 63 ∈ sextets s := by
  rw [encode, List.mem_append, List.mem_map]
  constructor
  · rintro (⟨n, hn, hdigit⟩ | h)
    · have hlt := List.mem_range.mpr (lt_of_mem_sextets hn)
      rwa [← (digit_eq_slash_of_mem n hlt).mp hdigit]
    · exact absurd (List.eq_of_mem_replicate h) (by decide)
  · intro h
    exact .inl ⟨63, h, by decide⟩

/-- The number of sextets: eight bits a byte, six a sextet, rounded up. -/
theorem length_sextets (s : List UInt8) : (sextets s).length = (s.length * 4 + 2) / 3 := by
  fun_induction sextets s with
  | case1 => rfl
  | case2 => simp
  | case3 => simp
  | case4 a b c s ih =>
    simp only [List.length_cons, ih]
    omega

/-- Four digits for three bytes. -/
theorem length_encode (s : List UInt8) : (encode s).length = (s.length + 2) / 3 * 4 := by
  rw [encode, List.length_append, List.length_map, List.length_replicate, length_sextets, padding]
  omega

end Base64
