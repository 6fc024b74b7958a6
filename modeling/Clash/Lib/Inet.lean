import Mathlib.Tactic.SplitIfs
import Clash.Lib.CString

/-!
# Internet addresses as text

`inet_pton` and `inet_ntop` of glibc: an IPv4 address is four octets in network order, its text
the dotted quad. Of `inet_pton(AF_INET6, ...)` only the acceptance is modelled.
-/

open CString

namespace Inet

/-- `struct in_addr`, as its bytes in network order. -/
structure InAddr where
  a : UInt8
  b : UInt8
  c : UInt8
  d : UInt8
  deriving DecidableEq, Repr

/-- The bytes of an address in memory. -/
def InAddr.bytes (x : InAddr) : List UInt8 := [x.a, x.b, x.c, x.d]

@[simp] theorem InAddr.length_bytes (x : InAddr) : x.bytes.length = 4 := rfl

/-- The loop of `inet_pton4`: the finished octets, and the value of the current one if it has a
digit already. -/
def pton4Go (octets : List ℕ) (current : Option ℕ) : CString → Option (List ℕ)
  | [] =>
    match current with
    | some v => some (octets ++ [v])
    | none => some octets
  | ch :: src =>
    if isdigit ch then
      match current with
      | some v =>
        if v = 0 then none
        else if 255 < v * 10 + (ch.toNat - 48) then none
        else pton4Go octets (some (v * 10 + (ch.toNat - 48))) src
      | none =>
        if 4 < octets.length + 1 then none
        else pton4Go octets (some (ch.toNat - 48)) src
    else
      match current with
      | some v =>
        if ch = 46 then
          if octets.length + 1 = 4 then none else pton4Go (octets ++ [v]) none src
        else none
      | none => none

/-- `inet_pton(AF_INET, src, dst)`: the address, if `src` is a dotted quad. -/
def pton4 (src : CString) : Option InAddr :=
  match pton4Go [] none src with
  | some [a, b, c, d] => some ⟨UInt8.ofNat a, UInt8.ofNat b, UInt8.ofNat c, UInt8.ofNat d⟩
  | _ => none

theorem zero_notMem_of_pton4Go {octets : List ℕ} {current : Option ℕ} {src : CString}
    {r : List ℕ} (h : pton4Go octets current src = some r) : 0 ∉ src := by
  induction src generalizing octets current with
  | nil => exact List.not_mem_nil
  | cons ch src ih =>
    have hne : ch ≠ 0 := by
      rintro rfl
      cases current <;> simp [pton4Go, isdigit] at h
    rw [List.mem_cons, not_or]
    refine ⟨hne.symm, ?_⟩
    cases current <;> simp only [pton4Go] at h <;> split_ifs at h <;> exact ih h

/-- A dotted quad contains no NUL. -/
theorem zero_notMem_of_pton4 {src : CString} {x : InAddr} (h : pton4 src = some x) : 0 ∉ src := by
  unfold pton4 at h
  split at h
  · rename_i hgo
    exact zero_notMem_of_pton4Go hgo
  · cases h

/-- `inet_ntop(AF_INET, x)`. -/
def ntop4 (x : InAddr) : CString :=
  decimal x.a.toNat ++ 46 :: (decimal x.b.toNat ++ 46 ::
    (decimal x.c.toNat ++ 46 :: decimal x.d.toNat))

/-! ## Reading a printed address -/

/-- The digits of an octet. -/
private theorem decimal_of_mem :
    ∀ n ∈ List.range 256, decimal n =
      if n < 10 then [UInt8.ofNat (48 + n)]
      else if n < 100 then [UInt8.ofNat (48 + n / 10), UInt8.ofNat (48 + n % 10)]
      else [UInt8.ofNat (48 + n / 100), UInt8.ofNat (48 + n / 10 % 10),
        UInt8.ofNat (48 + n % 10)] := by
  decide +kernel

private theorem isdigit_of_mem_range :
    ∀ d ∈ List.range 10, isdigit (UInt8.ofNat (48 + d)) = true ∧
      (UInt8.ofNat (48 + d)).toNat - 48 = d := by
  decide

private theorem pton4Go_first {octets : List ℕ} (h : octets.length < 4) {d : ℕ} (hd : d < 10)
    (src : CString) :
    pton4Go octets none (UInt8.ofNat (48 + d) :: src) = pton4Go octets (some d) src := by
  obtain ⟨hdigit, hvalue⟩ := isdigit_of_mem_range d (List.mem_range.mpr hd)
  simp only [pton4Go, hdigit, ↓reduceIte, hvalue]
  rw [if_neg (by omega)]

private theorem pton4Go_next (octets : List ℕ) {v d : ℕ} (hv : v ≠ 0) (hd : d < 10)
    (hle : v * 10 + d ≤ 255) (src : CString) :
    pton4Go octets (some v) (UInt8.ofNat (48 + d) :: src) =
      pton4Go octets (some (v * 10 + d)) src := by
  obtain ⟨hdigit, hvalue⟩ := isdigit_of_mem_range d (List.mem_range.mpr hd)
  simp only [pton4Go, hdigit, ↓reduceIte, hvalue]
  rw [if_neg hv, if_neg (by omega)]

/-- A printed octet is read as its value. -/
theorem pton4Go_decimal {octets : List ℕ} (h : octets.length < 4) (v : UInt8) (src : CString) :
    pton4Go octets none (decimal v.toNat ++ src) = pton4Go octets (some v.toNat) src := by
  have hlt : v.toNat < 256 := v.toNat_lt
  generalize v.toNat = n at hlt
  -- one digit, two, or three
  rw [decimal_of_mem n (List.mem_range.mpr hlt)]
  split
  · exact pton4Go_first h ‹_› src
  · split
    · rw [List.cons_append, List.cons_append, pton4Go_first h (by omega),
        pton4Go_next _ (by omega) (by omega) (by omega)]
      rw [show n / 10 * 10 + n % 10 = n by omega]
      rfl
    · rw [List.cons_append, List.cons_append, List.cons_append, pton4Go_first h (by omega),
        pton4Go_next _ (by omega) (by omega) (by omega),
        pton4Go_next _ (by omega) (by omega) (by omega)]
      rw [show (n / 100 * 10 + n / 10 % 10) * 10 + n % 10 = n by omega]
      rfl

private theorem pton4Go_dot {octets : List ℕ} (h : octets.length < 3) (v : ℕ) (src : CString) :
    pton4Go octets (some v) (46 :: src) = pton4Go (octets ++ [v]) none src := by
  have hdigit : isdigit 46 = false := by decide
  simp only [pton4Go, hdigit, Bool.false_eq_true, ↓reduceIte]
  rw [if_neg (by omega)]

/-- The text of an address is read as the address. -/
@[simp] theorem pton4_ntop4 (x : InAddr) : pton4 (ntop4 x) = some x := by
  have hgo : pton4Go [] none (ntop4 x) = some [x.a.toNat, x.b.toNat, x.c.toNat, x.d.toNat] := by
    rw [ntop4, pton4Go_decimal (by decide), pton4Go_dot (by decide), pton4Go_decimal (by simp),
      pton4Go_dot (by simp), pton4Go_decimal (by simp), pton4Go_dot (by simp),
      ← List.append_nil (decimal x.d.toNat), pton4Go_decimal (by simp)]
    rfl
  rw [pton4, hgo]
  simp

/-- `isxdigit`. -/
def isxdigit (c : UInt8) : Bool := isdigit c || (65 ≤ c && c ≤ 70) || (97 ≤ c && c ≤ 102)

/-- The end of `inet_pton6`, with `tp` bytes written, `::` seen or not, and the number of hex
digits since the last colon. -/
def pton6End (tp : ℕ) (colon : Bool) (xdigits : ℕ) : Bool :=
  let tp' := if 0 < xdigits then tp + 2 else tp
  (tp' ≤ 16) && (if colon then tp' != 16 else tp' == 16)

/-- The loop of `inet_pton6`. `curtok` is the source from the last colon on. -/
def pton6Go (curtok : CString) (tp : ℕ) (colon : Bool) (xdigits : ℕ) : CString → Bool
  | [] => pton6End tp colon xdigits
  | ch :: src =>
    if isxdigit ch then
      if xdigits = 4 then false else pton6Go curtok tp colon (xdigits + 1) src
    else if ch = 58 then
      if xdigits = 0 then
        if colon then false else pton6Go src tp true 0 src
      else if src = [] then false
      else if 16 < tp + 2 then false
      else pton6Go src (tp + 2) colon 0 src
    else if ch = 46 ∧ tp + 4 ≤ 16 ∧ (pton4 curtok).isSome then pton6End (tp + 4) colon 0
    else false

/-- `1==inet_pton(AF_INET6, src, dst)`. -/
def pton6 (src : CString) : Bool :=
  match src with
  | [] => false
  | 58 :: 58 :: src => pton6Go (58 :: src) 0 false 0 (58 :: src)
  | 58 :: _ => false
  | src => pton6Go src 0 false 0 src

example : pton6 (utf8 "fe80::1:2.3.4.5") = true ∧ pton6 (utf8 "::") = true ∧
    pton6 (utf8 "1:2:3:4:5:6:7::8") = false ∧ pton6 (utf8 "node01.com") = false := by decide

end Inet
