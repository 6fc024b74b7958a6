import Mathlib.Data.List.Infix
import Mathlib.Data.Nat.Digits.Lemmas
import Clash.Lib.CProg

/-!
# C strings

A C string is the list of its bytes, the terminating NUL left out. The functions of
`<string.h>` and `<stdlib.h>` that take their arguments by content are functions on such
lists; those that write to a buffer are programs that check the buffer's size.

## Main definitions

* `utf8`: the bytes of a string literal.
* `strstr`, `strcasestr`: substring tests.
* `strcpy`: a copy into a buffer of a given size.
* `atoi`, `decimal`: reading and printing decimal integers.
* `sprintf`: printing to memory.

## Main results

* `readDigits_decimal`: reading a printed number gives back the number.
-/

open CProg

/-- The bytes of a C string, without the terminating NUL. -/
abbrev CString := List UInt8

namespace CString

/-- The bytes of a string literal in a source file encoded in UTF-8. -/
def utf8 (s : String) : CString := s.toList.flatMap String.utf8EncodeChar

/-- The C string that starts at the beginning of a block of memory. -/
def ofBlock (block : List UInt8) : CString := block.takeWhile (· ≠ 0)

@[simp] theorem ofBlock_append_nul {s : CString} (h : 0 ∉ s) : ofBlock (s ++ [0]) = s := by
  have hne : ∀ c ∈ s, decide (c ≠ 0) = true :=
    fun c hc => decide_eq_true fun hzero => h (hzero ▸ hc)
  rw [ofBlock, List.takeWhile_append_of_pos hne]
  simp

/-! ## Searching -/

/-- `strstr(haystack, needle)` does not return `NULL`. -/
def strstr (haystack needle : CString) : Bool := decide (needle <:+: haystack)

theorem strstr_iff {haystack needle : CString} :
    strstr haystack needle = true ↔ needle <:+: haystack := by
  simp [strstr]

/-- `tolower` in a UTF-8 locale, which changes ASCII letters only. -/
def tolower (c : UInt8) : UInt8 := if 65 ≤ c ∧ c ≤ 90 then c + 32 else c

/-- `strcasestr(haystack, needle)` does not return `NULL`. -/
def strcasestr (haystack needle : CString) : Bool :=
  strstr (haystack.map tolower) (needle.map tolower)

/-! ## Copying -/

/-- `strcpy` into a buffer of `size` bytes. The NUL has to fit too. -/
def strcpy {σ : Type} (size : ℕ) (src : CString) : Prog σ CString :=
  if src.length < size then pure src else throw .undefined

/-- The string and its NUL fit a buffer of `size` bytes. -/
abbrev Fits (size : ℕ) (s : CString) : Prop := s.length < size

section Strcpy

variable {σ : Type} {size : ℕ} {src : CString} {s : σ}

@[simp] theorem run_strcpy_of_fits (h : Fits size src) :
    (strcpy size src : Prog σ CString).run s = .ok src s := by
  rw [strcpy, if_pos h]
  rfl

theorem run_strcpy (size : ℕ) (src : CString) (s : σ) :
    (strcpy size src : Prog σ CString).run s =
      if src.length < size then .ok src s else .error .undefined s := by
  unfold strcpy
  split <;> rfl

end Strcpy

/-! ## Decimal integers -/

/-- `isspace` on ASCII. -/
def isspace (c : UInt8) : Bool := c == 32 || (9 ≤ c && c ≤ 13)

/-- `isdigit`. -/
def isdigit (c : UInt8) : Bool := 48 ≤ c && c ≤ 57

/-- The value of the digits at the start of a string, read after digits of value `acc`. -/
def readDigits (acc : ℕ) : CString → ℕ
  | [] => acc
  | c :: s => if isdigit c then readDigits (acc * 10 + (c.toNat - 48)) s else acc

/-- `strtol(s, NULL, 10)` on a 64-bit `long`, which saturates. -/
def strtol (s : CString) : ℤ :=
  match s.dropWhile isspace with
  | 45 :: t => max (-2 ^ 63) (-(readDigits 0 t : ℤ))
  | 43 :: t => min (2 ^ 63 - 1) (readDigits 0 t)
  | t => min (2 ^ 63 - 1) (readDigits 0 t)

/-- `atoi`: glibc converts what `strtol` returns to a 32-bit `int`. -/
def atoi (s : CString) : ℤ := (strtol s).bmod (2 ^ 32)

/-- The digits that `%d` and `%u` print for a non-negative number. -/
def decimal (n : ℕ) : CString :=
  if n = 0 then [48] else ((Nat.digits 10 n).map fun d => UInt8.ofNat (48 + d)).reverse

/-- What `%d` prints for an `int`. -/
def printD (z : ℤ) : CString :=
  if z < 0 then 45 :: decimal z.natAbs else decimal z.natAbs

/-- The digit of a number below ten. -/
private def digitByte (d : ℕ) : UInt8 := UInt8.ofNat (48 + d)

private theorem isdigit_digitByte_of_mem :
    ∀ d ∈ List.range 10, isdigit (digitByte d) = true ∧ (digitByte d).toNat - 48 = d := by
  decide

theorem readDigits_append {s : CString} (hs : ∀ c ∈ s, isdigit c = true) (acc : ℕ)
    (t : CString) : readDigits acc (s ++ t) = readDigits (readDigits acc s) t := by
  induction s generalizing acc with
  | nil => rfl
  | cons c s ih =>
    rw [List.forall_mem_cons] at hs
    simp only [List.cons_append, readDigits, hs.1, ↓reduceIte]
    exact ih hs.2 _

/-- A printed number consists of digits. -/
theorem isdigit_of_mem_decimal {n : ℕ} {c : UInt8} (h : c ∈ decimal n) : isdigit c = true := by
  unfold decimal at h
  split at h
  · rw [List.mem_singleton.mp h]
    decide
  · rw [List.mem_reverse, List.mem_map] at h
    obtain ⟨d, hd, rfl⟩ := h
    have hlt : d < 10 := Nat.digits_lt_base (by norm_num) hd
    exact (isdigit_digitByte_of_mem d (List.mem_range.mpr hlt)).1

theorem decimal_ne_nil (n : ℕ) : decimal n ≠ [] := by
  unfold decimal
  split
  · exact List.cons_ne_nil _ _
  · rename_i hn
    simpa using Nat.digits_ne_nil_iff_ne_zero.mpr hn

private theorem readDigits_digits {ds : List ℕ} (hds : ∀ d ∈ ds, d < 10) :
    readDigits 0 (ds.map digitByte).reverse = Nat.ofDigits 10 ds := by
  induction ds with
  | nil => rfl
  | cons d ds ih =>
    rw [List.forall_mem_cons] at hds
    have hdigits : ∀ c ∈ (ds.map digitByte).reverse, isdigit c = true := by
      intro c hc
      rw [List.mem_reverse, List.mem_map] at hc
      obtain ⟨e, he, rfl⟩ := hc
      exact (isdigit_digitByte_of_mem e (List.mem_range.mpr (hds.2 e he))).1
    obtain ⟨hdigit, hvalue⟩ := isdigit_digitByte_of_mem d (List.mem_range.mpr hds.1)
    rw [List.map_cons, List.reverse_cons, readDigits_append hdigits, ih hds.2, Nat.ofDigits_cons]
    simp only [readDigits, hdigit, hvalue, ↓reduceIte]
    omega

/-- Reading a printed number gives back the number. -/
@[simp] theorem readDigits_decimal (n : ℕ) : readDigits 0 (decimal n) = n := by
  unfold decimal
  split
  next hn =>
    rw [hn]
    rfl
  next =>
    have hlt : ∀ d ∈ Nat.digits 10 n, d < 10 := fun d hd => Nat.digits_lt_base (by norm_num) hd
    exact (readDigits_digits hlt).trans (Nat.ofDigits_digits 10 n)

/-- How many characters a number has when it is printed. -/
theorem length_decimal_le_iff {n k : ℕ} (hk : 0 < k) : (decimal n).length ≤ k ↔ n < 10 ^ k := by
  unfold decimal
  split
  next hn =>
    rw [hn]
    exact iff_of_true hk (Nat.pow_pos (by norm_num))
  next =>
    rw [List.length_reverse, List.length_map]
    exact Nat.digits_length_le_iff (by norm_num) n

/-- A number that is read has at most as many digits as the string. -/
theorem readDigits_lt (acc : ℕ) (s : CString) :
    readDigits acc s < (acc + 1) * 10 ^ s.length := by
  induction s generalizing acc with
  | nil =>
    rw [readDigits, List.length_nil, Nat.pow_zero, Nat.mul_one]
    exact Nat.lt_succ_self acc
  | cons c s ih =>
    rw [readDigits, List.length_cons, Nat.pow_succ]
    have hpow : 0 < 10 ^ s.length := Nat.pow_pos (by norm_num)
    split
    next hdigit =>
      -- a digit is at most 9
      have hc : c.toNat - 48 ≤ 9 := by
        simp only [isdigit, Bool.and_eq_true, decide_eq_true_eq, UInt8.le_iff_toNat_le] at hdigit
        have := hdigit.2
        simp only [UInt8.reduceToNat] at this
        omega
      calc readDigits (acc * 10 + (c.toNat - 48)) s
          < (acc * 10 + (c.toNat - 48) + 1) * 10 ^ s.length := ih _
        _ ≤ (acc + 1) * 10 * 10 ^ s.length := Nat.mul_le_mul_right _ (by omega)
        _ = (acc + 1) * (10 ^ s.length * 10) := by ring
    next =>
      calc acc < (acc + 1) * 1 := by omega
        _ ≤ (acc + 1) * (10 ^ s.length * 10) := Nat.mul_le_mul_left _ (by omega)

/-- The text of a positive number: behind blanks and a sign, as many digits as it has. -/
theorem exists_digits_of_strtol {s : CString} (h : 1 ≤ strtol s) :
    ∃ t : CString, t.length ≤ s.length ∧ strtol s = min (2 ^ 63 - 1) (readDigits 0 t : ℤ) := by
  have hle : (s.dropWhile isspace).length ≤ s.length := (List.dropWhile_suffix _).length_le
  unfold strtol at h ⊢
  split at h
  next t hs =>
    -- a minus sign makes the number negative or zero
    omega
  next t hs =>
    rw [hs, List.length_cons] at hle
    exact ⟨t, by omega, rfl⟩
  next => exact ⟨s.dropWhile isspace, hle, rfl⟩

/-- A short string has a small number. -/
theorem abs_strtol_lt (s : CString) : |strtol s| < 10 ^ s.length := by
  -- there are no more digits than bytes
  have hread {t : CString} (ht : t.length ≤ s.length) : (readDigits 0 t : ℤ) < 10 ^ s.length := by
    have hlt := readDigits_lt 0 t
    rw [Nat.zero_add, Nat.one_mul] at hlt
    have hpow : 10 ^ t.length ≤ 10 ^ s.length := Nat.pow_le_pow_right (by norm_num) ht
    exact_mod_cast hlt.trans_le hpow
  have hle : (s.dropWhile isspace).length ≤ s.length := (List.dropWhile_suffix _).length_le
  unfold strtol
  rw [abs_lt]
  split
  next t hs =>
    rw [hs, List.length_cons] at hle
    have := hread (t := t) (by omega)
    omega
  next t hs =>
    rw [hs, List.length_cons] at hle
    have := hread (t := t) (by omega)
    omega
  next =>
    have := hread hle
    omega

/-- A string of digits is read as a whole. -/
theorem strtol_of_isdigit {s : CString} (hs : ∀ c ∈ s, isdigit c = true) :
    strtol s = min (2 ^ 63 - 1) (readDigits 0 s : ℤ) := by
  have hhead : ∀ c ∈ s, isspace c = false ∧ c ≠ 45 ∧ c ≠ 43 := by
    have hall : ∀ n ∈ List.range 256, isdigit (UInt8.ofNat n) = true →
        isspace (UInt8.ofNat n) = false ∧ UInt8.ofNat n ≠ 45 ∧ UInt8.ofNat n ≠ 43 := by
      decide +kernel
    intro c hc
    have hn := hall c.toNat (List.mem_range.mpr c.toNat_lt)
    rw [UInt8.ofNat_toNat] at hn
    exact hn (hs c hc)
  cases s with
  | nil => rfl
  | cons c s =>
    obtain ⟨hspace, hminus, hplus⟩ := hhead c List.mem_cons_self
    unfold strtol
    rw [List.dropWhile_cons_of_neg (by rw [hspace]; exact Bool.false_ne_true)]
    split
    next t heq => exact absurd (List.cons.inj heq).1 hminus
    next t heq => exact absurd (List.cons.inj heq).1 hplus
    next => rfl

theorem atoi_of_strtol_lt {s : CString} (hle : -2 ^ 31 ≤ strtol s) (hlt : strtol s < 2 ^ 31) :
    atoi s = strtol s := by
  exact Int.bmod_eq_of_le_mul_two (by omega) (by omega)

/-- What is printed for a number that was read: no more characters, and the same number. -/
theorem printD_atoi {s : CString} (hlt : strtol s < 2 ^ 31) (hone : 1 ≤ strtol s) :
    (printD (atoi s)).length ≤ s.length ∧ atoi (printD (atoi s)) = atoi s := by
  rw [atoi_of_strtol_lt (by omega) hlt]
  obtain ⟨t, hlength, hvalue⟩ := exists_digits_of_strtol hone
  have hvalue : strtol s = readDigits 0 t := by omega
  rw [hvalue] at hone hlt ⊢
  have hprint : printD (readDigits 0 t : ℤ) = decimal (readDigits 0 t) := by
    rw [printD, if_neg (by omega), Int.natAbs_natCast]
  rw [hprint]
  have hread := readDigits_lt 0 t
  rw [Nat.zero_add, Nat.one_mul] at hread
  have hpos : 0 < t.length := by
    rcases t with _ | ⟨c, t⟩
    · exact absurd hone (by decide)
    · exact Nat.succ_pos _
  refine ⟨((length_decimal_le_iff hpos).mpr hread).trans hlength, ?_⟩
  have hstrtol : strtol (decimal (readDigits 0 t)) = readDigits 0 t := by
    rw [strtol_of_isdigit fun c hc => isdigit_of_mem_decimal hc, readDigits_decimal]
    omega
  rw [atoi_of_strtol_lt (by omega) (by omega), hstrtol]

/-! ## Formatted output -/

/-- What `sprintf` or `asprintf` prints. A text longer than `INT_MAX` is an error that leaves the
destination undefined. -/
def sprintf {σ : Type} (text : CString) : Prog σ CString :=
  if text.length < 2 ^ 31 then pure text else throw .undefined

@[simp] theorem run_sprintf {σ : Type} {text : CString} (h : text.length < 2 ^ 31) (s : σ) :
    (sprintf text).run s = .ok text s := by
  rw [sprintf, if_pos h]
  rfl

@[simp] theorem run_sprintf_of_le {σ : Type} {text : CString} (h : 2 ^ 31 ≤ text.length) (s : σ) :
    (sprintf text : Prog σ CString).run s = .error .undefined s := by
  rw [sprintf, if_neg (by omega)]
  rfl

end CString
