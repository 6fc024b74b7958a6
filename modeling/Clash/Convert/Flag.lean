import Clash.Lib.CString
import Clash.Lib.Memory

/-!
# flag.c

The titles of the proxy groups: country codes printed as flags. A flag is two regional
indicator symbols, except for the codes that have a symbol of their own.

## Main definitions

* `ccs2str`: print codes to a buffer of `bufSz` bytes, every write checked.
* `title`: the string that `ccs2str` leaves in a fresh buffer.
-/

open CProg CString Memory

namespace Flag

/-- `MB_CUR_RIS`: the bytes of one regional indicator symbol. -/
def mbCurRis : ℕ := 4

/-- `MAX_FLAGS_IN_GROUP`. -/
def maxFlagsInGroup : ℕ := 6

/-- `BUF_SZ`, which depends on `MB_CUR_MAX` of the locale. -/
def bufSz (mbCurMax : ℕ) : ℕ :=
  (mbCurRis + mbCurRis + 1) * (maxFlagsInGroup - 1) + (mbCurRis + mbCurMax + 1) * 1 + 1

/-- `CC`: a two-letter country code. -/
structure CC where
  c0 : UInt8
  c1 : UInt8
  deriving DecidableEq, Repr

/-- A country code written as a literal. -/
def CC.cc (c0 c1 : Char) : CC := ⟨c0.toUInt8, c1.toUInt8⟩

variable {σ : Type}

/-- The regional indicator symbol of a letter. -/
def c2ris (c : UInt8) : Prog σ ℕ := do
  assert (65 ≤ c ∧ c ≤ 90)
  let r := 0x1F1E6 + (c.toNat - 65)
  assert (0x1F1E6 ≤ r ∧ r ≤ 0x1F1FF)
  pure r

/-- `wctomb` in a UTF-8 locale. -/
def wctomb (wc : ℕ) : List UInt8 := String.utf8EncodeChar (Char.ofNat wc)

/-- `assert(MB_CUR_RIS==wctomb(s,wc))`. -/
def writeRis (s wc : ℕ) : Prog (List UInt8) Unit := do
  write s (wctomb wc)
  assert (mbCurRis = (wctomb wc).length)

/-- Print one country code at offset `s` of the destination. `sprintf` writes a NUL too. -/
def cc2str (s : ℕ) (code : CC) : Prog (List UInt8) ℕ := do
  if code = .cc 'C' 'N' ∨ code = .cc 'M' 'O' then
    write s (utf8 "☒" ++ [0])
    assert (3 = (utf8 "☒").length)
    return 3
  if code = .cc 'H' 'K' then
    write s (utf8 "🏴" ++ [0])
    assert (4 = (utf8 "🏴").length)
    return 4
  let r0 ← c2ris code.c0
  writeRis s r0
  let r1 ← c2ris code.c1
  writeRis (s + mbCurRis) r1
  return mbCurRis + mbCurRis

/-- The loop of `ccs2str`: print the codes from offset `s` on, a space after each. -/
def printFlags (mbCurMax : ℕ) : ℕ → List CC → Prog (List UInt8) ℕ
  | s, [] => pure s
  | s, code :: codes => do
    assert (s + mbCurRis + mbCurMax + 1 ≤ bufSz mbCurMax - 1)
    let n ← cc2str s code
    write (s + n) (utf8 " ")
    printFlags mbCurMax (s + n + 1) codes

/-- Print country codes to the destination. -/
def ccs2str (mbCurMax : ℕ) (codes : List CC) : Prog (List UInt8) Unit := do
  write 0 (List.replicate (bufSz mbCurMax) 0)
  let s ← printFlags mbCurMax 0 codes
  -- remove the trailing space
  let dest ← get
  let s := if 1 ≤ s ∧ dest[s - 1]? = some 32 then s - 1 else s
  write s [0]

/-- The string that `ccs2str` leaves in a fresh `char buf[BUF_SZ]`. -/
def title (mbCurMax : ℕ) (codes : List CC) : Prog σ CString := fun s =>
  match (ccs2str mbCurMax codes).run (List.replicate (bufSz mbCurMax) 0) with
  | .ok _ dest => .ok (ofBlock dest) s
  | .error e _ => .error e s

/-- The title does not depend on the state of the program that prints it. -/
theorem run_title {mbCurMax : ℕ} {codes : List CC} {t : CString}
    (h : (title mbCurMax codes : Prog Unit CString).run () = .ok t ()) (s : σ) :
    (title mbCurMax codes).run s = .ok t s := by
  simp only [EStateM.run, title] at h ⊢
  split at h
  · cases h
    rfl
  · cases h

example : (title 6 [.cc 'H' 'K', .cc 'J' 'P', .cc 'C' 'N'] : Prog Unit CString).run () =
    .ok (utf8 "🏴 🇯🇵 ☒") () := by decide +kernel

end Flag
