import Mathlib.Algebra.Group.Nat.Defs
import Mathlib.Tactic.SplitIfs
import Clash.Lib.CProg

/-!
# Blocks of memory

A buffer or a `struct` is the list of its bytes. A write that does not lie inside the block is
undefined behaviour, so a run that returns has written inside it.

## Main results

* `slice_splice_self`, `slice_splice_of_disjoint`: what a block holds where it was written, and
  that it is unchanged elsewhere.
-/

open CProg

namespace Memory

/-- The `n` bytes at offset `off`. -/
def slice (block : List UInt8) (off n : ℕ) : List UInt8 := (block.drop off).take n

/-- The block with `bs` in place of the bytes at offset `off`. -/
def splice (block : List UInt8) (off : ℕ) (bs : List UInt8) : List UInt8 :=
  block.take off ++ bs ++ block.drop (off + bs.length)

/-- Write `bs` at offset `off`. -/
def write (off : ℕ) (bs : List UInt8) : Prog (List UInt8) Unit := do
  let block ← get
  if off + bs.length ≤ block.length then set (splice block off bs) else throw .undefined

/-- Read the `n` bytes at offset `off`. -/
def read (off n : ℕ) : Prog (List UInt8) (List UInt8) := do
  let block ← get
  if off + n ≤ block.length then pure (slice block off n) else throw .undefined

variable {block bs : List UInt8} {off off' n : ℕ}

/-- A write within the block returns, any other one is undefined. -/
theorem run_write (off : ℕ) (bs block : List UInt8) :
    (write off bs).run block =
      if off + bs.length ≤ block.length then .ok () (splice block off bs)
      else .error .undefined block := by
  rw [write, EStateM.run_bind, EStateM.run_get]
  dsimp only
  split <;> rfl

/-- The case within the block. -/
@[simp] theorem run_write_of_le (h : off + bs.length ≤ block.length) :
    (write off bs).run block = .ok () (splice block off bs) := by
  rw [run_write, if_pos h]

/-- A write leaves the length as it is. -/
theorem length_splice (h : off + bs.length ≤ block.length) :
    (splice block off bs).length = block.length := by
  simp only [splice, List.length_append, List.length_take, List.length_drop]
  omega

/-- The byte at an index of a block that was written. -/
theorem getElem?_splice (h : off + bs.length ≤ block.length) (i : ℕ) :
    (splice block off bs)[i]? =
      if i < off then block[i]? else if i < off + bs.length then bs[i - off]? else block[i]? := by
  have hoff : (block.take off).length = off := by
    rw [List.length_take]
    omega
  rw [splice, List.append_assoc]
  split
  · rw [List.getElem?_append_left (by omega), List.getElem?_take, if_pos ‹_›]
  · rw [List.getElem?_append_right (by omega), hoff]
    split
    · rw [List.getElem?_append_left (by omega)]
    · rw [List.getElem?_append_right (by omega), List.getElem?_drop]
      congr 1
      omega

/-- The cells of a piece of the block. -/
theorem getElem?_slice (i : ℕ) :
    (slice block off n)[i]? = if i < n then block[off + i]? else none := by
  rw [slice, List.getElem?_take]
  split
  · rw [List.getElem?_drop]
  · rfl

/-- What was written is read back. -/
theorem slice_splice_self (h : off + bs.length ≤ block.length) :
    slice (splice block off bs) off bs.length = bs := by
  apply List.ext_getElem?
  intro i
  rw [getElem?_slice]
  split
  · rw [getElem?_splice h, if_neg (by omega), if_pos (by omega), Nat.add_sub_cancel_left]
  · rw [List.getElem?_eq_none (by omega)]

/-- A write leaves the bytes outside it alone. -/
theorem slice_splice_of_disjoint (h : off + bs.length ≤ block.length)
    (hdisj : off' + n ≤ off ∨ off + bs.length ≤ off') :
    slice (splice block off bs) off' n = slice block off' n := by
  apply List.ext_getElem?
  intro i
  rw [getElem?_slice, getElem?_slice]
  split
  · rw [getElem?_splice h]
    rcases hdisj with hbefore | hafter
    · rw [if_pos (by omega)]
    · rw [if_neg (by omega), if_neg (by omega)]
  · rfl

/-- A write behind a write is one longer write. -/
theorem splice_splice_right {bs' : List UInt8} (h : off + bs.length + bs'.length ≤ block.length) :
    splice (splice block off bs) (off + bs.length) bs' = splice block off (bs ++ bs') := by
  have hlen : (splice block off bs).length = block.length := length_splice (by omega)
  apply List.ext_getElem?
  intro i
  rw [getElem?_splice (by omega), getElem?_splice (by omega),
    getElem?_splice (by rw [List.length_append]; omega), List.length_append]
  split_ifs <;> first
    | rfl
    | omega
    | (rw [List.getElem?_append_left (by omega)])
    | (rw [List.getElem?_append_right (by omega), Nat.sub_add_eq])

/-- Writes to different places can be swapped. -/
theorem splice_comm {bs' : List UInt8} (h : off + bs.length ≤ off')
    (h' : off' + bs'.length ≤ block.length) :
    splice (splice block off' bs') off bs = splice (splice block off bs) off' bs' := by
  have hlen : (splice block off bs).length = block.length := length_splice (by omega)
  have hlen' : (splice block off' bs').length = block.length := length_splice h'
  apply List.ext_getElem?
  intro i
  rw [getElem?_splice (by omega), getElem?_splice h', getElem?_splice (by omega),
    getElem?_splice (by omega)]
  split_ifs <;> first | rfl | omega

/-- A write in front of a write is one longer write. -/
theorem splice_splice_left {bs' : List UInt8} (h : off + bs.length + bs'.length ≤ block.length) :
    splice (splice block (off + bs.length) bs') off bs = splice block off (bs ++ bs') := by
  rw [splice_comm (Nat.le_refl _) h, splice_splice_right h]

/-- A write over a write of the same length. -/
theorem splice_splice_self {bs' : List UInt8} (h : off + bs.length ≤ block.length)
    (hlen : bs'.length = bs.length) :
    splice (splice block off bs) off bs' = splice block off bs' := by
  have hsplice := length_splice h
  apply List.ext_getElem?
  intro i
  rw [getElem?_splice (by omega), getElem?_splice h, getElem?_splice (by omega)]
  split_ifs <;> first | rfl | omega

/-- A write does not see an earlier write of the same length. -/
theorem run_write_splice {bs' : List UInt8} (h : off + bs.length ≤ block.length)
    (hlen : bs'.length = bs.length) :
    (write off bs').run (splice block off bs) = (write off bs').run block := by
  have hsplice := length_splice h
  rw [run_write_of_le (by omega), run_write_of_le (by omega), splice_splice_self h hlen]

/-! ## Buffers that are filled from the front -/

/-- A buffer of `n` bytes that begins with `text` and is zero behind it, and what comes behind the
buffer. -/
def padded (n : ℕ) (text rest : List UInt8) : List UInt8 :=
  text ++ List.replicate (n - text.length) 0 ++ rest

section Padded

variable {text rest : List UInt8}

/-- The length of a text with its filling. -/
theorem length_padded (h : text.length ≤ n) : (padded n text rest).length = n + rest.length := by
  simp only [padded, List.length_append, List.length_replicate]
  omega

/-- A write behind the text makes the text longer. -/
theorem splice_padded (h : text.length + bs.length ≤ n) :
    splice (padded n text rest) text.length bs = padded n (text ++ bs) rest := by
  have hzeros : n - text.length = bs.length + (n - (text ++ bs).length) := by
    rw [List.length_append]
    omega
  unfold splice padded
  rw [hzeros, ← List.replicate_append_replicate]
  simp only [List.append_assoc]
  rw [List.take_left, ← List.drop_drop, List.drop_left, List.drop_left' List.length_replicate]

/-- A NUL behind the text is there already. -/
theorem padded_append_nul (h : text.length < n) :
    padded n (text ++ [0]) rest = padded n text rest := by
  have hzeros : n - text.length = n - (text ++ [0]).length + 1 := by
    rw [List.length_append, List.length_singleton]
    omega
  unfold padded
  rw [hzeros, List.replicate_succ]
  simp

/-- The same as a run. -/
theorem run_write_padded (h : text.length + bs.length ≤ n) :
    (write text.length bs).run (padded n text rest) = .ok () (padded n (text ++ bs) rest) := by
  rw [run_write_of_le (by rw [length_padded (by omega)]; omega), splice_padded h]

/-- `sprintf` into a buffer writes a NUL behind the text. -/
theorem run_write_padded_nul (h : text.length + bs.length < n) :
    (write text.length (bs ++ [0])).run (padded n text rest) =
      .ok () (padded n (text ++ bs) rest) := by
  rw [run_write_padded (by rw [List.length_append, List.length_singleton]; omega),
    ← List.append_assoc, padded_append_nul (by rw [List.length_append]; exact h)]

end Padded

/-! ## Little-endian numbers -/

/-- A 16-bit number as the machine stores it. -/
def le16 (v : ℕ) : List UInt8 := [UInt8.ofNat v, UInt8.ofNat (v / 2 ^ 8)]

/-- A 32-bit number as the machine stores it. -/
def le32 (v : ℕ) : List UInt8 := le16 v ++ le16 (v / 2 ^ 16)

/-- The number stored in some bytes. -/
def ofLE : List UInt8 → ℕ
  | [] => 0
  | b :: bs => b.toNat + 2 ^ 8 * ofLE bs

@[simp] theorem length_le16 (v : ℕ) : (le16 v).length = 2 := rfl

@[simp] theorem length_le32 (v : ℕ) : (le32 v).length = 4 := rfl

/-- Reading back what was written in two bytes. -/
theorem ofLE_le16 (v : ℕ) : ofLE (le16 v) = v % 2 ^ 16 := by
  simp only [le16, ofLE, UInt8.toNat_ofNat']
  omega

/-- Reading back what was written in four bytes. -/
theorem ofLE_le32 (v : ℕ) : ofLE (le32 v) = v % 2 ^ 32 := by
  simp only [le32, le16, List.cons_append, List.nil_append, ofLE, UInt8.toNat_ofNat']
  omega

/-- The value of some bytes is bounded by their number. -/
theorem ofLE_lt (bs : List UInt8) : ofLE bs < 2 ^ (8 * bs.length) := by
  induction bs with
  | nil => exact Nat.one_pos
  | cons b bs ih =>
    have hb := b.toNat_lt
    rw [ofLE, List.length_cons, Nat.mul_succ, Nat.add_comm (8 * bs.length), Nat.pow_add]
    omega

end Memory
