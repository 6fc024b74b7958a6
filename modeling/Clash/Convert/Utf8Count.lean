import Mathlib.Data.FinEnum
import Clash.Lib.CString
import Clash.Lib.LeadCode

/-!
# utf8count.c

`utf8count` counts the UTF-8 characters of a file by the number of their bytes. The file is read
into memory with a NUL behind it.

## Main definitions

* `classify`: the class of a byte, with the number of trailing bytes stored through a pointer.
* `count`: the loop over the bytes.
* `sequences`: the sequences of the table at the top of the file.

## Main results

* `classify_eq`: what `classify` does, in the terms of the table.
* `run_trailing`, `run_trailing_of_cut`: the loop over the trailing bytes of a sequence.
* `run_countBody`: a round of the loop over the bytes.
-/

open CProg CString LeadCode

namespace Utf8Count

/-! ## The program -/

/-- `Class`. -/
inductive Class where
  | single
  | multiHeader
  | multiTrailing
  deriving DecidableEq, Repr

/-- The argument `n_R` of `classify`: `&n_R` for a byte that starts a sequence, and `NULL` for a
trailing one. -/
inductive Pointer where
  | nR
  | null
  deriving DecidableEq, Repr

/-- What the loop does to memory: it reads `buf[i]`, or `classify` writes through its pointer. -/
inductive Access where
  | read (i : ℕ)
  | store (p : Pointer)
  deriving DecidableEq, Repr

structure State where
  i : ℕ
  nR : ℤ
  counter : List ℕ
  /-- What has been done to memory so far. -/
  log : List Access
  deriving DecidableEq, Repr

/-- `*n_R=v`. -/
def store (p : Pointer) (v : ℤ) : Prog State Unit := do
  modify fun s => { s with log := s.log ++ [Access.store p] }
  match p with
  | .nR => modify fun s => { s with nR := v }
  | .null => throw .undefined

def classify (b : UInt8) (p : Pointer) : Prog State Class := do
  if b >>> 7 = 0b0 then
    store p 0
    return .single
  if b >>> 6 = 0b10 then
    assert (p = .null)
    return .multiTrailing
  if b >>> 5 = 0b110 then
    store p 1
    return .multiHeader
  if b >>> 4 = 0b1110 then
    store p 2
    return .multiHeader
  if b >>> 3 = 0b11110 then
    store p 3
    return .multiHeader
  throw .assertion

/-- `buf[i]`. -/
def readByte (buf : List UInt8) : Prog State UInt8 := do
  let s ← get
  set { s with log := s.log ++ [Access.read s.i] }
  match buf[s.i]? with
  | some b => return b
  | none => throw .undefined

/-- `++counter[n_R+1]`. -/
def bump : Prog State Unit := do
  let s ← get
  defined (0 ≤ s.nR + 1 ∧ s.nR + 1 < s.counter.length)
  set { s with counter := s.counter.modify (s.nR + 1).toNat (· + 1) }

/-- The loop over the trailing bytes of a sequence. -/
def trailing (buf : List UInt8) : ℕ → Prog State Unit
  | 0 => pure ()
  | n + 1 => do
    -- `buf[++i]`
    modify fun s => { s with i := s.i + 1 }
    let b ← readByte buf
    assert ((← classify b .null) = .multiTrailing)
    trailing buf n

/-- One round of the loop over the bytes. -/
def countBody (buf : List UInt8) (len : ℕ) (_ : Unit) : Prog State (Unit ⊕ Unit) := do
  if ¬ (← get).i < len then
    return .inr ()
  let b ← readByte buf
  match ← classify b .nR with
  | .single =>
    assert ((← get).nR = 0)
    bump
  | .multiHeader =>
    let nR := (← get).nR
    assert (1 ≤ nR ∧ nR ≤ 3)
    trailing buf nR.toNat
    bump
  | .multiTrailing => throw .assertion
  modify fun s => { s with i := s.i + 1, nR := -1 }
  return .inl ()

/-- The counting loop for a file, which has a NUL behind it in memory. -/
def count (file : List UInt8) : Prog State Unit :=
  -- every round takes a byte or stops
  loop (countBody (file ++ [0]) file.length) (file.length + 1) ()

/-- The state in front of the loop. -/
def start : State where
  i := 0
  nR := -1
  counter := [0, 0, 0, 0, 0]
  log := []

/-- `main` behind `dumpfile`. A file with a NUL is rejected, and so is one that `asprintf` has no
`int` for. -/
def main (file : List UInt8) : Prog State Unit := do
  assert (file.length = (ofBlock (file ++ [0])).length ∧ file.length < 2 ^ 31)
  count file
  assert ((← get).i = file.length)

/-! ## The table -/

/-- How many trailing bytes a byte asks for that starts a sequence. -/
def lead (b : UInt8) : Option ℕ :=
  if b &&& 0b10000000 = 0b00000000 then some 0
  else if b &&& 0b11100000 = 0b11000000 then some 1
  else if b &&& 0b11110000 = 0b11100000 then some 2
  else if b &&& 0b11111000 = 0b11110000 then some 3
  else none

/-- `10xxxxxx`. -/
def IsTrailing (b : UInt8) : Prop := b &&& 0b11000000 = 0b10000000

instance (b : UInt8) : Decidable (IsTrailing b) :=
  inferInstanceAs (Decidable (b &&& 0b11000000 = 0b10000000))

/-- The sequences of the four shapes. -/
def sequences : Set (List UInt8) := words lead IsTrailing

/-- A row of sequences that makes up the file. -/
structure Decomposition (file : List UInt8) (ws : List (List UInt8)) : Prop where
  mem : ∀ w ∈ ws, w ∈ sequences
  flatten : ws.flatten = file

theorem lead_le {b : UInt8} {n : ℕ} (h : lead b = some n) : n ≤ 3 := by
  revert h
  fun_cases lead b <;> intro h <;> cases h <;> decide

theorem length_le_of_mem {w : List UInt8} (h : w ∈ sequences) : w.length ≤ 4 := by
  obtain ⟨b, ts, rfl, hlead, -⟩ := h
  exact Nat.succ_le_succ (lead_le hlead)

/-- The shifts of `classify` and the masks of the table take the same bytes. -/
theorem shift_iff (b : UInt8) :
    (b >>> 7 = 0b0 ↔ b &&& 0b10000000 = 0b00000000) ∧
      (b >>> 6 = 0b10 ↔ b &&& 0b11000000 = 0b10000000) ∧
      (b >>> 5 = 0b110 ↔ b &&& 0b11100000 = 0b11000000) ∧
      (b >>> 4 = 0b1110 ↔ b &&& 0b11110000 = 0b11100000) ∧
      (b >>> 3 = 0b11110 ↔ b &&& 0b11111000 = 0b11110000) := by
  revert b
  decide +kernel

/-- A trailing byte starts no sequence. -/
theorem lead_of_isTrailing {b : UInt8} (h : IsTrailing b) : lead b = none := by
  revert b
  decide +kernel

/-! ## The calls of `classify` -/

/-- The class of a byte that `n` trailing bytes follow. -/
def Class.ofLead : ℕ → Class
  | 0 => .single
  | _ + 1 => .multiHeader

variable {b c : UInt8} {n k len : ℕ} {s : State} {buf ts rest : List UInt8}

/-- `classify` in the terms of the table. -/
theorem classify_eq (b : UInt8) (p : Pointer) :
    classify b p =
      match lead b with
      | some n => do
        store p n
        return Class.ofLead n
      | none =>
        if IsTrailing b then do
          assert (p = .null)
          return .multiTrailing
        else throw .assertion := by
  obtain ⟨hsingle, htrailing, htwo, hthree, hfour⟩ := shift_iff b
  -- a trailing byte is no single one, so the second test decides
  by_cases ht : IsTrailing b
  · rw [lead_of_isTrailing ht, classify, if_neg, if_pos (htrailing.mpr ht), if_pos ht]
    rw [hsingle]
    intro h
    have hlead := lead_of_isTrailing ht
    rw [lead, if_pos h] at hlead
    cases hlead
  · rw [classify, if_neg (fun h => ht (htrailing.mp h))]
    simp only [lead, ← hsingle, ← htwo, ← hthree, ← hfour]
    split_ifs <;> rfl

/-- A byte that starts a sequence stores the number of its trailing bytes. -/
theorem run_classify_of_lead (h : lead b = some n) :
    (classify b .nR).run s =
      .ok (Class.ofLead n) { s with nR := n, log := s.log ++ [Access.store .nR] } := by
  rw [classify_eq, h]
  rfl

theorem run_classify_of_stray (h : lead b = none) :
    (classify b .nR).run s = .error .assertion s := by
  rw [classify_eq, h]
  by_cases ht : IsTrailing b
  · simp [if_pos ht]
  · simp [if_neg ht]

theorem run_classify_null_of_trailing (h : IsTrailing b) :
    (classify b .null).run s = .ok .multiTrailing s := by
  rw [classify_eq, lead_of_isTrailing h]
  simp [if_pos h]

/-- Why the loop stops at a byte that is no trailing one where one is due. -/
def reason (c : UInt8) : Stop := if (lead c).isSome then .undefined else .assertion

/-- A byte that starts a sequence is stored through `NULL` there. -/
def stores (c : UInt8) : List Access := if (lead c).isSome then [.store .null] else []

theorem run_classify_null_of_not (hc : ¬ IsTrailing c) :
    (classify c .null).run s = .error (reason c) { s with log := s.log ++ stores c } := by
  rw [classify_eq, reason, stores]
  rcases lead c with _ | n
  · simp [if_neg hc]
  · rfl

/-! ## The loops -/

/-- The reads of `n` bytes from `i` on. -/
def reads (i n : ℕ) : List Access := (List.range' i n).map .read

theorem reads_succ (i n : ℕ) : reads i (n + 1) = .read i :: reads (i + 1) n := by
  rw [reads, List.range'_succ, List.map_cons]
  rfl

theorem run_readByte (h : buf.drop s.i = b :: rest) :
    (readByte buf).run s = .ok b { s with log := s.log ++ [Access.read s.i] } := by
  have hb : buf[s.i]? = some b := by
    rw [← Nat.add_zero s.i, ← List.getElem?_drop, h]
    rfl
  simp [readByte, EStateM.run_bind, hb]

/-- A round of the loop over the trailing bytes. -/
theorem run_trailing_succ (h : buf.drop (s.i + 1) = c :: rest) :
    (trailing buf (k + 1)).run s =
      (do
        assert ((← classify c .null) = .multiTrailing)
        trailing buf k : Prog State Unit).run
        { s with i := s.i + 1, log := s.log ++ [Access.read (s.i + 1)] } := by
  rw [trailing, EStateM.run_bind, EStateM.run_modify]
  dsimp only
  rw [EStateM.run_bind, run_readByte h]

/-- The loop over the trailing bytes passes those that are there. -/
theorem run_trailing (hts : ∀ t ∈ ts, IsTrailing t) (h : buf.drop (s.i + 1) = ts ++ rest) :
    (trailing buf (ts.length + k)).run s =
      (trailing buf k).run
        { s with i := s.i + ts.length, log := s.log ++ reads (s.i + 1) ts.length } := by
  induction ts generalizing s with
  | nil => simp [reads]
  | cons t ts ih =>
    rw [List.forall_mem_cons] at hts
    have hrest : buf.drop (s.i + 1 + 1) = ts ++ rest := by
      rw [← List.drop_drop, h]
      rfl
    rw [List.length_cons, Nat.add_right_comm, run_trailing_succ h, EStateM.run_bind,
      run_classify_null_of_trailing hts.1]
    simp only [run_assert_bind, if_true]
    rw [ih hts.2 hrest, reads_succ, List.append_assoc, Nat.add_assoc, Nat.add_comm 1]
    rfl

/-- It stops at any other byte. -/
theorem run_trailing_of_not (hc : ¬ IsTrailing c) (h : buf.drop (s.i + 1) = c :: rest) :
    (trailing buf (k + 1)).run s =
      .error (reason c)
        { s with i := s.i + 1, log := s.log ++ [Access.read (s.i + 1)] ++ stores c } := by
  rw [run_trailing_succ h, EStateM.run_bind, run_classify_null_of_not hc]

/-- The loop over the trailing bytes of a sequence that breaks off. -/
theorem run_trailing_of_cut (hts : ∀ t ∈ ts, IsTrailing t) (hc : ¬ IsTrailing c)
    (hn : ts.length < n) (h : buf.drop (s.i + 1) = ts ++ c :: rest) :
    (trailing buf n).run s =
      .error (reason c)
        { s with
          i := s.i + ts.length + 1
          log := s.log ++ reads (s.i + 1) ts.length ++ [.read (s.i + ts.length + 1)] ++
            stores c } := by
  obtain ⟨k, rfl⟩ : ∃ k, n = ts.length + (k + 1) := ⟨n - ts.length - 1, by omega⟩
  have hrest : buf.drop (s.i + ts.length + 1) = c :: rest := by
    rw [Nat.add_right_comm, ← List.drop_drop, h, List.drop_left]
  exact (run_trailing hts h).trans (run_trailing_of_not hc hrest)

theorem run_bump (hn : s.nR = n) (hlt : n + 1 < s.counter.length) :
    bump.run s = .ok () { s with counter := s.counter.modify (n + 1) (· + 1) } := by
  have hdefined : 0 ≤ s.nR + 1 ∧ s.nR + 1 < s.counter.length := by
    rw [hn]
    omega
  have hindex : (s.nR + 1).toNat = n + 1 := by
    rw [hn]
    rfl
  simp [bump, EStateM.run_bind, run_defined_of_true hdefined, hindex]

/-- The rest of a round behind `classify`, for a byte that starts a sequence of `n` more. -/
def finish (buf : List UInt8) (n : ℕ) : Prog State (Unit ⊕ Unit) := do
  trailing buf n
  bump
  modify fun s => { s with i := s.i + 1, nR := -1 }
  return .inl ()

theorem run_finish (hts : ∀ t ∈ ts, IsTrailing t) (h : buf.drop (s.i + 1) = ts ++ rest)
    (hn : s.nR = ts.length) (hlt : ts.length + 1 < s.counter.length) :
    (finish buf ts.length).run s =
      .ok (.inl ())
        { i := s.i + ts.length + 1
          nR := -1
          counter := s.counter.modify (ts.length + 1) (· + 1)
          log := s.log ++ reads (s.i + 1) ts.length } := by
  have hrun := run_trailing (k := 0) hts h
  rw [Nat.add_zero, trailing, EStateM.run_pure] at hrun
  refine run_bind_eq_ok.mpr ⟨(), _, hrun, ?_⟩
  exact run_bind_eq_ok.mpr ⟨(), _, run_bump hn hlt, rfl⟩

theorem run_countBody (hlt : s.i < len) (h : buf.drop s.i = b :: rest)
    (hlead : lead b = some n) :
    (countBody buf len ()).run s =
      (finish buf n).run
        { s with nR := n, log := s.log ++ [Access.read s.i] ++ [Access.store .nR] } := by
  have hle := lead_le hlead
  rw [countBody, EStateM.run_bind, EStateM.run_get]
  simp only [hlt, not_true_eq_false, if_false]
  rw [EStateM.run_bind, run_readByte h]
  dsimp only
  rw [EStateM.run_bind, run_classify_of_lead hlead]
  rcases n with _ | n
  · simp [Class.ofLead, finish, trailing, EStateM.run_bind]
  · have hrange : 1 ≤ ((n + 1 : ℕ) : ℤ) ∧ ((n + 1 : ℕ) : ℤ) ≤ 3 := by omega
    dsimp only [Class.ofLead]
    rw [EStateM.run_bind, EStateM.run_get]
    dsimp only
    rw [run_assert_bind, if_pos hrange]
    rfl

theorem run_countBody_of_not_lt (hlt : ¬ s.i < len) :
    (countBody buf len ()).run s = .ok (.inr ()) s := by
  rw [countBody, EStateM.run_bind, EStateM.run_get]
  simp only [hlt, not_false_eq_true, if_true]
  rfl

theorem run_countBody_of_stray (hlt : s.i < len) (h : buf.drop s.i = b :: rest)
    (hb : lead b = none) :
    (countBody buf len ()).run s =
      .error .assertion { s with log := s.log ++ [Access.read s.i] } := by
  rw [countBody, EStateM.run_bind, EStateM.run_get]
  simp only [hlt, not_true_eq_false, if_false]
  rw [EStateM.run_bind, run_readByte h]
  dsimp only
  rw [EStateM.run_bind, run_classify_of_stray hb]

/-- A round that a sequence breaks off in. -/
theorem run_countBody_of_cut (hlt : s.i < len)
    (h : buf.drop s.i = b :: (ts ++ c :: rest)) (hlead : lead b = some n) (hn : ts.length < n)
    (hts : ∀ t ∈ ts, IsTrailing t) (hc : ¬ IsTrailing c) :
    (countBody buf len ()).run s =
      .error (reason c)
        { s with
          i := s.i + ts.length + 1
          nR := n
          log := s.log ++ [.read s.i] ++ [.store .nR] ++ reads (s.i + 1) ts.length ++
            [.read (s.i + ts.length + 1)] ++ stores c } := by
  have hrest : buf.drop (s.i + 1) = ts ++ c :: rest := by
    rw [← List.drop_drop, h]
    rfl
  rw [run_countBody hlt h hlead, finish, EStateM.run_bind, run_trailing_of_cut hts hc hn]
  exact hrest

end Utf8Count
