import Mathlib.Algebra.Group.Int.Defs
import Mathlib.Algebra.Group.Nat.Defs
import Mathlib.Data.Int.Notation
import Mathlib.Data.List.Forall2
import Mathlib.Data.Nat.Notation

/-!
# Length-prefixed records

Records in memory that start with their own length, each at the next multiple of four behind the
one before. A pointer into a block is the rest of the block from there on.

## Main definitions

* `align`: the length of a record with its padding, computed under a 32-bit mask.
* `Format`, `Format.walk`: a kind of record, and the loop over the records of a block.
* `Format.Holds`: the memory behind a pointer starts with given records.

## Main results

* `Format.walk_of_holds`: the loop finds exactly the records that the memory holds.
* `Format.Holds.append`, `Format.Holds.congr`: records behind records, and what they depend on.
-/

namespace Records

/-! ## Alignment -/

/-- `((n)+4U-1) & ~(4U-1)`: the mask has 32 bits, however wide `n` is. -/
def align (n : ℕ) : ℕ := (n + 3) % 2 ^ 32 / 4 * 4

theorem align_mod_four (n : ℕ) : align n % 4 = 0 := Nat.mul_mod_left _ 4

variable {n m : ℕ}

theorem le_align (h : n + 3 < 2 ^ 32) : n ≤ align n := by
  unfold align
  omega

theorem align_lt (n : ℕ) : align n < n + 4 := by
  unfold align
  omega

@[simp] theorem align_of_mod (h : n % 4 = 0) (hn : n < 2 ^ 32) : align n = n := by
  unfold align
  omega

/-! ## Walking over records -/

/-- A kind of record. -/
structure Format where
  /-- The size of the header. -/
  header : ℕ
  header_pos : 0 < header
  /-- The length that a record states, its header included. -/
  lengthAt : List UInt8 → ℕ
  /-- The length is read from the header. -/
  lengthAt_congr : ∀ p p', p.take header = p'.take header → lengthAt p = lengthAt p'

namespace Format

variable {f : Format} {p p' r : List UInt8} {rs rs' : List (List UInt8)} {rem : ℤ}

/-- The macro `OK`: there is a record in the remaining bytes. -/
def Ok (f : Format) (p : List UInt8) (rem : ℤ) : Prop :=
  (f.header : ℤ) ≤ rem ∧ f.header ≤ f.lengthAt p ∧ (f.lengthAt p : ℤ) ≤ rem

instance (f : Format) (p : List UInt8) (rem : ℤ) : Decidable (f.Ok p rem) :=
  inferInstanceAs (Decidable (_ ∧ _ ∧ _))

/-- At most `fuel` rounds of the loop over the records. -/
def walkGo (f : Format) : ℕ → List UInt8 → ℤ → List (List UInt8) × ℤ
  | 0, _, rem => ([], rem)
  | fuel + 1, p, rem =>
    if f.Ok p rem then
      let (ps, rem') := f.walkGo fuel (p.drop (align (f.lengthAt p))) (rem - align (f.lengthAt p))
      (p :: ps, rem')
    else ([], rem)

/-- The loop `for (; OK(p,rem); p = NEXT(p,rem))`: the pointers it goes through, and the bytes that
are left. -/
def walk (f : Format) (p : List UInt8) (rem : ℤ) : List (List UInt8) × ℤ :=
  f.walkGo rem.toNat p rem

theorem walkGo_of_not_ok {fuel : ℕ} (h : ¬ f.Ok p rem) : f.walkGo fuel p rem = ([], rem) := by
  cases fuel with
  | zero => rfl
  | succ fuel => rw [walkGo, if_neg h]

/-- More rounds than there are bytes change nothing. -/
theorem walkGo_eq_walk {fuel : ℕ} (hfuel : rem.toNat ≤ fuel) (hrem : rem + 3 < 2 ^ 32) :
    f.walkGo fuel p rem = f.walk p rem := by
  unfold walk
  generalize hk : rem.toNat = k at hfuel
  induction k using Nat.strongRecOn generalizing fuel p rem with
  | ind k ih =>
    by_cases hok : f.Ok p rem
    · have hheader := f.header_pos
      have hle : f.lengthAt p ≤ align (f.lengthAt p) := le_align (by have := hok.2.2; omega)
      obtain ⟨hok₁, hok₂, hok₃⟩ := id hok
      obtain ⟨fuel, rfl⟩ : ∃ i, fuel = i + 1 := ⟨fuel - 1, by omega⟩
      obtain ⟨k, rfl⟩ : ∃ i, k = i + 1 := ⟨k - 1, by omega⟩
      rw [walkGo, walkGo, if_pos hok, if_pos hok,
        ih _ (by omega) (by omega) rfl (by omega : _ ≤ fuel),
        ih _ (by omega) (by omega) rfl (by omega : _ ≤ k)]
    · rw [walkGo_of_not_ok hok, walkGo_of_not_ok hok]

theorem walk_of_not_ok (h : ¬ f.Ok p rem) : f.walk p rem = ([], rem) := walkGo_of_not_ok h

theorem walk_of_ok (h : f.Ok p rem) (hrem : rem + 3 < 2 ^ 32) :
    f.walk p rem =
      (p :: (f.walk (p.drop (align (f.lengthAt p))) (rem - align (f.lengthAt p))).1,
        (f.walk (p.drop (align (f.lengthAt p))) (rem - align (f.lengthAt p))).2) := by
  have hheader := f.header_pos
  have hle : f.lengthAt p ≤ align (f.lengthAt p) := le_align (by have := h.2.2; omega)
  obtain ⟨h₁, h₂, h₃⟩ := id h
  obtain ⟨k, hk⟩ : ∃ k, rem.toNat = k + 1 := ⟨rem.toNat - 1, by omega⟩
  rw [walk, hk, walkGo, if_pos h, walkGo_eq_walk (by omega) (by omega)]

/-- A pointer that the loop goes through points into the block, with room for a header. -/
theorem drop_of_mem_walk (hrem : rem + 3 < 2 ^ 32) {q : List UInt8} (hq : q ∈ (f.walk p rem).1) :
    ∃ k : ℕ, q = p.drop k ∧ (k : ℤ) + f.header ≤ rem := by
  generalize hn : rem.toNat = n
  induction n using Nat.strongRecOn generalizing p rem with
  | ind n ih =>
    by_cases hok : f.Ok p rem
    · rw [walk_of_ok hok hrem] at hq
      rcases List.mem_cons.mp hq with rfl | hq
      · exact ⟨0, rfl, by simpa using hok.1⟩
      · have hheader := f.header_pos
        have hle : f.lengthAt p ≤ align (f.lengthAt p) := le_align (by have := hok.2.2; omega)
        obtain ⟨h₁, h₂, h₃⟩ := id hok
        obtain ⟨k, rfl, hk⟩ := ih _ (by omega) (by omega) hq rfl
        exact ⟨align (f.lengthAt p) + k, List.drop_drop, by push_cast; omega⟩
    · rw [walk_of_not_ok hok] at hq
      cases hq

/-! ## What the memory holds -/

/-- The pointer points to the record. -/
def PointsTo (f : Format) (p r : List UInt8) : Prop :=
  r <+: p ∧ f.lengthAt p = r.length ∧ f.header ≤ r.length

/-- The `n` bytes behind the pointer are the records with their padding. -/
inductive Holds (f : Format) : List UInt8 → List (List UInt8) → ℕ → Prop
  | nil (p : List UInt8) : Holds f p [] 0
  | cons {p r : List UInt8} {rs : List (List UInt8)} {n : ℕ} (hr : f.PointsTo p r)
      (hlen : r.length + 3 < 2 ^ 32) (h : Holds f (p.drop (align r.length)) rs n) :
      Holds f p (r :: rs) (align r.length + n)

/-- The loop finds the records that the memory holds, and goes on behind them. -/
theorem walk_add_of_holds (h : f.Holds p rs n) (hn : n + m + 3 < 2 ^ 32) :
    ∃ ps, f.walk p ((n + m : ℕ) : ℤ) =
        (ps ++ (f.walk (p.drop n) m).1, (f.walk (p.drop n) m).2) ∧
      List.Forall₂ f.PointsTo ps rs := by
  induction h with
  | nil p => exact ⟨[], by simp, .nil⟩
  | @cons p r rs n hr hlen _ ih =>
    obtain ⟨ps, hps, hrs⟩ := ih (by omega)
    have hle := le_align hlen
    obtain ⟨-, hlengthAt, hheader⟩ := id hr
    -- the header and the record are within what is left
    have hok : f.Ok p ((align r.length + n + m : ℕ) : ℤ) := by
      refine ⟨?_, ?_, ?_⟩ <;> omega
    refine ⟨p :: ps, ?_, .cons hr hrs⟩
    rw [walk_of_ok hok (by omega), hlengthAt,
      show ((align r.length + n + m : ℕ) : ℤ) - align r.length = (n + m : ℕ) by omega, hps,
      List.drop_drop]
    rfl

/-- The loop finds exactly the records that the memory holds, and leaves nothing. -/
theorem walk_of_holds (h : f.Holds p rs n) (hn : n + 3 < 2 ^ 32) :
    ∃ ps, f.walk p n = (ps, 0) ∧ List.Forall₂ f.PointsTo ps rs := by
  obtain ⟨ps, hwalk, hps⟩ := walk_add_of_holds (m := 0) h hn
  have hend : f.walk (p.drop n) ((0 : ℕ) : ℤ) = ([], 0) := walk_of_not_ok fun hok => by
    have := f.header_pos
    have := hok.1
    omega
  rw [hend, List.append_nil] at hwalk
  exact ⟨ps, hwalk, hps⟩

/-- Records behind records. -/
theorem Holds.append (h : f.Holds p rs n) (h' : f.Holds (p.drop n) rs' m) :
    f.Holds p (rs ++ rs') (n + m) := by
  induction h with
  | nil p => simpa using h'
  | cons hr hlen _ ih =>
    rw [List.drop_drop] at ih
    rw [Nat.add_assoc]
    exact .cons hr hlen (ih h')

/-- What the first `n` bytes hold depends on them only. -/
theorem Holds.congr (h : f.Holds p rs n) (hp : p.take n = p'.take n) :
    f.Holds p' rs n := by
  induction h generalizing p' with
  | nil p => exact .nil p'
  | @cons p r rs n hr hlen _ ih =>
    obtain ⟨hpre, hlengthAt, hheader⟩ := hr
    have hle := le_align hlen
    have htake (k : ℕ) (hk : k ≤ align r.length + n) : p.take k = p'.take k := by
      rw [← Nat.min_eq_left hk, ← List.take_take, hp, List.take_take]
    refine .cons ⟨?_, ?_, hheader⟩ hlen (ih ?_)
    · rw [List.prefix_iff_eq_take] at hpre ⊢
      rw [← htake r.length (by omega)]
      exact hpre
    · rw [← hlengthAt]
      exact (f.lengthAt_congr _ _ (htake _ (by omega))).symm
    · rw [List.take_drop, List.take_drop, hp]

end Format

end Records
