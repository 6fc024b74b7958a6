import Mathlib.Data.List.Infix
import Mathlib.InformationTheory.Coding.UniquelyDecodable

/-!
# Words whose first symbol says how long they are

The first symbol of a word says how many symbols follow, and each of these is of a kind of its own.
A list of symbols is a row of such words in one way at most.

## Main definitions

* `words`: the words of such a code.
* `Stuck`: a list that no word starts.

## Main results

* `uniquelyDecodable_words`: the words in a row can be told apart.
* `exists_split`: every list is a row of words up to a place where no word starts.
-/

open InformationTheory

namespace LeadCode

variable {α : Type*}

/-- A symbol and as many trailing symbols as it asks for. -/
def words (lead : α → Option ℕ) (Trailing : α → Prop) : Set (List α) :=
  {w | ∃ b ts, w = b :: ts ∧ lead b = some ts.length ∧ ∀ t ∈ ts, Trailing t}

/-- No word starts here: the first symbol is not one that starts a word, or the list ends within the
word, or a symbol of another kind cuts it off. -/
inductive Stuck (lead : α → Option ℕ) (Trailing : α → Prop) : List α → Prop
  | stray {b : α} {rest : List α} (hlead : lead b = none) : Stuck lead Trailing (b :: rest)
  | short {b : α} {n : ℕ} {ts : List α} (hlead : lead b = some n) (hlt : ts.length < n)
      (hts : ∀ t ∈ ts, Trailing t) : Stuck lead Trailing (b :: ts)
  | cut {b c : α} {n : ℕ} {ts rest : List α} (hlead : lead b = some n) (hlt : ts.length < n)
      (hts : ∀ t ∈ ts, Trailing t) (hc : ¬ Trailing c) :
      Stuck lead Trailing (b :: (ts ++ c :: rest))

variable {lead : α → Option ℕ} {Trailing : α → Prop} {u v w s : List α}

theorem ne_nil_of_mem (h : w ∈ words lead Trailing) : w ≠ [] := by
  obtain ⟨b, ts, rfl, -⟩ := h
  exact List.cons_ne_nil b ts

theorem length_pos_of_mem (h : w ∈ words lead Trailing) : 0 < w.length :=
  List.length_pos_of_ne_nil (ne_nil_of_mem h)

/-- There are at least as many symbols as words. -/
theorem length_le_length_flatten {ws : List (List α)} (h : ∀ w ∈ ws, w ∈ words lead Trailing) :
    ws.length ≤ ws.flatten.length := by
  induction ws with
  | nil => exact Nat.le_refl 0
  | cons w ws ih =>
    rw [List.forall_mem_cons] at h
    have hpos := length_pos_of_mem h.1
    have hle := ih h.2
    rw [List.length_cons, List.flatten_cons, List.length_append]
    omega

/-- Two words at the start of one list are the same. -/
theorem eq_of_append_eq (hu : u ∈ words lead Trailing) (hv : v ∈ words lead Trailing)
    {r s : List α} (h : u ++ r = v ++ s) : u = v := by
  obtain ⟨b, ts, rfl, hlead, -⟩ := hu
  obtain ⟨b', ts', rfl, hlead', -⟩ := hv
  obtain rfl : b = b' := (List.cons.inj h).1
  -- the same first symbol asks for the same number of symbols
  have hlength : ts.length = ts'.length := Option.some.inj (hlead.symm.trans hlead')
  have hlength' : (b :: ts).length = (b :: ts').length := congrArg (· + 1) hlength
  exact (List.append_inj h hlength').1

theorem uniquelyDecodable_words : UniquelyDecodable (words lead Trailing) := by
  intro us vs hus hvs h
  -- the first words are equal, as neither is a proper prefix of the other
  induction us generalizing vs with
  | nil =>
    cases vs with
    | nil => rfl
    | cons v vs =>
      rw [List.forall_mem_cons] at hvs
      rw [List.flatten_nil, List.flatten_cons] at h
      exact absurd (List.append_eq_nil_iff.mp h.symm).1 (ne_nil_of_mem hvs.1)
  | cons u us ih =>
    rw [List.forall_mem_cons] at hus
    cases vs with
    | nil =>
      rw [List.flatten_nil, List.flatten_cons] at h
      exact absurd (List.append_eq_nil_iff.mp h).1 (ne_nil_of_mem hus.1)
    | cons v vs =>
      rw [List.forall_mem_cons] at hvs
      rw [List.flatten_cons, List.flatten_cons] at h
      obtain rfl := eq_of_append_eq hus.1 hvs.1 h
      rw [ih vs hus.2 hvs.2 (List.append_cancel_left h)]

/-- The trailing symbols that are asked for are there, or some kept off by the end of the list or by
a symbol of another kind. -/
theorem exists_trailing (Trailing : α → Prop) (n : ℕ) (s : List α) :
    ∃ ts rest, s = ts ++ rest ∧ (∀ t ∈ ts, Trailing t) ∧
      (ts.length = n ∨ ts.length < n ∧
        (rest = [] ∨ ∃ c rest', rest = c :: rest' ∧ ¬ Trailing c)) := by
  induction n generalizing s with
  | zero => exact ⟨[], s, rfl, List.forall_mem_nil _, .inl rfl⟩
  | succ n ih =>
    rcases s with _ | ⟨t, s⟩
    · exact ⟨[], [], rfl, List.forall_mem_nil _, .inr ⟨Nat.succ_pos n, .inl rfl⟩⟩
    by_cases ht : Trailing t
    · obtain ⟨ts, rest, rfl, hts, hrest⟩ := ih s
      refine ⟨t :: ts, rest, rfl, List.forall_mem_cons.mpr ⟨ht, hts⟩, ?_⟩
      rw [List.length_cons, Nat.add_right_cancel_iff, Nat.add_lt_add_iff_right]
      exact hrest
    · exact ⟨[], t :: s, rfl, List.forall_mem_nil _, .inr ⟨Nat.succ_pos n, .inr ⟨t, s, rfl, ht⟩⟩⟩

/-- A list starts with a word, unless it is empty or none starts there. -/
theorem exists_word (lead : α → Option ℕ) (Trailing : α → Prop) (s : List α) :
    s = [] ∨ Stuck lead Trailing s ∨ ∃ w ∈ words lead Trailing, ∃ rest, s = w ++ rest := by
  rcases s with _ | ⟨b, s⟩
  · exact .inl rfl
  right
  rcases hlead : lead b with _ | n
  · exact .inl (.stray hlead)
  obtain ⟨ts, rest, rfl, hts, rfl | ⟨hlt, rfl | ⟨c, rest, rfl, hc⟩⟩⟩ := exists_trailing Trailing n s
  · exact .inr ⟨b :: ts, ⟨b, ts, rfl, hlead, hts⟩, rest, rfl⟩
  · rw [List.append_nil]
    exact .inl (.short hlead hlt hts)
  · exact .inl (.cut hlead hlt hts hc)

/-- Every list is a row of words up to its end, or up to a place where no word starts. -/
theorem exists_split (lead : α → Option ℕ) (Trailing : α → Prop) (s : List α) :
    ∃ (ws : List (List α)) (rest : List α), (∀ w ∈ ws, w ∈ words lead Trailing) ∧
      s = ws.flatten ++ rest ∧ (rest = [] ∨ Stuck lead Trailing rest) := by
  induction hn : s.length using Nat.strong_induction_on generalizing s with
  | _ n ih =>
    rcases exists_word lead Trailing s with hs | hs | ⟨w, hw, rest, rfl⟩
    · exact ⟨[], s, List.forall_mem_nil _, rfl, .inl hs⟩
    · exact ⟨[], s, List.forall_mem_nil _, rfl, .inr hs⟩
    · have hlt : rest.length < n := by
        have hpos := length_pos_of_mem hw
        rw [← hn, List.length_append]
        omega
      obtain ⟨ws, rest', hws, rfl, hrest'⟩ := ih _ hlt rest rfl
      refine ⟨w :: ws, rest', List.forall_mem_cons.mpr ⟨hw, hws⟩, ?_, hrest'⟩
      rw [List.flatten_cons, List.append_assoc]

end LeadCode
