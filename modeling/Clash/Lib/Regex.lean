import Mathlib.Computability.RegularExpressions
import Clash.Lib.CString

/-!
# regcomp and regexec

Regular expressions as POSIX searches for them: `regexec` reports the leftmost match, and the
longest one that starts there.

What an expression matches is Mathlib's `RegularExpression`. Of the syntax of extended regular
expressions, `regcomp` reads a bracket expression with a `+` behind it.

## Main definitions

* `bracket`, `oneOrMore`: expressions for one of several characters, and for repetition.
* `regexec`: the search for a match.
* `regcomp`: the expression that a pattern stands for.

## Main results

* `regexec_eq_whole_iff`: the match that is found is the whole string exactly if the expression
  matches the whole string.
* `rmatch_oneOrMore_bracket`: which strings a repeated bracket expression matches.
-/

open RegularExpression CString

namespace Regex

section Search

variable {α : Type} [DecidableEq α]

/-! ## Expressions -/

/-- One of the characters. -/
def bracket : List α → RegularExpression α
  | [] => 0
  | c :: cs => char c + bracket cs

/-- One or more times in a row. -/
def oneOrMore (r : RegularExpression α) : RegularExpression α := r * star r

theorem rmatch_bracket {cs s : List α} : (bracket cs).rmatch s ↔ ∃ c ∈ cs, s = [c] := by
  induction cs with
  | nil =>
    rw [bracket, zero_rmatch]
    simp
  | cons c cs ih =>
    rw [bracket, add_rmatch_iff, char_rmatch_iff, ih]
    simp

/-- A repeated bracket expression matches the strings of its characters that are not empty. -/
theorem rmatch_oneOrMore_bracket {cs s : List α} :
    (oneOrMore (bracket cs)).rmatch s ↔ s ≠ [] ∧ ∀ c ∈ s, c ∈ cs := by
  unfold oneOrMore
  rw [mul_rmatch_iff]
  constructor
  · rintro ⟨first, rest, rfl, hfirst, hrest⟩
    obtain ⟨c, hc, rfl⟩ := rmatch_bracket.mp hfirst
    obtain ⟨parts, rfl, hparts⟩ := (star_rmatch_iff _ _).mp hrest
    refine ⟨List.cons_ne_nil _ _, List.forall_mem_cons.mpr ⟨hc, fun d hd => ?_⟩⟩
    obtain ⟨part, hpart, hd⟩ := List.mem_flatten.mp hd
    obtain ⟨d', hd', rfl⟩ := rmatch_bracket.mp (hparts part hpart).2
    rwa [List.mem_singleton.mp hd]
  · rintro ⟨hne, hs⟩
    obtain ⟨c, rest, rfl⟩ := List.exists_cons_of_ne_nil hne
    obtain ⟨hc, hrest⟩ := List.forall_mem_cons.mp hs
    refine ⟨[c], rest, rfl, rmatch_bracket.mpr ⟨c, hc, rfl⟩, (star_rmatch_iff _ _).mpr ?_⟩
    refine ⟨rest.map fun d => [d], ?_, fun part hpart => ?_⟩
    · rw [← List.flatMap_def, List.flatMap_singleton']
    · obtain ⟨d, hd, rfl⟩ := List.mem_map.mp hpart
      exact ⟨List.cons_ne_nil _ _, rmatch_bracket.mpr ⟨d, hrest d hd, rfl⟩⟩

/-! ## Searching -/

/-- The length of the longest match at the start of a string. -/
def longest (r : RegularExpression α) (s : List α) : Option ℕ :=
  (List.range (s.length + 1)).reverse.find? fun n => r.rmatch (s.take n)

/-- The leftmost match, as `rm_so` and `rm_eo`, and among those the longest one. -/
def regexec (r : RegularExpression α) (s : List α) : Option (ℕ × ℕ) :=
  (List.range (s.length + 1)).findSome? fun so =>
    (longest r (s.drop so)).map fun n => (so, so + n)

theorem longest_eq_length_iff {r : RegularExpression α} {s : List α} :
    longest r s = some s.length ↔ r.rmatch s := by
  unfold longest
  rw [List.range_succ, List.reverse_append, List.reverse_singleton, List.singleton_append,
    List.find?_cons, List.take_length]
  constructor
  · intro h
    by_contra hmatch
    rw [Bool.not_eq_true] at hmatch
    rw [hmatch] at h
    have hmem := List.mem_of_find?_eq_some h
    rw [List.mem_reverse, List.mem_range] at hmem
    exact Nat.lt_irrefl _ hmem
  · intro h
    rw [h]

/-- The match that is found is the whole string exactly if the expression matches it. -/
theorem regexec_eq_whole_iff {r : RegularExpression α} {s : List α} :
    regexec r s = some (0, s.length) ↔ r.rmatch s := by
  unfold regexec
  rw [← longest_eq_length_iff, List.range_succ_eq_map, List.findSome?_cons, List.drop_zero]
  cases hlongest : longest r s with
  | some n => simp
  | none =>
    -- every other match starts behind the start of the string
    constructor
    · intro h
      obtain ⟨so, hso, hmap⟩ := List.exists_of_findSome?_eq_some h
      obtain ⟨so', -, rfl⟩ := List.mem_map.mp hso
      obtain ⟨n, -, hpair⟩ := Option.map_eq_some_iff.mp hmap
      cases hpair
    · nofun

end Search

/-! ## Patterns -/

/-- The characters of a bracket expression: characters and ranges. -/
def bracketItems : CString → List UInt8
  | first :: 45 :: last :: rest =>
    (List.range' first.toNat (last.toNat + 1 - first.toNat)).map UInt8.ofNat ++ bracketItems rest
  | c :: rest => c :: bracketItems rest
  | [] => []

/-- `regcomp` with `REG_EXTENDED`, for a bracket expression with a `+` behind it. -/
def regcomp : CString → Option (RegularExpression UInt8)
  | 91 :: rest =>
    match rest.span (· ≠ 93) with
    | (items, [93, 43]) => some (oneOrMore (bracket (bracketItems items)))
    | _ => none
  | _ => none

end Regex
