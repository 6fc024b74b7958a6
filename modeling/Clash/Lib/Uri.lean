import Mathlib.Data.List.TakeWhile
import Clash.Lib.CString

/-!
# URIs

Splitting a URI with an authority into its parts, by the rules of RFC 3986: the fragment starts
behind the first `#`, the authority stands behind `//` and ends at the first `/` or `?`, the
userinfo ends at `@` and the port starts behind the last `:`.

## Main definitions

* `cut`, `cutLast`: split at the first or last occurrence of a byte.
* `Parts`, `split`: the parts of a URI.

## Main results

* `split_format`: a URI put together from parts without the delimiters that end them is split
  into these parts.
* `split_format_of_slash`: a `/` in the userinfo ends the authority.
-/

namespace Uri

/-- The bytes before and behind the first occurrence of `c`. -/
def cut (c : UInt8) (s : CString) : Option (CString × CString) :=
  match s.dropWhile (· ≠ c) with
  | [] => none
  | _ :: t => some (s.takeWhile (· ≠ c), t)

/-- The bytes before and behind the last occurrence of `c`. -/
def cutLast (c : UInt8) (s : CString) : Option (CString × CString) :=
  (cut c s.reverse).map fun p => (p.2.reverse, p.1.reverse)

/-- The parts of a URI with an authority, a userinfo, a port and a fragment. -/
structure Parts where
  scheme : CString
  userinfo : CString
  host : CString
  port : CString
  fragment : CString
  deriving DecidableEq, Repr

/-- Split a URI into its parts. Path and query are left out. -/
def split (s : CString) : Option Parts := do
  let (s, fragment) ← cut 35 s
  let (scheme, s) ← cut 58 s
  match s with
  | 47 :: 47 :: s =>
    let authority := s.takeWhile fun c => c ≠ 47 ∧ c ≠ 63
    let (userinfo, hostport) ← cut 64 authority
    let (host, port) ← cutLast 58 hostport
    return { scheme, userinfo, host, port, fragment }
  | _ => none

/-- A URI put together from its parts. -/
def format (p : Parts) : CString :=
  p.scheme ++ 58 :: 47 :: 47 :: (p.userinfo ++ 64 :: (p.host ++ 58 :: (p.port ++ 35 :: p.fragment)))

theorem cut_append {c : UInt8} {s : CString} (hs : c ∉ s) (t : CString) :
    cut c (s ++ c :: t) = some (s, t) := by
  have hne : ∀ d ∈ s, decide (d ≠ c) = true := fun d hd =>
    decide_eq_true fun h => hs (h ▸ hd)
  rw [cut, List.dropWhile_append_of_pos hne, List.takeWhile_append_of_pos hne]
  simp

theorem cut_eq_none {c : UInt8} {s : CString} (hs : c ∉ s) : cut c s = none := by
  have hdrop : s.dropWhile (· ≠ c) = [] := by
    rw [List.dropWhile_eq_nil_iff]
    exact fun d hd => decide_eq_true fun h => hs (h ▸ hd)
  rw [cut, hdrop]

theorem cutLast_append {c : UInt8} {t : CString} (ht : c ∉ t) (s : CString) :
    cutLast c (s ++ c :: t) = some (s, t) := by
  have hreverse : (s ++ c :: t).reverse = t.reverse ++ c :: s.reverse := by simp
  rw [cutLast, hreverse, cut_append (by simpa using ht)]
  simp

/-- What is taken from a string ends at the first byte that fails the test. -/
private theorem mem_of_mem_takeWhile_append {f : UInt8 → Bool} {c : UInt8} (hc : f c = false)
    {s t : CString} {d : UInt8} (h : d ∈ (s ++ c :: t).takeWhile f) : d ∈ s := by
  induction s with
  | nil => simp [hc] at h
  | cons b s ih =>
    rw [List.cons_append, List.takeWhile_cons] at h
    split at h
    · rcases List.mem_cons.mp h with rfl | h
      · exact List.mem_cons_self
      · exact List.mem_cons_of_mem _ (ih h)
    · cases h

/-- Parts that contain none of the delimiters in front of which they end. -/
structure Parts.Delimited (p : Parts) : Prop where
  scheme : 58 ∉ p.scheme ∧ 35 ∉ p.scheme
  userinfo : 64 ∉ p.userinfo ∧ 63 ∉ p.userinfo ∧ 35 ∉ p.userinfo
  host : 47 ∉ p.host ∧ 63 ∉ p.host ∧ 35 ∉ p.host
  port : 58 ∉ p.port ∧ 47 ∉ p.port ∧ 63 ∉ p.port ∧ 35 ∉ p.port

section Format

variable {p : Parts} (hp : p.Delimited)

include hp

/-- Splitting a formatted URI gets to its authority. -/
private theorem split_format_eq : split (format p) = (do
    let authority := (p.userinfo ++ 64 :: (p.host ++ 58 :: p.port)).takeWhile
      fun c => c ≠ 47 ∧ c ≠ 63
    let (userinfo, hostport) ← cut 64 authority
    let (host, port) ← cutLast 58 hostport
    return { p with userinfo, host, port }) := by
  -- no part in front of the fragment has a `#`
  have hfragment : cut 35 (format p) =
      some (p.scheme ++ 58 :: 47 :: 47 :: (p.userinfo ++ 64 :: (p.host ++ 58 :: p.port)),
        p.fragment) := by
    have hformat : format p = (p.scheme ++ 58 :: 47 :: 47 ::
        (p.userinfo ++ 64 :: (p.host ++ 58 :: p.port))) ++ 35 :: p.fragment := by
      simp [format]
    rw [hformat]
    refine cut_append ?_ _
    simp [hp.scheme.2, hp.userinfo.2.2, hp.host.2.2, hp.port.2.2.2]
  rw [split, hfragment]
  simp [cut_append hp.scheme.1]

/-- A URI whose userinfo contains no `/` is split into the parts it was put together from. -/
theorem split_format (hslash : 47 ∉ p.userinfo) : split (format p) = some p := by
  have hauthority : (p.userinfo ++ 64 :: (p.host ++ 58 :: p.port)).takeWhile
      (fun c => c ≠ 47 ∧ c ≠ 63) = p.userinfo ++ 64 :: (p.host ++ 58 :: p.port) := by
    rw [List.takeWhile_eq_self_iff]
    intro c hc
    rw [decide_eq_true_eq]
    simp only [List.mem_append, List.mem_cons] at hc
    constructor
    · rintro rfl
      simp [hslash, hp.host.1, hp.port.2.1] at hc
    · rintro rfl
      simp [hp.userinfo.2.1, hp.host.2.1, hp.port.2.2.1] at hc
  rw [split_format_eq hp]
  simp only [hauthority, cut_append hp.userinfo.1, cutLast_append hp.port.1, Option.bind_eq_bind,
    Option.bind_some]
  rfl

/-- A `/` in the userinfo ends the authority in front of its `@`. -/
theorem split_format_of_slash (hslash : 47 ∈ p.userinfo) : split (format p) = none := by
  obtain ⟨s, t, ht⟩ := List.append_of_mem hslash
  have hauthority : 64 ∉ (p.userinfo ++ 64 :: (p.host ++ 58 :: p.port)).takeWhile
      fun c => c ≠ 47 ∧ c ≠ 63 := by
    rw [ht, List.append_assoc, List.cons_append]
    intro h
    have hs : 64 ∈ s := mem_of_mem_takeWhile_append (by decide) h
    exact hp.userinfo.1 (ht ▸ List.mem_append_left _ hs)
  rw [split_format_eq hp]
  simp only [cut_eq_none hauthority, Option.bind_eq_bind, Option.bind_none]

end Format

end Uri
