import Clash.Lib.Termination
import Clash.Convert.Header
import Clash.Convert.Skipping
import Clash.Profile.Search

/-!
# Whether the token loops end

The scanner goes on for ever behind the end of the stream, and none of the loops looks for this
end. Each loop ends only by what it looks for, or when the scanner reports an error.

## Main definitions

* `HeaderAhead`, `EndAhead`: the stream still holds what the loop looks for.
* `Strays`: the search gets to an entry without an end, or to one whose first key has no text.

## Main results

* `settles_iff`: when each of the loops ends.
-/

open CProg CString Yaml

namespace Yaml2Profile

open Convert (assertTokenType skipHeader skipHeaderBody skipNode skipNodeBody passes proxiesToken)

/-- A key `proxies` is still to come, at a place where the header loop looks. -/
def HeaderAhead (ts : List Token) : Prop :=
  ∃ header rest, ts = header ++ .key :: proxiesToken :: rest ∧ passes header = true

/-- A `BLOCK_END` is still to come that neither one of `lean` open mappings nor a mapping that
starts in between accounts for. -/
def EndAhead (lean : ℕ) (ts : List Token) : Prop :=
  ∃ consumed rest, ts = consumed ++ rest ∧
    consumed.count .blockEnd = consumed.count .blockMappingStart + lean + 1

variable {ts : List Token} {b : Bool} {parser : Scanner}

/-- A scanner that does not fail yields a token, behind the end of the stream too. -/
theorem run_scan_of_sound (ts : List Token) :
    ∃ t ts', scan.run ⟨ts, false⟩ = .ok t ⟨ts', false⟩ := by
  rcases ts with _ | ⟨t, ts⟩
  · exact ⟨_, _, rfl⟩
  · exact ⟨_, _, rfl⟩

/-! ## The header -/

theorem headerAhead_cons_of_ne {t : Token} (ht : t ≠ .key) :
    HeaderAhead (t :: ts) → HeaderAhead ts := by
  rintro ⟨header, rest, hts, hheader⟩
  rcases header with _ | ⟨t', header⟩
  · exact absurd (List.cons.inj hts).1 ht
  · obtain ⟨rfl, rfl⟩ := List.cons.inj hts
    rw [Convert.passes_cons_of_ne ht] at hheader
    exact ⟨header, rest, rfl, hheader⟩

theorem headerAhead_key_cons {t : Token} (ht : t ≠ proxiesToken) :
    HeaderAhead (.key :: t :: ts) → HeaderAhead ts := by
  rintro ⟨header, rest, hts, hheader⟩
  rcases header with _ | ⟨t₀, _ | ⟨t₁, header⟩⟩
  · exact absurd (List.cons.inj (List.cons.inj hts).2).1 ht
  · obtain rfl : Token.key = t₀ := (List.cons.inj hts).1
    cases hheader
  · obtain ⟨hkey, htail⟩ := List.cons.inj hts
    obtain ⟨rfl, rfl⟩ := List.cons.inj htail
    rw [← hkey, Convert.passes_key_cons, Bool.and_eq_true] at hheader
    exact ⟨header, rest, rfl, hheader.2⟩

/-- A key and its text are two tokens. -/
theorem two_le_length_of_headerAhead (h : HeaderAhead ts) : 2 ≤ ts.length := by
  obtain ⟨header, rest, rfl, -⟩ := h
  rw [List.length_append, List.length_cons, List.length_cons]
  omega

/-- A round of the header loop leaves the loop or takes a token, as long as the scanner will fail
or the key is still to come. -/
theorem decreases_skipHeaderBody :
    Decreases skipHeaderBody (fun _ parser => parser.broken = true ∨ HeaderAhead parser.tokens)
      fun parser => parser.tokens.length := by
  rintro _ ⟨ts, b⟩ hahead
  -- without a token the key is not to come, so the scanner fails
  rcases ts with _ | ⟨t, ts⟩
  · rcases hahead with hbroken | hahead
    · obtain rfl : b = true := hbroken
      exact .inr (.inl ⟨_, rfl⟩)
    · exact absurd (two_le_length_of_headerAhead hahead) (by simp)
  -- a key goes with the token behind it, any other token alone
  by_cases ht : t = .key
  · subst ht
    rcases ts with _ | ⟨t, ts⟩
    · rcases hahead with hbroken | hahead
      · obtain rfl : b = true := hbroken
        exact .inr (.inl ⟨_, rfl⟩)
      · exact absurd (two_le_length_of_headerAhead hahead) (by simp)
    by_cases ht : t = proxiesToken
    · subst ht
      exact .inl ⟨_, _, Convert.run_skipHeaderBody_proxies⟩
    · refine .inr (.inr ⟨(), _, Convert.run_skipHeaderBody_of_ne_proxies ht,
        hahead.imp_right (headerAhead_key_cons ht), ?_⟩)
      simp
  · refine .inr (.inr ⟨(), _, Convert.run_skipHeaderBody_of_ne_key ht,
      hahead.imp_right (headerAhead_cons_of_ne ht), ?_⟩)
    simp

/-- A round of the header loop returns unless the scanner fails. -/
theorem skipHeaderBody_returns (u : Unit) (ts : List Token) :
    ∃ r parser, (skipHeaderBody u).run ⟨ts, false⟩ = .ok r parser ∧ parser.broken = false := by
  obtain ⟨t, ts₁, hscan⟩ := run_scan_of_sound ts
  rw [skipHeaderBody, EStateM.run_bind, hscan]
  dsimp only
  split_ifs
  · obtain ⟨t₂, ts₂, hscan₂⟩ := run_scan_of_sound ts₁
    rw [EStateM.run_bind, hscan₂]
    dsimp only
    split_ifs
    · exact ⟨_, _, rfl, rfl⟩
    · exact ⟨_, _, rfl, rfl⟩
  · exact ⟨_, _, rfl, rfl⟩

theorem avoids_skipHeader (n : ℕ) : Avoids .assertion (skipHeader n) ⟨ts, false⟩ := by
  refine avoids_loop_of_ok (by decide) (Q := fun parser => parser.broken = false) ?_ rfl n
  rintro u ⟨ts, b⟩ hsound
  obtain rfl : b = false := hsound
  exact skipHeaderBody_returns u ts

/-- The header loop ends exactly if the scanner fails or a key `proxies` is still to come. -/
theorem settles_skipHeader_iff :
    Settles skipHeader ⟨ts, b⟩ ↔ b = true ∨ HeaderAhead ts := by
  constructor
  · rintro ⟨n, ⟨_, parser, hrun⟩ | ⟨parser, hrun⟩⟩
    · obtain ⟨header, hts, hheader⟩ := Convert.passes_of_run_skipHeader hrun
      exact .inr ⟨header, parser.tokens, hts, hheader⟩
    · rcases b with _ | _
      · exact absurd hrun (avoids_skipHeader n parser)
      · exact .inl rfl
  · intro h
    exact ⟨ts.length + 1, settled_loop decreases_skipHeaderBody h (Nat.lt_succ_self _)⟩

/-! ## The rest of a node -/

theorem not_endAhead_nil (lean : ℕ) : ¬ EndAhead lean [] := by
  rintro ⟨consumed, rest, hts, hcount⟩
  obtain ⟨rfl, -⟩ := List.append_eq_nil_iff.mp hts.symm
  simp at hcount

/-- The end that is to come behind a token that neither starts a mapping nor ends a block. -/
theorem endAhead_cons_of_ne {lean : ℕ} {t : Token} (hstart : t ≠ .blockMappingStart)
    (hend : t ≠ .blockEnd) (h : EndAhead lean (t :: ts)) : EndAhead lean ts := by
  obtain ⟨_ | ⟨t', consumed⟩, rest, hts, hcount⟩ := h
  · simp at hcount
  · obtain ⟨rfl, rfl⟩ := List.cons.inj hts
    rw [List.count_cons_of_ne hend, List.count_cons_of_ne hstart] at hcount
    exact ⟨consumed, rest, rfl, hcount⟩

theorem endAhead_mappingStart {lean : ℕ} (h : EndAhead lean (.blockMappingStart :: ts)) :
    EndAhead (lean + 1) ts := by
  obtain ⟨_ | ⟨t', consumed⟩, rest, hts, hcount⟩ := h
  · simp at hcount
  · obtain ⟨rfl, rfl⟩ := List.cons.inj hts
    rw [List.count_cons_of_ne (by decide), List.count_cons_self] at hcount
    exact ⟨consumed, rest, rfl, by omega⟩

theorem endAhead_blockEnd {lean : ℕ} (h : EndAhead (lean + 1) (.blockEnd :: ts)) :
    EndAhead lean ts := by
  obtain ⟨_ | ⟨t', consumed⟩, rest, hts, hcount⟩ := h
  · simp at hcount
  · obtain ⟨rfl, rfl⟩ := List.cons.inj hts
    rw [List.count_cons_self, List.count_cons_of_ne (by decide)] at hcount
    exact ⟨consumed, rest, rfl, by omega⟩

/-- A round of `skip_node` takes a token, as long as the scanner will fail or the end is still to
come. -/
theorem decreases_skipNodeBody :
    Decreases skipNodeBody (fun lean parser => parser.broken = true ∨ EndAhead lean parser.tokens)
      fun parser => parser.tokens.length := by
  rintro lean ⟨_ | ⟨t, ts⟩, b⟩ hahead
  · rcases hahead with hbroken | hahead
    · obtain rfl : b = true := hbroken
      exact .inr (.inl ⟨_, rfl⟩)
    · exact absurd hahead (not_endAhead_nil lean)
  by_cases hstart : t = .blockMappingStart
  · subst hstart
    exact .inr (.inr ⟨lean + 1, _, Convert.run_skipNodeBody_mappingStart lean,
      hahead.imp_right endAhead_mappingStart, Nat.lt_succ_self _⟩)
  by_cases hend : t = .blockEnd
  · subst hend
    rcases lean with _ | lean
    · exact .inl ⟨_, _, Convert.run_skipNodeBody_blockEnd_zero⟩
    · exact .inr (.inr ⟨lean, _, Convert.run_skipNodeBody_blockEnd lean,
        hahead.imp_right endAhead_blockEnd, Nat.lt_succ_self _⟩)
  · exact .inr (.inr ⟨lean, _, Convert.run_skipNodeBody_of_ne hstart hend lean,
      hahead.imp_right (endAhead_cons_of_ne hstart hend), Nat.lt_succ_self _⟩)

/-- The assertion of `skip_node` holds: it is made when the counter is not zero. -/
theorem skipNodeBody_returns (lean : ℕ) (ts : List Token) :
    ∃ r parser, (skipNodeBody lean).run ⟨ts, false⟩ = .ok r parser ∧ parser.broken = false := by
  rcases ts with _ | ⟨t, ts⟩
  · exact ⟨_, _, rfl, rfl⟩
  by_cases hstart : t = .blockMappingStart
  · subst hstart
    exact ⟨_, _, Convert.run_skipNodeBody_mappingStart lean, rfl⟩
  by_cases hend : t = .blockEnd
  · subst hend
    rcases lean with _ | lean
    · exact ⟨_, _, Convert.run_skipNodeBody_blockEnd_zero, rfl⟩
    · exact ⟨_, _, Convert.run_skipNodeBody_blockEnd lean, rfl⟩
  · exact ⟨_, _, Convert.run_skipNodeBody_of_ne hstart hend lean, rfl⟩

theorem avoids_skipNode (n lean : ℕ) : Avoids .assertion (skipNode n lean) ⟨ts, false⟩ := by
  refine avoids_loop_of_ok (by decide) (Q := fun parser => parser.broken = false) ?_ rfl n
  rintro lean ⟨ts, b⟩ hsound
  obtain rfl : b = false := hsound
  exact skipNodeBody_returns lean ts

/-- `skip_node` ends exactly if the scanner fails or the end of the node is still to come. -/
theorem settles_skipNode_iff (lean : ℕ) :
    Settles (skipNode · lean) ⟨ts, b⟩ ↔ b = true ∨ EndAhead lean ts := by
  constructor
  · rintro ⟨n, ⟨_, parser, hrun⟩ | ⟨parser, hrun⟩⟩
    · obtain ⟨consumed, hts, hcount⟩ := Convert.counts_of_run_skipNode hrun
      exact .inr ⟨consumed, parser.tokens, hts, hcount⟩
    · rcases b with _ | _
      · exact absurd hrun (avoids_skipNode n lean parser)
      · exact .inl rfl
  · intro h
    exact ⟨ts.length + 1, settled_loop decreases_skipNodeBody h (Nat.lt_succ_self _)⟩

/-! ## The rest of an entry -/

theorem run_skipEntry_blockEnd (n : ℕ) :
    (skipEntry (n + 1)).run ⟨.blockEnd :: ts, b⟩ = .ok () ⟨ts, b⟩ :=
  run_loop_of_done rfl

theorem run_skipEntry_of_ne {t : Token} (ht : t ≠ .blockEnd) (n : ℕ) :
    (skipEntry (n + 1)).run ⟨t :: ts, b⟩ = (skipEntry n).run ⟨ts, b⟩ :=
  run_loop_of_next (by simp [ht])

theorem run_skipEntry_nil (n : ℕ) :
    (skipEntry (n + 1)).run ⟨[], false⟩ = (skipEntry n).run ⟨[], false⟩ :=
  run_loop_of_next rfl

/-- What becomes of the loop over the rest of an entry: it stops behind the first `BLOCK_END`, it
uses up its bound, or the scanner fails before that. -/
theorem run_skipEntry_cases (n : ℕ) (ts : List Token) (b : Bool) :
    (∃ mid rest, ts = mid ++ .blockEnd :: rest ∧ .blockEnd ∉ mid ∧
      (skipEntry n).run ⟨ts, b⟩ = .ok () ⟨rest, b⟩) ∨
    ((n ≤ ts.length ∨ b = false ∧ .blockEnd ∉ ts) ∧
      ∃ parser, (skipEntry n).run ⟨ts, b⟩ = .error .exhausted parser) ∨
    (b = true ∧ .blockEnd ∉ ts ∧
      ∃ parser, (skipEntry n).run ⟨ts, b⟩ = .error .assertion parser) := by
  -- a token that is not the end of a block is one round
  induction n generalizing ts with
  | zero => exact .inr (.inl ⟨.inl (Nat.zero_le _), _, rfl⟩)
  | succ n ih =>
    rcases ts with _ | ⟨t, ts⟩
    · rcases b with _ | _
      · -- behind the end of the stream nothing changes, so the bound is used up
        rw [run_skipEntry_nil]
        obtain ⟨mid, rest, hts, -⟩ | ⟨-, hrun⟩ | ⟨hbroken, -⟩ := ih []
        · exact absurd hts (by simp)
        · exact .inr (.inl ⟨.inr ⟨rfl, List.not_mem_nil⟩, hrun⟩)
        · cases hbroken
      · exact .inr (.inr ⟨rfl, List.not_mem_nil, _, rfl⟩)
    by_cases ht : t = .blockEnd
    · subst ht
      exact .inl ⟨[], ts, rfl, List.not_mem_nil, run_skipEntry_blockEnd n⟩
    · rw [run_skipEntry_of_ne ht]
      have hmem {l : List Token} (hl : .blockEnd ∉ l) : .blockEnd ∉ t :: l :=
        List.not_mem_cons_of_ne_of_not_mem (Ne.symm ht) hl
      obtain ⟨mid, rest, rfl, hmid, hrun⟩ | ⟨hlen, hrun⟩ | ⟨hbroken, hts, hrun⟩ := ih ts
      · exact .inl ⟨t :: mid, rest, rfl, hmem hmid, hrun⟩
      · exact .inr (.inl ⟨hlen.imp Nat.succ_le_succ (.imp_right hmem), hrun⟩)
      · exact .inr (.inr ⟨hbroken, hmem hts, hrun⟩)

/-- The loop over the rest of an entry takes the tokens up to a `BLOCK_END`, if the bound is not
used up before. -/
theorem run_skipEntry_or {mid : List Token} (rest : List Token) (b : Bool)
    (hmid : .blockEnd ∉ mid) (n : ℕ) :
    (skipEntry n).run ⟨mid ++ .blockEnd :: rest, b⟩ = .ok () ⟨rest, b⟩ ∨
      ∃ parser, (skipEntry n).run ⟨mid ++ .blockEnd :: rest, b⟩ = .error .exhausted parser := by
  induction mid generalizing n with
  | nil =>
    rcases n with _ | n
    · exact .inr ⟨_, rfl⟩
    · exact .inl (run_skipEntry_blockEnd n)
  | cons t mid ih =>
    rw [List.mem_cons, not_or] at hmid
    rcases n with _ | n
    · exact .inr ⟨_, rfl⟩
    · rw [List.cons_append, run_skipEntry_of_ne (Ne.symm hmid.1)]
      exact ih hmid.2 n

/-- The loop over the rest of an entry ends exactly if the scanner fails or a `BLOCK_END` is still
to come. -/
theorem settles_skipEntry_iff : Settles skipEntry ⟨ts, b⟩ ↔ b = true ∨ .blockEnd ∈ ts := by
  constructor
  · rintro ⟨n, hsettled⟩
    obtain ⟨mid, rest, rfl, -⟩ | ⟨-, parser, hrun⟩ | ⟨hbroken, -⟩ := run_skipEntry_cases n ts b
    · exact .inr (List.mem_append_right _ List.mem_cons_self)
    · rw [hrun] at hsettled
      exact absurd hsettled (not_settled_of_ne (by decide) parser)
    · exact .inl hbroken
  · intro h
    -- one round for each token is enough
    refine ⟨ts.length + 1, ?_⟩
    obtain ⟨mid, rest, -, -, hrun⟩ | ⟨hlen, -⟩ | ⟨-, -, parser, hrun⟩ :=
      run_skipEntry_cases (ts.length + 1) ts b
    · rw [hrun]
      exact settled_ok _ _
    · rcases hlen with hlen | ⟨rfl, hts⟩
      · exact absurd hlen (Nat.not_succ_le_self _)
      · rcases h with h | h
        · cases h
        · exact absurd h hts
    · rw [hrun]
      exact settled_assertion parser

/-! ## The search -/

/-- The search for `title` gets to an entry whose first key has no text, or behind a name that does
not match to a rest of the stream without a `BLOCK_END`. `broken` says that the scanner fails at
the end of the tokens. -/
inductive Strays (title : CString) (broken : Bool) : List Token → Prop
  | noText {t : Token} {ts : List Token} (ht : t.val = none) : Strays title broken (.key :: t :: ts)
  | noKey (hsound : broken = false) : Strays title broken [.key]
  | noEnd {t : Token} {name : CString} {ts : List Token} (hsound : broken = false)
      (ht : t.val = some (utf8 "name")) (hname : name ≠ title) (hts : .blockEnd ∉ ts) :
      Strays title broken (.key :: t :: .value :: .scalar name :: ts)
  | next {t : Token} {name : CString} {mid ts : List Token} (ht : t.val = some (utf8 "name"))
      (hname : name ≠ title) (hmid : .blockEnd ∉ mid) (hts : Strays title broken ts) :
      Strays title broken (.key :: t :: .value :: .scalar name ::
        (mid ++ .blockEnd :: .blockEntry :: .blockMappingStart :: ts))

/-- Reading the text of a token that should be the key `k`. -/
theorem run_assertVal_cases (k : CString) (ts : List Token) (b : Bool) :
    (∃ t ts', ts = t :: ts' ∧ t.val = some k ∧ (assertVal k).run ⟨ts, b⟩ = .ok () ⟨ts', b⟩) ∨
    (∃ parser, (assertVal k).run ⟨ts, b⟩ = .error .assertion parser) ∨
    (((∃ t ts', ts = t :: ts' ∧ t.val = none) ∨ (ts = [] ∧ b = false)) ∧
      ∃ parser, (assertVal k).run ⟨ts, b⟩ = .error .undefined parser) := by
  rcases ts with _ | ⟨t, ts⟩
  · rcases b with _ | _
    · exact .inr (.inr ⟨.inr ⟨rfl, rfl⟩, _, rfl⟩)
    · exact .inr (.inl ⟨_, rfl⟩)
  rw [assertVal, EStateM.run_bind, run_scan_cons]
  dsimp only
  -- a token without text, the key, or another text
  rcases ht : t.val with _ | v
  · exact .inr (.inr ⟨.inl ⟨t, ts, rfl, ht⟩, _, rfl⟩)
  by_cases hv : v = k
  · subst hv
    exact .inl ⟨t, ts, rfl, ht, run_assert_of_true rfl _⟩
  · exact .inr (.inl ⟨_, run_assert_of_false hv _⟩)

/-- What becomes of reading a key with its value and comparing them. -/
theorem run_kVCmp_cases (k v : CString) (ts : List Token) (b : Bool) :
    (∃ t val ts', ts = .key :: t :: .value :: .scalar val :: ts' ∧ t.val = some k ∧
      (kVCmp k v).run ⟨ts, b⟩ = .ok (decide (val = v)) ⟨ts', b⟩) ∨
    (∃ parser, (kVCmp k v).run ⟨ts, b⟩ = .error .assertion parser) ∨
    (((∃ t ts', ts = .key :: t :: ts' ∧ t.val = none) ∨ (ts = [.key] ∧ b = false)) ∧
      ∃ parser, (kVCmp k v).run ⟨ts, b⟩ = .error .undefined parser) := by
  rw [kVCmp, EStateM.run_bind]
  -- KEY
  obtain ⟨ts₁, rfl, hkey⟩ | ⟨parser, hkey⟩ :=
    Convert.run_assertTokenType_cases ts (b := b) (by decide : Token.key ≠ .noToken)
  swap
  · rw [hkey]
    exact .inr (.inl ⟨parser, rfl⟩)
  rw [hkey]
  dsimp only
  rw [EStateM.run_bind]
  -- the text of the next token is compared with the key
  obtain ⟨t, ts₂, rfl, ht, hval⟩ | ⟨parser, hval⟩ | ⟨hnone, parser, hval⟩ :=
    run_assertVal_cases k ts₁ b
  · rw [hval]
    dsimp only
    rw [EStateM.run_bind]
    -- VALUE
    obtain ⟨ts₃, rfl, hvalue⟩ | ⟨parser, hvalue⟩ :=
      Convert.run_assertTokenType_cases ts₂ (b := b) (by decide : Token.value ≠ .noToken)
    swap
    · rw [hvalue]
      exact .inr (.inl ⟨parser, rfl⟩)
    rw [hvalue]
    dsimp only
    rw [EStateM.run_bind]
    -- the scalar
    obtain ⟨val, ts₄, rfl, hscalar⟩ | ⟨parser, hscalar⟩ :=
      Convert.run_scanScalar_cases ts₃ (b := b)
    · rw [hscalar]
      exact .inl ⟨t, val, ts₄, rfl, ht, rfl⟩
    · rw [hscalar]
      exact .inr (.inl ⟨parser, rfl⟩)
  · rw [hval]
    exact .inr (.inl ⟨parser, rfl⟩)
  · -- a token without text is given to `strcmp`
    rw [hval]
    refine .inr (.inr ⟨?_, parser, rfl⟩)
    rcases hnone with ⟨t, ts₂, rfl, ht⟩ | ⟨rfl, hb⟩
    · exact .inl ⟨t, ts₂, rfl, ht⟩
    · exact .inr ⟨rfl, hb⟩

variable {title : CString} {k : ℕ}

/-- The step from one entry to the next, behind its end. -/
def toNextEntry : Prog Scanner (Unit ⊕ Unit) := do
  let token ← scan
  assert (token = .blockEntry)
  assertTokenType .blockMappingStart
  return .inl ()

/-- A name that matches ends the search. -/
theorem run_findNodeBody_of_eq {t : Token} (ht : t.val = some (utf8 "name")) :
    (findNodeBody k title ()).run ⟨.key :: t :: .value :: .scalar title :: ts, b⟩ =
      .ok (.inr ()) ⟨ts, b⟩ := by
  simp [findNodeBody, kVCmp, assertVal, ht]

/-- Behind a name that does not match, the rest of the entry is skipped. -/
theorem run_findNodeBody_of_name_ne {t : Token} {name : CString}
    (ht : t.val = some (utf8 "name")) (hname : name ≠ title) :
    (findNodeBody k title ()).run ⟨.key :: t :: .value :: .scalar name :: ts, b⟩ =
      (skipEntry k >>= fun _ => toNextEntry).run ⟨ts, b⟩ := by
  simp [findNodeBody, toNextEntry, kVCmp, assertVal, ht, hname]

theorem run_findNodeBody_of_noText {t : Token} (ht : t.val = none) :
    (findNodeBody k title ()).run ⟨.key :: t :: ts, b⟩ = .error .undefined ⟨ts, b⟩ := by
  simp [findNodeBody, kVCmp, assertVal, ht]

theorem run_findNodeBody_key :
    (findNodeBody k title ()).run ⟨[.key], false⟩ = .error .undefined ⟨[], false⟩ := rfl

/-- Behind an entry comes another one, or the assertion of the message `not found` or the one
behind it fails. -/
theorem run_toNextEntry_cases (ts : List Token) (b : Bool) :
    (∃ ts', ts = .blockEntry :: .blockMappingStart :: ts' ∧
      toNextEntry.run ⟨ts, b⟩ = .ok (.inl ()) ⟨ts', b⟩) ∨
    ∃ parser, toNextEntry.run ⟨ts, b⟩ = .error .assertion parser := by
  rcases ts with _ | ⟨t, ts⟩
  · rcases b with _ | _ <;> exact .inr ⟨_, rfl⟩
  rw [toNextEntry, EStateM.run_bind, run_scan_cons]
  dsimp only
  rw [run_assert_bind]
  split_ifs with ht
  · rw [EStateM.run_bind]
    obtain ⟨ts', rfl, hstart⟩ | ⟨parser, hstart⟩ := Convert.run_assertTokenType_cases ts (b := b)
      (by decide : Token.blockMappingStart ≠ .noToken)
    · rw [hstart, ht]
      exact .inl ⟨ts', rfl, rfl⟩
    · rw [hstart]
      exact .inr ⟨parser, rfl⟩
  · exact .inr ⟨_, rfl⟩

/-- A round of the search ends it or takes an entry, unless it strays. -/
theorem decreases_findNodeBody (k : ℕ) (title : CString) :
    Decreases (findNodeBody k title)
      (fun _ parser => parser.tokens.length < k ∧ ¬ Strays title parser.broken parser.tokens)
      fun parser => parser.tokens.length := by
  rintro ⟨⟩ ⟨ts, b⟩ ⟨hlen, hstrays⟩
  have hcmp := run_kVCmp_cases (utf8 "name") title ts b
  obtain ⟨t, name, ts₁, rfl, ht, -⟩ | ⟨parser, hrun⟩ | ⟨hnone, -⟩ := hcmp
  · by_cases hname : name = title
    · subst hname
      exact .inl ⟨(), _, run_findNodeBody_of_eq ht⟩
    right
    rw [run_findNodeBody_of_name_ne ht hname, EStateM.run_bind]
    -- the entry has another name, and the round goes behind its end
    obtain ⟨mid, rest, rfl, hmid, hskip⟩ | ⟨hend, -⟩ | ⟨-, -, parser, hskip⟩ :=
      run_skipEntry_cases k ts₁ b
    · rw [hskip]
      dsimp only
      obtain ⟨ts', rfl, hnext⟩ | ⟨parser, hnext⟩ := run_toNextEntry_cases rest b
      · refine .inr ⟨(), _, hnext, ⟨?_, fun h => hstrays (.next ht hname hmid h)⟩, ?_⟩
        · simp only [List.length_cons, List.length_append] at hlen ⊢
          omega
        · simp only [List.length_cons, List.length_append]
          omega
      · exact .inl ⟨parser, hnext⟩
    · rcases hend with hend | ⟨rfl, hts⟩
      · simp only [List.length_cons] at hlen
        omega
      · exact absurd (.noEnd rfl ht hname hts) hstrays
    · rw [hskip]
      exact .inl ⟨parser, rfl⟩
  · refine .inr (.inl ⟨parser, ?_⟩)
    rw [findNodeBody, EStateM.run_bind, hrun]
  · rcases hnone with ⟨t, ts', rfl, ht⟩ | ⟨rfl, rfl⟩
    · exact absurd (.noText ht) hstrays
    · exact absurd (.noKey rfl) hstrays

/-- A search that strays neither returns nor fails an assertion, whatever the bounds. -/
theorem not_settled_of_strays (h : Strays title b ts) (k n : ℕ) :
    ¬ Settled ((loop (findNodeBody k title) n ()).run ⟨ts, b⟩) := by
  induction h generalizing n with
  | noText ht =>
    rcases n with _ | n
    · exact not_settled_of_ne (by decide) _
    · rw [run_loop_of_error (run_findNodeBody_of_noText ht)]
      exact not_settled_of_ne (by decide) _
  | noKey hsound =>
    obtain rfl := hsound
    rcases n with _ | n
    · exact not_settled_of_ne (by decide) _
    · rw [run_loop_of_error run_findNodeBody_key]
      exact not_settled_of_ne (by decide) _
  | noEnd hsound ht hname hts =>
    rename_i t name ts
    rcases n with _ | n
    · exact not_settled_of_ne (by decide) _
    -- nothing ends the entry, so the loop over it uses up the bound
    obtain ⟨mid, rest, rfl, -⟩ | ⟨-, parser, hskip⟩ | ⟨hbroken, -⟩ := run_skipEntry_cases k ts b
    · exact absurd (List.mem_append_right _ List.mem_cons_self) hts
    · have hbody : (findNodeBody k title ()).run ⟨.key :: t :: .value :: .scalar name :: ts, b⟩ =
          .error .exhausted parser := by
        rw [run_findNodeBody_of_name_ne ht hname, EStateM.run_bind, hskip]
      rw [run_loop_of_error hbody]
      exact not_settled_of_ne (by decide) _
    · rw [hsound] at hbroken
      cases hbroken
  | next ht hname hmid hts ih =>
    rename_i t name mid ts
    rcases n with _ | n
    · exact not_settled_of_ne (by decide) _
    -- a round that gets through the entry strays from the next one
    obtain hskip | ⟨parser, hskip⟩ :=
      run_skipEntry_or (.blockEntry :: .blockMappingStart :: ts) b hmid k
    · have hbody : (findNodeBody k title ()).run ⟨.key :: t :: .value :: .scalar name ::
          (mid ++ .blockEnd :: .blockEntry :: .blockMappingStart :: ts), b⟩ =
          .ok (.inl ()) ⟨ts, b⟩ := by
        rw [run_findNodeBody_of_name_ne ht hname, EStateM.run_bind, hskip]
        rfl
      rw [run_loop_of_next hbody]
      exact ih n
    · have hbody : (findNodeBody k title ()).run ⟨.key :: t :: .value :: .scalar name ::
          (mid ++ .blockEnd :: .blockEntry :: .blockMappingStart :: ts), b⟩ =
          .error .exhausted parser := by
        rw [run_findNodeBody_of_name_ne ht hname, EStateM.run_bind, hskip]
      rw [run_loop_of_error hbody]
      exact not_settled_of_ne (by decide) _

/-- The search ends exactly if it does not stray. -/
theorem settles_findNode_iff :
    Settles (findNode · title) ⟨ts, b⟩ ↔ ¬ Strays title b ts := by
  constructor
  · rintro ⟨n, hsettled⟩ hstrays
    exact not_settled_of_strays hstrays n n hsettled
  · intro h
    exact ⟨ts.length + 1, settled_loop (decreases_findNodeBody _ title) ⟨Nat.lt_succ_self _, h⟩
      (Nat.lt_succ_self _)⟩

/-- When the loops over the tokens end, at what they look for or at a failed assertion. The header
loops: if the scanner fails or a key `proxies` is still to come. `skip_node`: if the scanner fails
or the end of the node is still to come. The loop over the rest of an entry: if the scanner fails
or a `BLOCK_END` is still to come. The search: if it does not stray. -/
theorem settles_iff (ts : List Token) (b : Bool) :
    (Settles skipHeader ⟨ts, b⟩ ↔ b = true ∨ HeaderAhead ts) ∧
    (∀ lean, Settles (skipNode · lean) ⟨ts, b⟩ ↔ b = true ∨ EndAhead lean ts) ∧
    (Settles skipEntry ⟨ts, b⟩ ↔ b = true ∨ .blockEnd ∈ ts) ∧
    ∀ title, Settles (findNode · title) ⟨ts, b⟩ ↔ ¬ Strays title b ts :=
  ⟨settles_skipHeader_iff, settles_skipNode_iff, settles_skipEntry_iff,
    fun _ => settles_findNode_iff⟩

/-- The tokens of an error page behind the start of its mapping. -/
def errorPage : List Token :=
  Block.pairTokens [(utf8 "error", .plain (utf8 "expired"))] ++ [.blockEnd, .streamEnd]

/-- On an error page the header loop runs for ever. -/
theorem not_settles_errorPage : ¬ ∀ ts, Settles skipHeader ⟨ts, false⟩ := by
  intro h
  rcases settles_skipHeader_iff.mp (h errorPage) with hbroken | ⟨header, rest, hts, -⟩
  · cases hbroken
  · have hmem : proxiesToken ∈ errorPage := by
      rw [hts]
      simp
    revert hmem
    decide +kernel

end Yaml2Profile
