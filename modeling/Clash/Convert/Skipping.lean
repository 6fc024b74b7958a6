import Clash.Convert.Parsing

/-!
# Skipping a dropped entry

Where `skip_node` stops in an entry with values of any kind.

## Main results

* `counts_of_run_skipNode`: `skip_node` stops at the first `BLOCK_END` that no
  `BLOCK_MAPPING_START` accounts for.
* `run_skipNode_iff`: this is the end of the entry exactly if no indented block sequence stands in
  between.
-/

open CProg CString Yaml

namespace Convert

variable {fuel : ℕ} {ts rest : List Token} {b : Bool}

/-- What an iteration of `skip_node` does when it returns, by the token that it takes. -/
theorem skipNodeBody_cases {lean : ℕ} {r : ℕ ⊕ Unit} {parser : Scanner}
    (h : (skipNodeBody lean).run ⟨ts, b⟩ = .ok r parser) :
    (∃ t ts', ts = t :: ts' ∧ parser = ⟨ts', b⟩ ∧
      ((t = .blockMappingStart ∧ r = .inl (lean + 1)) ∨
        (t = .blockEnd ∧ lean = 0 ∧ r = .inr ()) ∨
        (t = .blockEnd ∧ 0 < lean ∧ r = .inl (lean - 1)) ∨
        (t ≠ .blockMappingStart ∧ t ≠ .blockEnd ∧ r = .inl lean))) ∨
      (ts = [] ∧ parser = ⟨[], b⟩ ∧ r = .inl lean) := by
  cases ts with
  | nil =>
    -- behind the end of the stream there are no more block tokens
    rw [skipNodeBody, EStateM.run_bind] at h
    cases b with
    | true => cases h
    | false =>
      cases h
      exact .inr ⟨rfl, rfl, rfl⟩
  | cons t ts' =>
    refine .inl ⟨t, ts', rfl, ?_⟩
    by_cases hstart : t = .blockMappingStart
    · rw [hstart, run_skipNodeBody_mappingStart] at h
      cases h
      exact ⟨rfl, .inl ⟨hstart, rfl⟩⟩
    by_cases hend : t = .blockEnd
    · subst hend
      cases lean with
      | zero =>
        rw [run_skipNodeBody_blockEnd_zero] at h
        cases h
        exact ⟨rfl, .inr (.inl ⟨rfl, rfl, rfl⟩)⟩
      | succ lean =>
        rw [run_skipNodeBody_blockEnd] at h
        cases h
        exact ⟨rfl, .inr (.inr (.inl ⟨rfl, Nat.succ_pos _, rfl⟩))⟩
    · rw [run_skipNodeBody_of_ne hstart hend] at h
      cases h
      exact ⟨rfl, .inr (.inr (.inr ⟨hstart, hend, rfl⟩))⟩

/-- Skipping stops where the ends of blocks outnumber the starts of mappings. -/
theorem counts_of_run_skipNode {n lean : ℕ} {parser : Scanner}
    (h : (skipNode n lean).run ⟨ts, b⟩ = .ok () parser) :
    ∃ consumed, ts = consumed ++ parser.tokens ∧
      consumed.count .blockEnd = consumed.count .blockMappingStart + lean + 1 := by
  -- the count of a round goes to that of the rest
  induction n generalizing lean ts with
  | zero => cases h
  | succ n ih =>
    cases hbody : (skipNodeBody lean).run ⟨ts, b⟩ with
    | error e s =>
      rw [skipNode, run_loop_of_error hbody] at h
      cases h
    | ok r s =>
      rcases skipNodeBody_cases hbody with ⟨t, ts', rfl, rfl, hcases⟩ | ⟨rfl, rfl, rfl⟩
      · rcases hcases with ⟨rfl, rfl⟩ | ⟨rfl, rfl, rfl⟩ | ⟨rfl, hlean, rfl⟩ | ⟨hstart, hend, rfl⟩
        · -- the start of a mapping
          rw [skipNode, run_loop_of_next hbody] at h
          obtain ⟨consumed, rfl, hcount⟩ := ih h
          refine ⟨.blockMappingStart :: consumed, rfl, ?_⟩
          rw [List.count_cons_of_ne (by decide), List.count_cons_self, hcount]
          omega
        · -- the end of the entry
          rw [skipNode, run_loop_of_done hbody] at h
          cases h
          exact ⟨[.blockEnd], rfl, rfl⟩
        · -- the end of another block
          rw [skipNode, run_loop_of_next hbody] at h
          obtain ⟨consumed, rfl, hcount⟩ := ih h
          refine ⟨.blockEnd :: consumed, rfl, ?_⟩
          rw [List.count_cons_self, List.count_cons_of_ne (by decide), hcount]
          omega
        · -- any other token
          rw [skipNode, run_loop_of_next hbody] at h
          obtain ⟨consumed, rfl, hcount⟩ := ih h
          refine ⟨t :: consumed, rfl, ?_⟩
          rw [List.count_cons_of_ne hend, List.count_cons_of_ne hstart, hcount]
      · -- the end of the stream
        rw [skipNode, run_loop_of_next hbody] at h
        obtain ⟨consumed, hts, hcount⟩ := ih h
        exact ⟨consumed, hts, hcount⟩

theorem count_eq_zero_of_flat {flat : List Token} (hflat : ∀ t ∈ flat, t.isBlock = false)
    {t : Token} (ht : t.isBlock = true) : flat.count t = 0 := by
  refine List.count_eq_zero.mpr fun hmem => ?_
  rw [hflat t hmem] at ht
  cases ht

mutual

/-- In a value every `BLOCK_END` closes a mapping or an indented sequence. -/
theorem count_blockEnd_tokens : ∀ v : Block,
    v.tokens.count .blockEnd =
      v.tokens.count .blockMappingStart + v.tokens.count .blockSequenceStart
  | .leaf ts flat => by
    rw [Block.tokens_leaf, count_eq_zero_of_flat flat rfl, count_eq_zero_of_flat flat rfl,
      count_eq_zero_of_flat flat rfl]
  | .mapping ps => by
    have ih := count_blockEnd_pairTokens ps
    simp only [Block.tokens_mapping, List.count_cons, List.count_append, ih, List.count_nil]
    simp
    omega
  | .sequence vs => by
    have ih := count_blockEnd_itemTokens vs
    simp only [Block.tokens_sequence, List.count_cons, List.count_append, ih, List.count_nil]
    simp
    omega
  | .indentless vs => by
    rw [Block.tokens_indentless]
    exact count_blockEnd_itemTokens vs

theorem count_blockEnd_pairTokens : ∀ ps : List (CString × Block),
    (Block.pairTokens ps).count .blockEnd =
      (Block.pairTokens ps).count .blockMappingStart +
        (Block.pairTokens ps).count .blockSequenceStart
  | [] => by
    rw [Block.pairTokens_nil]
    rfl
  | (k, v) :: ps => by
    have hv := count_blockEnd_tokens v
    have ih := count_blockEnd_pairTokens ps
    simp only [Block.pairTokens_cons, List.count_cons, List.count_append, hv, ih]
    simp
    omega

theorem count_blockEnd_itemTokens : ∀ vs : List Block,
    (Block.itemTokens vs).count .blockEnd =
      (Block.itemTokens vs).count .blockMappingStart +
        (Block.itemTokens vs).count .blockSequenceStart
  | [] => by
    rw [Block.itemTokens_nil]
    rfl
  | v :: vs => by
    have hv := count_blockEnd_tokens v
    have ih := count_blockEnd_itemTokens vs
    simp only [Block.itemTokens_cons, List.count_cons, List.count_append, hv, ih]
    simp
    omega

end

/-- `skip_node(0)` in an entry, in front of its remaining pairs or behind their first `KEY`, takes
the tokens up to the end of the entry exactly if no indented block sequence is among them. -/
theorem run_skipNode_iff {ps : List (CString × Block)}
    (hts : ts = Block.pairTokens ps ∨ .key :: ts = Block.pairTokens ps)
    (hfuel : ts.length < fuel) :
    (skipNode fuel 0).run ⟨ts ++ .blockEnd :: rest, b⟩ = .ok () ⟨rest, b⟩ ↔
      .blockSequenceStart ∉ Block.pairTokens ps := by
  constructor
  · intro h
    obtain ⟨consumed, hconsumed, hcount⟩ := counts_of_run_skipNode h
    -- the whole rest of the entry was taken
    obtain rfl : consumed = ts ++ [.blockEnd] := by
      apply (List.append_left_inj rest).mp
      exact hconsumed.symm.trans (List.append_assoc ts [.blockEnd] rest).symm
    have hpairs := count_blockEnd_pairTokens ps
    have hkey (t : Token) (ht : t ≠ .key) : ts.count t = (Block.pairTokens ps).count t := by
      rcases hts with rfl | hts
      · rfl
      · rw [← hts, List.count_cons_of_ne ht.symm]
    rw [List.count_append, List.count_append, hkey .blockEnd (by decide),
      hkey .blockMappingStart (by decide), hpairs] at hcount
    apply List.count_eq_zero.mp
    simp at hcount
    exact hcount
  · intro h
    rcases hts with rfl | hts
    · exact run_skipNode h hfuel
    · have hrun : (skipNode (fuel + 1) 0).run
          ⟨Block.pairTokens ps ++ .blockEnd :: rest, b⟩ = .ok () ⟨rest, b⟩ := by
        refine run_skipNode h ?_
        rw [← hts, List.length_cons]
        omega
      rwa [← hts, List.cons_append, run_skipNode_of_ne (by decide) (by decide)] at hrun

/-- The rest of an entry of another type, with a mapping and an indentless list in it. -/
def trojanPairs : List (CString × Block) := [
  (utf8 "type", .plain (utf8 "trojan")),
  (utf8 "alpn", .indentless [.plain (utf8 "h2"), .plain (utf8 "http/1.1")]),
  (utf8 "ws-opts", .mapping [(utf8 "headers", .mapping [(utf8 "Host", .plain (utf8 "a.com"))])])]

/-- Such an entry is skipped. -/
theorem run_skipNode_iff_trojanPairs :
    (skipNode 40 0).run ⟨Block.pairTokens trojanPairs ++ .blockEnd :: [.blockEntry], false⟩ =
      .ok () ⟨[.blockEntry], false⟩ :=
  (run_skipNode_iff (.inl rfl) (by simp [trojanPairs])).mpr (by decide +kernel)

/-- Where the list is indented, the rest of the entry stays behind. -/
theorem run_skipNode_indented :
    (skipNode 40 0).run
        ⟨Block.pairTokens [(utf8 "alpn", .sequence [.plain (utf8 "h2")]),
          (utf8 "udp", .plain (utf8 "true"))] ++ .blockEnd :: [.blockEntry], false⟩ ≠
      .ok () ⟨[.blockEntry], false⟩ := by
  have hrun : (skipNode 40 0).run
      ⟨Block.pairTokens [(utf8 "alpn", .sequence [.plain (utf8 "h2")]),
        (utf8 "udp", .plain (utf8 "true"))] ++ .blockEnd :: [.blockEntry], false⟩ =
      .ok () ⟨[.key, .scalar (utf8 "udp"), .value, .scalar (utf8 "true"), .blockEnd, .blockEntry],
        false⟩ := by
    simp only [Block.pairTokens_cons, Block.pairTokens_nil, Block.tokens_sequence,
      Block.itemTokens_cons, Block.itemTokens_nil, Block.tokens_plain]
    rfl
  rw [hrun]
  intro h
  cases h

end Convert
