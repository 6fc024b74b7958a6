import Clash.Convert.Parsing

/-!
# Skipping the header

Where the loop that looks for the key `proxies` stops. It keeps no depth: it takes the first
`KEY` with the scalar `proxies` behind it, wherever this key stands.

## Main definitions

* `pairsFree`: neither some pairs nor the mappings inside their values have a key `proxies`.
* `Complete`: no flow collection inside a value ends in the middle of a key.

## Main results

* `run_skipHeader_iff`: the loop stops at a given key exactly if no key in front of it is `proxies`.
-/

open CProg CString Yaml

namespace Convert

variable {fuel n : ℕ} {ts header rest : List Token} {b : Bool} {parser : Scanner}

/-- The scalar the loop looks for. -/
abbrev proxiesToken : Token := .scalar (utf8 "proxies")

/-- What an iteration of the loop does when it returns, by the tokens that it takes. -/
theorem skipHeaderBody_cases {r : Unit ⊕ Unit}
    (h : (skipHeaderBody ()).run ⟨ts, b⟩ = .ok r parser) :
    (∃ rest, ts = .key :: proxiesToken :: rest ∧ r = .inr () ∧ parser = ⟨rest, b⟩) ∨
    (∃ t ts', t ≠ .key ∧ ts = t :: ts' ∧ r = .inl () ∧ parser = ⟨ts', b⟩) ∨
    (∃ t ts', t ≠ proxiesToken ∧ ts = .key :: t :: ts' ∧ r = .inl () ∧ parser = ⟨ts', b⟩) ∨
    ((ts = [] ∨ ts = [.key]) ∧ r = .inl () ∧ parser = ⟨[], b⟩ ∧ b = false) := by
  rcases ts with _ | ⟨t, ts⟩
  · -- behind the end of the stream there are no more keys
    right; right; right
    rcases b with _ | _
    · cases h
      exact ⟨.inl rfl, rfl, rfl, rfl⟩
    · cases h
  by_cases ht : t = .key
  · subst ht
    rcases ts with _ | ⟨t, ts⟩
    · right; right; right
      rcases b with _ | _
      · cases h
        exact ⟨.inr rfl, rfl, rfl, rfl⟩
      · cases h
    by_cases ht : t = proxiesToken
    · subst ht
      rw [run_skipHeaderBody_proxies] at h
      cases h
      exact .inl ⟨ts, rfl, rfl, rfl⟩
    · rw [run_skipHeaderBody_of_ne_proxies ht] at h
      cases h
      exact .inr (.inr (.inl ⟨t, ts, ht, rfl, rfl, rfl⟩))
  · rw [run_skipHeaderBody_of_ne_key ht] at h
    cases h
    exact .inr (.inl ⟨t, ts, ht, rfl, rfl, rfl⟩)

@[simp] theorem passes_key_cons (t : Token) (ts : List Token) :
    passes (.key :: t :: ts) = (t ≠ proxiesToken && passes ts) := by
  rw [passes]

theorem passes_cons_of_ne {t : Token} (ht : t ≠ .key) (ts : List Token) :
    passes (t :: ts) = passes ts := by
  rw [passes]
  · exact fun t' ts' h _ => ht h
  · exact fun h _ => ht h

/-- The loop stops behind a key `proxies`, and none of the keys before it is one. -/
theorem passes_of_run_skipHeader (h : (skipHeader n).run ⟨ts, b⟩ = .ok () parser) :
    ∃ header, ts = header ++ .key :: proxiesToken :: parser.tokens ∧ passes header = true := by
  -- what a round takes goes in front of what the rest takes
  induction n generalizing ts with
  | zero => cases h
  | succ n ih =>
    obtain ⟨r, s, hbody, -⟩ := run_bind_eq_ok.mp h
    obtain ⟨rest, rfl, rfl, rfl⟩ | ⟨t, ts', ht, rfl, rfl, rfl⟩ | ⟨t, ts', ht, rfl, rfl, rfl⟩ |
      ⟨hts, rfl, rfl, rfl⟩ := skipHeaderBody_cases hbody
    · rw [skipHeader, run_loop_of_done hbody] at h
      cases h
      exact ⟨[], rfl, rfl⟩
    · rw [skipHeader, run_loop_of_next hbody] at h
      obtain ⟨header, rfl, hheader⟩ := ih h
      refine ⟨t :: header, rfl, ?_⟩
      rwa [passes_cons_of_ne ht]
    · rw [skipHeader, run_loop_of_next hbody] at h
      obtain ⟨header, rfl, hheader⟩ := ih h
      refine ⟨.key :: t :: header, rfl, ?_⟩
      rw [passes_key_cons, hheader, Bool.and_true]
      exact decide_eq_true ht
    · rw [skipHeader, run_loop_of_next hbody] at h
      obtain ⟨header, hnil, -⟩ := ih h
      exact absurd hnil (by simp)

/-- Tokens that do not end in the middle of a key can be looked at on their own. -/
theorem passes_append (hts : ts.getLast? ≠ some .key) (ts' : List Token) :
    passes (ts ++ ts') = (passes ts && passes ts') := by
  -- the recursion of `passes` on the first part, key by key
  fun_induction passes ts with
  | case1 t ts ih =>
    rw [List.cons_append, List.cons_append, passes_key_cons, Bool.and_assoc]
    congr 1
    rcases ts with _ | ⟨t', ts⟩
    · exact ih (by simp)
    · exact ih (by rwa [List.getLast?_cons_cons, List.getLast?_cons_cons] at hts)
  | case2 => exact absurd rfl hts
  | case3 t ts hcons hsingle ih =>
    have ht : t ≠ .key := by
      rintro rfl
      rcases ts with _ | ⟨t, ts⟩
      · exact hsingle rfl rfl
      · exact hcons t ts rfl rfl
    rw [List.cons_append, passes_cons_of_ne ht]
    rcases ts with _ | ⟨t', ts⟩
    · rw [List.nil_append, passes, Bool.true_and]
    · exact ih (by rwa [List.getLast?_cons_cons] at hts)
  | case4 => rw [List.nil_append, Bool.true_and]

/-! ## Block-style values -/

mutual

/-- The flow collections inside a value are complete: none ends in the middle of a key. -/
def Complete : Block → Prop
  | .leaf ts _ => ts.getLast? ≠ some .key
  | .mapping ps => PairsComplete ps
  | .sequence vs => ItemsComplete vs
  | .indentless vs => ItemsComplete vs

/-- The values of the pairs are complete. -/
def PairsComplete : List (CString × Block) → Prop
  | [] => True
  | (_, v) :: ps => Complete v ∧ PairsComplete ps

/-- The items are complete. -/
def ItemsComplete : List Block → Prop
  | [] => True
  | v :: vs => Complete v ∧ ItemsComplete vs

end

mutual

/-- No mapping inside a value has a key `proxies`. -/
def proxiesFree : Block → Bool
  | .leaf ts _ => passes ts
  | .mapping ps => pairsFree ps
  | .sequence vs => itemsFree vs
  | .indentless vs => itemsFree vs

/-- None of the keys of the pairs is `proxies`, and none of a mapping inside their values. -/
def pairsFree : List (CString × Block) → Bool
  | [] => true
  | (k, v) :: ps => k ≠ utf8 "proxies" && (proxiesFree v && pairsFree ps)

/-- No mapping inside the items has a key `proxies`. -/
def itemsFree : List Block → Bool
  | [] => true
  | v :: vs => proxiesFree v && itemsFree vs

end

mutual

/-- The loop passes a value exactly if no mapping in it has the key. -/
theorem passes_tokens_append (ts : List Token) : ∀ v : Block, Complete v →
    passes (v.tokens ++ ts) = (proxiesFree v && passes ts)
  | .leaf flat _, hv => by
    rw [Complete] at hv
    rw [Block.tokens_leaf, passes_append hv, proxiesFree]
  | .mapping ps, hv => by
    rw [Complete] at hv
    rw [Block.tokens_mapping, List.cons_append, passes_cons_of_ne (by decide), List.append_assoc,
      passes_pairTokens_append _ ps hv, proxiesFree, List.singleton_append,
      passes_cons_of_ne (by decide)]
  | .sequence vs, hv => by
    rw [Complete] at hv
    rw [Block.tokens_sequence, List.cons_append, passes_cons_of_ne (by decide), List.append_assoc,
      passes_itemTokens_append _ vs hv, proxiesFree, List.singleton_append,
      passes_cons_of_ne (by decide)]
  | .indentless vs, hv => by
    rw [Complete] at hv
    rw [Block.tokens_indentless, passes_itemTokens_append _ vs hv, proxiesFree]

/-- The loop passes some pairs exactly if none of their keys is the wanted one, at any depth. -/
theorem passes_pairTokens_append (ts : List Token) : ∀ ps : List (CString × Block),
    PairsComplete ps → passes (Block.pairTokens ps ++ ts) = (pairsFree ps && passes ts)
  | [], _ => by
    rw [Block.pairTokens_nil, List.nil_append, pairsFree, Bool.true_and]
  | (k, v) :: ps, hps => by
    rw [PairsComplete] at hps
    rw [Block.pairTokens_cons, List.cons_append, List.cons_append, List.cons_append,
      List.append_assoc, passes_key_cons, passes_cons_of_ne (by decide),
      passes_tokens_append _ v hps.1, passes_pairTokens_append _ ps hps.2, pairsFree,
      Bool.and_assoc, Bool.and_assoc]
    congr 1
    simp

/-- The loop passes some items exactly if no mapping in them has the key. -/
theorem passes_itemTokens_append (ts : List Token) : ∀ vs : List Block, ItemsComplete vs →
    passes (Block.itemTokens vs ++ ts) = (itemsFree vs && passes ts)
  | [], _ => by
    rw [Block.itemTokens_nil, List.nil_append, itemsFree, Bool.true_and]
  | v :: vs, hvs => by
    rw [ItemsComplete] at hvs
    rw [Block.itemTokens_cons, List.cons_append, passes_cons_of_ne (by decide), List.append_assoc,
      passes_tokens_append _ v hvs.1, passes_itemTokens_append _ vs hvs.2, itemsFree,
      Bool.and_assoc]

end

/-! ## The loop -/

/-- The loop stops behind a given key `proxies` exactly if no key in front of it is `proxies`. When
the tokens in front are those of the pairs of a mapping, this is so exactly if neither a key of
the pairs nor one of a mapping inside their values is `proxies`. -/
theorem run_skipHeader_iff (hfuel : header.length < fuel) :
    ((skipHeader fuel).run ⟨header ++ .key :: proxiesToken :: rest, b⟩ = .ok () ⟨rest, b⟩ ↔
      passes header = true) ∧
    ∀ ps, PairsComplete ps → header = Block.pairTokens ps →
      ((skipHeader fuel).run ⟨header ++ .key :: proxiesToken :: rest, b⟩ = .ok () ⟨rest, b⟩ ↔
        pairsFree ps = true) := by
  have hiff : (skipHeader fuel).run ⟨header ++ .key :: proxiesToken :: rest, b⟩ =
      .ok () ⟨rest, b⟩ ↔ passes header = true := by
    constructor
    · intro h
      -- the key that it has stopped behind is the given one
      obtain ⟨header', hheader', hpasses⟩ := passes_of_run_skipHeader h
      obtain rfl : header = header' := List.append_cancel_right hheader'
      exact hpasses
    · intro h
      exact run_skipHeader h hfuel
  refine ⟨hiff, fun ps hps hheader => ?_⟩
  have hpairs := passes_pairTokens_append [] ps hps
  rw [List.append_nil, passes, Bool.and_true] at hpairs
  rw [hiff, hheader, hpairs]

/-- The groups of a configuration, each with the key `proxies`. -/
def groupsPairs : List (CString × Block) := [
  (utf8 "proxy-groups", .indentless [.mapping [
    (utf8 "name", .plain (utf8 "GroupA")),
    (utf8 "proxies", .indentless [.plain (utf8 "Node1")])]])]

theorem pairsComplete_groupsPairs : PairsComplete groupsPairs := by
  simp [groupsPairs, PairsComplete, Complete, ItemsComplete, Block.plain]

/-- With a port in front of the list, the loop stops at the list. -/
theorem run_skipHeader_iff_port :
    (skipHeader 9).run ⟨Block.pairTokens [(utf8 "port", .plain (utf8 "8080"))] ++
      .key :: proxiesToken :: [.value], false⟩ = .ok () ⟨[.value], false⟩ :=
  have hcomplete : PairsComplete [(utf8 "port", .plain (utf8 "8080"))] := by
    simp [PairsComplete, Complete, Block.plain]
  ((run_skipHeader_iff (by decide +kernel)).2 _ hcomplete rfl).mpr (by decide +kernel)

/-- With the groups in front of the list, the loop stops inside the first group. -/
theorem not_run_skipHeader_groups :
    ¬ ∀ fuel ps rest b, PairsComplete ps → (∀ p ∈ ps, p.1 ≠ utf8 "proxies") →
      (Block.pairTokens ps).length < fuel →
      (skipHeader fuel).run ⟨Block.pairTokens ps ++ .key :: proxiesToken :: rest, b⟩ =
        .ok () ⟨rest, b⟩ := by
  intro h
  have hrun := h 100 groupsPairs [] false pairsComplete_groupsPairs (by decide +kernel)
    (by decide +kernel)
  have hleft : (match (skipHeader 100).run
      ⟨Block.pairTokens groupsPairs ++ [.key, proxiesToken], false⟩ with
      | .ok _ parser => parser.tokens.length
      | .error _ _ => 0) ≠ 0 := by decide +kernel
  rw [hrun] at hleft
  exact hleft rfl

end Convert
