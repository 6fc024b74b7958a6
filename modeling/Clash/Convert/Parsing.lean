import Clash.Convert.Defs

/-!
# The parser functions of convert.c on conforming input

What `parserBegin`, `skipNode` and `readEntry` do on the token sequences of block-style YAML, with
an arbitrary continuation of the input behind them.

## Main definitions

* `Passes`: token sequences in which no key is `proxies`.
* `Conforms`: the entries of a list of proxies that the program is written for.
* `verdict`: what becomes of such an entry, read off its fields.

## Main results

* `run_skipNode`: `skip_node` ends at the `BLOCK_END` of the mapping it was called in, however
  deep the mappings inside it nest.
* `run_readEntry`: an iteration consumes exactly one entry, whichever branch it takes.
-/

open CProg CString Yaml

namespace Convert

variable {fuel : ℕ} {ts rest : List Token} {b : Bool}

/-! ## Single tokens -/

/-- The token that is asked for is consumed. -/
@[simp] theorem run_assertTokenType (tt : Token) :
    (assertTokenType tt).run ⟨tt :: ts, b⟩ = .ok () ⟨ts, b⟩ := by
  simp [assertTokenType]

/-- A scalar is consumed and returned. -/
@[simp] theorem run_scanScalar (v : CString) :
    scanScalar.run ⟨.scalar v :: ts, b⟩ = .ok v ⟨ts, b⟩ := by
  simp [scanScalar]

/-- A pair with the key that is asked for goes to `strcpy`. -/
theorem run_extractValueWithKey_eq (k v : CString) (size : ℕ) :
    (extractValueWithKey k size).run ⟨.key :: .scalar k :: .value :: .scalar v :: ts, b⟩ =
      (strcpy size v).run ⟨ts, b⟩ := by
  simp [extractValueWithKey]

/-- A value that fits is copied. -/
@[simp] theorem run_extractValueWithKey {k v : CString} {size : ℕ} (hv : Fits size v) :
    (extractValueWithKey k size).run ⟨.key :: .scalar k :: .value :: .scalar v :: ts, b⟩ =
      .ok v ⟨ts, b⟩ := by
  rw [run_extractValueWithKey_eq, run_strcpy_of_fits hv]

/-- A pair that is as asked for is consumed. -/
@[simp] theorem run_assertValueWithKey (k v : CString) :
    (assertValueWithKey k v).run ⟨.key :: .scalar k :: .value :: .scalar v :: ts, b⟩ =
      .ok () ⟨ts, b⟩ := by
  simp [assertValueWithKey]

/-- A token is of the wanted type, or the assertion fails. -/
theorem run_assertTokenType_cases (ts : List Token) {tt : Token} (htt : tt ≠ .noToken) :
    (∃ ts', ts = tt :: ts' ∧ (assertTokenType tt).run ⟨ts, b⟩ = .ok () ⟨ts', b⟩) ∨
      ∃ s, (assertTokenType tt).run ⟨ts, b⟩ = .error .assertion s := by
  cases ts with
  | nil =>
    right
    cases b with
    | true => exact ⟨_, rfl⟩
    | false =>
      refine ⟨⟨[], false⟩, ?_⟩
      change (assert (Token.noToken = tt) : Prog Scanner Unit).run ⟨[], false⟩ = _
      rw [run_assert_of_false htt.symm]
  | cons t ts' =>
    by_cases ht : t = tt
    · subst ht
      exact .inl ⟨ts', rfl, run_assertTokenType t⟩
    · right
      refine ⟨⟨ts', b⟩, ?_⟩
      change (assert (t = tt) : Prog Scanner Unit).run ⟨ts', b⟩ = _
      rw [run_assert_of_false ht]

/-- `scanScalar` consumes a scalar or fails an assertion. -/
theorem run_scanScalar_cases (ts : List Token) :
    (∃ v ts', ts = .scalar v :: ts' ∧ scanScalar.run ⟨ts, b⟩ = .ok v ⟨ts', b⟩) ∨
      ∃ s, scanScalar.run ⟨ts, b⟩ = .error .assertion s := by
  cases ts with
  | nil => cases b <;> exact .inr ⟨_, rfl⟩
  | cons t ts' =>
    cases t with
    | scalar v => exact .inl ⟨v, ts', rfl, run_scanScalar v⟩
    | _ => exact .inr ⟨_, rfl⟩

/-! ## The header -/

/-- No key of the token sequence is `proxies`, in the eyes of a loop that looks at the token
behind each `KEY`. -/
def passes : List Token → Bool
  | .key :: t :: ts => t ≠ .scalar (utf8 "proxies") && passes ts
  | [.key] => false
  | _ :: ts => passes ts
  | [] => true

/-- Other tokens than keys are passed over one by one. -/
theorem run_skipHeaderBody_of_ne_key {t : Token} (ht : t ≠ .key) :
    (skipHeaderBody ()).run ⟨t :: ts, b⟩ = .ok (.inl ()) ⟨ts, b⟩ := by
  simp [skipHeaderBody, ht]

/-- Other keys are passed over with the token behind them. -/
theorem run_skipHeaderBody_of_ne_proxies {t : Token} (ht : t ≠ .scalar (utf8 "proxies")) :
    (skipHeaderBody ()).run ⟨.key :: t :: ts, b⟩ = .ok (.inl ()) ⟨ts, b⟩ := by
  simp [skipHeaderBody, ht]

/-- The key `proxies` ends the loop. -/
theorem run_skipHeaderBody_proxies :
    (skipHeaderBody ()).run ⟨.key :: .scalar (utf8 "proxies") :: ts, b⟩ =
      .ok (.inr ()) ⟨ts, b⟩ := by
  simp [skipHeaderBody]

/-- Skipping the header stops behind the first key `proxies`. -/
theorem run_skipHeader {header : List Token} (hheader : passes header = true)
    (hfuel : header.length < fuel) :
    (skipHeader fuel).run ⟨header ++ .key :: .scalar (utf8 "proxies") :: rest, b⟩ =
      .ok () ⟨rest, b⟩ := by
  rw [skipHeader]
  -- the rounds are those in which `passes` goes over the header
  fun_induction passes header generalizing fuel with
  | case1 t ts ih =>
    obtain ⟨fuel, rfl⟩ : ∃ n, fuel = n + 1 := ⟨fuel - 1, by omega⟩
    rw [Bool.and_eq_true, decide_eq_true_eq] at hheader
    simp only [List.length_cons] at hfuel
    rw [List.cons_append, List.cons_append,
      run_loop_of_next (run_skipHeaderBody_of_ne_proxies hheader.1)]
    exact ih hheader.2 (by omega)
  | case2 => cases hheader
  | case3 t ts hcons hsingle ih =>
    obtain ⟨fuel, rfl⟩ : ∃ n, fuel = n + 1 := ⟨fuel - 1, by omega⟩
    have ht : t ≠ .key := by
      rintro rfl
      cases ts with
      | nil => exact hsingle rfl rfl
      | cons t ts => exact hcons t ts rfl rfl
    simp only [List.length_cons] at hfuel
    rw [List.cons_append, run_loop_of_next (run_skipHeaderBody_of_ne_key ht)]
    exact ih hheader (by omega)
  | case4 =>
    obtain ⟨fuel, rfl⟩ : ∃ n, fuel = n + 1 := ⟨fuel - 1, by omega⟩
    rw [List.nil_append, run_loop_of_done run_skipHeaderBody_proxies]

/-! ## Skipping a node -/

/-- Tokens that open or close no block leave the count as it is. -/
theorem run_skipNodeBody_of_ne {t : Token} (hstart : t ≠ .blockMappingStart)
    (hend : t ≠ .blockEnd) (lean : ℕ) :
    (skipNodeBody lean).run ⟨t :: ts, b⟩ = .ok (.inl lean) ⟨ts, b⟩ := by
  simp [skipNodeBody, hstart, hend]

/-- A mapping that starts is counted. -/
theorem run_skipNodeBody_mappingStart (lean : ℕ) :
    (skipNodeBody lean).run ⟨.blockMappingStart :: ts, b⟩ = .ok (.inl (lean + 1)) ⟨ts, b⟩ := by
  simp [skipNodeBody]

/-- A block that ends is counted off. -/
theorem run_skipNodeBody_blockEnd (lean : ℕ) :
    (skipNodeBody (lean + 1)).run ⟨.blockEnd :: ts, b⟩ = .ok (.inl lean) ⟨ts, b⟩ := by
  simp only [skipNodeBody, EStateM.run_bind, run_scan_cons, reduceCtorEq, ↓reduceIte,
    Nat.add_eq_zero_iff, one_ne_zero, and_false, Nat.le_add_left, run_assert_of_true]
  rfl

/-- The end of the entry itself ends the loop. -/
theorem run_skipNodeBody_blockEnd_zero :
    (skipNodeBody 0).run ⟨.blockEnd :: ts, b⟩ = .ok (.inr ()) ⟨ts, b⟩ := by
  simp [skipNodeBody]

/-- The same for the loop: one round for a token that opens or closes no block, -/
theorem run_skipNode_of_ne {t : Token} (hstart : t ≠ .blockMappingStart) (hend : t ≠ .blockEnd)
    (n lean : ℕ) :
    (skipNode (n + 1) lean).run ⟨t :: ts, b⟩ = (skipNode n lean).run ⟨ts, b⟩ := by
  rw [skipNode, run_loop_of_next (run_skipNodeBody_of_ne hstart hend lean), skipNode]

/-- and one for each token of a row of them. -/
theorem run_skipNode_flat {flat : List Token} (hflat : ∀ t ∈ flat, t.isBlock = false)
    (n lean : ℕ) :
    (skipNode (flat.length + n) lean).run ⟨flat ++ rest, b⟩ = (skipNode n lean).run ⟨rest, b⟩ := by
  induction flat with
  | nil => rw [List.length_nil, Nat.zero_add, List.nil_append]
  | cons t flat ih =>
    rw [List.forall_mem_cons] at hflat
    have hstart : t ≠ .blockMappingStart := by
      rintro rfl
      cases hflat.1
    have hend : t ≠ .blockEnd := by
      rintro rfl
      cases hflat.1
    rw [List.length_cons, Nat.add_right_comm, List.cons_append, run_skipNode_of_ne hstart hend]
    exact ih hflat.2

mutual

/-- Skipping passes a value without indented block sequences and leaves the counter as it was. -/
theorem run_skipNode_tokens (n lean : ℕ) (rest : List Token) :
    ∀ v : Block, .blockSequenceStart ∉ v.tokens →
      (skipNode (v.tokens.length + n) lean).run ⟨v.tokens ++ rest, b⟩ =
        (skipNode n lean).run ⟨rest, b⟩
  | .leaf ts flat, _ => by
    rw [Block.tokens_leaf]
    exact run_skipNode_flat flat n lean
  | .mapping ps, hps => by
    have hps : .blockSequenceStart ∉ Block.pairTokens ps := by
      rw [Block.tokens_mapping] at hps
      exact fun h => hps (List.mem_cons_of_mem _ (List.mem_append_left _ h))
    have hlength : (Block.mapping ps).tokens.length + n =
        (Block.pairTokens ps).length + (n + 1) + 1 := by
      rw [Block.tokens_mapping, List.length_cons, List.length_append, List.length_singleton]
      omega
    -- the counter goes up, over the pairs, and down again
    rw [hlength, Block.tokens_mapping, List.cons_append, List.append_assoc, skipNode,
      run_loop_of_next (run_skipNodeBody_mappingStart lean), ← skipNode,
      run_skipNode_pairTokens (n + 1) (lean + 1) _ ps hps, skipNode, List.singleton_append,
      run_loop_of_next (run_skipNodeBody_blockEnd lean), skipNode]
  | .sequence vs, hvs => by
    rw [Block.tokens_sequence] at hvs
    exact absurd List.mem_cons_self hvs
  | .indentless vs, hvs => by
    rw [Block.tokens_indentless] at hvs ⊢
    exact run_skipNode_itemTokens n lean rest vs hvs

/-- Skipping passes the pairs of a mapping without indented block sequences. -/
theorem run_skipNode_pairTokens (n lean : ℕ) (rest : List Token) :
    ∀ ps : List (CString × Block), .blockSequenceStart ∉ Block.pairTokens ps →
      (skipNode ((Block.pairTokens ps).length + n) lean).run ⟨Block.pairTokens ps ++ rest, b⟩ =
        (skipNode n lean).run ⟨rest, b⟩
  | [], _ => by
    rw [Block.pairTokens_nil, List.length_nil, Nat.zero_add, List.nil_append]
  | (k, v) :: ps, hps => by
    have htokens : Block.pairTokens ((k, v) :: ps) =
        [.key, .scalar k, .value] ++ (v.tokens ++ Block.pairTokens ps) := by
      rw [Block.pairTokens_cons]
      rfl
    rw [htokens, List.mem_append, not_or, List.mem_append, not_or] at hps
    obtain ⟨-, hv, hps⟩ := hps
    -- the key opens and closes no block, then comes its value
    have hkey : ∀ t ∈ [Token.key, .scalar k, .value], t.isBlock = false := by
      simp [Token.isBlock]
    rw [htokens, List.length_append, List.length_append, List.append_assoc, List.append_assoc,
      Nat.add_assoc, Nat.add_assoc, run_skipNode_flat hkey, run_skipNode_tokens _ _ _ v hv,
      run_skipNode_pairTokens _ _ _ ps hps]

/-- Skipping passes the entries of an indentless sequence without indented ones. -/
theorem run_skipNode_itemTokens (n lean : ℕ) (rest : List Token) :
    ∀ vs : List Block, .blockSequenceStart ∉ Block.itemTokens vs →
      (skipNode ((Block.itemTokens vs).length + n) lean).run ⟨Block.itemTokens vs ++ rest, b⟩ =
        (skipNode n lean).run ⟨rest, b⟩
  | [], _ => by
    rw [Block.itemTokens_nil, List.length_nil, Nat.zero_add, List.nil_append]
  | v :: vs, hvs => by
    rw [Block.itemTokens_cons, List.mem_cons, not_or, List.mem_append, not_or] at hvs
    obtain ⟨-, hv, hvs⟩ := hvs
    rw [Block.itemTokens_cons, List.length_cons, List.length_append, List.cons_append,
      List.append_assoc, Nat.add_right_comm, run_skipNode_of_ne (by decide) (by decide),
      Nat.add_assoc, run_skipNode_tokens _ _ _ v hv, run_skipNode_itemTokens _ _ _ vs hvs]

end

/-- Skipping from within a mapping stops behind the end of this mapping. -/
theorem run_skipNode {ps : List (CString × Block)}
    (hps : .blockSequenceStart ∉ Block.pairTokens ps)
    (hfuel : (Block.pairTokens ps).length < fuel) :
    (skipNode fuel 0).run ⟨Block.pairTokens ps ++ .blockEnd :: rest, b⟩ = .ok () ⟨rest, b⟩ := by
  obtain ⟨n, rfl⟩ : ∃ n, fuel = (Block.pairTokens ps).length + (n + 1) :=
    ⟨fuel - (Block.pairTokens ps).length - 1, by omega⟩
  rw [run_skipNode_pairTokens _ _ _ ps hps, skipNode,
    run_loop_of_done run_skipNodeBody_blockEnd_zero]

/-- Skipping may also start behind the first `KEY` of the pairs. -/
theorem run_skipNode_of_key {k : CString} {v : Block} {ps : List (CString × Block)}
    (hps : .blockSequenceStart ∉ Block.pairTokens ((k, v) :: ps))
    (hfuel : (Block.pairTokens ((k, v) :: ps)).length ≤ fuel) :
    (skipNode fuel 0).run
        ⟨.scalar k :: .value :: (v.tokens ++ Block.pairTokens ps ++ .blockEnd :: rest), b⟩ =
      .ok () ⟨rest, b⟩ := by
  have hrun : (skipNode (fuel + 1) 0).run
      ⟨Block.pairTokens ((k, v) :: ps) ++ .blockEnd :: rest, b⟩ = .ok () ⟨rest, b⟩ :=
    run_skipNode hps (by omega)
  rwa [Block.pairTokens_cons, List.cons_append, run_skipNode_of_ne (by decide) (by decide)] at hrun

/-- A body without a sequence emits no token that starts one. -/
theorem blockSequenceStart_notMem_pairTokens {ps : List (CString × Block)}
    (hps : Block.PairsNoSequence ps) : .blockSequenceStart ∉ Block.pairTokens ps := by
  intro hmem
  cases Block.isSequence_of_mem_pairTokens ps hps _ hmem

/-! ## Entries -/

/-- The scalar under the key `k`. -/
def field (k : String) (ps : List (CString × Block)) : CString :=
  match ps.lookup (utf8 k) with
  | some (.leaf [.scalar v] _) => v
  | _ => []

/-- The node that an entry describes. -/
def nodeOf (ps : List (CString × Block)) : Node where
  obfs := false
  name := field "name" ps
  server := field "server" ps

/-- The credentials that an entry holds. -/
def credentialsOf (ps : List (CString × Block)) : Credentials where
  port := field "port" ps
  cipher := field "cipher" ps
  password := field "password" ps

/-- What the program does with an entry. -/
def verdict (ps : List (CString × Block)) : Entry :=
  if isCn (field "name" ps) then .drop .cn
  else if field "type" ps ≠ utf8 "ss" then .drop .type
  else if Inet.pton6 (field "server" ps) then .drop .ipv6
  else if field "server" ps = utf8 "127.0.0.1" then .drop .loopback
  -- a key behind `udp`
  else if 7 < ps.length then .drop .obfs
  else .keep (nodeOf ps) (credentialsOf ps)

/-- The pairs `ps` start with a key and a plain scalar that fits a buffer. -/
inductive StartsWith (k : String) (size : ℕ) (v : CString) (rest : List (CString × Block)) :
    List (CString × Block) → Prop
  | intro (fits : Fits size v) : StartsWith k size v rest ((utf8 k, .plain v) :: rest)

/-- The pairs of an entry behind the server. -/
def ConformsCredentials (ps : List (CString × Block)) : Prop :=
  ∃ port cipher password ps₁ ps₂ ps₃ ps₄,
    StartsWith "port" szPort port ps₁ ps ∧ StartsWith "cipher" szCipher cipher ps₂ ps₁ ∧
      StartsWith "password" sz password ps₃ ps₂ ∧ ps₃ = (utf8 "udp", .plain (utf8 "true")) :: ps₄

/-- The pairs of an entry behind the type `ss`. -/
def ConformsServer (ps : List (CString × Block)) : Prop :=
  ∃ server ps₁, StartsWith "server" sz server ps₁ ps ∧
    (Inet.pton6 server = false → server ≠ utf8 "127.0.0.1" → ConformsCredentials ps₁)

/-- The pairs of an entry behind a name that is not dropped. -/
def ConformsType (ps : List (CString × Block)) : Prop :=
  ∃ type ps₁, StartsWith "type" 8 type ps₁ ps ∧ (type = utf8 "ss" → ConformsServer ps₁)

/-- An entry that the program is written for: as long as nothing drops it, it goes on with the
key that is read next, and it contains no block sequence. -/
def Conforms (ps : List (CString × Block)) : Prop :=
  Block.PairsNoSequence ps ∧
    ∃ name ps₁, StartsWith "name" sz name ps₁ ps ∧ name ≠ [] ∧
      (isCn name = false → ConformsType ps₁)

/-- The first pair with the key decides. -/
@[simp] theorem field_cons_self (k : String) (v : CString) (ps : List (CString × Block)) :
    field k ((utf8 k, .plain v) :: ps) = v := by
  simp [field, Block.plain]

/-- Pairs with other keys do not matter. -/
theorem field_cons_of_ne {k k' : String} (h : utf8 k ≠ utf8 k') (v : Block)
    (ps : List (CString × Block)) : field k ((utf8 k', v) :: ps) = field k ps := by
  rw [field, List.lookup_cons, beq_false_of_ne h, field]

/-- An iteration of the proxy loop consumes exactly one entry, whichever branch it takes. -/
theorem run_readEntry {ps : List (CString × Block)} (hps : Conforms ps)
    (hfuel : (Block.pairTokens ps).length < fuel) :
    (readEntry fuel).run ⟨.blockEntry :: ((Block.mapping ps).tokens ++ rest), b⟩ =
      .ok (verdict ps) ⟨rest, b⟩ := by
  obtain ⟨hflat, name, ps₁, ⟨hname⟩, -, hps₁⟩ := hps
  rw [verdict]
  simp (disch := decide +kernel) only [field_cons_self, field_cons_of_ne]
  simp only [Block.pairsNoSequence_cons, Block.pairTokens_cons, Block.tokens_plain,
    List.length_cons, List.length_append] at hflat hfuel
  simp only [readEntry, Block.tokens_mapping, Block.pairTokens_cons, Block.tokens_plain,
    List.cons_append, List.append_assoc, List.nil_append, EStateM.run_bind, run_scan_cons,
    reduceCtorEq, ↓reduceIte, run_assert_of_true, run_assertTokenType,
    run_extractValueWithKey hname]
  -- dropped after the name
  by_cases hcn : isCn name
  · simp only [hcn, ↓reduceIte, EStateM.run_bind]
    rw [run_skipNode (blockSequenceStart_notMem_pairTokens hflat.2) (by omega)]
    rfl
  have hcn' : isCn name = false := by simpa using hcn
  obtain ⟨type, ps₂, ⟨htype⟩, hps₂⟩ := hps₁ hcn'
  simp (disch := decide +kernel) only [field_cons_self, field_cons_of_ne]
  simp only [Block.pairsNoSequence_cons, Block.pairTokens_cons, Block.tokens_plain,
    List.length_cons, List.length_append] at hflat hfuel
  simp only [hcn', Bool.false_eq_true, ↓reduceIte, EStateM.run_bind, Block.pairTokens_cons,
    Block.tokens_plain, List.cons_append, List.nil_append, run_extractValueWithKey htype]
  -- dropped after the type
  by_cases hss : type = utf8 "ss"
  swap
  · simp only [ne_eq, hss, not_false_eq_true, ↓reduceIte, EStateM.run_bind]
    rw [run_skipNode (blockSequenceStart_notMem_pairTokens hflat.2.2) (by omega)]
    rfl
  obtain ⟨server, ps₃, ⟨hserver⟩, hps₃⟩ := hps₂ hss
  simp only [field_cons_self]
  simp only [Block.pairsNoSequence_cons, Block.pairTokens_cons, Block.tokens_plain,
    List.length_cons, List.length_append] at hflat hfuel
  simp only [ne_eq, hss, not_true_eq_false, ↓reduceIte, EStateM.run_bind, Block.pairTokens_cons,
    Block.tokens_plain, List.cons_append, List.nil_append, run_extractValueWithKey hserver]
  -- dropped after the server, for its address
  by_cases hipv6 : Inet.pton6 server
  · simp only [hipv6, ↓reduceIte, EStateM.run_bind]
    rw [run_skipNode (blockSequenceStart_notMem_pairTokens hflat.2.2.2) (by omega)]
    rfl
  have hipv6' : Inet.pton6 server = false := by simpa using hipv6
  simp only [hipv6', Bool.false_eq_true, ↓reduceIte]
  -- dropped after the server, for being the machine itself
  by_cases hloopback : server = utf8 "127.0.0.1"
  · simp only [hloopback, ↓reduceIte, EStateM.run_bind]
    rw [run_skipNode (blockSequenceStart_notMem_pairTokens hflat.2.2.2) (by omega)]
    rfl
  obtain ⟨port, cipher, password, ps₄, ps₅, ps₆, ps₇, ⟨hport⟩, ⟨hcipher⟩, ⟨hpassword⟩, rfl⟩ :=
    hps₃ hipv6' hloopback
  simp only [Block.pairsNoSequence_cons, Block.pairTokens_cons, Block.tokens_plain,
    List.length_cons, List.length_append] at hflat hfuel
  simp only [hloopback, ↓reduceIte, EStateM.run_bind, Block.pairTokens_cons, Block.tokens_plain,
    List.cons_append, List.nil_append, run_extractValueWithKey hport,
    run_extractValueWithKey hcipher, run_extractValueWithKey hpassword, run_assertValueWithKey]
  -- kept: what is left of the entry is skipped, and the end of the mapping is the next token or not
  cases ps₇ with
  | nil =>
    simp only [Block.pairTokens_nil, List.nil_append, run_scan_cons]
    rfl
  | cons p ps₇ =>
    obtain ⟨k, v⟩ := p
    simp only [Block.pairTokens_cons, List.cons_append, run_scan_cons, EStateM.run_bind]
    rw [run_skipNode_of_key (blockSequenceStart_notMem_pairTokens hflat.2.2.2.2.2.2.2)
      (by omega), if_pos (by simp only [List.length_cons]; omega)]
    rfl

end Convert
