import Clash.Convert.Parsing
import Clash.Convert.Run

/-!
# The proxy loop on conforming input

The loop leaves an entry at six different places and has to find the next entry from each of
them. On a list of entries that conform it does: the parser stands in front of an entry, or of
the end of the list, whenever an iteration starts.

## Main definitions

* `documentTokens`: a document with a list of proxies.
* `Selected`: the entries that are emitted.

## Main results

* `proxyLoop_aligned`: the loop consumes the entries one by one, ends behind the list, and hands
  on exactly the selected entries.
-/

open CProg CString Yaml

namespace Convert

/-- A document whose key `proxies` has the given value. -/
def documentTokens (header : List Token) (proxies : Block) (rest : List Token) : List Token :=
  .streamStart :: .blockMappingStart ::
    (header ++ .key :: .scalar (utf8 "proxies") :: .value :: (proxies.tokens ++ rest))

/-- The tokens of the entries of a list of proxies. -/
def entriesTokens (entries : List (List (CString × Block))) : List Token :=
  Block.itemTokens (entries.map .mapping)

@[simp] theorem entriesTokens_nil : entriesTokens [] = [] :=
  Block.itemTokens_nil

@[simp] theorem entriesTokens_cons (ps : List (CString × Block))
    (entries : List (List (CString × Block))) :
    entriesTokens (ps :: entries) =
      .blockEntry :: ((Block.mapping ps).tokens ++ entriesTokens entries) := by
  rw [entriesTokens, List.map_cons, Block.itemTokens_cons, entriesTokens]

/-- An entry that is emitted: its name has none of the four markers, its type is `ss`, its server
is neither an IPv6 address nor the loopback address, and no key follows `udp`, the seventh. -/
def Selected (ps : List (CString × Block)) : Prop :=
  isCn (field "name" ps) = false ∧ field "type" ps = utf8 "ss" ∧
    Inet.pton6 (field "server" ps) = false ∧ field "server" ps ≠ utf8 "127.0.0.1" ∧
    ps.length ≤ 7

instance (ps : List (CString × Block)) : Decidable (Selected ps) := by
  unfold Selected
  infer_instance

/-- The nodes that the loop hands on, with their credentials. -/
def selectedNodes (entries : List (List (CString × Block))) : List (Node × Credentials) :=
  (entries.filter Selected).map fun ps => (nodeOf ps, credentialsOf ps)

/-- A selected entry is kept with its own node and credentials. -/
theorem verdict_of_selected {ps : List (CString × Block)} (h : Selected ps) :
    verdict ps = .keep (nodeOf ps) (credentialsOf ps) := by
  obtain ⟨hname, htype, hipv6, hloopback, hlength⟩ := h
  simp [verdict, hname, htype, hipv6, hloopback, hlength]

/-- Every other one is dropped. -/
theorem verdict_of_not_selected {ps : List (CString × Block)} (h : ¬ Selected ps) :
    ∃ why, verdict ps = .drop why := by
  unfold verdict
  split_ifs with hname htype hipv6 hloopback hlength
  · exact ⟨_, rfl⟩
  · exact ⟨_, rfl⟩
  · exact ⟨_, rfl⟩
  · exact ⟨_, rfl⟩
  · exact ⟨_, rfl⟩
  · exact absurd ⟨by simpa using hname, not_not.mp htype, by simpa using hipv6, hloopback,
      not_lt.mp hlength⟩ h

/-- The nodes behind a selected entry, -/
theorem selectedNodes_cons_of_selected {ps : List (CString × Block)} (h : Selected ps)
    (entries : List (List (CString × Block))) :
    selectedNodes (ps :: entries) = (nodeOf ps, credentialsOf ps) :: selectedNodes entries := by
  simp [selectedNodes, h]

/-- and behind one that is dropped. -/
theorem selectedNodes_cons_of_not_selected {ps : List (CString × Block)} (h : ¬ Selected ps)
    (entries : List (List (CString × Block))) :
    selectedNodes (ps :: entries) = selectedNodes entries := by
  simp [selectedNodes, h]

/-- The name of a conforming entry is not empty. -/
theorem name_ne_nil_of_conforms {ps : List (CString × Block)} (h : Conforms ps) :
    (nodeOf ps).name ≠ [] := by
  obtain ⟨-, name, ps₁, ⟨-⟩, hname, -⟩ := h
  rwa [nodeOf, field_cons_self]

variable {fuel : ℕ} {rest : List Token} {b : Bool}

/-- The parser reaches the first entry of an indented list. -/
theorem run_parserBegin {header : List Token} (hheader : passes header = true)
    (hfuel : header.length < fuel) (vs : List Block) :
    (parserBegin fuel).run ⟨documentTokens header (.sequence vs) rest, b⟩ =
      .ok () ⟨Block.itemTokens vs ++ .blockEnd :: rest, b⟩ := by
  simp [parserBegin, documentTokens, run_skipHeader hheader hfuel]

/-- The parser stops at a list that is not indented. -/
theorem run_parserBegin_of_ne {header : List Token} (hheader : passes header = true)
    (hfuel : header.length < fuel) {v : Block} {t : Token} {ts : List Token}
    (hv : v.tokens ++ rest = t :: ts) (ht : t ≠ .blockSequenceStart) :
    (parserBegin fuel).run ⟨documentTokens header v rest, b⟩ = .error .assertion ⟨ts, b⟩ := by
  simp [parserBegin, documentTokens, run_skipHeader hheader hfuel, hv, assertTokenType, ht]

/-- The parser stops at the first entry of an indentless list. -/
theorem run_parserBegin_indentless {header : List Token} (hheader : passes header = true)
    (hfuel : header.length < fuel) (v : Block) (vs : List Block) :
    ∃ parser', (parserBegin fuel).run ⟨documentTokens header (.indentless (v :: vs)) rest, b⟩ =
      .error .assertion parser' := by
  refine ⟨⟨v.tokens ++ (Block.itemTokens vs ++ rest), b⟩, ?_⟩
  refine run_parserBegin_of_ne hheader hfuel ?_ (t := .blockEntry) (by decide)
  rw [Block.tokens_indentless, Block.itemTokens_cons, List.cons_append, List.append_assoc]

/-- At the end of the list the loop ends. -/
theorem run_readEntry_blockEnd :
    (readEntry fuel).run ⟨.blockEnd :: rest, b⟩ = .ok .sequenceEnd ⟨rest, b⟩ := by
  simp [readEntry]

/-- What the proxy loop does from the front of a list of entries that conform: it ends behind the
list and hands on the selected entries, or it stops in the comparison of the credentials of one
of these and has handed on those before it. -/
def Aligned (n fuel : ℕ) (entries : List (List (CString × Block))) (rest : List Token) (b : Bool)
    (st : State) : Prop :=
  (∃ st', (loop (proxyBody fuel) n ()).run st = .ok () st' ∧ st'.parser = ⟨rest, b⟩ ∧
      Handed st st' (selectedNodes entries)) ∨
    ∃ before ps after e st', entries = before ++ ps :: after ∧ Selected ps ∧
      (loop (proxyBody fuel) n ()).run st = .error e st' ∧
      st'.parser = ⟨entriesTokens after ++ .blockEnd :: rest, b⟩ ∧
      Handed st st' (selectedNodes before) ∧
      (checkCredentials (credentialsOf ps)).run st' = .error e st'

/-- The loop on conforming entries: it consumes exactly the list and hands on the selected nodes. -/
theorem aligned_of_conforms {entries : List (List (CString × Block))}
    (hentries : ∀ ps ∈ entries, Conforms ps) {n : ℕ} (hn : entries.length < n)
    (hfuel : (entriesTokens entries).length < fuel) {st : State}
    (hst : st.parser = ⟨entriesTokens entries ++ .blockEnd :: rest, b⟩) :
    Aligned n fuel entries rest b st := by
  induction entries generalizing n st with
  | nil =>
    obtain ⟨n, rfl⟩ : ∃ m, n = m + 1 := ⟨n - 1, by omega⟩
    -- the list is at its end, and so is the loop
    have hread : (readEntry fuel).run st.parser = .ok .sequenceEnd ⟨rest, b⟩ := by
      rw [hst, entriesTokens_nil, List.nil_append, run_readEntry_blockEnd]
    exact .inl ⟨_, run_loop_of_done (run_proxyBody_of_sequenceEnd hread), rfl, .of_eq rfl rfl⟩
  | cons ps entries ih =>
    obtain ⟨n, rfl⟩ : ∃ m, n = m + 1 := ⟨n - 1, by omega⟩
    rw [List.forall_mem_cons] at hentries
    obtain ⟨hps, hentries⟩ := hentries
    rw [List.length_cons] at hn
    simp only [entriesTokens_cons, Block.tokens_mapping, List.length_cons, List.length_append]
      at hfuel
    have hread : (readEntry fuel).run st.parser =
        .ok (verdict ps) ⟨entriesTokens entries ++ .blockEnd :: rest, b⟩ := by
      rw [hst, entriesTokens_cons, List.cons_append, List.append_assoc,
        run_readEntry hps (by omega)]
    -- an iteration takes one entry, so the induction goes on behind it
    have hnext (st₁ : State)
        (hst₁ : st₁.parser = ⟨entriesTokens entries ++ .blockEnd :: rest, b⟩) :
        Aligned n fuel entries rest b st₁ :=
      ih hentries (by omega) (by omega) hst₁
    by_cases hselected : Selected ps
    · rw [verdict_of_selected hselected] at hread
      -- the node is handed on, or its credentials differ; its name is not empty
      obtain ⟨st₁, hbody, hst₁, hnode⟩ | ⟨e, hbody, hcheck⟩ | ⟨hname, -⟩ :=
        run_proxyBody_of_keep hread
      · rw [Aligned, run_loop_of_next hbody, selectedNodes_cons_of_selected hselected]
        obtain ⟨st', hrun, hst', hhanded⟩ |
          ⟨before, ps', after, e, st', rfl, hps', hrun, hst', hhanded, hcheck⟩ := hnext st₁ hst₁
        · exact .inl ⟨st', hrun, hst', hnode.trans hhanded⟩
        · refine .inr ⟨ps :: before, ps', after, e, st', rfl, hps', hrun, hst', ?_, hcheck⟩
          rw [selectedNodes_cons_of_selected hselected]
          exact hnode.trans hhanded
      · exact .inr ⟨[], ps, entries, e, _, rfl, hselected, run_loop_of_error hbody, rfl,
          .of_eq rfl rfl, hcheck⟩
      · exact absurd hname (name_ne_nil_of_conforms hps)
    · obtain ⟨why, hwhy⟩ := verdict_of_not_selected hselected
      rw [hwhy] at hread
      rw [Aligned, run_loop_of_next (run_proxyBody_of_drop hread),
        selectedNodes_cons_of_not_selected hselected]
      obtain ⟨st', hrun, hst', hhanded⟩ |
        ⟨before, ps', after, e, st', rfl, hps', hrun, hst', hhanded, hcheck⟩ :=
          hnext { st with parser := ⟨entriesTokens entries ++ .blockEnd :: rest, b⟩ } rfl
      · exact .inl ⟨st', hrun, hst', hhanded.events, hhanded.lists⟩
      · refine .inr ⟨ps :: before, ps', after, e, st', rfl, hps', hrun, hst', ?_, hcheck⟩
        rw [selectedNodes_cons_of_not_selected hselected]
        exact ⟨hhanded.events, hhanded.lists⟩

/-- An entry is at least one token. -/
theorem length_le_entriesTokens (entries : List (List (CString × Block))) :
    entries.length ≤ (entriesTokens entries).length := by
  induction entries with
  | nil => simp
  | cons ps entries ih =>
    simp only [entriesTokens_cons, List.length_cons, List.length_append]
    omega

/-- The pairs of an entry are fewer tokens than the list. -/
theorem length_pairTokens_lt {ps : List (CString × Block)}
    {entries : List (List (CString × Block))} (hps : ps ∈ entries) :
    (Block.pairTokens ps).length < (entriesTokens entries).length := by
  induction hps with
  | head entries =>
    simp only [entriesTokens_cons, Block.tokens_mapping, List.length_cons, List.length_append]
    omega
  | tail ps' _ ih =>
    simp only [entriesTokens_cons, List.length_cons, List.length_append]
    omega

/-- The kept nodes of a list of entries that conform are the selected ones. -/
theorem keptNodes_entriesTokens {entries : List (List (CString × Block))}
    (hentries : ∀ ps ∈ entries, Conforms ps) {n : ℕ} (hn : entries.length < n)
    (hfuel : (entriesTokens entries).length < fuel) :
    keptNodes fuel n ⟨entriesTokens entries ++ .blockEnd :: rest, b⟩ = selectedNodes entries := by
  obtain ⟨n, rfl⟩ : ∃ m, n = m + 1 := ⟨n - 1, by omega⟩
  -- one round for each entry, and one for the end of the list
  induction entries generalizing n with
  | nil =>
    rw [entriesTokens_nil, List.nil_append, keptNodes_succ_of_sequenceEnd run_readEntry_blockEnd]
    rfl
  | cons ps entries ih =>
    rw [List.forall_mem_cons] at hentries
    rw [List.length_cons] at hn
    have hread : (readEntry fuel).run ⟨entriesTokens (ps :: entries) ++ .blockEnd :: rest, b⟩ =
        .ok (verdict ps) ⟨entriesTokens entries ++ .blockEnd :: rest, b⟩ := by
      rw [entriesTokens_cons, List.cons_append, List.append_assoc]
      exact run_readEntry hentries.1
        ((length_pairTokens_lt List.mem_cons_self).trans hfuel)
    have hlength : (entriesTokens entries).length < fuel := by
      simp only [entriesTokens_cons, List.length_cons, List.length_append] at hfuel
      omega
    obtain ⟨m, rfl⟩ : ∃ m, n = m + 1 := ⟨n - 1, by omega⟩
    -- the verdict on the entry decides what the round does
    by_cases hselected : Selected ps
    · rw [verdict_of_selected hselected] at hread
      rw [keptNodes_succ_of_keep hread, selectedNodes_cons_of_selected hselected,
        ih hentries.2 hlength m (by omega)]
    · obtain ⟨why, hwhy⟩ := verdict_of_not_selected hselected
      rw [hwhy] at hread
      rw [keptNodes_succ_of_drop hread, selectedNodes_cons_of_not_selected hselected,
        ih hentries.2 hlength m (by omega)]

/-- What is emitted for a document with an indented list depends on the list alone. -/
theorem emittedNodes_documentTokens {header : List Token} (hheader : passes header = true)
    {entries : List (List (CString × Block))} (hentries : ∀ ps ∈ entries, Conforms ps)
    (hfuel : header.length + (entriesTokens entries).length < fuel) :
    emittedNodes fuel ⟨documentTokens header (.sequence (entries.map .mapping)) rest, b⟩ =
      selectedNodes entries := by
  have hlength := length_le_entriesTokens entries
  rw [emittedNodes, run_parserBegin hheader (by omega)]
  exact keptNodes_entriesTokens hentries (by omega) (by omega)

/-- On a list of entries that conform, the proxy loop stays aligned with the entries. The parser
functions reach the first entry, each iteration consumes exactly one entry, whichever branch it
takes, and the loop ends behind the `BLOCK_END` of the list and hands on exactly the selected
entries in order, unless it stops in the comparison of the credentials. -/
theorem proxyLoop_aligned {entries : List (List (CString × Block))}
    (hentries : ∀ ps ∈ entries, Conforms ps) (hfuel : (entriesTokens entries).length < fuel)
    (rest : List Token) (b : Bool) :
    (∀ header, passes header = true → header.length < fuel →
      (parserBegin fuel).run
          ⟨documentTokens header (.sequence (entries.map .mapping)) rest, b⟩ =
        .ok () ⟨entriesTokens entries ++ .blockEnd :: rest, b⟩) ∧
    (∀ ps ∈ entries, ∀ ts, (readEntry fuel).run
        ⟨.blockEntry :: ((Block.mapping ps).tokens ++ ts), b⟩ = .ok (verdict ps) ⟨ts, b⟩) ∧
    ∀ st : State, st.parser = ⟨entriesTokens entries ++ .blockEnd :: rest, b⟩ →
      (∃ st', (proxyLoop fuel).run st = .ok () st' ∧ st'.parser = ⟨rest, b⟩ ∧
          Handed st st' (selectedNodes entries)) ∨
        ∃ before ps after e st', entries = before ++ ps :: after ∧ Selected ps ∧
          (proxyLoop fuel).run st = .error e st' ∧
          st'.parser = ⟨entriesTokens after ++ .blockEnd :: rest, b⟩ ∧
          Handed st st' (selectedNodes before) ∧
          (checkCredentials (credentialsOf ps)).run st' = .error e st' := by
  -- the header, one entry, and the whole list
  refine ⟨fun header hheader hlength => run_parserBegin hheader hlength _, ?_, ?_⟩
  · intro ps hps ts
    exact run_readEntry (hentries ps hps) ((length_pairTokens_lt hps).trans hfuel)
  · intro st hst
    have hlength := length_le_entriesTokens entries
    exact aligned_of_conforms hentries (by omega) hfuel hst

/-- An entry with the given name, type, server and further pairs. -/
def sampleEntry (name type server : String) (more : List (CString × Block)) :
    List (CString × Block) :=
  (utf8 "name", .plain (utf8 name)) :: (utf8 "type", .plain (utf8 type)) ::
    (utf8 "server", .plain (utf8 server)) :: (utf8 "port", .plain (utf8 "8443")) ::
    (utf8 "cipher", .plain (utf8 "aes-256-gcm")) ::
    (utf8 "password", .plain (utf8 "secret")) :: (utf8 "udp", .plain (utf8 "true")) :: more

/-- The samples conform if their values fit. -/
theorem conforms_sampleEntry {name type server : String} {more : List (CString × Block)}
    (hne : utf8 name ≠ []) (hname : Fits sz (utf8 name)) (htype : Fits 8 (utf8 type))
    (hserver : Fits sz (utf8 server)) (hmore : Block.PairsNoSequence more) :
    Conforms (sampleEntry name type server more) := by
  refine ⟨?_, utf8 name, _, ⟨hname⟩, hne, fun _ => ⟨utf8 type, _, ⟨htype⟩, fun _ =>
    ⟨utf8 server, _, ⟨hserver⟩, fun _ _ => ?_⟩⟩⟩
  · simp [sampleEntry, hmore]
  · exact ⟨_, _, _, _, _, _, _, ⟨by decide +kernel⟩, ⟨by decide +kernel⟩, ⟨by decide +kernel⟩, rfl⟩

/-- The options of a plugin, a block mapping. -/
def samplePlugin : List (CString × Block) :=
  [(utf8 "plugin", .plain (utf8 "obfs")),
    (utf8 "plugin-opts", .mapping [(utf8 "mode", .plain (utf8 "http")),
      (utf8 "host", .leaf [] Block.flat_nil)])]

/-- Two entries to emit, and one for each branch that drops an entry. -/
def sampleEntries : List (List (CString × Block)) := [
  sampleEntry "香港 1" "ss" "192.0.2.1" [],
  sampleEntry "回国 1" "ss" "192.0.2.2" [],
  sampleEntry "新加坡 1" "vmess" "192.0.2.3" samplePlugin,
  sampleEntry "英国 1" "ss" "2001:db8::1" [],
  sampleEntry "到期" "ss" "127.0.0.1" [],
  sampleEntry "美国 1" "ss" "192.0.2.4" samplePlugin,
  sampleEntry "台湾 NTT" "ss" "192.0.2.5" []]

theorem conforms_of_mem_sampleEntries : ∀ ps ∈ sampleEntries, Conforms ps := by
  have hplugin : Block.PairsNoSequence samplePlugin := by
    simp [samplePlugin]
  simp only [sampleEntries, List.forall_mem_cons]
  refine ⟨?_, ?_, ?_, ?_, ?_, ?_, ?_, List.forall_mem_nil _⟩ <;>
    refine conforms_sampleEntry ?_ ?_ ?_ ?_ ?_
  all_goals first | decide +kernel | exact hplugin | exact Block.pairsNoSequence_nil

theorem proxyLoop_aligned_sampleEntries :
    ∃ st', (proxyLoop 300).run
        (initial ⟨entriesTokens sampleEntries ++ [.blockEnd, .streamEnd], false⟩) = .ok () st' ∧
      st'.parser = ⟨[.streamEnd], false⟩ ∧
      st'.events = nodesEvents (selectedNodes sampleEntries) ∧
      namesOf (selectedNodes sampleEntries) = [utf8 "香港 1", utf8 "台湾 NTT"] := by
  have hreturned : returned ((proxyLoop 300).run
      (initial ⟨entriesTokens sampleEntries ++ [.blockEnd, .streamEnd], false⟩)) = true := by
    decide +kernel
  have hfuel : (entriesTokens sampleEntries).length < 300 := by decide +kernel
  obtain ⟨-, -, hloop⟩ :=
    proxyLoop_aligned conforms_of_mem_sampleEntries hfuel [.streamEnd] false
  obtain ⟨st', hrun, hst', hhanded⟩ | ⟨-, -, -, e, st', -, -, hrun, -⟩ := hloop
    (initial ⟨entriesTokens sampleEntries ++ [.blockEnd, .streamEnd], false⟩) rfl
  · exact ⟨st', hrun, hst', hhanded.events, by decide +kernel⟩
  · rw [hrun] at hreturned
    cases hreturned

end Convert
