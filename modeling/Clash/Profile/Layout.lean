import Clash.Convert.Output
import Clash.Profile.Search

/-!
# The layout of the output

The configuration that `clash_convert` writes, as a scanner reads it: its list of proxies is
indentless, and flow style if it is empty. `yaml2profile` reads this layout, and `clash_convert`
itself does not. What each of the two does on the two layouts of a list is the same whatever
stands around the list.

## Main results

* `stream_configContent`: the tokens of the output.
* `consumers_by_layout`: each program accepts one of the two layouts of a list, and on this one
  its result depends on the content of the list alone.
-/

open CProg CString Yaml Convert

namespace Yaml2Profile

/-! ## The tokens of the output -/

theorem entryLayouts_append (es es' : List (CString × Content)) :
    Content.entryLayouts (es ++ es') = Content.entryLayouts es ++ Content.entryLayouts es' := by
  induction es with
  | nil => rw [Content.entryLayouts_nil, List.nil_append, List.nil_append]
  | cons e es ih =>
    obtain ⟨k, c⟩ := e
    rw [List.cons_append, Content.entryLayouts_cons, ih, Content.entryLayouts_cons,
      List.cons_append]

theorem pairTokens_append (ps ps' : List (CString × Block)) :
    Block.pairTokens (ps ++ ps') = Block.pairTokens ps ++ Block.pairTokens ps' := by
  induction ps with
  | nil => rw [Block.pairTokens_nil, List.nil_append, List.nil_append]
  | cons p ps ih =>
    obtain ⟨k, v⟩ := p
    simp only [List.cons_append, Block.pairTokens_cons, ih, List.append_assoc]

/-- The tokens of the header of the output. -/
def headerTokens : List Token := Block.pairTokens (Content.entryLayouts headerEntries)

/-- The tokens of the output behind the list of proxies. -/
def groupsTokens (groups : List (CString × List CString)) : List Token :=
  Block.pairTokens (Content.entryLayouts
    [(utf8 "proxy-groups", .sequence (groups.map fun g => groupContent g.1 g.2))]) ++
      [.blockEnd, .streamEnd]

/-- No key of the header is `proxies`. -/
theorem passes_headerTokens : passes headerTokens = true := by
  decide +kernel

/-- Behind the list of proxies comes a key. -/
theorem groupsTokens_eq_cons (groups : List (CString × List CString)) :
    ∃ ts, groupsTokens groups = .key :: ts := by
  rw [groupsTokens, Content.entryLayouts_cons, Block.pairTokens_cons]
  exact ⟨_, rfl⟩

/-- The output is a document with the emitted nodes. -/
theorem stream_configContent (nodes : List (Node × Credentials))
    (groups : List (CString × List CString)) :
    (configContent nodes groups).stream =
      documentTokens headerTokens
        (Content.layout true (.sequence (nodes.map fun n => nodeContent n.1 n.2)))
        (groupsTokens groups) := by
  have hne : headerEntries ++ [
      (utf8 "proxies", .sequence (nodes.map fun n => nodeContent n.1 n.2)),
      (utf8 "proxy-groups", .sequence (groups.map fun g => groupContent g.1 g.2))] ≠ [] :=
    List.append_ne_nil_of_right_ne_nil _ (List.cons_ne_nil _ _)
  rw [Content.stream, configContent, Content.layout_mapping hne, entryLayouts_append]
  simp only [Block.tokens_mapping, pairTokens_append, Content.entryLayouts_cons,
    Block.pairTokens_cons, documentTokens, headerTokens, groupsTokens, List.append_assoc,
    List.cons_append, List.nil_append, Content.entryLayouts_nil, Block.pairTokens_nil]

/-- None of the fields of a node is empty. -/
structure Filled (n : Node × Credentials) : Prop where
  name : n.1.name ≠ []
  server : n.1.server ≠ []
  port : n.2.port ≠ []
  cipher : n.2.cipher ≠ []
  password : n.2.password ≠ []

/-- A filled node is laid out as a plain mapping. -/
theorem layout_nodeContent {n : Node × Credentials} (hn : Filled n) :
    Content.layout false (nodeContent n.1 n.2) = .mapping (nodePairs n) := by
  rw [nodeContent, Content.layout_mapping (List.cons_ne_nil _ _)]
  simp only [Content.entryLayouts_cons, Content.entryLayouts_nil, nodePairs,
    Content.layout_scalar hn.name, Content.layout_scalar hn.server, Content.layout_scalar hn.port,
    Content.layout_scalar hn.cipher, Content.layout_scalar hn.password]
  rw [Content.layout_scalar (by decide +kernel), Content.layout_scalar (by decide +kernel)]

/-- The output with filled nodes is a document with an indentless list of them. -/
theorem stream_configContent_of_filled {nodes : List (Node × Credentials)} (hne : nodes ≠ [])
    (hnodes : ∀ n ∈ nodes, Filled n) (groups : List (CString × List CString)) :
    (configContent nodes groups).stream =
      indentlessDocument headerTokens nodes (groupsTokens groups) := by
  rw [stream_configContent, indentlessDocument, Content.layout_sequence (by simpa using hne),
    List.map_map]
  congr 2
  exact List.map_congr_left fun n hn => layout_nodeContent (hnodes n hn)

/-! ## The two layouts of a list -/

/-- `clash_convert` stops at its own output, as its list of proxies is not indented. -/
theorem run_parserBegin_stream {fuel : ℕ} (hfuel : headerTokens.length < fuel)
    (nodes : List (Node × Credentials)) (groups : List (CString × List CString)) (b : Bool) :
    ∃ parser', (parserBegin fuel).run ⟨(configContent nodes groups).stream, b⟩ =
      .error .assertion parser' := by
  rw [stream_configContent]
  by_cases hne : nodes = []
  · subst hne
    have htokens : (Content.layout true (.sequence [])).tokens ++ groupsTokens groups =
        .flowSequenceStart :: .flowSequenceEnd :: groupsTokens groups := by
      rw [Content.layout, Block.tokens_leaf]
      rfl
    exact ⟨_, run_parserBegin_of_ne passes_headerTokens hfuel htokens (by decide)⟩
  · obtain ⟨n, nodes, rfl⟩ := List.exists_cons_of_ne_nil hne
    rw [Content.layout_sequence (by simp)]
    exact run_parserBegin_indentless passes_headerTokens hfuel _ _

/-- Each program accepts one of the two layouts of a list of proxies, which it asserts in front of
the first entry. On this layout the result depends on the content of the list alone, whatever
stands around it: `clash_convert` keeps the selected entries, and `yaml2profile` finds the first
node with the wanted name. On the other layout the assertion fails before any entry is read.
`clash_convert` writes the layout that `yaml2profile` accepts, and so it stops at its own
output. -/
theorem consumers_by_layout {header : List Token} (hheader : passes header = true) {t : Token}
    (ht : t = .key ∨ t = .blockEnd) (rest : List Token) (b : Bool) :
    (∀ (entries : List (List (CString × Block))) (fuel : ℕ), entries ≠ [] →
      (∀ ps ∈ entries, Conforms ps) →
      header.length + (entriesTokens entries).length < fuel →
      emittedNodes fuel
          ⟨documentTokens header (.sequence (entries.map .mapping)) (t :: rest), b⟩ =
        selectedNodes entries ∧
      ∃ parser', (parserBegin fuel).run
          ⟨documentTokens header (.indentless (entries.map .mapping)) (t :: rest), b⟩ =
        .error .assertion parser') ∧
    (∀ (nodes : List (Node × Credentials)) (title : CString) (fuel : ℕ)
      (resolv : CString → Option CString), nodes ≠ [] →
      header.length + nodes.length + 24 < fuel →
      (∃ parser', (yaml2profile resolv fuel false title).run
          ⟨indentlessDocument header nodes (t :: rest), b⟩ =
        match lookupProfile title nodes with
        | some p => .ok p parser'
        | none => .error .assertion parser') ∧
      ∃ parser', (yaml2profile resolv fuel false title).run
          ⟨indentedDocument header nodes (t :: rest), b⟩ = .error .assertion parser') ∧
    ∀ (mbCurMax fuel fuel' : ℕ) (parser : Scanner) (st : State),
      (main mbCurMax fuel).run (initial parser) = .ok () st → headerTokens.length < fuel' →
      ∃ content st', compose st.events = some content ∧
        (main mbCurMax fuel').run (initial ⟨content.stream, false⟩) = .error .assertion st' ∧
        st'.events = headerEvents := by
  refine ⟨fun entries fuel hne hentries hfuel => ⟨?_, ?_⟩,
    fun nodes title fuel resolv hne hfuel => ⟨?_, ?_⟩,
    fun mbCurMax fuel fuel' parser st hrun hfuel => ?_⟩
  · -- `clash_convert` on the indented list, and on the other one
    exact emittedNodes_documentTokens hheader hentries hfuel
  · obtain ⟨ps, entries, rfl⟩ := List.exists_cons_of_ne_nil hne
    exact run_parserBegin_indentless hheader (by omega) _ _
  · -- `yaml2profile` the other way round
    have ht' : t ≠ .blockEntry := by
      rcases ht with rfl | rfl
      · decide
      · decide
    exact run_yaml2profile hheader ht' hne hfuel resolv
  · exact ⟨_, run_yaml2profile_indented hheader (by omega) resolv false _⟩
  · -- the emitter writes the layout without `BLOCK_SEQUENCE_START`
    obtain ⟨parser', hbegin⟩ := run_parserBegin_stream hfuel (emittedNodes fuel parser)
      (groupsOf (namesOf (emittedNodes fuel parser))) false
    exact ⟨_, _, (run_main_eq_ok hrun).1, run_main_of_parserBegin_error hbegin, rfl⟩

/-- The two layouts of the sample entries and of the nodes that are kept of them, behind a header,
and the output for a sample. -/
theorem consumers_by_layout_sampleEntries :
    (emittedNodes 400 ⟨documentTokens headerTokens (.sequence (sampleEntries.map .mapping))
        [.blockEnd, .streamEnd], false⟩ = selectedNodes sampleEntries) ∧
      (∃ parser', (parserBegin 400).run ⟨documentTokens headerTokens
        (.indentless (sampleEntries.map .mapping)) [.blockEnd, .streamEnd], false⟩ =
          .error .assertion parser') ∧
      (∃ parser', (yaml2profile some 400 false (utf8 "台湾 NTT")).run
        ⟨indentlessDocument headerTokens (selectedNodes sampleEntries) [.blockEnd, .streamEnd],
          false⟩ =
        .ok ⟨utf8 "192.0.2.5", utf8 "aes-256-gcm", utf8 "secret", 8443⟩ parser') ∧
      (∃ parser', (yaml2profile some 400 false (utf8 "日本")).run
        ⟨indentlessDocument headerTokens (selectedNodes sampleEntries) [.blockEnd, .streamEnd],
          false⟩ = .error .assertion parser') ∧
      (∃ parser', (yaml2profile some 400 false (utf8 "台湾 NTT")).run
        ⟨indentedDocument headerTokens (selectedNodes sampleEntries) [.blockEnd, .streamEnd],
          false⟩ = .error .assertion parser') ∧
      ∃ content st',
        compose (final ((main 6 300).run (initial sampleInput))).events = some content ∧
        (main 6 400).run (initial ⟨content.stream, false⟩) = .error .assertion st' ∧
        st'.events = headerEvents := by
  have hne : selectedNodes sampleEntries ≠ [] := by decide +kernel
  have hfuel : headerTokens.length + (selectedNodes sampleEntries).length + 24 < 400 := by
    decide +kernel
  have hfound : lookupProfile (utf8 "台湾 NTT") (selectedNodes sampleEntries) =
      some ⟨utf8 "192.0.2.5", utf8 "aes-256-gcm", utf8 "secret", 8443⟩ := by
    decide +kernel
  have hmissing : lookupProfile (utf8 "日本") (selectedNodes sampleEntries) = none := by
    decide +kernel
  obtain ⟨hconvert, hlookup, houtput⟩ :=
    consumers_by_layout passes_headerTokens (.inr rfl) [.streamEnd] false
  obtain ⟨hkept, hstopped⟩ := hconvert sampleEntries 400 (by decide)
    conforms_of_mem_sampleEntries (by decide +kernel)
  obtain ⟨hprofile, hindented⟩ := hlookup _ (utf8 "台湾 NTT") 400 some hne hfuel
  obtain ⟨hother, -⟩ := hlookup _ (utf8 "日本") 400 some hne hfuel
  obtain ⟨content, st', hown⟩ := houtput 6 300 400 _ _
    (eq_ok_of_returned returned_main_sampleInput) (by decide +kernel)
  rw [hfound] at hprofile
  rw [hmissing] at hother
  exact ⟨hkept, hstopped, hprofile, hother, hindented, content, st', hown⟩

/-- The same nodes in the two layouts: `clash_convert` keeps two of them, or stops in front of the
list; `yaml2profile` finds the one that is wanted, or stops likewise. -/
theorem layouts_differ :
    namesOf (emittedNodes 300 ⟨documentTokens [] (.sequence (sampleEntries.map .mapping))
        [.blockEnd, .streamEnd], false⟩) = [utf8 "香港 1", utf8 "台湾 NTT"] ∧
      emittedNodes 300 ⟨documentTokens [] (.indentless (sampleEntries.map .mapping))
        [.blockEnd, .streamEnd], false⟩ = [] ∧
      returned ((yaml2profile some 300 false (utf8 "台湾 NTT")).run ⟨indentlessDocument []
        (selectedNodes sampleEntries) [.blockEnd, .streamEnd], false⟩) = true ∧
      returned ((yaml2profile some 300 false (utf8 "台湾 NTT")).run ⟨indentedDocument []
        (selectedNodes sampleEntries) [.blockEnd, .streamEnd], false⟩) = false := by
  decide +kernel

end Yaml2Profile
