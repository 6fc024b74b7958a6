import Clash.Profile.Layout
import Clash.Restful.Selection

/-!
# The programs agree on the node in use

Three programs meet at the configuration: `clash_convert` writes it, `now` asks the Clash that
runs it for the selected node, and `yaml2profile` looks the node up in it.

## Main definitions

* `clashHttp`: a Clash with given selectors behind libcurl.

## Main results

* `serves_clashHttp`: it serves its selection.
* `now_and_profile_iff`: `now` and `yaml2profile` find the selected node and its parameters,
  unless the name of the node is a dot segment.
-/

open CProg CString Yaml Convert Yaml2Profile

namespace Restful

/-! ## A server -/

/-- Clash behind libcurl: the answers below `/proxies/`, and those of the two paths to which
libcurl shortens a path that ends in a dot segment. -/
def clashHttp {config : Content} (sel : Selection config) (url : CString) : Option JsonObject :=
  if proxiesUrl <+: url then
    let segment := url.drop proxiesUrl.length
    if segment = [] ∨ segment = utf8 "." then some [(utf8 "proxies", .other)]
    else if segment = utf8 ".." then some [(utf8 "hello", .string (utf8 "clash"))]
    else (PercentEncoding.decode segment).bind sel.answer
  else none

/-- The stand-in for the server answers as the claim on it says. -/
theorem serves_clashHttp {config : Content} (sel : Selection config) :
    Serves (clashHttp sel) sel where
  http_encode := by
    intro name hname hdot
    -- a name that is no dot segment is not encoded as one
    have hone : PercentEncoding.encode name ≠ utf8 "." := fun h =>
      hdot (.inl (PercentEncoding.encode_injective (h.trans (by decide))))
    have htwo : PercentEncoding.encode name ≠ utf8 ".." := fun h =>
      hdot (.inr (PercentEncoding.encode_injective (h.trans (by decide))))
    have hne := PercentEncoding.encode_ne_nil hname
    simpa [clashHttp, hone, htwo, hne] using sel.answers_answer name
  http_dot := by
    have hne : utf8 ".." ≠ [] := by decide
    have hdots : utf8 ".." ≠ utf8 "." := by decide
    -- the pages that are asked for instead have no field `name`
    rintro name j (rfl | rfl) hj
    · have hj' : [(utf8 "proxies", Json.other)] = j := by simpa [clashHttp] using hj
      rw [← hj']
      rfl
    · have hj' : [(utf8 "hello", Json.string (utf8 "clash"))] = j := by
        simpa [clashHttp, hne, hdots] using hj
      rw [← hj']
      rfl

/-! ## What Clash reads from the output -/

/-- The nodes of the configuration are the ones it was made from. -/
theorem nodeNames_configContent (nodes : List (Node × Credentials))
    (gs : List (CString × List CString)) : nodeNames (configContent nodes gs) = namesOf nodes := by
  have hentry : entry "proxies" (configContent nodes gs) =
      some (.sequence (nodes.map fun n => nodeContent n.1 n.2)) := rfl
  rw [nodeNames, hentry, items, List.map_map]
  rfl

/-- So are the groups. -/
theorem groups_configContent (nodes : List (Node × Credentials))
    (gs : List (CString × List CString)) : groups (configContent nodes gs) = gs := by
  have hentry : entry "proxy-groups" (configContent nodes gs) =
      some (.sequence (gs.map fun g => groupContent g.1 g.2)) := rfl
  have hgroup (g : CString × List CString) :
      (text (entry "name" (groupContent g.1 g.2)),
        (items (entry "proxies" (groupContent g.1 g.2))).map fun s => text (some s)) = g := by
    have hmembers : (g.2.map Content.scalar).map (fun s => text (some s)) = g.2 := by
      rw [List.map_map]
      exact List.map_id g.2
    exact Prod.ext rfl hmembers
  rw [groups, hentry, items, List.map_map]
  simp only [Function.comp_def, hgroup, List.map_id']

/-- The nodes of the converted file. -/
theorem nodeNames_outputConfig {fuel : ℕ} {parser : Scanner} {nodes : List (Node × Credentials)}
    (h : emittedNodes fuel parser = nodes) :
    nodeNames (outputConfig fuel parser) = namesOf nodes := by
  rw [outputConfig, nodeNames_configContent, h]

/-- The groups of the converted file. -/
theorem groups_outputConfig {fuel : ℕ} {parser : Scanner} {nodes : List (Node × Credentials)}
    (h : emittedNodes fuel parser = nodes) :
    groups (outputConfig fuel parser) = groupsOf (namesOf nodes) := by
  rw [outputConfig, groups_configContent, h]

/-- The titles of the groups are ordinary names. -/
theorem title_of_mem_titles : ∀ t ∈ titles,
    t.1 ≠ [] ∧ t.1 ≠ utf8 "GLOBAL" ∧ ¬ IsDot t.1 := by
  decide +kernel

/-- The groups of the converted file list nodes, and their titles are ordinary names. -/
theorem grouped_outputConfig (fuel : ℕ) (parser : Scanner) :
    Grouped (outputConfig fuel parser) := by
  have htitle : ∀ g ∈ groups (outputConfig fuel parser),
      g.1 ≠ [] ∧ g.1 ≠ utf8 "GLOBAL" ∧ ¬ IsDot g.1 := by
    intro g hg
    rw [groups_outputConfig rfl] at hg
    obtain ⟨t, ht, rfl, -⟩ := mem_groupsOf_iff.mp hg
    exact title_of_mem_titles t ht
  refine ⟨?_, fun g hg => (htitle g hg).1, fun g hg => (htitle g hg).2.1,
    fun g hg => (htitle g hg).2.2⟩
  intro g hg s hs
  rw [groups_outputConfig rfl] at hg
  obtain ⟨t, -, rfl, -⟩ := mem_groupsOf_iff.mp hg
  rw [nodeNames_outputConfig rfl]
  exact mem_of_mem_members hs

/-- Names that are neither empty nor `GLOBAL` nor a title, and no two of them equal, keep the
proxies of the output apart. -/
theorem distinct_outputConfig {fuel : ℕ} {parser : Scanner}
    (hname : ∀ n ∈ emittedNodes fuel parser, n.1.name ≠ [])
    (hnodup : (namesOf (emittedNodes fuel parser)).Nodup)
    (hglobal : ∀ n ∈ emittedNodes fuel parser, n.1.name ≠ utf8 "GLOBAL")
    (htitle : ∀ n ∈ emittedNodes fuel parser, ∀ g ∈ groups (outputConfig fuel parser),
      g.1 ≠ n.1.name) : Distinct (outputConfig fuel parser) := by
  have hnames : nodeNames (outputConfig fuel parser) = namesOf (emittedNodes fuel parser) :=
    nodeNames_outputConfig rfl
  refine ⟨hnames ▸ hnodup, ?_, ?_, ?_⟩
  all_goals rw [hnames, namesOf, List.forall_mem_map]
  · exact hname
  · exact hglobal
  · exact htitle

/-! ## Agreement -/

/-- `yaml2profile` finds every node of the output by its name. -/
theorem run_yaml2profile_outputConfig {fuel : ℕ} {parser : Scanner}
    (hfilled : ∀ n ∈ emittedNodes fuel parser, Filled n ∧ 1 ≤ atoi n.2.port) {title : CString}
    (htitle : title ∈ namesOf (emittedNodes fuel parser)) {fuel' : ℕ}
    (hfuel' : headerTokens.length + (emittedNodes fuel parser).length + 24 < fuel')
    (resolv : CString → Option CString) :
    ∃ n ∈ emittedNodes fuel parser, n.1.name = title ∧
      ∃ parser', (yaml2profile resolv fuel' false title).run
        ⟨(outputConfig fuel parser).stream, false⟩ = .ok (profileOf n) parser' := by
  set nodes := emittedNodes fuel parser with hnodes
  have hne : nodes ≠ [] := by
    intro h
    rw [h] at htitle
    cases htitle
  -- some node has the name, and the first of them is the one that is found
  obtain ⟨n, hfind⟩ : ∃ n, (nodes.find? fun n => n.1.name = title) = some n := by
    rw [← Option.isSome_iff_exists, List.find?_isSome]
    obtain ⟨n, hn, hname⟩ := List.mem_map.mp htitle
    exact ⟨n, hn, decide_eq_true hname⟩
  have hn : n ∈ nodes := List.mem_of_find?_eq_some hfind
  have husable : Usable n :=
    ⟨(hfilled n hn).1.server, (hfilled n hn).1.port, (hfilled n hn).2⟩
  have hlookup : lookupProfile title nodes = some (profileOf n) := by
    rw [lookupProfile, hfind]
    exact if_pos husable
  -- behind the list the output goes on with the groups
  obtain ⟨ts, hts⟩ := groupsTokens_eq_cons (groupsOf (namesOf nodes))
  obtain ⟨parser', hrun⟩ : ∃ parser', (yaml2profile resolv fuel' false title).run
      ⟨indentlessDocument headerTokens nodes (.key :: ts), false⟩ = .ok (profileOf n) parser' :=
    run_yaml2profile_of_lookup passes_headerTokens (by decide) hlookup hfuel' resolv
  refine ⟨n, hn, by simpa using List.find?_some hfind, parser', ?_⟩
  rw [outputConfig, ← hnodes,
    stream_configContent_of_filled hne (fun n hn => (hfilled n hn).1), hts]
  exact hrun

/-- On the output of every run of `clash_convert` whose nodes are complete and have distinct
names, in every state of the selectors, `now` returns the name of the selected node and
`yaml2profile` the parameters of exactly this node, unless the node is named like a dot segment,
which `now` does not escape. -/
theorem now_and_profile_iff {mbCurMax fuel : ℕ} {parser : Scanner} {st : State}
    (hrun : (main mbCurMax fuel).run (initial parser) = .ok () st) {config : Content}
    (hconfig : compose st.events = some config)
    (hfilled : ∀ n ∈ emittedNodes fuel parser, Filled n ∧ 1 ≤ atoi n.2.port)
    (hnodup : (namesOf (emittedNodes fuel parser)).Nodup)
    (hglobal : ∀ n ∈ emittedNodes fuel parser, n.1.name ≠ utf8 "GLOBAL")
    (htitle : ∀ n ∈ emittedNodes fuel parser, ∀ g ∈ groups config, g.1 ≠ n.1.name)
    (sel : Selection config) {http : CString → Option JsonObject} (hserves : Serves http sel)
    {fuel' : ℕ} (hfuel' : headerTokens.length + (emittedNodes fuel parser).length + 24 < fuel')
    (resolv : CString → Option CString) :
    ((now http : Prog Unit CString).run () = .ok sel.node () ∧
      ∃ n ∈ emittedNodes fuel parser, n.1.name = sel.node ∧
        ∃ parser', (yaml2profile resolv fuel' false sel.node).run ⟨config.stream, false⟩ =
          .ok (profileOf n) parser') ↔
      ¬ IsDot sel.node := by
  obtain rfl : outputConfig fuel parser = config :=
    Option.some.inj ((run_main_eq_ok hrun).1.symm.trans hconfig)
  have hdistinct :=
    distinct_outputConfig (fun n hn => (hfilled n hn).1.name) hnodup hglobal htitle
  have hgrouped := grouped_outputConfig fuel parser
  rw [run_now_iff hserves () hdistinct hgrouped]
  -- whatever the name is, `yaml2profile` finds the node
  refine and_iff_left ?_
  have hnode := sel.node_mem hgrouped
  rw [nodeNames_outputConfig rfl] at hnode
  exact run_yaml2profile_outputConfig hfilled hnode hfuel' resolv

/-- The nodes of the sample that are kept. -/
def sampleNodes : List (Node × Credentials) := [
  (⟨false, utf8 "香港 1", utf8 "192.0.2.1"⟩,
    ⟨utf8 "8443", utf8 "aes-256-gcm", utf8 "secret"⟩),
  (⟨false, utf8 "台湾 NTT", utf8 "192.0.2.5"⟩,
    ⟨utf8 "8443", utf8 "aes-256-gcm", utf8 "secret"⟩)]

theorem emittedNodes_sampleInput : emittedNodes 300 sampleInput = sampleNodes := by decide +kernel

/-- A group of the output of the sample is selected, and in it a node. -/
def sampleSelection : Selection (outputConfig 300 sampleInput) where
  global := utf8 "🇹🇼"
  chosen title := if title = utf8 "🏴" then utf8 "香港 1" else utf8 "台湾 NTT"
  global_mem := by
    rw [nodeNames_outputConfig emittedNodes_sampleInput,
      groups_outputConfig emittedNodes_sampleInput]
    decide +kernel
  chosen_mem := by
    rw [groups_outputConfig emittedNodes_sampleInput]
    decide +kernel

theorem now_and_profile_sampleInput :
    (now (clashHttp sampleSelection) : Prog Unit CString).run () = .ok sampleSelection.node () ∧
      ∃ n ∈ emittedNodes 300 sampleInput, n.1.name = sampleSelection.node ∧
        ∃ parser', (yaml2profile some 200 false sampleSelection.node).run
          ⟨(outputConfig 300 sampleInput).stream, false⟩ = .ok (profileOf n) parser' := by
  have hrun := eq_ok_of_returned returned_main_sampleInput
  have hnodes := emittedNodes_sampleInput
  have hfilled : ∀ n ∈ emittedNodes 300 sampleInput,
      (n.1.name ≠ [] ∧ n.1.server ≠ [] ∧ n.2.port ≠ [] ∧ n.2.cipher ≠ [] ∧ n.2.password ≠ []) ∧
        1 ≤ atoi n.2.port := by
    rw [hnodes]
    decide +kernel
  have hnodup : (namesOf (emittedNodes 300 sampleInput)).Nodup := by
    rw [hnodes]
    decide +kernel
  have hglobal : ∀ n ∈ emittedNodes 300 sampleInput, n.1.name ≠ utf8 "GLOBAL" := by
    rw [hnodes]
    decide +kernel
  have htitle : ∀ n ∈ emittedNodes 300 sampleInput,
      ∀ g ∈ groups (outputConfig 300 sampleInput), g.1 ≠ n.1.name := by
    rw [groups_outputConfig hnodes, hnodes]
    decide +kernel
  have hdot : ¬ IsDot sampleSelection.node := by
    rw [Selection.node, groups_outputConfig hnodes]
    decide +kernel
  refine (now_and_profile_iff hrun (run_main_eq_ok hrun).1 (fun n hn => ?_) hnodup hglobal htitle
    sampleSelection (serves_clashHttp _) (by rw [hnodes]; decide +kernel) some).mpr hdot
  obtain ⟨⟨hname, hserver, hport, hcipher, hpassword⟩, hone⟩ := hfilled n hn
  exact ⟨⟨hname, hserver, hport, hcipher, hpassword⟩, hone⟩

/-- An input with a single node, named like a dot segment. -/
def dotInput : Scanner where
  tokens := documentTokens [] (.sequence [.mapping (sampleEntry ".." "ss" "192.0.2.1" [])])
    [.blockEnd, .streamEnd]
  broken := false

theorem emittedNodes_dotInput : emittedNodes 300 dotInput =
    [(⟨false, utf8 "..", utf8 "192.0.2.1"⟩,
      ⟨utf8 "8443", utf8 "aes-256-gcm", utf8 "secret"⟩)] := by
  decide +kernel

/-- `GLOBAL` points at the node. -/
def dotSelection : Selection (outputConfig 300 dotInput) where
  global := utf8 ".."
  chosen _ := utf8 ".."
  global_mem := by
    rw [nodeNames_outputConfig emittedNodes_dotInput]
    decide +kernel
  chosen_mem := by
    rw [groups_outputConfig emittedNodes_dotInput]
    decide +kernel

/-- `now` fails an assertion: it asks for `/proxies/..`, and libcurl for `/`. -/
theorem run_now_dotSelection :
    returned ((main 6 300).run (initial dotInput)) = true ∧
      emittedNodes 300 dotInput = [(⟨false, utf8 "..", utf8 "192.0.2.1"⟩,
        ⟨utf8 "8443", utf8 "aes-256-gcm", utf8 "secret"⟩)] ∧
      dotSelection.node = utf8 ".." ∧
      (now (clashHttp dotSelection) : Prog Unit CString).run () = .error .assertion () := by
  refine ⟨?_, ?_, ?_, ?_⟩ <;> decide +kernel

end Restful
