import Clash.Profile.Termination

/-!
# Searching behind nested entries

`yaml2profile` skips an entry up to the first `BLOCK_END`, where `skip_node` of `convert.c` counts
the mappings inside it. A mapping in an entry before the wanted one therefore ends the search, as
if the list did.

## Main definitions

* `entryPairs`: the pairs of an entry that starts with its name.

## Main results

* `run_yaml2profile_iff`: the first entry with the wanted name is found, and its node read,
  exactly if no entry before it holds a `BLOCK_END` of its own.
-/

open CProg CString Yaml

namespace Yaml2Profile

open Convert (Node Credentials documentTokens entriesTokens passes)

/-- An entry of a list of proxies: its name, and the pairs behind the name. -/
abbrev ListEntry := CString × List (CString × Block)

/-- The pairs of an entry. -/
def entryPairs (e : ListEntry) : List (CString × Block) := (utf8 "name", .plain e.1) :: e.2

/-- The list of proxies with some entries, laid out without indentation. -/
def indentlessEntries (entries : List ListEntry) : Block :=
  .indentless (entries.map fun e => .mapping (entryPairs e))

/-- The tokens of a row of entries. -/
def rowTokens (entries : List ListEntry) : List Token := entriesTokens (entries.map entryPairs)

theorem rowTokens_cons (e : ListEntry) (entries : List ListEntry) :
    rowTokens (e :: entries) = .blockEntry :: .blockMappingStart :: .key :: .scalar (utf8 "name") ::
      .value :: .scalar e.1 :: (Block.pairTokens e.2 ++ .blockEnd :: rowTokens entries) := by
  simp [rowTokens, entryPairs]

/-- The tokens from within an entry, behind the start of its mapping, to the end of the list. -/
def insideTokens (e : ListEntry) (entries : List ListEntry) (rest : List Token) : List Token :=
  .key :: .scalar (utf8 "name") :: .value :: .scalar e.1 ::
    (Block.pairTokens e.2 ++ .blockEnd :: (rowTokens entries ++ rest))

theorem tokens_indentlessEntries (entries : List ListEntry) :
    (indentlessEntries entries).tokens = rowTokens entries := by
  rw [indentlessEntries, Block.tokens_indentless, rowTokens, entriesTokens, List.map_map]
  rfl

variable {fuel k : ℕ} {ts rest : List Token} {b : Bool} {title : CString}

/-! ## One entry -/

/-- An entry without a `BLOCK_END` of its own is passed. -/
theorem run_findNodeBody_of_flat {e e' : ListEntry} (he : e.1 ≠ title)
    (hflat : .blockEnd ∉ Block.pairTokens e.2) (hfuel : (Block.pairTokens e.2).length < fuel)
    (entries : List ListEntry) :
    (findNodeBody fuel title ()).run ⟨insideTokens e (e' :: entries) rest, b⟩ =
      .ok (.inl ()) ⟨insideTokens e' entries rest, b⟩ := by
  rw [insideTokens, run_findNodeBody_of_name_ne rfl he, EStateM.run_bind,
    run_skipEntry hflat hfuel, rowTokens_cons]
  simp [toNextEntry, insideTokens]

/-- At a `BLOCK_END` inside an entry the search takes the list for ended. -/
theorem run_findNodeBody_of_nested {e : ListEntry} (he : e.1 ≠ title)
    (hblocks : Block.PairsNoSequence e.2) (hnested : .blockEnd ∈ Block.pairTokens e.2)
    (entries : List ListEntry) :
    ∃ stop parser, (findNodeBody fuel title ()).run ⟨insideTokens e entries rest, b⟩ =
      .error stop parser := by
  obtain ⟨mid, tail, hsplit, hmid⟩ := List.eq_append_cons_of_mem hnested
  have hentry : .blockEntry ∉ tail := by
    intro hmem
    have htail : .blockEntry ∈ Block.pairTokens e.2 := by
      rw [hsplit]
      exact List.mem_append_right _ (List.mem_cons_of_mem _ hmem)
    cases Block.isSequence_of_mem_pairTokens e.2 hblocks _ htail
  rw [insideTokens, run_findNodeBody_of_name_ne rfl he, EStateM.run_bind, hsplit,
    List.append_assoc, List.cons_append]
  obtain hskip | ⟨parser, hskip⟩ :=
    run_skipEntry_or (tail ++ .blockEnd :: (rowTokens entries ++ rest)) b hmid fuel
  · rw [hskip]
    dsimp only
    -- behind the end of the mapping comes a key of the entry, or the end of the entry
    obtain ⟨ts', hts', -⟩ | ⟨parser, hnext⟩ :=
      run_toNextEntry_cases (tail ++ .blockEnd :: (rowTokens entries ++ rest)) b
    · rcases tail with _ | ⟨t, tail⟩
      · cases hts'
      · obtain rfl : t = .blockEntry := (List.cons.inj hts').1
        exact absurd List.mem_cons_self hentry
    · exact ⟨_, parser, hnext⟩
  · rw [hskip]
    exact ⟨_, parser, rfl⟩

/-! ## The search -/

/-- The search stops behind the name of the first entry with the wanted one, if the entries before
it hold no `BLOCK_END`. -/
theorem run_findNode_of_flat {before after entries : List ListEntry} {e : ListEntry}
    {more : List (CString × Block)} (hentries : e :: entries = before ++ (title, more) :: after)
    (hbefore : ∀ e ∈ before, e.1 ≠ title ∧ .blockEnd ∉ Block.pairTokens e.2)
    (hfuel : ∀ e ∈ before, (Block.pairTokens e.2).length < fuel) (hk : before.length < k) :
    (loop (findNodeBody fuel title) k ()).run ⟨insideTokens e entries rest, b⟩ =
      .ok () ⟨Block.pairTokens more ++ .blockEnd :: (rowTokens after ++ rest), b⟩ := by
  obtain ⟨k, rfl⟩ : ∃ j, k = j + 1 := ⟨k - 1, by omega⟩
  induction before generalizing e entries k with
  | nil =>
    obtain ⟨rfl, rfl⟩ := List.cons.inj hentries
    exact run_loop_of_done (run_findNodeBody_of_eq rfl)
  | cons e' before ih =>
    obtain ⟨rfl, htail⟩ := List.cons.inj hentries
    rw [List.forall_mem_cons] at hbefore hfuel
    rw [List.length_cons] at hk
    obtain ⟨k, rfl⟩ : ∃ j, k = j + 1 := ⟨k - 1, by omega⟩
    rcases entries with _ | ⟨e₂, entries⟩
    · simp at htail
    · rw [run_loop_of_next (run_findNodeBody_of_flat hbefore.1.1 hbefore.1.2 hfuel.1 entries)]
      exact ih htail hbefore.2 hfuel.2 k (by omega)

/-- The search ends without a result at the first entry with a `BLOCK_END` of its own. -/
theorem run_findNode_of_nested {before after entries : List ListEntry} {e nested : ListEntry}
    (hentries : e :: entries = before ++ nested :: after)
    (hbefore : ∀ e ∈ before, e.1 ≠ title ∧ .blockEnd ∉ Block.pairTokens e.2)
    (hname : nested.1 ≠ title) (hblocks : Block.PairsNoSequence nested.2)
    (hnested : .blockEnd ∈ Block.pairTokens nested.2)
    (hfuel : ∀ e ∈ before, (Block.pairTokens e.2).length < fuel) :
    ∃ stop parser, (loop (findNodeBody fuel title) k ()).run ⟨insideTokens e entries rest, b⟩ =
      .error stop parser := by
  rcases k with _ | k
  · exact ⟨_, _, rfl⟩
  -- the entries before are passed one by one, unless the bound is used up
  induction before generalizing e entries k with
  | nil =>
    obtain ⟨rfl, rfl⟩ := List.cons.inj hentries
    obtain ⟨stop, parser, hbody⟩ := run_findNodeBody_of_nested hname hblocks hnested entries
    exact ⟨stop, parser, run_loop_of_error hbody⟩
  | cons e' before ih =>
    obtain ⟨rfl, htail⟩ := List.cons.inj hentries
    rw [List.forall_mem_cons] at hbefore hfuel
    rcases entries with _ | ⟨e₂, entries⟩
    · simp at htail
    · rw [run_loop_of_next (run_findNodeBody_of_flat hbefore.1.1 hbefore.1.2 hfuel.1 entries)]
      rcases k with _ | k
      · exact ⟨_, _, rfl⟩
      · exact ih htail hbefore.2 hfuel.2 k

/-- The search finds the first entry with the wanted name exactly if no entry before it holds a
`BLOCK_END`. -/
theorem run_findNode_iff {before after entries : List ListEntry} {e : ListEntry}
    {more : List (CString × Block)} (hentries : e :: entries = before ++ (title, more) :: after)
    (hbefore : ∀ e ∈ before, e.1 ≠ title ∧ Block.PairsNoSequence e.2)
    (hfuel : ∀ e ∈ before, (Block.pairTokens e.2).length < fuel) (hk : before.length < k) :
    (∃ parser, (loop (findNodeBody fuel title) k ()).run ⟨insideTokens e entries rest, b⟩ =
      .ok () parser) ↔ ∀ e ∈ before, .blockEnd ∉ Block.pairTokens e.2 := by
  constructor
  · rintro ⟨parser, hrun⟩
    by_contra hnested
    -- the first entry that holds one ends the search
    obtain ⟨nested, flat, others, rfl, hnested, hflat⟩ :
        ∃ nested flat others, before = flat ++ nested :: others ∧
          .blockEnd ∈ Block.pairTokens nested.2 ∧
          ∀ e ∈ flat, .blockEnd ∉ Block.pairTokens e.2 := by
      rcases hfind : before.find? fun e => .blockEnd ∈ Block.pairTokens e.2 with _ | nested
      · rw [List.find?_eq_none] at hfind
        exact absurd (fun e he => by simpa using hfind e he) hnested
      · obtain ⟨hend, flat, others, hsplit, hflat⟩ := List.find?_eq_some_iff_append.mp hfind
        exact ⟨nested, flat, others, hsplit, of_decide_eq_true hend, by simpa using hflat⟩
    rw [List.append_assoc, List.cons_append] at hentries
    simp only [List.forall_mem_append, List.forall_mem_cons] at hbefore hfuel
    obtain ⟨stop, parser', hstop⟩ := run_findNode_of_nested hentries
      (fun e he => ⟨(hbefore.1 e he).1, hflat e he⟩) hbefore.2.1.1 hbefore.2.1.2 hnested hfuel.1
    rw [hstop] at hrun
    cases hrun
  · intro hflat
    exact ⟨_, run_findNode_of_flat hentries (fun e he => ⟨(hbefore e he).1, hflat e he⟩) hfuel hk⟩

/-! ## Whole documents -/

/-- A document with a list of entries, in the layout without indentation. -/
def nestedDocument (header : List Token) (entries : List ListEntry) (rest : List Token) :
    List Token :=
  documentTokens header (indentlessEntries entries) rest

variable {header : List Token} {entries before after : List ListEntry}

/-- The parser gets to the first entry. -/
theorem run_enterFirst_entries (hheader : passes header = true) (hfuel : header.length < fuel)
    (e : ListEntry) :
    (enterFirst fuel).run ⟨nestedDocument header (e :: entries) rest, b⟩ =
      .ok () ⟨insideTokens e entries rest, b⟩ := by
  rw [nestedDocument, documentTokens, tokens_indentlessEntries, rowTokens_cons]
  simp [enterFirst, insideTokens, Convert.run_skipHeader hheader hfuel]

theorem length_le_rowTokens (entries : List ListEntry) :
    entries.length ≤ (rowTokens entries).length := by
  induction entries with
  | nil => exact Nat.zero_le _
  | cons e entries ih =>
    rw [rowTokens_cons]
    simp only [List.length_cons, List.length_append]
    omega

theorem length_lt_rowTokens {e : ListEntry} (he : e ∈ entries) :
    (Block.pairTokens e.2).length < (rowTokens entries).length := by
  induction entries with
  | nil => exact absurd he List.not_mem_nil
  | cons e' entries ih =>
    rw [rowTokens_cons]
    simp only [List.length_cons, List.length_append]
    rcases List.mem_cons.mp he with rfl | he
    · omega
    · have := ih he
      omega

theorem length_nestedDocument (header rest : List Token) (entries : List ListEntry) :
    header.length + (rowTokens entries).length < (nestedDocument header entries rest).length := by
  rw [nestedDocument, documentTokens, tokens_indentlessEntries]
  simp only [List.length_cons, List.length_append]
  omega

/-- For a list of entries that start with their names, of which those before the first one with the
wanted name hold scalars, flow collections and block mappings: the search finds this entry, and
`yaml2profile` returns its fields if it is a usable node, exactly if no entry before it holds a
block mapping. -/
theorem run_yaml2profile_iff {more : List (CString × Block)} (hheader : passes header = true)
    (hbefore : ∀ e ∈ before, e.1 ≠ title ∧ Block.PairsNoSequence e.2)
    (hfuel : (nestedDocument header (before ++ (title, more) :: after) rest).length < fuel)
    (resolv : CString → Option CString) (b : Bool) :
    ((∃ parser, (enterFirst fuel >>= fun _ => findNode fuel title).run
        ⟨nestedDocument header (before ++ (title, more) :: after) rest, b⟩ = .ok () parser) ↔
      ∀ e ∈ before, .blockEnd ∉ Block.pairTokens e.2) ∧
    ∀ n, n.1.name = title → more = (nodePairs n).tail → Usable n →
      ((∃ parser, (yaml2profile resolv fuel false title).run
          ⟨nestedDocument header (before ++ (title, more) :: after) rest, b⟩ =
            .ok (profileOf n) parser) ↔
        ∀ e ∈ before, .blockEnd ∉ Block.pairTokens e.2) := by
  -- `enter_first` stops inside the first entry, whichever it is
  obtain ⟨e, entries, hentries⟩ : ∃ e entries, e :: entries = before ++ (title, more) :: after := by
    rcases before with _ | ⟨e, before⟩
    · exact ⟨_, _, rfl⟩
    · exact ⟨_, _, rfl⟩
  -- the bound is larger than every list of tokens that a loop goes over
  have hlen := length_nestedDocument header rest (before ++ (title, more) :: after)
  have hrow := length_le_rowTokens (before ++ (title, more) :: after)
  have hentry : ∀ e ∈ before, (Block.pairTokens e.2).length < fuel := by
    intro e he
    have := length_lt_rowTokens (List.mem_append_left ((title, more) :: after) he)
    omega
  have hcount : before.length < fuel := by
    rw [List.length_append, List.length_cons] at hrow
    omega
  have hheaderFuel : header.length < fuel := by omega
  have henter : (enterFirst fuel).run ⟨nestedDocument header (e :: entries) rest, b⟩ =
      .ok () ⟨insideTokens e entries rest, b⟩ := run_enterFirst_entries hheader hheaderFuel e
  rw [hentries] at henter
  have hfind : (∃ parser, (findNode fuel title).run ⟨insideTokens e entries rest, b⟩ =
      .ok () parser) ↔ ∀ e ∈ before, .blockEnd ∉ Block.pairTokens e.2 :=
    run_findNode_iff hentries hbefore hentry hcount
  refine ⟨?_, ?_⟩
  · rw [EStateM.run_bind, henter]
    exact hfind
  · rintro n hname rfl hn
    rw [yaml2profile, EStateM.run_bind, henter, ← hfind]
    dsimp only
    rw [EStateM.run_bind, findNode]
    constructor
    · -- what returns has found the entry
      rintro ⟨parser, hrun⟩
      rcases hsearch : (loop (findNodeBody fuel title) fuel ()).run
          ⟨insideTokens e entries rest, b⟩ with ⟨_, parser'⟩ | ⟨stop, parser'⟩
      · exact ⟨parser', rfl⟩
      · rw [hsearch] at hrun
        cases hrun
    · intro hsearch
      have hflat := hfind.mp hsearch
      rw [run_findNode_of_flat hentries (fun e he => ⟨(hbefore e he).1, hflat e he⟩) hentry hcount]
      exact ⟨_, run_readNode hn resolv⟩

/-- A node to look for. -/
def wantedNode : Node × Credentials :=
  (⟨false, utf8 "香港 1", utf8 "192.0.2.1"⟩, ⟨utf8 "8443", utf8 "aes-256-gcm", utf8 "secret"⟩)

/-- An entry of another type with a flow collection. -/
def flowEntry : ListEntry := (utf8 "新加坡 1", [
  (utf8 "type", .plain (utf8 "trojan")),
  (utf8 "alpn", .leaf [.flowSequenceStart, .scalar (utf8 "h2"), .flowSequenceEnd] (by decide))])

/-- An entry with the options of a plugin. -/
def pluginEntry : ListEntry := (utf8 "新加坡 1", [
  (utf8 "type", .plain (utf8 "ss")),
  (utf8 "plugin-opts", .mapping [(utf8 "mode", .plain (utf8 "http"))]),
  (utf8 "udp", .plain (utf8 "true"))])

theorem run_yaml2profile_iff_flowEntry :
    ∃ parser, (yaml2profile (fun _ => none) 200 false (utf8 "香港 1")).run
      ⟨nestedDocument [] ([flowEntry] ++
        (utf8 "香港 1", (nodePairs wantedNode).tail) :: []) [.blockEnd, .streamEnd], false⟩ =
        .ok (profileOf wantedNode) parser := by
  have hbefore : ∀ e ∈ [flowEntry], e.1 ≠ utf8 "香港 1" ∧ Block.PairsNoSequence e.2 := by
    simp only [List.mem_singleton, forall_eq]
    exact ⟨by decide +kernel, by simp [flowEntry]⟩
  refine ((run_yaml2profile_iff (by decide) hbefore (by decide +kernel) (fun _ => none)
    false).2 wantedNode rfl rfl (by decide +kernel)).mpr ?_
  decide +kernel

/-- Behind an entry with the options of a plugin, the wanted entry is not found. -/
theorem not_run_yaml2profile_pluginEntry :
    ¬ ∀ fuel before n after header rest, passes header = true →
      (∀ e ∈ before, e.1 ≠ n.1.name ∧ Block.PairsNoSequence e.2) → Usable n →
      (nestedDocument header (before ++ (n.1.name, (nodePairs n).tail) :: after) rest).length <
        fuel →
      ∃ parser, (yaml2profile (fun _ => none) fuel false n.1.name).run
        ⟨nestedDocument header (before ++ (n.1.name, (nodePairs n).tail) :: after) rest, false⟩ =
          .ok (profileOf n) parser := by
  intro h
  have hbefore : ∀ e ∈ [pluginEntry], e.1 ≠ wantedNode.1.name ∧ Block.PairsNoSequence e.2 := by
    simp only [List.mem_singleton, forall_eq]
    exact ⟨by decide +kernel, by simp [pluginEntry]⟩
  obtain ⟨parser, hrun⟩ := h 200 [pluginEntry] wantedNode [] [] [.blockEnd, .streamEnd]
    (by decide) hbefore (by decide +kernel) (by decide +kernel)
  -- the run by evaluation
  have hstop : returned ((yaml2profile (fun _ => none) 200 false wantedNode.1.name).run
      ⟨nestedDocument [] ([pluginEntry] ++ (wantedNode.1.name, (nodePairs wantedNode).tail) :: [])
        [.blockEnd, .streamEnd], false⟩) = false := by
    decide +kernel
  rw [hrun] at hstop
  cases hstop

end Yaml2Profile
