import Clash.Convert.Alignment
import Clash.Profile.Defs

/-!
# Searching a list of nodes

What `yaml2profile` does on a configuration with a list of plain nodes, laid out without
indentation: it finds the first node with the wanted name, whatever stands around the list.

## Main definitions

* `nodePairs`: the pairs of a node as `clash_convert` writes them.
* `profileOf`: the profile that describes a node.
* `lookupProfile`: what the search is for.

## Main results

* `run_yaml2profile`: the result is the first node with the wanted name.
* `run_yaml2profile_indented`: an indented list is not entered.
-/

open CProg CString Yaml

namespace Yaml2Profile

open Convert (Node Credentials)

/-- The pairs of a node with its credentials. -/
def nodePairs (n : Node × Credentials) : List (CString × Block) := [
  (utf8 "name", .plain n.1.name),
  (utf8 "type", .plain (utf8 "ss")),
  (utf8 "server", .plain n.1.server),
  (utf8 "port", .plain n.2.port),
  (utf8 "cipher", .plain n.2.cipher),
  (utf8 "password", .plain n.2.password),
  (utf8 "udp", .plain (utf8 "true"))]

/-- The profile of a node whose server is not resolved. -/
def profileOf (n : Node × Credentials) : Profile where
  remoteHost := n.1.server
  method := n.2.cipher
  password := n.2.password
  remotePort := atoi n.2.port

/-- A node that can be used: none of the fields that `yaml2profile` checks is empty, and the port
is a positive number. -/
structure Usable (n : Node × Credentials) : Prop where
  server : n.1.server ≠ []
  port : n.2.port ≠ []
  one_le_port : 1 ≤ atoi n.2.port

instance (n : Node × Credentials) : Decidable (Usable n) :=
  decidable_of_iff (n.1.server ≠ [] ∧ n.2.port ≠ [] ∧ 1 ≤ atoi n.2.port)
    ⟨fun h => ⟨h.1, h.2.1, h.2.2⟩, fun h => ⟨h.server, h.port, h.one_le_port⟩⟩

/-- The profile of the first node with the wanted name, if it can be used. -/
def lookupProfile (title : CString) (nodes : List (Node × Credentials)) : Option Profile :=
  match nodes.find? fun n => n.1.name = title with
  | some n => if Usable n then some (profileOf n) else none
  | none => none

/-- The tokens of a list of nodes. -/
def nodesTokens (nodes : List (Node × Credentials)) : List Token :=
  Block.itemTokens (nodes.map fun n => .mapping (nodePairs n))

@[simp] theorem nodesTokens_nil : nodesTokens [] = [] :=
  Block.itemTokens_nil

@[simp] theorem nodesTokens_cons (n : Node × Credentials) (nodes : List (Node × Credentials)) :
    nodesTokens (n :: nodes) = .blockEntry :: .blockMappingStart ::
      (Block.pairTokens (nodePairs n) ++ .blockEnd :: nodesTokens nodes) := by
  simp [nodesTokens]

variable {fuel : ℕ} {ts rest : List Token} {b : Bool}

/-! ## Reading a node -/

@[simp] theorem run_kVDup (k v : CString) :
    (kVDup k).run ⟨.key :: .scalar k :: .value :: .scalar v :: ts, b⟩ = .ok v ⟨ts, b⟩ := by
  simp [kVDup, assertVal, Token.val]

@[simp] theorem run_kVCmp (k v val : CString) :
    (kVCmp k v).run ⟨.key :: .scalar k :: .value :: .scalar val :: ts, b⟩ =
      .ok (decide (val = v)) ⟨ts, b⟩ := by
  simp [kVCmp, assertVal, Token.val]

/-- The pairs of a node behind its name. -/
theorem pairTokens_nodePairs (n : Node × Credentials) :
    Block.pairTokens (nodePairs n) =
      .key :: .scalar (utf8 "name") :: .value :: .scalar n.1.name ::
        Block.pairTokens (nodePairs n).tail := by
  simp [nodePairs]

/-- A usable node is read to its end. -/
theorem run_readNode {n : Node × Credentials} (hn : Usable n)
    (resolv : CString → Option CString) :
    (readNode resolv false).run ⟨Block.pairTokens (nodePairs n).tail ++ .blockEnd :: rest, b⟩ =
      .ok (profileOf n) ⟨rest, b⟩ := by
  simp [readNode, nodePairs, profileOf, hn.server, hn.port, hn.one_le_port]

/-- A node that cannot be used fails an assertion. -/
theorem run_readNode_of_not_usable {n : Node × Credentials} (hn : ¬ Usable n)
    (resolv : CString → Option CString) :
    ∃ parser', (readNode resolv false).run
      ⟨Block.pairTokens (nodePairs n).tail ++ .blockEnd :: rest, b⟩ =
        .error .assertion parser' := by
  by_cases hserver : n.1.server = []
  · simp [readNode, nodePairs, hserver]
  · by_cases hport : n.2.port = []
    · simp [readNode, nodePairs, hserver, hport]
    · have hone : ¬ 1 ≤ atoi n.2.port := fun h => hn ⟨hserver, hport, h⟩
      simp [readNode, nodePairs, hserver, hport, run_assert_of_false hone]

/-! ## The search -/

theorem run_skipEntry (hts : .blockEnd ∉ ts) (hfuel : ts.length < fuel) :
    (skipEntry fuel).run ⟨ts ++ .blockEnd :: rest, b⟩ = .ok () ⟨rest, b⟩ := by
  obtain ⟨m, rfl⟩ : ∃ m, fuel = m + 1 := ⟨fuel - 1, by omega⟩
  induction ts generalizing m with
  | nil =>
    rw [skipEntry, List.nil_append]
    exact run_loop_of_done (by simp)
  | cons t ts ih =>
    rw [List.mem_cons, not_or] at hts
    rw [List.length_cons] at hfuel
    obtain ⟨m, rfl⟩ : ∃ k, m = k + 1 := ⟨m - 1, by omega⟩
    have ht : t ≠ .blockEnd := Ne.symm hts.1
    have hbody : (do
        let token ← scan
        if token = .blockEnd then return .inr () else return .inl ()
          : Prog Scanner (Unit ⊕ Unit)).run ⟨t :: (ts ++ .blockEnd :: rest), b⟩ =
        .ok (.inl ()) ⟨ts ++ .blockEnd :: rest, b⟩ := by
      simp [ht]
    rw [skipEntry, List.cons_append, run_loop_of_next hbody]
    exact ih hts.2 m (by omega)

/-- The pairs of a node hold no `BLOCK_END`. -/
theorem blockEnd_notMem_nodePairs (n : Node × Credentials) :
    .blockEnd ∉ Block.pairTokens (nodePairs n).tail := by
  simp [nodePairs]

theorem length_nodePairs_tail (n : Node × Credentials) :
    (Block.pairTokens (nodePairs n).tail).length = 24 := by
  simp [nodePairs]

/-- An iteration of the search stops behind a name that matches. -/
theorem run_findNodeBody_of_match {n : Node × Credentials} {title : CString}
    (hn : n.1.name = title) :
    (findNodeBody fuel title ()).run ⟨Block.pairTokens (nodePairs n) ++ rest, b⟩ =
      .ok (.inr ()) ⟨Block.pairTokens (nodePairs n).tail ++ rest, b⟩ := by
  rw [pairTokens_nodePairs]
  simp [findNodeBody, hn]

/-- An iteration of the search passes a node whose name does not match. -/
theorem run_findNodeBody_of_ne {n m : Node × Credentials} {title : CString}
    (hn : n.1.name ≠ title) (hfuel : 24 < fuel) (nodes : List (Node × Credentials)) :
    (findNodeBody fuel title ()).run
        ⟨Block.pairTokens (nodePairs n) ++ .blockEnd :: (nodesTokens (m :: nodes) ++ rest), b⟩ =
      .ok (.inl ()) ⟨Block.pairTokens (nodePairs m) ++ .blockEnd :: (nodesTokens nodes ++ rest),
        b⟩ := by
  have hskip : (skipEntry fuel).run
      ⟨Block.pairTokens (nodePairs n).tail ++ .blockEnd :: (nodesTokens (m :: nodes) ++ rest), b⟩ =
        .ok () ⟨nodesTokens (m :: nodes) ++ rest, b⟩ :=
    run_skipEntry (blockEnd_notMem_nodePairs n) (by rwa [length_nodePairs_tail])
  simp only [nodesTokens_cons, List.cons_append, List.append_assoc] at hskip
  rw [pairTokens_nodePairs]
  simp [findNodeBody, hn, hskip]

/-- The search stops in the first node with the wanted name. -/
theorem run_findNode {nodes before after : List (Node × Credentials)} {n m : Node × Credentials}
    {title : CString} (hnodes : m :: nodes = before ++ n :: after) (hn : n.1.name = title)
    (hbefore : ∀ n' ∈ before, n'.1.name ≠ title) (hfuel : 24 < fuel) {k : ℕ}
    (hk : before.length < k) :
    (loop (findNodeBody fuel title) k ()).run
        ⟨Block.pairTokens (nodePairs m) ++ .blockEnd :: (nodesTokens nodes ++ rest), b⟩ =
      .ok () ⟨Block.pairTokens (nodePairs n).tail ++ .blockEnd :: (nodesTokens after ++ rest),
        b⟩ := by
  obtain ⟨k, rfl⟩ : ∃ j, k = j + 1 := ⟨k - 1, by omega⟩
  -- one round for each node before the one with the name
  induction before generalizing m nodes k with
  | nil =>
    obtain ⟨rfl, rfl⟩ := List.cons.inj hnodes
    exact run_loop_of_done (run_findNodeBody_of_match hn)
  | cons m' before ih =>
    obtain ⟨rfl, htail⟩ := List.cons.inj hnodes
    rw [List.forall_mem_cons] at hbefore
    rw [List.length_cons] at hk
    obtain ⟨k, rfl⟩ : ∃ j, k = j + 1 := ⟨k - 1, by omega⟩
    have hne : nodes ≠ [] := by
      rintro rfl
      simp at htail
    obtain ⟨m₂, nodes, rfl⟩ := List.exists_cons_of_ne_nil hne
    rw [run_loop_of_next (run_findNodeBody_of_ne hbefore.1 hfuel nodes)]
    exact ih htail hbefore.2 k (by omega)

/-- An iteration of the search fails an assertion at the end of the list. -/
theorem run_findNodeBody_of_last {n : Node × Credentials} {title : CString} {t : Token}
    (hn : n.1.name ≠ title) (ht : t ≠ .blockEntry) (hfuel : 24 < fuel) :
    (findNodeBody fuel title ()).run
        ⟨Block.pairTokens (nodePairs n) ++ .blockEnd :: t :: rest, b⟩ =
      .error .assertion ⟨rest, b⟩ := by
  have hskip : (skipEntry fuel).run
      ⟨Block.pairTokens (nodePairs n).tail ++ .blockEnd :: t :: rest, b⟩ =
        .ok () ⟨t :: rest, b⟩ :=
    run_skipEntry (blockEnd_notMem_nodePairs n) (by rwa [length_nodePairs_tail])
  rw [pairTokens_nodePairs]
  simp [findNodeBody, hn, hskip, ht]

/-- The search fails an assertion if no node has the wanted name. -/
theorem run_findNode_of_none {nodes : List (Node × Credentials)} {m : Node × Credentials}
    {title : CString} (hnodes : ∀ n ∈ m :: nodes, n.1.name ≠ title) {t : Token}
    (ht : t ≠ .blockEntry) (hfuel : 24 < fuel) {k : ℕ} (hk : nodes.length < k) :
    (loop (findNodeBody fuel title) k ()).run
        ⟨Block.pairTokens (nodePairs m) ++ .blockEnd :: (nodesTokens nodes ++ t :: rest), b⟩ =
      .error .assertion ⟨rest, b⟩ := by
  rw [List.forall_mem_cons] at hnodes
  obtain ⟨k, rfl⟩ : ∃ j, k = j + 1 := ⟨k - 1, by omega⟩
  -- one round for each node, and the last one fails behind the list
  induction nodes generalizing m k with
  | nil =>
    rw [nodesTokens_nil, List.nil_append]
    exact run_loop_of_error (run_findNodeBody_of_last hnodes.1 ht hfuel)
  | cons m₂ nodes ih =>
    rw [List.length_cons] at hk
    obtain ⟨k, rfl⟩ : ∃ j, k = j + 1 := ⟨k - 1, by omega⟩
    rw [run_loop_of_next (run_findNodeBody_of_ne hnodes.1 hfuel nodes)]
    exact ih (List.forall_mem_cons.mp hnodes.2) k (by omega)

/-! ## Whole documents -/

open Convert (documentTokens)

/-- A document with a list of nodes, in the layout without indentation. -/
def indentlessDocument (header : List Token) (nodes : List (Node × Credentials))
    (rest : List Token) : List Token :=
  documentTokens header (.indentless (nodes.map fun n => .mapping (nodePairs n))) rest

/-- A document with a list of nodes, in the indented layout. -/
def indentedDocument (header : List Token) (nodes : List (Node × Credentials))
    (rest : List Token) : List Token :=
  documentTokens header (.sequence (nodes.map fun n => .mapping (nodePairs n))) rest

section Documents

variable {header : List Token} {nodes : List (Node × Credentials)} {title : CString}

/-- The parser gets to the first entry of an indentless list. -/
theorem run_enterFirst (hheader : Convert.passes header = true) (hfuel : header.length < fuel)
    (m : Node × Credentials) :
    (enterFirst fuel).run ⟨indentlessDocument header (m :: nodes) rest, b⟩ =
      .ok () ⟨Block.pairTokens (nodePairs m) ++ .blockEnd :: (nodesTokens nodes ++ rest), b⟩ := by
  have hvalue : (Block.indentless ((m :: nodes).map fun n => .mapping (nodePairs n))).tokens =
      nodesTokens (m :: nodes) :=
    Block.tokens_indentless _
  rw [indentlessDocument, documentTokens, hvalue, nodesTokens_cons]
  simp [enterFirst, Convert.run_skipHeader hheader hfuel]

/-- On an indentless list, the result is the profile of the first node with the wanted name, and
an assertion fails if there is none. -/
theorem run_yaml2profile (hheader : Convert.passes header = true) {t : Token}
    (ht : t ≠ .blockEntry) (hne : nodes ≠ [])
    (hfuel : header.length + nodes.length + 24 < fuel) (resolv : CString → Option CString) :
    ∃ parser', (yaml2profile resolv fuel false title).run
        ⟨indentlessDocument header nodes (t :: rest), b⟩ =
      match lookupProfile title nodes with
      | some p => .ok p parser'
      | none => .error .assertion parser' := by
  obtain ⟨m, nodes, rfl⟩ := List.exists_cons_of_ne_nil hne
  simp only [List.length_cons] at hfuel
  have hheaderFuel : header.length < fuel := by omega
  have hentryFuel : 24 < fuel := by omega
  simp only [yaml2profile, EStateM.run_bind, run_enterFirst hheader hheaderFuel, findNode,
    lookupProfile]
  -- the loop stops behind the first node with the name, as `find?` does
  cases hfind : (m :: nodes).find? fun n => n.1.name = title with
  | none =>
    rw [List.find?_eq_none] at hfind
    have hnodes : ∀ n ∈ m :: nodes, n.1.name ≠ title := by simpa using hfind
    refine ⟨⟨rest, b⟩, ?_⟩
    rw [run_findNode_of_none hnodes ht hentryFuel (by omega)]
  | some n =>
    obtain ⟨hname, before, after, hnodes, hbefore⟩ := List.find?_eq_some_iff_append.mp hfind
    have hlength : before.length < fuel := by
      have h := congrArg List.length hnodes
      simp only [List.length_append, List.length_cons] at h
      omega
    rw [run_findNode hnodes (of_decide_eq_true hname) (by simpa using hbefore) hentryFuel hlength]
    simp only []
    -- the assertions on its values decide about the result
    by_cases hn : Usable n
    · refine ⟨⟨nodesTokens after ++ t :: rest, b⟩, ?_⟩
      rw [run_readNode hn, if_pos hn]
    · obtain ⟨parser', hrun⟩ := run_readNode_of_not_usable hn resolv
      exact ⟨parser', by rw [hrun, if_neg hn]⟩

theorem run_yaml2profile_of_lookup (hheader : Convert.passes header = true) {t : Token}
    (ht : t ≠ .blockEntry) {p : Profile} (hp : lookupProfile title nodes = some p)
    (hfuel : header.length + nodes.length + 24 < fuel) (resolv : CString → Option CString) :
    ∃ parser', (yaml2profile resolv fuel false title).run
      ⟨indentlessDocument header nodes (t :: rest), b⟩ = .ok p parser' := by
  have hne : nodes ≠ [] := by
    rintro rfl
    cases hp
  obtain ⟨parser', hrun⟩ := run_yaml2profile hheader ht hne hfuel resolv
  rw [hp] at hrun
  exact ⟨parser', hrun⟩

/-- An indented list is not entered: the second assertion behind the key `proxies` fails. -/
theorem run_yaml2profile_indented (hheader : Convert.passes header = true)
    (hfuel : header.length < fuel) (resolv : CString → Option CString) (resolveDomain : Bool)
    (vs : List Block) :
    (yaml2profile resolv fuel resolveDomain title).run
        ⟨documentTokens header (.sequence vs) rest, b⟩ =
      .error .assertion ⟨Block.itemTokens vs ++ .blockEnd :: rest, b⟩ := by
  have henter : (enterFirst fuel).run ⟨documentTokens header (.sequence vs) rest, b⟩ =
      .error .assertion ⟨Block.itemTokens vs ++ .blockEnd :: rest, b⟩ := by
    simp [enterFirst, documentTokens, Convert.run_skipHeader hheader hfuel,
      Convert.assertTokenType]
  rw [yaml2profile, EStateM.run_bind, henter]

end Documents

end Yaml2Profile
