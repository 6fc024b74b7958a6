import Clash.Profile.Accepted
import Clash.Profile.Termination

/-!
# The port of the node

`yaml2profile` and `profile_loaded` ask for a port of at least one, and nothing else. The number is
that of `atoi`, which reads the digits in front of a text and keeps 32 bits of them.

## Main definitions

* `Finds`, `Leads`: where the search gets to.
* `IsPort`: the decimal numerals of the ports.
* `TakenAsPort`: the texts that pass the check.

## Main results

* `run_yaml2profile_of_leads`: what becomes of the node that is found.
* `portChecked_iff`: when the check takes ports only.
-/

open CProg CString Yaml

namespace Yaml2Profile

open Convert (assertTokenType scanScalar skipHeader passes proxiesToken)

/-! ## Where the search gets to -/

/-- From within an entry, the search for `title` goes on behind the name of the first entry that
has it. -/
inductive Finds (title : CString) : List Token → List Token → Prop
  | here {f rest : List Token} (hf : IsField (utf8 "name") title f) : Finds title (f ++ rest) rest
  | next {name : CString} {f mid ts rest : List Token} (hf : IsField (utf8 "name") name f)
      (hname : name ≠ title) (hmid : .blockEnd ∉ mid) (hts : Finds title ts rest) :
      Finds title (f ++ (mid ++ .blockEnd :: .blockEntry :: .blockMappingStart :: ts)) rest

/-- In these tokens, the search for `title` leads to a node with the values `n`. -/
def Leads (title : CString) (n : NodeValues) (tokens rest : List Token) : Prop :=
  ∃ header entries tail, passes header = true ∧
    tokens = .streamStart :: .blockMappingStart :: (header ++ .key :: proxiesToken :: .value ::
      .blockEntry :: .blockMappingStart :: entries) ∧
    Finds title entries (tail ++ rest) ∧ IsNodeTail n tail

variable {fuel k : ℕ} {title : CString} {f ts rest : List Token} {b : Bool} {s' : Scanner}

/-! ### Forth -/

/-- A field with the key is consumed and its value returned. -/
theorem run_kVDup_of_isField {key v : CString} (h : IsField key v f) :
    (kVDup key).run ⟨f ++ ts, b⟩ = .ok v ⟨ts, b⟩ := by
  obtain ⟨t, ht, rfl⟩ := h
  simp [kVDup, assertVal, ht]

/-- A field with the key is consumed and its value compared. -/
theorem run_kVCmp_of_isField {key v val : CString} (h : IsField key val f) :
    (kVCmp key v).run ⟨f ++ ts, b⟩ = .ok (decide (val = v)) ⟨ts, b⟩ := by
  obtain ⟨t, ht, rfl⟩ := h
  simp [kVCmp, assertVal, ht]

/-- The search ends behind the title that it finds. -/
theorem run_findNode_of_finds (h : Finds title ts rest) (hfuel : ts.length < fuel)
    (hk : ts.length < k) :
    (loop (findNodeBody fuel title) k ()).run ⟨ts, b⟩ = .ok () ⟨rest, b⟩ := by
  induction h generalizing k with
  | here hf =>
    obtain ⟨k, rfl⟩ : ∃ m, k = m + 1 := ⟨k - 1, by omega⟩
    obtain ⟨t, ht, rfl⟩ := hf
    exact run_loop_of_done (run_findNodeBody_of_eq ht)
  | @next name f mid ts rest hf hname hmid hts ih =>
    obtain ⟨k, rfl⟩ : ∃ m, k = m + 1 := ⟨k - 1, by omega⟩
    obtain ⟨t, ht, rfl⟩ := hf
    simp only [List.length_append, List.length_cons] at hfuel hk
    -- the rest of the entry goes by up to its first `BLOCK_END`
    have hskip : (skipEntry fuel).run
        ⟨mid ++ .blockEnd :: .blockEntry :: .blockMappingStart :: ts, b⟩ =
          .ok () ⟨.blockEntry :: .blockMappingStart :: ts, b⟩ :=
      run_skipEntry hmid (by omega)
    have hbody : (findNodeBody fuel title ()).run ⟨.key :: t :: .value :: .scalar name ::
        (mid ++ .blockEnd :: .blockEntry :: .blockMappingStart :: ts), b⟩ =
          .ok (.inl ()) ⟨ts, b⟩ := by
      rw [run_findNodeBody_of_name_ne ht hname, EStateM.run_bind, hskip]
      rfl
    rw [List.cons_append, List.cons_append, List.cons_append, List.cons_append, List.nil_append,
      run_loop_of_next hbody]
    exact ih (by omega) (by omega)

/-- The way through the header to the first node. -/
theorem run_enterFirst_of_passes {header entries : List Token} (hheader : passes header = true)
    (hfuel : header.length < fuel) :
    (enterFirst fuel).run
        ⟨.streamStart :: .blockMappingStart :: (header ++ .key :: proxiesToken :: .value ::
          .blockEntry :: .blockMappingStart :: entries), b⟩ =
      .ok () ⟨entries, b⟩ := by
  have hskip : (skipHeader fuel).run ⟨header ++ .key :: proxiesToken :: .value :: .blockEntry ::
      .blockMappingStart :: entries, b⟩ =
        .ok () ⟨.value :: .blockEntry :: .blockMappingStart :: entries, b⟩ :=
    Convert.run_skipHeader hheader hfuel
  simp [enterFirst, hskip]

/-! ### Back -/

/-- A round of the search that returns has found the name, or passed an entry with another one. -/
theorem findNodeBody_cases {r : Unit ⊕ Unit}
    (h : (findNodeBody fuel title ()).run ⟨ts, b⟩ = .ok r s') :
    (r = .inr () ∧ ∃ f, IsField (utf8 "name") title f ∧ ts = f ++ s'.tokens) ∨
      r = .inl () ∧ ∃ name f mid, IsField (utf8 "name") name f ∧ name ≠ title ∧ .blockEnd ∉ mid ∧
        ts = f ++ (mid ++ .blockEnd :: .blockEntry :: .blockMappingStart :: s'.tokens) := by
  obtain ⟨isTitle, ⟨ts₁, b₁⟩, hname, hrest⟩ := run_bind_eq_ok.mp h
  obtain ⟨name, f, rfl, hf, htakes⟩ := field_of_run_kVCmp hname
  obtain rfl : ts = f ++ ts₁ := htakes.tokens
  -- a node with another name is skipped up to the next entry
  by_cases heq : name = title
  · subst heq
    rw [decide_eq_true rfl] at hrest
    cases hrest
    exact .inl ⟨rfl, f, hf, rfl⟩
  · rw [decide_eq_false heq] at hrest
    obtain ⟨_, s₂, hskip, hrest⟩ := run_bind_eq_ok.mp hrest
    obtain ⟨mid, ts₂, rfl, hmid, hrun⟩ | ⟨-, parser, hrun⟩ | ⟨-, -, parser, hrun⟩ :=
      run_skipEntry_cases fuel ts₁ b₁
    · obtain rfl : s₂ = ⟨ts₂, b₁⟩ := (EStateM.Result.ok.inj (hskip.symm.trans hrun)).2
      obtain ⟨ts₃, rfl, hnext⟩ | ⟨parser, hnext⟩ := run_toNextEntry_cases ts₂ b₁
      · cases hrest.symm.trans hnext
        exact .inr ⟨rfl, name, f, mid, hf, heq, hmid, rfl⟩
      · cases hrest.symm.trans hnext
    · cases hskip.symm.trans hrun
    · cases hskip.symm.trans hrun

/-- Where the search returns, it has found the title. -/
theorem finds_of_run_findNode (h : (loop (findNodeBody fuel title) k ()).run ⟨ts, b⟩ = .ok () s') :
    Finds title ts s'.tokens := by
  induction k generalizing ts b with
  | zero => cases h
  | succ k ih =>
    obtain ⟨r, s₁, hbody, -⟩ := run_bind_eq_ok.mp h
    obtain ⟨rfl, f, hf, rfl⟩ | ⟨rfl, name, f, mid, hf, hname, hmid, rfl⟩ := findNodeBody_cases hbody
    · rw [run_loop_of_done hbody] at h
      cases h
      exact .here hf
    · rw [run_loop_of_next hbody] at h
      exact .next hf hname hmid (ih h)

/-- Where the way to the first node returns, the tokens were laid out like this. -/
theorem passes_of_run_enterFirst (h : (enterFirst fuel).run ⟨ts, b⟩ = .ok () s') :
    ∃ header, passes header = true ∧
      ts = .streamStart :: .blockMappingStart :: (header ++ .key :: proxiesToken :: .value ::
        .blockEntry :: .blockMappingStart :: s'.tokens) := by
  obtain ⟨_, s₁, hstream, h⟩ := run_bind_eq_ok.mp h
  obtain ⟨_, s₂, hmapping, h⟩ := run_bind_eq_ok.mp h
  obtain ⟨_, s₃, hskip, h⟩ := run_bind_eq_ok.mp h
  obtain ⟨_, s₄, hvalue, h⟩ := run_bind_eq_ok.mp h
  obtain ⟨_, s₅, hentry, hstart⟩ := run_bind_eq_ok.mp h
  obtain ⟨header, hheader, hpasses⟩ := Convert.passes_of_run_skipHeader hskip
  -- two tokens in front of what is skipped, and three behind it
  refine ⟨header, hpasses, ?_⟩
  have hfront := (takes_of_run_assertTokenType hstream nofun).trans
    (takes_of_run_assertTokenType hmapping nofun)
  have hback := (takes_of_run_assertTokenType hvalue nofun).trans
    ((takes_of_run_assertTokenType hentry nofun).trans
      (takes_of_run_assertTokenType hstart nofun))
  calc ts = .streamStart :: .blockMappingStart :: s₂.tokens := hfront.tokens
    _ = _ := by rw [hheader, hback.tokens]; rfl

/-! ## Reading the node -/

variable {resolv : CString → Option CString} {resolveDomain : Bool} {n : NodeValues}
  {tail tokens : List Token} {p : Profile}

/-- What the code asks of a node, beside its tokens. -/
structure Loadable (resolv : CString → Option CString) (resolveDomain : Bool) (n : NodeValues) :
    Prop where
  server : n.server ≠ []
  port : n.port ≠ []
  host : hostOf resolv resolveDomain n ≠ none
  one_le : 1 ≤ atoi n.port

theorem run_kVDup_bind {α : Type} {key v : CString} (h : IsField key v f)
    (g : CString → Prog Scanner α) : (kVDup key >>= g).run ⟨f ++ ts, b⟩ = (g v).run ⟨ts, b⟩ := by
  rw [EStateM.run_bind, run_kVDup_of_isField h]

theorem run_kVCmp_bind {α : Type} {key v : CString} (h : IsField key v f)
    (g : Bool → Prog Scanner α) :
    (kVCmp key v >>= g).run ⟨f ++ ts, b⟩ = (g true).run ⟨ts, b⟩ := by
  rw [EStateM.run_bind, run_kVCmp_of_isField h, decide_eq_true rfl]

/-- On the tokens of a node, what is left is the checks of its values, one after the other. -/
theorem run_readNode_of_isNodeTail (rest : List Token) (b : Bool) (h : IsNodeTail n tail) :
    ∃ s₁ s₂ s₃, (readNode resolv resolveDomain).run ⟨tail ++ rest, b⟩ =
      if n.server ≠ [] then
        if n.port ≠ [] then
          match hostOf resolv resolveDomain n with
          | none => .error .assertion s₃
          | some host =>
            if 1 ≤ atoi n.port then .ok ⟨host, n.cipher, n.password, atoi n.port⟩ ⟨rest, b⟩
            else .error .assertion s₃
        else .error .assertion s₂
      else .error .assertion s₁ := by
  obtain ⟨f₁, f₂, f₃, f₄, f₅, f₆, h₁, h₂, h₃, h₄, h₅, h₆, rfl⟩ := h
  -- the checks stop behind the server, behind the port, or in front of the `BLOCK_END`
  refine ⟨⟨f₃ ++ (f₄ ++ (f₅ ++ (f₆ ++ .blockEnd :: rest))), b⟩,
    ⟨f₄ ++ (f₅ ++ (f₆ ++ .blockEnd :: rest)), b⟩, ⟨.blockEnd :: rest, b⟩, ?_⟩
  simp only [readNode, List.append_assoc, List.singleton_append, run_assert_bind, if_true,
    run_kVCmp_bind h₁, run_kVDup_bind h₂, run_kVDup_bind h₃, run_kVDup_bind h₄, run_kVDup_bind h₅,
    run_kVCmp_bind h₆, hostOf]
  cases (if resolveDomain = true then resolv n.server else some n.server) with
  | none => rfl
  | some host =>
    simp only [run_assert_bind]
    rfl

/-- A loadable node is read whole, with `atoi` of its port. -/
theorem run_readNode_of_loadable (rest : List Token) (b : Bool) (h : IsNodeTail n tail)
    (hn : Loadable resolv resolveDomain n) :
    ∃ host, (readNode resolv resolveDomain).run ⟨tail ++ rest, b⟩ =
      .ok ⟨host, n.cipher, n.password, atoi n.port⟩ ⟨rest, b⟩ := by
  obtain ⟨host, hhost⟩ := Option.ne_none_iff_exists'.mp hn.host
  obtain ⟨s₁, s₂, s₃, hrun⟩ := run_readNode_of_isNodeTail rest b h
  refine ⟨host, ?_⟩
  rw [hrun, if_pos hn.server, if_pos hn.port, hhost]
  exact if_pos hn.one_le

/-- The other ones fail an assertion. -/
theorem run_readNode_of_not_loadable (h : IsNodeTail n tail)
    (hn : ¬ Loadable resolv resolveDomain n) :
    ∃ s', (readNode resolv resolveDomain).run ⟨tail ++ rest, b⟩ = .error .assertion s' := by
  obtain ⟨s₁, s₂, s₃, hrun⟩ := run_readNode_of_isNodeTail rest b h
  rw [hrun]
  by_cases hserver : n.server ≠ []
  swap
  · exact ⟨s₁, if_neg hserver⟩
  rw [if_pos hserver]
  by_cases hport : n.port ≠ []
  swap
  · exact ⟨s₂, if_neg hport⟩
  rw [if_pos hport]
  cases hhost : hostOf resolv resolveDomain n with
  | none => exact ⟨s₃, rfl⟩
  | some host =>
    -- nothing else is amiss, so it is the port that stops the function
    have hone : ¬ 1 ≤ atoi n.port := by
      intro hone
      exact hn ⟨hserver, hport, by rw [hhost]; exact Option.some_ne_none host, hone⟩
    exact ⟨s₃, if_neg hone⟩

/-! ## The whole function -/

/-- The search gets to the node, and what is left is to read it. -/
theorem run_yaml2profile_of_leads (h : Leads title n tokens rest)
    (hfuel : tokens.length < fuel) :
    ∃ tail, IsNodeTail n tail ∧ (yaml2profile resolv fuel resolveDomain title).run ⟨tokens, b⟩ =
      (readNode resolv resolveDomain).run ⟨tail ++ rest, b⟩ := by
  obtain ⟨header, entries, tail, hheader, rfl, hfinds, htail⟩ := h
  simp only [List.length_append, List.length_cons] at hfuel
  refine ⟨tail, htail, ?_⟩
  rw [yaml2profile, EStateM.run_bind, run_enterFirst_of_passes hheader (by omega)]
  dsimp only
  rw [findNode, EStateM.run_bind, run_findNode_of_finds hfinds (by omega) (by omega)]

/-- A profile that is returned is that of the node that the search leads to. -/
theorem leads_of_run_yaml2profile
    (h : (yaml2profile resolv fuel resolveDomain title).run ⟨tokens, b⟩ = .ok p s') :
    ∃ n, Leads title n tokens s'.tokens ∧ Loadable resolv resolveDomain n ∧
      p.remotePort = atoi n.port := by
  obtain ⟨_, ⟨ts₁, b₁⟩, henter, h⟩ := run_bind_eq_ok.mp h
  obtain ⟨_, ⟨ts₂, b₂⟩, hfind, hread⟩ := run_bind_eq_ok.mp h
  obtain ⟨header, hheader, rfl⟩ := passes_of_run_enterFirst henter
  obtain ⟨n, tail, htail, htakes, hhost, -, -, hport, hserverNe, hportNe, hone⟩ :=
    node_of_run_readNode hread
  have hfinds := finds_of_run_findNode hfind
  rw [htakes.tokens] at hfinds
  refine ⟨n, ⟨header, ts₁, tail, hheader, rfl, hfinds, htail⟩, ⟨hserverNe, hportNe, ?_, hone⟩,
    hport⟩
  rw [hhost]
  exact Option.some_ne_none _

/-- `profile_loaded` asks for no more of the port. -/
theorem run_profileLoaded_of_run_yaml2profile
    (h : (yaml2profile resolv fuel resolveDomain title).run ⟨tokens, b⟩ = .ok p s')
    (hhost : p.remoteHost ≠ []) (hmethod : p.method ≠ []) (hpassword : p.password ≠ [])
    (file : Option CString) :
    ProfileJson.profileLoaded.run ⟨.ofProfile p, file⟩ = .ok true ⟨.ofProfile p, file⟩ := by
  obtain ⟨n, -, hn, hport⟩ := leads_of_run_yaml2profile h
  have hone : 1 ≤ p.remotePort := hport ▸ hn.one_le
  exact ProfileJson.run_profileLoaded.trans (if_pos ⟨hhost, hmethod, hpassword, hone⟩)

/-! ## Ports -/

/-- A decimal numeral of a number from 1 to 65535. -/
structure IsPort (text : CString) : Prop where
  digits : ∀ c ∈ text, isdigit c = true
  one_le : 1 ≤ readDigits 0 text
  le : readDigits 0 text ≤ 65535

/-- The number in front of the text, cut to a `long`, has a positive `int` in its low bits. -/
def TakenAsPort (text : CString) : Prop :=
  1 ≤ strtol text % 2 ^ 32 ∧ strtol text % 2 ^ 32 < 2 ^ 31

/-- What passes the check of the port, in terms of the text. -/
theorem one_le_atoi_iff {text : CString} : 1 ≤ atoi text ↔ TakenAsPort text := by
  rw [atoi, TakenAsPort, Int.bmod_def]
  -- the low bits are those of a negative `int` from `2 ^ 31` on
  have hnonneg := Int.emod_nonneg (strtol text) (by decide : (2 : ℤ) ^ 32 ≠ 0)
  have hlt := Int.emod_lt_of_pos (strtol text) (by decide : (0 : ℤ) < 2 ^ 32)
  push_cast
  split_ifs <;> omega

/-- On a port written as digits, `atoi` is the number. -/
theorem atoi_of_isPort {text : CString} (h : IsPort text) : atoi text = readDigits 0 text := by
  have hone := h.one_le
  have hle := h.le
  have hstrtol : strtol text = readDigits 0 text := by
    rw [strtol_of_isdigit h.digits]
    omega
  rw [atoi_of_strtol_lt (by omega) (by omega), hstrtol]

/-- What is taken as a port is not empty. -/
theorem ne_nil_of_takenAsPort {text : CString} (h : TakenAsPort text) : text ≠ [] := by
  rintro rfl
  exact absurd h.1 (by decide)

/-- A profile that is returned has the port of its node, which is one, and every other text in its
place makes the function fail an assertion. -/
structure PortChecked (resolv : CString → Option CString) (resolveDomain : Bool) (title : CString)
    (parser : Scanner) : Prop where
  returns : ∀ fuel p parser',
    (yaml2profile resolv fuel resolveDomain title).run parser = .ok p parser' →
      ∃ n, Leads title n parser.tokens parser'.tokens ∧ IsPort n.port ∧
        p.remotePort = readDigits 0 n.port
  aborts : ∀ n rest, Leads title n parser.tokens rest → ¬ IsPort n.port → ∀ fuel,
    parser.tokens.length < fuel →
      ∃ parser', (yaml2profile resolv fuel resolveDomain title).run parser =
        .error .assertion parser'

/-- The port is checked unless the search leads to a node with a text that is no port and that
`atoi` makes a positive `int` of, and nothing else is amiss with the node. -/
theorem portChecked_iff (resolv : CString → Option CString) (resolveDomain : Bool)
    (title : CString) (parser : Scanner) :
    PortChecked resolv resolveDomain title parser ↔
      ∀ n rest, Leads title n parser.tokens rest → n.server ≠ [] →
        hostOf resolv resolveDomain n ≠ none → TakenAsPort n.port → IsPort n.port := by
  obtain ⟨tokens, b⟩ := parser
  constructor
  · intro h n rest hleads hserver hhost htaken
    by_contra hport
    have hn : Loadable resolv resolveDomain n :=
      ⟨hserver, ne_nil_of_takenAsPort htaken, hhost, one_le_atoi_iff.mpr htaken⟩
    -- the node is read to its end, where it should not get past the port
    obtain ⟨tail, htail, hrun⟩ := run_yaml2profile_of_leads (b := b) hleads (Nat.lt_succ_self _)
    obtain ⟨host, hread⟩ := run_readNode_of_loadable rest b htail hn
    obtain ⟨parser', herror⟩ := h.aborts n rest hleads hport _ (Nat.lt_succ_self _)
    rw [hrun, hread] at herror
    cases herror
  · intro h
    constructor
    · intro fuel p parser' hrun
      obtain ⟨n, hleads, hn, hport⟩ := leads_of_run_yaml2profile hrun
      have hisPort := h n _ hleads hn.server hn.host (one_le_atoi_iff.mp hn.one_le)
      exact ⟨n, hleads, hisPort, hport.trans (atoi_of_isPort hisPort)⟩
    · intro n rest hleads hport fuel hfuel
      have hn : ¬ Loadable resolv resolveDomain n := fun hn =>
        hport (h n rest hleads hn.server hn.host (one_le_atoi_iff.mp hn.one_le))
      obtain ⟨tail, htail, hrun⟩ := run_yaml2profile_of_leads (b := b) hleads hfuel
      rw [hrun]
      exact run_readNode_of_not_loadable htail hn

/-- A node with something behind its port. -/
def trailingNode : NodeValues := { ProfileJson.sampleNode with port := utf8 "443abc" }

/-- A profile is returned for it. -/
theorem not_portChecked_trailing :
    ¬ PortChecked (fun host => some host) false (utf8 "hk")
      (ProfileJson.sampleScanner trailingNode) := by
  intro h
  have hleads : Leads (utf8 "hk") trailingNode (ProfileJson.sampleScanner trailingNode).tokens
      [.blockEnd, .streamEnd] :=
    ⟨[], _, _, rfl, rfl, .here ⟨_, rfl, rfl⟩, _, _, _, _, _, _, ⟨_, rfl, rfl⟩, ⟨_, rfl, rfl⟩,
      ⟨_, rfl, rfl⟩, ⟨_, rfl, rfl⟩, ⟨_, rfl, rfl⟩, ⟨_, rfl, rfl⟩, rfl⟩
  have hport : ¬ IsPort trailingNode.port := fun hport => by
    have hall := hport.digits
    revert hall
    decide +kernel
  obtain ⟨parser', hrun⟩ := h.aborts _ _ hleads hport 64 (by decide)
  cases hrun

end Yaml2Profile
