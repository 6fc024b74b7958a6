import Clash.Lib.ProgramLogic
import Clash.Profile.Defs

/-!
# What yaml2profile has read

The tokens that the parts of `yaml2profile` have taken when they return, on any token stream.

## Main definitions

* `Takes`: the tokens between two states of the scanner.
* `IsField`: the tokens of a key with its value.
* `NodeValues`, `IsNode`: the values of a node and the tokens that it has them from.
* `ReadsNode`: the tokens that were taken end with such a node.

## Main results

* `node_of_run_yaml2profile`: a profile that is returned is that of a node.
* `ReadsNode.unique`: the node is the only one.
-/

open CProg CString Yaml

namespace Yaml2Profile

open Convert (assertTokenType scanScalar skipHeader)

variable {s s₁ s' : Scanner} {k v : CString} {ts ts' : List Token}

/-! ## Tokens -/

/-- The scanner yields the tokens on its way from `s` to `s'`. -/
structure Takes (s : Scanner) (ts : List Token) (s' : Scanner) : Prop where
  tokens : s.tokens = ts ++ s'.tokens
  broken : s.broken = s'.broken

/-- Two readers, one behind the other, take the tokens of both. -/
theorem Takes.trans (h : Takes s ts s₁) (h' : Takes s₁ ts' s') : Takes s (ts ++ ts') s' := by
  refine ⟨?_, h.broken.trans h'.broken⟩
  rw [h.tokens, h'.tokens, List.append_assoc]

/-- A `scan` that returns a token takes it. -/
theorem takes_of_run_scan {t : Token} (h : scan.run s = .ok t s') (ht : t ≠ .noToken) :
    Takes s [t] s' := by
  obtain ⟨tokens, broken⟩ := s
  cases tokens with
  | cons first tokens =>
    cases h
    exact ⟨rfl, rfl⟩
  -- behind the last token there is only `YAML_NO_TOKEN`
  | nil =>
    obtain ⟨_, _, hget, h⟩ := run_bind_eq_ok.mp h
    cases hget
    obtain ⟨_, _, hassert, h⟩ := run_bind_eq_ok.mp h
    cases h
    exact absurd rfl ht

/-- An assertion on the type of the next token takes it. -/
theorem takes_of_run_assertTokenType {tt : Token}
    (h : (assertTokenType tt).run s = .ok () s') (htt : tt ≠ .noToken) : Takes s [tt] s' := by
  obtain ⟨t, s₁, hscan, h⟩ := run_bind_eq_ok.mp h
  obtain ⟨rfl, rfl⟩ := run_assert_eq_ok.mp h
  exact takes_of_run_scan hscan htt

/-- So does reading a scalar. -/
theorem takes_of_run_scanScalar (h : scanScalar.run s = .ok v s') : Takes s [.scalar v] s' := by
  obtain ⟨t, s₁, hscan, h⟩ := run_bind_eq_ok.mp h
  cases t with
  | scalar v' =>
    cases h
    exact takes_of_run_scan hscan nofun
  | _ => cases h

/-- And an assertion on the value of the next token. -/
theorem takes_of_run_assertVal (h : (assertVal k).run s = .ok () s') :
    ∃ t : Token, t.val = some k ∧ Takes s [t] s' := by
  obtain ⟨t, s₁, hscan, h⟩ := run_bind_eq_ok.mp h
  rcases hval : t.val with _ | v
  · rw [hval] at h
    cases h
  · rw [hval] at h
    obtain ⟨rfl, rfl⟩ := run_assert_eq_ok.mp h
    refine ⟨t, hval, takes_of_run_scan hscan ?_⟩
    rintro rfl
    cases hval

/-! ## Fields -/

/-- The tokens of key `k` with the scalar `v`. The key may be any token with data. -/
def IsField (k v : CString) (ts : List Token) : Prop :=
  ∃ t : Token, t.val = some k ∧ ts = [.key, t, .value, .scalar v]

/-- A field has four tokens: the two marks, the key and the value. -/
theorem IsField.length_eq (h : IsField k v ts) : ts.length = 4 := by
  obtain ⟨t, -, rfl⟩ := h
  rfl

/-- The tokens of a field determine its value. -/
theorem IsField.unique {v' : CString} (h : IsField k v ts) (h' : IsField k v' ts) : v = v' := by
  obtain ⟨t, -, rfl⟩ := h
  obtain ⟨t', -, heq⟩ := h'
  simp only [List.cons.injEq, Token.scalar.injEq] at heq
  exact heq.2.2.2.1

/-- A value that is copied is that of the field with its key. -/
theorem field_of_run_kVDup (h : (kVDup k).run s = .ok v s') :
    ∃ f, IsField k v f ∧ Takes s f s' := by
  obtain ⟨_, s₁, hkey, h⟩ := run_bind_eq_ok.mp h
  obtain ⟨_, s₂, hval, h⟩ := run_bind_eq_ok.mp h
  obtain ⟨_, s₃, hvalue, hscalar⟩ := run_bind_eq_ok.mp h
  obtain ⟨t, ht, hval⟩ := takes_of_run_assertVal hval
  have hfield := (takes_of_run_assertTokenType hkey nofun).trans (hval.trans
    ((takes_of_run_assertTokenType hvalue nofun).trans (takes_of_run_scanScalar hscalar)))
  exact ⟨_, ⟨t, ht, rfl⟩, hfield⟩

/-- A value is compared with that of the field with its key. -/
theorem field_of_run_kVCmp {b : Bool} (h : (kVCmp k v).run s = .ok b s') :
    ∃ val f, b = decide (val = v) ∧ IsField k val f ∧ Takes s f s' := by
  obtain ⟨_, s₁, hkey, h⟩ := run_bind_eq_ok.mp h
  obtain ⟨_, s₂, hval, h⟩ := run_bind_eq_ok.mp h
  obtain ⟨_, s₃, hvalue, h⟩ := run_bind_eq_ok.mp h
  obtain ⟨val, s₄, hscalar, h⟩ := run_bind_eq_ok.mp h
  cases h
  obtain ⟨t, ht, hval⟩ := takes_of_run_assertVal hval
  have hfield := (takes_of_run_assertTokenType hkey nofun).trans (hval.trans
    ((takes_of_run_assertTokenType hvalue nofun).trans (takes_of_run_scanScalar hscalar)))
  exact ⟨val, _, rfl, ⟨t, ht, rfl⟩, hfield⟩

/-- A comparison that succeeds has seen the value. -/
theorem field_of_run_kVCmp_true (h : (kVCmp k v).run s = .ok true s') :
    ∃ f, IsField k v f ∧ Takes s f s' := by
  obtain ⟨val, f, hval, hfield, htakes⟩ := field_of_run_kVCmp h
  obtain rfl := of_decide_eq_true hval.symm
  exact ⟨f, hfield, htakes⟩

/-! ## Nodes -/

/-- The values of a node. -/
structure NodeValues where
  server : CString
  port : CString
  cipher : CString
  password : CString
  deriving DecidableEq, Repr

/-- The tokens behind the name of a node with these values. -/
def IsNodeTail (n : NodeValues) (ts : List Token) : Prop :=
  ∃ f₁ f₂ f₃ f₄ f₅ f₆, IsField (utf8 "type") (utf8 "ss") f₁ ∧ IsField (utf8 "server") n.server f₂ ∧
    IsField (utf8 "port") n.port f₃ ∧ IsField (utf8 "cipher") n.cipher f₄ ∧
    IsField (utf8 "password") n.password f₅ ∧ IsField (utf8 "udp") (utf8 "true") f₆ ∧
    ts = f₁ ++ (f₂ ++ (f₃ ++ (f₄ ++ (f₅ ++ (f₆ ++ [.blockEnd])))))

/-- The tokens of a node with a name and these values. -/
def IsNode (title : CString) (n : NodeValues) (ts : List Token) : Prop :=
  ∃ f t, IsField (utf8 "name") title f ∧ IsNodeTail n t ∧ ts = f ++ t

/-- The tokens up to `rest` end with a node. -/
def ReadsNode (title : CString) (n : NodeValues) (tokens rest : List Token) : Prop :=
  ∃ before ts, IsNode title n ts ∧ tokens = before ++ ts ++ rest

/-- The tokens of a node behind its name determine its values. -/
theorem IsNodeTail.unique {n n' : NodeValues} (h : IsNodeTail n ts) (h' : IsNodeTail n' ts) :
    n = n' := by
  obtain ⟨f₁, f₂, f₃, f₄, f₅, f₆, h₁, h₂, h₃, h₄, h₅, h₆, rfl⟩ := h
  obtain ⟨g₁, g₂, g₃, g₄, g₅, g₆, h₁', h₂', h₃', h₄', h₅', h₆', heq⟩ := h'
  obtain ⟨-, heq₂⟩ := List.append_inj heq (h₁.length_eq.trans h₁'.length_eq.symm)
  obtain ⟨rfl, heq₃⟩ := List.append_inj heq₂ (h₂.length_eq.trans h₂'.length_eq.symm)
  obtain ⟨rfl, heq₄⟩ := List.append_inj heq₃ (h₃.length_eq.trans h₃'.length_eq.symm)
  obtain ⟨rfl, heq₅⟩ := List.append_inj heq₄ (h₄.length_eq.trans h₄'.length_eq.symm)
  obtain ⟨rfl, -⟩ := List.append_inj heq₅ (h₅.length_eq.trans h₅'.length_eq.symm)
  obtain ⟨server, port, cipher, password⟩ := n
  obtain ⟨server', port', cipher', password'⟩ := n'
  obtain rfl : server = server' := h₂.unique h₂'
  obtain rfl : port = port' := h₃.unique h₃'
  obtain rfl : cipher = cipher' := h₄.unique h₄'
  obtain rfl : password = password' := h₅.unique h₅'
  rfl

/-- They are 25. -/
theorem IsNodeTail.length_eq {n : NodeValues} (h : IsNodeTail n ts) : ts.length = 25 := by
  obtain ⟨f₁, f₂, f₃, f₄, f₅, f₆, h₁, h₂, h₃, h₄, h₅, h₆, rfl⟩ := h
  simp only [List.length_append, h₁.length_eq, h₂.length_eq, h₃.length_eq, h₄.length_eq,
    h₅.length_eq, h₆.length_eq, List.length_singleton]

/-- The tokens that were taken end with only one node. -/
theorem ReadsNode.unique {title : CString} {n n' : NodeValues} {tokens rest : List Token}
    (h : ReadsNode title n tokens rest) (h' : ReadsNode title n' tokens rest) : n = n' := by
  obtain ⟨before, _, ⟨f, t, hf, ht, rfl⟩, rfl⟩ := h
  obtain ⟨before', _, ⟨f', t', hf', ht', rfl⟩, heq⟩ := h'
  have heq := List.append_cancel_right heq
  rw [← List.append_assoc, ← List.append_assoc] at heq
  obtain ⟨-, rfl⟩ := List.append_inj' heq (ht.length_eq.trans ht'.length_eq.symm)
  exact ht.unique ht'

/-! ## The whole function -/

section Run

variable {resolv : CString → Option CString} {fuel : ℕ} {resolveDomain : Bool} {title : CString}
  {p : Profile}

/-- The host of a node. -/
def hostOf (resolv : CString → Option CString) (resolveDomain : Bool) (n : NodeValues) :
    Option CString :=
  if resolveDomain then resolv n.server else some n.server

/-- A profile is read from the tokens of a node. -/
theorem node_of_run_readNode (h : (readNode resolv resolveDomain).run s = .ok p s') :
    ∃ n ts, IsNodeTail n ts ∧ Takes s ts s' ∧ hostOf resolv resolveDomain n = some p.remoteHost ∧
      p.method = n.cipher ∧ p.password = n.password ∧ p.remotePort = atoi n.port ∧
      n.server ≠ [] ∧ n.port ≠ [] ∧ 1 ≤ atoi n.port := by
  obtain ⟨isSs, s₁, htype, h⟩ := run_bind_eq_ok.mp h
  obtain ⟨_, _, hassert, h⟩ := run_bind_eq_ok.mp h
  obtain ⟨rfl, rfl⟩ := run_assert_eq_ok.mp hassert
  obtain ⟨server, s₂, hserver, h⟩ := run_bind_eq_ok.mp h
  obtain ⟨_, _, hassert, h⟩ := run_bind_eq_ok.mp h
  obtain ⟨hserverNe, rfl⟩ := run_assert_eq_ok.mp hassert
  obtain ⟨port, s₃, hport, h⟩ := run_bind_eq_ok.mp h
  obtain ⟨_, _, hassert, h⟩ := run_bind_eq_ok.mp h
  obtain ⟨hportNe, rfl⟩ := run_assert_eq_ok.mp hassert
  obtain ⟨method, s₄, hcipher, h⟩ := run_bind_eq_ok.mp h
  obtain ⟨password, s₅, hpassword, h⟩ := run_bind_eq_ok.mp h
  obtain ⟨isUdp, s₆, hudp, h⟩ := run_bind_eq_ok.mp h
  obtain ⟨_, _, hassert, h⟩ := run_bind_eq_ok.mp h
  obtain ⟨rfl, rfl⟩ := run_assert_eq_ok.mp hassert
  -- without an address the program stops
  rcases hhost : (if resolveDomain then resolv server else some server) with _ | host
  · rw [hhost] at h
    cases h
  rw [hhost] at h
  obtain ⟨_, _, hassert, h⟩ := run_bind_eq_ok.mp h
  obtain ⟨hone, rfl⟩ := run_assert_eq_ok.mp hassert
  obtain ⟨_, s₇, hend, h⟩ := run_bind_eq_ok.mp h
  cases h
  -- the tokens of the node are those of its six fields, and the end
  obtain ⟨f₁, hf₁, htype⟩ := field_of_run_kVCmp_true htype
  obtain ⟨f₂, hf₂, hserver⟩ := field_of_run_kVDup hserver
  obtain ⟨f₃, hf₃, hport⟩ := field_of_run_kVDup hport
  obtain ⟨f₄, hf₄, hcipher⟩ := field_of_run_kVDup hcipher
  obtain ⟨f₅, hf₅, hpassword⟩ := field_of_run_kVDup hpassword
  obtain ⟨f₆, hf₆, hudp⟩ := field_of_run_kVCmp_true hudp
  have hend := takes_of_run_assertTokenType hend nofun
  exact ⟨⟨server, port, method, password⟩, _,
    ⟨f₁, f₂, f₃, f₄, f₅, f₆, hf₁, hf₂, hf₃, hf₄, hf₅, hf₆, rfl⟩,
    htype.trans (hserver.trans (hport.trans (hcipher.trans (hpassword.trans (hudp.trans hend))))),
    hhost, rfl, rfl, rfl, hserverNe, hportNe, hone⟩

/-! ### Never going back -/

section Suffix

variable {tokens : List Token}

/-- The scanner is in front of some of the tokens. -/
def Behind (tokens : List Token) (s : Scanner) : Prop := s.tokens <:+ tokens

/-- A `scan` leaves only tokens that were there before. -/
theorem keeps_scan : Keeps (Behind tokens) (fun _ => True) scan := by
  rintro ⟨ts, broken⟩ h
  cases ts with
  | cons t ts => exact (List.suffix_cons t ts).trans h
  | nil =>
    cases broken with
    | true => exact trivial
    | false => exact h

theorem keeps_assert_behind (P : Prop) [Decidable P] :
    Keeps (Behind tokens) (fun _ => True) (assert P : Prog Scanner Unit) :=
  keeps_assert (fun _ _ => trivial) P

theorem keeps_assertTokenType (tt : Token) :
    Keeps (Behind tokens) (fun _ => True) (assertTokenType tt) :=
  keeps_scan.bind fun _ => keeps_assert_behind _

theorem keeps_scanScalar : Keeps (Behind tokens) (fun _ => True) scanScalar := by
  refine keeps_scan.bind fun t => ?_
  cases t with
  | scalar v => exact keeps_pure v
  | _ => exact keeps_throw (fun _ _ => trivial) _

theorem keeps_kVCmp : Keeps (Behind tokens) (fun _ => True) (kVCmp k v) := by
  refine (keeps_assertTokenType _).bind fun _ => Keeps.bind ?_ fun _ => ?_
  · refine keeps_scan.bind fun t => ?_
    cases t.val with
    | none => exact keeps_throw (fun _ _ => trivial) _
    | some v => exact keeps_assert_behind _
  · exact (keeps_assertTokenType _).bind fun _ => keeps_scanScalar.bind fun _ => keeps_pure _

/-- So does skipping an entry. -/
theorem keeps_skipEntry : Keeps (Behind tokens) (fun _ => True) (skipEntry fuel) := by
  refine Keeps.loop (fun _ _ => trivial) (fun _ => keeps_scan.bind fun t => ?_) _ _
  exact (keeps_pure _).ite (keeps_pure _)

/-- So does a round of the search for a node. -/
theorem keeps_findNodeBody :
    Keeps (Behind tokens) (fun _ => True) (findNodeBody fuel title ()) := by
  refine keeps_kVCmp.bind fun isTitle => (keeps_pure _).ite ?_
  refine keeps_skipEntry.bind fun _ => keeps_scan.bind fun t => ?_
  exact (keeps_assert_behind _).bind fun _ => (keeps_assertTokenType _).bind fun _ => keeps_pure _

/-- So does the way to the first entry. -/
theorem keeps_enterFirst : Keeps (Behind tokens) (fun _ => True) (enterFirst fuel) := by
  refine (keeps_assertTokenType _).bind fun _ => (keeps_assertTokenType _).bind fun _ => ?_
  refine Keeps.bind ?_ fun _ => ?_
  · refine Keeps.loop (fun _ _ => trivial) (fun _ => keeps_scan.bind fun t => ?_) _ _
    refine Keeps.ite (keeps_scan.bind fun t' => ?_) (keeps_pure _)
    exact (keeps_pure _).ite (keeps_pure _)
  · refine (keeps_assertTokenType _).bind fun _ => (keeps_assertTokenType _).bind fun _ => ?_
    exact keeps_assertTokenType _

end Suffix

/-- A profile that is returned is that of a node with the title, whose tokens are the last ones that
were taken. -/
theorem node_of_run_yaml2profile
    (h : (yaml2profile resolv fuel resolveDomain title).run s = .ok p s') :
    ∃ n, ReadsNode title n s.tokens s'.tokens ∧
      hostOf resolv resolveDomain n = some p.remoteHost ∧ p.method = n.cipher ∧
      p.password = n.password ∧ p.remotePort = atoi n.port ∧ n.server ≠ [] ∧ n.port ≠ [] ∧
      1 ≤ atoi n.port := by
  obtain ⟨_, s₁, henter, h⟩ := run_bind_eq_ok.mp h
  obtain ⟨_, s₂, hfind, hread⟩ := run_bind_eq_ok.mp h
  have hbehind : Behind s.tokens s₁ := keeps_enterFirst.of_ok (List.suffix_refl _) henter
  obtain ⟨_, t, ht, hbody⟩ := run_loop_exit (P := Behind s.tokens)
    (fun _ _ _ _ hs hbody => keeps_findNodeBody.of_ok hs hbody) hbehind hfind
  obtain ⟨isTitle, t', hname, hbody⟩ := run_bind_eq_ok.mp hbody
  cases isTitle with
  | false =>
    -- a round that skips the entry goes on
    obtain ⟨_, _, -, hbody⟩ := run_bind_eq_ok.mp hbody
    obtain ⟨_, _, -, hbody⟩ := run_bind_eq_ok.mp hbody
    obtain ⟨_, _, -, hbody⟩ := run_bind_eq_ok.mp hbody
    obtain ⟨_, _, -, hbody⟩ := run_bind_eq_ok.mp hbody
    cases hbody
  | true =>
    cases hbody
    obtain ⟨f, hf, hname⟩ := field_of_run_kVCmp_true hname
    obtain ⟨n, ts, hts, htail, hvalues⟩ := node_of_run_readNode hread
    obtain ⟨before, hbefore⟩ := ht
    refine ⟨n, ⟨before, f ++ ts, ⟨f, ts, hf, hts, rfl⟩, ?_⟩, hvalues⟩
    rw [← hbefore, (hname.trans htail).tokens, List.append_assoc before]

end Run

end Yaml2Profile
