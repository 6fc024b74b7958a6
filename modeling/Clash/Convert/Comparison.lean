import Clash.Convert.Alignment

/-!
# Comparing the shared fields

`main` keeps the port, the cipher and the password of the first node and compares every later
node with them, if each of the three is at least three bytes long. Shorter ones are taken for
damage, and the second node aborts the program whatever its fields are.

## Main definitions

* `checksPass`: no comparison that the proxy loop makes in its first rounds fails.
* `readsToEnd`: the list of proxies is read to its end.
* `Long`: fields that are compared with later ones.

## Main results

* `checksPass_iff`: for nodes with the same fields, the comparisons pass exactly if there is
  nothing to compare or the fields are long.
-/

open CProg CString Yaml

namespace Convert

/-- In the first `n` rounds of the proxy loop from `st`, each node that is read is accepted by
`checkCredentials`. -/
def checksPass (fuel : ℕ) : ℕ → State → Bool
  | 0, _ => true
  | n + 1, st =>
    (match (readEntry fuel).run st.parser with
      | .ok (.keep _ own) parser' =>
        returned ((checkCredentials own).run { st with parser := parser' })
      | _ => true) &&
    (match (proxyBody fuel ()).run st with
      | .ok (.inl ()) st' => checksPass fuel n st'
      | _ => true)

/-- The first `n` entries hold the end of the list of proxies, and all entries before it can be
read. -/
def readsToEnd (fuel : ℕ) : ℕ → Scanner → Bool
  | 0, _ => false
  | n + 1, parser =>
    match (readEntry fuel).run parser with
    | .ok .sequenceEnd _ => true
    | .ok (.drop _) parser' => readsToEnd fuel n parser'
    | .ok (.keep _ _) parser' => readsToEnd fuel n parser'
    | .error _ _ => false

/-- Fields that a later node is compared with. -/
def Long (own : Credentials) : Prop :=
  3 ≤ own.port.length ∧ 3 ≤ own.cipher.length ∧ 3 ≤ own.password.length

instance (own : Credentials) : Decidable (Long own) := inferInstanceAs (Decidable (_ ∧ _))

variable {fuel n : ℕ} {st st₁ : State} {own : Credentials} {node : Node} {parser' : Scanner}

/-! ## One comparison -/

/-- The first node's fields are stored. -/
theorem run_checkCredentials_of_empty (hplain : st.plain = ⟨[], [], []⟩)
    (hfits : Fits szPort own.port ∧ Fits szCipher own.cipher ∧ Fits sz own.password) :
    (checkCredentials own).run st = .ok () { st with plain := own } := by
  obtain ⟨hport, hcipher, hpassword⟩ := hfits
  simp [checkCredentials, hplain, hport, hcipher, hpassword]

/-- Stored fields that are long accept a node with the same fields. -/
theorem run_checkCredentials_of_long (hplain : st.plain = own) (hlong : Long own) :
    (checkCredentials own).run st = .ok () st := by
  have hport : st.plain.port.length ≠ 0 := by
    rw [hplain]
    exact Nat.ne_of_gt (Nat.lt_of_lt_of_le (Nat.succ_pos 2) hlong.1)
  rw [← hplain] at hlong ⊢
  unfold Long at hlong
  rw [checkCredentials, EStateM.run_bind, EStateM.run_get]
  dsimp only
  rw [if_neg fun h => hport h.1, if_pos hlong]
  simp

/-- Stored fields one of which is short accept no node at all. -/
theorem run_checkCredentials_of_short (hplain : st.plain ≠ ⟨[], [], []⟩)
    (hshort : ¬ Long st.plain) : (checkCredentials own).run st = .error .assertion st := by
  have hstored : ¬ (st.plain.port.length = 0 ∧ st.plain.cipher.length = 0 ∧
      st.plain.password.length = 0) := by
    rintro ⟨hport, hcipher, hpassword⟩
    apply hplain
    exact Credentials.mk.injEq .. ▸ ⟨List.length_eq_zero_iff.mp hport,
      List.length_eq_zero_iff.mp hcipher, List.length_eq_zero_iff.mp hpassword⟩
  unfold Long at hshort
  rw [checkCredentials, EStateM.run_bind, EStateM.run_get]
  dsimp only
  rw [if_neg hstored, if_neg hshort]
  rfl

/-- A node that is accepted leaves its own fields behind, whether they were stored or compared. -/
theorem eq_of_run_checkCredentials (h : (checkCredentials own).run st = .ok () st₁) :
    st₁ = { st with plain := own } := by
  obtain hok | ⟨e, herror⟩ := run_checkCredentials_cases own st
  · rw [hok] at h
    cases h
    rfl
  · rw [herror] at h
    cases h

/-! ## One round -/

/-- A round that keeps a node, from the comparison on. -/
theorem run_proxyBody_keep (hread : (readEntry fuel).run st.parser = .ok (.keep node own) parser') :
    (proxyBody fuel ()).run st =
      (do checkCredentials own; group node.name; emitNode node; return .inl ()
        : Prog State (Unit ⊕ Unit)).run { st with parser := parser' } := by
  rw [proxyBody, EStateM.run_bind, onParser, run_zoom_of_ok hread]

theorem run_proxyBody_of_check_error {e : Stop} {st' : State}
    (hread : (readEntry fuel).run st.parser = .ok (.keep node own) parser')
    (hcheck : (checkCredentials own).run { st with parser := parser' } = .error e st') :
    (proxyBody fuel ()).run st = .error e st' := by
  rw [run_proxyBody_keep hread, EStateM.run_bind, hcheck]

/-- A node without a name is not grouped. -/
theorem run_proxyBody_of_nil
    (hread : (readEntry fuel).run st.parser = .ok (.keep node own) parser')
    (hcheck : (checkCredentials own).run { st with parser := parser' } = .ok () st₁)
    (hname : node.name = []) : (proxyBody fuel ()).run st = .error .assertion st₁ := by
  rw [run_proxyBody_keep hread, EStateM.run_bind, hcheck]
  simp [group, hname]

/-- A node that is accepted and has a name leads to the next round. -/
theorem run_proxyBody_of_check
    (hread : (readEntry fuel).run st.parser = .ok (.keep node own) parser')
    (hcheck : (checkCredentials own).run { st with parser := parser' } = .ok () st₁)
    (hname : node.name ≠ []) :
    ∃ st', (proxyBody fuel ()).run st = .ok (.inl ()) st' ∧ st'.parser = parser' ∧
      st'.plain = own := by
  obtain rfl := eq_of_run_checkCredentials hcheck
  have hobfs : node.obfs = false := (returns_readEntry fuel _ _ _ hread _ _ rfl).1
  rw [run_proxyBody_keep hread, EStateM.run_bind, hcheck]
  simp only [EStateM.run_bind, run_group hname, run_emitNode _ _ hobfs, EStateM.run_pure]
  exact ⟨_, rfl, rfl, rfl⟩

/-! ## All rounds -/

theorem checksPass_succ_of_drop {why : Drop}
    (hread : (readEntry fuel).run st.parser = .ok (.drop why) parser') :
    checksPass fuel (n + 1) st = checksPass fuel n { st with parser := parser' } := by
  rw [checksPass, hread, run_proxyBody_of_drop hread]
  rfl

theorem checksPass_succ_of_sequenceEnd
    (hread : (readEntry fuel).run st.parser = .ok .sequenceEnd parser') :
    checksPass fuel (n + 1) st = true := by
  rw [checksPass, hread, run_proxyBody_of_sequenceEnd hread]
  rfl

theorem checksPass_succ_of_error {e : Stop}
    (hread : (readEntry fuel).run st.parser = .error e parser') :
    checksPass fuel (n + 1) st = true := by
  rw [checksPass, hread, run_proxyBody_of_error hread]
  rfl

theorem checksPass_succ_of_check_error {e : Stop} {st' : State}
    (hread : (readEntry fuel).run st.parser = .ok (.keep node own) parser')
    (hcheck : (checkCredentials own).run { st with parser := parser' } = .error e st') :
    checksPass fuel (n + 1) st = false := by
  rw [checksPass, hread]
  simp only [hcheck]
  rfl

/-- The round of a node that is accepted. -/
theorem checksPass_succ_of_check {st' : State}
    (hread : (readEntry fuel).run st.parser = .ok (.keep node own) parser')
    (hcheck : (checkCredentials own).run { st with parser := parser' } = .ok () st₁)
    (hbody : (proxyBody fuel ()).run st = .ok (.inl ()) st') :
    checksPass fuel (n + 1) st = checksPass fuel n st' := by
  rw [checksPass, hread, hbody]
  simp only [hcheck]
  rfl

theorem checksPass_succ_of_nil
    (hread : (readEntry fuel).run st.parser = .ok (.keep node own) parser')
    (hcheck : (checkCredentials own).run { st with parser := parser' } = .ok () st₁)
    (hname : node.name = []) : checksPass fuel (n + 1) st = true := by
  rw [checksPass, hread, run_proxyBody_of_nil hread hcheck hname]
  simp only [hcheck]
  rfl

/-- On a list that can be read to its end, whose nodes all have a name, nothing but a comparison
stops the loop. -/
theorem returns_iff_checksPass (hend : readsToEnd fuel n st.parser = true)
    (hnames : ∀ node ∈ keptNodes fuel n st.parser, node.1.name ≠ []) :
    (∃ st', (loop (proxyBody fuel) n ()).run st = .ok () st') ↔ checksPass fuel n st = true := by
  -- in each round nothing but the comparison can fail
  induction n generalizing st with
  | zero => cases hend
  | succ n ih =>
    rcases hread : (readEntry fuel).run st.parser with ⟨entry, parser'⟩ | ⟨e, parser'⟩
    · rcases entry with _ | why | ⟨node, own⟩
      · rw [checksPass_succ_of_sequenceEnd hread]
        exact iff_of_true ⟨_, run_loop_of_done (run_proxyBody_of_sequenceEnd hread)⟩ rfl
      · rw [readsToEnd, hread] at hend
        rw [keptNodes_succ_of_drop hread] at hnames
        rw [checksPass_succ_of_drop hread, run_loop_of_next (run_proxyBody_of_drop hread)]
        exact ih hend hnames
      · rw [readsToEnd, hread] at hend
        rw [keptNodes_succ_of_keep hread, List.forall_mem_cons] at hnames
        rcases hcheck : (checkCredentials own).run { st with parser := parser' } with
          ⟨_, st₁⟩ | ⟨e, st₁⟩
        · -- the round goes on, as the name is not empty
          obtain ⟨st', hbody, hparser, -⟩ := run_proxyBody_of_check hread hcheck hnames.1
          rw [checksPass_succ_of_check hread hcheck hbody, run_loop_of_next hbody]
          rw [← hparser] at hend hnames
          exact ih hend hnames.2
        · rw [checksPass_succ_of_check_error hread hcheck,
            run_loop_of_error (run_proxyBody_of_check_error hread hcheck)]
          simp
    · rw [readsToEnd, hread] at hend
      cases hend

/-- Behind a stored node with long fields, every node with the same fields passes. -/
theorem checksPass_of_long (hplain : st.plain = own) (hlong : Long own)
    (hsame : ∀ node ∈ keptNodes fuel n st.parser, node.2 = own) : checksPass fuel n st = true := by
  induction n generalizing st with
  | zero => rfl
  | succ n ih =>
    rcases hread : (readEntry fuel).run st.parser with ⟨entry, parser'⟩ | ⟨e, parser'⟩
    · rcases entry with _ | why | ⟨node, own'⟩
      · exact checksPass_succ_of_sequenceEnd hread
      · rw [keptNodes_succ_of_drop hread] at hsame
        rw [checksPass_succ_of_drop hread]
        exact ih hplain hsame
      · rw [keptNodes_succ_of_keep hread, List.forall_mem_cons] at hsame
        obtain ⟨hown, hsame⟩ := hsame
        obtain rfl : own' = own := hown
        -- the fields are the stored ones, and long enough for the comparison
        have hcheck : (checkCredentials own').run { st with parser := parser' } =
            .ok () { st with parser := parser' } := run_checkCredentials_of_long hplain hlong
        by_cases hname : node.name = []
        · exact checksPass_succ_of_nil hread hcheck hname
        · -- and they are stored again
          obtain ⟨st', hbody, rfl, hplain'⟩ := run_proxyBody_of_check hread hcheck hname
          rw [checksPass_succ_of_check hread hcheck hbody]
          exact ih hplain' hsame
    · exact checksPass_succ_of_error hread

/-- Behind a stored node with a short field, no node passes. -/
theorem checksPass_of_short (hstored : st.plain ≠ ⟨[], [], []⟩) (hshort : ¬ Long st.plain) :
    checksPass fuel n st = true ↔ keptNodes fuel n st.parser = [] := by
  -- the first node that is kept fails the comparison
  induction n generalizing st with
  | zero => exact iff_of_true rfl rfl
  | succ n ih =>
    rcases hread : (readEntry fuel).run st.parser with ⟨entry, parser'⟩ | ⟨e, parser'⟩
    · rcases entry with _ | why | ⟨node, own⟩
      · rw [keptNodes_succ_of_sequenceEnd hread]
        exact iff_of_true (checksPass_succ_of_sequenceEnd hread) rfl
      · rw [keptNodes_succ_of_drop hread, checksPass_succ_of_drop hread]
        exact ih hstored hshort
      · have hcheck : (checkCredentials own).run { st with parser := parser' } =
            .error .assertion { st with parser := parser' } :=
          run_checkCredentials_of_short hstored hshort
        rw [keptNodes_succ_of_keep hread, checksPass_succ_of_check_error hread hcheck]
        simp
    · rw [keptNodes, hread]
      exact iff_of_true (checksPass_succ_of_error hread) rfl

/-- When all nodes have the same fields, not all of them empty, the comparisons pass exactly if the
fields are long or there is nothing to compare: at most one node is kept, or the run stops at the
first one, which has no name. -/
theorem checksPass_iff_long (hplain : st.plain = ⟨[], [], []⟩) (hown : own ≠ ⟨[], [], []⟩)
    (hsame : ∀ node ∈ keptNodes fuel n st.parser, node.2 = own) :
    checksPass fuel n st = true ↔
      Long own ∨ (keptNodes fuel n st.parser).length ≤ 1 ∨
        ∃ node ∈ (keptNodes fuel n st.parser).head?, node.1.name = [] := by
  induction n generalizing st with
  | zero => exact iff_of_true rfl (.inr (.inl (Nat.zero_le 1)))
  | succ n ih =>
    rcases hread : (readEntry fuel).run st.parser with ⟨entry, parser'⟩ | ⟨e, parser'⟩
    · rcases entry with _ | why | ⟨node, own'⟩
      · rw [keptNodes_succ_of_sequenceEnd hread]
        exact iff_of_true (checksPass_succ_of_sequenceEnd hread) (.inr (.inl (Nat.zero_le 1)))
      · rw [keptNodes_succ_of_drop hread] at hsame
        rw [keptNodes_succ_of_drop hread, checksPass_succ_of_drop hread]
        exact ih hplain hsame
      · rw [keptNodes_succ_of_keep hread, List.forall_mem_cons] at hsame
        obtain ⟨hsame₀, hsame⟩ := hsame
        obtain rfl : own' = own := hsame₀
        obtain ⟨-, hfits⟩ := returns_readEntry fuel _ _ _ hread _ _ rfl
        -- the first node is stored without a comparison
        have hcheck : (checkCredentials own').run { st with parser := parser' } =
            .ok () { st with parser := parser', plain := own' } :=
          run_checkCredentials_of_empty hplain hfits
        rw [keptNodes_succ_of_keep hread]
        by_cases hname : node.name = []
        · -- the loop asserts that there is a name, and does not get to a second node
          exact iff_of_true (checksPass_succ_of_nil hread hcheck hname)
            (.inr (.inr ⟨_, rfl, hname⟩))
        obtain ⟨st', hbody, rfl, hplain'⟩ := run_proxyBody_of_check hread hcheck hname
        rw [checksPass_succ_of_check hread hcheck hbody]
        by_cases hlong : Long own'
        · exact iff_of_true (checksPass_of_long hplain' hlong hsame) (.inl hlong)
        -- a second node would be compared with a short field
        rw [checksPass_of_short (hplain'.symm ▸ hown) (hplain'.symm ▸ hlong)]
        constructor
        · intro hnil
          rw [hnil]
          exact .inr (.inl (Nat.le_refl 1))
        · rintro (hlong' | hlen | ⟨node', hnode', hname'⟩)
          · exact absurd hlong' hlong
          · rw [List.length_cons] at hlen
            exact List.length_eq_zero_iff.mp (Nat.le_zero.mp (Nat.le_of_succ_le_succ hlen))
          · rw [List.head?_cons, Option.mem_some_iff] at hnode'
            rw [← hnode'] at hname'
            exact absurd hname' hname
    · rw [keptNodes, hread]
      exact iff_of_true (checksPass_succ_of_error hread) (.inr (.inl (Nat.zero_le 1)))

/-- For nodes that agree in all three fields, no comparison fails exactly if the fields are long or
there is nothing to compare; on a list that can be read to its end, whose nodes all have a name,
the loop then gets there, and otherwise it aborts although no two nodes differ. -/
theorem checksPass_iff (hplain : st.plain = ⟨[], [], []⟩) (hown : own ≠ ⟨[], [], []⟩)
    (hsame : ∀ node ∈ keptNodes fuel n st.parser, node.2 = own) :
    (checksPass fuel n st = true ↔
      Long own ∨ (keptNodes fuel n st.parser).length ≤ 1 ∨
        ∃ node ∈ (keptNodes fuel n st.parser).head?, node.1.name = []) ∧
    (readsToEnd fuel n st.parser = true →
      (∀ node ∈ keptNodes fuel n st.parser, node.1.name ≠ []) →
      ((∃ st', (loop (proxyBody fuel) n ()).run st = .ok () st') ↔
        Long own ∨ (keptNodes fuel n st.parser).length ≤ 1)) := by
  have hchecks := checksPass_iff_long hplain hown hsame
  refine ⟨hchecks, fun hend hnames => ?_⟩
  rw [returns_iff_checksPass hend hnames, hchecks]
  constructor
  · rintro (hlong | hlen | ⟨node, hnode, hname⟩)
    · exact .inl hlong
    · exact .inr hlen
    · exact absurd hname (hnames node (List.mem_of_mem_head? hnode))
  · rintro (hlong | hlen)
    · exact .inl hlong
    · exact .inr (.inl hlen)

/-- The state in front of a list of two nodes that agree in all three fields, with a node that is
dropped between them. -/
def samePortState (port : String) : State :=
  let entry (name type : String) : List (CString × Block) := [
    (utf8 "name", .plain (utf8 name)), (utf8 "type", .plain (utf8 type)),
    (utf8 "server", .plain (utf8 "192.0.2.1")), (utf8 "port", .plain (utf8 port)),
    (utf8 "cipher", .plain (utf8 "aes-256-gcm")), (utf8 "password", .plain (utf8 "secret")),
    (utf8 "udp", .plain (utf8 "true"))]
  initial ⟨entriesTokens [entry "香港 1" "ss", entry "香港 2" "vmess", entry "香港 3" "ss"] ++
    [.blockEnd, .blockEnd, .streamEnd], false⟩

/-- The credentials of these nodes. -/
def samePortCredentials (port : String) : Credentials :=
  ⟨utf8 port, utf8 "aes-256-gcm", utf8 "secret"⟩

theorem checksPass_iff_samePort :
    checksPass 100 10 (samePortState "8443") = true ∧
    ∃ st', (loop (proxyBody 100) 10 ()).run (samePortState "8443") = .ok () st' := by
  have hsame : ∀ node ∈ keptNodes 100 10 (samePortState "8443").parser,
      node.2 = samePortCredentials "8443" := by decide +kernel
  obtain ⟨hchecks, hloop⟩ := checksPass_iff rfl (by decide +kernel) hsame
  exact ⟨hchecks.mpr (.inl (by decide +kernel)),
    (hloop (by decide +kernel) (by decide +kernel)).mpr (.inl (by decide +kernel))⟩

/-- With a port of two digits, the second of two equal nodes aborts the conversion. -/
theorem not_checksPass_samePort :
    ¬ ∀ fuel n st own, st.plain = ⟨[], [], []⟩ → own.port ≠ [] → own.cipher ≠ [] →
      own.password ≠ [] → (∀ node ∈ keptNodes fuel n st.parser, node.2 = own) →
      checksPass fuel n st = true := by
  intro h
  have hpass := h 100 10 (samePortState "80") (samePortCredentials "80") rfl (by decide +kernel)
    (by decide +kernel) (by decide +kernel) (by decide +kernel)
  exact absurd hpass (by decide +kernel)

end Convert
