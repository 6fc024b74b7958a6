import Clash.Convert.Alignment
import Clash.Convert.Run

/-!
# Copies into fixed buffers

Where a run of `main` writes past the end of a buffer: `extract_value_with_key` copies a scalar of
any length.

## Main definitions

* `EntryFits`: the fields of the entry in front of the scanner fit, as far as they are read.
* `entryState`, `mainState`: the states in which the proxy loop reads an entry.

## Main results

* `avoids_readEntry`: an entry is read without an overflow exactly if its fields fit.
* `main_avoids_iff`: a run of `main` is free of overflows exactly if this holds of every entry that
  it reads.
-/

open CProg CString Yaml

namespace Convert

variable {fuel : ℕ} {ts : List Token} {b : Bool}

/-! ## What stands in front of the scanner -/

/-- If the key `k` with a scalar comes next, the scalar fits a buffer of `size` bytes, and `Next`
holds behind it. -/
def FitsNext (k : String) (size : ℕ) (Next : CString → List Token → Prop) (ts : List Token) :
    Prop :=
  ∀ v rest, ts = .key :: .scalar (utf8 k) :: .value :: .scalar v :: rest → Fits size v ∧ Next v rest

/-- The port, the cipher and the password fit. -/
def CredentialsFit : List Token → Prop :=
  FitsNext "port" szPort fun _ => FitsNext "cipher" szCipher fun _ =>
    FitsNext "password" sz fun _ _ => True

/-- The server fits, and what is read behind it. -/
def ServerFits : List Token → Prop :=
  FitsNext "server" sz fun server rest =>
    Inet.pton6 server = false → server ≠ utf8 "127.0.0.1" → CredentialsFit rest

/-- The type fits, and for `ss` what is read behind it. -/
def TypeFits : List Token → Prop :=
  FitsNext "type" 8 fun type rest => type = utf8 "ss" → ServerFits rest

/-- The name fits, and what is read behind it unless the name drops the entry. -/
def NameFits : List Token → Prop :=
  FitsNext "name" sz fun name rest => isCn name = false → TypeFits rest

/-- The fields of the entry in front of the scanner fit their buffers, as far as they are read. -/
def EntryFits (ts : List Token) : Prop :=
  ∀ rest, ts = .blockEntry :: .blockMappingStart :: rest → NameFits rest

/-! ## Reading an entry -/

/-- `extract_value_with_key` copies a scalar if the key comes next, and otherwise fails an
assertion. -/
theorem run_extractValueWithKey_cases (ts : List Token) (k : CString) (size : ℕ) :
    (∃ v rest, ts = .key :: .scalar k :: .value :: .scalar v :: rest ∧
        (extractValueWithKey k size).run ⟨ts, b⟩ = (strcpy size v).run ⟨rest, b⟩) ∨
      ∃ s, (extractValueWithKey k size).run ⟨ts, b⟩ = .error .assertion s := by
  rw [extractValueWithKey, EStateM.run_bind]
  -- KEY
  rcases run_assertTokenType_cases ts (b := b) (by decide : Token.key ≠ .noToken) with
    ⟨ts₁, rfl, h₁⟩ | ⟨s, h₁⟩
  swap
  · exact .inr ⟨s, by rw [h₁]⟩
  rw [h₁]
  dsimp only
  rw [EStateM.run_bind]
  -- the key, and its comparison
  rcases run_scanScalar_cases ts₁ (b := b) with ⟨v₂, ts₂, rfl, h₂⟩ | ⟨s, h₂⟩
  swap
  · exact .inr ⟨s, by rw [h₂]⟩
  rw [h₂]
  dsimp only
  rw [EStateM.run_bind]
  by_cases hkey : v₂ = k
  swap
  · exact .inr ⟨⟨ts₂, b⟩, by rw [run_assert_of_false hkey]⟩
  rw [run_assert_of_true hkey]
  dsimp only
  rw [EStateM.run_bind]
  -- VALUE
  rcases run_assertTokenType_cases ts₂ (b := b) (by decide : Token.value ≠ .noToken) with
    ⟨ts₃, rfl, h₃⟩ | ⟨s, h₃⟩
  swap
  · exact .inr ⟨s, by rw [h₃]⟩
  rw [h₃]
  dsimp only
  rw [EStateM.run_bind]
  -- the value, which is copied
  rcases run_scanScalar_cases ts₃ (b := b) with ⟨v, rest, rfl, h₄⟩ | ⟨s, h₄⟩
  swap
  · exact .inr ⟨s, by rw [h₄]⟩
  rw [h₄, hkey]
  exact .inl ⟨v, rest, rfl, rfl⟩

/-- A program that starts with a copy is free of overflows exactly if the scalar fits and the rest
of the program is free of overflows behind it. -/
theorem avoids_extractValueWithKey {α : Type} {k : String} {size : ℕ}
    {f : CString → Prog Scanner α} :
    Avoids .undefined (extractValueWithKey (utf8 k) size >>= f) ⟨ts, b⟩ ↔
      FitsNext k size (fun v rest => Avoids .undefined (f v) ⟨rest, b⟩) ts := by
  rw [avoids_bind]
  rcases run_extractValueWithKey_cases (b := b) ts (utf8 k) size with
    ⟨v, rest, rfl, hrun⟩ | ⟨s, hrun⟩
  · constructor
    · rintro ⟨hcopy, hnext⟩ v' rest' h
      cases h
      -- a scalar that does not fit is written past the buffer
      have hfits : Fits size v := by
        by_contra hfits
        refine hcopy ⟨rest, b⟩ ?_
        rw [hrun, run_strcpy, if_neg hfits]
      refine ⟨hfits, hnext v ⟨rest, b⟩ ?_⟩
      rw [hrun, run_strcpy_of_fits hfits]
    · intro h
      obtain ⟨hfits, hnext⟩ := h v rest rfl
      rw [run_strcpy_of_fits hfits] at hrun
      refine ⟨avoids_of_ok hrun, fun a s' h => ?_⟩
      rw [hrun] at h
      cases h
      exact hnext
  · refine iff_of_true ⟨avoids_of_error (by decide) hrun, fun a s' h => ?_⟩ ?_
    · rw [hrun] at h
      cases h
    -- no copy has been made, so the key does not come next
    · rintro v rest rfl
      rw [run_extractValueWithKey_eq, run_strcpy] at hrun
      split at hrun <;> cases hrun

theorem fitsNext_congr {k : String} {size : ℕ} {Next Next' : CString → List Token → Prop}
    (h : ∀ v rest, Next v rest ↔ Next' v rest) :
    FitsNext k size Next ts ↔ FitsNext k size Next' ts := by
  simp only [FitsNext, h]

theorem avoids_scan (parser : Scanner) : Avoids .undefined scan parser := by
  obtain ⟨ts, b⟩ := parser
  cases ts with
  | cons t ts => exact avoids_of_ok (run_scan_cons t ts b)
  | nil => cases b <;> intro s h <;> cases h

theorem avoids_skipNode (n lean : ℕ) (parser : Scanner) :
    Avoids .undefined (skipNode n lean) parser := by
  refine Avoids.loop (by decide) (fun lean parser => ?_) n lean parser
  rw [skipNodeBody]
  refine (avoids_scan parser).bind fun token parser => ?_
  refine Avoids.ite (fun _ => ?_) fun _ => avoids_pure _
  refine Avoids.ite (fun _ => avoids_pure _) fun _ => ?_
  exact (avoids_assert (by decide)).bind fun _ _ => avoids_pure _

theorem avoids_assertTokenType (tt : Token) (parser : Scanner) :
    Avoids .undefined (assertTokenType tt) parser :=
  (avoids_scan parser).bind fun _ _ => avoids_assert (by decide)

theorem avoids_scanScalar (parser : Scanner) : Avoids .undefined scanScalar parser := by
  refine (avoids_scan parser).bind fun token parser => ?_
  cases token with
  | scalar v => exact avoids_pure v
  | _ => exact avoids_throw (by decide)

theorem avoids_drop (why : Drop) (parser : Scanner) :
    Avoids .undefined (do skipNode fuel 0; return .drop why : Prog Scanner Entry) parser :=
  (avoids_skipNode fuel 0 parser).bind fun _ _ => avoids_pure _

/-- What stands behind the password is not copied. -/
theorem avoids_readEntry_end (node : Node) (own : Credentials) (parser : Scanner) :
    Avoids .undefined (do
      assertValueWithKey (utf8 "udp") (utf8 "true")
      match ← scan with
      | .blockEnd => return .keep node own
      | .key =>
        skipNode fuel 0
        return .drop .obfs
      | _ => throw .assertion : Prog Scanner Entry) parser := by
  refine Avoids.bind ?_ fun _ parser => ?_
  · rw [assertValueWithKey]
    refine (avoids_assertTokenType _ _).bind fun _ _ => ?_
    refine (avoids_scanScalar _).bind fun _ _ => ?_
    refine (avoids_assert (by decide)).bind fun _ _ => ?_
    refine (avoids_assertTokenType _ _).bind fun _ _ => ?_
    exact (avoids_scanScalar _).bind fun _ _ => avoids_assert (by decide)
  · refine (avoids_scan parser).bind fun token parser => ?_
    cases token with
    | blockEnd => exact avoids_pure _
    | key => exact avoids_drop .obfs parser
    | _ => exact avoids_throw (by decide)

/-- An entry is read without an overflow exactly if its fields fit, as far as they are read. -/
theorem avoids_readEntry : Avoids .undefined (readEntry fuel) ⟨ts, b⟩ ↔ EntryFits ts := by
  rw [readEntry]
  cases ts with
  | nil =>
    -- an entry that does not start as one copies nothing
    have hfits : EntryFits [] := by
      intro rest h
      cases h
    refine iff_of_true ?_ hfits
    cases b with
    | true =>
      exact avoids_bind_of_error (by decide : Stop.assertion ≠ .undefined) rfl
    | false =>
      have hscan : scan.run ⟨[], false⟩ = .ok .noToken ⟨[], false⟩ := rfl
      rw [avoids_bind_of_ok hscan, if_neg (by decide)]
      exact avoids_bind_of_error (by decide) (run_assert_of_false (by decide) _)
  | cons t ts =>
    rw [avoids_bind_of_ok (run_scan_cons t ts b)]
    by_cases hend : t = .blockEnd
    · subst hend
      have hfits : EntryFits (.blockEnd :: ts) := by
        intro rest h
        cases h
      exact iff_of_true (avoids_pure _) hfits
    rw [if_neg hend]
    by_cases hentry : t = .blockEntry
    swap
    · refine iff_of_true ?_ fun rest h => absurd (List.cons.inj h).1 hentry
      exact avoids_bind_of_error (by decide) (run_assert_of_false hentry _)
    subst hentry
    rw [avoids_bind_of_ok (run_assert_of_true rfl _)]
    rcases run_assertTokenType_cases ts (b := b)
      (by decide : Token.blockMappingStart ≠ .noToken) with ⟨rest, rfl, hrun⟩ | ⟨s, hrun⟩
    swap
    · refine iff_of_true (avoids_bind_of_error (by decide) hrun) fun rest h => ?_
      rw [(List.cons.inj h).2, run_assertTokenType] at hrun
      cases hrun
    rw [avoids_bind_of_ok hrun, avoids_extractValueWithKey]
    have hentry : EntryFits (.blockEntry :: .blockMappingStart :: rest) ↔ NameFits rest :=
      ⟨fun h => h rest rfl, fun h rest' hrest => by cases hrest; exact h⟩
    rw [hentry]
    -- the fields one after the other, with what drops the entry in between
    refine fitsNext_congr fun name rest => ?_
    rw [(avoids_drop .cn _).ite_iff, Bool.not_eq_true]
    refine imp_congr_right fun _ => ?_
    rw [avoids_extractValueWithKey]
    refine fitsNext_congr fun type rest => ?_
    rw [(avoids_drop .type _).ite_iff, not_not]
    refine imp_congr_right fun _ => ?_
    rw [avoids_extractValueWithKey]
    refine fitsNext_congr fun server rest => ?_
    rw [(avoids_drop .ipv6 _).ite_iff, Bool.not_eq_true]
    refine imp_congr_right fun _ => ?_
    rw [(avoids_drop .loopback _).ite_iff]
    refine imp_congr_right fun _ => ?_
    rw [avoids_extractValueWithKey]
    refine fitsNext_congr fun port rest => ?_
    rw [avoids_extractValueWithKey]
    refine fitsNext_congr fun cipher rest => ?_
    rw [avoids_extractValueWithKey]
    refine fitsNext_congr fun password rest => ?_
    exact iff_of_true (avoids_readEntry_end _ _ _) trivial

/-! ## The proxy loop -/

/-- The state in which a run of the proxy loop from `st` reads its `n`-th entry, if it gets
there. -/
def entryState (fuel : ℕ) : ℕ → State → Option State
  | 0, st => some st
  | n + 1, st =>
    match (proxyBody fuel ()).run st with
    | .ok (.inl _) st' => entryState fuel n st'
    | _ => none

theorem avoids_checkCredentials {own : Credentials} {st : State} (hport : Fits szPort own.port)
    (hcipher : Fits szCipher own.cipher) (hpassword : Fits sz own.password) :
    Avoids .undefined (checkCredentials own) st := by
  rw [checkCredentials]
  refine Avoids.bind (avoids_of_ok rfl) fun st' _ => ?_
  refine Avoids.ite (fun _ => ?_) fun _ =>
    Avoids.ite (fun _ => ?_) fun _ => avoids_throw (by decide)
  · rw [avoids_bind_of_ok (run_strcpy_of_fits hport),
      avoids_bind_of_ok (run_strcpy_of_fits hcipher),
      avoids_bind_of_ok (run_strcpy_of_fits hpassword)]
    exact avoids_of_ok rfl
  · refine (avoids_assert (by decide)).bind fun _ _ => ?_
    exact (avoids_assert (by decide)).bind fun _ _ => avoids_assert (by decide)

theorem avoids_emitNode (n : Node) (st : State) : Avoids .undefined (emitNode n) st := by
  by_cases hn : n.obfs = false
  · exact avoids_of_ok (run_emitNode _ _ hn)
  · exact avoids_bind_of_error (by decide) (run_assert_of_false hn st)

theorem avoids_proxyBody {st : State} :
    Avoids .undefined (proxyBody fuel ()) st ↔ EntryFits st.parser.tokens := by
  rw [proxyBody, avoids_bind, onParser, avoids_zoom]
  have hread : Avoids .undefined (readEntry fuel) st.parser ↔ EntryFits st.parser.tokens :=
    avoids_readEntry
  rw [hread]
  -- what is kept fits the buffers that it was copied from
  refine and_iff_left fun entry st' h => ?_
  cases entry with
  | sequenceEnd => exact avoids_pure _
  | drop why => exact avoids_pure _
  | keep node own =>
    obtain ⟨parser', hrun, -⟩ := run_zoom_eq_ok.mp h
    obtain ⟨-, hport, hcipher, hpassword⟩ := returns_readEntry fuel _ _ _ hrun _ _ rfl
    refine (avoids_checkCredentials hport hcipher hpassword).bind fun _ st => ?_
    refine Avoids.bind ?_ fun _ st => ?_
    · exact (avoids_assert (by decide)).bind fun _ _ => avoids_of_ok rfl
    · exact (avoids_emitNode node st).bind fun _ _ => avoids_pure _

/-- The proxy loop is free of overflows exactly if the entries that it reads fit. -/
theorem avoids_loop_proxyBody {n : ℕ} {st : State} :
    Avoids .undefined (loop (proxyBody fuel) n ()) st ↔
      ∀ i < n, ∀ st', entryState fuel i st = some st' → EntryFits st'.parser.tokens := by
  -- the first entry is read from `st`, the other ones from the state behind it
  induction n generalizing st with
  | zero =>
    refine iff_of_true (avoids_of_error (by decide) run_loop_zero) fun i hi => absurd hi ?_
    exact Nat.not_lt_zero i
  | succ n ih =>
    rw [loop, avoids_bind, avoids_proxyBody]
    constructor
    · rintro ⟨hfirst, hrest⟩ i hi st' hst'
      cases i with
      | zero =>
        cases hst'
        exact hfirst
      | succ i =>
        rw [entryState] at hst'
        split at hst'
        · rename_i u st₁ hbody
          exact ih.mp (hrest _ _ hbody) i (by omega) st' hst'
        · cases hst'
    · intro h
      refine ⟨h 0 (Nat.succ_pos n) st rfl, fun r st₁ hbody => ?_⟩
      cases r with
      | inr u => exact avoids_pure _
      | inl u =>
        refine ih.mpr fun i hi st' hst' => h (i + 1) (by omega) st' ?_
        rw [entryState, hbody]
        exact hst'

/-! ## Whole runs -/

/-- The state in which a run of `main` reads its `n`-th entry, if it gets there. -/
def mainState (fuel : ℕ) (parser : Scanner) (n : ℕ) : Option State :=
  match (parserBegin fuel).run parser with
  | .ok _ parser' =>
    entryState fuel n { initial parser' with events := headerEvents ++ proxiesEvents }
  | .error _ _ => none

theorem avoids_parserBegin (fuel : ℕ) (parser : Scanner) :
    Avoids .undefined (parserBegin fuel) parser := by
  rw [parserBegin]
  refine (avoids_assertTokenType _ _).bind fun _ _ => ?_
  refine (avoids_assertTokenType _ _).bind fun _ _ => ?_
  refine Avoids.bind ?_ fun _ _ => ?_
  · refine Avoids.loop (by decide) (fun _ parser => ?_) fuel () _
    rw [skipHeaderBody]
    refine (avoids_scan parser).bind fun token parser => ?_
    refine Avoids.ite (fun _ => ?_) fun _ => avoids_pure _
    refine (avoids_scan parser).bind fun token parser => ?_
    exact Avoids.ite (fun _ => avoids_pure _) fun _ => avoids_pure _
  · exact (avoids_assertTokenType _ _).bind fun _ _ => avoids_assertTokenType _ _

/-- The groups behind the proxies have titles of fixed lengths. -/
theorem avoids_groups (mbCurMax : ℕ) (st : State) :
    Avoids .undefined (do
      emit .sequenceEnd
      emit (.scalar (utf8 "proxy-groups"))
      emit .sequenceStart
      assert (mbCurMax = 6)
      emitGroups mbCurMax
      emit .sequenceEnd
      emitterEnd : Prog State Unit) st := by
  rw [avoids_bind_of_ok (run_emit _ _), avoids_bind_of_ok (run_emit _ _),
    avoids_bind_of_ok (run_emit _ _)]
  -- `emitGroups` runs only in a UTF-8 locale
  by_cases hlocale : mbCurMax = 6
  · subst hlocale
    rw [avoids_bind_of_ok (run_assert_of_true rfl _), avoids_bind_of_ok (run_emitGroups _),
      avoids_bind_of_ok (run_emit _ _)]
    exact avoids_of_ok (run_emitterEnd _)
  · exact avoids_bind_of_error (by decide) (run_assert_of_false hlocale _)

/-- A run of `main` never writes past the end of a buffer exactly if the fields of every entry that
it reads fit, as far as they are read. -/
theorem main_avoids_iff (mbCurMax fuel : ℕ) (parser : Scanner) :
    Avoids .undefined (main mbCurMax fuel) (initial parser) ↔
      ∀ n < fuel, ∀ st, mainState fuel parser n = some st → EntryFits st.parser.tokens := by
  rw [main, avoids_bind_of_ok (run_emitterBegin _)]
  cases hbegin : (parserBegin fuel).run parser with
  | error e parser' =>
    -- the header is skipped without a copy, so there is no overflow before the list
    have he : e ≠ .undefined := by
      rintro rfl
      exact avoids_parserBegin fuel parser parser' hbegin
    refine iff_of_true (avoids_bind_of_error he (run_zoom_of_error (p := parserBegin fuel) hbegin))
      fun n _ st hst => ?_
    rw [mainState, hbegin] at hst
    cases hst
  | ok u parser' =>
    -- the entries are those that the loop reads from the state behind the header
    have hstate (n : ℕ) : mainState fuel parser n = entryState fuel n
        { initial parser' with events := headerEvents ++ proxiesEvents } := by
      rw [mainState, hbegin]
    have hparser : (onParser (parserBegin fuel)).run
        { initial parser with events := (initial parser).events ++ headerEvents } =
          .ok () { initial parser' with events := headerEvents } :=
      run_zoom_of_ok (p := parserBegin fuel) hbegin
    simp only [hstate]
    rw [avoids_bind_of_ok hparser, avoids_bind_of_ok (run_emit _ _),
      avoids_bind_of_ok (run_emit _ _), avoids_bind, proxyLoop, avoids_loop_proxyBody]
    -- nor is there one behind the list
    refine (and_iff_left fun _ st _ => avoids_groups mbCurMax st).trans ?_
    rw [List.append_assoc]
    rfl

/-- An input with one node, of another type. -/
def otherTypeInput (type : String) : Scanner where
  tokens := documentTokens []
    (.sequence [.mapping (sampleEntry "新加坡 1" type "192.0.2.3" [])]) [.blockEnd, .streamEnd]
  broken := false

/-- A run that drops a node of type `wireguard` has written the type past the end of its buffer. -/
theorem not_avoids_wireguard :
    ¬ Avoids .undefined (main 6 60) (initial (otherTypeInput "wireguard")) := by
  intro h
  refine h (final ((main 6 60).run (initial (otherTypeInput "wireguard")))) ?_
  rfl

/-- The type `trojan` fits. -/
example : returned ((main 6 60).run (initial (otherTypeInput "trojan"))) = true := by
  decide +kernel

end Convert
