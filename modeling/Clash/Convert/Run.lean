import Clash.Convert.Emission

/-!
# Runs of convert.c

What a run of `main` does with the nodes of its input. `keptNodes` reads the list of proxies
alone and pairs each node that no branch drops with the credentials of its own entry;
`emittedNodes` does so for a whole input. The proxy loop emits these nodes in order, and the
nine lists hold the names emitted so far.

## Main definitions

* `Handed st st' nodes`: between `st` and `st'` the program emitted and grouped exactly `nodes`.
* `groupsOf`: the groups of a row of names.

## Main results

* `handed_of_run_proxyLoop`: a run of the proxy loop, returning or not, hands on the kept nodes
  in order, each with its own credentials.
* `run_main_cases`: what a run of `main` emitted, wherever it ended.
-/

open CProg CString Yaml

namespace Convert

/-! ## What the input holds -/

/-- The nodes that the first `n` iterations of the proxy loop keep, each with the credentials of
its own entry. -/
def keptNodes (fuel : ℕ) : ℕ → Scanner → List (Node × Credentials)
  | 0, _ => []
  | n + 1, parser =>
    match (readEntry fuel).run parser with
    | .ok (.keep node own) parser' => (node, own) :: keptNodes fuel n parser'
    | .ok (.drop _) parser' => keptNodes fuel n parser'
    | _ => []

/-- The nodes that the input's list of proxies holds and `main` keeps. -/
def emittedNodes (fuel : ℕ) (parser : Scanner) : List (Node × Credentials) :=
  match (parserBegin fuel).run parser with
  | .ok _ parser' => keptNodes fuel fuel parser'
  | .error _ _ => []

/-- The names of a row of nodes. -/
def namesOf (nodes : List (Node × Credentials)) : List CString := nodes.map fun n => n.1.name

/-- The members that a list collects from a row of names. -/
def members (names : List CString) (l : GList) : List CString :=
  (names.filter (belongs · l)).reverse

/-- The names of two lists of nodes. -/
theorem namesOf_append (nodes nodes' : List (Node × Credentials)) :
    namesOf (nodes ++ nodes') = namesOf nodes ++ namesOf nodes' :=
  List.map_append

/-- Names that are added later stand in front. -/
theorem members_append (names names' : List CString) (l : GList) :
    members (names ++ names') l = members names' l ++ members names l := by
  rw [members, List.filter_append, List.reverse_append, members, members]

/-- One name is a member where it belongs. -/
theorem members_singleton (s : CString) (l : GList) :
    members [s] l = if belongs s l then [s] else [] := by
  rw [members]
  split <;> simp [*]

/-! ## Single steps -/

/-- What `extractValueWithKey` returns fits its buffer. -/
theorem returns_extractValueWithKey (k : CString) (size : ℕ) :
    Returns (extractValueWithKey k size) (Fits size) := by
  rw [extractValueWithKey]
  refine .bind fun _ => .bind fun v => .bind fun _ => .bind fun _ => .bind fun v => ?_
  intro s v' s' hrun
  rw [run_strcpy] at hrun
  split at hrun
  · cases hrun
    assumption
  · cases hrun

/-- An entry is kept only as a plain node, with credentials that have been copied into buffers. -/
theorem returns_readEntry (fuel : ℕ) :
    Returns (readEntry fuel) fun entry => ∀ node own, entry = .keep node own →
      node.obfs = false ∧ Fits szPort own.port ∧ Fits szCipher own.cipher ∧
        Fits sz own.password := by
  -- a dropped entry is not kept
  have hdrop (why : Drop) : Returns (do skipNode fuel 0; return .drop why : Prog Scanner Entry)
      fun entry => ∀ node own, entry = .keep node own →
        node.obfs = false ∧ Fits szPort own.port ∧ Fits szCipher own.cipher ∧
          Fits sz own.password :=
    .bind fun _ => returns_pure fun node own h => nomatch h
  rw [readEntry]
  refine .bind fun token => .ite (returns_pure fun node own h => nomatch h) ?_
  refine .bind fun _ => .bind fun _ => .bind fun name => .ite (hdrop .cn) ?_
  refine .bind fun type => .ite (hdrop .type) ?_
  refine .bind fun server => .ite (hdrop .ipv6) (.ite (hdrop .loopback) ?_)
  -- the three fields are copied into their buffers
  refine (returns_extractValueWithKey _ _).bind_of fun port hport => ?_
  refine (returns_extractValueWithKey _ _).bind_of fun cipher hcipher => ?_
  refine (returns_extractValueWithKey _ _).bind_of fun password hpassword => ?_
  refine .bind fun _ => .bind fun token => ?_
  split
  · refine returns_pure fun node own h => ?_
    cases h
    exact ⟨rfl, hport, hcipher, hpassword⟩
  · exact hdrop .obfs
  · exact returns_throw _

/-- The comparison with the shared fields returns only if they are then the node's own, and
otherwise stops without a change. -/
theorem run_checkCredentials_cases (own : Credentials) (st : State) :
    (checkCredentials own).run st = .ok () { st with plain := own } ∨
      ∃ e, (checkCredentials own).run st = .error e st := by
  simp only [checkCredentials, EStateM.run_bind, EStateM.run_get]
  split
  -- the fields are unset
  · by_cases hfits : Fits szPort own.port ∧ Fits szCipher own.cipher ∧ Fits sz own.password
    · obtain ⟨hport, hcipher, hpassword⟩ := hfits
      left
      simp [hport, hcipher, hpassword]
    · right
      refine ⟨.undefined, ?_⟩
      by_cases hport : Fits szPort own.port
      · by_cases hcipher : Fits szCipher own.cipher
        · have hpassword : ¬ Fits sz own.password := fun h => hfits ⟨hport, hcipher, h⟩
          simp [run_strcpy, hport, hcipher, hpassword]
        · simp [run_strcpy, hport, hcipher]
      · simp [run_strcpy, hport]
  · split
    · by_cases hown : own = st.plain
      · subst hown
        left
        simp
      · right
        refine ⟨.assertion, ?_⟩
        by_cases hport : own.port = st.plain.port
        · by_cases hcipher : own.cipher = st.plain.cipher
          · have hpassword : own.password ≠ st.plain.password := fun h => hown <| by
              obtain ⟨_, _, _⟩ := own
              simp only at hport hcipher h
              rw [hport, hcipher, h]
            simp [hport, hcipher, hpassword]
          · simp [hport, hcipher]
        · simp [hport]
    · exact .inr ⟨.assertion, rfl⟩

/-- `group` prepends the name to the lists it belongs to. -/
theorem run_group {s : CString} (hs : s ≠ []) (st : State) :
    (group s).run st =
      .ok () { st with lists := fun l => if belongs s l then s :: st.lists l else st.lists l } := by
  simp [group, hs]

/-- Between `st` and `st'` the program emitted and grouped exactly `nodes`. -/
structure Handed (st st' : State) (nodes : List (Node × Credentials)) : Prop where
  events : st'.events = st.events ++ nodesEvents nodes
  lists : ∀ l, st'.lists l = members (namesOf nodes) l ++ st.lists l

/-- Nothing is handed on where events and lists stay. -/
theorem Handed.of_eq {st st' : State} (hevents : st'.events = st.events)
    (hlists : st'.lists = st.lists) : Handed st st' [] where
  events := by rw [hevents, nodesEvents_nil, List.append_nil]
  lists l := by rw [hlists]; rfl

/-- What is handed on in two parts. -/
theorem Handed.trans {st st' st'' : State} {nodes nodes' : List (Node × Credentials)}
    (h : Handed st st' nodes) (h' : Handed st' st'' nodes') :
    Handed st st'' (nodes ++ nodes') where
  events := by rw [h'.events, h.events, nodesEvents_append, List.append_assoc]
  lists l := by rw [h'.lists, h.lists, namesOf_append, members_append, List.append_assoc]

/-- An iteration of the proxy loop that reads no node to keep changes the parser alone. -/
theorem run_proxyBody_of_drop {fuel : ℕ} {st : State} {why : Drop} {parser' : Scanner}
    (h : (readEntry fuel).run st.parser = .ok (.drop why) parser') :
    (proxyBody fuel ()).run st = .ok (.inl ()) { st with parser := parser' } := by
  rw [proxyBody, EStateM.run_bind, onParser, run_zoom_of_ok h]
  rfl

/-- The end of the list ends the loop. -/
theorem run_proxyBody_of_sequenceEnd {fuel : ℕ} {st : State} {parser' : Scanner}
    (h : (readEntry fuel).run st.parser = .ok .sequenceEnd parser') :
    (proxyBody fuel ()).run st = .ok (.inr ()) { st with parser := parser' } := by
  rw [proxyBody, EStateM.run_bind, onParser, run_zoom_of_ok h]
  rfl

/-- Where reading stops, the round stops. -/
theorem run_proxyBody_of_error {fuel : ℕ} {st : State} {e : Stop} {parser' : Scanner}
    (h : (readEntry fuel).run st.parser = .error e parser') :
    (proxyBody fuel ()).run st = .error e { st with parser := parser' } := by
  rw [proxyBody, EStateM.run_bind, onParser, run_zoom_of_error h]

/-- An iteration of the proxy loop that reads a node to keep emits and groups it with the
credentials of its own entry, unless it stops in front of that: at the comparison with the shared
fields, or because the name is empty. -/
theorem run_proxyBody_of_keep {fuel : ℕ} {st : State} {node : Node} {own : Credentials}
    {parser' : Scanner} (h : (readEntry fuel).run st.parser = .ok (.keep node own) parser') :
    (∃ st', (proxyBody fuel ()).run st = .ok (.inl ()) st' ∧ st'.parser = parser' ∧
        Handed st st' [(node, own)]) ∨
      (∃ e, (proxyBody fuel ()).run st = .error e { st with parser := parser' } ∧
        (checkCredentials own).run { st with parser := parser' } =
          .error e { st with parser := parser' }) ∨
      (node.name = [] ∧ (proxyBody fuel ()).run st =
        .error .assertion { st with parser := parser', plain := own }) := by
  have hobfs : node.obfs = false := (returns_readEntry fuel _ _ _ h _ _ rfl).1
  have hrun : (proxyBody fuel ()).run st =
      (do checkCredentials own; group node.name; emitNode node; return .inl ()
        : Prog State (Unit ⊕ Unit)).run { st with parser := parser' } := by
    rw [proxyBody, EStateM.run_bind, onParser, run_zoom_of_ok h]
  rw [hrun, EStateM.run_bind]
  -- the shared fields are compared before anything is handed on
  obtain hcheck | ⟨e, hcheck⟩ := run_checkCredentials_cases own { st with parser := parser' }
  · rw [hcheck]
    -- `group` asserts that the name is not empty
    by_cases hname : node.name = []
    · right
      right
      refine ⟨hname, ?_⟩
      simp [group, hname]
    · left
      simp only [EStateM.run_bind, run_group hname, run_emitNode _ _ hobfs, EStateM.run_pure]
      refine ⟨_, rfl, rfl, ?_, fun l => ?_⟩
      · simp [nodesEvents]
      · simp only [namesOf, List.map_cons, List.map_nil, members_singleton]
        split <;> rfl
  · right
    left
    rw [hcheck]
    exact ⟨e, rfl, rfl⟩

/-! ## The proxy loop -/

/-- A round that keeps a node, -/
theorem keptNodes_succ_of_keep {fuel n : ℕ} {parser parser' : Scanner} {node : Node}
    {own : Credentials} (h : (readEntry fuel).run parser = .ok (.keep node own) parser') :
    keptNodes fuel (n + 1) parser = (node, own) :: keptNodes fuel n parser' := by
  rw [keptNodes, h]

/-- one that drops it, -/
theorem keptNodes_succ_of_drop {fuel n : ℕ} {parser parser' : Scanner} {why : Drop}
    (h : (readEntry fuel).run parser = .ok (.drop why) parser') :
    keptNodes fuel (n + 1) parser = keptNodes fuel n parser' := by
  rw [keptNodes, h]

/-- and the last one. -/
theorem keptNodes_succ_of_sequenceEnd {fuel n : ℕ} {parser parser' : Scanner}
    (h : (readEntry fuel).run parser = .ok .sequenceEnd parser') :
    keptNodes fuel (n + 1) parser = [] := by
  rw [keptNodes, h]

/-- A run of the proxy loop hands on the kept nodes in order, each with the credentials of its
own entry: all of them if it returns, and otherwise those before the one at which it stops. -/
theorem handed_of_run_proxyLoop (fuel n : ℕ) (st : State) :
    (∃ st', (loop (proxyBody fuel) n ()).run st = .ok () st' ∧
        Handed st st' (keptNodes fuel n st.parser)) ∨
      ∃ e st' k, (loop (proxyBody fuel) n ()).run st = .error e st' ∧
        Handed st st' ((keptNodes fuel n st.parser).take k) := by
  -- each round hands on its own node, if it keeps one, in front of those of the rest
  induction n generalizing st with
  | zero => exact .inr ⟨_, st, 0, rfl, .of_eq rfl rfl⟩
  | succ n ih =>
    cases hread : (readEntry fuel).run st.parser with
    | error e parser' =>
      exact .inr ⟨e, _, 0, run_loop_of_error (run_proxyBody_of_error hread), .of_eq rfl rfl⟩
    | ok entry parser' =>
      cases entry with
      | sequenceEnd =>
        refine .inl ⟨_, run_loop_of_done (run_proxyBody_of_sequenceEnd hread), ?_⟩
        rw [keptNodes_succ_of_sequenceEnd hread]
        exact .of_eq rfl rfl
      | drop why =>
        -- the next round begins with the same events and lists
        rw [run_loop_of_next (run_proxyBody_of_drop hread), keptNodes_succ_of_drop hread]
        obtain ⟨st', hrun, hhanded⟩ | ⟨e, st', k, hrun, hhanded⟩ :=
          ih { st with parser := parser' }
        · exact .inl ⟨st', hrun, hhanded.events, hhanded.lists⟩
        · exact .inr ⟨e, st', k, hrun, hhanded.events, hhanded.lists⟩
      | keep node own =>
        rw [keptNodes_succ_of_keep hread]
        -- a round that keeps its node may still stop, and then hands on nothing
        obtain ⟨st₁, hbody, rfl, hnode⟩ | ⟨e, hbody, -⟩ | ⟨-, hbody⟩ := run_proxyBody_of_keep hread
        · rw [run_loop_of_next hbody]
          obtain ⟨st', hrun, hhanded⟩ | ⟨e, st', k, hrun, hhanded⟩ := ih st₁
          · exact .inl ⟨st', hrun, hnode.trans hhanded⟩
          · exact .inr ⟨e, st', k + 1, hrun, hnode.trans hhanded⟩
        · exact .inr ⟨e, _, 0, run_loop_of_error hbody, .of_eq rfl rfl⟩
        · exact .inr ⟨_, _, 0, run_loop_of_error hbody, .of_eq rfl rfl⟩

/-! ## The groups -/

/-- The groups of the output in order: the title and the list. -/
def titles : List (CString × GList) := [
  (utf8 "XX", .xx),
  (utf8 "🏴 🇯🇵 🇰🇷 🇷🇺 🇸🇬 🇹🇼", .asia),
  (utf8 "NON_HK", .nonHk),
  (utf8 "🏴", .hk),
  (utf8 "🇯🇵", .jp),
  (utf8 "🇪🇺 🇬🇧", .eugb),
  (utf8 "🇦🇺 🇨🇦 🇺🇸", .aucaus),
  (utf8 "🇹🇼", .tw),
  (utf8 "🇰🇷", .kr)]

/-- The groups that the program writes for lists with the given members. -/
def groupsFrom (lists : GList → List CString) (ts : List (CString × GList)) :
    List (CString × List CString) :=
  (ts.map fun t => (t.1, lists t.2)).filter (·.2 ≠ [])

/-- The groups of a row of names. -/
def groupsOf (names : List CString) : List (CString × List CString) :=
  groupsFrom (members names) titles

/-- Emitting the groups of a row of lists writes the lists that are not empty, and empties all
of them. -/
theorem run_forM_emitAndDestroyGroup (ts : List (CString × GList))
    (hts : (ts.map Prod.snd).Nodup) (st : State) :
    (ts.forM fun t => emitAndDestroyGroup t.1 t.2).run st =
      .ok () { st with
        events := st.events ++ groupsEvents (groupsFrom st.lists ts)
        lists := fun l => if l ∈ ts.map Prod.snd then [] else st.lists l } := by
  induction ts generalizing st with
  | nil => simp [groupsFrom, groupsEvents]
  | cons t ts ih =>
    obtain ⟨title, l⟩ := t
    obtain ⟨hl, hts⟩ : l ∉ ts.map Prod.snd ∧ (ts.map Prod.snd).Nodup := by
      rwa [List.map_cons, List.nodup_cons] at hts
    have hmem (l' : GList) : l' ∈ ((title, l) :: ts).map Prod.snd ↔
        l' = l ∨ l' ∈ ts.map Prod.snd := by
      rw [List.map_cons, List.mem_cons]
    show (emitAndDestroyGroup title l >>= fun _ =>
      ts.forM fun t => emitAndDestroyGroup t.1 t.2).run st = _
    rw [EStateM.run_bind]
    simp only [hmem]
    by_cases hempty : st.lists l = []
    · -- an empty list is not written, and is empty behind it
      rw [run_emitAndDestroyGroup_of_nil st hempty]
      simp only [ih hts]
      congr 2
      · simp [groupsFrom, hempty]
      · ext l' : 1
        by_cases hl' : l' = l
        · rw [hl', if_neg hl, hempty, if_pos (.inl rfl)]
        · simp only [hl', false_or]
    · rw [run_emitAndDestroyGroup_of_ne_nil st hempty]
      simp only [ih hts]
      -- the lists that follow are other ones, so they are still as they were
      have hlists : groupsFrom (Function.update st.lists l []) ts = groupsFrom st.lists ts := by
        rw [groupsFrom, groupsFrom]
        congr 1
        refine List.map_congr_left fun t ht => ?_
        have hne : t.2 ≠ l := fun h => hl (List.mem_map.mpr ⟨t, ht, h⟩)
        rw [Function.update_of_ne hne]
      congr 2
      · rw [hlists]
        simp [groupsFrom, groupsEvents, hempty]
      · ext l' : 1
        by_cases hl' : l' = l
        · rw [hl', if_neg hl, Function.update_self, if_pos (.inl rfl)]
        · rw [Function.update_of_ne hl']
          simp only [hl', false_or]

section Titles

variable (st : State)

private theorem run_title_asia : (Flag.title 6 [.cc 'H' 'K', .cc 'J' 'P', .cc 'K' 'R',
    .cc 'R' 'U', .cc 'S' 'G', .cc 'T' 'W']).run st = .ok (utf8 "🏴 🇯🇵 🇰🇷 🇷🇺 🇸🇬 🇹🇼") st :=
  Flag.run_title (by decide +kernel) st

private theorem run_title_hk : (Flag.title 6 [.cc 'H' 'K']).run st = .ok (utf8 "🏴") st :=
  Flag.run_title (by decide +kernel) st

private theorem run_title_jp : (Flag.title 6 [.cc 'J' 'P']).run st = .ok (utf8 "🇯🇵") st :=
  Flag.run_title (by decide +kernel) st

private theorem run_title_eugb :
    (Flag.title 6 [.cc 'E' 'U', .cc 'G' 'B']).run st = .ok (utf8 "🇪🇺 🇬🇧") st :=
  Flag.run_title (by decide +kernel) st

private theorem run_title_aucaus : (Flag.title 6 [.cc 'A' 'U', .cc 'C' 'A', .cc 'U' 'S']).run st =
    .ok (utf8 "🇦🇺 🇨🇦 🇺🇸") st :=
  Flag.run_title (by decide +kernel) st

private theorem run_title_tw : (Flag.title 6 [.cc 'T' 'W']).run st = .ok (utf8 "🇹🇼") st :=
  Flag.run_title (by decide +kernel) st

private theorem run_title_kr : (Flag.title 6 [.cc 'K' 'R']).run st = .ok (utf8 "🇰🇷") st :=
  Flag.run_title (by decide +kernel) st

end Titles

/-- The titles fit their buffer, and are the ones of `titles`. -/
theorem run_emitGroups (st : State) :
    (emitGroups 6).run st =
      .ok () { st with
        events := st.events ++ groupsEvents (groupsFrom st.lists titles)
        lists := fun _ => [] } := by
  -- the calls with their titles are the row of `titles`
  have hforM : (emitGroups 6).run st =
      (titles.forM fun t => emitAndDestroyGroup t.1 t.2).run st := by
    have hcons (t t' : CString × GList) (ts : List (CString × GList)) :
        ((t :: t' :: ts).forM fun t => emitAndDestroyGroup t.1 t.2) =
          emitAndDestroyGroup t.1 t.2 >>= fun _ =>
            (t' :: ts).forM fun t => emitAndDestroyGroup t.1 t.2 := rfl
    have hlast (t : CString × GList) :
        ([t].forM fun t => emitAndDestroyGroup t.1 t.2) = emitAndDestroyGroup t.1 t.2 :=
      bind_pure _
    simp only [emitGroups, titles, hcons, hlast, EStateM.run_bind, run_title_asia, run_title_hk,
      run_title_jp, run_title_eugb, run_title_aucaus, run_title_tw, run_title_kr]
  rw [hforM, run_forM_emitAndDestroyGroup titles (by decide)]
  congr 2
  ext l : 1
  have hl : l ∈ titles.map Prod.snd := by
    cases l <;> decide
  rw [if_pos hl]

/-! ## Whole runs -/

/-- The events between the header and the first node. -/
def proxiesEvents : List Event := [.scalar (utf8 "proxies"), .sequenceStart]

/-- The events between the last node and the first group. -/
def groupsStartEvents : List Event :=
  [.sequenceEnd, .scalar (utf8 "proxy-groups"), .sequenceStart]

/-- If the input has no list of proxies that the parser accepts, the run ends behind the header. -/
theorem run_main_of_parserBegin_error {mbCurMax fuel : ℕ} {parser parser' : Scanner} {e : Stop}
    (h : (parserBegin fuel).run parser = .error e parser') :
    (main mbCurMax fuel).run (initial parser) =
      .error e { initial parser' with events := headerEvents } := by
  rw [main, EStateM.run_bind, run_emitterBegin]
  simp only [EStateM.run_bind]
  rw [onParser, run_zoom_of_error (e := e) (t := parser') h]
  rfl

/-- What a run of `main` emitted, by the place where it ended: in front of the list of proxies,
in the proxy loop, at the check of the locale, or at its end. -/
theorem run_main_cases (mbCurMax fuel : ℕ) (parser : Scanner) :
    (∃ e st, (main mbCurMax fuel).run (initial parser) = .error e st ∧
        st.events = headerEvents) ∨
      (∃ e st k, (main mbCurMax fuel).run (initial parser) = .error e st ∧
        st.events = headerEvents ++ proxiesEvents ++
          nodesEvents ((emittedNodes fuel parser).take k)) ∨
      (mbCurMax ≠ 6 ∧ ∃ e st, (main mbCurMax fuel).run (initial parser) = .error e st ∧
        st.events = headerEvents ++ proxiesEvents ++ nodesEvents (emittedNodes fuel parser) ++
          groupsStartEvents) ∨
      (mbCurMax = 6 ∧ ∃ st, (main mbCurMax fuel).run (initial parser) = .ok () st ∧
        st.events = (configContent (emittedNodes fuel parser)
          (groupsOf (namesOf (emittedNodes fuel parser)))).document ∧
        ∀ l, st.lists l = []) := by
  cases hbegin : (parserBegin fuel).run parser with
  | error e parser' =>
    exact .inl ⟨e, _, run_main_of_parserBegin_error hbegin, rfl⟩
  | ok _ parser' =>
    right
    have hnodes : emittedNodes fuel parser = keptNodes fuel fuel parser' := by
      rw [emittedNodes, hbegin]
    -- what is left to do behind `parser_begin`
    let st₁ : State := { initial parser' with events := headerEvents ++ proxiesEvents }
    have hrun : (main mbCurMax fuel).run (initial parser) = (do
        proxyLoop fuel
        emit .sequenceEnd
        emit (.scalar (utf8 "proxy-groups"))
        emit .sequenceStart
        assert (mbCurMax = 6)
        emitGroups mbCurMax
        emit .sequenceEnd
        emitterEnd : Prog State Unit).run st₁ := by
      rw [main, EStateM.run_bind, run_emitterBegin]
      simp only [EStateM.run_bind]
      rw [onParser, run_zoom_of_ok (a := ()) (t := parser') hbegin]
      simp only [run_emit, initial, List.nil_append, List.append_assoc, List.cons_append, st₁,
        proxiesEvents]
    rw [hnodes, hrun, EStateM.run_bind, proxyLoop]
    obtain ⟨st₂, hloop, hhanded⟩ | ⟨e, st₂, k, hloop, hhanded⟩ :=
      handed_of_run_proxyLoop fuel fuel st₁
    · right
      rw [hloop]
      simp only [EStateM.run_bind, run_emit]
      by_cases hlocale : mbCurMax = 6
      · right
        subst hlocale
        simp only [run_assert_of_true, run_emitGroups, run_emitterEnd]
        refine ⟨trivial, _, rfl, ?_, fun l => rfl⟩
        -- the lists were empty before the loop, so they hold its nodes only
        have hlists : st₂.lists =
            members (namesOf (keptNodes fuel fuel parser')) := by
          ext l : 1
          rw [hhanded.lists]
          exact List.append_nil _
        simp only [hlists, hhanded.events, document_configContent, groupsOf, st₁, proxiesEvents,
          initial, List.append_assoc, List.cons_append, List.nil_append]
      · left
        simp only [run_assert_of_false hlocale]
        refine ⟨hlocale, _, _, rfl, ?_⟩
        simp only [hhanded.events, st₁, initial, groupsStartEvents, List.append_assoc,
          List.cons_append, List.nil_append]
    · left
      rw [hloop]
      exact ⟨e, st₂, k, rfl, hhanded.events⟩

end Convert
