import Clash.Lib.FileSystem
import Clash.Profile.Json

/-!
# The file for ss-local

`main` removes `SS_LOCAL_JSON` before `profile_to_json` writes the password of the server to it. The
assertion behind a failed `unlink` assigns to `errno` instead of comparing it.

## Main definitions

* `unlinkNofail`, `profileToJson`: the functions, on a file system.
* `writeProfile`: the two calls of `main`.
* `Safe`: what `main` relies on.

## Main results

* `run_unlinkNofail`: `unlink_nofail` returns whatever `unlink` answers.
* `safe_iff`: `main` is safe exactly if `unlink` succeeds or has nothing to remove.
-/

open CProg CString FileSystem ProfileJson

namespace SsLocal

/-- `SS_LOCAL_JSON`. -/
def ssLocalJson : CString := utf8 "/tmp/ss-local.json"

/-- The file system, and the static variables. -/
structure World where
  fs : Fs CString
  errno : ℕ
  profile : ProfileT

variable (o : Outcomes CString)

/-! ## unlink_nofail -/

/-- `unlink(2)`. -/
def unlink (f : CString) : Prog World ℤ := do
  match o.unlink (← get).fs f with
  | some e =>
    modify fun w => { w with errno := e }
    return -1
  | none =>
    modify fun w => { w with fs := w.fs.remove f }
    return 0

/-- `unlink_nofail(f)`. -/
def unlinkNofail (f : CString) : Prog World Unit := do
  let i ← unlink o f
  if i = -1 then
    -- `assert(errno=ENOENT)`
    modify fun w => { w with errno := enoent }
    assert ((← get).errno ≠ 0)
  else assert (i = 0)

/-! ## profile_to_json -/

/-- A file that the program creates. -/
def createdFile : Inode CString where
  owner := 1000
  mode := 0o644
  kind := .regular
  content := []

/-- `json_object_to_file_ext(SS_LOCAL_JSON,root,…)`, for the text of the object. -/
def jsonObjectToFileExt (text : CString) : Prog World ℤ := do
  let w ← get
  match w.fs.openWrite o createdFile true ssLocalJson with
  | .error e =>
    set { w with errno := e }
    return -1
  | .ok (fd, fs) =>
    set { w with fs := fs.append o fd text }
    return if o.accepts fs fd text < text.length then -1 else 0

/-- `fopen(SS_LOCAL_JSON,"a")`. -/
def fopen : Prog World (Option ℕ) := do
  let w ← get
  match w.fs.openWrite o createdFile false ssLocalJson with
  | .error e =>
    set { w with errno := e }
    return none
  | .ok (f, fs) =>
    set { w with fs }
    return some f

/-- `fprintf`, for the formatted text. What it returns is not looked at. -/
def fprintf (f : ℕ) (s : CString) : Prog World Unit :=
  modify fun w => { w with fs := w.fs.append o f s }

/-- The end of `profile_to_json`: the text of the object is written, and the title behind it. -/
def writeObject (text : CString) (serverTitle : Option CString) : Prog World Unit := do
  assert ((← jsonObjectToFileExt o text) = 0)
  match ← fopen o with
  | none => throw .assertion
  | some f =>
    fprintf o f (utf8 "\n")
    match serverTitle with
    | none => pure ()
    | some serverTitle =>
      assert (serverTitle ≠ [])
      fprintf o f (utf8 "// " ++ serverTitle ++ utf8 "\n")

/-- `profile_to_json(server_title)`. -/
def profileToJson (text : JsonObject → CString) (serverTitle : Option CString) :
    Prog World Unit := do
  let root ← zoom (fun w => ⟨w.profile, none⟩) (fun s w => { w with profile := s.profile }) jsonRoot
  writeObject o (text root) serverTitle

/-- The two calls of `main`. -/
def writeProfile (text : JsonObject → CString) (serverTitle : Option CString) :
    Prog World Unit := do
  unlinkNofail o ssLocalJson
  profileToJson o text serverTitle

variable {o} {w w' : World} {f : CString}

/-- `unlink_nofail` returns whatever `unlink` answers. -/
theorem run_unlinkNofail :
    (unlinkNofail o f).run w =
      .ok () (if o.unlink w.fs f = none then { w with fs := w.fs.remove f }
        else { w with errno := enoent }) := by
  rw [unlinkNofail, EStateM.run_bind, unlink, EStateM.run_bind, EStateM.run_get]
  dsimp only
  rcases hunlink : o.unlink w.fs f with _ | e
  · rw [if_pos rfl]
    rfl
  · rw [if_neg nofun]
    rfl

/-! ## Files that were there before -/

section OnlyNew

variable {fs₀ : Fs CString} {text : JsonObject → CString} {title : Option CString} {i : ℕ}

/-- The files of an earlier state are as they were, and `SS_LOCAL_JSON` is none of them. -/
def New (fs₀ : Fs CString) (w : World) : Prop := OnlyNew fs₀ ssLocalJson w.fs

/-- `SS_LOCAL_JSON` is a file that has been created since. -/
def Created (fs₀ : Fs CString) (i : ℕ) (w : World) : Prop :=
  New fs₀ w ∧ fs₀.inodes.length ≤ i ∧ w.fs.names ssLocalJson = some i

theorem triple_jsonObjectToFileExt (bs : CString) :
    Keeps (New fs₀) (New fs₀) (jsonObjectToFileExt o bs) := by
  intro w hw
  rw [jsonObjectToFileExt, EStateM.run_bind, EStateM.run_get]
  dsimp only
  rcases hopen : w.fs.openWrite o createdFile true ssLocalJson with e | ⟨fd, fs⟩
  · exact hw
  · obtain ⟨hnew, hfd, -⟩ := OnlyNew.openWrite hw rfl hopen
    exact hnew.append hfd bs

theorem triple_fopen : Triple (New fs₀) (fopen o)
    (fun r w => match r with
      | none => New fs₀ w
      | some i => Created fs₀ i w) (New fs₀) := by
  intro w hw
  rw [fopen, EStateM.run_bind, EStateM.run_get]
  dsimp only
  rcases hopen : w.fs.openWrite o createdFile false ssLocalJson with e | ⟨f, fs⟩
  · exact hw
  · exact OnlyNew.openWrite hw rfl hopen

theorem keeps_fprintf (bs : CString) :
    Keeps (Created fs₀ i) (New fs₀) (fprintf o i bs) := by
  apply keeps_modify
  rintro w ⟨hnew, hi, hname⟩
  exact ⟨hnew.append hi bs, hi, hname⟩

variable (o text title) in
/-- From a state without the file, `profile_to_json` writes to a file that it has created. -/
theorem triple_profileToJson :
    Triple (New fs₀) (profileToJson o text title) (fun _ w => ∃ i, Created fs₀ i w) (New fs₀) := by
  have hroot : Keeps (New fs₀) (New fs₀) (zoom (fun w : World => ⟨w.profile, none⟩)
      (fun s w => { w with profile := s.profile }) jsonRoot) := by
    refine keeps_zoom (fun _ h => h) ?_ jsonRoot
    -- the object is built without the file system
    exact fun _ _ h => h
  refine Triple.bind hroot fun root => ?_
  rw [writeObject]
  refine Triple.bind (triple_jsonObjectToFileExt (text root)) fun r => ?_
  refine Triple.bind (keeps_assert (fun _ h => h) (r = 0)) fun _ => ?_
  refine Triple.bind triple_fopen fun f => ?_
  rcases f with _ | i
  · exact fun w hw => hw
  refine Triple.bind (keeps_fprintf _) fun _ => ?_
  rcases title with _ | serverTitle
  · exact fun w hw => ⟨i, hw⟩
  refine Triple.bind (keeps_assert (fun _ h => h.1) (serverTitle ≠ [])) fun _ => ?_
  intro w hw
  exact ⟨i, keeps_fprintf _ w hw⟩

end OnlyNew

/-! ## What the file contains -/

section Contents

variable {text : JsonObject → CString} {title : Option CString} {i : ℕ} {bytes : CString}

theorem run_fprintf (haccepts : ∀ fs i (bs : CString), bs.length ≤ o.accepts fs i bs)
    (h : Contains w.fs ssLocalJson i bytes) (bs : CString) :
    ∃ w', (fprintf o i bs).run w = .ok () w' ∧ Contains w'.fs ssLocalJson i (bytes ++ bs) :=
  ⟨_, rfl, h.append (haccepts _ _ _)⟩

variable (text title) in
/-- Behind the object, `profile_to_json` is what writes it. -/
theorem run_profileToJson_of_root {root : JsonObject} {s : State}
    (hroot : jsonRoot.run ⟨w.profile, none⟩ = .ok root s) :
    (profileToJson o text title).run w =
      (writeObject o (text root) title).run { w with profile := s.profile } := by
  have hzoom : (zoom (fun w : World => (⟨w.profile, none⟩ : State))
      (fun s w => { w with profile := s.profile }) jsonRoot).run w =
        .ok root { w with profile := s.profile } := run_zoom_of_ok hroot
  rw [profileToJson, EStateM.run_bind, hzoom]

/-- What stands behind the object. -/
def comment : Option CString → CString
  | none => utf8 "\n"
  | some serverTitle => utf8 "\n" ++ (utf8 "// " ++ serverTitle ++ utf8 "\n")

section Succeeds

variable (hregular : ∀ n, w.fs.lookup ssLocalJson = some n → n.kind = .regular)
  (hopens : ∀ truncates fs, o.openWrite truncates fs ssLocalJson = none)
  (haccepts : ∀ fs i (bs : CString), bs.length ≤ o.accepts fs i bs)

include hregular hopens haccepts

/-- Where all calls of the system succeed, the file contains the object and the title, and a file
that was there before is still the same one. -/
theorem run_writeObject (htitle : title ≠ some []) (bs : CString) :
    ∃ w' i, (writeObject o bs title).run w = .ok () w' ∧
      Contains w'.fs ssLocalJson i (bs ++ comment title) ∧
      ∀ j, w.fs.names ssLocalJson = some j → j = i := by
  obtain ⟨i, fs, hopen, hempty, hsame⟩ :=
    openWrite_of_regular hregular (hopens true w.fs) (n := createdFile) ⟨rfl, rfl⟩
  have hcontains : Contains (fs.append o i bs) ssLocalJson i bs := hempty.append (haccepts _ _ _)
  -- the object goes into the file as a whole
  have hobject : (jsonObjectToFileExt o bs).run w = .ok 0 { w with fs := fs.append o i bs } := by
    rw [jsonObjectToFileExt, EStateM.run_bind, EStateM.run_get]
    dsimp only
    rw [hopen]
    show EStateM.run (pure (if o.accepts fs i bs < bs.length then (-1 : ℤ) else 0)) _ = _
    rw [if_neg (Nat.not_lt.mpr (haccepts _ _ _))]
    rfl
  -- the file is opened once more, to append to it
  have hfopen : (fopen o).run { w with fs := fs.append o i bs } =
      .ok (some i) { w with fs := fs.append o i bs } := by
    rw [fopen, EStateM.run_bind, EStateM.run_get]
    dsimp only
    rw [hcontains.openWrite (hopens _ _)]
    rfl
  obtain ⟨w₁, hnewline, hcontains₁⟩ :=
    run_fprintf (w := { w with fs := fs.append o i bs }) haccepts hcontains (utf8 "\n")
  rw [writeObject, EStateM.run_bind, hobject]
  dsimp only
  rw [EStateM.run_bind, run_assert_of_true rfl]
  dsimp only
  rw [EStateM.run_bind, hfopen]
  dsimp only
  rw [EStateM.run_bind, hnewline]
  -- the comment is for a title only
  rcases title with _ | serverTitle
  · exact ⟨w₁, i, rfl, hcontains₁, hsame⟩
  · have hne : serverTitle ≠ [] := fun h => htitle (congrArg some h)
    obtain ⟨w₂, hline, hcontains₂⟩ :=
      run_fprintf haccepts hcontains₁ (utf8 "// " ++ serverTitle ++ utf8 "\n")
    rw [List.append_assoc] at hcontains₂
    dsimp only
    rw [EStateM.run_bind, run_assert_of_true hne]
    exact ⟨w₂, i, hline, hcontains₂, hsame⟩

/-- The file is then the one of `ProfileJson.profileToJson`. -/
theorem run_profileToJson_of_json {s' : State}
    (hrun : (ProfileJson.profileToJson ⟨text, true, true⟩ title).run ⟨w.profile, none⟩ =
      .ok () s') :
    ∃ w' i bytes, (profileToJson o text title).run w = .ok () w' ∧ s'.file = some bytes ∧
      Contains w'.fs ssLocalJson i bytes ∧ ∀ j, w.fs.names ssLocalJson = some j → j = i := by
  unfold ProfileJson.profileToJson at hrun
  obtain ⟨root, s₁, hroot, hrun⟩ := run_bind_eq_ok.mp hrun
  -- what the run on the one file has asserted, and what it has written
  obtain ⟨htitle, hfile⟩ : title ≠ some [] ∧ s'.file = some (text root ++ comment title) := by
    obtain ⟨_, s₂, hcreates, hrun⟩ := run_bind_eq_ok.mp hrun
    cases hcreates
    obtain ⟨_, s₃, hobject, hrun⟩ := run_bind_eq_ok.mp hrun
    cases hobject
    obtain ⟨_, s₄, hopens, hrun⟩ := run_bind_eq_ok.mp hrun
    cases hopens
    obtain ⟨_, s₅, hnewline, hrun⟩ := run_bind_eq_ok.mp hrun
    cases hnewline
    rcases title with _ | serverTitle
    · cases hrun
      exact ⟨nofun, rfl⟩
    · obtain ⟨_, s₆, htitle, hrun⟩ := run_bind_eq_ok.mp hrun
      obtain ⟨hne, rfl⟩ := run_assert_eq_ok.mp htitle
      cases hrun
      refine ⟨fun h => hne (Option.some.inj h), ?_⟩
      simp only [Option.map_some, comment, List.append_assoc]
  obtain ⟨w', i, hwrite, hcontains, hsame⟩ :=
    run_writeObject (w := { w with profile := s₁.profile }) hregular hopens haccepts htitle
      (text root)
  refine ⟨w', i, _, ?_, hfile, hcontains, hsame⟩
  rw [run_profileToJson_of_root text title hroot]
  exact hwrite

/-- A file that `unlink` has not removed is the one that the password is written to. -/
theorem run_writeProfile_of_survives {s' : State} {e j : ℕ}
    (hunlink : o.unlink w.fs ssLocalJson = some e) (hname : w.fs.names ssLocalJson = some j)
    (hrun : (ProfileJson.profileToJson ⟨text, true, true⟩ title).run ⟨w.profile, none⟩ =
      .ok () s') :
    ∃ w' bytes, (writeProfile o text title).run w = .ok () w' ∧ s'.file = some bytes ∧
      Contains w'.fs ssLocalJson j bytes := by
  have hnofail : (unlinkNofail o ssLocalJson).run w = .ok () { w with errno := enoent } := by
    rw [run_unlinkNofail, hunlink, if_neg nofun]
  obtain ⟨w', i, bytes, hjson, hfile, hcontains, hsame⟩ :=
    run_profileToJson_of_json (w := { w with errno := enoent }) hregular hopens haccepts hrun
  obtain rfl := hsame j hname
  refine ⟨w', bytes, ?_, hfile, hcontains⟩
  rw [writeProfile, EStateM.run_bind, hnofail]
  exact hjson

end Succeeds

end Contents

/-! ## What main relies on -/

/-- What `main` relies on when it writes the file, from a state of the file system. -/
structure Safe (o : Outcomes CString) (text : JsonObject → CString) (title : Option CString)
    (w : World) : Prop where
  /-- When `unlink_nofail` returns, there is no file. -/
  gone : ∀ w', (unlinkNofail o ssLocalJson).run w = .ok () w' → w'.fs.names ssLocalJson = none
  /-- Then `profile_to_json` creates one. -/
  created : ∀ w', (writeProfile o text title).run w = .ok () w' →
    ∃ i, w'.fs.names ssLocalJson = some i ∧ w.fs.inodes.length ≤ i
  /-- Nothing is written to a file that was there before, whether the calls return or not. -/
  untouched : Untouched w.fs (final ((writeProfile o text title).run w)).fs
  /-- Every other error stops the program. -/
  stops : ∀ e, o.unlink w.fs ssLocalJson = some e → e ≠ enoent →
    ∃ w', (unlinkNofail o ssLocalJson).run w = .error .assertion w'

/-- If `unlink` succeeds or has nothing to remove, there is no file behind `unlink_nofail`. -/
theorem new_of_unlink
    (h : o.unlink w.fs ssLocalJson = none ∨ o.unlink w.fs ssLocalJson = some enoent) :
    ∃ w', (unlinkNofail o ssLocalJson).run w = .ok () w' ∧ w'.fs.names ssLocalJson = none ∧
      New w.fs w' := by
  rcases h with hunlink | hunlink
  · have hname := w.fs.names_remove ssLocalJson
    refine ⟨{ w with fs := w.fs.remove ssLocalJson }, ?_, hname, ?_⟩
    · rw [run_unlinkNofail, if_pos hunlink]
    · exact onlyNew_of_free (.refl _) hname
  · have hname : w.fs.names ssLocalJson = none := o.unlink_enoent _ _ hunlink
    refine ⟨{ w with errno := enoent }, ?_, hname, ?_⟩
    · rw [run_unlinkNofail, hunlink, if_neg nofun]
    · exact onlyNew_of_free (.refl _) hname

/-- For every state of the file system, and whatever the system answers to the calls, `main` is safe
exactly if `unlink` succeeds or has nothing to remove. -/
theorem safe_iff (o : Outcomes CString) (text : JsonObject → CString) (title : Option CString)
    (w : World) :
    Safe o text title w ↔
      o.unlink w.fs ssLocalJson = none ∨ o.unlink w.fs ssLocalJson = some enoent := by
  constructor
  · intro h
    rcases hunlink : o.unlink w.fs ssLocalJson with _ | e
    · exact .inl rfl
    · by_contra hnot
      have he : e ≠ enoent := by
        rintro rfl
        exact hnot (.inr rfl)
      -- the assertion is passed whatever the error
      obtain ⟨w', hstop⟩ := h.stops e hunlink he
      rw [run_unlinkNofail] at hstop
      cases hstop
  · intro hunlink
    obtain ⟨w₁, hrun, hname, hnew⟩ := new_of_unlink hunlink
    have hwrite : (writeProfile o text title).run w = (profileToJson o text title).run w₁ := by
      rw [writeProfile, EStateM.run_bind, hrun]
    have hpost := triple_profileToJson o text title w₁ hnew
    refine ⟨?_, ?_, ?_, ?_⟩
    · intro w' hw'
      rw [hrun] at hw'
      cases hw'
      exact hname
    · intro w' hw'
      rw [hwrite] at hw'
      rw [hw'] at hpost
      obtain ⟨i, -, hi, hname'⟩ := hpost
      exact ⟨i, hname', hi⟩
    · rw [hwrite]
      rcases hresult : (profileToJson o text title).run w₁ with ⟨u, w'⟩ | ⟨e, w'⟩
      · rw [hresult] at hpost
        obtain ⟨i, hnew', -⟩ := hpost
        exact hnew'.untouched
      · rw [hresult] at hpost
        exact hpost.untouched
    · intro e he hne
      rcases hunlink with hnone | henoent
      · rw [hnone] at he
        cases he
      · rw [henoent] at he
        exact absurd (Option.some.inj he).symm hne

/-! ## A file of another user -/

/-- A directory in which everybody may create files, and only the owner of a file may remove it. The
program runs as user 1000. -/
def stickyDirectory : Outcomes CString where
  unlink fs p :=
    match fs.lookup p with
    | none => some enoent
    | some { kind := .directory, .. } => some eisdir
    | some n => if n.owner = 1000 then none else some eperm
  unlink_enoent fs p h := by
    rcases hp : fs.names p with _ | i
    · rfl
    · have hi := List.getElem?_eq_getElem (fs.names_lt p i hp)
      rw [lookup_of_names hp, hi] at h
      split at h
      · contradiction
      · cases h
      · split at h <;> cases h
  openWrite _ fs p :=
    match fs.lookup p with
    | none => none
    -- the owner may write, and others if the mode says so
    | some n => if n.owner = 1000 ∨ n.mode % 4 / 2 = 1 then none else some eacces
  accepts _ _ bs := bs.length

/-- The text that json-c writes for an object with strings that need no escapes. -/
def prettyText (root : JsonObject) : CString :=
  utf8 "\x7b\n" ++
    ((root.map fun e => utf8 "  \"" ++ e.1 ++ utf8 "\": \"" ++ e.2 ++ utf8 "\"").intersperse
      (utf8 ",\n")).flatten ++ utf8 "\n\x7d"

/-- Another user has created the file, and lets everybody write to it. -/
def foreignFile : World where
  fs :=
    { inodes := [{ owner := 1001, mode := 0o666, kind := .regular, content := utf8 "bait" }]
      names := fun p => if p = ssLocalJson then some 0 else none
      names_lt := by
        intro p i h
        split at h
        · cases h
          exact Nat.one_pos
        · cases h }
  errno := 0
  profile :=
    .loaded (utf8 "203.0.113.7") (utf8 "aes-256-gcm") (utf8 "hunter2") 8443

/-- The object for the profile. -/
def sampleRoot : JsonObject :=
  jsonOf (utf8 "203.0.113.7") (utf8 "aes-256-gcm") (utf8 "hunter2") 8443

/-- `unlink` fails with `EPERM`, and the program goes on. -/
theorem run_writeProfile_foreignFile :
    (writeProfile stickyDirectory prettyText (some (utf8 "hk"))).run foreignFile =
      (writeObject stickyDirectory (prettyText sampleRoot) (some (utf8 "hk"))).run
        { foreignFile with errno := enoent } := by
  have hroot : jsonRoot.run ⟨({ foreignFile with errno := enoent } : World).profile, none⟩ =
      .ok sampleRoot ⟨foreignFile.profile, none⟩ :=
    run_jsonRoot none (by decide +kernel) (by decide +kernel) (by decide +kernel) (by decide)
      (by decide +kernel)
  rw [writeProfile, EStateM.run_bind, run_unlinkNofail, if_neg (by decide)]
  dsimp only
  rw [run_profileToJson_of_root prettyText (some (utf8 "hk")) hroot]

/-- The password is written to the file of the other user. -/
theorem not_safe_foreignFile :
    (∃ w, (writeProfile stickyDirectory prettyText (some (utf8 "hk"))).run foreignFile = .ok () w ∧
      ∃ n ∈ w.fs.lookup ssLocalJson, n.owner = 1001 ∧
        utf8 "\"password\": \"hunter2\"" <:+: n.content) ∧
    ¬ Safe stickyDirectory prettyText (some (utf8 "hk")) foreignFile := by
  constructor
  · rw [run_writeProfile_foreignFile]
    have hreturned : returned ((writeObject stickyDirectory (prettyText sampleRoot)
        (some (utf8 "hk"))).run { foreignFile with errno := enoent }) = true := by
      decide +kernel
    refine ⟨_, eq_ok_of_returned hreturned, ?_⟩
    decide +kernel
  · intro hsafe
    have hgone := hsafe.gone _ run_unlinkNofail
    exact absurd hgone (by decide)

end SsLocal
