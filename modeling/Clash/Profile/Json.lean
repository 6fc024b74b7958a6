import Clash.Lib.ProgramLogic
import Clash.Lib.Regex

/-!
# profile.c

The profile of ss: whether it is loaded, and its copy in a file for `ss-local`.

The text that json-c writes for an object, and whether the file can be written, are parameters.

## Main definitions

* `ProfileT`: the struct, and `ProfileT.static`, the value that it starts with.
* `profileLoaded`, `matchString`, `appendjson`, `profileToJson`: the functions.
* `jsonRoot`: the part of `profileToJson` that builds the object.

## Main results

* `run_profileLoaded`: a profile with the constants in place is loaded if its fields are filled, and
  fails an assertion if some of them are empty.
* `run_matchString`: `match` returns on the strings that its expression matches as a whole.
-/

open CProg CString Regex

namespace ProfileJson

/-- `profile_t`. -/
structure ProfileT where
  remoteHost : Option CString
  localAddr : Option CString
  method : Option CString
  password : Option CString
  remotePort : ℤ
  localPort : ℤ
  timeout : ℤ
  acl : Option CString
  log : Option CString
  fastOpen : ℤ
  mode : ℤ
  mtu : ℤ
  mptcp : ℤ
  verbose : ℤ
  deriving DecidableEq

/-- `LOCAL_ADDR`. -/
def localAddr : CString := utf8 "0.0.0.0"

/-- `LOCAL_PORT_I`. -/
def localPortI : ℤ := 1080

/-- `LOCAL_PORT_S`. -/
def localPortS : CString := utf8 "1080"

/-- `TIMEOUT`. -/
def timeout : ℤ := 7

/-- `SS_LOG`. -/
def ssLog : CString := utf8 "/tmp/ss-local.log"

/-- `profile` at the start of the program. -/
def ProfileT.static : ProfileT where
  remoteHost := none
  localAddr := some ProfileJson.localAddr
  method := none
  password := none
  remotePort := 0
  localPort := localPortI
  timeout := ProfileJson.timeout
  acl := none
  log := some ssLog
  fastOpen := 1
  mode := 1
  mtu := 0
  mptcp := 0
  verbose := 1

/-- `profile`, and the file `SS_LOCAL_JSON` if there is one. -/
structure State where
  profile : ProfileT
  file : Option CString
  deriving DecidableEq

/-- An object of json-c with strings as values. -/
abbrev JsonObject := List (CString × CString)

/-- What the program finds outside. -/
structure Env where
  /-- The text that `json_object_to_file_ext` writes for an object. -/
  text : JsonObject → CString
  /-- The file can be created. -/
  creates : Bool
  /-- The file can be opened again. -/
  opens : Bool

/-! ## profile_loaded -/

/-- The fields that no function sets have the values of `ProfileT.static`. -/
def Untouched (p : ProfileT) : Prop :=
  p.timeout = timeout ∧ p.acl = none ∧ p.mtu = 0 ∧ p.mptcp = 0 ∧ p.localAddr = some localAddr ∧
    p.localPort = localPortI ∧ p.log = some ssLog ∧ p.fastOpen = 1 ∧ p.mode = 1 ∧ p.verbose = 1

instance (p : ProfileT) : Decidable (Untouched p) :=
  inferInstanceAs (Decidable (_ ∧ _ ∧ _ ∧ _ ∧ _ ∧ _ ∧ _ ∧ _ ∧ _ ∧ _))

/-- `profile_loaded`. -/
def profileLoaded : Prog State Bool := do
  let p := (← get).profile
  assert (Untouched p)
  match p.remoteHost with
  | some remoteHost =>
    -- all fields are set
    assert (p.method ≠ none ∧ p.password ≠ none ∧ remoteHost ≠ [] ∧ p.method ≠ some [] ∧
      p.password ≠ some [] ∧ 1 ≤ p.remotePort)
    return true
  | none =>
    -- none is
    assert (p.method = none ∧ p.password = none ∧ p.remotePort = 0)
    return false

/-! ## profile_to_json -/

variable {σ : Type}

/-- `match(string,regex)`. -/
def matchString (string regex : CString) : Prog σ Unit := do
  match regcomp regex with
  | none => throw .assertion
  | some preg =>
    match regexec preg string with
    | none => throw .assertion
    | some (so, eo) => assert (so = 0 ∧ eo = string.length)

/-- `json_object_object_add`: a key that exists gets the new value. -/
def jsonObjectObjectAdd (root : JsonObject) (k v : CString) : JsonObject :=
  if root.any (·.1 = k) then root.map fun e => if e.1 = k then (k, v) else e else root ++ [(k, v)]

/-- `appendjson(root,k,v)`, with the object behind it. -/
def appendjson (root : JsonObject) (k v : CString) : Prog σ JsonObject := do
  matchString k (utf8 "[0-9A-Za-z_]+")
  matchString v (utf8 "[0-9A-Za-z_.-]+")
  return jsonObjectObjectAdd root k v

/-- A string that is read through a pointer. -/
def deref : Option CString → Prog σ CString
  | some s => pure s
  | none => throw .undefined

/-- The object that `profile_to_json` builds. `server_port` has eight bytes. -/
def jsonRoot : Prog State JsonObject := do
  assert ((← profileLoaded) = true)
  let p := (← get).profile
  let serverPort ← strcpy 8 (printD p.remotePort)
  let root ← appendjson [] (utf8 "server") (← deref p.remoteHost)
  let root ← appendjson root (utf8 "server_port") serverPort
  let root ← appendjson root (utf8 "local_address") (← deref p.localAddr)
  let root ← appendjson root (utf8 "local_port") localPortS
  let root ← appendjson root (utf8 "password") (← deref p.password)
  let root ← appendjson root (utf8 "method") (← deref p.method)
  let root ← appendjson root (utf8 "fast_open") (utf8 "true")
  assert (p.fastOpen ≠ 0)
  let root ← appendjson root (utf8 "mode") (utf8 "tcp_and_udp")
  assert (p.mode ≠ 0)
  return root

/-- `profile_to_json(server_title)`: build the object and write it to the file. -/
def profileToJson (env : Env) (serverTitle : Option CString) : Prog State Unit := do
  let root ← jsonRoot
  -- `json_object_to_file_ext`
  assert (env.creates = true)
  modify fun s => { s with file := some (env.text root) }
  -- the file is opened again, for the comment
  assert (env.opens = true)
  modify fun s => { s with file := s.file.map (· ++ utf8 "\n") }
  match serverTitle with
  | none => pure ()
  | some serverTitle =>
    assert (serverTitle ≠ [])
    modify fun s => { s with file := s.file.map (· ++ utf8 "// " ++ serverTitle ++ utf8 "\n") }

/-! ## What the checks accept -/

/-- One of `0-9A-Za-z_.-`. -/
def isValueChar (c : UInt8) : Bool :=
  isdigit c || (65 ≤ c && c ≤ 90) || (97 ≤ c && c ≤ 122) || c == 95 || c == 46 || c == 45

/-- The strings that `appendjson` takes as values. -/
def IsValue (v : CString) : Prop := v ≠ [] ∧ ∀ c ∈ v, isValueChar c = true

instance (v : CString) : Decidable (IsValue v) := inferInstanceAs (Decidable (_ ∧ _))

theorem mem_valueItems {c : UInt8} :
    c ∈ bracketItems (utf8 "0-9A-Za-z_.-") ↔ isValueChar c = true := by
  -- numbers are compared faster than bytes
  have hall : ∀ n ∈ List.range 256, (n ∈ (bracketItems (utf8 "0-9A-Za-z_.-")).map UInt8.toNat ↔
      isValueChar (UInt8.ofNat n) = true) := by
    decide +kernel
  have hc := hall c.toNat (List.mem_range.mpr c.toNat_lt)
  have hinj : Function.Injective UInt8.toNat := fun _ _ h => UInt8.toNat_inj.mp h
  rwa [UInt8.ofNat_toNat, List.mem_map_of_injective hinj] at hc

/-- `match` returns on the strings that its expression matches as a whole. -/
theorem run_matchString {string regex : CString} {preg : RegularExpression UInt8}
    (hregex : regcomp regex = some preg) (s : σ) :
    (matchString string regex).run s =
      if preg.rmatch string then .ok () s else .error .assertion s := by
  unfold matchString
  rw [hregex]
  dsimp only
  by_cases hmatch : preg.rmatch string
  · rw [regexec_eq_whole_iff.mpr hmatch, if_pos hmatch]
    exact run_assert_of_true ⟨rfl, rfl⟩ s
  · rw [if_neg hmatch]
    rcases hexec : regexec preg string with _ | ⟨so, eo⟩
    · rfl
    · apply run_assert_of_false
      rintro ⟨rfl, rfl⟩
      exact hmatch (regexec_eq_whole_iff.mp hexec)

theorem run_matchValue (v : CString) (s : σ) :
    (matchString v (utf8 "[0-9A-Za-z_.-]+")).run s =
      if IsValue v then .ok () s else .error .assertion s := by
  rw [run_matchString (show regcomp _ = some (oneOrMore (bracket _)) from rfl)]
  have hiff : (oneOrMore (bracket (bracketItems (utf8 "0-9A-Za-z_.-")))).rmatch v ↔ IsValue v := by
    rw [rmatch_oneOrMore_bracket]
    exact and_congr_right fun _ => forall₂_congr fun _ _ => mem_valueItems
  exact if_congr hiff rfl rfl

/-- The keys are fixed, so only the value can be rejected. -/
theorem run_appendjson {root : JsonObject} {k v : CString}
    (hk : (oneOrMore (bracket (bracketItems (utf8 "0-9A-Za-z_")))).rmatch k = true) (s : σ) :
    (appendjson root k v).run s =
      if IsValue v then .ok (jsonObjectObjectAdd root k v) s else .error .assertion s := by
  have hkey : (matchString k (utf8 "[0-9A-Za-z_]+")).run s = .ok () s := by
    rw [run_matchString (show regcomp _ = some (oneOrMore (bracket _)) from rfl)]
    exact if_pos hk
  rw [appendjson, EStateM.run_bind, hkey]
  dsimp only
  rw [EStateM.run_bind, run_matchValue]
  by_cases hv : IsValue v
  · rw [if_pos hv, if_pos hv]
    rfl
  · rw [if_neg hv, if_neg hv]

/-! ## A profile that was loaded -/

/-- `profile` with the fields that `yaml2profile` sets. -/
def ProfileT.loaded (host method password : CString) (port : ℤ) : ProfileT :=
  { ProfileT.static with
    remoteHost := some host
    method := some method
    password := some password
    remotePort := port }

/-- The object for a profile. -/
def jsonOf (host method password : CString) (port : ℤ) : JsonObject :=
  [(utf8 "server", host), (utf8 "server_port", printD port), (utf8 "local_address", localAddr),
    (utf8 "local_port", localPortS), (utf8 "password", password), (utf8 "method", method),
    (utf8 "fast_open", utf8 "true"), (utf8 "mode", utf8 "tcp_and_udp")]

section Loaded

variable {env : Env} {host method password : CString} {port : ℤ} {file : Option CString}
  {title : CString}

/-- The file for a profile. -/
def fileOf (env : Env) (json : JsonObject) (title : CString) : CString :=
  env.text json ++ utf8 "\n" ++ utf8 "// " ++ title ++ utf8 "\n"

/-- A profile is loaded if its fields are filled. If not, it fails an assertion. -/
theorem run_profileLoaded :
    profileLoaded.run ⟨.loaded host method password port, file⟩ =
      if host ≠ [] ∧ method ≠ [] ∧ password ≠ [] ∧ 1 ≤ port then
        .ok true ⟨.loaded host method password port, file⟩
      else .error .assertion ⟨.loaded host method password port, file⟩ := by
  have huntouched : Untouched (.loaded host method password port) := by
    simp [Untouched, ProfileT.loaded, ProfileT.static]
  rw [profileLoaded, EStateM.run_bind]
  show EStateM.run (assert (Untouched (.loaded host method password port)) >>= _) _ = _
  rw [run_assert_bind, if_pos huntouched]
  show EStateM.run (assert _ >>= _) _ = _
  rw [run_assert_bind]
  simp [ProfileT.loaded]

/-- An entry that was added has an accepted value. -/
theorem isValue_of_run_appendjson {root root' : JsonObject} {k v : CString} {s s' : σ}
    (h : (appendjson root k v).run s = .ok root' s') : IsValue v ∧ s' = s := by
  unfold appendjson at h
  obtain ⟨_, s₁, hkey, h⟩ := run_bind_eq_ok.mp h
  obtain ⟨_, s₂, hvalue, h⟩ := run_bind_eq_ok.mp h
  have hs₁ : s₁ = s := by
    unfold matchString at hkey
    split at hkey
    · cases hkey
    · split at hkey
      · cases hkey
      · exact (run_assert_eq_ok.mp hkey).2.symm
  rw [run_matchValue] at hvalue
  split at hvalue
  · cases hvalue
    cases h
    exact ⟨‹_›, hs₁⟩
  · cases hvalue

/-- The checks of `profile_to_json`. -/
structure Checks (env : Env) (host method password : CString) (port : ℤ) (title : CString) :
    Prop where
  host : IsValue host
  method : IsValue method
  password : IsValue password
  one_le_port : 1 ≤ port
  port : (printD port).length < 8
  title : title ≠ []
  creates : env.creates = true
  opens : env.opens = true

/-- Where the object is built, the checks of the profile have passed. -/
theorem checks_of_run_jsonRoot {root : JsonObject} {s' : State}
    (h : jsonRoot.run ⟨.loaded host method password port, file⟩ = .ok root s') :
    IsValue host ∧ IsValue method ∧ IsValue password ∧ 1 ≤ port ∧ (printD port).length < 8 := by
  unfold jsonRoot at h
  obtain ⟨loaded, s₁, hloaded, h⟩ := run_bind_eq_ok.mp h
  rw [run_profileLoaded] at hloaded
  split at hloaded
  swap
  · cases hloaded
  next hfilled =>
  cases hloaded
  obtain ⟨_, s₂, hassert, h⟩ := run_bind_eq_ok.mp h
  obtain ⟨-, rfl⟩ := run_assert_eq_ok.mp hassert
  obtain ⟨_, s₃, hget, h⟩ := run_bind_eq_ok.mp h
  cases hget
  obtain ⟨serverPort, s₄, hport, h⟩ := run_bind_eq_ok.mp h
  rw [run_strcpy] at hport
  split at hport
  swap
  · cases hport
  next hlength =>
  cases hport
  -- the entries, in the order of the source
  obtain ⟨_, s₅, hderef, h⟩ := run_bind_eq_ok.mp h
  cases hderef
  obtain ⟨root, s₆, hentry, h⟩ := run_bind_eq_ok.mp h
  obtain ⟨hhost, rfl⟩ := isValue_of_run_appendjson hentry
  obtain ⟨root, s₇, hentry, h⟩ := run_bind_eq_ok.mp h
  obtain ⟨-, rfl⟩ := isValue_of_run_appendjson hentry
  obtain ⟨_, s₈, hderef, h⟩ := run_bind_eq_ok.mp h
  cases hderef
  obtain ⟨root, s₉, hentry, h⟩ := run_bind_eq_ok.mp h
  obtain ⟨-, rfl⟩ := isValue_of_run_appendjson hentry
  obtain ⟨root, s₁₀, hentry, h⟩ := run_bind_eq_ok.mp h
  obtain ⟨-, rfl⟩ := isValue_of_run_appendjson hentry
  obtain ⟨_, s₁₁, hderef, h⟩ := run_bind_eq_ok.mp h
  cases hderef
  obtain ⟨root, s₁₂, hentry, h⟩ := run_bind_eq_ok.mp h
  obtain ⟨hpassword, rfl⟩ := isValue_of_run_appendjson hentry
  obtain ⟨_, s₁₃, hderef, h⟩ := run_bind_eq_ok.mp h
  cases hderef
  obtain ⟨root, s₁₄, hentry, h⟩ := run_bind_eq_ok.mp h
  obtain ⟨hmethod, rfl⟩ := isValue_of_run_appendjson hentry
  exact ⟨hhost, hmethod, hpassword, hfilled.2.2.2, hlength⟩

/-- Where the file is written, the checks have passed. -/
theorem checks_of_run_profileToJson {s' : State}
    (h : (profileToJson env (some title)).run ⟨.loaded host method password port, file⟩ =
      .ok () s') :
    Checks env host method password port title := by
  unfold profileToJson at h
  obtain ⟨root, s₁, hroot, h⟩ := run_bind_eq_ok.mp h
  obtain ⟨hhost, hmethod, hpassword, hone, hlength⟩ := checks_of_run_jsonRoot hroot
  obtain ⟨_, s₂, hassert, h⟩ := run_bind_eq_ok.mp h
  obtain ⟨hcreates, rfl⟩ := run_assert_eq_ok.mp hassert
  obtain ⟨_, s₃, hmodify, h⟩ := run_bind_eq_ok.mp h
  obtain ⟨_, s₄, hassert, h⟩ := run_bind_eq_ok.mp h
  obtain ⟨hopens, rfl⟩ := run_assert_eq_ok.mp hassert
  obtain ⟨_, s₅, hmodify', h⟩ := run_bind_eq_ok.mp h
  obtain ⟨_, s₆, hassert, -⟩ := run_bind_eq_ok.mp h
  obtain ⟨htitle, -⟩ := run_assert_eq_ok.mp hassert
  exact ⟨hhost, hmethod, hpassword, hone, hlength, htitle, hcreates, hopens⟩

/-- A printed positive number is accepted. -/
theorem isValue_printD (hport : 0 ≤ port) : IsValue (printD port) := by
  unfold printD
  rw [if_neg (by omega)]
  refine ⟨decimal_ne_nil _, fun c hc => ?_⟩
  unfold isValueChar
  rw [isdigit_of_mem_decimal hc]
  rfl

theorem jsonObjectObjectAdd_of_not_mem {root : JsonObject} {k : CString}
    (h : k ∉ root.map Prod.fst) (v : CString) :
    jsonObjectObjectAdd root k v = root ++ [(k, v)] := by
  rw [jsonObjectObjectAdd, if_neg]
  simpa using h

/-- The keys in the order of the source. -/
def jsonKeys : List CString :=
  [utf8 "server", utf8 "server_port", utf8 "local_address", utf8 "local_port", utf8 "password",
    utf8 "method", utf8 "fast_open", utf8 "mode"]

/-- The next key is accepted and new. -/
theorem run_appendjson_next {root : JsonObject} {n : ℕ}
    (hroot : root.map Prod.fst = jsonKeys.take n) {k v : CString}
    (hk : jsonKeys[n]? = some k) (hv : IsValue v) (s : σ) :
    (appendjson root k v).run s = .ok (root ++ [(k, v)]) s := by
  have hkeys : ∀ n < jsonKeys.length, ∀ k ∈ jsonKeys[n]?, (k ≠ [] ∧
      ∀ c ∈ k, c ∈ bracketItems (utf8 "0-9A-Za-z_")) ∧ k ∉ jsonKeys.take n := by
    decide +kernel
  obtain ⟨haccepted, hnew⟩ := hkeys n (List.getElem?_eq_some_iff.mp hk).1 k hk
  rw [run_appendjson (rmatch_oneOrMore_bracket.mpr haccepted), if_pos hv,
    jsonObjectObjectAdd_of_not_mem (by rwa [hroot])]

/-- Where the checks of the profile pass, the object is built. -/
theorem run_jsonRoot (file : Option CString) (hhost : IsValue host) (hmethod : IsValue method)
    (hpassword : IsValue password) (hone : 1 ≤ port) (hlength : (printD port).length < 8) :
    jsonRoot.run ⟨.loaded host method password port, file⟩ =
      .ok (jsonOf host method password port) ⟨.loaded host method password port, file⟩ := by
  have hloaded : profileLoaded.run ⟨.loaded host method password port, file⟩ =
      .ok true ⟨.loaded host method password port, file⟩ := by
    rw [run_profileLoaded, if_pos ⟨hhost.1, hmethod.1, hpassword.1, hone⟩]
  have hport : 0 ≤ port := le_trans (by decide) hone
  have hfixed : IsValue localAddr ∧ IsValue localPortS ∧ IsValue (utf8 "true") ∧
      IsValue (utf8 "tcp_and_udp") := by
    decide +kernel
  obtain ⟨hlocalAddr, hlocalPort, htrue, hmode⟩ := hfixed
  unfold jsonRoot
  refine run_bind_eq_ok.mpr ⟨true, _, hloaded, run_bind_eq_ok.mpr ⟨(), _, rfl, ?_⟩⟩
  refine run_bind_eq_ok.mpr ⟨_, _, rfl, ?_⟩
  refine run_bind_eq_ok.mpr ⟨printD port, _, run_strcpy_of_fits hlength, ?_⟩
  -- the entries, in the order of the source
  refine run_bind_eq_ok.mpr ⟨host, _, rfl, ?_⟩
  refine run_bind_eq_ok.mpr ⟨_, _, run_appendjson_next (n := 0) rfl rfl hhost _, ?_⟩
  refine run_bind_eq_ok.mpr
    ⟨_, _, run_appendjson_next (n := 1) rfl rfl (isValue_printD hport) _, ?_⟩
  refine run_bind_eq_ok.mpr ⟨localAddr, _, rfl, ?_⟩
  refine run_bind_eq_ok.mpr ⟨_, _, run_appendjson_next (n := 2) rfl rfl hlocalAddr _, ?_⟩
  refine run_bind_eq_ok.mpr ⟨_, _, run_appendjson_next (n := 3) rfl rfl hlocalPort _, ?_⟩
  refine run_bind_eq_ok.mpr ⟨password, _, rfl, ?_⟩
  refine run_bind_eq_ok.mpr ⟨_, _, run_appendjson_next (n := 4) rfl rfl hpassword _, ?_⟩
  refine run_bind_eq_ok.mpr ⟨method, _, rfl, ?_⟩
  refine run_bind_eq_ok.mpr ⟨_, _, run_appendjson_next (n := 5) rfl rfl hmethod _, ?_⟩
  refine run_bind_eq_ok.mpr ⟨_, _, run_appendjson_next (n := 6) rfl rfl htrue _, ?_⟩
  refine run_bind_eq_ok.mpr ⟨(), _, rfl, ?_⟩
  refine run_bind_eq_ok.mpr ⟨_, _, run_appendjson_next (n := 7) rfl rfl hmode _, ?_⟩
  exact run_bind_eq_ok.mpr ⟨(), _, rfl, rfl⟩

/-- Where the checks pass, the file is written. -/
theorem run_profileToJson (h : Checks env host method password port title) :
    (profileToJson env (some title)).run ⟨.loaded host method password port, file⟩ =
      .ok () ⟨.loaded host method password port,
        some (fileOf env (jsonOf host method password port) title)⟩ := by
  have hroot := run_jsonRoot file h.host h.method h.password h.one_le_port h.port
  unfold profileToJson
  refine run_bind_eq_ok.mpr ⟨_, _, hroot, ?_⟩
  refine run_bind_eq_ok.mpr ⟨(), _, run_assert_of_true h.creates _, ?_⟩
  refine run_bind_eq_ok.mpr ⟨_, _, rfl, ?_⟩
  refine run_bind_eq_ok.mpr ⟨(), _, run_assert_of_true h.opens _, ?_⟩
  refine run_bind_eq_ok.mpr ⟨_, _, rfl, ?_⟩
  exact run_bind_eq_ok.mpr ⟨(), _, run_assert_of_true h.title _, rfl⟩

end Loaded

end ProfileJson
