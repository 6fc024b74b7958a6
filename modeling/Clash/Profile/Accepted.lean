import Clash.Profile.Json
import Clash.Profile.Reading
import Clash.Profile.Resolv

/-!
# Profiles that are accepted

Whether the profile that `yaml2profile` returns passes the checks of `profile_loaded` and
`profile_to_json`.

## Main definitions

* `Accepted`: the profile passes the checks, and the file is written.
* `Writable`: the condition on the values of the node.

## Main results

* `accepted_iff`: a profile that was read is accepted exactly if the values of its node are
  writable.
* `port_kept`: a port that fits the buffer of `clash_convert` fits `server_port`, and is the same
  number there.
-/

open CProg CString Inet Yaml

namespace ProfileJson

open Yaml2Profile (Profile NodeValues ReadsNode yaml2profile hostOf)
open Resolv (Addrinfo resolv)

/-- `profile` with what `yaml2profile` read. -/
def ProfileT.ofProfile (p : Profile) : ProfileT :=
  .loaded p.remoteHost p.method p.password p.remotePort

/-- `profile_loaded` returns true, and `profile_to_json` writes the file for every title that is not
empty. -/
structure Accepted (env : Env) (p : Profile) : Prop where
  loaded : ∀ file, profileLoaded.run ⟨.ofProfile p, file⟩ = .ok true ⟨.ofProfile p, file⟩
  written : ∀ file title, title ≠ [] →
    (profileToJson env (some title)).run ⟨.ofProfile p, file⟩ =
      .ok () ⟨.ofProfile p,
        some (fileOf env (jsonOf p.remoteHost p.method p.password p.remotePort) title)⟩

/-- The cipher, the password and a server that is not looked up consist of the characters that
`appendjson` takes, and the port has at most seven digits. -/
structure Writable (resolveDomain : Bool) (n : NodeValues) : Prop where
  server : resolveDomain = false → IsValue n.server
  port : atoi n.port < 10 ^ 7
  cipher : IsValue n.cipher
  password : IsValue n.password

theorem isValue_ntop4 (x : InAddr) : IsValue (ntop4 x) := by
  -- an address is digits and dots
  have hdecimal (n : ℕ) : ∀ c ∈ decimal n, isValueChar c = true := by
    intro c hc
    unfold isValueChar
    rw [isdigit_of_mem_decimal hc]
    rfl
  constructor
  · simp [ntop4]
  · intro c hc
    simp only [ntop4, List.mem_append, List.mem_cons] at hc
    rcases hc with hc | rfl | hc | rfl | hc | rfl | hc
    · exact hdecimal _ c hc
    · decide
    · exact hdecimal _ c hc
    · decide
    · exact hdecimal _ c hc
    · decide
    · exact hdecimal _ c hc

/-- The host of a node is accepted if it was looked up, and otherwise just if the server is. -/
theorem isValue_host_iff {getaddrinfo : CString → Option (List Addrinfo)} {resolveDomain : Bool}
    {n : NodeValues} {host : CString}
    (h : hostOf (resolv getaddrinfo) resolveDomain n = some host) :
    IsValue host ↔ (resolveDomain = false → IsValue n.server) := by
  cases resolveDomain with
  | true =>
    obtain ⟨x, rfl⟩ := Resolv.resolv_eq_some h
    exact iff_of_true (isValue_ntop4 x) nofun
  | false =>
    obtain rfl : n.server = host := Option.some.inj h
    exact ⟨fun h _ => h, fun h => h rfl⟩

theorem length_printD_lt_iff {port : ℤ} (hport : 1 ≤ port) :
    (printD port).length < 8 ↔ port < 10 ^ 7 := by
  unfold printD
  rw [if_neg (by omega), Nat.lt_succ_iff, length_decimal_le_iff (by decide)]
  omega

/-- A profile that `yaml2profile` returned is accepted exactly if the values of its node are
writable. -/
theorem accepted_iff {env : Env} (henv : env.creates = true ∧ env.opens = true)
    {getaddrinfo : CString → Option (List Addrinfo)} {fuel : ℕ} {resolveDomain : Bool}
    {title : CString} {s s' : Scanner} {p : Profile}
    (h : (yaml2profile (resolv getaddrinfo) fuel resolveDomain title).run s = .ok p s') :
    (∃ n, ReadsNode title n s.tokens s'.tokens) ∧
      ∀ n, ReadsNode title n s.tokens s'.tokens →
        (Accepted env p ↔ Writable resolveDomain n) := by
  obtain ⟨n, hn, hhost, hmethod, hpassword, hport, hserverNe, hportNe, hone⟩ :=
    Yaml2Profile.node_of_run_yaml2profile h
  refine ⟨⟨n, hn⟩, fun n' hn' => ?_⟩
  -- there is only one node that it can have been
  obtain rfl := hn.unique hn'
  obtain ⟨host, method, password, port⟩ := p
  obtain rfl : method = n.cipher := hmethod
  obtain rfl : password = n.password := hpassword
  obtain rfl : port = atoi n.port := hport
  constructor
  · rintro ⟨-, hwritten⟩
    -- one file that was written is enough to know the checks
    have hchecks := checks_of_run_profileToJson (hwritten none (utf8 "x") (by decide))
    exact ⟨(isValue_host_iff hhost).mp hchecks.host, (length_printD_lt_iff hone).mp hchecks.port,
      hchecks.method, hchecks.password⟩
  · intro hwritable
    -- the checks look at the values only, so any file can be written
    have hchecks (title : CString) (htitle : title ≠ []) :
        Checks env host n.cipher n.password (atoi n.port) title :=
      ⟨(isValue_host_iff hhost).mpr hwritable.server, hwritable.cipher, hwritable.password, hone,
        (length_printD_lt_iff hone).mpr hwritable.port, htitle, henv.1, henv.2⟩
    constructor
    · intro file
      obtain ⟨hhost', hcipher, hpassword, -⟩ := hchecks (utf8 "x") (by decide)
      exact run_profileLoaded.trans (if_pos ⟨hhost'.1, hcipher.1, hpassword.1, hone⟩)
    · intro file title htitle
      exact run_profileToJson (hchecks title htitle)

/-! ## A configuration with one node -/

/-- The tokens of a configuration with one node. -/
def sampleScanner (n : NodeValues) : Scanner where
  tokens :=
    [.streamStart, .blockMappingStart, .key, .scalar (utf8 "proxies"), .value, .blockEntry,
      .blockMappingStart, .key, .scalar (utf8 "name"), .value, .scalar (utf8 "hk"),
      .key, .scalar (utf8 "type"), .value, .scalar (utf8 "ss"),
      .key, .scalar (utf8 "server"), .value, .scalar n.server,
      .key, .scalar (utf8 "port"), .value, .scalar n.port,
      .key, .scalar (utf8 "cipher"), .value, .scalar n.cipher,
      .key, .scalar (utf8 "password"), .value, .scalar n.password,
      .key, .scalar (utf8 "udp"), .value, .scalar (utf8 "true"), .blockEnd, .blockEnd, .streamEnd]
  broken := false

/-- A resolver that knows one host. -/
def sampleAddrinfo (_ : CString) : Option (List Addrinfo) :=
  let addr : Resolv.SockaddrIn := ⟨2, 0, ⟨203, 0, 113, 7⟩⟩
  some [⟨2, 2, 1, 6, 16, some addr, some (utf8 "hk.example")⟩, ⟨2, 2, 2, 17, 16, some addr, none⟩,
    ⟨2, 2, 3, 0, 16, some addr, none⟩]

/-- A file system on which the file can be written, with only the passwords as text. -/
def sampleEnv : Env where
  text json := (json.lookup (utf8 "password")).getD []
  creates := true
  opens := true

def sampleNode : NodeValues :=
  ⟨utf8 "hk.example", utf8 "8443", utf8 "aes-256-gcm", utf8 "ItuYNH19tMHEBnAuGSwn"⟩

/-- A node whose password has a character that JSON could hold. -/
def atSignNode : NodeValues := { sampleNode with password := utf8 "p@ssword" }

/-- `accepted_iff` for a node that is accepted. -/
theorem accepted_iff_sampleNode :
    ∃ p s', (yaml2profile (resolv sampleAddrinfo) 8 true (utf8 "hk")).run
        (sampleScanner sampleNode) = .ok p s' ∧ Accepted sampleEnv p := by
  have hrun : (yaml2profile (resolv sampleAddrinfo) 8 true (utf8 "hk")).run
      (sampleScanner sampleNode) = .ok ⟨utf8 "203.0.113.7", sampleNode.cipher, sampleNode.password,
        8443⟩ ⟨[.blockEnd, .streamEnd], false⟩ := rfl
  have hnode : ReadsNode (utf8 "hk") sampleNode (sampleScanner sampleNode).tokens
      [.blockEnd, .streamEnd] :=
    ⟨(sampleScanner sampleNode).tokens.take 7, _, ⟨_, _, ⟨_, rfl, rfl⟩, ⟨_, _, _, _, _, _,
      ⟨_, rfl, rfl⟩, ⟨_, rfl, rfl⟩, ⟨_, rfl, rfl⟩, ⟨_, rfl, rfl⟩, ⟨_, rfl, rfl⟩, ⟨_, rfl, rfl⟩,
      rfl⟩, rfl⟩, rfl⟩
  have hwritable : Writable true sampleNode :=
    ⟨nofun, by decide +kernel, by decide +kernel, by decide +kernel⟩
  exact ⟨_, _, hrun, ((accepted_iff ⟨rfl, rfl⟩ hrun).2 _ hnode).mpr hwritable⟩

/-- `yaml2profile` returns a profile that `profile_to_json` rejects. -/
theorem not_accepted_atSignNode :
    ∃ p s', (yaml2profile (resolv sampleAddrinfo) 8 true (utf8 "hk")).run
        (sampleScanner atSignNode) = .ok p s' ∧ ¬ Accepted sampleEnv p := by
  refine ⟨⟨utf8 "203.0.113.7", atSignNode.cipher, atSignNode.password, 8443⟩,
    ⟨[.blockEnd, .streamEnd], false⟩, rfl, fun h => ?_⟩
  have hpassword := (checks_of_run_profileToJson (h.written none (utf8 "hk") (by decide))).password
  exact absurd hpassword (by decide)

/-! ## Ports -/

/-- The number at the start of the string is an `int`. -/
def NoOverflow (s : CString) : Prop := -2 ^ 31 ≤ strtol s ∧ strtol s < 2 ^ 31

theorem noOverflow_of_fits {s : CString} (h : Fits Convert.szPort s) : NoOverflow s := by
  have hlt := abs_lt.mp (abs_strtol_lt s)
  have hpow : (10 : ℤ) ^ s.length ≤ 10 ^ 7 := pow_le_pow_right₀ (by norm_num) (Nat.le_of_lt_succ h)
  exact ⟨by omega, by omega⟩

/-- The port that `profile_to_json` prints is no longer than the scalar it was read from, is
accepted as a value and is the same number. So a port that fits the buffer of `clash_convert` fits
`server_port`, and the file has the same port as the configuration. -/
theorem port_kept {s : CString} (hone : 1 ≤ atoi s) :
    (NoOverflow s → (printD (atoi s)).length ≤ s.length ∧ IsValue (printD (atoi s)) ∧
      atoi (printD (atoi s)) = atoi s) ∧
    (Fits Convert.szPort s →
      (∀ st : State, (strcpy 8 (printD (atoi s))).run st = .ok (printD (atoi s)) st) ∧
      ∀ env host method password file title s',
        (profileToJson env (some title)).run ⟨.loaded host method password (atoi s), file⟩ =
          .ok () s' →
        ∃ json port, s'.file = some (fileOf env json title) ∧
          json.lookup (utf8 "server_port") = some port ∧ atoi port = atoi s) := by
  have hkept (hover : NoOverflow s) : (printD (atoi s)).length ≤ s.length ∧
      IsValue (printD (atoi s)) ∧ atoi (printD (atoi s)) = atoi s := by
    have hstrtol : 1 ≤ strtol s := by
      rwa [atoi_of_strtol_lt hover.1 hover.2] at hone
    obtain ⟨hlength, hatoi⟩ := printD_atoi hover.2 hstrtol
    exact ⟨hlength, isValue_printD (by omega), hatoi⟩
  refine ⟨hkept, fun hfits => ?_⟩
  -- a scalar that fits is too short to overflow
  obtain ⟨hlength, -, hatoi⟩ := hkept (noOverflow_of_fits hfits)
  refine ⟨fun st => run_strcpy_of_fits (hlength.trans_lt hfits), ?_⟩
  intro env host method password file title s' hrun
  have hwritten : (profileToJson env (some title)).run
      ⟨.loaded host method password (atoi s), file⟩ = .ok () _ :=
    run_profileToJson (checks_of_run_profileToJson hrun)
  rw [hrun] at hwritten
  cases hwritten
  refine ⟨jsonOf host method password (atoi s), printD (atoi s), rfl, ?_, hatoi⟩
  rfl

/-- `port_kept` for a port with blanks, a sign and leading zeros. -/
theorem port_kept_sample :
    (printD (atoi (utf8 " +0443 "))).length ≤ 7 ∧ atoi (printD (atoi (utf8 " +0443 "))) = 443 := by
  obtain ⟨hlength, -, hatoi⟩ := (port_kept (s := utf8 " +0443 ") (by decide +kernel)).1
    ⟨by decide +kernel, by decide +kernel⟩
  exact ⟨hlength, hatoi.trans (by decide +kernel)⟩

end ProfileJson
