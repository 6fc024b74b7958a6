import Clash.Sip002.Defs

/-!
# The URI can be read back

A URI of `sip002` says what it was built from, unless its userinfo contains a `/`. The userinfo is
plain base64, and so it contains one as soon as six bits of `method:password` are all ones.

## Main results

* `run_ssUri`: the URI for a profile, as long as it is not too long to be printed.
* `decode_ssUri_iff`: exactly when a reader of the URI gets the five values back.
-/

open CProg CString Uri

namespace Sip002

open Yaml2Profile (Profile)

/-- A byte of a dotted quad or of a DNS host name. -/
def hostByte (c : UInt8) : Bool :=
  (65 ≤ c && c ≤ 90) || (97 ≤ c && c ≤ 122) || isdigit c || c == 45 || c == 46

/-- A profile and a tag for which `sip002` is meant. -/
structure Encodable (p : Profile) (tag : CString) : Prop where
  method : 58 ∉ p.method
  password_ne_nil : p.password ≠ []
  password : 0 ∉ p.password
  host_ne_nil : p.remoteHost ≠ []
  host : ∀ c ∈ p.remoteHost, hostByte c = true
  one_le_port : 1 ≤ p.remotePort
  port_le : p.remotePort ≤ 65535
  tag : tag ≠ []

/-- The length of the URI. -/
def uriLength (p : Profile) (tag : CString) : ℕ :=
  8 + (p.method.length + p.password.length + 3) / 3 * 4 + p.remoteHost.length +
    (printD p.remotePort).length + (PercentEncoding.encode tag).length

/-- The parts of the URI. -/
def uriParts (p : Profile) (tag : CString) : Parts where
  scheme := utf8 "ss"
  userinfo := Base64.encode (p.method ++ utf8 ":" ++ p.password)
  host := p.remoteHost
  port := printD p.remotePort
  fragment := PercentEncoding.encode tag

theorem length_format_uriParts (p : Profile) (tag : CString) :
    (format (uriParts p tag)).length = uriLength p tag := by
  have hss : (utf8 "ss").length = 2 := by decide
  have hcolon : (utf8 ":").length = 1 := by decide
  simp only [format, uriParts, uriLength, List.length_append, List.length_cons,
    Base64.length_encode, hss, hcolon]
  omega

theorem format_uriParts (p : Profile) (tag : CString) :
    format (uriParts p tag) =
      utf8 "ss://" ++ Base64.encode (p.method ++ utf8 ":" ++ p.password) ++ utf8 "@" ++
        p.remoteHost ++ utf8 ":" ++ printD p.remotePort ++ utf8 "#" ++
        PercentEncoding.encode tag := by
  have hscheme : utf8 "ss://" = utf8 "ss" ++ [58, 47, 47] := by decide
  have hat : utf8 "@" = [64] := by decide
  have hcolon : utf8 ":" = [58] := by decide
  have hhash : utf8 "#" = [35] := by decide
  simp only [format, uriParts, hscheme, hat, hcolon, hhash, List.append_assoc, List.cons_append,
    List.nil_append]

variable {σ : Type} {p : Profile} {tag : CString}

theorem length_userinfoRaw (p : Profile) :
    (p.method ++ utf8 ":" ++ p.password).length = p.method.length + 1 + p.password.length := by
  have hcolon : (utf8 ":").length = 1 := by decide
  rw [List.length_append, List.length_append, hcolon]

/-- The bytes at the NUL of `userinfo_raw` and in front of it. -/
theorem getElem?_userinfoRaw (h : Encodable p tag) :
    let buffer := p.method ++ utf8 ":" ++ p.password ++ [0]
    buffer[p.method.length + 1 + p.password.length + 1 - 1]? = some 0 ∧
      buffer[p.method.length + 1 + p.password.length + 1 - 2]? ≠ some 0 := by
  have hpos : 0 < p.password.length := List.length_pos_of_ne_nil h.password_ne_nil
  have hlength := length_userinfoRaw p
  constructor
  · rw [Nat.add_sub_cancel, ← hlength, List.getElem?_concat_length]
  · have hcolon : (p.method ++ utf8 ":").length = p.method.length + 1 := by
      rw [List.length_append]
      rfl
    rw [List.getElem?_append_left (by omega), List.getElem?_append_right (by omega)]
    intro hlast
    exact h.password (List.mem_of_getElem? hlast)

theorem run_base64encode {src : CString} (hsrc : src ≠ []) {size : ℕ}
    (hsize : size = (src.length + 2) / 3 * 4 + 1) (s : σ) :
    (base64encode size src).run s = .ok (Base64.encode src) s := by
  have hpos : 0 < src.length := List.length_pos_of_ne_nil hsrc
  have hfits : Fits size (Base64.encode src) := by
    rw [Fits, Base64.length_encode]
    omega
  have hlength : 4 ≤ (Base64.encode src).length ∧ (Base64.encode src).length % 4 = 0 := by
    rw [Base64.length_encode]
    omega
  simp [base64encode, hfits, hlength]

/-- `ssUri` prints the URI made of these parts, as long as it is not too long to be printed. -/
theorem run_ssUri (h : Encodable p tag) (s : σ) :
    (ssUri p tag).run s =
      if uriLength p tag < 2 ^ 31 then .ok (format (uriParts p tag)) s
      else .error .undefined s := by
  have htag : PercentEncoding.encode tag ≠ [] := PercentEncoding.encode_ne_nil h.tag
  have hraw := length_userinfoRaw p
  have hne : p.method ++ utf8 ":" ++ p.password ≠ [] :=
    List.append_ne_nil_of_right_ne_nil _ h.password_ne_nil
  obtain ⟨hnul, hlast⟩ := getElem?_userinfoRaw h
  rw [ssUri]
  simp only [EStateM.run_bind, run_assert_of_true htag]
  -- the userinfo is printed first, and is shorter than the URI
  by_cases hshort : (p.method ++ utf8 ":" ++ p.password).length < 2 ^ 31
  · rw [run_sprintf hshort]
    simp only [run_assert_of_true hnul, run_assert_of_true hlast]
    rw [run_base64encode hne (by rw [hraw, Nat.add_sub_cancel])]
    simp only []
    rw [← format_uriParts]
    -- then the URI
    by_cases hlength : uriLength p tag < 2 ^ 31
    · rw [if_pos hlength, run_sprintf (by rwa [length_format_uriParts])]
    · rw [if_neg hlength, run_sprintf_of_le (by rw [length_format_uriParts]; omega)]
  · have hlong : ¬ uriLength p tag < 2 ^ 31 := by
      rw [hraw] at hshort
      rw [uriLength]
      omega
    rw [if_neg hlong, run_sprintf_of_le (by omega)]

/-! ## Reading the URI -/

/-- The port is printed as a number without sign. -/
theorem printD_remotePort (h : Encodable p tag) :
    printD p.remotePort = decimal p.remotePort.natAbs := by
  have hone := h.one_le_port
  rw [printD, if_neg (by omega)]

/-- The delimiters of a URI occur in none of the parts, but for a `/` in the userinfo. -/
theorem delimited_uriParts (h : Encodable p tag) : (uriParts p tag).Delimited where
  scheme := by
    constructor
    · exact (by decide : 58 ∉ utf8 "ss")
    · exact (by decide : 35 ∉ utf8 "ss")
  userinfo := by
    -- `@`, `?` and `#` are not in the alphabet, as `/` is
    have halphabet (c : UInt8) (hc : c ∉ Base64.alphabet) : c ∉ (uriParts p tag).userinfo :=
      fun hmem => hc (Base64.mem_alphabet_of_mem_encode hmem)
    exact ⟨halphabet 64 (by decide), halphabet 63 (by decide), halphabet 35 (by decide)⟩
  host := by
    -- `/`, `?` and `#` are in no host name
    have hbyte (c : UInt8) (hc : hostByte c = false) : c ∉ (uriParts p tag).host := by
      intro hmem
      rw [h.host c hmem] at hc
      cases hc
    exact ⟨hbyte 47 (by decide), hbyte 63 (by decide), hbyte 35 (by decide)⟩
  port := by
    -- and a port is digits only
    have hdigit (c : UInt8) (hc : isdigit c = false) : c ∉ (uriParts p tag).port := by
      intro hmem
      rw [uriParts, printD_remotePort h] at hmem
      rw [isdigit_of_mem_decimal hmem] at hc
      cases hc
    exact ⟨hdigit 58 (by decide), hdigit 47 (by decide), hdigit 63 (by decide),
      hdigit 35 (by decide)⟩

/-- A URI without `/` in its userinfo is read back. -/
theorem decodeSs_format (h : Encodable p tag)
    (hslash : 47 ∉ Base64.encode (p.method ++ utf8 ":" ++ p.password)) :
    decodeSs (format (uriParts p tag)) =
      some ⟨p.method, p.password, p.remoteHost, p.remotePort, tag⟩ := by
  have hcut : cut 58 (p.method ++ (utf8 ":" ++ p.password)) = some (p.method, p.password) :=
    cut_append h.method p.password
  have hport : ∀ c ∈ decimal p.remotePort.natAbs, isdigit c = true :=
    fun c hc => isdigit_of_mem_decimal hc
  have hvalue : ((p.remotePort.natAbs : ℕ) : ℤ) = p.remotePort := by
    have hone := h.one_le_port
    omega
  rw [decodeSs, split_format (delimited_uriParts h) hslash]
  simp [uriParts, hcut, printD_remotePort h, decimal_ne_nil, hvalue]
  exact hport

/-- A reader of the URI of `sip002` gets back what it was built from exactly if no six bits of
`method:password`, counted from its start, are all ones, and the URI is not too long for
`asprintf`. -/
theorem decode_ssUri_iff (h : Encodable p tag) (s : σ) :
    (∃ uri, (ssUri p tag).run s = .ok uri s ∧
      decodeSs uri = some ⟨p.method, p.password, p.remoteHost, p.remotePort, tag⟩) ↔
      63 ∉ Base64.sextets (p.method ++ utf8 ":" ++ p.password) ∧ uriLength p tag < 2 ^ 31 := by
  rw [run_ssUri h, ← Base64.slash_mem_encode_iff]
  constructor
  · rintro ⟨uri, hrun, hdecode⟩
    by_cases hlength : uriLength p tag < 2 ^ 31
    · rw [if_pos hlength] at hrun
      cases hrun
      -- with a `/` in the userinfo the authority ends too early
      refine ⟨fun hslash => ?_, hlength⟩
      rw [decodeSs, split_format_of_slash (delimited_uriParts h) hslash] at hdecode
      cases hdecode
    · rw [if_neg hlength] at hrun
      cases hrun
  · rintro ⟨hslash, hlength⟩
    exact ⟨_, if_pos hlength, decodeSs_format h hslash⟩

/-- A profile with the given password. -/
def sampleProfile (password : String) : Profile where
  remoteHost := utf8 "node01.example.com"
  method := utf8 "aes-256-gcm"
  password := utf8 password
  remotePort := 8443

theorem decode_ssUri_sampleProfile : ∃ uri,
    (ssUri (sampleProfile "secret") (utf8 "🇯🇵")).run () = .ok uri () ∧
      decodeSs uri = some ⟨utf8 "aes-256-gcm", utf8 "secret", utf8 "node01.example.com", 8443,
        utf8 "🇯🇵"⟩ := by
  refine (decode_ssUri_iff ⟨?_, ?_, ?_, ?_, ?_, ?_, ?_, ?_⟩ ()).mpr ⟨?_, ?_⟩ <;> decide +kernel

/-- The third byte of the password ends in six ones, and the URI is read as one without
userinfo. -/
theorem decode_ssUri_slash :
    (ssUri (sampleProfile "ab?") (utf8 "🇯🇵")).run () = .ok
        (utf8 "ss://YWVzLTI1Ni1nY206YWI/@node01.example.com:8443#%F0%9F%87%AF%F0%9F%87%B5") () ∧
      decodeSs (utf8 "ss://YWVzLTI1Ni1nY206YWI/@node01.example.com:8443#%F0%9F%87%AF%F0%9F%87%B5") =
        none := by
  decide +kernel

end Sip002
