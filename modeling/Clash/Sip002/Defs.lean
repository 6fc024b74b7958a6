import Clash.Lib.Base64
import Clash.Lib.PercentEncoding
import Clash.Lib.Uri
import Clash.Profile.Defs

/-!
# clash_sip002

The part of the program that builds a SIP002 URI, and how such a URI is read. How the QR code of
the URI is printed is modelled on its own, on the matrix that libqrencode returns.

## Main definitions

* `ssUri`: the URI for a profile and a tag.
* `decodeSs`: how another client reads such a URI.
-/

open CProg CString

namespace Sip002

open Yaml2Profile (Profile)

variable {σ : Type}

/-- `EVP_EncodeBlock` into a buffer of `size` bytes. A NUL is written behind the digits. -/
def base64encode (size : ℕ) (src : CString) : Prog σ CString := do
  let dest ← strcpy size (Base64.encode src)
  assert (4 ≤ dest.length ∧ dest.length % 4 = 0)
  return dest

/-- The part of `sip002` that builds the URI: percent-encode the tag, encode method and password,
and concatenate. -/
def ssUri (p : Profile) (tagRaw : CString) : Prog σ CString := do
  let tag := PercentEncoding.encode tagRaw
  assert (tag ≠ [])
  let sz := p.method.length + 1 + p.password.length + 1
  let userinfoRaw ← sprintf (p.method ++ utf8 ":" ++ p.password)
  let buffer := userinfoRaw ++ [0]
  assert (buffer[sz - 1]? = some 0)
  assert (buffer[sz - 2]? ≠ some 0)
  let userinfo ← base64encode (((sz - 1) + 2) / 3 * 4 + 1) userinfoRaw
  sprintf (utf8 "ss://" ++ userinfo ++ utf8 "@" ++ p.remoteHost ++ utf8 ":" ++
    printD p.remotePort ++ utf8 "#" ++ tag)

/-! ## Reading a URI -/

/-- What a SIP002 URI says. -/
structure Link where
  method : CString
  password : CString
  host : CString
  port : ℤ
  tag : CString
  deriving DecidableEq, Repr

/-- Read a SIP002 URI: split it, decode the userinfo and split it at its first `:`, decode the
fragment. -/
def decodeSs (uri : CString) : Option Link := do
  let parts ← Uri.split uri
  let userinfo ← Base64.decode parts.userinfo
  let (method, password) ← Uri.cut 58 userinfo
  let tag ← PercentEncoding.decode parts.fragment
  if parts.scheme = utf8 "ss" ∧ parts.port ≠ [] ∧ parts.port.all isdigit then
    return { method, password, host := parts.host, port := readDigits 0 parts.port, tag }
  else none

end Sip002
