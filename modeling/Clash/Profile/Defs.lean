import Clash.Convert.Defs

/-!
# yaml2profile.c

`yaml2profile` reads the Clash configuration that `clash_convert` wrote and fills in the
connection parameters of the node with a given name.

It is a program over the token scanner, with parser functions of its own beside those it shares
with `convert.c`. `resolv`, which is not called by the programs that pass `false` for
`resolve_domain`, is a parameter.

## Main definitions

* `kVDup`, `kVCmp`: read the value of a key.
* `findNode`: the search through the list of proxies.
* `yaml2profile`: the whole function.
-/

open CProg CString Yaml

namespace Yaml2Profile

open Convert (assertTokenType scanScalar skipHeader)

/-- The fields of `profile_t` that `yaml2profile` sets. -/
structure Profile where
  remoteHost : CString
  method : CString
  password : CString
  remotePort : ℤ
  deriving DecidableEq, Repr

/-- `SCAN();assert(0==strcmp(k,VAL));DEL();`. `VAL` is read whatever the type of the token. -/
def assertVal (k : CString) : Prog Scanner Unit := do
  let token ← scan
  match token.val with
  | some v => assert (v = k)
  -- `strcmp` of a null pointer
  | none => throw .undefined

/-- Read the value of key `k`. -/
def kVDup (k : CString) : Prog Scanner CString := do
  assertTokenType .key
  assertVal k
  assertTokenType .value
  scanScalar

/-- Whether the value of key `k` is `v`: the comparison `0==k_v_cmp(k,v)`. -/
def kVCmp (k v : CString) : Prog Scanner Bool := do
  assertTokenType .key
  assertVal k
  assertTokenType .value
  let val ← scanScalar
  return val = v

/-- Skip the rest of an entry, up to the first `BLOCK_END`. -/
def skipEntry (fuel : ℕ) : Prog Scanner Unit :=
  loop (fun _ => do
    let token ← scan
    if token = .blockEnd then
      return .inr ()
    return .inl ()) fuel ()

/-- One iteration of the search: stop in an entry with the wanted name, or go to the next one. -/
def findNodeBody (fuel : ℕ) (serverTitle : CString) (_ : Unit) : Prog Scanner (Unit ⊕ Unit) := do
  if ← kVCmp (utf8 "name") serverTitle then
    return .inr ()
  skipEntry fuel
  -- `not found`
  let token ← scan
  assert (token = .blockEntry)
  assertTokenType .blockMappingStart
  return .inl ()

def findNode (fuel : ℕ) (serverTitle : CString) : Prog Scanner Unit :=
  loop (findNodeBody fuel serverTitle) fuel ()

/-- Go to the first entry of the list of proxies. The list has to be indentless. -/
def enterFirst (fuel : ℕ) : Prog Scanner Unit := do
  assertTokenType .streamStart
  assertTokenType .blockMappingStart
  skipHeader fuel
  assertTokenType .value
  -- an indented list would have a `BLOCK_SEQUENCE_START` here
  assertTokenType .blockEntry
  assertTokenType .blockMappingStart

/-- Read the node whose name was found. -/
def readNode (resolv : CString → Option CString) (resolveDomain : Bool) :
    Prog Scanner Profile := do
  let isSs ← kVCmp (utf8 "type") (utf8 "ss")
  assert (isSs = true)
  let domain ← kVDup (utf8 "server")
  assert (domain ≠ [])
  let remotePort ← kVDup (utf8 "port")
  assert (remotePort ≠ [])
  let method ← kVDup (utf8 "cipher")
  let password ← kVDup (utf8 "password")
  let isUdp ← kVCmp (utf8 "udp") (utf8 "true")
  assert (isUdp = true)
  -- without `resolve_domain`, the domain is taken as it is
  match if resolveDomain then resolv domain else some domain with
  | none => throw .assertion
  | some remoteHost =>
    assert (1 ≤ atoi remotePort)
    assertTokenType .blockEnd
    return ⟨remoteHost, method, password, atoi remotePort⟩

/-- Fill in a profile from the configuration in the parser's input. -/
def yaml2profile (resolv : CString → Option CString) (fuel : ℕ) (resolveDomain : Bool)
    (serverTitle : CString) : Prog Scanner Profile := do
  enterFirst fuel
  findNode fuel serverTitle
  readNode resolv resolveDomain

end Yaml2Profile
