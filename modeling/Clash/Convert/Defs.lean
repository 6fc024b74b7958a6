import Clash.Convert.Flag
import Clash.Lib.Inet
import Clash.Lib.Yaml.Content

/-!
# convert.c

`clash_convert` reads the YAML configuration of a provider from its standard input and writes a
Clash configuration with the usable proxies and nine groups of them to its standard output.

The parser half is a program over the token scanner, the rest a program over the globals of the
translation unit and the emitted events. The scanner's tokens and the emitter's events stand for
the two byte streams. A loop takes a bound `fuel` on its iterations.

## Main definitions

* `readEntry`: one iteration of the proxy loop up to the decision to keep or drop the entry.
* `checkCredentials`, `group`, `emitNode`: what happens to a kept entry.
* `main`: the conversion; `argc` is 1.
-/

open CProg CString Yaml

namespace Convert

/-- `SZ`. -/
def sz : ℕ := 1024

/-- `SZ_CIPHER`. -/
def szCipher : ℕ := 64

/-- `SZ_PORT`. -/
def szPort : ℕ := 8

/-- `RESTFUL_PORT`, a build option whose default `restful.c` insists on. -/
def restfulPort : String := "9090"

/-- `Node`. -/
structure Node where
  obfs : Bool
  name : CString
  server : CString
  deriving DecidableEq, Repr

/-- The fields that all kept nodes share, in the globals `plain_*` or in the buffers of the
proxy loop. -/
structure Credentials where
  port : CString
  cipher : CString
  password : CString
  deriving DecidableEq, Repr

/-- The nine global lists of names. -/
inductive GList where
  | asia
  | aucaus
  | eugb
  | hk
  | jp
  | kr
  | nonHk
  | tw
  | xx
  deriving DecidableEq, Repr

/-- The globals, and the events emitted so far. -/
structure State where
  parser : Scanner
  events : List Event
  lists : GList → List CString
  plain : Credentials

/-- The state in which `main` starts. -/
def initial (parser : Scanner) : State :=
  { parser, events := [], lists := fun _ => [], plain := ⟨[], [], []⟩ }

/-! ## Grouping -/

/-- Whether one of the needles of one of the arrays occurs in `haystack`. -/
def strstrArrVa (haystack : CString) (needles : List (List String)) : Bool :=
  needles.any fun array => array.any fun needle => strstr haystack (utf8 needle)

/-- The test of `jp`, whose assertion `group` makes. -/
def jp (s : CString) : Bool := strstr s (utf8 "日本") || strcasestr s (utf8 "ntt")

def au : List String := ["澳"]
def ca : List String := ["加拿大"]
def eu : List String := ["荷蘭", "荷兰", "德國", "德国", "法國", "法国", "愛", "爱"]
def gb : List String := ["英國", "英国"]
def hk : List String := ["ASYNCHRONOUS TRANSFERMODE", "港", "精簡", "精简"]
def kr : List String := ["韓国", "韩国"]
def ru : List String := ["俄羅斯", "俄罗斯"]
def sg : List String := ["新加坡"]
def tw : List String := ["臺灣", "台灣", "台湾"]
def us : List String := ["美國", "美国"]

/-- The test by which `group` adds a name to a list. -/
def belongs (s : CString) : GList → Bool
  | .asia => strstrArrVa s [hk, kr, ru, sg, tw] || jp s
  | .aucaus => strstrArrVa s [au, ca, us]
  | .eugb => strstrArrVa s [eu, gb]
  | .hk => strstrArrVa s [hk]
  | .kr => strstrArrVa s [kr]
  | .nonHk => !strstrArrVa s [hk]
  | .tw => strstrArrVa s [tw]
  | .jp => jp s
  -- `xx` is cleared by every test above except the one of `l_non_hk`
  | .xx => !((strstrArrVa s [hk, kr, ru, sg, tw] || jp s) || strstrArrVa s [au, ca, us] ||
      strstrArrVa s [eu, gb] || strstrArrVa s [hk] || strstrArrVa s [kr] ||
      strstrArrVa s [tw] || jp s)

/-- Prepend a name to the lists it belongs to. -/
def group (s : CString) : Prog State Unit := do
  assert (s ≠ [])
  modify fun st =>
    { st with lists := fun l => if belongs s l then s :: st.lists l else st.lists l }

/-! ## Emitting -/

/-- `EMIT()`. The emitter takes every event of a well-nested stream. -/
def emit (e : Event) : Prog State Unit :=
  modify fun st => { st with events := st.events ++ [e] }

/-- Emit scalars up to the `NULL` that ends the arguments. -/
def emitScalar : List CString → Prog State Unit
  | [] => pure ()
  | s :: ss => do
    emit (.scalar s)
    emitScalar ss

def emitterBegin : Prog State Unit := do
  emit .streamStart
  emit .documentStart
  emit .mappingStart
  emitScalar [
    utf8 "port", utf8 "8080",
    utf8 "socks-port", utf8 "1080",
    utf8 "allow-lan", utf8 "true",
    utf8 "bind-address", utf8 "*",
    utf8 "mode", utf8 "global",
    utf8 "log-level", utf8 "info",
    utf8 "ipv6", utf8 "false",
    utf8 "external-controller", utf8 "0.0.0.0:" ++ utf8 restfulPort,
    utf8 "external-ui", utf8 "/tmp/yacd-gh-pages",
    utf8 "secret", utf8 ""]
  emit (.scalar (utf8 "profile"))
  emit .mappingStart
  emitScalar [utf8 "store-selected", utf8 "true"]
  emit .mappingEnd
  emit (.scalar (utf8 "dns"))
  emit .mappingStart
  emitScalar [utf8 "enable", utf8 "false"]
  emit .mappingEnd

def emitterEnd : Prog State Unit := do
  emit .mappingEnd
  emit .documentEnd
  emit .streamEnd

/-- Emit a kept node, with the shared fields from the globals. -/
def emitNode (n : Node) : Prog State Unit := do
  -- an obfs node has been dropped
  assert (n.obfs = false)
  emit .mappingStart
  let st ← get
  emitScalar [
    utf8 "name", n.name,
    utf8 "type", utf8 "ss",
    utf8 "server", n.server,
    utf8 "port", st.plain.port,
    utf8 "cipher", st.plain.cipher,
    utf8 "password", st.plain.password,
    utf8 "udp", utf8 "true"]
  emit .mappingEnd

/-- Emit the group of a list, unless the list is empty, and empty the list. -/
def emitAndDestroyGroup (title : CString) (l : GList) : Prog State Unit := do
  let st ← get
  -- an empty group is skipped
  if st.lists l = [] then
    return ()
  emit .mappingStart
  emitScalar [utf8 "name", title, utf8 "type", utf8 "select"]
  emit (.scalar (utf8 "proxies"))
  emit .sequenceStart
  emitScalar (st.lists l)
  modify fun st => { st with lists := Function.update st.lists l [] }
  emit .sequenceEnd
  emit .mappingEnd

/-! ## Parsing -/

/-- Scan a token and assert its type, which is one without data. -/
def assertTokenType (tt : Token) : Prog Scanner Unit := do
  let token ← scan
  assert (token = tt)

/-- `SCAN();assert(token.type==YAML_SCALAR_TOKEN)`, with the value of the token. -/
def scanScalar : Prog Scanner CString := do
  match ← scan with
  | .scalar v => pure v
  | _ => throw .assertion

/-- One iteration of the loop that skips everything before the list of proxies. The loop of
`yaml2profile` is the same. -/
def skipHeaderBody (_ : Unit) : Prog Scanner (Unit ⊕ Unit) := do
  let token ← scan
  if token = .key then
    let token ← scan
    if token = .scalar (utf8 "proxies") then
      return .inr ()
  return .inl ()

/-- Skip to just behind a key `proxies`. -/
def skipHeader (fuel : ℕ) : Prog Scanner Unit := loop skipHeaderBody fuel ()

def parserBegin (fuel : ℕ) : Prog Scanner Unit := do
  assertTokenType .streamStart
  assertTokenType .blockMappingStart
  -- skip the raw header
  skipHeader fuel
  assertTokenType .value
  assertTokenType .blockSequenceStart

/-- Read the value of key `k` into a buffer of `size` bytes. -/
def extractValueWithKey (k : CString) (size : ℕ) : Prog Scanner CString := do
  assertTokenType .key
  let v ← scanScalar
  assert (v = k)
  assertTokenType .value
  let v ← scanScalar
  strcpy size v

def assertValueWithKey (k v0 : CString) : Prog Scanner Unit := do
  assertTokenType .key
  let v ← scanScalar
  assert (v = k)
  assertTokenType .value
  let v ← scanScalar
  assert (v = v0)

/-- One iteration of `skip_node`. `lean` is the number of `BLOCK_END`s to come less that of
`BLOCK_MAPPING_START`s; a scanner whose columns are `int`s cannot make it overflow one. -/
def skipNodeBody (lean : ℕ) : Prog Scanner (ℕ ⊕ Unit) := do
  let token ← scan
  let lean := if token = .blockMappingStart then lean + 1 else lean
  if token = .blockEnd then
    -- the end of the node itself
    if lean = 0 then
      return .inr ()
    assert (1 ≤ lean)
    return .inl (lean - 1)
  return .inl lean

/-- Skip the rest of a node. -/
def skipNode (fuel lean : ℕ) : Prog Scanner Unit := loop skipNodeBody fuel lean

/-! ## The proxy loop -/

/-- The branch that drops an entry. -/
inductive Drop where
  | cn
  | type
  | ipv6
  | loopback
  | obfs
  deriving DecidableEq, Repr

/-- What an iteration of the proxy loop finds. -/
inductive Entry where
  | sequenceEnd
  | drop (why : Drop)
  | keep (node : Node) (own : Credentials)
  deriving DecidableEq, Repr

/-- The four substrings that mark a node for users outside China going back. -/
def cnMarkers : List String := ["回國", "中國標準 BGP 邊緣", "回国", "中国标准 BGP 边缘"]

def isCn (name : CString) : Bool := cnMarkers.any fun marker => strstr name (utf8 marker)

/-- Read an entry, or the end of the list. A dropped entry is skipped to its end. -/
def readEntry (fuel : ℕ) : Prog Scanner Entry := do
  let token ← scan
  -- if the sequence has ended
  if token = .blockEnd then
    return .sequenceEnd
  assert (token = .blockEntry)
  assertTokenType .blockMappingStart
  let name ← extractValueWithKey (utf8 "name") sz
  if isCn name then
    skipNode fuel 0
    return .drop .cn
  let type ← extractValueWithKey (utf8 "type") 8
  if type ≠ utf8 "ss" then
    skipNode fuel 0
    return .drop .type
  let server ← extractValueWithKey (utf8 "server") sz
  if Inet.pton6 server then
    skipNode fuel 0
    return .drop .ipv6
  if server = utf8 "127.0.0.1" then
    skipNode fuel 0
    return .drop .loopback
  -- the fields that all nodes share
  let port ← extractValueWithKey (utf8 "port") szPort
  let cipher ← extractValueWithKey (utf8 "cipher") szCipher
  let password ← extractValueWithKey (utf8 "password") sz
  assertValueWithKey (utf8 "udp") (utf8 "true")
  match ← scan with
  -- plain
  | .blockEnd => return .keep ⟨false, name, server⟩ ⟨port, cipher, password⟩
  -- obfs
  | .key =>
    skipNode fuel 0
    return .drop .obfs
  | _ => throw .assertion

/-- The first kept node sets the shared globals; every later one must agree with them. -/
def checkCredentials (own : Credentials) : Prog State Unit := do
  let st ← get
  if st.plain.port.length = 0 ∧ st.plain.cipher.length = 0 ∧ st.plain.password.length = 0 then
    -- the globals are empty
    let port ← strcpy szPort own.port
    let cipher ← strcpy szCipher own.cipher
    let password ← strcpy sz own.password
    set { st with plain := ⟨port, cipher, password⟩ }
  else if 3 ≤ st.plain.port.length ∧ 3 ≤ st.plain.cipher.length ∧
      3 ≤ st.plain.password.length then
    -- an earlier node has set them
    assert (own.port = st.plain.port)
    assert (own.cipher = st.plain.cipher)
    assert (own.password = st.plain.password)
  else
    throw .assertion

/-- Run a parser function from within the program. -/
def onParser {α : Type} (p : Prog Scanner α) : Prog State α :=
  zoom State.parser (fun parser st => { st with parser }) p

/-- One iteration of the proxy loop. -/
def proxyBody (fuel : ℕ) (_ : Unit) : Prog State (Unit ⊕ Unit) := do
  match ← onParser (readEntry fuel) with
  | .sequenceEnd => return .inr ()
  | .drop _ => return .inl ()
  | .keep node own =>
    checkCredentials own
    group node.name
    emitNode node
    return .inl ()

/-- The proxy loop. -/
def proxyLoop (fuel : ℕ) : Prog State Unit := loop (proxyBody fuel) fuel ()

/-- The groups of the output, in order: the title and the list. -/
def emitGroups (mbCurMax : ℕ) : Prog State Unit := do
  -- rare
  emitAndDestroyGroup (utf8 "XX") .xx
  let buf ← Flag.title mbCurMax [.cc 'H' 'K', .cc 'J' 'P', .cc 'K' 'R', .cc 'R' 'U', .cc 'S' 'G',
    .cc 'T' 'W']
  emitAndDestroyGroup buf .asia
  -- unknown
  emitAndDestroyGroup (utf8 "NON_HK") .nonHk
  let buf ← Flag.title mbCurMax [.cc 'H' 'K']
  emitAndDestroyGroup buf .hk
  -- frequent
  let buf ← Flag.title mbCurMax [.cc 'J' 'P']
  emitAndDestroyGroup buf .jp
  let buf ← Flag.title mbCurMax [.cc 'E' 'U', .cc 'G' 'B']
  emitAndDestroyGroup buf .eugb
  let buf ← Flag.title mbCurMax [.cc 'A' 'U', .cc 'C' 'A', .cc 'U' 'S']
  emitAndDestroyGroup buf .aucaus
  let buf ← Flag.title mbCurMax [.cc 'T' 'W']
  emitAndDestroyGroup buf .tw
  let buf ← Flag.title mbCurMax [.cc 'K' 'R']
  emitAndDestroyGroup buf .kr

/-- The conversion, in a locale with the given `MB_CUR_MAX`. -/
def main (mbCurMax fuel : ℕ) : Prog State Unit := do
  emitterBegin
  onParser (parserBegin fuel)
  emit (.scalar (utf8 "proxies"))
  emit .sequenceStart
  proxyLoop fuel
  emit .sequenceEnd
  emit (.scalar (utf8 "proxy-groups"))
  emit .sequenceStart
  -- the events up to here are out when this fails
  assert (mbCurMax = 6)
  emitGroups mbCurMax
  emit .sequenceEnd
  emitterEnd

end Convert
