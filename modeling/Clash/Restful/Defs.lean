import Clash.Convert.Defs
import Clash.Lib.PercentEncoding

/-!
# restful.c

`now` asks a running Clash over its RESTful API which node is in use.

A transfer with libcurl is a parameter `http` of the model: for a URL it yields the JSON object in
the body, or nothing if the transfer fails or the body is no JSON object.
-/

open CProg CString

namespace Restful

/-- A value in a JSON object, as far as the program looks: a string, or something else. -/
inductive Json where
  | string (s : CString)
  | other
  deriving DecidableEq, Repr

/-- The fields of a JSON object. -/
abbrev JsonObject := List (CString × Json)

/-- The URL below which Clash answers for its proxies. -/
def proxiesUrl : CString :=
  utf8 "http://127.0.0.1:" ++ utf8 Convert.restfulPort ++ utf8 "/proxies/"

variable {σ : Type}

/-- `field_string_get(j,k)`: a field that is a string and not empty. -/
def fieldStringGet (j : JsonObject) (k : CString) : Prog σ CString :=
  match j.lookup k with
  | some (.string s) => do
    assert (s ≠ [])
    return s
  | _ => throw .assertion

/-- `field_string_assert(j,k,v)`. -/
def fieldStringAssert (j : JsonObject) (k v : CString) : Prog σ Unit := do
  let s ← fieldStringGet j k
  assert (v = s)

/-- The URL that `json_get` asks for: that of the proxy `s`, or of `GLOBAL`. -/
def urlOf (s : Option CString) : Prog σ CString :=
  match s with
  | some s => do
    let ss := PercentEncoding.encode s
    assert (ss ≠ [])
    return proxiesUrl ++ ss
  | none => return proxiesUrl ++ utf8 "GLOBAL"

/-- The object at a URL. -/
def objectAt (http : CString → Option JsonObject) (url : CString) : Prog σ JsonObject :=
  match http url with
  | some j => return j
  | none => throw .assertion

/-- `json_get(s)`. -/
def jsonGet (http : CString → Option JsonObject) (s : Option CString) : Prog σ JsonObject := do
  let url ← urlOf s
  objectAt http url

/-- `now`, for any `json_get`. -/
def nowWith (jsonGet : Option CString → Prog σ JsonObject) : Prog σ CString := do
  let j ← jsonGet none
  fieldStringAssert j (utf8 "name") (utf8 "GLOBAL")
  fieldStringAssert j (utf8 "type") (utf8 "Selector")
  let s ← fieldStringGet j (utf8 "now")
  let j ← jsonGet (some s)
  fieldStringAssert j (utf8 "name") s
  let type ← fieldStringGet j (utf8 "type")
  if type ≠ utf8 "Shadowsocks" then
    fieldStringAssert j (utf8 "type") (utf8 "Selector")
    let s ← fieldStringGet j (utf8 "now")
    let j ← jsonGet (some s)
    fieldStringAssert j (utf8 "name") s
    fieldStringAssert j (utf8 "type") (utf8 "Shadowsocks")
    return s
  return s

/-- The name of the node in use. -/
def now (http : CString → Option JsonObject) : Prog σ CString := nowWith (jsonGet http)

end Restful
