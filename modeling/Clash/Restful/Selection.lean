import Clash.Convert.Output
import Clash.Restful.Defs

/-!
# The selection in Clash

What Clash reads from a configuration, which selections its user can make there, and what its
RESTful API answers about them.

## Main definitions

* `nodeNames`, `groups`: the proxies and groups of a configuration.
* `Selection`: a state of the selectors, in which each points at something it lists.
* `Selection.Answers`: what its API answers then about a name, by the fields that are looked at.
* `Serves`: a transfer with libcurl from a Clash in a given state.

## Main results

* `run_now_iff`: `now` returns the selected node, unless libcurl changes the path of its URL.
-/

open CProg CString Yaml

namespace Restful

/-! ## Reading a configuration -/

/-- The value of a key of a mapping. -/
def entry (k : String) : Content → Option Content
  | .mapping es => es.lookup (utf8 k)
  | _ => none

/-- The items of a sequence. -/
def items : Option Content → List Content
  | some (.sequence cs) => cs
  | _ => []

/-- The value of a scalar. -/
def text : Option Content → CString
  | some (.scalar v) => v
  | _ => []

/-- The names of the proxies of a configuration. -/
def nodeNames (config : Content) : List CString :=
  (items (entry "proxies" config)).map fun proxy => text (entry "name" proxy)

/-- The groups of a configuration: the titles and the names of the members. -/
def groups (config : Content) : List (CString × List CString) :=
  (items (entry "proxy-groups" config)).map fun group =>
    (text (entry "name" group), (items (entry "proxies" group)).map fun s => text (some s))

/-! ## Answers of the API -/

/-- The answer about a selector and what it points at. -/
def selectorObject (name now : CString) : JsonObject := [
  (utf8 "name", .string name),
  (utf8 "type", .string (utf8 "Selector")),
  (utf8 "now", .string now),
  (utf8 "all", .other)]

/-- The answer about a node. -/
def nodeObject (name : CString) : JsonObject := [
  (utf8 "name", .string name),
  (utf8 "type", .string (utf8 "Shadowsocks")),
  (utf8 "udp", .other)]

/-- What the program looks at in the answer about a selector. There may be more fields. -/
structure IsSelector (j : JsonObject) (name now : CString) : Prop where
  name : j.lookup (utf8 "name") = some (.string name)
  type : j.lookup (utf8 "type") = some (.string (utf8 "Selector"))
  now : j.lookup (utf8 "now") = some (.string now)

/-- What it looks at in the answer about a node. -/
structure IsNode (j : JsonObject) (name : CString) : Prop where
  name : j.lookup (utf8 "name") = some (.string name)
  type : j.lookup (utf8 "type") = some (.string (utf8 "Shadowsocks"))

theorem isSelector_selectorObject (name now : CString) :
    IsSelector (selectorObject name now) name now := ⟨rfl, rfl, rfl⟩

theorem isNode_nodeObject (name : CString) : IsNode (nodeObject name) name := ⟨rfl, rfl⟩

section Fields

variable {σ : Type} (s : σ)

theorem run_fieldStringGet {j : JsonObject} {k v : CString} (h : j.lookup k = some (.string v))
    (hv : v ≠ []) : (fieldStringGet j k).run s = .ok v s := by
  simp [fieldStringGet, h, hv]

theorem run_fieldStringAssert {j : JsonObject} {k v : CString}
    (h : j.lookup k = some (.string v)) (hv : v ≠ []) :
    (fieldStringAssert j k v).run s = .ok () s := by
  simp [fieldStringAssert, run_fieldStringGet s h hv]

end Fields

/-! ## Selecting -/

/-- A state of the selectors of Clash. `GLOBAL` points at a node or at a group, and each group at
one of its members. -/
structure Selection (config : Content) where
  global : CString
  chosen : CString → CString
  global_mem : global ∈ nodeNames config ∨ ∃ g ∈ groups config, g.1 = global
  chosen_mem : ∀ g ∈ groups config, chosen g.1 ∈ g.2

namespace Selection

variable {config : Content} (sel : Selection config)

/-- The node that is reached by following the selection. -/
def node : CString :=
  if ∃ g ∈ groups config, g.1 = sel.global then sel.chosen sel.global else sel.global

/-- What Clash answers when it is asked for a proxy: for a name that it does not know, an object
without a name. -/
def Answers (name : CString) (answer : Option JsonObject) : Prop :=
  if name = utf8 "GLOBAL" then
    ∃ j, answer = some j ∧ IsSelector j name sel.global
  else if ∃ g ∈ groups config, g.1 = name then
    ∃ j, answer = some j ∧ IsSelector j name (sel.chosen name)
  else if name ∈ nodeNames config then
    ∃ j, answer = some j ∧ IsNode j name
  else ∀ j, answer = some j → j.lookup (utf8 "name") = none

/-- Such answers with few fields. -/
def answer (name : CString) : Option JsonObject :=
  if name = utf8 "GLOBAL" then
    some (selectorObject name sel.global)
  else if ∃ g ∈ groups config, g.1 = name then
    some (selectorObject name (sel.chosen name))
  else if name ∈ nodeNames config then
    some (nodeObject name)
  else some [(utf8 "message", .string (utf8 "Resource not found"))]

theorem answers_answer (name : CString) : sel.Answers name (sel.answer name) := by
  unfold Answers answer
  split
  · exact ⟨_, rfl, isSelector_selectorObject _ _⟩
  split
  · exact ⟨_, rfl, isSelector_selectorObject _ _⟩
  split
  · exact ⟨_, rfl, isNode_nodeObject _⟩
  · intro j hj
    cases hj
    rfl

end Selection

/-- A path segment that libcurl, unless told otherwise, removes from a URL. -/
def IsDot (name : CString) : Prop := name = utf8 "." ∨ name = utf8 ".."

instance (name : CString) : Decidable (IsDot name) := by
  unfold IsDot
  infer_instance

/-- Transfers from a Clash whose selectors are in the state `sel`. Below `/proxies/` it answers
for the proxy with the percent-encoded name. A segment `.` or `..` at the end of a path does not
get there: libcurl removes it and asks for `/proxies/` or `/`, whose answers have no field
`name`. -/
structure Serves {config : Content} (http : CString → Option JsonObject)
    (sel : Selection config) : Prop where
  http_encode : ∀ name, name ≠ [] → ¬ IsDot name →
    sel.Answers name (http (proxiesUrl ++ PercentEncoding.encode name))
  http_dot : ∀ name j, IsDot name → http (proxiesUrl ++ name) = some j →
    j.lookup (utf8 "name") = none

/-! ## Following the selection -/

/-- Names that keep the proxies of a configuration apart, as Clash demands. -/
structure Distinct (config : Content) : Prop where
  nodup : (nodeNames config).Nodup
  ne_nil : ∀ name ∈ nodeNames config, name ≠ []
  ne_global : ∀ name ∈ nodeNames config, name ≠ utf8 "GLOBAL"
  ne_title : ∀ name ∈ nodeNames config, ∀ g ∈ groups config, g.1 ≠ name

/-- Groups with members among the proxies and with ordinary titles. -/
structure Grouped (config : Content) : Prop where
  mem : ∀ g ∈ groups config, ∀ s ∈ g.2, s ∈ nodeNames config
  title_ne_nil : ∀ g ∈ groups config, g.1 ≠ []
  title_ne_global : ∀ g ∈ groups config, g.1 ≠ utf8 "GLOBAL"
  not_isDot_title : ∀ g ∈ groups config, ¬ IsDot g.1

namespace Selection

variable {config : Content} (sel : Selection config)

/-- Following the selection ends at a node. -/
theorem node_mem (hgrouped : Grouped config) : sel.node ∈ nodeNames config := by
  unfold node
  split
  next h =>
    obtain ⟨g, hg, hglobal⟩ := h
    rw [← hglobal]
    exact hgrouped.mem g hg _ (sel.chosen_mem g hg)
  next h => exact sel.global_mem.resolve_right h

variable {sel} {answer : Option JsonObject}

theorem Answers.global (h : sel.Answers (utf8 "GLOBAL") answer) :
    ∃ j, answer = some j ∧ IsSelector j (utf8 "GLOBAL") sel.global := by
  rwa [Answers, if_pos rfl] at h

theorem Answers.title {g : CString × List CString} (h : sel.Answers g.1 answer)
    (hgrouped : Grouped config) (hg : g ∈ groups config) :
    ∃ j, answer = some j ∧ IsSelector j g.1 (sel.chosen g.1) := by
  rwa [Answers, if_neg (hgrouped.title_ne_global g hg), if_pos ⟨g, hg, rfl⟩] at h

theorem Answers.node {name : CString} (h : sel.Answers name answer) (hdistinct : Distinct config)
    (hname : name ∈ nodeNames config) : ∃ j, answer = some j ∧ IsNode j name := by
  have htitle : ¬ ∃ g ∈ groups config, g.1 = name := by
    rintro ⟨g, hg, h⟩
    exact hdistinct.ne_title name hname g hg h
  rwa [Answers, if_neg (hdistinct.ne_global name hname), if_neg htitle, if_pos hname] at h

end Selection

section Now

variable {σ : Type} {config : Content} {sel : Selection config}
  {http : CString → Option JsonObject} (hserves : Serves http sel) (s : σ)

include hserves

omit hserves in
theorem run_jsonGet_of_some {name : CString} (hname : name ≠ []) {j : JsonObject}
    (hj : http (proxiesUrl ++ PercentEncoding.encode name) = some j) :
    (jsonGet http (some name) : Prog σ JsonObject).run s = .ok j s := by
  have hencode : PercentEncoding.encode name ≠ [] := PercentEncoding.encode_ne_nil hname
  simp [jsonGet, urlOf, objectAt, hencode, hj]

/-- Asking for a name that libcurl removes from the path fails an assertion. -/
theorem run_jsonGet_of_isDot {name : CString} (hdot : IsDot name) {β : Type}
    (k : JsonObject → Prog σ β) :
    (do let j ← jsonGet http (some name); fieldStringAssert j (utf8 "name") name; k j
      : Prog σ β).run s = .error .assertion s := by
  -- dots are not encoded
  have hencode : PercentEncoding.encode name = name := by
    rcases hdot with rfl | rfl
    · decide
    · decide
  have hne : name ≠ [] := by
    rcases hdot with rfl | rfl
    · decide
    · decide
  cases hj : http (proxiesUrl ++ name) with
  | none => simp [jsonGet, urlOf, objectAt, hencode, hne, hj]
  | some j =>
    have hfield := hserves.http_dot name j hdot hj
    simp [jsonGet, urlOf, objectAt, hencode, hne, hj, fieldStringAssert, fieldStringGet, hfield]

/-- The two fields that `now` checks in the answer about `GLOBAL`, and the one it goes on with. -/
theorem run_now_of_global {β : Type} (hne : sel.global ≠ []) (k : CString → Prog σ β) :
    (do
      let j ← jsonGet http none
      fieldStringAssert j (utf8 "name") (utf8 "GLOBAL")
      fieldStringAssert j (utf8 "type") (utf8 "Selector")
      let s ← fieldStringGet j (utf8 "now")
      k s : Prog σ β).run s = (k sel.global).run s := by
  have hencode : PercentEncoding.encode (utf8 "GLOBAL") = utf8 "GLOBAL" := by decide
  obtain ⟨j, hj, hselector⟩ := (hserves.http_encode (utf8 "GLOBAL") (by decide) (by decide)).global
  rw [hencode] at hj
  have hget : (jsonGet http none : Prog σ JsonObject).run s = .ok j s := by
    simp [jsonGet, urlOf, objectAt, hj]
  simp only [EStateM.run_bind, hget,
    run_fieldStringAssert s hselector.name (by decide : utf8 "GLOBAL" ≠ []),
    run_fieldStringAssert s hselector.type (by decide : utf8 "Selector" ≠ []),
    run_fieldStringGet s hselector.now hne]

variable (hdistinct : Distinct config)

include hdistinct

/-- Asking for a node whose name reaches Clash. -/
theorem run_jsonGet_node {name : CString} (hname : name ∈ nodeNames config)
    (hdot : ¬ IsDot name) :
    ∃ j, IsNode j name ∧ ∀ {β : Type} (k : JsonObject → Prog σ β),
      (do let j ← jsonGet http (some name); fieldStringAssert j (utf8 "name") name; k j
        : Prog σ β).run s = (k j).run s := by
  have hne := hdistinct.ne_nil _ hname
  obtain ⟨j, hj, hnode⟩ := (hserves.http_encode name hne hdot).node hdistinct hname
  refine ⟨j, hnode, fun k => ?_⟩
  simp only [EStateM.run_bind, run_jsonGet_of_some s hne hj,
    run_fieldStringAssert s hnode.name hne]

/-- `now` returns the selected node exactly if its name reaches Clash. -/
theorem run_now_iff (hgrouped : Grouped config) :
    (now http : Prog σ CString).run s = .ok sel.node s ↔ ¬ IsDot sel.node := by
  have hnode := sel.node_mem hgrouped
  have hnodeNe := hdistinct.ne_nil _ hnode
  have hselectorNe : utf8 "Selector" ≠ [] := by decide
  have hshadowsocksNe : utf8 "Shadowsocks" ≠ [] := by decide
  by_cases hglobal : ∃ g ∈ groups config, g.1 = sel.global
  · -- `GLOBAL` points at a group, and the group at the node
    have hchosen : sel.node = sel.chosen sel.global := if_pos hglobal
    obtain ⟨g, hg, htitle⟩ := hglobal
    have hne := hgrouped.title_ne_nil g hg
    obtain ⟨j, hj, hselector⟩ :=
      (hserves.http_encode g.1 hne (hgrouped.not_isDot_title g hg)).title hgrouped hg
    have hgroup := run_jsonGet_of_some s hne hj
    rw [htitle] at hgroup hne hselector
    rw [← hchosen] at hselector
    have htype : utf8 "Selector" ≠ utf8 "Shadowsocks" := by decide
    rw [now, nowWith, run_now_of_global hserves s hne]
    simp only [EStateM.run_bind, hgroup, run_fieldStringAssert s hselector.name hne,
      run_fieldStringGet s hselector.type hselectorNe,
      run_fieldStringGet s hselector.now hnodeNe,
      run_fieldStringAssert s hselector.type hselectorNe,
      htype, ne_eq, not_false_eq_true, ↓reduceIte]
    -- the last request is the one with the name of the node
    by_cases hdot : IsDot sel.node
    · have hstop := run_jsonGet_of_isDot hserves s hdot fun j => (do
        fieldStringAssert j (utf8 "type") (utf8 "Shadowsocks")
        return sel.node : Prog σ CString)
      simp only [EStateM.run_bind] at hstop
      simp only [hstop, hdot, not_true_eq_false, reduceCtorEq]
    · obtain ⟨j', hisNode, hask⟩ := run_jsonGet_node hserves s hdistinct hnode hdot
      have hask := hask fun j => (do
        fieldStringAssert j (utf8 "type") (utf8 "Shadowsocks")
        return sel.node : Prog σ CString)
      simp only [EStateM.run_bind, run_fieldStringAssert s hisNode.type hshadowsocksNe] at hask
      simp only [hask, hdot, not_false_eq_true, iff_true]
      rfl
  · -- `GLOBAL` points at the node
    have hself : sel.node = sel.global := if_neg hglobal
    rw [hself] at hnode hnodeNe ⊢
    rw [now, nowWith, run_now_of_global hserves s hnodeNe]
    by_cases hdot : IsDot sel.global
    · rw [run_jsonGet_of_isDot hserves s hdot]
      simp only [hdot, not_true_eq_false, reduceCtorEq]
    · obtain ⟨j, hisNode, hask⟩ := run_jsonGet_node hserves s hdistinct hnode hdot
      rw [hask]
      simp only [EStateM.run_bind, run_fieldStringGet s hisNode.type hshadowsocksNe, ne_eq,
        not_true_eq_false, ↓reduceIte, hdot, not_false_eq_true, iff_true]
      rfl

end Now

end Restful
