import Clash.Convert.Defs

/-!
# What convert.c emits

The content of the emitted configuration, and for each emitting function the content whose
events it appends. `headerEntries`, `nodeContent` and `groupContent` say what the header, a kept
node and a group look like; `configContent` is the whole document.
-/

open CProg CString Yaml

namespace Convert

/-- A node as `emit_node` writes it. -/
def nodeContent (n : Node) (shared : Credentials) : Content :=
  .mapping [
    (utf8 "name", .scalar n.name),
    (utf8 "type", .scalar (utf8 "ss")),
    (utf8 "server", .scalar n.server),
    (utf8 "port", .scalar shared.port),
    (utf8 "cipher", .scalar shared.cipher),
    (utf8 "password", .scalar shared.password),
    (utf8 "udp", .scalar (utf8 "true"))]

/-- A group with its title and members. -/
def groupContent (title : CString) (members : List CString) : Content :=
  .mapping [
    (utf8 "name", .scalar title),
    (utf8 "type", .scalar (utf8 "select")),
    (utf8 "proxies", .sequence (members.map .scalar))]

/-- The general settings that `emitter_begin` writes. -/
def headerEntries : List (CString × Content) := [
  (utf8 "port", .scalar (utf8 "8080")),
  (utf8 "socks-port", .scalar (utf8 "1080")),
  (utf8 "allow-lan", .scalar (utf8 "true")),
  (utf8 "bind-address", .scalar (utf8 "*")),
  (utf8 "mode", .scalar (utf8 "global")),
  (utf8 "log-level", .scalar (utf8 "info")),
  (utf8 "ipv6", .scalar (utf8 "false")),
  (utf8 "external-controller", .scalar (utf8 "0.0.0.0:" ++ utf8 restfulPort)),
  (utf8 "external-ui", .scalar (utf8 "/tmp/yacd-gh-pages")),
  (utf8 "secret", .scalar (utf8 "")),
  (utf8 "profile", .mapping [(utf8 "store-selected", .scalar (utf8 "true"))]),
  (utf8 "dns", .mapping [(utf8 "enable", .scalar (utf8 "false"))])]

/-- The whole configuration: the nodes with their shared fields, and the titles and members of
the groups. -/
def configContent (nodes : List (Node × Credentials)) (groups : List (CString × List CString)) :
    Content :=
  .mapping (headerEntries ++ [
    (utf8 "proxies", .sequence (nodes.map fun n => nodeContent n.1 n.2)),
    (utf8 "proxy-groups", .sequence (groups.map fun g => groupContent g.1 g.2))])

/-- The events of a row of kept nodes. -/
def nodesEvents (nodes : List (Node × Credentials)) : List Event :=
  nodes.flatMap fun n => (nodeContent n.1 n.2).events

/-- The events of a row of groups. -/
def groupsEvents (groups : List (CString × List CString)) : List Event :=
  groups.flatMap fun g => (groupContent g.1 g.2).events

/-- The events emitted before the list of proxies. -/
def headerEvents : List Event :=
  [.streamStart, .documentStart, .mappingStart] ++ Content.entryEvents headerEntries

@[simp] theorem nodesEvents_nil : nodesEvents [] = [] := rfl

theorem nodesEvents_append (nodes nodes' : List (Node × Credentials)) :
    nodesEvents (nodes ++ nodes') = nodesEvents nodes ++ nodesEvents nodes' :=
  List.flatMap_append

/-- The stream of a configuration, in the order in which it is emitted. -/
theorem document_configContent (nodes : List (Node × Credentials))
    (groups : List (CString × List CString)) :
    (configContent nodes groups).document =
      headerEvents ++ [.scalar (utf8 "proxies"), .sequenceStart] ++ nodesEvents nodes ++
        [.sequenceEnd, .scalar (utf8 "proxy-groups"), .sequenceStart] ++ groupsEvents groups ++
        [.sequenceEnd, .mappingEnd, .documentEnd, .streamEnd] := by
  simp only [Content.document, configContent, headerEvents, nodesEvents, groupsEvents,
    Content.events, Content.entryEvents_append, Content.entryEvents, Content.itemEvents_eq_flatMap,
    List.flatMap_map, List.append_assoc, List.cons_append, List.nil_append]

section Emit

variable (st : State)

@[simp] theorem run_emit (e : Event) :
    (emit e).run st = .ok () { st with events := st.events ++ [e] } := rfl

@[simp] theorem run_emitScalar (ss : List CString) :
    (emitScalar ss).run st = .ok () { st with events := st.events ++ ss.map .scalar } := by
  induction ss generalizing st with
  | nil => simp [emitScalar]
  | cons s ss ih => simp [emitScalar, ih]

theorem run_emitterBegin :
    emitterBegin.run st = .ok () { st with events := st.events ++ headerEvents } := by
  simp [emitterBegin, headerEvents, headerEntries, Content.entryEvents, Content.events]

theorem run_emitterEnd :
    emitterEnd.run st =
      .ok () { st with events := st.events ++ [.mappingEnd, .documentEnd, .streamEnd] } := by
  simp [emitterEnd]

/-- `emit_node` writes a node with the shared fields of the globals. -/
theorem run_emitNode (n : Node) (hn : n.obfs = false) :
    (emitNode n).run st =
      .ok () { st with events := st.events ++ (nodeContent n st.plain).events } := by
  simp [emitNode, hn, nodeContent, Content.entryEvents, Content.events]

/-- An empty list gives no group. -/
theorem run_emitAndDestroyGroup_of_nil {l : GList} (hl : st.lists l = []) (title : CString) :
    (emitAndDestroyGroup title l).run st = .ok () st := by
  simp [emitAndDestroyGroup, hl]

/-- A list that is not empty becomes a group, and is emptied. -/
theorem run_emitAndDestroyGroup_of_ne_nil {l : GList} (hl : st.lists l ≠ []) (title : CString) :
    (emitAndDestroyGroup title l).run st =
      .ok () { st with
        events := st.events ++ (groupContent title (st.lists l)).events
        lists := Function.update st.lists l [] } := by
  have hmembers : Content.itemEvents ((st.lists l).map .scalar) =
      (st.lists l).map Event.scalar := by
    rw [Content.itemEvents_eq_flatMap, List.flatMap_map, List.map_eq_flatMap]
    simp only [Content.events]
  simp [emitAndDestroyGroup, hl, groupContent, Content.entryEvents, Content.events, hmembers]

end Emit

end Convert
