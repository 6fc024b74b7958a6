import Clash.Restful.Agreement
import Clash.Sip002.Program

/-!
# From the configuration to the URI

Clash runs a configuration that `clash_convert` has written, its user selects a node and presses a
key, and `clash_sip002` prints a URI. Who reads the URI gets the parameters of this node.

## Main definitions

* `Running`: a Clash with selectors that depend on the world.

## Main results

* `run_now`: `now` asks this Clash for the selection in the world.
* `main_prints_selected`: `main` returns, and each of its URIs is the one for the node that was
  selected when the key for it was pressed.
-/

open CProg CString Yaml Convert

namespace Sip002

namespace Program

open Restful (JsonObject Response Selection Serves IsDot Grouped Distinct)
open Yaml2Profile (Filled Profile headerTokens profileOf yaml2profile)

variable {κ : Type} {out : Outside κ}

/-! ## A Clash that runs -/

/-- The object in an answer. -/
def objectIn (out : Outside κ) (r : Response) : Option JsonObject :=
  if r.Fits then out.parse (ofBlock (r.body ++ [0])) else none

/-- The server is a Clash with selectors that depend on the world, and the configuration that it
runs is the one in `YAML_PATH`. Asking changes nothing. -/
structure Running (out : Outside κ) (config : Content) (sel : κ → Selection config) : Prop where
  asks : ∀ w url, (out.server w url).2 = w
  serves : ∀ w, Serves (fun url => objectIn out (out.server w url).1) (sel w)
  config : ∀ w, out.config w = ⟨config.stream, false⟩

section Now

variable {config : Content} {sel : κ → Selection config}

/-- What `now` returns is the selected node. -/
theorem run_now (hrunning : Running out config sel) (hdistinct : Distinct config)
    (hgrouped : Grouped config) {w : κ} (hdot : ¬ IsDot (sel w).node) :
    (Restful.Bodies.now out.server out.parse).run w = .ok (sel w).node w := by
  -- as long as the world is `w`, the server is one that always answers as it does in `w`
  have hget (s : Option CString) : Simulates (· = w) id
      (Restful.Bodies.jsonGet out.server out.parse s)
      (Restful.Bodies.jsonGet (fun w' url => ((out.server w url).1, w')) out.parse s) := by
    refine (Restful.simulates_urlOf s).bind fun url => ?_
    refine Simulates.bind ?_ fun body => ?_
    · intro x hx
      obtain rfl : w = x := hx.symm
      rw [Restful.Bodies.run_fetch, Restful.Bodies.run_fetch]
      by_cases hfits : (out.server w url).1.Fits
      · rw [if_pos hfits]
        exact ⟨by rw [if_pos hfits, hrunning.asks], hrunning.asks w url⟩
      · rw [if_neg hfits]
        exact by rw [if_neg hfits, hrunning.asks]
    · cases out.parse (ofBlock (body ++ [0])) with
      | none => exact simulates_throw _
      | some j => exact simulates_pure j
  have hnow := (Restful.simulates_nowWith hget).exists_of_ok (s := w) (t := w)
    (a := (sel w).node) rfl ?_
  · obtain ⟨_, hrun, -, rfl⟩ := hnow
    exact hrun
  · change (Restful.Bodies.now (fun w' url => ((out.server w url).1, w')) out.parse).run w = _
    rw [Restful.bodies_now_eq_now fun url => (out.server w url).1]
    exact (Restful.run_now_iff (hrunning.serves w) w hdistinct hgrouped).mpr hdot

end Now

/-! ## A run -/

section Run

variable {config : Content} {sel : κ → Selection config} {fuel : ℕ} {w w' : κ}
  {s : Process κ} {vs : List (Visit κ)}

/-- Where asking changes nothing, the keys are all that changes the world. -/
theorem Follows.getElem? (hkept : ∀ v : Visit κ, v.Valid out fuel → v.after = v.before)
    (h : Follows out fuel w vs w') {k : ℕ} {v : Visit κ} (hv : vs[k]? = some v) :
    v.Valid out fuel ∧ v.before = out.press^[k + 1] w := by
  induction vs generalizing w k with
  | nil => cases hv
  | cons u vs ih =>
    obtain ⟨hbefore, hvalid, hrest⟩ := h
    cases k with
    | zero =>
      cases hv
      exact ⟨hvalid, hbefore⟩
    | succ k =>
      rw [hkept u hvalid, hbefore] at hrest
      obtain ⟨hv, hworld⟩ := ih hrest hv
      exact ⟨hv, by rw [hworld, Function.iterate_succ_apply out.press (k + 1)]⟩

/-- A call returns if what it finds can be used. -/
theorem sip002_returns {tag title : CString} {p : Profile} {rest : Scanner}
    (hnow : (Restful.Bodies.now out.server out.parse).run (out.press w) = .ok title (out.press w))
    (htitle : title ≠ [])
    (hprofile : (yaml2profile out.resolv fuel false title).run (out.config (out.press w)) =
      .ok p rest)
    (hp : Encodable p tag) (hlength : uriLength p tag < 2 ^ 31)
    (hqr : ∃ q version, out.encodeString (Uri.format (uriParts p tag)) = some (q, version) ∧
      5 ≤ version) :
    Triple (fun s => Restful.Buffer.Clean s.buffer ∧ s.world = w) (sip002 out fuel (some tag))
      (fun _ s => Restful.Buffer.Clean s.buffer ∧ s.world = out.press w) fun _ => False := by
  rintro s ⟨hclean, rfl⟩
  -- the key is pressed, and `now` asks with the buffer as it is
  let pressed : Process κ := ⟨{ s.buffer with world := out.press s.world }, s.stdout⟩
  have hpressed : Restful.Buffer.Clean pressed.buffer := ⟨hclean.buf, hclean.sz⟩
  obtain ⟨buffer, hbuffer, hworld, hclean'⟩ :=
    (Restful.Buffer.simulates_now out.server out.delivery out.parse).exists_of_ok hpressed hnow
  let named : Process κ := ⟨buffer, s.stdout ++ [.title title]⟩
  -- `yaml2profile` reads the file of the world behind the key
  have hload : (loadProfile out fuel title).run named = .ok p named := by
    refine run_zoom_of_ok (t := rest) ?_
    change (yaml2profile out.resolv fuel false title).run (out.config buffer.world) = _
    rw [hworld]
    exact hprofile
  have huri : (ssUri p tag).run named = .ok (Uri.format (uriParts p tag)) named := by
    rw [run_ssUri hp, if_pos hlength]
  -- `qr_unicode` returns on every matrix
  obtain ⟨q, version, hencode, hversion⟩ := hqr
  obtain ⟨picture, hpicture⟩ : ∃ picture, (qrUnicode q).run [] = .ok () picture :=
    ⟨_, run_qrUnicode q []⟩
  have hprint (t : Process κ) : (printQr out (Uri.format (uriParts p tag))).run t =
      .ok () { t with stdout := t.stdout ++ [.qr picture] } := by
    rw [printQr, hencode]
    exact run_bind_eq_ok.mpr ⟨(), t, run_assert_of_true hversion t, run_zoom_of_ok hpicture⟩
  let linked : Process κ := ⟨buffer, named.stdout ++
    [.userinfo (p.method ++ utf8 ":" ++ p.password)] ++ [.uri (Uri.format (uriParts p tag))]⟩
  -- the steps of `sip002`, each from the state behind the one before
  have hrun : (sip002 out fuel (some tag)).run s =
      .ok () { linked with stdout := linked.stdout ++ [.qr picture] } := by
    refine run_bind_eq_ok.mpr ⟨(), pressed, rfl, ?_⟩
    refine run_bind_eq_ok.mpr ⟨title, ⟨buffer, s.stdout⟩, run_zoom_of_ok hbuffer, ?_⟩
    refine run_bind_eq_ok.mpr ⟨(), _, run_assert_of_true htitle _, ?_⟩
    refine run_bind_eq_ok.mpr ⟨(), named, rfl, run_bind_eq_ok.mpr ⟨p, named, hload, ?_⟩⟩
    refine run_bind_eq_ok.mpr ⟨_, named, huri, run_bind_eq_ok.mpr ⟨(), _, rfl, ?_⟩⟩
    exact run_bind_eq_ok.mpr ⟨(), linked, rfl, hprint linked⟩
  rw [hrun]
  exact ⟨hclean', hworld⟩

/-- The nodes can be printed: their URIs are no longer than `asprintf` prints, and each has a QR
code of a version that `sip002` accepts. -/
structure Printable (out : Outside κ) (n : Node × Credentials) (tag : CString) : Prop where
  encodable : Encodable (profileOf n) tag
  length : uriLength (profileOf n) tag < 2 ^ 31
  qr : ∃ q version,
    out.encodeString (Uri.format (uriParts (profileOf n) tag)) = some (q, version) ∧ 5 ≤ version

theorem decodeSs_format_iff {p : Profile} {tag : CString} (h : Encodable p tag) :
    decodeSs (Uri.format (uriParts p tag)) =
        some ⟨p.method, p.password, p.remoteHost, p.remotePort, tag⟩ ↔
      63 ∉ Base64.sextets (p.method ++ utf8 ":" ++ p.password) := by
  rw [← Base64.slash_mem_encode_iff]
  constructor
  · intro hdecode hslash
    rw [decodeSs, Uri.split_format_of_slash (delimited_uriParts h) hslash] at hdecode
    cases hdecode
  · exact decodeSs_format h

/-- `clash_convert` writes a configuration, Clash runs it, and its user selects a node before every
key. Then `main` returns, and it has printed for each tag the URI of the node that was selected when
the key for it was pressed. A reader of this URI gets the five values of the node and the tag
exactly if no six bits of its userinfo are all ones. -/
theorem main_prints_selected {mbCurMax fuel₀ : ℕ} {parser : Scanner} {st : Convert.State}
    (hrun : (Convert.main mbCurMax fuel₀).run (initial parser) = .ok () st) {config : Content}
    (hconfig : compose st.events = some config) {sel : κ → Selection config}
    (hrunning : Running out config sel)
    (hfilled : ∀ n ∈ emittedNodes fuel₀ parser, Filled n ∧ 1 ≤ atoi n.2.port)
    (hnodup : (namesOf (emittedNodes fuel₀ parser)).Nodup)
    (hglobal : ∀ n ∈ emittedNodes fuel₀ parser, n.1.name ≠ utf8 "GLOBAL")
    (htitle : ∀ n ∈ emittedNodes fuel₀ parser, ∀ g ∈ Restful.groups config, g.1 ≠ n.1.name)
    (hdot : ∀ n ∈ emittedNodes fuel₀ parser, ¬ IsDot n.1.name)
    (hprintable : ∀ n ∈ emittedNodes fuel₀ parser, ∀ tag ∈ tags, Printable out n tag)
    (hfuel : headerTokens.length + (emittedNodes fuel₀ parser).length + 24 < fuel)
    (hclean : Restful.Buffer.Clean s.buffer) :
    ∃ (s' : Process κ) (vs : List (Visit κ)), (main out fuel).run s = .ok () s' ∧
      s'.stdout = s.stdout ++ vs.flatMap Visit.lines ∧ vs.map Visit.tag = tags ∧
      ∀ (k : ℕ) (v : Visit κ), vs[k]? = some v →
        v.before = out.press^[k + 2] s.world ∧ v.title = (sel v.before).node ∧
        ∃ n ∈ emittedNodes fuel₀ parser, n.1.name = v.title ∧ v.profile = profileOf n ∧
          (decodeSs v.uri = some ⟨n.2.cipher, n.2.password, n.1.server, atoi n.2.port, v.tag⟩ ↔
            63 ∉ Base64.sextets (n.2.cipher ++ utf8 ":" ++ n.2.password)) := by
  obtain rfl : outputConfig fuel₀ parser = config :=
    Option.some.inj ((run_main_eq_ok hrun).1.symm.trans hconfig)
  have hdistinct :=
    Restful.distinct_outputConfig (fun n hn => (hfilled n hn).1.name) hnodup hglobal htitle
  have hgrouped := Restful.grouped_outputConfig fuel₀ parser
  -- what is found in a world
  have hnode (w : κ) : ∃ n ∈ emittedNodes fuel₀ parser, n.1.name = (sel w).node ∧
      (Restful.Bodies.now out.server out.parse).run w = .ok (sel w).node w ∧
      ∃ rest, (yaml2profile out.resolv fuel false (sel w).node).run (out.config w) =
        .ok (profileOf n) rest := by
    have hmem := (sel w).node_mem hgrouped
    rw [Restful.nodeNames_outputConfig rfl] at hmem
    obtain ⟨n, hn, hname, rest, hprofile⟩ :=
      Restful.run_yaml2profile_outputConfig hfilled hmem hfuel out.resolv
    refine ⟨n, hn, hname, run_now hrunning hdistinct hgrouped ?_, rest, ?_⟩
    · rw [← hname]
      exact hdot n hn
    · rw [hrunning.config]
      exact hprofile
  have hreturns : Triple (fun t => Restful.Buffer.Clean t.buffer) (main out fuel)
      (fun _ _ => True) fun _ => False := by
    let I (before : List CString) (t : Process κ) : Prop := Restful.Buffer.Clean t.buffer
    refine Triple.bind (Q := fun _ => I []) (fun t ht => ⟨ht.buf, ht.sz⟩) fun _ =>
      (Triple.forM ?_).imp (fun _ ht => ht) (fun _ _ _ => trivial) fun _ ht => ht
    intro before tag after htags t ht
    obtain ⟨n, hn, hname, hnow, rest, hprofile⟩ := hnode (out.press t.world)
    have htag : tag ∈ tags := by
      rw [htags]
      exact List.mem_append_right _ List.mem_cons_self
    have hne : (sel (out.press t.world)).node ≠ [] := by
      rw [← hname]
      exact (hfilled n hn).1.name
    obtain ⟨hencodable, hlength, hqr⟩ := hprintable n hn tag htag
    exact (sip002_returns hnow hne hprofile hencodable hlength hqr).imp (fun _ ht => ht)
      (fun _ _ ht => ht.1) (fun _ ht => ht) t ⟨ht, rfl⟩
  have hprints := triple_main out fuel s.world s.stdout
  cases hmain : (main out fuel).run s with
  | error e s' => exact (hreturns.of_error hclean hmain).elim
  | ok a s' =>
    obtain ⟨vs, hvs, hfollows, hstdout⟩ := hprints.of_ok ⟨hclean, rfl, rfl⟩ hmain
    refine ⟨s', vs, rfl, hstdout, hvs, fun k v hv => ?_⟩
    -- the node behind a valid visit
    have hvalid (v : Visit κ) (h : v.Valid out fuel) : v.after = v.before ∧
        v.title = (sel v.before).node ∧ ∃ n ∈ emittedNodes fuel₀ parser,
          n.1.name = v.title ∧ v.profile = profileOf n := by
      obtain ⟨n, hn, hname, hnow, rest, hprofile⟩ := hnode v.before
      have hsame := hnow.symm.trans h.now
      simp only [EStateM.Result.ok.injEq] at hsame
      obtain ⟨rest', hprofile'⟩ := h.profile
      rw [← hsame.1, ← hsame.2, hprofile] at hprofile'
      simp only [EStateM.Result.ok.injEq] at hprofile'
      exact ⟨hsame.2.symm, hsame.1.symm, n, hn, hname.trans hsame.1, hprofile'.1.symm⟩
    obtain ⟨hv', hbefore⟩ := hfollows.getElem? (fun v h => (hvalid v h).1) hv
    obtain ⟨-, htitle, n, hn, hname, hprofile⟩ := hvalid v hv'
    have htag : v.tag ∈ tags := by
      rw [← hvs]
      exact List.mem_map_of_mem (List.mem_of_getElem? hv)
    refine ⟨?_, htitle, n, hn, hname, hprofile, ?_⟩
    · rw [hbefore, ← Function.iterate_succ_apply out.press (k + 1)]
    · rw [Visit.uri, hprofile]
      exact decodeSs_format_iff (hprintable n hn v.tag htag).encodable

end Run

/-! ## A sample -/

/-- An input with a single node. -/
def relayInput : Scanner where
  tokens := documentTokens []
    (.sequence [.mapping (sampleEntry "香港 1" "ss" "node01.hongkong.relay.nodes.example.com" [])])
    [.blockEnd, .streamEnd]
  broken := false

def relayNode : Node × Credentials :=
  (⟨false, utf8 "香港 1", utf8 "node01.hongkong.relay.nodes.example.com"⟩,
    ⟨utf8 "8443", utf8 "aes-256-gcm", utf8 "secret"⟩)

theorem emittedNodes_relayInput : emittedNodes 300 relayInput = [relayNode] := by
  decide +kernel

/-- A group is selected, and in it the node. -/
def relaySelection : Selection (outputConfig 300 relayInput) where
  global := utf8 "🏴"
  chosen _ := utf8 "香港 1"
  global_mem := by
    rw [Restful.nodeNames_outputConfig emittedNodes_relayInput,
      Restful.groups_outputConfig emittedNodes_relayInput]
    decide +kernel
  chosen_mem := by
    rw [Restful.groups_outputConfig emittedNodes_relayInput]
    decide +kernel

/-- The names that Clash knows. -/
def relayNames : List CString :=
  utf8 "GLOBAL" :: ((Restful.groups (outputConfig 300 relayInput)).map Prod.fst ++
    Restful.nodeNames (outputConfig 300 relayInput))

def relayUrls : List CString :=
  relayNames.map fun name => Restful.proxiesUrl ++ PercentEncoding.encode name

/-- A light matrix of a version. -/
def lightCode (version : ℕ) : QRcode where
  width := 17 + 4 * version
  data := List.replicate ((17 + 4 * version) * (17 + 4 * version)) 0
  width_pos := by omega
  length_data := List.length_replicate

/-- The bodies of the answers name the URLs that Clash knows, and libqrencode takes the smallest
version with room for the text. -/
def relayOutside : Outside ℕ where
  server w url := (⟨if relayUrls.contains url then url else [], true⟩, w)
  delivery := Restful.Buffer.byteByByte
  parse text :=
    if text = [] then some [(utf8 "message", .string (utf8 "Resource not found"))]
    else Restful.clashHttp relaySelection text
  press w := w + 1
  config _ := ⟨(outputConfig 300 relayInput).stream, false⟩
  resolv := some
  encodeString uri :=
    if uri.length ≤ 78 then some (lightCode 4, 4)
    else if uri.length ≤ 106 then some (lightCode 5, 5)
    else if uri.length ≤ 134 then some (lightCode 6, 6)
    else none

theorem running_relayOutside :
    Running relayOutside (outputConfig 300 relayInput) fun _ => relaySelection where
  asks _ _ := rfl
  config _ := rfl
  serves w := by
    have hknown : ∀ url ∈ relayUrls, Response.Fits ⟨url, true⟩ ∧ 0 ∉ url ∧ url ≠ [] := by
      decide +kernel
    -- what the program makes of an answer
    have hobject (url : CString) : objectIn relayOutside (relayOutside.server w url).1 =
        if url ∈ relayUrls then Restful.clashHttp relaySelection url
        else some [(utf8 "message", .string (utf8 "Resource not found"))] := by
      by_cases hurl : url ∈ relayUrls
      · obtain ⟨hfits, hnul, hne⟩ := hknown url hurl
        have hserver : (relayOutside.server w url).1 = ⟨url, true⟩ := by
          simp [relayOutside, hurl]
        rw [hserver, objectIn, if_pos hfits, ofBlock_append_nul hnul, if_pos hurl]
        exact if_neg hne
      · have hserver : (relayOutside.server w url).1 = ⟨[], true⟩ := by
          simp [relayOutside, hurl]
        rw [hserver, objectIn, if_pos (by decide), if_neg hurl]
        rfl
    have hserves := Restful.serves_clashHttp relaySelection
    constructor
    · intro name hne hdot
      rw [hobject]
      by_cases hurl : Restful.proxiesUrl ++ PercentEncoding.encode name ∈ relayUrls
      · rw [if_pos hurl]
        exact hserves.http_encode name hne hdot
      · rw [if_neg hurl]
        -- a name that is not answered is none of the three kinds
        have hname : name ∉ relayNames := fun h => hurl (List.mem_map_of_mem h)
        rw [relayNames, List.mem_cons, List.mem_append, List.mem_map] at hname
        rw [Selection.Answers, if_neg fun h => hname (.inl h),
          if_neg fun h => hname (.inr (.inl h)), if_neg fun h => hname (.inr (.inr h))]
        intro j hj
        cases hj
        rfl
    · -- a dot segment is one of the URLs, or it is not answered
      intro name j hdot hj
      rw [hobject] at hj
      by_cases hurl : Restful.proxiesUrl ++ name ∈ relayUrls
      · rw [if_pos hurl] at hj
        exact hserves.http_dot name j hdot hj
      · rw [if_neg hurl] at hj
        cases hj
        rfl

/-- `main_prints_selected` for this Clash. -/
theorem main_prints_selected_relay :
    ∃ (s' : Process ℕ) (vs : List (Visit ℕ)),
      (main relayOutside 200).run ⟨Restful.Buffer.start 0, []⟩ = .ok () s' ∧
      s'.stdout = vs.flatMap Visit.lines ∧ vs.map Visit.tag = tags ∧
      ∀ (k : ℕ) (v : Visit ℕ), vs[k]? = some v →
        v.before = k + 2 ∧ v.title = utf8 "香港 1" := by
  have hreturned : returned ((Convert.main 6 300).run (initial relayInput)) = true := by
    decide +kernel
  have hrun := eq_ok_of_returned hreturned
  -- what is asked of the node
  have hone : ∀ n ∈ emittedNodes 300 relayInput,
      (n.1.name ≠ [] ∧ n.1.server ≠ [] ∧ n.2.port ≠ [] ∧ n.2.cipher ≠ [] ∧ n.2.password ≠ []) ∧
        1 ≤ atoi n.2.port ∧ n.1.name ≠ utf8 "GLOBAL" ∧ ¬ IsDot n.1.name ∧
        ∀ g ∈ Restful.groups (outputConfig 300 relayInput), g.1 ≠ n.1.name := by
    rw [Restful.groups_outputConfig emittedNodes_relayInput, emittedNodes_relayInput]
    decide +kernel
  have hfilled : ∀ n ∈ emittedNodes 300 relayInput, Filled n ∧ 1 ≤ atoi n.2.port := by
    intro n hn
    obtain ⟨⟨hname, hserver, hport, hcipher, hpassword⟩, hone, -⟩ := hone n hn
    exact ⟨⟨hname, hserver, hport, hcipher, hpassword⟩, hone⟩
  have hfuel : headerTokens.length + (emittedNodes 300 relayInput).length + 24 < 200 := by
    rw [emittedNodes_relayInput]
    decide +kernel
  have hnode : relaySelection.node = utf8 "香港 1" := by
    rw [Selection.node, Restful.groups_outputConfig emittedNodes_relayInput]
    decide +kernel
  -- the URIs are of lengths that have a picture
  have hprintable : ∀ n ∈ emittedNodes 300 relayInput, ∀ tag ∈ tags,
      Printable relayOutside n tag := by
    rw [emittedNodes_relayInput, List.forall_mem_singleton]
    intro tag htag
    have hlength : ∀ tag ∈ tags, tag ≠ [] ∧ 78 < uriLength (profileOf relayNode) tag ∧
        uriLength (profileOf relayNode) tag ≤ 134 := by
      decide +kernel
    obtain ⟨hne, hlower, hupper⟩ := hlength tag htag
    have hqr (uri : CString) (hlower : 78 < uri.length) (hupper : uri.length ≤ 134) :
        ∃ q version, relayOutside.encodeString uri = some (q, version) ∧ 5 ≤ version := by
      have hmore : ¬ uri.length ≤ 78 := by omega
      by_cases hfive : uri.length ≤ 106
      · refine ⟨lightCode 5, 5, ?_, le_rfl⟩
        simp [relayOutside, hmore, hfive]
      · refine ⟨lightCode 6, 6, ?_, by decide⟩
        simp [relayOutside, hmore, hfive, hupper]
    rw [← length_format_uriParts] at hlower hupper
    refine ⟨⟨?_, ?_, ?_, ?_, ?_, ?_, ?_, hne⟩, ?_, hqr _ hlower hupper⟩
    · decide +kernel
    · decide +kernel
    · decide +kernel
    · decide +kernel
    · decide +kernel
    · decide +kernel
    · decide +kernel
    · rw [length_format_uriParts] at hupper
      omega
  obtain ⟨s', vs, hmain, hstdout, htags, hvisits⟩ :=
    main_prints_selected (s := ⟨Restful.Buffer.start 0, []⟩) hrun
      (run_main_eq_ok hrun).1 running_relayOutside hfilled
      (by rw [emittedNodes_relayInput]; decide +kernel) (fun n hn => (hone n hn).2.2.1)
      (fun n hn => (hone n hn).2.2.2.2) (fun n hn => (hone n hn).2.2.2.1) hprintable
      hfuel (Restful.Buffer.clean_start 0)
  refine ⟨s', vs, hmain, hstdout, htags, fun k v hv => ?_⟩
  obtain ⟨hbefore, htitle, -⟩ := hvisits k v hv
  refine ⟨?_, htitle.trans hnode⟩
  -- the world counts the keys
  have hpress (n : ℕ) : relayOutside.press^[n] 0 = n := by
    induction n with
    | zero => rfl
    | succ n ih =>
      rw [Function.iterate_succ_apply', ih]
      rfl
  exact hbefore.trans (hpress (k + 2))

end Program

end Sip002
