import Clash.Restful.Buffer
import Clash.Sip002.QrUnicode
import Clash.Sip002.RoundTrip

/-!
# main of clash_sip002

The whole program: it waits for a key, asks for the node in use, looks it up, and prints its URI
and the QR code of the URI, for one tag after the other. Between two keys the user may select
another node.

The prompts, the table of `lan` and the message of `now` about a group are left out of what is
printed.

## Main definitions

* `Outside`: what the program finds, and what its user does.
* `sip002`, `main`: the functions of `main.c` over the terminal.
* `Visit`: what belongs to one tag.

## Main results

* `sip002_prints`: what one call prints.
* `main_prints`: what a run prints, whether it returns or stops.
-/

open CProg CString

namespace Sip002

namespace Program

open Restful (JsonObject)
open Yaml2Profile (Profile yaml2profile)

/-- What is printed. -/
inductive Printed where
  | title (s : CString)
  | userinfo (s : CString)
  | uri (s : CString)
  | qr (picture : CString)
  deriving DecidableEq

/-- What the program finds in a world in `κ`. -/
structure Outside (κ : Type) where
  server : Restful.Server κ
  delivery : Restful.Delivery
  /-- `json_tokener_parse`. -/
  parse : CString → Option JsonObject
  /-- The world when the next key has been pressed. -/
  press : κ → κ
  /-- The tokens of `YAML_PATH`. -/
  config : κ → Yaml.Scanner
  /-- `resolv`, which is not called here. -/
  resolv : CString → Option CString
  /-- `QRcode_encodeString`: the matrix and `version`. -/
  encodeString : CString → Option (QRcode × ℕ)

structure Process (κ : Type) where
  /-- `buf` and `sz` of `restful.c`, and the world. -/
  buffer : Restful.Buffer.State κ
  stdout : List Printed

variable {κ α : Type}

/-- The world outside of the process. -/
def Process.world (s : Process κ) : κ := s.buffer.world

def put (x : Printed) : Prog (Process κ) Unit :=
  modify fun s => { s with stdout := s.stdout ++ [x] }

variable (out : Outside κ) (fuel : ℕ)

/-- `getchar` and `__fpurge`. -/
def getchar : Prog (Process κ) Unit :=
  modify fun s => { s with buffer := { s.buffer with world := out.press s.world } }

def now : Prog (Process κ) CString :=
  zoom Process.buffer (fun buffer s => { s with buffer })
    (Restful.Buffer.now out.server out.delivery out.parse)

/-- `yaml2profile(false,&p,YAML_PATH,title)`. The parser starts anew. -/
def loadProfile (title : CString) : Prog (Process κ) Profile :=
  zoom (fun s => out.config s.world) (fun _ s => s) (yaml2profile out.resolv fuel false title)

/-- The last part of `sip002`. -/
def printQr (uri : CString) : Prog (Process κ) Unit :=
  match out.encodeString uri with
  -- `q->version` for a `q` that is `NULL`
  | none => throw .undefined
  | some (q, version) => do
    assert (5 ≤ version)
    zoom (fun _ => []) (fun picture s => { s with stdout := s.stdout ++ [.qr picture] })
      (qrUnicode q)

/-- `sip002(tagRaw)`. -/
def sip002 (tagRaw : Option CString) : Prog (Process κ) Unit := do
  if tagRaw ≠ none then getchar out
  let title ← now out
  assert (title ≠ [])
  put (.title title)
  let p ← loadProfile out fuel title
  let uri ← ssUri p (tagRaw.getD title)
  put (.userinfo (p.method ++ utf8 ":" ++ p.password))
  put (.uri uri)
  printQr out uri

/-- `lan`. -/
def lan : Prog (Process κ) Unit := getchar out

/-- The tags that `main` asks for. -/
def tags : List CString :=
  [utf8 "🇯🇵", utf8 "🇪🇺🇬🇧", utf8 "🇨🇦🇺🇸", utf8 "🇰🇷", utf8 "NON_HK"]

/-- `main`. -/
def main : Prog (Process κ) Unit := do
  lan out
  tags.forM fun tag => sip002 out fuel (some tag)

/-! ## What belongs to a tag -/

/-- What is found and printed for a tag, and the world before and behind it. -/
structure Visit (κ : Type) where
  tag : CString
  before : κ
  title : CString
  after : κ
  profile : Profile
  picture : CString

namespace Visit

variable (v : Visit κ)

def uri : CString := Uri.format (uriParts v.profile v.tag)

/-- What is printed for the tag. -/
def lines : List Printed := [
  .title v.title,
  .userinfo (v.profile.method ++ utf8 ":" ++ v.profile.password),
  .uri v.uri,
  .qr v.picture]

/-- The title is what `now` returns on whole bodies, the profile is the one with this title, and
the picture is that of the URI. -/
structure Valid : Prop where
  now : (Restful.Bodies.now out.server out.parse).run v.before = .ok v.title v.after
  profile : ∃ rest, (yaml2profile out.resolv fuel false v.title).run (out.config v.after) =
    .ok v.profile rest
  picture : ∃ q version, out.encodeString v.uri = some (q, version) ∧ 5 ≤ version ∧
    (qrUnicode q).run [] = .ok () v.picture

end Visit

/-- Visits one after the other, from one world to another. In front of each a key is pressed. -/
def Follows : κ → List (Visit κ) → κ → Prop
  | w, [], w' => w = w'
  | w, v :: vs, w' => v.before = out.press w ∧ v.Valid out fuel ∧ Follows v.after vs w'

/-- What is printed for a tag when the call stops. -/
inductive Cut (w : κ) (tag : CString) : List Printed → Prop
  | nothing : Cut w tag []
  | title {title : CString} {after : κ}
      (hnow : (Restful.Bodies.now out.server out.parse).run w = .ok title after) :
      Cut w tag [.title title]
  | uri {title : CString} {after : κ} {p : Profile} {rest : Yaml.Scanner}
      (hnow : (Restful.Bodies.now out.server out.parse).run w = .ok title after)
      (hprofile : (yaml2profile out.resolv fuel false title).run (out.config after) = .ok p rest) :
      Cut w tag [.title title, .userinfo (p.method ++ utf8 ":" ++ p.password),
        .uri (Uri.format (uriParts p tag))]

section Prints

variable {out fuel} {s : Process κ} {w w' w'' : κ} {vs : List (Visit κ)}

theorem follows_append {v : Visit κ} (h : Follows out fuel w vs w')
    (hbefore : v.before = out.press w') (hv : v.Valid out fuel) :
    Follows out fuel w (vs ++ [v]) v.after := by
  induction vs generalizing w with
  | nil =>
    obtain rfl : w = w' := h
    exact ⟨hbefore, hv, rfl⟩
  | cons u vs ih => exact ⟨h.1, h.2.1, ih h.2.2⟩

/-- `ssUri` returns no other text than the URI of the profile and the tag. -/
theorem returns_ssUri {σ : Type} (p : Profile) (tag : CString) :
    Returns (ssUri p tag : Prog σ CString) (· = Uri.format (uriParts p tag)) := by
  have hsprintf (text : CString) : Returns (sprintf text : Prog σ CString) (· = text) :=
    Returns.ite (returns_pure rfl) (returns_throw _)
  have hbase64 (size : ℕ) (src : CString) :
      Returns (base64encode size src : Prog σ CString) (· = Base64.encode src) := by
    refine Returns.bind_of (P := (· = Base64.encode src)) ?_ fun dest hdest => ?_
    · exact Returns.ite (returns_pure rfl) (returns_throw _)
    · exact Returns.bind fun _ => returns_pure hdest
  rw [format_uriParts]
  refine Returns.bind fun _ => Returns.bind_of (hsprintf _) fun raw hraw => ?_
  refine Returns.bind fun _ => Returns.bind fun _ => ?_
  refine Returns.bind_of (hbase64 _ _) fun userinfo huserinfo => ?_
  rw [huserinfo, hraw]
  exact hsprintf _

theorem inert_ssUri {σ : Type} (p : Profile) (tag : CString) :
    Inert (ssUri p tag : Prog σ CString) := by
  have hsprintf (text : CString) : Inert (sprintf text : Prog σ CString) :=
    Inert.ite (inert_pure _) (inert_throw _)
  have hstrcpy (size : ℕ) (src : CString) : Inert (strcpy size src : Prog σ CString) :=
    Inert.ite (inert_pure _) (inert_throw _)
  refine (inert_assert _).bind fun _ => (hsprintf _).bind fun raw => ?_
  refine (inert_assert _).bind fun _ => (inert_assert _).bind fun _ => ?_
  refine Inert.bind ?_ fun _ => hsprintf _
  exact (hstrcpy _ _).bind fun dest => (inert_assert _).bind fun _ => inert_pure _

variable {w : κ} {tag : CString} {printed : List Printed}

variable (out w printed) in
/-- `now` comes to what it comes to on whole bodies, and prints nothing here. -/
theorem triple_now :
    Triple (fun s => Restful.Buffer.Clean s.buffer ∧ s.world = w ∧ s.stdout = printed) (now out)
      (fun title s => (Restful.Bodies.now out.server out.parse).run w = .ok title s.world ∧
        Restful.Buffer.Clean s.buffer ∧ s.stdout = printed)
      fun s => s.stdout = printed := by
  rintro s ⟨hclean, rfl, rfl⟩
  have hnow := Restful.Buffer.simulates_now out.server out.delivery out.parse
  cases hrun : (Restful.Buffer.now out.server out.delivery out.parse).run s.buffer with
  | ok title buffer =>
    obtain ⟨hbodies, hclean'⟩ := hnow.of_ok hclean hrun
    have hzoom : (now out).run s = .ok title { s with buffer } := run_zoom_of_ok hrun
    rw [hzoom]
    exact ⟨hbodies, hclean', rfl⟩
  | error e buffer =>
    have hzoom : (now out).run s = .error e { s with buffer } := run_zoom_of_error hrun
    rw [hzoom]

/-- What one call prints. -/
theorem sip002_prints :
    Triple (fun s => Restful.Buffer.Clean s.buffer ∧ s.world = w ∧ s.stdout = printed)
      (sip002 out fuel (some tag))
      (fun _ s => ∃ v : Visit κ, v.tag = tag ∧ v.before = out.press w ∧ v.Valid out fuel ∧
        Restful.Buffer.Clean s.buffer ∧ s.world = v.after ∧ s.stdout = printed ++ v.lines)
      fun s => ∃ part, Cut out fuel (out.press w) tag part ∧ s.stdout = printed ++ part := by
  let E (s : Process κ) : Prop :=
    ∃ part, Cut out fuel (out.press w) tag part ∧ s.stdout = printed ++ part
  have hput {after : κ} {l : List Printed} (x : Printed) :
      Triple (fun s => Restful.Buffer.Clean s.buffer ∧ s.world = after ∧ s.stdout = l) (put x)
        (fun _ s => Restful.Buffer.Clean s.buffer ∧ s.world = after ∧ s.stdout = l ++ [x]) E := by
    rintro s ⟨hclean, hworld, rfl⟩
    exact ⟨hclean, hworld, rfl⟩
  have hnow := (triple_now out (out.press w) printed).imp
    (fun _ hs => hs) (fun _ _ hs => hs)
    fun s hs => (⟨[], .nothing, hs.trans (List.append_nil _).symm⟩ : E s)
  refine Triple.bind (Q := fun _ s =>
    Restful.Buffer.Clean s.buffer ∧ s.world = out.press w ∧ s.stdout = printed) ?_ fun _ => ?_
  · rintro s ⟨hclean, rfl, rfl⟩
    exact ⟨⟨hclean.buf, hclean.sz⟩, rfl, rfl⟩
  refine hnow.bind fun title => Triple.assert_bind ?_ fun _ => ?_
  · rintro s ⟨-, -, hstdout⟩
    exact ⟨[], .nothing, hstdout.trans (List.append_nil _).symm⟩
  -- the world behind `now` stays
  rintro s ⟨hbodies, hclean, hstdout⟩
  have htitle : Cut out fuel (out.press w) tag [.title title] := .title hbodies
  refine Triple.bind (hput (.title title)) (fun _ => ?_) s ⟨hclean, rfl, hstdout⟩
  refine Triple.bind (Q := fun p t => (∃ rest, (yaml2profile out.resolv fuel false title).run
      (out.config s.world) = .ok p rest) ∧ Restful.Buffer.Clean t.buffer ∧ t.world = s.world ∧
      t.stdout = printed ++ [.title title]) ?_ fun p => ?_
  · rintro t ⟨hclean, hworld, hstdout⟩
    cases hrun : (yaml2profile out.resolv fuel false title).run (out.config t.world) with
    | ok p rest =>
      have hzoom : (loadProfile out fuel title).run t = .ok p t := run_zoom_of_ok hrun
      rw [hzoom]
      rw [hworld] at hrun
      exact ⟨⟨rest, hrun⟩, hclean, hworld, hstdout⟩
    | error e rest =>
      have hzoom : (loadProfile out fuel title).run t = .error e t := run_zoom_of_error hrun
      rw [hzoom]
      exact ⟨_, htitle, hstdout⟩
  rintro t ⟨⟨rest, hprofile⟩, hclean, hworld, hstdout⟩
  have huri : Cut out fuel (out.press w) tag [.title title,
      .userinfo (p.method ++ utf8 ":" ++ p.password), .uri (Uri.format (uriParts p tag))] :=
    .uri hbodies hprofile
  refine Triple.bind ((inert_ssUri p tag).triple (P := fun t => Restful.Buffer.Clean t.buffer ∧
    t.world = s.world ∧ t.stdout = printed ++ [.title title]) (returns_ssUri p tag) ?_)
    (fun uri => ?_) t ⟨hclean, hworld, hstdout⟩
  · exact fun t ht => ⟨_, htitle, ht.2.2⟩
  rintro t ⟨rfl, hclean, hworld, hstdout⟩
  refine (hput _).bind (fun _ => (hput _).bind fun _ => ?_) t ⟨hclean, hworld, hstdout⟩
  rintro t ⟨hclean, hworld, hstdout⟩
  rw [List.append_assoc, List.append_assoc] at hstdout
  have hcut : E t := ⟨_, huri, hstdout⟩
  rw [printQr]
  cases hencode : out.encodeString (Uri.format (uriParts p tag)) with
  | none => exact hcut
  | some code =>
    obtain ⟨q, version⟩ := code
    dsimp only
    rw [run_assert_bind]
    by_cases hversion : 5 ≤ version
    · rw [if_pos hversion, run_zoom_of_ok (run_qrUnicode q [])]
      refine ⟨⟨tag, out.press w, title, s.world, p, _⟩, rfl, rfl, ⟨hbodies, ⟨rest, hprofile⟩,
        q, version, hencode, hversion, run_qrUnicode q []⟩, ⟨hclean.buf, hclean.sz⟩, hworld, ?_⟩
      change t.stdout ++ _ = _
      rw [hstdout, List.append_assoc]
      rfl
    · rw [if_neg hversion]
      exact hcut

variable (out fuel w printed) in
/-- `main` prints the lines for one tag after the other. -/
theorem triple_main :
    Triple (fun s => Restful.Buffer.Clean s.buffer ∧ s.world = w ∧ s.stdout = printed)
      (main out fuel)
      (fun _ s => ∃ vs : List (Visit κ), vs.map Visit.tag = tags ∧
        Follows out fuel (out.press w) vs s.world ∧ s.stdout = printed ++ vs.flatMap Visit.lines)
      fun s => ∃ (vs : List (Visit κ)) (tag : CString) (rest : List CString) (w' : κ)
        (part : List Printed), vs.map Visit.tag ++ tag :: rest = tags ∧
          Follows out fuel (out.press w) vs w' ∧ Cut out fuel (out.press w') tag part ∧
          s.stdout = printed ++ vs.flatMap Visit.lines ++ part := by
  let I (before : List CString) (s : Process κ) : Prop := Restful.Buffer.Clean s.buffer ∧
    ∃ vs : List (Visit κ), vs.map Visit.tag = before ∧
      Follows out fuel (out.press w) vs s.world ∧ s.stdout = printed ++ vs.flatMap Visit.lines
  refine Triple.bind (Q := fun _ => I []) ?_ fun _ => (Triple.forM ?_).imp (fun _ hs => hs)
    (fun _ _ hs => hs.2) fun _ hs => hs
  · -- `lan` waits for a key
    rintro s ⟨hclean, rfl, rfl⟩
    exact ⟨⟨hclean.buf, hclean.sz⟩, [], rfl, rfl, (List.append_nil _).symm⟩
  · rintro before tag after htags s ⟨hclean, vs, hvs, hfollows, hstdout⟩
    refine sip002_prints.imp (fun _ hs => hs) ?_ ?_ s ⟨hclean, rfl, hstdout⟩
    · rintro _ t ⟨v, htag, hbefore, hvalid, hclean, hworld, hstdout⟩
      refine ⟨hclean, vs ++ [v], ?_, ?_, ?_⟩
      · rw [List.map_append, List.map_singleton, hvs, htag]
      · rw [hworld]
        exact follows_append hfollows hbefore hvalid
      · rw [hstdout, List.flatMap_append, List.flatMap_singleton, List.append_assoc]
    · rintro t ⟨part, hcut, hstdout⟩
      exact ⟨vs, tag, after, s.world, part, by rw [hvs, htags], hfollows, hcut, hstdout⟩

variable (out fuel) in
/-- Whatever a run of `main` comes to, it has printed its lines for the first tags, each for a
profile that was in use behind the key for it, and then perhaps a part of the lines for the next
one. A run that returns has printed them for all tags. -/
theorem main_prints (w : κ) :
    ∃ (vs : List (Visit κ)) (part : List Printed) (w' : κ),
      (final ((main out fuel).run ⟨Restful.Buffer.start w, []⟩)).stdout =
        vs.flatMap Visit.lines ++ part ∧ Follows out fuel (out.press w) vs w' ∧
      (returned ((main out fuel).run ⟨Restful.Buffer.start w, []⟩) = true ∧ part = [] ∧
          vs.map Visit.tag = tags ∨
        returned ((main out fuel).run ⟨Restful.Buffer.start w, []⟩) = false ∧
          ∃ tag rest, vs.map Visit.tag ++ tag :: rest = tags ∧
            Cut out fuel (out.press w') tag part) := by
  have hmain := triple_main out fuel w []
  have hstart : Restful.Buffer.Clean (⟨Restful.Buffer.start w, []⟩ : Process κ).buffer :=
    Restful.Buffer.clean_start w
  -- a run that returns has no part left over, one that stops may have
  cases hrun : (main out fuel).run ⟨Restful.Buffer.start w, []⟩ with
  | ok a s =>
    obtain ⟨vs, htags, hfollows, hstdout⟩ := hmain.of_ok ⟨hstart, rfl, rfl⟩ hrun
    exact ⟨vs, [], s.world, by rw [final_ok, hstdout, List.append_nil]; rfl, hfollows,
      .inl ⟨rfl, rfl, htags⟩⟩
  | error e s =>
    obtain ⟨vs, tag, rest, w', part, htags, hfollows, hcut, hstdout⟩ :=
      hmain.of_error ⟨hstart, rfl, rfl⟩ hrun
    exact ⟨vs, part, w', hstdout, hfollows, .inr ⟨rfl, tag, rest, htags, hcut⟩⟩

end Prints

end Program

end Sip002
