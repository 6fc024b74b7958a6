import Clash.Lib.ProgramLogic
import Clash.Restful.Defs

/-!
# The buffer of restful.c

libcurl hands the body of a response to `write_callback` piece by piece, and `buf` and `sz` grow
with it. What the pieces are makes no difference to `now`.

The server, the way a body is split and the JSON parser are parameters.

## Main definitions

* `Server`, `Split`: the other side of the transfers, and the pieces that a body comes in.
* `writeCallback`, `bufGet`, `bufDrop`, `jsonGet`, `now`: the functions, with the buffer.
* `Bodies.now`: the same without one, on whole bodies.

## Main results

* `run_deliver`: the buffer behind any number of pieces.
* `simulates_now`: `now` does on pieces what it does on whole bodies.
-/

open CProg CString

namespace Restful

/-! ## The program -/

/-- What a transfer yields: the bytes that are delivered, and whether it ends with `CURLE_OK`. -/
structure Response where
  body : List UInt8
  ok : Bool
  deriving DecidableEq, Repr

/-- The transfer succeeds, and there is a block for the body with a NUL. -/
def Response.Fits (r : Response) : Prop := r.ok = true ∧ r.body.length + 1 < 2 ^ 63

instance (r : Response) : Decidable r.Fits :=
  inferInstanceAs (Decidable (r.ok = true ∧ r.body.length + 1 < 2 ^ 63))

/-- The answer to a URL in a state of the world. -/
abbrev Server (κ : Type) := κ → CString → Response × κ

/-- The pieces of a body. -/
structure Split (body : List UInt8) where
  chunks : List (List UInt8)
  flatten : chunks.flatten = body
  ne_nil : ∀ c ∈ chunks, c ≠ []

/-- How libcurl splits the bodies, which may differ from one transfer to the next. -/
abbrev Delivery := ℕ → (body : List UInt8) → Split body

namespace Buffer

/-- A byte of memory, or none where nothing has been stored since it was allocated. -/
abbrev Cell := Option UInt8

structure State (κ : Type) where
  /-- `NULL`, or a block. -/
  buf : Option (List Cell)
  sz : ℕ
  world : κ
  /-- The transfers so far. -/
  transfers : ℕ
  deriving DecidableEq

/-- The argument `userdata`, by default the standard output. -/
inductive Userdata where
  | stdout
  | other
  deriving DecidableEq, Repr

variable {κ : Type}

/-- `assert(NULL!=(buf=realloc(buf,n)))`. There is no block of `2 ^ 63` bytes. -/
def realloc (n : ℕ) : Prog (State κ) Unit := do
  if n < 2 ^ 63 then
    modify fun s =>
      let cells := s.buf.getD []
      { s with buf := some (cells.take n ++ List.replicate (n - cells.length) none) }
  else
    modify fun s => { s with buf := none }
    throw .assertion

/-- Store some bytes from `buf+off` on. -/
def store (off : ℕ) (bs : List UInt8) : Prog (State κ) Unit := do
  let s ← get
  let cells := s.buf.getD []
  defined (off + bs.length ≤ cells.length)
  set { s with buf := some (cells.take off ++ bs.map some ++ cells.drop (off + bs.length)) }

def writeCallback (ptr : List UInt8) (size nmemb : ℕ) (userdata : Userdata) :
    Prog (State κ) ℕ := do
  assert (.stdout = userdata)
  assert (size = 1)
  assert (nmemb ≥ 1)
  realloc ((← get).sz + nmemb)
  -- `memcpy(buf+sz,ptr,nmemb)`
  defined (nmemb ≤ ptr.length)
  store (← get).sz (ptr.take nmemb)
  modify fun s => { s with sz := s.sz + nmemb }
  return nmemb

/-- libcurl hands over the pieces, and gives up when one is not taken as a whole. -/
def deliver : List (List UInt8) → Prog (State κ) Bool
  | [] => return true
  | c :: cs => do
    if (← writeCallback c 1 c.length .stdout) = c.length then
      deliver cs
    else
      return false

/-- `curl_easy_perform`. -/
def perform (server : Server κ) (delivery : Delivery) (url : CString) : Prog (State κ) Bool := do
  let s ← get
  let answer := server s.world url
  set { s with world := answer.2, transfers := s.transfers + 1 }
  let taken ← deliver (delivery s.transfers answer.1.body).chunks
  return taken && answer.1.ok

def bufGet (server : Server κ) (delivery : Delivery) (url : CString) : Prog (State κ) Unit := do
  assert ((← perform server delivery url) = true)
  modify fun s => { s with sz := s.sz + 1 }
  realloc (← get).sz
  -- `buf[sz-1]='\0'`
  store ((← get).sz - 1) [0]

def bufDrop : Prog (State κ) Unit :=
  modify fun s => { s with buf := none, sz := 0 }

/-- The string at the start of a block, if it ends within the bytes that have been stored. -/
def cstr : List Cell → Option CString
  | some c :: cells => if c = 0 then some [] else (cstr cells).map (c :: ·)
  | _ => none

end Buffer

namespace Buffer

section Program

variable {κ : Type} (server : Server κ) (delivery : Delivery) (parse : CString → Option JsonObject)

/-- `json_get` up to the place where the response is parsed. -/
def request (s : Option CString) : Prog (State κ) Unit := do
  let url ← urlOf s
  bufGet server delivery url

/-- The object in the buffer. `json_tokener_parse` reads up to a NUL. -/
def parseBuf : Prog (State κ) JsonObject := do
  match cstr ((← get).buf.getD []) with
  | none => throw .undefined
  | some text =>
    match parse text with
    | none => throw .assertion
    | some j => return j

def jsonGet (s : Option CString) : Prog (State κ) JsonObject := do
  request server delivery s
  let j ← parseBuf parse
  bufDrop
  return j

def now : Prog (State κ) CString := nowWith (jsonGet server delivery parse)

end Program

/-! ## Pieces -/

/-- There is no buffer. -/
structure Clean (s : State κ) : Prop where
  buf : s.buf = none
  sz : s.sz = 0

/-- The buffer holds the text, and nothing behind it. -/
structure Filled (text : List UInt8) (s : State κ) : Prop where
  buf : s.buf.getD [] = text.map some
  sz : s.sz = text.length

/-- The buffer is a block with the body and a NUL. -/
structure Exact (body : List UInt8) (s : State κ) : Prop where
  buf : s.buf = some ((body ++ [0]).map some)
  sz : s.sz = body.length + 1

variable {κ : Type} {s s' : State κ} {text c body : List UInt8} {chunks : List (List UInt8)}

theorem Clean.filled (h : Clean s) : Filled [] s := by
  refine ⟨?_, h.sz⟩
  rw [h.buf]
  rfl

/-- The block grows by cells that nothing has been stored in. -/
theorem run_realloc (h : s.buf.getD [] = text.map some) {n : ℕ} (hle : text.length ≤ n)
    (hn : n < 2 ^ 63) :
    (realloc n).run s =
      .ok () { s with buf := some (text.map some ++ List.replicate (n - text.length) none) } := by
  have htake : (text.map some).take n = text.map (some : UInt8 → Cell) := by
    rw [List.take_of_length_le]
    rwa [List.length_map]
  rw [realloc, if_pos hn, EStateM.run_modify]
  simp only [h, htake, List.length_map]

theorem run_realloc_of_le {n : ℕ} (hn : 2 ^ 63 ≤ n) :
    (realloc n).run s = .error .assertion { s with buf := none } := by
  rw [realloc, if_neg (by omega)]
  rfl

/-- Bytes are stored behind the text, in as many cells as there are. -/
theorem run_store (hbuf : s.buf = some (text.map some ++ List.replicate c.length none)) :
    (store text.length c).run s = .ok () { s with buf := some ((text ++ c).map some) } := by
  have hdefined : text.length + c.length ≤ (s.buf.getD []).length := by
    simp [hbuf]
  rw [store, EStateM.run_bind, EStateM.run_get]
  dsimp only
  rw [EStateM.run_bind, run_defined_of_true hdefined]
  simp [hbuf, List.drop_append]

/-- `write_callback` adds a piece. -/
theorem run_writeCallback (h : Filled text s) (hc : c ≠ [])
    (hn : text.length + c.length < 2 ^ 63) :
    (writeCallback c 1 c.length .stdout).run s =
      .ok c.length { s with
        buf := some ((text ++ c).map some)
        sz := text.length + c.length } := by
  have hpos : c.length ≥ 1 := List.length_pos_of_ne_nil hc
  have hrealloc := run_realloc h.buf (Nat.le_add_right _ c.length) hn
  rw [Nat.add_sub_cancel_left] at hrealloc
  rw [writeCallback, run_assert_bind, if_pos rfl, run_assert_bind, if_pos rfl, run_assert_bind,
    if_pos hpos, EStateM.run_bind, EStateM.run_get]
  dsimp only
  rw [h.sz, EStateM.run_bind, hrealloc]
  dsimp only
  rw [EStateM.run_bind, run_defined_of_true le_rfl]
  dsimp only
  rw [EStateM.run_bind, EStateM.run_get]
  dsimp only
  rw [List.take_length, h.sz, EStateM.run_bind, run_store rfl]
  simp

theorem run_writeCallback_of_le (h : Filled text s) (hc : c ≠ [])
    (hn : 2 ^ 63 ≤ text.length + c.length) :
    (writeCallback c 1 c.length .stdout).run s = .error .assertion { s with buf := none } := by
  have hpos : c.length ≥ 1 := List.length_pos_of_ne_nil hc
  rw [writeCallback, run_assert_bind, if_pos rfl, run_assert_bind, if_pos rfl, run_assert_bind,
    if_pos hpos, EStateM.run_bind, EStateM.run_get]
  dsimp only
  rw [EStateM.run_bind, run_realloc_of_le (by rwa [h.sz])]

/-- All pieces are taken, unless there is no block for them. -/
theorem run_deliver (h : Filled text s) (hchunks : ∀ c ∈ chunks, c ≠ []) :
    (∃ s', (deliver chunks).run s = .ok true s' ∧ Filled (text ++ chunks.flatten) s' ∧
      s'.world = s.world) ∨
    2 ^ 63 ≤ text.length + chunks.flatten.length ∧
      ∃ s', (deliver chunks).run s = .error .assertion s' ∧ s'.world = s.world := by
  induction chunks generalizing text s with
  | nil =>
    rw [List.flatten_nil, List.append_nil]
    exact .inl ⟨s, rfl, h, rfl⟩
  | cons c chunks ih =>
    rw [List.forall_mem_cons] at hchunks
    rw [deliver, EStateM.run_bind, List.flatten_cons, List.length_append]
    rcases Nat.lt_or_ge (text.length + c.length) (2 ^ 63) with hn | hn
    · -- the piece is taken, and the buffer is filled up to its end
      rw [run_writeCallback h hchunks.1 hn]
      dsimp only
      rw [if_pos rfl, ← List.append_assoc, ← Nat.add_assoc, ← List.length_append]
      exact ih ⟨rfl, rfl⟩ hchunks.2
    · -- `realloc` fails, whatever is still to come
      rw [run_writeCallback_of_le h hchunks.1 hn]
      exact .inr ⟨by omega, _, rfl, rfl⟩

/-! ## Transfers -/

/-- The body of a response is delivered as a whole, unless there is no block for it. -/
theorem run_perform (server : Server κ) (delivery : Delivery) (url : CString) (h : Clean s) :
    (∃ s', (perform server delivery url).run s =
        .ok (server s.world url).1.ok s' ∧
      Filled (server s.world url).1.body s' ∧
      s'.world = (server s.world url).2) ∨
    2 ^ 63 ≤ (server s.world url).1.body.length ∧
      ∃ s', (perform server delivery url).run s = .error .assertion s' ∧
        s'.world = (server s.world url).2 := by
  have hfilled : Filled []
      { s with world := (server s.world url).2, transfers := s.transfers + 1 } :=
    ⟨h.filled.buf, h.filled.sz⟩
  -- the pieces are appended to a buffer that is empty
  have hdeliver := run_deliver hfilled (delivery s.transfers (server s.world url).1.body).ne_nil
  rw [Split.flatten, List.nil_append, List.length_nil, Nat.zero_add] at hdeliver
  rw [perform, EStateM.run_bind, EStateM.run_get]
  dsimp only
  rw [EStateM.run_bind, EStateM.run_set]
  dsimp only
  rw [EStateM.run_bind]
  rcases hdeliver with ⟨s', hrun, hfilled', hworld⟩ | ⟨hn, s', hrun, hworld⟩
  · rw [hrun]
    exact .inl ⟨s', rfl, hfilled', hworld⟩
  · rw [hrun]
    exact .inr ⟨hn, s', rfl, hworld⟩

/-- The NUL behind the text. -/
theorem run_terminate (h : s.buf.getD [] = text.map some) (hsz : s.sz = text.length + 1)
    (hn : text.length + 1 < 2 ^ 63) :
    (do
      realloc (← get).sz
      store ((← get).sz - 1) [0] : Prog (State κ) Unit).run s =
        .ok () { s with buf := some ((text ++ [0]).map some) } := by
  have hrealloc := run_realloc h (Nat.le_succ _) hn
  rw [Nat.succ_sub (Nat.le_refl _), Nat.sub_self] at hrealloc
  rw [EStateM.run_bind, EStateM.run_get]
  dsimp only
  rw [hsz, EStateM.run_bind, hrealloc]
  dsimp only
  rw [EStateM.run_bind, EStateM.run_get]
  dsimp only
  rw [hsz, Nat.add_sub_cancel]
  exact run_store rfl

/-- A response that fits is in the buffer, and any other one fails an assertion. -/
theorem run_bufGet (server : Server κ) (delivery : Delivery) (url : CString) (h : Clean s) :
    ((server s.world url).1.Fits ∧
      ∃ s', (bufGet server delivery url).run s = .ok () s' ∧
        Exact (server s.world url).1.body s' ∧ s'.world = (server s.world url).2) ∨
    ¬ (server s.world url).1.Fits ∧
      ∃ s', (bufGet server delivery url).run s = .error .assertion s' ∧
        s'.world = (server s.world url).2 := by
  rw [bufGet, EStateM.run_bind]
  rcases run_perform server delivery url h with
    ⟨s₁, hrun, hfilled, hworld⟩ | ⟨hn, s₁, hrun, hworld⟩
  swap
  · -- a body that there is no block for does not fit with its NUL either
    rw [hrun]
    refine .inr ⟨fun hfits => ?_, s₁, rfl, hworld⟩
    have hlt := hfits.2
    omega
  rw [hrun]
  dsimp only
  rw [run_assert_bind]
  -- `curl_easy_perform` reports how the transfer has ended
  by_cases hok : (server s.world url).1.ok = true
  swap
  · rw [if_neg hok]
    exact .inr ⟨fun hfits => hok hfits.1, s₁, rfl, hworld⟩
  rw [if_pos hok, EStateM.run_bind, EStateM.run_modify]
  dsimp only
  -- and one more byte is asked for, for the NUL
  by_cases hn : (server s.world url).1.body.length + 1 < 2 ^ 63
  · have hsz := congrArg (· + 1) hfilled.sz
    refine .inl ⟨⟨hok, hn⟩, _, run_terminate hfilled.buf hsz hn, ⟨rfl, hsz⟩, hworld⟩
  · rw [EStateM.run_bind, EStateM.run_get]
    dsimp only
    rw [EStateM.run_bind, hfilled.sz, run_realloc_of_le (Nat.le_of_not_lt hn)]
    exact .inr ⟨fun hfits => hn hfits.2, _, rfl, hworld⟩

/-- Behind a block with a body and a NUL, the string is read up to the first NUL. -/
theorem cstr_eq (body : List UInt8) :
    cstr ((body ++ [0]).map some) = some (ofBlock (body ++ [0])) := by
  induction body with
  | nil => rfl
  | cons b body ih =>
    rw [List.cons_append, List.map_cons, cstr, ih]
    by_cases hb : b = 0
    · simp [ofBlock, hb]
    · simp [ofBlock, hb]

theorem run_parseBuf (parse : CString → Option JsonObject) (h : Exact body s) :
    (parseBuf parse).run s =
      match parse (ofBlock (body ++ [0])) with
      | none => .error .assertion s
      | some j => .ok j s := by
  rw [parseBuf, EStateM.run_bind, EStateM.run_get]
  dsimp only
  rw [h.buf, Option.getD_some, cstr_eq]
  dsimp only
  cases parse (ofBlock (body ++ [0])) with
  | none => rfl
  | some j => rfl

end Buffer

/-! ## Whole bodies -/

namespace Bodies

variable {κ : Type} (server : Server κ) (parse : CString → Option JsonObject)

/-- The body of the response, if it fits. -/
def fetch (url : CString) : Prog κ (List UInt8) := do
  let w ← get
  let answer := server w url
  set answer.2
  assert answer.1.Fits
  return answer.1.body

theorem run_fetch (url : CString) (w : κ) :
    (fetch server url).run w =
      if (server w url).1.Fits then .ok (server w url).1.body (server w url).2
      else .error .assertion (server w url).2 := by
  rw [fetch, EStateM.run_bind, EStateM.run_get]
  dsimp only
  rw [EStateM.run_bind, EStateM.run_set]
  dsimp only
  rw [run_assert_bind]
  rfl

def jsonGet (s : Option CString) : Prog κ JsonObject := do
  let url ← urlOf s
  let body ← fetch server url
  match parse (ofBlock (body ++ [0])) with
  | none => throw .assertion
  | some j => return j

def now : Prog κ CString := nowWith (jsonGet server parse)

end Bodies

section Simulation

variable {κ σ τ : Type} {P : σ → Prop} {get : σ → τ}

theorem simulates_fieldStringGet (j : JsonObject) (k : CString) :
    Simulates P get (fieldStringGet j k) (fieldStringGet j k) := by
  unfold fieldStringGet
  split
  · exact (simulates_assert _).bind fun _ => simulates_pure _
  · exact simulates_throw _

theorem simulates_fieldStringAssert (j : JsonObject) (k v : CString) :
    Simulates P get (fieldStringAssert j k v) (fieldStringAssert j k v) :=
  (simulates_fieldStringGet j k).bind fun _ => simulates_assert _

theorem simulates_urlOf (s : Option CString) : Simulates P get (urlOf s) (urlOf s) := by
  cases s with
  | none => exact simulates_pure _
  | some s => exact (simulates_assert _).bind fun _ => simulates_pure _

/-- `now` does the same for two ways to get the objects that do the same. -/
theorem simulates_nowWith {f : Option CString → Prog σ JsonObject}
    {g : Option CString → Prog τ JsonObject} (h : ∀ s, Simulates P get (f s) (g s)) :
    Simulates P get (nowWith f) (nowWith g) := by
  have hfield (j : JsonObject) (k v : CString) :
      Simulates P get (fieldStringAssert j k v) (fieldStringAssert j k v) :=
    simulates_fieldStringAssert j k v
  refine (h none).bind fun j => (hfield j _ _).bind fun _ => (hfield j _ _).bind fun _ => ?_
  refine (simulates_fieldStringGet j _).bind fun s => (h (some s)).bind fun j => ?_
  refine (hfield j _ _).bind fun _ => (simulates_fieldStringGet j _).bind fun type => ?_
  refine Simulates.ite ?_ (simulates_pure s)
  refine (hfield j _ _).bind fun _ => (simulates_fieldStringGet j _).bind fun s => ?_
  refine (h (some s)).bind fun j => (hfield j _ _).bind fun _ => (hfield j _ _).bind fun _ => ?_
  exact simulates_pure s

namespace Buffer

variable (server : Server κ) (delivery : Delivery) (parse : CString → Option JsonObject)

/-- `json_get` on pieces does what it does on whole bodies, and drops the buffer. -/
theorem simulates_jsonGet (s : Option CString) :
    Simulates Clean State.world (jsonGet server delivery parse s)
      (Bodies.jsonGet server parse s) := by
  have hrequest : jsonGet server delivery parse s =
      (urlOf s >>= fun url => bufGet server delivery url >>= fun _ => do
        let j ← parseBuf parse
        bufDrop
        return j) := by
    rw [jsonGet, request, bind_assoc]
  rw [hrequest]
  refine (simulates_urlOf s).bind fun url t ht => ?_
  rw [EStateM.run_bind, EStateM.run_bind, Bodies.run_fetch]
  rcases run_bufGet server delivery url ht with
    ⟨hfits, t', hrun, hexact, hworld⟩ | ⟨hfits, t', hrun, hworld⟩
  · -- both parse the same text, and the buffer is dropped behind it
    rw [hrun, if_pos hfits, ← hworld]
    dsimp only
    rw [EStateM.run_bind, run_parseBuf parse hexact]
    cases parse (ofBlock ((server t.world url).1.body ++ [0])) with
    | none => rfl
    | some j => exact ⟨rfl, rfl, rfl⟩
  · rw [hrun, if_neg hfits, ← hworld]

theorem simulates_now :
    Simulates Clean State.world (now server delivery parse) (Bodies.now server parse) :=
  simulates_nowWith (simulates_jsonGet server delivery parse)

end Buffer

end Simulation

/-- On a server that has one answer for each URL, this is the program without transfers. -/
theorem bodies_now_eq_now {κ : Type} (http : CString → Response)
    (parse : CString → Option JsonObject) :
    (Bodies.now (fun w url => (http url, w)) parse : Prog κ CString) =
      now fun url =>
        if (http url).Fits then parse (ofBlock ((http url).body ++ [0])) else none := by
  -- the answer does not depend on the world, so one request is like another
  have hget (s : Option CString) :
      (Bodies.jsonGet (fun w url => (http url, w)) parse s : Prog κ JsonObject) =
        jsonGet (fun url =>
          if (http url).Fits then parse (ofBlock ((http url).body ++ [0])) else none) s := by
    rw [jsonGet, Bodies.jsonGet]
    congr 1
    funext url w
    show EStateM.run _ w = EStateM.run _ w
    rw [EStateM.run_bind, Bodies.run_fetch]
    dsimp only [objectAt]
    by_cases hfits : (http url).Fits
    · rw [if_pos hfits, if_pos hfits]
      dsimp only
      cases parse (ofBlock ((http url).body ++ [0])) with
      | none => rfl
      | some j => rfl
    · rw [if_neg hfits, if_neg hfits]
      rfl
  rw [Bodies.now, now, funext hget]

namespace Buffer

section Runs

variable {κ : Type} (server : Server κ) (delivery : Delivery) (parse : CString → Option JsonObject)

/-- The state at the start of the program. -/
def start (w : κ) : State κ where
  buf := none
  sz := 0
  world := w
  transfers := 0

/-- A row of calls of `json_get`. -/
def calls (row : List (Option CString)) : Prog (State κ) Unit :=
  row.forM fun s => do
    let _ ← jsonGet server delivery parse s

theorem clean_start (w : κ) : Clean (start w) := ⟨rfl, rfl⟩

/-- Behind a row of calls there is no buffer. -/
theorem clean_of_run_calls {row : List (Option CString)} {w : κ} {s : State κ}
    (h : (calls server delivery parse row).run (start w) = .ok () s) : Clean s := by
  have hkeeps : Keeps Clean (fun _ => True) (calls server delivery parse row) :=
    Keeps.forM fun c =>
      (simulates_jsonGet server delivery parse c).keeps.bind fun _ => keeps_pure _
  exact hkeeps.of_ok (clean_start w) h

theorem eq_of_run_urlOf {c : Option CString} {url : CString} {s s' : State κ}
    (h : (urlOf c : Prog (State κ) CString).run s = .ok url s') : s' = s := by
  cases c with
  | none =>
    cases h
    rfl
  | some c =>
    obtain ⟨_, s₁, hassert, h⟩ := run_bind_eq_ok.mp h
    obtain ⟨-, rfl⟩ := run_assert_eq_ok.mp hassert
    cases h
    rfl

/-- At the place where a response is parsed, the buffer holds its body and a NUL. -/
theorem exact_of_run_request {c : Option CString} {s s' : State κ} (hs : Clean s)
    (h : (request server delivery c).run s = .ok () s') :
    ∃ url, (urlOf c : Prog (State κ) CString).run s = .ok url s ∧
      Exact (server s.world url).1.body s' := by
  obtain ⟨url, s₁, hurl, hget⟩ := run_bind_eq_ok.mp h
  obtain rfl := eq_of_run_urlOf hurl
  refine ⟨url, hurl, ?_⟩
  rcases run_bufGet server delivery url hs with ⟨-, t, hrun, hexact, -⟩ | ⟨-, t, hrun, -⟩
  · cases hget.symm.trans hrun
    exact hexact
  · cases hget.symm.trans hrun

/-- A row of calls on pieces does what it does on whole bodies. -/
theorem simulates_calls (row : List (Option CString)) :
    Simulates Clean State.world (calls server delivery parse row)
      (row.forM fun s => do
        let _ ← Bodies.jsonGet server parse s) :=
  Simulates.forM fun s => (simulates_jsonGet server delivery parse s).bind fun _ => simulates_pure _

/-- For every row of calls: where the next response is parsed, the buffer holds its body and a NUL,
and the parser sees this body if there is no NUL in it. Behind the calls there is no buffer. And
`now` comes to the same, whatever the pieces are. -/
theorem buffer_correct (w : κ) (row : List (Option CString)) :
    (∀ s₁ c s₂, (calls server delivery parse row).run (start w) = .ok () s₁ →
      (request server delivery c).run s₁ = .ok () s₂ →
        ∃ url, (urlOf c : Prog (State κ) CString).run s₁ = .ok url s₁ ∧
          Exact (server s₁.world url).1.body s₂ ∧
          (0 ∉ (server s₁.world url).1.body →
            cstr (s₂.buf.getD []) = some (server s₁.world url).1.body)) ∧
    (∀ s₁, (calls server delivery parse row).run (start w) = .ok () s₁ →
      s₁.buf = none ∧ s₁.sz = 0) ∧
    ∀ delivery',
      outcome State.world
          ((do calls server delivery parse row; now server delivery parse).run (start w)) =
        outcome State.world
          ((do calls server delivery' parse row; now server delivery' parse).run (start w)) := by
  refine ⟨?_, ?_, fun delivery' => ?_⟩
  · intro s₁ c s₂ hrow hrequest
    obtain ⟨url, hurl, hexact⟩ :=
      exact_of_run_request server delivery (clean_of_run_calls server delivery parse hrow) hrequest
    refine ⟨url, hurl, hexact, fun hnul => ?_⟩
    rw [hexact.buf, Option.getD_some, cstr_eq, ofBlock_append_nul hnul]
  · intro s₁ hrow
    have hclean := clean_of_run_calls server delivery parse hrow
    exact ⟨hclean.buf, hclean.sz⟩
  · -- both come to what whole bodies come to
    have hsimulates (d : Delivery) := (simulates_calls server d parse row).bind fun _ =>
      simulates_now server d parse
    exact ((hsimulates delivery).outcome_eq (clean_start w)).trans
      ((hsimulates delivery').outcome_eq (clean_start w)).symm

/-- Every body is delivered byte by byte. -/
def byteByByte : Delivery := fun _ body =>
  { chunks := body.map fun b => [b]
    flatten := by
      induction body with
      | nil => rfl
      | cons b body ih => rw [List.map_cons, List.flatten_cons, ih, List.singleton_append]
    ne_nil := by
      intro c hc
      obtain ⟨b, -, rfl⟩ := List.mem_map.mp hc
      exact List.cons_ne_nil b [] }

/-- A server whose second answer is shorter than the first one. -/
def sampleServer : Server ℕ := fun n _ =>
  (⟨if n = 0 then utf8 "[{}]" else utf8 "{}", true⟩, n + 1)

/-- `buffer_correct` behind one call. -/
theorem buffer_correct_sampleServer :
    ∃ s₁ s₂, (calls sampleServer byteByByte (fun _ => some []) [none]).run (start 0) = .ok () s₁ ∧
      (request sampleServer byteByByte none).run s₁ = .ok () s₂ ∧
      s₂.buf = some ((utf8 "{}" ++ [0]).map some) := by
  have hrow : (calls sampleServer byteByByte (fun _ => some []) [none]).run (start 0) =
      .ok () ⟨none, 0, 1, 1⟩ := by decide +kernel
  have hrequest : (request sampleServer byteByByte none).run ⟨none, 0, 1, 1⟩ =
      .ok () ⟨some [some 123, some 125, some 0], 3, 2, 2⟩ := by decide +kernel
  obtain ⟨url, -, hexact, -⟩ := (buffer_correct sampleServer byteByByte (fun _ => some []) 0
    [none]).1 _ none _ hrow hrequest
  exact ⟨_, _, hrow, hrequest, hexact.buf⟩

end Runs

end Buffer

end Restful
