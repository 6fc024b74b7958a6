import Clash.Lib.CString
import Clash.Lib.ProgramLogic

/-!
# privilege.c

The process runs as root with other effective ids, and takes the effective ids of root back for a
row of system calls.

Which ids a process may take is the kernel's: any with the effective user id 0, and otherwise its
real, effective and saved ones. What a system call returns is a parameter.

## Main definitions

* `Cred`: the user and group ids of the process.
* `Event`: a system call with the ids that it is made with, and the borders of `privilege_escalate`
  and `privilege_drop`.
* `privilegeEscalate`, `privilegeDrop`, `escalated`: the functions and the macro.
* `Mode`, `modeOf`: where the process is behind a row of events, and its ids, if they are in order.

## Main results

* `triple_privilegeEscalate`, `triple_privilegeDrop`: neither fails an assertion in its place.
* `keeps_escalated`: a bracket leads from outside of brackets to outside of brackets.
-/

open CProg CString

namespace Privilege

/-! ## The process -/

/-- The ids of one kind. -/
structure Ids where
  real : ℕ
  effective : ℕ
  saved : ℕ
  deriving DecidableEq, Repr

/-- The user and group ids of the process. -/
structure Cred where
  uid : Ids
  gid : Ids
  deriving DecidableEq, Repr

/-- All ids are 0. -/
def Cred.root : Cred := ⟨⟨0, 0, 0⟩, ⟨0, 0, 0⟩⟩

/-- The effective ids are those of the user. -/
def Cred.dropped : Cred := ⟨⟨0, 1000, 0⟩, ⟨0, 1000, 0⟩⟩

/-- The system and library calls that do something outside of the process. The ids are set by events
of their own. -/
inductive Call where
  | socket
  | bind
  | send (size : ℕ)
  | recv
  | openTun
  | tunsetiff
  | tunsetpersist
  | close
  | pidfdOpen (pid : ℤ)
  | pidfdSendSignal (pidfd : ℤ)
  | poll
  | usleep
  | printf
  | rename (old new : CString)
  | kill (pid : ℤ)
  /-- `pthread_kill(thread,sig)`. -/
  | pthreadKill (sig : ℕ)
  | fork
  | unlink (file : CString)
  | sleep
  | fgets
  | unsetenv (name : CString)
  | busDefaultSystem
  | busCallMethod (destination path interface method : CString) (args : List CString)
  | busFlushCloseUnref
  deriving DecidableEq

/-- What the process does. -/
inductive Event where
  /-- `privilege_escalate` is entered. -/
  | escalate
  /-- It returns. -/
  | escalated
  /-- `privilege_drop` is entered. -/
  | drop
  /-- It returns. -/
  | dropped
  /-- `seteuid`, with the ids that the process has in front of it. -/
  | seteuid (uid : ℕ) (cred : Cred)
  | setegid (gid : ℕ) (cred : Cred)
  /-- Another call, with the ids of the process. -/
  | call (c : Call) (cred : Cred)
  deriving DecidableEq

/-- The ids that a call is made with. -/
def Event.ids : Event → Option Cred
  | .seteuid _ cred | .setegid _ cred | .call _ cred => some cred
  | _ => none

/-- An entry of the password database. -/
structure Passwd where
  uid : ℕ
  gid : ℕ

/-- What the process finds. -/
structure Env where
  /-- `getpwnam(USR)`. -/
  pw : Option Passwd
  /-- The result of a call behind some events. -/
  result : List Event → Call → ℤ
  /-- `POLLIN` is in `revents`. -/
  pollin : List Event → Bool
  /-- `sd_bus_error_is_set`. -/
  errorIsSet : List Event → Bool

/-- The state: the ids, what was done so far, and the rest of the memory. -/
structure Proc (ω : Type) where
  cred : Cred
  trace : List Event
  world : ω

variable {ω : Type} {α : Type}

/-! ## Calls -/

/-- A program on the rest of the memory. -/
def lift (p : Prog ω α) : Prog (Proc ω) α :=
  zoom Proc.world (fun world s => { s with world }) p

/-- An event is added to the trace. -/
def mark (e : Event) : Prog (Proc ω) Unit := modify fun s => { s with trace := s.trace ++ [e] }

/-- A call, with its result. -/
def call (env : Env) (c : Call) : Prog (Proc ω) ℤ := do
  let s ← get
  mark (.call c s.cred)
  return env.result s.trace c

/-- An id may be set: the effective user id is 0, or the process has the id. -/
def Ids.Allows (ids : Ids) (euid id : ℕ) : Prop :=
  euid = 0 ∨ id = ids.real ∨ id = ids.effective ∨ id = ids.saved

instance (ids : Ids) (euid id : ℕ) : Decidable (ids.Allows euid id) :=
  inferInstanceAs (Decidable (_ ∨ _ ∨ _ ∨ _))

/-- `seteuid`, which the kernel allows for one of the three ids or to root. -/
def seteuid (uid : ℕ) : Prog (Proc ω) ℤ := do
  let cred := (← get).cred
  mark (.seteuid uid cred)
  if cred.uid.Allows cred.uid.effective uid then
    modify fun s => { s with cred := { cred with uid := { cred.uid with effective := uid } } }
    return 0
  return -1

/-- `setegid`, likewise. -/
def setegid (gid : ℕ) : Prog (Proc ω) ℤ := do
  let cred := (← get).cred
  mark (.setegid gid cred)
  if cred.gid.Allows cred.uid.effective gid then
    modify fun s => { s with cred := { cred with gid := { cred.gid with effective := gid } } }
    return 0
  return -1

/-- `privilege_escalate`. -/
def privilegeEscalate : Prog (Proc ω) Unit := do
  mark .escalate
  assert ((← get).cred.uid.real = 0)
  assert ((← get).cred.gid.real = 0)
  assert ((← seteuid 0) = 0)
  assert ((← setegid 0) = 0)
  mark .escalated

/-- `privilege_drop`. -/
def privilegeDrop (env : Env) : Prog (Proc ω) Unit := do
  mark .drop
  assert ((← get).cred.uid.real = 0)
  assert ((← get).cred.gid.real = 0)
  match env.pw with
  | none => throw .undefined
  | some pw =>
    assert (pw.gid = 1000 ∧ pw.uid = 1000)
    assert ((← setegid pw.gid) = 0)
    assert ((← seteuid pw.uid) = 0)
    mark .dropped

/-- `ESCALATED(X)`. -/
def escalated (env : Env) (x : Prog (Proc ω) Unit) : Prog (Proc ω) Unit := do
  privilegeEscalate
  x
  privilegeDrop env

/-! ## Brackets -/

/-- Where the process is. -/
inductive Place where
  | outside
  /-- In `privilege_escalate`. -/
  | raising
  | inside
  /-- In `privilege_drop`. -/
  | lowering
  deriving DecidableEq, Repr

/-- Where the process is, with its ids. -/
structure Mode where
  place : Place
  cred : Cred
  deriving DecidableEq

/-- The ids behind an event. -/
def Cred.after (cred : Cred) : Event → Cred
  | .seteuid uid _ =>
    if cred.uid.Allows cred.uid.effective uid then
      { cred with uid := { cred.uid with effective := uid } }
    else cred
  | .setegid gid _ =>
    if cred.gid.Allows cred.uid.effective gid then
      { cred with gid := { cred.gid with effective := gid } }
    else cred
  | _ => cred

/-- The mode behind an event, if it is in order: brackets do not nest, calls are made outside of
them with the effective ids of the user and inside with those of root, and only the borders set ids.
-/
def Mode.next (m : Mode) (e : Event) : Option Mode :=
  match m.place, e with
  | .outside, .escalate => some ⟨.raising, m.cred⟩
  | .raising, .seteuid _ _ => some ⟨.raising, m.cred.after e⟩
  | .raising, .setegid _ _ => some ⟨.raising, m.cred.after e⟩
  | .raising, .escalated => if m.cred = .root then some ⟨.inside, m.cred⟩ else none
  | .inside, .drop => some ⟨.lowering, m.cred⟩
  | .lowering, .seteuid _ _ => some ⟨.lowering, m.cred.after e⟩
  | .lowering, .setegid _ _ => some ⟨.lowering, m.cred.after e⟩
  | .lowering, .dropped => if m.cred = .dropped then some ⟨.outside, m.cred⟩ else none
  | .outside, .call _ cred => if cred = .dropped then some m else none
  | .inside, .call _ cred => if cred = .root then some m else none
  | _, _ => none

/-- What an event in order can be. -/
inductive Mode.Step : Mode → Event → Mode → Prop
  | escalate {cred : Cred} : Step ⟨.outside, cred⟩ .escalate ⟨.raising, cred⟩
  | escalated : Step ⟨.raising, .root⟩ .escalated ⟨.inside, .root⟩
  | drop {cred : Cred} : Step ⟨.inside, cred⟩ .drop ⟨.lowering, cred⟩
  | dropped : Step ⟨.lowering, .dropped⟩ .dropped ⟨.outside, .dropped⟩
  | seteuid {m : Mode} {uid : ℕ} {cred : Cred}
      (hplace : m.place = .raising ∨ m.place = .lowering) :
      Step m (.seteuid uid cred) ⟨m.place, m.cred.after (.seteuid uid cred)⟩
  | setegid {m : Mode} {gid : ℕ} {cred : Cred}
      (hplace : m.place = .raising ∨ m.place = .lowering) :
      Step m (.setegid gid cred) ⟨m.place, m.cred.after (.setegid gid cred)⟩
  | callOutside {cred : Cred} {c : Call} :
      Step ⟨.outside, cred⟩ (.call c .dropped) ⟨.outside, cred⟩
  | callInside {cred : Cred} {c : Call} : Step ⟨.inside, cred⟩ (.call c .root) ⟨.inside, cred⟩

/-- The automaton as the relation of the library. -/
theorem Mode.step_of_next {m m' : Mode} {e : Event} (h : m.next e = some m') : Step m e m' := by
  obtain ⟨place, cred⟩ := m
  unfold next at h
  dsimp only at h
  -- the places with the events that they allow
  split at h
  · cases h
    exact .escalate
  · cases h
    exact .seteuid (.inl rfl)
  · cases h
    exact .setegid (.inl rfl)
  · obtain ⟨rfl, hmode⟩ := Option.ite_none_right_eq_some.mp h
    cases hmode
    exact .escalated
  · cases h
    exact .drop
  · cases h
    exact .seteuid (.inr rfl)
  · cases h
    exact .setegid (.inr rfl)
  · obtain ⟨rfl, hmode⟩ := Option.ite_none_right_eq_some.mp h
    cases hmode
    exact .dropped
  · obtain ⟨rfl, hmode⟩ := Option.ite_none_right_eq_some.mp h
    cases hmode
    exact .callOutside
  · obtain ⟨rfl, hmode⟩ := Option.ite_none_right_eq_some.mp h
    cases hmode
    exact .callInside
  · cases h

/-- The mode behind some events of a process that starts with the effective ids of the user. -/
def modeOf (events : List Event) : Option Mode := events.foldlM Mode.next ⟨.outside, .dropped⟩

/-- The process is in a mode, by what it has done since it had done `past`. -/
structure At (past : List Event) (m : Mode) (s : Proc ω) : Prop where
  trace : ∃ events, s.trace = past ++ events ∧ modeOf events = some m
  cred : s.cred = m.cred

/-- Outside of brackets, with the effective ids of the user. -/
def Outside (past : List Event) : Proc ω → Prop := At past ⟨.outside, .dropped⟩

/-- Inside of a bracket, with the effective ids of root. -/
def Inside (past : List Event) : Proc ω → Prop := At past ⟨.inside, .root⟩

/-- Neither in `privilege_escalate` nor in `privilege_drop`. -/
def Safe (past : List Event) (s : Proc ω) : Prop := Outside past s ∨ Inside past s

section Modes

variable {past : List Event} {m m' : Mode}

/-- Outside a bracket the trace so far is in order. -/
theorem Outside.safe (s : Proc ω) (h : Outside past s) : Safe past s := .inl h

/-- So it is inside. -/
theorem Inside.safe (s : Proc ω) (h : Inside past s) : Safe past s := .inr h

/-- More events in order lead to another mode. -/
theorem At.append {s : Proc ω} {events : List Event} (h : At past m s)
    (hevents : events.foldlM Mode.next m = some m') (world : ω) :
    At past m' ⟨m'.cred, s.trace ++ events, world⟩ := by
  obtain ⟨⟨before, htrace, hbefore⟩, -⟩ := h
  refine ⟨⟨before ++ events, ?_, ?_⟩, rfl⟩
  · rw [htrace, List.append_assoc]
  · rw [modeOf, List.foldlM_append, ← modeOf, hbefore]
    exact hevents

end Modes

/-- What `privilege_escalate` does outside of brackets. -/
def raise : List Event :=
  [.escalate, .seteuid 0 .dropped, .setegid 0 ⟨⟨0, 0, 0⟩, ⟨0, 1000, 0⟩⟩, .escalated]

/-- What `privilege_drop` does inside of one. -/
def lower : List Event :=
  [.drop, .setegid 1000 .root, .seteuid 1000 ⟨⟨0, 0, 0⟩, ⟨0, 1000, 0⟩⟩, .dropped]

/-- A bracket opens: from the user's ids to root's. -/
theorem run_privilegeEscalate {trace : List Event} {world : ω} :
    privilegeEscalate.run ⟨.dropped, trace, world⟩ = .ok () ⟨.root, trace ++ raise, world⟩ := by
  have hrun : privilegeEscalate.run ⟨.dropped, trace, world⟩ =
      .ok () ⟨.root, trace ++ [.escalate] ++ [.seteuid 0 .dropped] ++
        [.setegid 0 ⟨⟨0, 0, 0⟩, ⟨0, 1000, 0⟩⟩] ++ [.escalated], world⟩ := rfl
  rw [hrun, List.append_assoc, List.append_assoc, List.append_assoc]
  rfl

/-- A bracket closes: back to the user's ids. -/
theorem run_privilegeDrop {env : Env} (henv : env.pw = some ⟨1000, 1000⟩) {trace : List Event}
    {world : ω} :
    (privilegeDrop env).run ⟨.root, trace, world⟩ = .ok () ⟨.dropped, trace ++ lower, world⟩ := by
  have hrun : (privilegeDrop env).run ⟨.root, trace, world⟩ =
      .ok () ⟨.dropped, trace ++ [.drop] ++ [.setegid 1000 .root] ++
        [.seteuid 1000 ⟨⟨0, 0, 0⟩, ⟨0, 1000, 0⟩⟩] ++ [.dropped], world⟩ := by
    rw [privilegeDrop, henv]
    rfl
  rw [hrun, List.append_assoc, List.append_assoc, List.append_assoc]
  rfl

/-- Either the kernel allows it, or nothing but the trace changes. -/
theorem run_setegid (gid : ℕ) (s : Proc ω) :
    (setegid gid).run s =
      if s.cred.gid.Allows s.cred.uid.effective gid then
        .ok 0 ⟨{ s.cred with gid := { s.cred.gid with effective := gid } },
          s.trace ++ [.setegid gid s.cred], s.world⟩
      else .ok (-1) { s with trace := s.trace ++ [.setegid gid s.cred] } := by
  by_cases hid : s.cred.gid.Allows s.cred.uid.effective gid
  · rw [if_pos hid]
    simp [setegid, mark, hid]
  · rw [if_neg hid]
    simp [setegid, mark, hid]

/-- Either the kernel allows it, or nothing but the trace changes. -/
theorem run_seteuid (uid : ℕ) (s : Proc ω) :
    (seteuid uid).run s =
      if s.cred.uid.Allows s.cred.uid.effective uid then
        .ok 0 ⟨{ s.cred with uid := { s.cred.uid with effective := uid } },
          s.trace ++ [.seteuid uid s.cred], s.world⟩
      else .ok (-1) { s with trace := s.trace ++ [.seteuid uid s.cred] } := by
  by_cases hid : s.cred.uid.Allows s.cred.uid.effective uid
  · rw [if_pos hid]
    simp [seteuid, mark, hid]
  · rw [if_neg hid]
    simp [seteuid, mark, hid]

/-- A `setegid` that succeeds sets the effective group id. -/
theorem eq_of_run_setegid {gid : ℕ} {s s' : Proc ω} (h : (setegid gid).run s = .ok 0 s') :
    s' = ⟨{ s.cred with gid := { s.cred.gid with effective := gid } },
      s.trace ++ [.setegid gid s.cred], s.world⟩ := by
  rw [run_setegid] at h
  split at h
  · cases h
    rfl
  · cases h

/-- A call that returned 0 has set the id. -/
theorem eq_of_run_seteuid {uid : ℕ} {s s' : Proc ω} (h : (seteuid uid).run s = .ok 0 s') :
    s' = ⟨{ s.cred with uid := { s.cred.uid with effective := uid } },
      s.trace ++ [.seteuid uid s.cred], s.world⟩ := by
  rw [run_seteuid] at h
  split at h
  · cases h
    rfl
  · cases h

/-- Where `privilege_drop` returns, the user has the ids 1000 and the process has them as effective
ones. -/
theorem eq_of_run_privilegeDrop {env : Env} {s s' : Proc ω}
    (h : (privilegeDrop env).run s = .ok () s') :
    env.pw = some ⟨1000, 1000⟩ ∧
      s' = ⟨⟨{ s.cred.uid with effective := 1000 }, { s.cred.gid with effective := 1000 }⟩,
        s.trace ++ [.drop] ++ [.setegid 1000 s.cred] ++
          [.seteuid 1000 { s.cred with gid := { s.cred.gid with effective := 1000 } }] ++
          [.dropped], s.world⟩ ∧ s.cred.uid.real = 0 ∧ s.cred.gid.real = 0 := by
  obtain ⟨_, s₁, hmark, h⟩ := run_bind_eq_ok.mp h
  cases hmark
  obtain ⟨_, s₂, hget, h⟩ := run_bind_eq_ok.mp h
  cases hget
  obtain ⟨_, s₃, hassert, h⟩ := run_bind_eq_ok.mp h
  obtain ⟨huid, rfl⟩ := run_assert_eq_ok.mp hassert
  obtain ⟨_, s₄, hget, h⟩ := run_bind_eq_ok.mp h
  cases hget
  obtain ⟨_, s₅, hassert', h⟩ := run_bind_eq_ok.mp h
  obtain ⟨hgid, rfl⟩ := run_assert_eq_ok.mp hassert'
  -- an unknown user stops the program
  rcases hpw : env.pw with _ | ⟨pwUid, pwGid⟩
  · rw [hpw] at h
    cases h
  rw [hpw] at h
  obtain ⟨_, s₆, hids, h⟩ := run_bind_eq_ok.mp h
  obtain ⟨⟨hpwGid, hpwUid⟩, rfl⟩ := run_assert_eq_ok.mp hids
  dsimp only at hpwGid hpwUid
  subst hpwGid hpwUid
  obtain ⟨r, s₇, hset, h⟩ := run_bind_eq_ok.mp h
  obtain ⟨_, s₈, hzero, h⟩ := run_bind_eq_ok.mp h
  obtain ⟨rfl, rfl⟩ := run_assert_eq_ok.mp hzero
  obtain rfl := eq_of_run_setegid hset
  obtain ⟨r, s₉, hset', h⟩ := run_bind_eq_ok.mp h
  obtain ⟨_, s₁₀, hzero, h⟩ := run_bind_eq_ok.mp h
  obtain ⟨rfl, rfl⟩ := run_assert_eq_ok.mp hzero
  obtain rfl := eq_of_run_seteuid hset'
  cases h
  exact ⟨rfl, rfl, huid, hgid⟩

section Border

variable {past : List Event} {E : Proc ω → Prop}

/-- `privilege_escalate` goes inside. -/
theorem triple_privilegeEscalate :
    Triple (Outside past) privilegeEscalate (fun _ => Inside past) E := by
  rintro ⟨cred, trace, world⟩ h
  obtain rfl : cred = .dropped := h.cred
  rw [run_privilegeEscalate]
  exact At.append h rfl world

/-- `privilege_drop` comes back outside. -/
theorem triple_privilegeDrop {env : Env} (henv : env.pw = some ⟨1000, 1000⟩) :
    Triple (Inside past) (privilegeDrop env) (fun _ => Outside past) E := by
  rintro ⟨cred, trace, world⟩ h
  obtain rfl : cred = .root := h.cred
  rw [run_privilegeDrop henv]
  exact At.append h rfl world

end Border

/-! ### The rest of the memory -/

theorem keeps_mark_world (w : ω) (e : Event) :
    Keeps (fun s : Proc ω => s.world = w) (fun _ => True) (mark e) :=
  keeps_modify fun _ hs => hs

/-- Recording a call leaves the world alone. -/
theorem world_of_run_call {env : Env} {c : Call} {s s' : Proc ω} {r : ℤ}
    (h : (call env c).run s = .ok r s') : s'.world = s.world := by
  cases h
  rfl

/-- `privilege_escalate` changes ids only. -/
theorem world_of_run_privilegeEscalate {s s' : Proc ω} (h : privilegeEscalate.run s = .ok () s') :
    s'.world = s.world := by
  have hassert (P : Prop) [Decidable P] : Keeps (fun t : Proc ω => t.world = s.world)
      (fun _ => True) (assert P : Prog (Proc ω) Unit) := keeps_assert (fun _ _ => trivial) P
  have hkeeps : Keeps (fun t : Proc ω => t.world = s.world) (fun _ => True)
      privilegeEscalate := by
    refine (keeps_mark_world _ _).bind fun _ => keeps_get.bind fun _ => (hassert _).bind fun _ => ?_
    refine keeps_get.bind fun _ => (hassert _).bind fun _ => ?_
    -- whether the id may be set or not, nothing else is changed
    have hseteuid : Keeps (fun t : Proc ω => t.world = s.world) (fun _ => True) (seteuid 0) := by
      intro t ht
      rw [run_seteuid]
      by_cases hid : t.cred.uid.Allows t.cred.uid.effective 0
      · rw [if_pos hid]
        exact ht
      · rw [if_neg hid]
        exact ht
    have hsetegid : Keeps (fun t : Proc ω => t.world = s.world) (fun _ => True) (setegid 0) := by
      intro t ht
      rw [run_setegid]
      by_cases hid : t.cred.gid.Allows t.cred.uid.effective 0
      · rw [if_pos hid]
        exact ht
      · rw [if_neg hid]
        exact ht
    refine hseteuid.bind fun _ => (hassert _).bind fun _ => ?_
    exact hsetegid.bind fun _ => (hassert _).bind fun _ => keeps_mark_world _ _
  exact hkeeps.of_ok rfl h

/-- So does `privilege_drop`. -/
theorem world_of_run_privilegeDrop {env : Env} {s s' : Proc ω}
    (h : (privilegeDrop env).run s = .ok () s') : s'.world = s.world := by
  obtain ⟨-, rfl, -⟩ := eq_of_run_privilegeDrop h
  rfl

/-- A bracket does to the rest of the memory what the program in it does. -/
theorem projects_escalated {env : Env} {τ : Type} (get : ω → τ) {x : Prog (Proc ω) Unit}
    {q : Prog τ Unit} (hx : Projects (fun s => get s.world) x q) :
    Projects (fun s => get s.world) (escalated env x) q := by
  refine Projects.skip (fun s _ s' h => ?_) fun _ => hx.skip_last fun s _ s' h => ?_
  · rw [world_of_run_privilegeEscalate h]
  · rw [world_of_run_privilegeDrop h]

/-! ### Parts of operations -/

section Parts

variable {past : List Event}

theorem keeps_lift_outside (p : Prog ω α) : Keeps (Outside past) (Safe past) (lift p) := by
  refine keeps_zoom Outside.safe ?_ p
  intro world s h
  exact ⟨h.trace, h.cred⟩

theorem keeps_lift_inside (p : Prog ω α) : Keeps (Inside past) (Safe past) (lift p) := by
  refine keeps_zoom Inside.safe ?_ p
  intro world s h
  exact ⟨h.trace, h.cred⟩

theorem keeps_call_outside (env : Env) (c : Call) :
    Keeps (Outside past) (Safe past) (call env c : Prog (Proc ω) ℤ) := by
  rintro ⟨cred, trace, world⟩ h
  obtain rfl : cred = .dropped := h.cred
  exact h.append (show [.call c .dropped].foldlM Mode.next _ = some _ from rfl) world

theorem keeps_call_inside (env : Env) (c : Call) :
    Keeps (Inside past) (Safe past) (call env c : Prog (Proc ω) ℤ) := by
  rintro ⟨cred, trace, world⟩ h
  obtain rfl : cred = .root := h.cred
  exact h.append (show [.call c .root].foldlM Mode.next _ = some _ from rfl) world

/-- A bracket around calls leads from outside of brackets to outside of brackets. -/
theorem keeps_escalated {env : Env} (henv : env.pw = some ⟨1000, 1000⟩)
    {x : Prog (Proc ω) Unit} (hx : Keeps (Inside past) (Safe past) x) :
    Keeps (Outside past) (Safe past) (escalated env x) :=
  triple_privilegeEscalate.bind fun _ => Triple.bind hx fun _ => triple_privilegeDrop henv

end Parts

end Privilege
