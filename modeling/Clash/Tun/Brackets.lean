import Mathlib.Tactic.ByContra
import Clash.Lib.Runs
import Clash.Tun.Escalated

/-!
# Brackets

What a row of operations does with its privileges: the brackets of `privilege_escalate` and
`privilege_drop` do not fail and do not nest, and calls inside of them have the effective ids of
root.

## Main definitions

* `Ordered`: the conditions on what a process did.

## Main results

* `ordered_of_modeOf`: the conditions hold wherever `modeOf` finds the process outside or inside of
  a bracket.
* `keeps_op`: an operation leads from outside of brackets to outside of brackets.
* `operations_ordered`: rows of operations behind the first `privilege_drop` are in order.
-/

open CProg CString Netlink Privilege Runs

namespace Escalated

/-! ## In order -/

/-- What a process did is in order. -/
structure Ordered (trace : List Event) : Prop where
  /-- No assertion of `privilege_escalate` failed: whenever it is entered, it returns. -/
  escalated : ∀ before after, trace = before ++ .escalate :: after → .escalated ∈ after
  /-- No assertion of `privilege_drop` failed. -/
  dropped : ∀ before after, trace = before ++ .drop :: after → .dropped ∈ after
  /-- Calls between the two have the effective ids of root. -/
  root : ∀ before events e after cred,
    trace = before ++ .escalated :: (events ++ e :: after) → .drop ∉ events →
      e.ids = some cred → cred.uid.effective = 0 ∧ cred.gid.effective = 0
  /-- Brackets do not nest. -/
  flat : ∀ before events after,
    trace = before ++ .escalate :: (events ++ .escalate :: after) → .dropped ∈ events

variable {m m' : Mode} {e : Event} {trace before events after : List Event}

/-- The mode behind a trace is where the automaton ends. -/
theorem modeOf_eq_some : modeOf trace = some m ↔ Run Mode.next ⟨.outside, .dropped⟩ trace m :=
  run_iff_foldlM.symm

/-- The modes that a process goes through, behind a first part of what it did. -/
theorem run_append (h : Run Mode.next m (before ++ after) m') :
    ∃ m₁, Run Mode.next m before m₁ ∧ Run Mode.next m₁ after m' := by
  rw [run_iff_foldlM, List.foldlM_append, Option.bind_eq_bind, Option.bind_eq_some_iff] at h
  obtain ⟨m₁, hbefore, hafter⟩ := h
  exact ⟨m₁, run_iff_foldlM.mpr hbefore, run_iff_foldlM.mpr hafter⟩

/-- A run takes its first event and goes on. -/
theorem run_cons (h : Run Mode.next m (e :: after) m') :
    ∃ m₁, m.next e = some m₁ ∧ Run Mode.next m₁ after m' := by
  rw [run_iff_foldlM, List.foldlM_cons, Option.bind_eq_bind, Option.bind_eq_some_iff] at h
  obtain ⟨m₁, hnext, hafter⟩ := h
  exact ⟨m₁, hnext, run_iff_foldlM.mpr hafter⟩

/-- Places that only the event `e` leads out of are not left without it. -/
theorem place_of_run {S : Place → Prop}
    (hstep : ∀ m e' m', Mode.Step m e' m' → S m.place → e' ≠ e → S m'.place) (hm : S m.place)
    (h : Run Mode.next m events m') (he : e ∉ events) : S m'.place := by
  induction h with
  | nil => exact hm
  | snoc hrun hnext ih =>
    rw [List.mem_append, List.mem_singleton, not_or] at he
    exact hstep _ _ _ (Mode.step_of_next hnext) (ih he.1) (Ne.symm he.2)

/-- A bracket that is being opened stays so until `privilege_escalate` returns. -/
theorem raising_of_run (hm : m.place = .raising) (h : Run Mode.next m events m')
    (he : .escalated ∉ events) : m'.place = .raising := by
  refine place_of_run (S := (· = .raising)) (fun m e m' hstep hm he => ?_) hm h he
  cases hstep with
  | escalated => exact absurd rfl he
  | seteuid => exact hm
  | setegid => exact hm
  | _ => cases hm

/-- An open bracket stays open until `privilege_drop` is entered. -/
theorem inside_of_run (hm : m.place = .inside) (h : Run Mode.next m events m')
    (he : .drop ∉ events) : m'.place = .inside := by
  refine place_of_run (S := (· = .inside)) (fun m e m' hstep hm he => ?_) hm h he
  cases hstep with
  | drop => exact absurd rfl he
  | seteuid => exact hm
  | setegid => exact hm
  | callInside => exact hm
  | _ => cases hm

/-- One that is being closed stays so until `privilege_drop` returns. -/
theorem lowering_of_run (hm : m.place = .lowering) (h : Run Mode.next m events m')
    (he : .dropped ∉ events) : m'.place = .lowering := by
  refine place_of_run (S := (· = .lowering)) (fun m e m' hstep hm he => ?_) hm h he
  cases hstep with
  | dropped => exact absurd rfl he
  | seteuid => exact hm
  | setegid => exact hm
  | _ => cases hm

/-- Only the return of `privilege_drop` leads to outside of brackets. -/
theorem ne_outside_of_run (hm : m.place ≠ .outside) (h : Run Mode.next m events m')
    (he : .dropped ∉ events) : m'.place ≠ .outside := by
  refine place_of_run (S := (· ≠ .outside)) (fun m e m' hstep hm he => ?_) hm h he
  cases hstep with
  | escalate => exact absurd rfl hm
  | dropped => exact absurd rfl he
  | seteuid => exact hm
  | setegid => exact hm
  | callOutside => exact hm
  | callInside => exact hm
  | _ => nofun

/-- Where `modeOf` finds a process outside or inside of a bracket, what it did is in order. -/
theorem ordered_of_modeOf (h : modeOf trace = some m)
    (hm : m.place = .outside ∨ m.place = .inside) : Ordered trace where
  escalated := by
    rintro before after rfl
    obtain ⟨m₁, -, hrun⟩ := run_append (modeOf_eq_some.mp h)
    obtain ⟨m₂, hnext, hafter⟩ := run_cons hrun
    have hstep := Mode.step_of_next hnext
    by_contra hmem
    -- a process that has not got through `privilege_escalate` is still raising its ids
    have hraising : m.place = .raising := by
      cases hstep
      exact raising_of_run rfl hafter hmem
    rw [hraising] at hm
    rcases hm with hm | hm <;> cases hm
  dropped := by
    rintro before after rfl
    obtain ⟨m₁, -, hrun⟩ := run_append (modeOf_eq_some.mp h)
    obtain ⟨m₂, hnext, hafter⟩ := run_cons hrun
    have hstep := Mode.step_of_next hnext
    by_contra hmem
    have hlowering : m.place = .lowering := by
      cases hstep
      exact lowering_of_run rfl hafter hmem
    rw [hlowering] at hm
    rcases hm with hm | hm <;> cases hm
  root := by
    rintro before events e after cred rfl hmem hcred
    obtain ⟨m₁, -, hrun⟩ := run_append (modeOf_eq_some.mp h)
    obtain ⟨m₂, hnext, hrest⟩ := run_cons hrun
    have hstep := Mode.step_of_next hnext
    obtain ⟨m₃, hevents, hcall⟩ := run_append hrest
    obtain ⟨m₄, hnext', -⟩ := run_cons hcall
    have hstep' := Mode.step_of_next hnext'
    -- behind `escalated`, and with nothing dropped yet, the process is inside of the bracket
    have hinside : m₃.place = .inside := by
      cases hstep
      exact inside_of_run rfl hevents hmem
    cases hstep' with
    | callInside =>
      cases hcred
      exact ⟨rfl, rfl⟩
    | seteuid hplace =>
      rw [hinside] at hplace
      rcases hplace with hplace | hplace <;> cases hplace
    | setegid hplace =>
      rw [hinside] at hplace
      rcases hplace with hplace | hplace <;> cases hplace
    | callOutside => cases hinside
    | _ => cases hcred
  flat := by
    rintro before events after rfl
    obtain ⟨m₁, -, hrun⟩ := run_append (modeOf_eq_some.mp h)
    obtain ⟨m₂, hnext, hrest⟩ := run_cons hrun
    have hstep := Mode.step_of_next hnext
    obtain ⟨m₃, hevents, hescalate⟩ := run_append hrest
    obtain ⟨m₄, hnext', -⟩ := run_cons hescalate
    have hstep' := Mode.step_of_next hnext'
    have hne : m₂.place ≠ .outside := by
      cases hstep
      nofun
    by_contra hmem
    -- the second bracket would be entered from outside of brackets
    have hne' := ne_outside_of_run hne hevents hmem
    cases hstep'
    exact hne' rfl

/-! ## Operations keep the order -/

section Keeps

variable {env : Env} {κ α : Type} {sys : Sys κ} {past : List Event}

/-- The work on the socket records no call, so it may stand outside, -/
theorem keeps_onNet_outside (p : Prog (Net κ) α) : Keeps (Outside past) (Safe past) (onNet p) :=
  keeps_lift_outside _

/-- and inside. -/
theorem keeps_onNet_inside (p : Prog (Net κ) α) : Keeps (Inside past) (Safe past) (onNet p) :=
  keeps_lift_inside _

/-- A call and an assertion on its result, inside of a bracket. -/
theorem keeps_check_inside (c : Call) (P : ℤ → Prop) [DecidablePred P] :
    Keeps (Inside past) (Safe past) (do assert (P (← call env c)) : Prog (Proc (World κ)) Unit) :=
  (keeps_call_inside env c).bind fun _ => keeps_assert Inside.safe _

/-- A call and an assertion on its result, outside of brackets. -/
theorem keeps_check_outside (c : Call) (P : ℤ → Prop) [DecidablePred P] :
    Keeps (Outside past) (Safe past) (do assert (P (← call env c)) : Prog (Proc (World κ)) Unit) :=
  (keeps_call_outside env c).bind fun _ => keeps_assert Outside.safe _

/-- What `inspect_proc` does to a process, in its bracket. -/
theorem keeps_interrupt (n : ℕ) (proc : ProcT) :
    Keeps (Inside past) (Safe past) (interrupt env n proc : Prog (Proc (World κ)) Unit) := by
  refine (keeps_call_inside env _).bind fun pidfd => (keeps_assert Inside.safe _).bind fun _ => ?_
  cases proc.cmdline with
  | none => exact keeps_throw Inside.safe _
  | some cmdline =>
    refine (keeps_call_inside env _).bind fun _ => (keeps_check_inside _ (· = 0)).bind fun _ => ?_
    have hpoll (u : Unit) :
        Keeps (Inside past) (Safe past) (pollBody env u : Prog (Proc (World κ)) _) := by
      refine (keeps_check_inside _ (0 ≤ ·)).bind fun _ => keeps_get.bind fun s => ?_
      exact (keeps_pure _).ite ((keeps_call_inside env _).bind fun _ => keeps_pure _)
    refine (Keeps.loop Inside.safe hpoll n ()).bind fun _ => ?_
    exact (keeps_call_inside env _).bind fun _ => keeps_pure _

variable (henv : env.pw = some ⟨1000, 1000⟩)

include henv

theorem keeps_send (req : List UInt8) : Keeps (Outside past) (Safe past) (send env sys req) := by
  apply keeps_escalated henv
  refine (keeps_call_inside env _).bind fun r => ?_
  exact (keeps_assert Inside.safe _).bind fun _ => keeps_onNet_inside _

theorem keeps_receive :
    Keeps (Outside past) (Safe past) (receive env : Prog (Proc (World κ)) Unit) := by
  apply keeps_escalated henv
  refine keeps_get.bind fun s => Keeps.loop Inside.safe (fun p => ?_) _ _
  refine (keeps_call_inside env _).bind fun r => ?_
  exact (keeps_assert Inside.safe _).bind fun _ => keeps_onNet_inside _

/-- A request, and what comes behind the reply to it. -/
theorem keeps_exchange {rest : Prog (Proc (World κ)) Unit} (req : List UInt8)
    (hrest : Keeps (Outside past) (Safe past) rest) :
    Keeps (Outside past) (Safe past) (do
      send env sys req
      receive env
      rest) :=
  (keeps_send henv req).bind fun _ => (keeps_receive henv).bind fun _ => hrest

theorem keeps_netlinkInit :
    Keeps (Outside past) (Safe past) (netlinkInit env : Prog (Proc (World κ)) Unit) := by
  refine Keeps.bind (keeps_escalated henv ?_) fun _ => keeps_check_outside _ (· = 0)
  refine (keeps_call_inside env _).bind fun fd => ?_
  exact (keeps_lift_inside _).bind fun _ => keeps_assert Inside.safe _

/-- Every operation on the socket opens its bracket and closes it. -/
theorem keeps_netlinkOp (op : Netlink.Op) :
    Keeps (Outside past) (Safe past) (netlinkOp env sys op) := by
  have hassert (P : Prop) [Decidable P] :
      Keeps (Outside past) (Safe past) (assert P : Prog (Proc (World κ)) Unit) :=
    keeps_assert Outside.safe P
  have hacked : Keeps (Outside past) (Safe past) (do
      onNet ack
      onNet clearbuf : Prog (Proc (World κ)) Unit) :=
    (keeps_onNet_outside _).bind fun _ => keeps_onNet_outside _
  -- assertions and requests are outside, the exchange has the brackets
  cases op with
  | route add gw dev dst via =>
    refine (hassert _).bind fun _ => keeps_get.bind fun s => (hassert _).bind fun _ => ?_
    refine (hassert _).bind fun _ => (hassert _).bind fun _ => ?_
    exact (keeps_onNet_outside _).bind fun req => keeps_exchange henv req hacked
  | getGateway => exact keeps_exchange henv _ (keeps_onNet_outside _)
  | delLink dev =>
    exact (keeps_onNet_outside _).bind fun req => keeps_exchange henv req hacked
  | tunAddr dev ipv4 prefixlen =>
    refine (hassert _).bind fun _ => (hassert _).bind fun _ => (hassert _).bind fun _ => ?_
    refine keeps_get.bind fun s => (hassert _).bind fun _ => ?_
    exact (keeps_onNet_outside _).bind fun req => keeps_exchange henv req hacked
  | flags up dev =>
    refine (hassert _).bind fun _ => keeps_get.bind fun s => (hassert _).bind fun _ => ?_
    exact keeps_exchange henv _ hacked

theorem keeps_ioctlTunCreate (dev : CString) :
    Keeps (Outside past) (Safe past) (ioctlTunCreate env sys dev) := by
  refine (keeps_assert Outside.safe _).bind fun _ => (keeps_call_outside env _).bind fun tunfd => ?_
  refine (keeps_assert Outside.safe _).bind fun _ => ?_
  refine Keeps.bind (keeps_escalated henv ?_) fun _ => ?_
  · refine (keeps_check_inside _ (· = 0)).bind fun _ => ?_
    exact (keeps_check_inside _ (· = 0)).bind fun _ => keeps_onNet_inside _
  · exact (keeps_call_outside env _).bind fun _ => keeps_pure _

/-- The table may hold any number of processes with the name: there is a bracket for each. -/
theorem keeps_killSync (n : ℕ) (procs : List ProcT) (name : CString) :
    Keeps (Outside past) (Safe past) (killSync env n procs name : Prog (Proc (World κ)) Unit) := by
  refine Keeps.forM fun proc => Keeps.ite ?_ (keeps_pure _)
  refine (keeps_assert Outside.safe _).bind fun _ => ?_
  exact keeps_escalated henv (keeps_interrupt n proc)

theorem keeps_busInit : Keeps (Outside past) (Safe past) (busInit env sys) := by
  refine keeps_get.bind fun s => (keeps_lift_outside _).bind fun _ => ?_
  refine (keeps_assert Outside.safe _).bind fun _ => ?_
  refine (keeps_check_outside _ (· = 0)).bind fun _ => ?_
  refine (keeps_check_outside _ (· = 0)).bind fun _ => ?_
  refine Keeps.bind (keeps_escalated henv ?_) fun _ => ?_
  · refine (keeps_call_inside env _).bind fun r => ?_
    exact (keeps_lift_inside _).bind fun _ => keeps_assert Inside.safe _
  · exact keeps_get.bind fun s => keeps_assert Outside.safe _

/-- A call on the bus stands in a bracket of its own. -/
theorem keeps_busCall {f : Prog (Proc (World κ)) Unit} (hf : Keeps (Inside past) (Safe past) f) :
    Keeps (Outside past) (Safe past) (busCall env f) :=
  (keeps_escalated henv hf).bind fun _ => keeps_get.bind fun _ => keeps_assert Outside.safe _

/-- An operation leads from outside of brackets to outside of brackets. -/
theorem keeps_op (op : Op) : Keeps (Outside past) (Safe past) (op.run env sys) := by
  cases op with
  | netlinkInit => exact keeps_netlinkInit henv
  | netlink op => exact keeps_netlinkOp henv op
  | ioctlTunCreate dev => exact keeps_ioctlTunCreate henv dev
  | killSync n procs name => exact keeps_killSync henv n procs name
  | busInit => exact keeps_busInit henv
  | busRestartservice => exact keeps_busCall henv (keeps_check_inside _ (0 ≤ ·))
  | busFlushcache => exact keeps_busCall henv (keeps_check_inside _ (0 ≤ ·))
  | busEnd =>
    refine (keeps_escalated henv (keeps_check_inside _ (· = 0))).bind fun _ => ?_
    exact keeps_lift_outside _
  | renameNew =>
    apply keeps_escalated henv
    exact (keeps_check_inside _ (· = 0)).bind fun _ => keeps_check_inside _ (· = 0)
  | renameOld =>
    apply keeps_escalated henv
    exact (keeps_check_inside _ (· = 0)).bind fun _ => keeps_check_inside _ (· = 0)
  | killTun2socks pid => exact keeps_escalated henv (keeps_check_inside _ (· = 0))

/-- A row of operations, each of which comes back outside. -/
theorem keeps_runOps (sys : Sys κ) (ops : List Op) :
    Keeps (Outside past) (Safe past) (runOps env sys ops) :=
  Keeps.forM fun op => keeps_op henv op

end Keeps

/-! ## Rows of operations -/

section Rows

variable {env : Env} {κ : Type} {s₀ s₁ : Proc (World κ)}

/-- The real and the saved ids are those of root. -/
structure Rooted (cred : Cred) : Prop where
  uid : cred.uid.real = 0 ∧ cred.uid.saved = 0
  gid : cred.gid.real = 0 ∧ cred.gid.saved = 0

/-- The first `privilege_drop` leads to outside of brackets. -/
theorem outside_of_privilegeDrop (hids : Rooted s₀.cred)
    (hdrop : (privilegeDrop env).run s₀ = .ok () s₁) :
    env.pw = some ⟨1000, 1000⟩ ∧ Outside s₁.trace s₁ := by
  obtain ⟨henv, rfl, -⟩ := eq_of_run_privilegeDrop hdrop
  obtain ⟨⟨⟨uid, euid, suid⟩, ⟨gid, egid, sgid⟩⟩, trace, world⟩ := s₀
  obtain ⟨⟨rfl, rfl⟩, rfl, rfl⟩ := hids
  exact ⟨henv, ⟨[], (List.append_nil _).symm, rfl⟩, rfl⟩

/-- What was done since a safe process was outside of brackets is in order. -/
theorem ordered_of_safe {past : List Event} (h : Safe past s₁) :
    ∃ events, s₁.trace = past ++ events ∧ Ordered events := by
  rcases h with ⟨⟨events, htrace, hmode⟩, -⟩ | ⟨⟨events, htrace, hmode⟩, -⟩
  · exact ⟨events, htrace, ordered_of_modeOf hmode (.inl rfl)⟩
  · exact ⟨events, htrace, ordered_of_modeOf hmode (.inr rfl)⟩

/-- In every row of operations behind the first `privilege_drop`, whether it returns or stops, what
the process does is in order, and a row that returns leaves the effective ids of the user. -/
theorem operations_ordered (hids : Rooted s₀.cred)
    (hdrop : (privilegeDrop env).run s₀ = .ok () s₁) (sys : Sys κ) (ops : List Op) :
    (∃ events, (final ((runOps env sys ops).run s₁)).trace = s₁.trace ++ events ∧
        Ordered events) ∧
      ∀ s₂, (runOps env sys ops).run s₁ = .ok () s₂ →
        s₂.cred.uid.effective = 1000 ∧ s₂.cred.gid.effective = 1000 := by
  -- the first `privilege_drop` leaves the process outside of brackets
  obtain ⟨henv, houtside⟩ := outside_of_privilegeDrop hids hdrop
  have hkeeps : Keeps (Outside s₁.trace) (Safe s₁.trace) (runOps env sys ops) :=
    keeps_runOps henv sys ops
  cases hrun : (runOps env sys ops).run s₁ with
  | ok _ s₂ =>
    have houtside₂ := hkeeps.of_ok houtside hrun
    refine ⟨ordered_of_safe (.inl houtside₂), fun s₂' h => ?_⟩
    cases h
    rw [houtside₂.cred]
    exact ⟨rfl, rfl⟩
  | error e s₂ => exact ⟨ordered_of_safe (hkeeps.of_error houtside hrun), nofun⟩

end Rows

/-- System calls that succeed, and a process that is gone at the first look. -/
def allowed : Env where
  pw := some ⟨1000, 1000⟩
  result _ c :=
    match c with
    | .socket | .openTun | .fork => 3
    | .send size => size
    | .fgets => 1
    | _ => 0
  pollin _ := true
  errorIsSet _ := false

/-- A process of root that has done nothing. -/
def fresh : Proc (World Unit) where
  cred := .root
  trace := []
  world :=
    { net := ⟨(), [], List.replicate sz 0, 0, []⟩, netlinkfd := -1, bus := false, ifi := 0 }

/-- The operations of a session, with two processes to interrupt. -/
def sampleRow : List Op :=
  [.busInit, .renameNew, .busRestartservice, .busFlushcache,
    .killSync 1 [⟨7, 7, 7, 7, utf8 "clash", some (utf8 "clash")⟩,
      ⟨8, 8, 8, 8, utf8 "sh", some (utf8 "sh")⟩,
      ⟨9, 9, 9, 9, utf8 "clash", some (utf8 "clash")⟩] (utf8 "clash"),
    .netlinkInit, .ioctlTunCreate ClashTun.tun, .netlink (.flags true ClashTun.tun),
    .netlink .getGateway, .killTun2socks 3, .netlink (.delLink ClashTun.tun), .renameOld, .busEnd]

/-- `operations_ordered` for this row of operations, which returns. -/
theorem operations_ordered_sampleRow :
    ∃ s₁ s₂ events, (privilegeDrop allowed).run fresh = .ok () s₁ ∧
      (runOps allowed oneRoute sampleRow).run s₁ = .ok () s₂ ∧
      s₂.trace = s₁.trace ++ events ∧ Ordered events ∧
      s₂.cred.uid.effective = 1000 ∧ s₂.cred.gid.effective = 1000 := by
  have hdrop : (privilegeDrop allowed).run fresh =
      .ok () (final ((privilegeDrop allowed).run fresh)) := rfl
  have hreturned : returned ((runOps allowed oneRoute sampleRow).run
      (final ((privilegeDrop allowed).run fresh))) = true := by
    decide +kernel
  have hrun := eq_ok_of_returned hreturned
  obtain ⟨⟨events, htrace, hordered⟩, heffective⟩ :=
    operations_ordered ⟨⟨rfl, rfl⟩, rfl, rfl⟩ hdrop oneRoute sampleRow
  exact ⟨_, _, events, hdrop, hrun, htrace, hordered, heffective _ hrun⟩

end Escalated
