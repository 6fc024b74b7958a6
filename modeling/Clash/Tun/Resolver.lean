import Clash.Tun.Milestones

/-!
# The configuration of the resolver

`main` of clash_tun renames two files of systemd-resolved, and renames them back before it returns.
A run that aborts in between leaves them as they are.

The files of the directory are those that the renames of a run leave. Nothing else of the program
touches it.

## Main definitions

* `renames`, `directory`: the renames of a run, and the directory behind them.
* `Attempt`: one run of `main`, however it ends.
* `Attempt.CutShort`: it has stopped between its first and its last rename.
* `Row`: runs on one machine, one behind the other.

## Main results

* `configurations_kept`: no moment of any run loses a configuration, and the resolver is restarted
  only between complete exchanges.
* `directory_of_main`: what a run that returns leaves of any directory.
* `row_kept`: the same for rows of runs, and what a run finds behind one that aborted.
-/

open CProg CString Directory Escalated Privilege Traces

namespace Main

variable {κ File : Type}

/-- The rename of a milestone. -/
def Milestone.rename? : Milestone → Option (CString × CString)
  | .renamed r => some r
  | _ => none

/-- The renames that some events make. -/
def renames (env : Env) (es : List Event) : List (CString × CString) :=
  (select (milestone env) [] es).filterMap Milestone.rename?

/-- The directory behind some events. -/
def directory (env : Env) (dir : Dir CString File) (es : List Event) : Dir CString File :=
  renameAll dir (renames env es)

/-- The event is a rename. -/
def isRename : Event → Bool
  | .call (.rename _ _) _ => true
  | _ => false

section Runs

variable {env : Env} {sys : Netlink.Sys κ} {out : Outside} {fuel : ℕ} {s s' : Proc (Memory κ)}
  {dir : Dir CString File} {es : List Event}

/-- What a rename in the milestones comes from. -/
theorem result_of_renamed {past : List Event} {e : Event} {r : CString × CString}
    (h : milestone env past e = some (.renamed r)) :
    isRename e = true ∧ env.result past (.rename r.1 r.2) = 0 := by
  unfold milestone at h
  split at h
  case h_2 =>
    split at h
    · rename_i hresult
      cases h
      exact ⟨rfl, hresult⟩
    · cases h
  case h_3 | h_8 | h_9 | h_10 => split at h <;> cases h
  all_goals cases h

theorem names_switch_nodup : (names switch).Nodup := by decide +kernel

/-- No signal is a rename. -/
theorem filterMap_killScript (procs : List ProcT) (name : CString) :
    (killScript procs name).filterMap Milestone.rename? = [] := by
  rw [List.filterMap_eq_nil_iff]
  intro m hm
  rcases eq_of_mem_killScript hm with ⟨_, rfl⟩ | rfl
  · rfl
  · rfl

theorem filterMap_script (procs : List ProcT) :
    (script procs).filterMap Milestone.rename? = switch ++ undo switch := by
  rw [script, List.filterMap_append, List.filterMap_append, filterMap_killScript,
    List.nil_append]
  decide +kernel

/-- A run makes a part of the renames. -/
theorem renames_initial (hs : s.trace = [])
    (hes : es <+: (final ((main env sys out fuel).run s)).trace) :
    renames env es <+: switch ++ undo switch := by
  rw [← filterMap_script out.procs]
  exact (performs_main.prefix_of_run hs hes).filterMap _

/-- Where a run restarts the resolver, both files have been renamed, or both renamed back. -/
theorem renames_of_restart {procs : List ProcT} {l : List Milestone}
    (h : l ++ [.restart] <+: script procs) :
    l.filterMap Milestone.rename? = switch ∨
      l.filterMap Milestone.rename? = switch ++ undo switch := by
  let first : List Milestone := .busOpen :: switch.map .renamed
  let between : List Milestone := .flush :: (killScript procs (utf8 "clash") ++
    (sessionScript ++ .thread sigint :: (undo switch).map .renamed))
  -- the script has two restarts
  have hscript : script procs =
      first ++ .restart :: (between ++ .restart :: [.flush, .busClose]) := by
    simp only [first, between, script, redirectScript, restoreScript, List.append_assoc,
      List.cons_append, List.nil_append]
  rw [hscript] at h
  obtain ⟨l', rfl, hpart⟩ := append_of_part h (by decide +kernel)
  -- the first one, or the second one
  cases l' with
  | nil =>
    left
    decide +kernel
  | cons m l' =>
    right
    obtain ⟨rfl, hlast⟩ := List.cons_prefix_cons.mp hpart
    have hrenames : between.filterMap Milestone.rename? = undo switch := by
      simp only [between, List.filterMap_cons, List.filterMap_append, filterMap_killScript]
      decide +kernel
    have hbetween : .restart ∉ between := by
      intro hmem
      rcases List.mem_cons.mp hmem with hmem | hmem
      · cases hmem
      rcases List.mem_append.mp hmem with hmem | hmem
      · rcases eq_of_mem_killScript hmem with ⟨_, hmem⟩ | hmem <;> cases hmem
      · exact absurd hmem (by decide +kernel)
    rw [eq_of_part hlast hbetween (by decide), List.filterMap_append]
    exact congrArg (switch ++ ·) hrenames

/-- However a run of `main` ends, at no moment a file is lost, files under other names are left
alone, and the resolver is restarted only behind a complete exchange. -/
theorem configurations_kept (hs : s.trace = []) (hfree : ∀ r ∈ switch, dir r.2 = none)
    (hes : es <+: (final ((main env sys out fuel).run s)).trace) :
    Permuted dir (directory env dir es) ∧
      (∀ n ∉ names switch, directory env dir es n = dir n) ∧
      ∀ before destination path interface args cred,
        es = before ++ [.call
          (.busCallMethod destination path interface (utf8 "RestartUnit") args) cred] →
        directory env dir before = renameAll dir switch ∨ directory env dir before = dir := by
  have hinit := renames_initial hs hes
  refine ⟨((free_undo names_switch_nodup hfree).mono hinit).permuted, ?_, ?_⟩
  · intro n hn
    apply renameAll_of_notMem
    intro hmem
    obtain ⟨r, hr, hnr⟩ := List.mem_flatMap.mp hmem
    -- the renames back have the same names
    have hr' : r ∈ switch ++ undo switch := hinit.subset hr
    have hnames : ∀ r ∈ switch ++ undo switch, r.1 ∈ names switch ∧ r.2 ∈ names switch := by
      decide +kernel
    rcases List.mem_pair.mp hnr with rfl | rfl
    · exact hn (hnames r hr').1
    · exact hn (hnames r hr').2
  · rintro before destination path interface args cred rfl
    have hscript := performs_main.prefix_of_run hs hes
    rw [select_append, select_singleton, milestone_busCallMethod, if_pos rfl] at hscript
    rcases renames_of_restart hscript with h | h
    · left
      rw [directory, renames, h]
    · right
      rw [directory, renames, h, renameAll_undo names_switch_nodup]
      apply without_eq_self
      intro n hn
      obtain ⟨r, hr, rfl⟩ := List.mem_map.mp hn
      exact hfree r hr

/-- Both configurations, and nothing else. -/
def homeDirectory : Dir CString ℕ := fun n =>
  if n = dnsold ++ utf8 "conf" then some 0
  else if n = dnsnew ++ utf8 "bak" then some 1
  else none

theorem free_homeDirectory : ∀ r ∈ switch, homeDirectory r.2 = none := by decide +kernel

/-- `configurations_kept` for the end of a run. -/
theorem configurations_kept_homeRun :
    Permuted homeDirectory (directory allowed homeDirectory (final (homeRun allowed)).trace) ∧
      (∀ n ∉ names switch,
        directory allowed homeDirectory (final (homeRun allowed)).trace n = homeDirectory n) ∧
      ∀ before destination path interface args cred,
        (final (homeRun allowed)).trace = before ++ [.call
          (.busCallMethod destination path interface (utf8 "RestartUnit") args) cred] →
        directory allowed homeDirectory before = renameAll homeDirectory switch ∨
          directory allowed homeDirectory before = homeDirectory :=
  configurations_kept rfl free_homeDirectory (List.prefix_refl _)

/-- A run that returns makes all the renames. -/
theorem renames_of_ok (hs : s.trace = []) (hrun : (main env sys out fuel).run s = .ok () s') :
    renames env s'.trace = switch ++ undo switch := by
  rw [renames, performs_main.of_ok hs hrun, filterMap_script]

/-- A run that returns leaves any directory as it was, without files under the new names. So it
restores the directory exactly if these were free. -/
theorem directory_of_main (hs : s.trace = []) (hrun : (main env sys out fuel).run s = .ok () s') :
    directory env dir s'.trace = without dir (switch.map Prod.snd) ∧
      (directory env dir s'.trace = dir ↔ ∀ r ∈ switch, dir r.2 = none) := by
  have hdir : directory env dir s'.trace = without dir (switch.map Prod.snd) := by
    rw [directory, renames_of_ok hs hrun, renameAll_undo names_switch_nodup]
  refine ⟨hdir, ?_⟩
  rw [hdir]
  constructor
  · intro h r hr
    rw [← h]
    exact without_of_mem (List.mem_map_of_mem hr)
  · intro h
    apply without_eq_self
    intro n hn
    obtain ⟨r, hr, rfl⟩ := List.mem_map.mp hn
    exact h r hr

/-- `directory_of_main` for a run that returns. -/
theorem directory_of_homeRun :
    ∃ s', homeRun allowed = .ok () s' ∧
      directory allowed homeDirectory s'.trace = homeDirectory := by
  have hrun := eq_ok_of_returned returned_homeRun
  exact ⟨_, hrun, (directory_of_main rfl hrun).2.mpr free_homeDirectory⟩

end Runs

/-! ## Rows of runs -/

/-- A run of `main` in a new process. -/
structure Attempt (κ : Type) where
  env : Env
  sys : Netlink.Sys κ
  out : Outside
  fuel : ℕ
  start : Proc (Memory κ)
  trace_nil : start.trace = []

namespace Attempt

/-- What the run comes to. -/
def result (a : Attempt κ) : EStateM.Result Stop (Proc (Memory κ)) Unit :=
  (main a.env a.sys a.out a.fuel).run a.start

/-- What it has done, wherever it ended. -/
def trace (a : Attempt κ) : List Event := (final a.result).trace

def milestones (a : Attempt κ) : List Milestone := select (milestone a.env) [] a.trace

/-- The directory behind the run. -/
def after (a : Attempt κ) (dir : Dir CString File) : Dir CString File :=
  directory a.env dir a.trace

/-- A rename succeeds only if there is a file to rename. -/
def Honest (a : Attempt κ) (dir : Dir CString File) : Prop :=
  ∀ past old new, a.env.result past (.rename old new) = 0 → directory a.env dir past old ≠ none

/-- The run has stopped between its first and its last rename. -/
def CutShort (a : Attempt κ) : Prop :=
  renames a.env a.trace ≠ [] ∧ renames a.env a.trace ≠ switch ++ undo switch

instance (a : Attempt κ) : Decidable a.CutShort := inferInstanceAs (Decidable (_ ∧ _))

theorem renames_prefix (a : Attempt κ) : renames a.env a.trace <+: switch ++ undo switch :=
  renames_initial a.trace_nil (List.prefix_refl a.trace)

end Attempt

/-- Runs of `main`, one behind the other, with the directory behind them. -/
inductive Row (dir₀ : Dir CString File) : List (Attempt κ) → Dir CString File → Prop
  | nil : Row dir₀ [] dir₀
  | snoc {as : List (Attempt κ)} {dir : Dir CString File} {a : Attempt κ} :
      Row dir₀ as dir → a.Honest dir → Row dir₀ (as ++ [a]) (a.after dir)

/-- What a run can leave: the directory as it was, or with one or both of the files renamed. -/
def Stage (dir₀ dir : Dir CString File) : Prop :=
  dir = dir₀ ∨ dir = renameAll dir₀ (switch.take 1) ∨ dir = renameAll dir₀ switch

section Row

variable {dir₀ dir : Dir CString File} {a : Attempt κ} {as : List (Attempt κ)}
  {rs : List (CString × CString)}

/-- All renames of a run leave the directory as it was. -/
theorem renameAll_switch_undo (hfree : ∀ r ∈ switch, dir₀ r.2 = none) :
    renameAll dir₀ (switch ++ undo switch) = dir₀ := by
  rw [renameAll_undo names_switch_nodup]
  apply without_eq_self
  intro n hn
  obtain ⟨r, hr, rfl⟩ := List.mem_map.mp hn
  exact hfree r hr

/-- What the first renames of a run leave, unless they are none or all of them. -/
theorem renameAll_of_cut (hfree : ∀ r ∈ switch, dir₀ r.2 = none)
    (h : rs <+: switch ++ undo switch) (hnone : rs ≠ []) (hall : rs ≠ switch ++ undo switch) :
    renameAll dir₀ rs = renameAll dir₀ (switch.take 1) ∨
      renameAll dir₀ rs = renameAll dir₀ switch := by
  obtain ⟨r, r', hswitch⟩ : ∃ r r', switch = [r, r'] := ⟨_, _, rfl⟩
  have hnodup := names_switch_nodup
  rw [hswitch] at h hall hfree hnodup ⊢
  have htake := List.prefix_iff_eq_take.mp h
  have hlength : rs.length ≤ 4 := h.length_le
  generalize rs.length = n at htake hlength
  subst htake
  -- none of them, one, two, three, or all
  interval_cases n
  · exact absurd rfl hnone
  · exact .inl rfl
  · exact .inr rfl
  · -- the second rename is taken back
    left
    have hnodup' : (names [r']).Nodup := (List.nodup_append.mp hnodup).2.1
    have hback : renameAll (rename dir₀ r) ([r'] ++ undo [r']) =
        without (rename dir₀ r) [r'.2] := renameAll_undo hnodup'
    have hne : r'.2 ≠ r.1 ∧ r'.2 ≠ r.2 := by
      simp only [names, List.flatMap_cons, List.flatMap_nil, List.append_nil, List.cons_append,
        List.nil_append, List.nodup_cons, List.mem_cons, not_or] at hnodup
      exact ⟨fun heq => hnodup.1.2.2.1 heq.symm, fun heq => hnodup.2.1.2.1 heq.symm⟩
    refine hback.trans (without_eq_self ?_)
    rw [List.forall_mem_singleton, rename_of_ne hne.1 hne.2]
    exact hfree r' (by simp)
  · exact absurd rfl hall

/-- The first renames of a run lead to a stage. -/
theorem stage_of_renames (hfree : ∀ r ∈ switch, dir₀ r.2 = none)
    (h : rs <+: switch ++ undo switch) : Stage dir₀ (renameAll dir₀ rs) := by
  by_cases hnone : rs = []
  · rw [hnone]
    exact .inl rfl
  by_cases hall : rs = switch ++ undo switch
  · rw [hall]
    exact .inl (renameAll_switch_undo hfree)
  · exact .inr (renameAll_of_cut hfree h hnone hall)

/-- While a file is renamed, the old configuration is not under its name. -/
theorem missing_of_renamed
    (h : dir = renameAll dir₀ (switch.take 1) ∨ dir = renameAll dir₀ switch) :
    dir (dnsold ++ utf8 "conf") = none := by
  have hnodup : (names (switch.take 1)).Nodup := by decide +kernel
  rcases h with rfl | rfl
  · exact renameAll_first hnodup
  · exact renameAll_first names_switch_nodup

/-- A run that gets as far as its first rename has found the old configuration. -/
theorem found_of_milestones (h : a.Honest dir) (hnot : ¬ a.milestones <+: [.busOpen]) :
    dir (dnsold ++ utf8 "conf") ≠ none := by
  have hscript : a.milestones <+: script a.out.procs :=
    performs_main.prefix_of_run a.trace_nil (List.prefix_refl _)
  -- the first rename is the second milestone
  have hlonger : [.busOpen] ++ [.renamed (dnsold ++ utf8 "conf", dnsold ++ utf8 "bak")] <+:
      a.milestones := by
    refine List.prefix_of_prefix_length_le ⟨_, rfl⟩ hscript ?_
    by_contra hlength
    refine hnot (List.prefix_of_prefix_length_le hscript ⟨_, rfl⟩ ?_)
    rw [List.length_append, List.length_singleton, List.length_singleton] at hlength
    rw [List.length_singleton]
    omega
  obtain ⟨pre, e, post, -, hpre, hpick⟩ := exists_of_select hlonger
  rw [List.nil_append] at hpick
  have hdir : directory a.env dir pre = dir := by
    rw [directory, renames, hpre]
    rfl
  have hfound := h pre _ _ (result_of_renamed hpick).2
  rwa [hdir] at hfound

/-- A run that gets no further than to open the bus renames nothing. -/
theorem renames_of_milestones (h : a.milestones <+: [.busOpen]) : renames a.env a.trace = [] :=
  List.prefix_nil.mp (h.filterMap Milestone.rename?)

/-- A run on the whole directory changes it just if it stops between its first and its last
rename. -/
theorem after_eq_iff (hfree : ∀ r ∈ switch, dir₀ r.2 = none) (h : a.Honest dir₀) :
    a.after dir₀ = dir₀ ↔ ¬ a.CutShort := by
  have hinit := a.renames_prefix
  constructor
  · rintro hsame ⟨hnone, hall⟩
    have hmissing := missing_of_renamed (renameAll_of_cut hfree hinit hnone hall)
    refine found_of_milestones h (fun hmilestones => hnone (renames_of_milestones hmilestones)) ?_
    rwa [show renameAll dir₀ (renames a.env a.trace) = dir₀ from hsame] at hmissing
  · intro hcut
    rw [Attempt.after, directory]
    by_cases hnone : renames a.env a.trace = []
    · rw [hnone, renameAll_nil]
    · rw [not_not.mp fun hall => hcut ⟨hnone, hall⟩, renameAll_switch_undo hfree]

/-- A run that begins while a file is renamed stops at its first rename, and leaves the directory as
it is. -/
theorem after_of_missing (h : a.Honest dir) (hmissing : dir (dnsold ++ utf8 "conf") = none) :
    a.milestones <+: [.busOpen] ∧ a.after dir = dir := by
  have hmilestones : a.milestones <+: [.busOpen] :=
    not_not.mp fun hnot => found_of_milestones h hnot hmissing
  refine ⟨hmilestones, ?_⟩
  rw [Attempt.after, directory, renames_of_milestones hmilestones, renameAll_nil]

/-- A row of runs leaves a stage, and the directory is as it was just if none of them has stopped
between its first and its last rename. -/
theorem Row.stage (hfree : ∀ r ∈ switch, dir₀ r.2 = none) (h : Row dir₀ as dir) :
    Stage dir₀ dir ∧ (dir = dir₀ ↔ ∀ a ∈ as, ¬ a.CutShort) := by
  induction h with
  | nil => exact ⟨.inl rfl, fun _ => List.forall_mem_nil _, fun _ => rfl⟩
  | @snoc as dir a _ hhonest ih =>
    obtain ⟨hstage, hiff⟩ := ih
    have hsnoc : (∀ b ∈ as ++ [a], ¬ b.CutShort) ↔ (∀ b ∈ as, ¬ b.CutShort) ∧ ¬ a.CutShort := by
      rw [List.forall_mem_append, List.forall_mem_singleton]
    rw [hsnoc, ← hiff]
    rcases hstage with rfl | hrenamed
    · have hinit := a.renames_prefix
      refine ⟨stage_of_renames hfree hinit, ?_⟩
      rw [after_eq_iff hfree hhonest]
      exact ⟨fun hcut => ⟨rfl, hcut⟩, And.right⟩
    · -- behind a run that was cut short nothing is renamed any more
      obtain ⟨hmilestones, hafter⟩ := after_of_missing hhonest (missing_of_renamed hrenamed)
      rw [hafter]
      exact ⟨.inr hrenamed, fun heq => ⟨heq, fun hcut =>
        hcut.1 (renames_of_milestones hmilestones)⟩, And.left⟩

/-- Where the new names are free at first, no row of runs loses a file, whatever became of each of
them. The directory is changed just if one of them has stopped between its first and its last
rename. Behind such a run none returns, renames a file, or gets beyond its first rename. -/
theorem row_kept (hfree : ∀ r ∈ switch, dir₀ r.2 = none) (h : Row dir₀ as dir) :
    Stage dir₀ dir ∧ Permuted dir₀ dir ∧ (dir ≠ dir₀ ↔ ∃ a ∈ as, a.CutShort) ∧
      ∀ a : Attempt κ, a.Honest dir →
        (returned a.result = true → dir = dir₀ ∧ a.after dir = dir₀) ∧
          ((∃ b ∈ as, b.CutShort) →
            returned a.result = false ∧ a.milestones <+: [.busOpen] ∧ a.after dir = dir) := by
  obtain ⟨hstage, hsame⟩ := h.stage hfree
  have hchanged : dir ≠ dir₀ ↔ ∃ a ∈ as, a.CutShort := by
    rw [ne_eq, hsame]
    simp only [not_forall, not_not, exists_prop]
  -- a run that returns has gone beyond its first rename
  have hstopped {a : Attempt κ} (hmilestones : a.milestones <+: [.busOpen]) :
      returned a.result = false := by
    by_contra hreturned
    rw [Bool.not_eq_false] at hreturned
    have hrun := eq_ok_of_returned hreturned
    have hrenames := renames_of_ok a.trace_nil hrun
    have hnone := renames_of_milestones hmilestones
    rw [Attempt.trace, hrun] at hnone
    rw [final_ok, hrenames] at hnone
    exact absurd hnone (by decide +kernel)
  have hlater {a : Attempt κ} (hhonest : a.Honest dir) (hne : dir ≠ dir₀) :
      returned a.result = false ∧ a.milestones <+: [.busOpen] ∧ a.after dir = dir := by
    obtain ⟨hmilestones, hafter⟩ :=
      after_of_missing hhonest (missing_of_renamed (hstage.resolve_left hne))
    exact ⟨hstopped hmilestones, hmilestones, hafter⟩
  refine ⟨hstage, ?_, hchanged, fun a hhonest => ⟨fun hreturned => ?_, fun hcut =>
    hlater hhonest (hchanged.mpr hcut)⟩⟩
  · have hkept {rs : List (CString × CString)} (hrs : rs <+: switch ++ undo switch) :
        Permuted dir₀ (renameAll dir₀ rs) :=
      ((free_undo names_switch_nodup hfree).mono hrs).permuted
    rcases hstage with rfl | rfl | rfl
    · exact hkept List.nil_prefix
    · exact hkept ((List.take_prefix 1 switch).trans (List.prefix_append _ _))
    · exact hkept (List.prefix_append _ _)
  · have heq : dir = dir₀ := by
      by_contra hne
      rw [(hlater hhonest hne).1] at hreturned
      cases hreturned
    subst heq
    refine ⟨rfl, (after_eq_iff hfree hhonest).mpr fun hcut => ?_⟩
    have hrun := eq_ok_of_returned hreturned
    have hall := renames_of_ok a.trace_nil hrun
    refine hcut.2 ?_
    rw [Attempt.trace, hrun]
    exact hall

end Row

/-! ### A run that aborts -/

/-- System calls that succeed, but only one rename. -/
def oneRename : Env where
  pw := some ⟨1000, 1000⟩
  result past c :=
    match c with
    | .rename old new => if (old, new) ∈ switch.take 1 ∧ past.any isRename = false then 0 else -1
    | c => allowed.result past c
  pollin _ := true
  errorIsSet _ := false

/-- A run that aborts at its second rename. -/
def aborted : Attempt Kernel.State where
  env := oneRename
  sys := Kernel.sys Kernel.linux
  out := homeOutside
  fuel := 8
  start := homeStart [Kernel.dhcpRoute, Kernel.lanRoute]
  trace_nil := rfl

theorem honest_aborted : aborted.Honest homeDirectory := by
  intro past old new hresult
  obtain ⟨hfirst, hpast⟩ : (old, new) ∈ switch.take 1 ∧ past.any isRename = false := by
    by_contra hnot
    rw [show aborted.env.result past (.rename old new) = -1 from if_neg hnot] at hresult
    cases hresult
  -- nothing has been renamed yet
  have hnone : renames aborted.env past = [] := by
    rw [renames, filterMap_select]
    apply select_eq_nil
    intro past' e he
    have hno : isRename e = false := by
      have hall := List.any_eq_false.mp hpast e he
      rwa [Bool.not_eq_true] at hall
    rcases hm : milestone aborted.env past' e with _ | m
    · rfl
    · cases m
      case renamed r =>
        rw [(result_of_renamed hm).1] at hno
        cases hno
      all_goals rfl
  rw [directory, hnone, renameAll_nil]
  obtain ⟨rfl, rfl⟩ := Prod.mk.inj (List.mem_singleton.mp hfirst)
  decide +kernel

theorem renames_aborted : renames aborted.env aborted.trace = switch.take 1 := by
  have hprepare : (prepare oneRename homeOutside 8).run aborted.start =
      .ok () (homeReady oneRename [Kernel.dhcpRoute, Kernel.lanRoute]) := run_prepare_home rfl
  have hrun : aborted.result = (do
      onWorld (redirectNames oneRename aborted.sys)
      startShadowsocks oneRename homeOutside 8
      tunnel oneRename aborted.sys
      stopSs oneRename
      onWorld (restoreNames oneRename) : Prog (Proc (Memory Kernel.State)) Unit).run
        (homeReady oneRename [Kernel.dhcpRoute, Kernel.lanRoute]) := run_bind_of_ok hprepare
  rw [Attempt.trace, hrun]
  decide +kernel

/-- `row_kept` behind a run that aborts at its second rename. -/
theorem row_kept_aborted :
    aborted.after homeDirectory ≠ homeDirectory ∧
      Permuted homeDirectory (aborted.after homeDirectory) ∧
      ∀ a : Attempt Kernel.State, a.Honest (aborted.after homeDirectory) →
        returned a.result = false ∧ a.milestones <+: [.busOpen] ∧
          a.after (aborted.after homeDirectory) = aborted.after homeDirectory := by
  have hrenames := renames_aborted
  have hcut : ∃ a ∈ [] ++ [aborted], a.CutShort := by
    refine ⟨aborted, List.mem_singleton_self _, ?_⟩
    rw [Attempt.CutShort, hrenames]
    decide
  obtain ⟨-, hpermuted, hchanged, hlater⟩ :=
    row_kept free_homeDirectory (.snoc .nil honest_aborted)
  exact ⟨hchanged.mpr hcut, hpermuted, fun a ha => (hlater a ha).2 hcut⟩

end Main
