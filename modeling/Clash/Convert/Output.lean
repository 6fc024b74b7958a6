import Clash.Convert.Alignment

/-!
# The output of convert.c

What can be said about the output of every run of `main`, whatever its input.

## Main results

* `credentials_of_run_main`: a node goes out with the credentials of its own entry, in every
  run, also in one that aborts.
* `compose_of_run_main`: the output of a run that returns is one well-nested document, and its
  groups are exactly the lists of emitted names that pass the groups' tests.
-/

open CProg CString Yaml

namespace Convert

/-- Every node that a run of `main` emits has the port, cipher and password of its own entry of
the input: the events of the run, up to the place where it ended, are those of the header, of a
row of kept nodes, each with the credentials read together with it, and, behind the last one,
of the groups. -/
theorem credentials_of_run_main (mbCurMax fuel : ℕ) (parser : Scanner) :
    let nodes := emittedNodes fuel parser
    let events := (final ((main mbCurMax fuel).run (initial parser))).events
    events = headerEvents ∨
      ∃ k tail, events = headerEvents ++ proxiesEvents ++ nodesEvents (nodes.take k) ++ tail ∧
        (tail = [] ∨ nodes.length ≤ k ∧
          tail <+: groupsStartEvents ++ groupsEvents (groupsOf (namesOf nodes)) ++
            [.sequenceEnd, .mappingEnd, .documentEnd, .streamEnd]) := by
  intro nodes events
  -- the places where a run can end
  obtain ⟨e, st, hrun, hevents⟩ | ⟨e, st, k, hrun, hevents⟩ | ⟨-, e, st, hrun, hevents⟩ |
      ⟨-, st, hrun, hevents, -⟩ := run_main_cases mbCurMax fuel parser
  · left
    rw [← hevents]
    simp only [events, hrun, final_error]
  · refine .inr ⟨k, [], ?_, .inl rfl⟩
    simp only [events, hrun, final_error, hevents, nodes, List.append_nil]
  · refine .inr ⟨nodes.length, groupsStartEvents, ?_, .inr ⟨le_rfl, ?_⟩⟩
    · simp only [events, hrun, final_error, hevents, nodes, List.take_length]
    · rw [List.append_assoc]
      exact List.prefix_append _ _
  · refine .inr ⟨nodes.length, _, ?_, .inr ⟨le_rfl, List.prefix_rfl⟩⟩
    simp only [events, hrun, final_ok, hevents, nodes, List.take_length, document_configContent,
      proxiesEvents, groupsStartEvents, List.append_assoc]

/-- A group of the output is one of the nine lists, and is not empty. -/
theorem mem_groupsOf_iff {names : List CString} {g : CString × List CString} :
    g ∈ groupsOf names ↔ ∃ t ∈ titles, g = (t.1, members names t.2) ∧ members names t.2 ≠ [] := by
  simp only [groupsOf, groupsFrom, List.mem_filter, List.mem_map, decide_eq_true_eq]
  constructor
  · rintro ⟨⟨t, ht, rfl⟩, hne⟩
    exact ⟨t, ht, rfl, hne⟩
  · rintro ⟨t, ht, rfl, hne⟩
    exact ⟨⟨t, ht, rfl⟩, hne⟩

/-- The members of a list are names. -/
theorem mem_of_mem_members {names : List CString} {l : GList} {s : CString}
    (h : s ∈ members names l) : s ∈ names :=
  List.mem_of_mem_filter (List.mem_reverse.mp h)

/-- A list becomes a group exactly when some name passes its test. -/
theorem map_fst_groupsOf (names : List CString) :
    (groupsOf names).map Prod.fst =
      (titles.filter fun t => names.any fun s => belongs s t.2).map Prod.fst := by
  have hne (l : GList) : decide (members names l ≠ []) = names.any fun s => belongs s l := by
    rw [Bool.eq_iff_iff, decide_eq_true_eq, List.any_eq_true, members, Ne,
      List.reverse_eq_nil_iff, List.filter_eq_nil_iff]
    push Not
    rfl
  rw [groupsOf, groupsFrom, List.filter_map, List.map_map]
  simp only [Function.comp_def, hne]

/-- The configuration that a run of `main` writes if it returns. -/
def outputConfig (fuel : ℕ) (parser : Scanner) : Content :=
  configContent (emittedNodes fuel parser) (groupsOf (namesOf (emittedNodes fuel parser)))

/-- A run of `main` that returns has written its configuration and emptied all lists. -/
theorem run_main_eq_ok {mbCurMax fuel : ℕ} {parser : Scanner} {st : State}
    (h : (main mbCurMax fuel).run (initial parser) = .ok () st) :
    compose st.events = some (outputConfig fuel parser) ∧ ∀ l, st.lists l = [] := by
  obtain ⟨e, st', hrun, -⟩ | ⟨e, st', k, hrun, -⟩ | ⟨-, e, st', hrun, -⟩ |
      ⟨-, st', hrun, hevents, hlists⟩ := run_main_cases mbCurMax fuel parser
  · rw [hrun] at h
    cases h
  · rw [hrun] at h
    cases h
  · rw [hrun] at h
    cases h
  · rw [hrun] at h
    cases h
    refine ⟨?_, hlists⟩
    rw [hevents, compose_document, outputConfig]

/-- The events of a run of `main` that returns form one well-nested document: a mapping with the
header, the emitted proxies and the groups. Each group is the reverse of the names of the emitted
proxies that pass its test, every list with such a name has its group, and all nine lists are
empty at the end. -/
theorem compose_of_run_main {mbCurMax fuel : ℕ} {parser : Scanner} {st : State}
    (h : (main mbCurMax fuel).run (initial parser) = .ok () st) :
    ∃ nodes groups,
      compose st.events = some (configContent nodes groups) ∧
      (∀ g ∈ groups, g.2 ≠ [] ∧ (∀ s ∈ g.2, s ∈ namesOf nodes) ∧
        ∃ l, (g.1, l) ∈ titles ∧ g.2 = ((namesOf nodes).filter (belongs · l)).reverse) ∧
      groups.map Prod.fst = (titles.filter fun t =>
        (namesOf nodes).any fun s => belongs s t.2).map Prod.fst ∧
      nodes = emittedNodes fuel parser ∧
      ∀ l, st.lists l = [] := by
  obtain ⟨hcompose, hlists⟩ := run_main_eq_ok h
  refine ⟨emittedNodes fuel parser, groupsOf (namesOf (emittedNodes fuel parser)), hcompose, ?_,
    map_fst_groupsOf _, rfl, hlists⟩
  intro g hg
  obtain ⟨t, ht, rfl, hne⟩ := mem_groupsOf_iff.mp hg
  exact ⟨hne, fun s => mem_of_mem_members, t.2, ht, rfl⟩

/-- An input with the sample entries. -/
def sampleInput : Scanner where
  tokens := documentTokens [] (.sequence (sampleEntries.map .mapping)) [.blockEnd, .streamEnd]
  broken := false

theorem returned_main_sampleInput : returned ((main 6 300).run (initial sampleInput)) = true := by
  decide +kernel

theorem compose_of_run_main_sampleInput :
    ∃ nodes groups,
      compose (final ((main 6 300).run (initial sampleInput))).events =
        some (configContent nodes groups) ∧
      groups.map Prod.fst = [utf8 "🏴 🇯🇵 🇰🇷 🇷🇺 🇸🇬 🇹🇼", utf8 "NON_HK", utf8 "🏴", utf8 "🇯🇵",
        utf8 "🇹🇼"] := by
  obtain ⟨nodes, groups, hcompose, -, htitles, rfl, -⟩ :=
    compose_of_run_main (eq_ok_of_returned returned_main_sampleInput)
  exact ⟨_, groups, hcompose, htitles.trans (by decide +kernel)⟩

end Convert
