import Clash.Convert.Run

/-!
# Grouping the kept nodes

The laws of the nine lists that `group` fills.

## Main definitions

* `groupLines`: `group` line by line, with its flag.
* `Grouped`: what a call does to the lists.

## Main results

* `run_group_eq`: `group` is its lines.
* `forM_group`: the laws hold for every call and for the lists behind any row of calls.
-/

open CProg CString Yaml

namespace Convert

variable {s : CString} {st st' : State} {names : List CString}

/-! ## The lines of `group` -/

/-- `G_SLIST_PREPEND(l,strdup(s))`. -/
def prepend (l : GList) (s : CString) : Prog State Unit :=
  modify fun st => { st with lists := Function.update st.lists l (s :: st.lists l) }

/-- `jp`, with its assertion. -/
def assertJp (s : CString) : Prog State Bool := do
  assert (s ≠ [])
  return jp s

/-- A line of `group`: a match adds the name to a list and clears the flag `xx`. -/
def line (matched : Bool) (l : GList) (s : CString) (xx : Bool) : Prog State Bool := do
  if matched then
    prepend l s
    return false
  return xx

/-- The test of the first line. `||` does not call `jp` behind a match. -/
def matchAsia (s : CString) : Prog State Bool :=
  if strstrArrVa s [hk, kr, ru, sg, tw] then pure true else assertJp s

/-- `group`, line by line. -/
def groupLines (s : CString) : Prog State Unit := do
  let xx := true
  let xx ← line (← matchAsia s) .asia s xx
  let xx ← line (strstrArrVa s [au, ca, us]) .aucaus s xx
  let xx ← line (strstrArrVa s [eu, gb]) .eugb s xx
  let xx ← line (strstrArrVa s [hk]) .hk s xx
  let xx ← line (strstrArrVa s [kr]) .kr s xx
  -- the only line that leaves the flag
  let _ ← line (!strstrArrVa s [hk]) .nonHk s xx
  let xx ← line (strstrArrVa s [tw]) .tw s xx
  let xx ← line (← assertJp s) .jp s xx
  if xx then
    prepend .xx s

@[simp] theorem run_prepend (l : GList) (s : CString) (st : State) :
    (prepend l s).run st =
      .ok () { st with lists := Function.update st.lists l (s :: st.lists l) } := rfl

@[simp] theorem run_assertJp (hs : s ≠ []) (st : State) : (assertJp s).run st = .ok (jp s) st := by
  simp [assertJp, hs]

/-- The list of a line behind it. -/
def grown (b : Bool) (s : CString) (names : List CString) : List CString :=
  if b then s :: names else names

@[simp] theorem run_line (b : Bool) (l : GList) (s : CString) (xx : Bool) (st : State) :
    (line b l s xx).run st =
      .ok (xx && !b) { st with lists := Function.update st.lists l (grown b s (st.lists l)) } := by
  cases b
  · have hsame : Function.update st.lists l (grown false s (st.lists l)) = st.lists :=
      Function.update_eq_self l st.lists
    rw [hsame, Bool.not_false, Bool.and_true]
    rfl
  · rw [Bool.not_true, Bool.and_false]
    rfl

theorem strstrArrVa_nil (arrays : List (List String))
    (h : ∀ array ∈ arrays, ∀ needle ∈ array, utf8 needle ≠ []) : strstrArrVa [] arrays = false := by
  simp only [strstrArrVa, List.any_eq_false]
  intro array harray hany
  obtain ⟨needle, hneedle, hstrstr⟩ := List.any_eq_true.mp hany
  exact h array harray needle hneedle (List.eq_nil_of_infix_nil (strstr_iff.mp hstrstr))

theorem run_matchAsia (hs : s ≠ []) (st : State) :
    (matchAsia s).run st = .ok (belongs s .asia) st := by
  rw [matchAsia, belongs]
  by_cases h : strstrArrVa s [hk, kr, ru, sg, tw] = true
  · rw [if_pos h, h]
    rfl
  · rw [if_neg h, run_assertJp hs, Bool.not_eq_true _ |>.mp h, Bool.false_or]

theorem run_prepend_xx (xx : Bool) (st : State) :
    (if xx = true then prepend .xx s else pure ()).run st =
      .ok () { st with lists := Function.update st.lists .xx (grown xx s (st.lists .xx)) } := by
  cases xx
  · have hsame : Function.update st.lists .xx (grown false s (st.lists .xx)) = st.lists :=
      Function.update_eq_self _ st.lists
    rw [hsame]
    rfl
  · rfl

/-- `group` is its lines. -/
theorem run_group_eq (s : CString) (st : State) : (group s).run st = (groupLines s).run st := by
  by_cases hs : s = []
  · subst hs
    have hnone : strstrArrVa [] [hk, kr, ru, sg, tw] = false := strstrArrVa_nil _ (by decide)
    simp [group, groupLines, matchAsia, hnone, assertJp]
  · -- the lists of both sides agree, name by name
    rw [run_group hs, groupLines, EStateM.run_bind, run_matchAsia hs]
    simp only [EStateM.run_bind, run_line, run_assertJp hs, run_prepend_xx]
    congr 2
    ext l : 1
    cases l with
    | xx =>
      -- the flag is what is left when each line has taken its part
      have hxx : (true && !belongs s .asia && !strstrArrVa s [au, ca, us] &&
          !strstrArrVa s [eu, gb] && !strstrArrVa s [hk] && !strstrArrVa s [kr] &&
          !strstrArrVa s [tw] && !jp s) = belongs s .xx := by
        simp only [belongs, Bool.not_or, Bool.true_and]
      rw [hxx]
      rfl
    | _ => rfl

/-! ## The laws of the lists -/

theorem strstrArrVa_of_mem {arrays : List (List String)} {array : List String}
    (harray : array ∈ arrays) (h : strstrArrVa s [array] = true) :
    strstrArrVa s arrays = true := by
  rw [strstrArrVa, List.any_cons, List.any_nil, Bool.or_false] at h
  exact List.any_eq_true.mpr ⟨array, harray, h⟩

/-- The lists of Hong Kong, Japan, Korea and Taiwan are part of the list of Asia. -/
theorem belongs_asia (h : belongs s .hk ∨ belongs s .jp ∨ belongs s .kr ∨ belongs s .tw) :
    belongs s .asia = true := by
  rw [belongs, Bool.or_eq_true]
  rcases h with h | h | h | h
  · exact .inl (strstrArrVa_of_mem (by simp) h)
  · exact .inr h
  · exact .inl (strstrArrVa_of_mem (by simp) h)
  · exact .inl (strstrArrVa_of_mem (by simp) h)

/-- The flag is left exactly if the name is in none of the three large regions. -/
theorem belongs_xx :
    belongs s .xx = true ↔
      belongs s .asia = false ∧ belongs s .aucaus = false ∧ belongs s .eugb = false := by
  have hunfold : belongs s .xx = !(belongs s .asia || belongs s .aucaus || belongs s .eugb ||
      belongs s .hk || belongs s .kr || belongs s .tw || belongs s .jp) := rfl
  rw [hunfold, Bool.not_eq_true', Bool.or_eq_false_iff, Bool.or_eq_false_iff,
    Bool.or_eq_false_iff, Bool.or_eq_false_iff, Bool.or_eq_false_iff, Bool.or_eq_false_iff]
  constructor
  · rintro ⟨⟨⟨⟨⟨⟨hasia, haucaus⟩, heugb⟩, -⟩, -⟩, -⟩, -⟩
    exact ⟨hasia, haucaus, heugb⟩
  · rintro ⟨hasia, haucaus, heugb⟩
    -- the four single regions are parts of Asia
    have hsub : ¬ (belongs s .hk ∨ belongs s .jp ∨ belongs s .kr ∨ belongs s .tw) := by
      intro h
      rw [belongs_asia h] at hasia
      cases hasia
    simp only [not_or, Bool.not_eq_true] at hsub
    obtain ⟨hhk, hjp, hkr, htw⟩ := hsub
    exact ⟨⟨⟨⟨⟨⟨hasia, haucaus⟩, heugb⟩, hhk⟩, hkr⟩, htw⟩, hjp⟩

theorem belongs_nonHk : belongs s .nonHk = !belongs s .hk := rfl

/-- A call leaves a list alone, or puts the name in front of it. -/
def Lands (st st' : State) (s : CString) (l : GList) : Prop := st'.lists l = s :: st.lists l

/-- What a call with the name `s` does to the lists. -/
structure Grouped (st st' : State) (s : CString) : Prop where
  once : ∀ l, Lands st st' s l ∨ st'.lists l = st.lists l
  hk : Xor (Lands st st' s .hk) (Lands st st' s .nonHk)
  xx : Lands st st' s .xx ↔
    ¬ Lands st st' s .asia ∧ ¬ Lands st st' s .aucaus ∧ ¬ Lands st st' s .eugb
  asia : Lands st st' s .hk ∨ Lands st st' s .jp ∨ Lands st st' s .kr ∨ Lands st st' s .tw →
    Lands st st' s .asia

/-- `group` obeys the laws. -/
theorem grouped_of_run (hs : s ≠ []) (st : State) :
    ∃ st', (group s).run st = .ok () st' ∧ Grouped st st' s ∧
      ∀ l, st'.lists l = members [s] l ++ st.lists l := by
  refine ⟨_, run_group hs st, ?_, fun l => ?_⟩
  · set st' : State :=
      { st with lists := fun l => if belongs s l then s :: st.lists l else st.lists l }
    -- a name lands in the lists that it belongs to
    have hlands (l : GList) : Lands st st' s l ↔ belongs s l = true := by
      change (if belongs s l then s :: st.lists l else st.lists l) = _ ↔ _
      split <;> simp [*]
    constructor
    · intro l
      change (if belongs s l then s :: st.lists l else st.lists l) = _ ∨
        (if belongs s l then s :: st.lists l else st.lists l) = _
      split
      · exact .inl rfl
      · exact .inr rfl
    · rw [hlands, hlands, belongs_nonHk]
      cases belongs s .hk <;> simp [Xor]
    · simp only [hlands, belongs_xx, Bool.not_eq_true]
    · simp only [hlands]
      exact belongs_asia
  · rw [members_singleton]
    split <;> simp [*]

/-- Behind a row of calls every list has the names that belong to it. -/
theorem run_forM_group (hnames : ∀ s ∈ names, s ≠ []) (st : State) :
    ∃ st', (names.forM group).run st = .ok () st' ∧
      ∀ l, st'.lists l = members names l ++ st.lists l := by
  induction names generalizing st with
  | nil => exact ⟨st, rfl, fun l => rfl⟩
  | cons s names ih =>
    rw [List.forall_mem_cons] at hnames
    obtain ⟨st₁, hrun₁, -, hlists₁⟩ := grouped_of_run hnames.1 st
    obtain ⟨st₂, hrun₂, hlists₂⟩ := ih hnames.2 st₁
    refine ⟨st₂, ?_, fun l => ?_⟩
    · change EStateM.run (group s >>= fun _ => names.forM group) st = _
      rw [EStateM.run_bind, hrun₁]
      exact hrun₂
    · have hcons : members (s :: names) l = members names l ++ members [s] l :=
        members_append [s] names l
      rw [hlists₂, hlists₁, hcons, List.append_assoc]

theorem mem_members {l : GList} : s ∈ members names l ↔ s ∈ names ∧ belongs s l = true := by
  rw [members, List.mem_reverse, List.mem_filter]

/-- From empty lists, every call of a row obeys the laws, and behind it the names are divided
between two lists and each of them is in a region or in the rest. -/
theorem forM_group (hnames : ∀ s ∈ names, s ≠ []) (hempty : ∀ l, st.lists l = []) :
    (∀ before s after, names = before ++ s :: after →
      ∃ st₁ st₂, (before.forM group).run st = .ok () st₁ ∧ (group s).run st₁ = .ok () st₂ ∧
        Grouped st₁ st₂ s) ∧
      ∃ st', (names.forM group).run st = .ok () st' ∧
        (st'.lists .hk ++ st'.lists .nonHk).Perm names ∧
        (∀ s ∈ names, s ∈ st'.lists .hk ↔ s ∉ st'.lists .nonHk) ∧
        (∀ s ∈ names, s ∈ st'.lists .xx ↔
          s ∉ st'.lists .asia ∧ s ∉ st'.lists .aucaus ∧ s ∉ st'.lists .eugb) ∧
        ∀ s, s ∈ st'.lists .hk ∨ s ∈ st'.lists .jp ∨ s ∈ st'.lists .kr ∨ s ∈ st'.lists .tw →
          s ∈ st'.lists .asia := by
  constructor
  · -- the row up to the call, and the call itself
    rintro before s after rfl
    have hbefore : ∀ s ∈ before, s ≠ [] := fun s hs => hnames s (List.mem_append_left _ hs)
    have hs : s ≠ [] := hnames s (List.mem_append_right _ List.mem_cons_self)
    obtain ⟨st₁, hrun₁, -⟩ := run_forM_group hbefore st
    obtain ⟨st₂, hrun₂, hgrouped, -⟩ := grouped_of_run hs st₁
    exact ⟨st₁, st₂, hrun₁, hrun₂, hgrouped⟩
  · -- behind the row, each list holds the names that belong to it
    obtain ⟨st', hrun, hlists⟩ := run_forM_group hnames st
    have hmem (s : CString) (l : GList) : s ∈ st'.lists l ↔ s ∈ names ∧ belongs s l = true := by
      rw [hlists, hempty, List.append_nil, mem_members]
    refine ⟨st', hrun, ?_, ?_, ?_, ?_⟩
    · -- the names with a region of their own and the other ones are all of them
      rw [hlists, hlists, hempty, hempty, List.append_nil, List.append_nil, members, members]
      refine ((List.reverse_perm _).append (List.reverse_perm _)).trans ?_
      exact List.filter_append_perm (belongs · .hk) names
    · intro s hs
      simp only [hmem, hs, true_and, belongs_nonHk, Bool.not_eq_true', Bool.not_eq_false]
    · intro s hs
      simp only [hmem, hs, true_and, belongs_xx, Bool.not_eq_true]
    · intro s h
      simp only [hmem] at h ⊢
      rcases h with ⟨hs, h⟩ | ⟨hs, h⟩ | ⟨hs, h⟩ | ⟨hs, h⟩
      · exact ⟨hs, belongs_asia (.inl h)⟩
      · exact ⟨hs, belongs_asia (.inr (.inl h))⟩
      · exact ⟨hs, belongs_asia (.inr (.inr (.inl h)))⟩
      · exact ⟨hs, belongs_asia (.inr (.inr (.inr h)))⟩

/-- `forM_group` for two names, from the state in which `main` starts. -/
theorem forM_group_sample :
    (∀ before s after, [utf8 "香港 01", utf8 "node"] = before ++ s :: after →
      ∃ st₁ st₂, (before.forM group).run (initial ⟨[], false⟩) = .ok () st₁ ∧
        (group s).run st₁ = .ok () st₂ ∧ Grouped st₁ st₂ s) ∧
      ∃ st', ([utf8 "香港 01", utf8 "node"].forM group).run (initial ⟨[], false⟩) = .ok () st' ∧
        (st'.lists .hk ++ st'.lists .nonHk).Perm [utf8 "香港 01", utf8 "node"] ∧
        (∀ s ∈ [utf8 "香港 01", utf8 "node"], s ∈ st'.lists .hk ↔ s ∉ st'.lists .nonHk) ∧
        (∀ s ∈ [utf8 "香港 01", utf8 "node"], s ∈ st'.lists .xx ↔
          s ∉ st'.lists .asia ∧ s ∉ st'.lists .aucaus ∧ s ∉ st'.lists .eugb) ∧
        ∀ s, s ∈ st'.lists .hk ∨ s ∈ st'.lists .jp ∨ s ∈ st'.lists .kr ∨ s ∈ st'.lists .tw →
          s ∈ st'.lists .asia :=
  forM_group (by decide) fun _ => rfl

end Convert
