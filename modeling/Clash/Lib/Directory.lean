import Mathlib.Logic.Equiv.Basic

/-!
# Directories

The files of a directory by name, and rows of `rename(2)`. A file that has the new name is replaced
and lost.

## Main definitions

* `Dir`, `rename`, `renameAll`: a directory, and what renames do to it.
* `undo`: the row that takes a row of renames back, the last one first.
* `Free d rs`: each rename of the row finds its new name free.
* `Permuted d d'`: the same files, under other names.

## Main results

* `renameAll_undo`: a row and its `undo` leave the directory as it was, without the new names.
* `Free.permuted`: a row of renames to free names loses no file.
* `free_undo`: if the new names are free, then they are and the old ones are for the `undo`.
-/

namespace Directory

variable {Name File : Type}

/-- The file under each name, if there is one. -/
abbrev Dir (Name File : Type) := Name → Option File

variable [DecidableEq Name] {d d' : Dir Name File} {r : Name × Name} {rs rs' : List (Name × Name)}

/-- `rename(2)`, from the first name to the second. -/
def rename (d : Dir Name File) (r : Name × Name) : Dir Name File :=
  Function.update (Function.update d r.1 none) r.2 (d r.1)

/-- A row of renames. -/
def renameAll (d : Dir Name File) (rs : List (Name × Name)) : Dir Name File := rs.foldl rename d

/-- A row of renames in two parts. -/
theorem renameAll_append : renameAll d (rs ++ rs') = renameAll (renameAll d rs) rs' :=
  List.foldl_append

theorem renameAll_cons : renameAll d (r :: rs) = renameAll (rename d r) rs := rfl

@[simp] theorem renameAll_nil : renameAll d [] = d := rfl

/-- The new name has the file that the old one had. -/
@[simp] theorem rename_new : rename d r r.2 = d r.1 := Function.update_self _ _ _

/-- The old name is free afterwards. -/
theorem rename_old (h : r.1 ≠ r.2) : rename d r r.1 = none := by
  rw [rename, Function.update_of_ne h, Function.update_self]

/-- Other names are left alone. -/
theorem rename_of_ne {n : Name} (hold : n ≠ r.1) (hnew : n ≠ r.2) : rename d r n = d n := by
  rw [rename, Function.update_of_ne hnew, Function.update_of_ne hold]

/-! ## Taking renames back -/

/-- The renames that take a row back. -/
def undo (rs : List (Name × Name)) : List (Name × Name) := (rs.map Prod.swap).reverse

omit [DecidableEq Name] in
/-- The first rename is undone last. -/
theorem undo_cons : undo (r :: rs) = undo rs ++ [r.swap] := by
  rw [undo, List.map_cons, List.reverse_cons]
  rfl

/-- The names of the row. -/
def names (rs : List (Name × Name)) : List Name := rs.flatMap fun r => [r.1, r.2]

omit [DecidableEq Name] in
theorem names_cons : names (r :: rs) = r.1 :: r.2 :: names rs := rfl

omit [DecidableEq Name] in
/-- Both names of a rename are among those of the row. -/
theorem mem_names (hr : r ∈ rs) : r.1 ∈ names rs ∧ r.2 ∈ names rs :=
  ⟨List.mem_flatMap.mpr ⟨r, hr, List.mem_cons_self⟩,
    List.mem_flatMap.mpr ⟨r, hr, List.mem_cons_of_mem _ List.mem_cons_self⟩⟩

/-- The directory without some names. -/
def without (d : Dir Name File) (ns : List Name) : Dir Name File :=
  fun n => if n ∈ ns then none else d n

/-- The names that are left out are free. -/
theorem without_of_mem {ns : List Name} {n : Name} (h : n ∈ ns) : without d ns n = none := if_pos h

/-- The other ones are as they were. -/
theorem without_of_notMem {ns : List Name} {n : Name} (h : n ∉ ns) : without d ns n = d n :=
  if_neg h

/-- Nothing is lost where the names were free. -/
theorem without_eq_self {ns : List Name} (h : ∀ n ∈ ns, d n = none) : without d ns = d := by
  funext n
  by_cases hn : n ∈ ns
  · rw [without_of_mem hn, h n hn]
  · rw [without_of_notMem hn]

/-- A rename, other changes that leave its names alone, and the rename back. -/
theorem rename_without_rename {ns : List Name} (hne : r.1 ≠ r.2) (hold : r.1 ∉ ns)
    (hnew : r.2 ∉ ns) : rename (without (rename d r) ns) r.swap = without d (r.2 :: ns) := by
  funext n
  -- the old name, the new one, and the other ones
  rcases eq_or_ne n r.1 with rfl | hn
  · have hback : rename (without (rename d r) ns) r.swap r.1 = without (rename d r) ns r.2 :=
      rename_new (r := r.swap)
    rw [hback, without_of_notMem hnew, rename_new, without_of_notMem]
    rw [List.mem_cons, not_or]
    exact ⟨hne, hold⟩
  rcases eq_or_ne n r.2 with rfl | hn'
  · rw [without_of_mem List.mem_cons_self]
    exact rename_old (r := r.swap) hne.symm
  · rw [rename_of_ne (r := r.swap) hn' hn]
    by_cases hmem : n ∈ ns
    · rw [without_of_mem hmem, without_of_mem (List.mem_cons_of_mem _ hmem)]
    · have hcons : n ∉ r.2 :: ns := by
        rw [List.mem_cons, not_or]
        exact ⟨hn', hmem⟩
      rw [without_of_notMem hmem, without_of_notMem hcons, rename_of_ne hn hn']

/-- A row and its `undo` leave the directory without the new names. -/
theorem renameAll_undo (h : (names rs).Nodup) :
    renameAll d (rs ++ undo rs) = without d (rs.map Prod.snd) := by
  induction rs generalizing d with
  | nil => rfl
  | cons r rs ih =>
    rw [names_cons, List.nodup_cons, List.nodup_cons, List.mem_cons, not_or] at h
    obtain ⟨⟨hne, hold⟩, hnew, hrs⟩ := h
    rw [undo_cons, List.cons_append, renameAll_cons, ← List.append_assoc, renameAll_append, ih hrs,
      renameAll_cons, renameAll_nil]
    have hmap : ∀ n ∉ names rs, n ∉ rs.map Prod.snd := by
      intro n hn hmem
      obtain ⟨r', hr', rfl⟩ := List.mem_map.mp hmem
      exact hn (mem_names hr').2
    exact rename_without_rename hne (hmap _ hold) (hmap _ hnew)

/-! ## Files are kept -/

/-- Each rename of the row finds its new name free. -/
def Free (d : Dir Name File) : List (Name × Name) → Prop
  | [] => True
  | r :: rs => d r.2 = none ∧ Free (rename d r) rs

/-- Targets are free in a row exactly if they are in both parts of it. -/
theorem free_append : Free d (rs ++ rs') ↔ Free d rs ∧ Free (renameAll d rs) rs' := by
  induction rs generalizing d with
  | nil => simp [Free]
  | cons r rs ih => rw [List.cons_append, Free, Free, ih, renameAll_cons, and_assoc]

/-- A row that is cut short has free targets as well. -/
theorem Free.mono (h : Free d rs) (hinit : rs' <+: rs) : Free d rs' := by
  obtain ⟨rest, rfl⟩ := hinit
  exact (free_append.mp h).1

/-- The same files under other names: none is lost, and none is there twice. -/
def Permuted (d d' : Dir Name File) : Prop := ∃ π : Equiv.Perm Name, d' = d ∘ π

omit [DecidableEq Name] in
/-- Files that are moved and moved again are moved. -/
theorem Permuted.trans {d'' : Dir Name File} (h : Permuted d d') (h' : Permuted d' d'') :
    Permuted d d'' := by
  obtain ⟨π, rfl⟩ := h
  obtain ⟨π', rfl⟩ := h'
  exact ⟨π'.trans π, rfl⟩

/-- A rename to a free name exchanges two names. -/
theorem rename_eq_swap (h : d r.2 = none) : rename d r = d ∘ Equiv.swap r.1 r.2 := by
  funext n
  rw [Function.comp_apply]
  rcases eq_or_ne n r.2 with rfl | hnew
  · rw [rename_new, Equiv.swap_apply_right]
  rcases eq_or_ne n r.1 with rfl | hold
  · rw [rename_old hnew, Equiv.swap_apply_left, h]
  · rw [rename_of_ne hold hnew, Equiv.swap_apply_of_ne_of_ne hold hnew]

/-- A row of renames to free names loses no file. -/
theorem Free.permuted (h : Free d rs) : Permuted d (renameAll d rs) := by
  induction rs generalizing d with
  | nil => exact ⟨Equiv.refl _, rfl⟩
  | cons r rs ih =>
    obtain ⟨hnew, hrs⟩ := h
    have hfirst : Permuted d (rename d r) := ⟨Equiv.swap r.1 r.2, rename_eq_swap hnew⟩
    exact hfirst.trans (ih hrs)

/-- Where the new names of a row are free, they are free for it, and the old ones for its `undo`. -/
theorem free_undo (hnames : (names rs).Nodup) (h : ∀ r ∈ rs, d r.2 = none) :
    Free d (rs ++ undo rs) := by
  induction rs generalizing d with
  | nil => exact trivial
  | cons r rs ih =>
    rw [names_cons, List.nodup_cons, List.nodup_cons, List.mem_cons, not_or] at hnames
    obtain ⟨⟨hne, hold⟩, hnew, hrs⟩ := hnames
    have hfree : ∀ r' ∈ rs, rename d r r'.2 = none := by
      intro r' hr'
      have hmem := (mem_names hr').2
      rw [rename_of_ne (fun heq => hold (heq ▸ hmem)) (fun heq => hnew (heq ▸ hmem))]
      exact h r' (List.mem_cons_of_mem _ hr')
    rw [undo_cons, List.cons_append, ← List.append_assoc]
    refine ⟨h r List.mem_cons_self, free_append.mpr ⟨ih hrs hfree, ?_, trivial⟩⟩
    -- the old name is free behind the rename, and the row in between does not touch it
    rw [renameAll_undo hrs, Prod.snd_swap]
    have hmap : r.1 ∉ rs.map Prod.snd := by
      intro hmem
      obtain ⟨r', hr', heq⟩ := List.mem_map.mp hmem
      exact hold (heq ▸ (mem_names hr').2)
    rw [without_of_notMem hmap, rename_old hne]

/-- A name that a row does not mention is left alone. -/
theorem renameAll_of_notMem {n : Name} (h : n ∉ names rs) : renameAll d rs n = d n := by
  induction rs generalizing d with
  | nil => rfl
  | cons r rs ih =>
    rw [names_cons, List.mem_cons, List.mem_cons, not_or, not_or] at h
    obtain ⟨hold, hnew, hrs⟩ := h
    rw [renameAll_cons, ih hrs, rename_of_ne hold hnew]

/-- The first name of a row is free behind it. -/
theorem renameAll_first (h : (names (r :: rs)).Nodup) : renameAll d (r :: rs) r.1 = none := by
  rw [names_cons, List.nodup_cons, List.mem_cons, not_or] at h
  obtain ⟨⟨hne, hold⟩, -⟩ := h
  rw [renameAll_cons, renameAll_of_notMem hold, rename_old hne]

end Directory
