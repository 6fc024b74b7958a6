import Mathlib.Data.Nat.Notation
import Mathlib.Logic.Function.Basic

/-!
# Names and files

A file system in which names lead to inodes, with the calls that remove a name, open a file for
writing and write to it. What decides whether a call succeeds (owners, modes, mounts, quotas) is up
to the system and a parameter.

## Main definitions

* `Fs`: the names and the inodes.
* `Fs.follow`: the name that the symbolic links from a name end at.
* `Outcomes`: what the system answers.
* `Fs.openWrite`: `open(2)` for writing, with `O_CREAT`.
* `Untouched`: the files of an earlier state are as they were.
* `OnlyNew`: they are, and the name leads to no file or to a later one.
* `Contains`: the name leads to a regular file with these bytes.

## Main results

* `OnlyNew.openWrite`, `OnlyNew.append`: opening the name and writing to it keeps this.
* `openWrite_of_regular`, `Contains.append`: what a file contains that was opened and written to.
-/

namespace FileSystem

variable {Path : Type}

/-- What an inode is. -/
inductive Kind (Path : Type) where
  | regular
  | directory
  | symlink (target : Path)
  /-- A fifo, a socket or a device. -/
  | special

structure Inode (Path : Type) where
  owner : ℕ
  /-- The permission bits. -/
  mode : ℕ
  kind : Kind Path
  /-- The bytes of a file, or what was written to a special one. -/
  content : List UInt8

/-- The inodes by number, and the inode that a path names. An inode without a name stays, so that
its number is not used again. -/
structure Fs (Path : Type) where
  inodes : List (Inode Path)
  names : Path → Option ℕ
  names_lt : ∀ p i, names p = some i → i < inodes.length

/-! ## Errors -/

abbrev eperm : ℕ := 1
abbrev enoent : ℕ := 2
abbrev eacces : ℕ := 13
abbrev eisdir : ℕ := 21
abbrev eloop : ℕ := 40

/-- What the system answers to the calls of a process. -/
structure Outcomes (Path : Type) where
  /-- The error of `unlink`, if it fails. -/
  unlink : Fs Path → Path → Option ℕ
  /-- There is nothing to remove. -/
  unlink_enoent : ∀ fs p, unlink fs p = some enoent → fs.names p = none
  /-- The error of `open` at the end of the links, if it fails, without and with `O_TRUNC`. -/
  openWrite : Bool → Fs Path → Path → Option ℕ
  /-- How many bytes are written. -/
  accepts : Fs Path → ℕ → List UInt8 → ℕ

namespace Fs

/-! ## Changes -/

/-- The inode that a path names. -/
def lookup (fs : Fs Path) (p : Path) : Option (Inode Path) := fs.names p >>= (fs.inodes[·]?)

variable [DecidableEq Path]

/-- Without a name. -/
def remove (fs : Fs Path) (p : Path) : Fs Path where
  inodes := fs.inodes
  names := Function.update fs.names p none
  names_lt q i h := by
    rcases eq_or_ne q p with rfl | hq
    · simp at h
    · rw [Function.update_of_ne hq] at h
      exact fs.names_lt q i h

/-- A name that is removed is free. -/
@[simp] theorem names_remove (fs : Fs Path) (p : Path) : (fs.remove p).names p = none := by
  show Function.update fs.names p none p = none
  rw [Function.update_self]

/-- With a new inode under a name. -/
def create (fs : Fs Path) (p : Path) (n : Inode Path) : Fs Path where
  inodes := fs.inodes ++ [n]
  names := Function.update fs.names p (some fs.inodes.length)
  names_lt q i h := by
    rw [List.length_append, List.length_singleton]
    rcases eq_or_ne q p with rfl | hq
    · rw [Function.update_self] at h
      cases h
      omega
    · rw [Function.update_of_ne hq] at h
      have := fs.names_lt q i h
      omega

/-- A file that is created is the last one of the table. -/
@[simp] theorem names_create (fs : Fs Path) (p : Path) (n : Inode Path) :
    (fs.create p n).names p = some fs.inodes.length := by
  show Function.update fs.names p (some fs.inodes.length) p = some fs.inodes.length
  rw [Function.update_self]

omit [DecidableEq Path] in
/-- With a changed content of an inode. -/
def change (fs : Fs Path) (i : ℕ) (f : List UInt8 → List UInt8) : Fs Path where
  inodes := fs.inodes.modify i fun n => { n with content := f n.content }
  names := fs.names
  names_lt p j h := by
    rw [List.length_modify]
    exact fs.names_lt p j h

/-- The path behind the symbolic links from a path, with at most so many of them. -/
def follow (fs : Fs Path) : ℕ → Path → Option Path
  | 0, _ => none
  | n + 1, p =>
    match fs.lookup p with
    | some { kind := .symlink target, .. } => fs.follow n target
    | _ => some p

/-- `open(2)` for writing with `O_CREAT`, and `O_TRUNC` or not: the error, or the inode and what has
become of the file system. `n` is the inode of a file that is created. -/
def openWrite (o : Outcomes Path) (n : Inode Path) (truncates : Bool) (fs : Fs Path) (p : Path) :
    Except ℕ (ℕ × Fs Path) :=
  match fs.follow 40 p with
  | none => .error eloop
  | some q =>
    match o.openWrite truncates fs q with
    | some e => .error e
    | none =>
      match fs.names q with
      | none => .ok (fs.inodes.length, fs.create q n)
      | some i =>
        match fs.inodes[i]? with
        | some { kind := .directory, .. } => .error eisdir
        | some { kind := .regular, .. } =>
          .ok (i, if truncates then fs.change i fun _ => [] else fs)
        | _ => .ok (i, fs)

omit [DecidableEq Path] in
/-- `write(2)` at the end of the file, as far as it is accepted. -/
def append (o : Outcomes Path) (fs : Fs Path) (i : ℕ) (bs : List UInt8) : Fs Path :=
  fs.change i (· ++ bs.take (o.accepts fs i bs))

end Fs

/-! ## What is left alone -/

/-- The inodes that there were are as they were. -/
def Untouched (fs₀ fs : Fs Path) : Prop := fs₀.inodes <+: fs.inodes

/-- The inodes that there were are as they were, and the path leads to none of them: it is free, or
names a regular file that has been created since. -/
structure OnlyNew (fs₀ : Fs Path) (p : Path) (fs : Fs Path) : Prop where
  untouched : Untouched fs₀ fs
  new : ∀ i, fs.names p = some i → fs₀.inodes.length ≤ i
  regular : ∀ n, fs.lookup p = some n → n.kind = .regular

section OnlyNew

variable {fs₀ fs fs' : Fs Path} {p : Path} {i : ℕ}

/-- Nothing has changed yet. -/
theorem Untouched.refl (fs : Fs Path) : Untouched fs fs := List.prefix_refl _

/-- A change of a new file touches no old one. -/
theorem untouched_change {f : List UInt8 → List UInt8} (h : Untouched fs₀ fs)
    (hi : fs₀.inodes.length ≤ i) : Untouched fs₀ (fs.change i f) := by
  apply List.prefix_iff_getElem?.mpr
  intro j hj
  have hne : i ≠ j := by omega
  have hj' := List.prefix_iff_getElem?.mp h j hj
  show (fs.inodes.modify i _)[j]? = _
  rw [List.getElem?_modify, hj']
  simp only [hne, ↓reduceIte, Functor.map, Option.map_some]

/-- What a name leads to. -/
theorem lookup_of_names (h : fs.names p = some i) : fs.lookup p = fs.inodes[i]? := by
  rw [Fs.lookup, h]
  rfl

/-- A change of the content keeps the kinds. -/
theorem kind_of_lookup_change {f : List UInt8 → List UInt8} {n : Inode Path}
    (h : (fs.change i f).lookup p = some n) : ∃ m, fs.lookup p = some m ∧ m.kind = n.kind := by
  rcases hp : fs.names p with _ | j
  · rw [Fs.lookup, show (fs.change i f).names p = none from hp] at h
    cases h
  · rw [lookup_of_names (show (fs.change i f).names p = some j from hp)] at h
    rw [lookup_of_names hp]
    change (fs.inodes.modify i _)[j]? = some n at h
    rw [List.getElem?_modify] at h
    obtain ⟨m, hm, rfl⟩ := Option.map_eq_some_iff.mp h
    refine ⟨m, hm, ?_⟩
    split <;> rfl

/-- A change of a new file keeps the old ones out. -/
theorem OnlyNew.change {f : List UInt8 → List UInt8} (h : OnlyNew fs₀ p fs)
    (hi : fs₀.inodes.length ≤ i) : OnlyNew fs₀ p (fs.change i f) where
  untouched := untouched_change h.untouched hi
  new := h.new
  regular n hn := by
    obtain ⟨m, hm, hkind⟩ := kind_of_lookup_change hn
    rw [← hkind]
    exact h.regular m hm

/-- A free name leads to no file. -/
theorem onlyNew_of_free (h : Untouched fs₀ fs) (hp : fs.names p = none) : OnlyNew fs₀ p fs where
  untouched := h
  new i hi := by
    rw [hp] at hi
    cases hi
  regular n hn := by
    rw [Fs.lookup, hp] at hn
    cases hn

/-- A path that names a regular file, or nothing, leads to no link. -/
theorem follow_of_regular (h : ∀ n, fs.lookup p = some n → n.kind = .regular) (k : ℕ) :
    fs.follow (k + 1) p = some p := by
  rw [Fs.follow]
  split
  · rename_i hlookup
    exact absurd (h _ hlookup) nofun
  · rfl

/-- So does the creation of a regular file. -/
theorem onlyNew_create [DecidableEq Path] {n : Inode Path} (h : Untouched fs₀ fs)
    (hn : n.kind = .regular) : OnlyNew fs₀ p (fs.create p n) := by
  have hnames := fs.names_create p n
  refine ⟨h.trans (List.prefix_append _ _), ?_, ?_⟩
  · intro i hi
    rw [hnames] at hi
    cases hi
    exact h.length_le
  · intro m hm
    rw [lookup_of_names hnames] at hm
    change (fs.inodes ++ [n])[fs.inodes.length]? = some m at hm
    rw [List.getElem?_concat_length] at hm
    cases hm
    exact hn

/-- Opening the name for writing creates a file, or opens one that has been created since. -/
theorem OnlyNew.openWrite [DecidableEq Path] {o : Outcomes Path} {n : Inode Path}
    {truncates : Bool} (h : OnlyNew fs₀ p fs) (hn : n.kind = .regular)
    (hopen : fs.openWrite o n truncates p = .ok (i, fs')) :
    OnlyNew fs₀ p fs' ∧ fs₀.inodes.length ≤ i ∧ fs'.names p = some i := by
  rw [Fs.openWrite, follow_of_regular h.regular] at hopen
  dsimp only at hopen
  split at hopen
  · cases hopen
  split at hopen
  · cases hopen
    exact ⟨onlyNew_create h.untouched hn, h.untouched.length_le, fs.names_create p n⟩
  · rename_i j hj
    have hnew := h.new j hj
    split at hopen
    · cases hopen
    -- the file may be truncated
    · cases hopen
      cases truncates
      · exact ⟨h, hnew, hj⟩
      · rw [if_pos rfl]
        exact ⟨h.change hnew, hnew, hj⟩
    · cases hopen
      exact ⟨h, hnew, hj⟩

/-- And so does a write. -/
theorem OnlyNew.append {o : Outcomes Path} (h : OnlyNew fs₀ p fs) (hi : fs₀.inodes.length ≤ i)
    (bs : List UInt8) : OnlyNew fs₀ p (fs.append o i bs) := h.change hi

end OnlyNew

/-! ## What a file contains -/

/-- The path names a regular file with this content. -/
structure Contains (fs : Fs Path) (p : Path) (i : ℕ) (content : List UInt8) : Prop where
  name : fs.names p = some i
  file : ∃ n, fs.inodes[i]? = some n ∧ n.kind = .regular ∧ n.content = content

section Contains

variable {fs : Fs Path} {p : Path} {i : ℕ} {content : List UInt8} {o : Outcomes Path}

/-- The content behind a change, -/
theorem Contains.change (h : Contains fs p i content) (f : List UInt8 → List UInt8) :
    Contains (fs.change i f) p i (f content) := by
  obtain ⟨n, hn, hkind, rfl⟩ := h.file
  refine ⟨h.name, { n with content := f n.content }, ?_, hkind, rfl⟩
  show (fs.inodes.modify i _)[i]? = _
  rw [List.getElem?_modify, hn]
  simp

/-- and behind a write that is accepted whole. -/
theorem Contains.append (h : Contains fs p i content) {bs : List UInt8}
    (haccepts : bs.length ≤ o.accepts fs i bs) :
    Contains (fs.append o i bs) p i (content ++ bs) := by
  have hall : bs.take (o.accepts fs i bs) = bs := List.take_of_length_le haccepts
  rw [Fs.append, hall]
  exact h.change (· ++ bs)

variable [DecidableEq Path] {n : Inode Path}

/-- With `O_TRUNC`, a path that names a regular file or nothing is then that of an empty file. -/
theorem openWrite_of_regular (h : ∀ n, fs.lookup p = some n → n.kind = .regular)
    (ho : o.openWrite true fs p = none) (hn : n.kind = .regular ∧ n.content = []) :
    ∃ i fs', fs.openWrite o n true p = .ok (i, fs') ∧ Contains fs' p i [] ∧
      ∀ j, fs.names p = some j → j = i := by
  rw [Fs.openWrite, follow_of_regular h]
  dsimp only
  rw [ho]
  dsimp only
  rcases hp : fs.names p with _ | i
  · -- the file is created
    refine ⟨_, _, rfl, ⟨fs.names_create p n, n, ?_, hn⟩, nofun⟩
    exact List.getElem?_concat_length
  · obtain ⟨m, hm⟩ : ∃ m, fs.inodes[i]? = some m :=
      ⟨_, List.getElem?_eq_getElem (fs.names_lt p i hp)⟩
    -- or the one that is there is emptied
    have hkind := h m (by rw [lookup_of_names hp, hm])
    obtain ⟨owner, mode, kind, content⟩ := m
    obtain rfl : kind = .regular := hkind
    have hfile : Contains fs p i content := ⟨hp, _, hm, rfl, rfl⟩
    dsimp only
    rw [hm]
    refine ⟨i, _, rfl, hfile.change fun _ => [], ?_⟩
    rintro j hj
    exact (Option.some.inj hj).symm

/-- Without `O_TRUNC`, a regular file is opened as it is. -/
theorem Contains.openWrite (h : Contains fs p i content) (ho : o.openWrite false fs p = none) :
    fs.openWrite o n false p = .ok (i, fs) := by
  obtain ⟨m, hm, hkind, -⟩ := h.file
  have hregular : ∀ n, fs.lookup p = some n → n.kind = .regular := by
    intro n hn
    rw [lookup_of_names h.name, hm] at hn
    cases hn
    exact hkind
  obtain ⟨owner, mode, kind, content⟩ := m
  obtain rfl : kind = .regular := hkind
  rw [Fs.openWrite, follow_of_regular hregular]
  dsimp only
  rw [ho, h.name]
  dsimp only
  rw [hm]
  rfl

end Contains

end FileSystem
