import Mathlib.Data.List.TakeWhile
import Clash.Lib.Termination
import Clash.Convert.Utf8Count

/-!
# The files that utf8count counts

The loop of `utf8count` passes a row of sequences and stops where none starts. Where a sequence
breaks off it stops too, but not always at an assertion.

## Main definitions

* `State.past`: the state behind a sequence.
* `Stray`, `BreaksOff`: the files that are no row of sequences.

## Main results

* `run_count`, `run_count_of_stray`, `run_count_of_breaksOff`: what the loop does with a file.
* `count_iff`: which files are counted, and how.
* `settled_iff`: when the loop keeps clear of its null pointer.
* `run_count_utf8`: the characters of a text are counted by their size.
-/

open CProg CString LeadCode

namespace Utf8Count

variable {b c : UInt8} {n k len : ℕ} {s : State} {buf ts rest w : List UInt8}
  {ws : List (List UInt8)}

/-! ## A row of sequences -/

/-- The state behind a sequence. -/
def State.past (s : State) (w : List UInt8) : State where
  i := s.i + w.length
  nR := -1
  counter := s.counter.modify w.length (· + 1)
  log := s.log ++ [.read s.i] ++ [.store .nR] ++ reads (s.i + 1) (w.length - 1)

/-- A round of the loop over a sequence. -/
theorem run_countBody_of_mem (hw : w ∈ sequences) (hlt : s.i < len)
    (h : buf.drop s.i = w ++ rest) (hcounter : s.counter.length = 5) :
    (countBody buf len ()).run s = .ok (.inl ()) (s.past w) := by
  obtain ⟨b, ts, rfl, hlead, hts⟩ := hw
  have hle := lead_le hlead
  have hrest : buf.drop (s.i + 1) = ts ++ rest := by
    rw [← List.drop_drop, h]
    rfl
  have hcount : ts.length + 1 < s.counter.length := by omega
  exact (run_countBody hlt h hlead).trans (run_finish hts hrest rfl hcount)

/-- The state behind a row of sequences. -/
def State.pastAll (s : State) (ws : List (List UInt8)) : State := ws.foldl State.past s

@[simp] theorem State.pastAll_nil : s.pastAll [] = s := rfl

@[simp] theorem State.pastAll_cons : s.pastAll (w :: ws) = (s.past w).pastAll ws := rfl

@[simp] theorem State.pastAll_i : (s.pastAll ws).i = s.i + ws.flatten.length := by
  induction ws generalizing s with
  | nil => rfl
  | cons w ws ih =>
    rw [State.pastAll_cons, ih, List.flatten_cons, List.length_append, ← Nat.add_assoc]
    rfl

/-- Every count goes up by the sequences of that length. -/
theorem State.pastAll_counter (k : ℕ) :
    (s.pastAll ws).counter[k]? = s.counter[k]?.map (· + ws.countP (·.length = k)) := by
  induction ws generalizing s with
  | nil => simp
  | cons w ws ih =>
    have hmodify : (s.past w).counter[k]? =
        s.counter[k]?.map fun c => if w.length = k then c + 1 else c :=
      List.getElem?_modify _ _ _ _
    rw [State.pastAll_cons, ih, hmodify, List.countP_cons, Option.map_map]
    congr 1
    funext c
    simp only [Function.comp_apply, decide_eq_true_eq]
    split_ifs <;> omega

/-- The loop over the bytes passes a row of sequences. -/
theorem run_loop_pastAll {len m : ℕ} (hws : ∀ w ∈ ws, w ∈ sequences)
    (hle : s.i + ws.flatten.length ≤ len) (h : buf.drop s.i = ws.flatten ++ rest)
    (hcounter : s.counter.length = 5) :
    (loop (countBody buf len) (ws.length + m) ()).run s =
      (loop (countBody buf len) m ()).run (s.pastAll ws) := by
  induction ws generalizing s with
  | nil => rw [List.length_nil, Nat.zero_add, State.pastAll_nil]
  | cons w ws ih =>
    rw [List.forall_mem_cons] at hws
    rw [List.flatten_cons, List.length_append] at hle
    rw [List.flatten_cons, List.append_assoc] at h
    -- a sequence has a byte, so the loop is not at its end in front of one
    have hpos := length_pos_of_mem hws.1
    have hlt : s.i < len := by omega
    have hrest : buf.drop (s.past w).i = ws.flatten ++ rest := by
      have hi : (s.past w).i = s.i + w.length := rfl
      rw [hi, ← List.drop_drop, h, List.drop_left]
    have hle' : (s.past w).i + ws.flatten.length ≤ len := by
      rw [← Nat.add_assoc] at hle
      exact hle
    have hcounter' : (s.past w).counter.length = 5 := by
      rw [← hcounter]
      exact List.length_modify _ _ _
    rw [List.length_cons, Nat.add_right_comm,
      run_loop_of_next (run_countBody_of_mem hws.1 hlt h hcounter)]
    exact ih hws.2 hle' hrest hcounter'

/-- A read of the file or of the NUL behind it, or a store to `n_R`. -/
def Access.Ok (len : ℕ) : Access → Prop
  | .read i => i ≤ len
  | .store p => p = .nR

/-- The reads of a sequence within the file and its NUL are in bounds. -/
theorem reads_ok {i n len : ℕ} (h : i + n ≤ len + 1) : ∀ a ∈ reads i n, a.Ok len := by
  intro a ha
  obtain ⟨j, hj, rfl⟩ := List.mem_map.mp ha
  rw [List.mem_range'_1] at hj
  show j ≤ len
  omega

/-- So are those of the state behind it, if those of the state before are. -/
theorem State.past_ok (hpos : 0 < w.length) (hle : s.i + w.length ≤ len)
    (h : ∀ a ∈ s.log, a.Ok len) : ∀ a ∈ (s.past w).log, a.Ok len := by
  have hread : (Access.read s.i).Ok len := by
    show s.i ≤ len
    omega
  have hreads : ∀ a ∈ reads (s.i + 1) (w.length - 1), a.Ok len := reads_ok (by omega)
  have hstore : (Access.store .nR).Ok len := rfl
  intro a ha
  simp only [State.past, List.mem_append, List.mem_singleton] at ha
  rcases ha with ((ha | rfl) | rfl) | ha
  · exact h a ha
  · exact hread
  · exact hstore
  · exact hreads a ha

/-- A row of sequences is read within the file, and nothing is stored through `NULL`. -/
theorem State.pastAll_ok (hws : ∀ w ∈ ws, w ∈ sequences)
    (hle : s.i + ws.flatten.length ≤ len) (h : ∀ a ∈ s.log, a.Ok len) :
    ∀ a ∈ (s.pastAll ws).log, a.Ok len := by
  induction ws generalizing s with
  | nil => exact h
  | cons w ws ih =>
    rw [List.forall_mem_cons] at hws
    rw [List.flatten_cons, List.length_append, ← Nat.add_assoc] at hle
    rw [State.pastAll_cons]
    refine ih hws.2 hle ?_
    exact State.past_ok (length_pos_of_mem hws.1) (by omega) h

/-! ## Whole files -/

variable {file : List UInt8}

/-- The loop behind a row of sequences. There are rounds left, since every sequence has a byte. -/
theorem run_count_pastAll (hws : ∀ w ∈ ws, w ∈ sequences)
    (h : file ++ [0] = ws.flatten ++ rest) (hle : ws.flatten.length ≤ file.length) :
    ∃ m, (count file).run start =
      (loop (countBody (file ++ [0]) file.length) (m + 1) ()).run (start.pastAll ws) := by
  have hlength := length_le_length_flatten hws
  have hrounds : file.length + 1 = ws.length + (file.length - ws.length + 1) := by omega
  have hle' : start.i + ws.flatten.length ≤ file.length := by
    rw [start, Nat.zero_add]
    exact hle
  refine ⟨file.length - ws.length, ?_⟩
  rw [count, hrounds]
  exact run_loop_pastAll hws hle' h rfl

/-- The index behind a row of sequences, from the start. -/
theorem start_pastAll_i : (start.pastAll ws).i = ws.flatten.length := by
  rw [State.pastAll_i, start, Nat.zero_add]

/-- What is left of the file there. -/
theorem drop_pastAll (h : file ++ [0] = ws.flatten ++ rest) :
    (file ++ [0]).drop (start.pastAll ws).i = rest := by
  rw [start_pastAll_i, h, List.drop_left]

/-- Every access of the way there is in bounds. -/
theorem start_pastAll_ok (hws : ∀ w ∈ ws, w ∈ sequences) (hle : ws.flatten.length ≤ file.length) :
    ∀ a ∈ (start.pastAll ws).log, a.Ok file.length := by
  refine State.pastAll_ok hws ?_ (List.forall_mem_nil _)
  rw [start, Nat.zero_add]
  exact hle

/-- The loop counts a row of sequences that makes up the file. -/
theorem run_count (h : Decomposition file ws) :
    (count file).run start = .ok () (start.pastAll ws) := by
  have hmem : file ++ [0] = ws.flatten ++ [0] := by rw [h.flatten]
  have hlength : ws.flatten.length = file.length := congrArg List.length h.flatten
  obtain ⟨m, hrun⟩ := run_count_pastAll h.mem hmem hlength.le
  have hend : ¬ (start.pastAll ws).i < file.length := by
    rw [start_pastAll_i, hlength]
    exact Nat.lt_irrefl _
  rw [hrun]
  exact run_loop_of_done (run_countBody_of_not_lt hend)

/-- The loop stops where a round behind a row of sequences does. -/
theorem run_count_of_error (hws : ∀ w ∈ ws, w ∈ sequences)
    (h : file ++ [0] = ws.flatten ++ rest) (hle : ws.flatten.length ≤ file.length) {e : Stop}
    {t : State}
    (hround : (countBody (file ++ [0]) file.length ()).run (start.pastAll ws) = .error e t) :
    (count file).run start = .error e t := by
  obtain ⟨m, hrun⟩ := run_count_pastAll hws h hle
  rw [hrun]
  exact run_loop_of_error hround

/-- Some byte of the file is neither part of the sequences in front of it nor starts one. -/
def Stray (file : List UInt8) : Prop :=
  ∃ ws b rest, (∀ w ∈ ws, w ∈ sequences) ∧ file = List.flatten ws ++ b :: rest ∧ lead b = none

/-- A sequence of the file breaks off in front of `c`, which is no trailing byte. The NUL behind the
file counts as one. -/
def BreaksOff (file : List UInt8) (c : UInt8) : Prop :=
  ∃ ws b n ts rest, (∀ w ∈ ws, w ∈ sequences) ∧
    file ++ [0] = List.flatten ws ++ b :: (ts ++ c :: rest) ∧ lead b = some n ∧ ts.length < n ∧
    (∀ t ∈ ts, IsTrailing t) ∧ ¬ IsTrailing c

/-- A file is a row of sequences, or some byte starts none, or a sequence breaks off. -/
theorem file_cases (file : List UInt8) :
    (∃ ws, Decomposition file ws) ∨ Stray file ∨ ∃ c, BreaksOff file c := by
  obtain ⟨ws, rest, hws, hfile, rfl | hstuck⟩ := exists_split lead IsTrailing file
  · exact .inl ⟨ws, hws, by rw [hfile, List.append_nil]⟩
  right
  cases hstuck with
  | stray hb =>
    exact .inl ⟨ws, _, _, hws, hfile, hb⟩
  | short hb hlt hts =>
    -- the NUL behind the file cuts the sequence off
    refine .inr ⟨0, ws, _, _, _, [], hws, ?_, hb, hlt, hts, by decide⟩
    rw [hfile, List.append_assoc]
    rfl
  | @cut b c n ts rest hb hlt hts hc =>
    refine .inr ⟨c, ws, b, n, ts, rest ++ [0], hws, ?_, hb, hlt, hts, hc⟩
    simp [hfile]

/-- In front of a stray byte `count` fails an assertion, with every access in bounds. -/
theorem run_count_of_stray (h : Stray file) :
    ∃ t, (count file).run start = .error .assertion t ∧ ∀ a ∈ t.log, a.Ok file.length := by
  obtain ⟨ws, b, rest, hws, hfile, hb⟩ := h
  have hmem : file ++ [0] = ws.flatten ++ b :: (rest ++ [0]) := by
    rw [hfile, List.append_assoc]
    rfl
  have hlength : file.length = ws.flatten.length + (rest.length + 1) := by
    rw [hfile, List.length_append, List.length_cons]
  have hlt : (start.pastAll ws).i < file.length := by
    rw [start_pastAll_i]
    omega
  have hle : ws.flatten.length ≤ file.length := by omega
  refine ⟨_, run_count_of_error hws hmem hle (run_countBody_of_stray hlt (drop_pastAll hmem) hb),
    ?_⟩
  -- the accesses of the way there, and the read of the stray byte
  intro a ha
  rw [List.mem_append, List.mem_singleton] at ha
  rcases ha with ha | rfl
  · exact start_pastAll_ok hws hle a ha
  · exact hlt.le

/-- Where a sequence breaks off, `count` stops on the stores of the byte that cuts it. -/
theorem run_count_of_breaksOff (h : BreaksOff file c) :
    ∃ t log, (count file).run start = .error (reason c) t ∧ t.log = log ++ stores c ∧
      ∀ a ∈ log, a.Ok file.length := by
  obtain ⟨ws, b, n, ts, rest, hws, hmem, hb, hn, hts, hc⟩ := h
  have hlength := congrArg List.length hmem
  simp only [List.length_append, List.length_cons, List.length_nil] at hlength
  have hi : (start.pastAll ws).i = ws.flatten.length := start_pastAll_i
  have hlt : (start.pastAll ws).i < file.length := by omega
  have hle : ws.flatten.length ≤ file.length := by omega
  have hround := run_countBody_of_cut hlt (drop_pastAll hmem) hb hn hts hc
  refine ⟨_, _, run_count_of_error hws hmem hle hround, rfl, ?_⟩
  have hreads : ∀ a ∈ reads ((start.pastAll ws).i + 1) ts.length, a.Ok file.length :=
    reads_ok (by omega)
  -- the byte that the sequence breaks off in front of is the NUL behind the file at most
  have hlast : (Access.read ((start.pastAll ws).i + ts.length + 1)).Ok file.length := by
    show (start.pastAll ws).i + ts.length + 1 ≤ file.length
    omega
  intro a ha
  simp only [List.mem_append, List.mem_singleton] at ha
  rcases ha with (((ha | rfl) | rfl) | ha) | rfl
  · exact start_pastAll_ok hws hle a ha
  · exact hlt.le
  · exact rfl
  · exact hreads a ha
  · exact hlast

/-- A byte that cuts a sequence adds stores only. -/
theorem read_notMem_stores {i : ℕ} : .read i ∉ stores c := by
  rw [stores]
  split_ifs <;> simp

/-- The store through `NULL` is among them exactly if it is a lead byte. -/
theorem store_null_mem_stores : .store .null ∈ stores c ↔ (lead c).isSome := by
  rw [stores]
  split_ifs with h <;> simp [h]

/-- An access within bounds is no store through `NULL`. -/
theorem store_null_notMem {log : List Access} (h : ∀ a ∈ log, a.Ok len) :
    .store .null ∉ log := by
  intro hmem
  cases h _ hmem

/-- Nothing behind the NUL at the end is read. -/
theorem read_le {i : ℕ} (h : .read i ∈ (final ((count file).run start)).log) :
    i ≤ file.length := by
  rcases file_cases file with ⟨ws, hfile⟩ | hfile | ⟨c, hfile⟩
  · rw [run_count hfile] at h
    have hlength : ws.flatten.length = file.length := congrArg List.length hfile.flatten
    exact start_pastAll_ok hfile.mem hlength.le _ h
  · obtain ⟨t, hrun, hok⟩ := run_count_of_stray hfile
    rw [hrun] at h
    exact hok _ h
  · obtain ⟨t, log, hrun, hlog, hok⟩ := run_count_of_breaksOff hfile
    rw [hrun, final_error, hlog, List.mem_append] at h
    exact hok _ (h.resolve_right read_notMem_stores)

/-- A file on which `count` returns is a row of sequences. -/
theorem exists_decomposition {s : State} (h : (count file).run start = .ok () s) :
    ∃ ws, Decomposition file ws := by
  rcases file_cases file with hfile | hfile | ⟨c, hfile⟩
  · exact hfile
  · obtain ⟨t, hrun, -⟩ := run_count_of_stray hfile
    cases hrun.symm.trans h
  · obtain ⟨t, log, hrun, -⟩ := run_count_of_breaksOff hfile
    cases hrun.symm.trans h

/-- There is one way to take a file apart. -/
theorem Decomposition.unique {ws ws' : List (List UInt8)} (h : Decomposition file ws)
    (h' : Decomposition file ws') : ws = ws' :=
  uniquelyDecodable_words ws ws' h.mem h'.mem (h.flatten.trans h'.flatten.symm)

/-- No sequence is empty. -/
theorem countP_zero (hws : ∀ w ∈ ws, w ∈ sequences) : ws.countP (·.length = 0) = 0 := by
  rw [List.countP_eq_zero]
  intro w hw
  simpa using ne_nil_of_mem (hws w hw)

/-- The counts behind a row of sequences. -/
theorem start_pastAll_counter (hws : ∀ w ∈ ws, w ∈ sequences) :
    (start.pastAll ws).counter =
      [0, ws.countP (·.length = 1), ws.countP (·.length = 2), ws.countP (·.length = 3),
        ws.countP (·.length = 4)] := by
  refine List.ext_getElem? fun k => ?_
  rw [State.pastAll_counter]
  rcases k with _ | _ | _ | _ | _ | k
  · -- no sequence is empty, so `counter[0]` stays as it is
    rw [countP_zero hws]
    rfl
  all_goals simp [start]

/-- The sequences have between one byte and four. -/
theorem length_flatten (hws : ∀ w ∈ ws, w ∈ sequences) :
    ws.countP (·.length = 1) + 2 * ws.countP (·.length = 2) + 3 * ws.countP (·.length = 3) +
      4 * ws.countP (·.length = 4) = ws.flatten.length := by
  induction ws with
  | nil => rfl
  | cons w ws ih =>
    rw [List.forall_mem_cons] at hws
    have hpos := length_pos_of_mem hws.1
    have hle := length_le_of_mem hws.1
    have hrest := ih hws.2
    simp only [List.countP_cons, List.flatten_cons, List.length_append, decide_eq_true_eq]
    split_ifs <;> omega

/-- The loop gets to its end for the files that are a row of sequences, and counts them. -/
theorem count_iff (file : List UInt8) :
    ((∃ s, (count file).run start = .ok () s) ↔ ∃ ws, Decomposition file ws) ∧
      (∀ ws, Decomposition file ws →
        (∀ ws', Decomposition file ws' → ws' = ws) ∧
        ∃ s, (count file).run start = .ok () s ∧ s.i = file.length ∧
          s.counter =
            [0, ws.countP (·.length = 1), ws.countP (·.length = 2), ws.countP (·.length = 3),
              ws.countP (·.length = 4)] ∧
          ws.countP (·.length = 1) + 2 * ws.countP (·.length = 2) +
            3 * ws.countP (·.length = 3) + 4 * ws.countP (·.length = 4) = file.length) ∧
      ∀ i, .read i ∈ (final ((count file).run start)).log → i ≤ file.length := by
  refine ⟨⟨?_, ?_⟩, ?_, fun i => read_le⟩
  · rintro ⟨s, hrun⟩
    exact exists_decomposition hrun
  · rintro ⟨ws, hfile⟩
    exact ⟨_, run_count hfile⟩
  · intro ws hfile
    have hlength : ws.flatten.length = file.length := congrArg List.length hfile.flatten
    refine ⟨fun ws' h' => h'.unique hfile, start.pastAll ws, run_count hfile, ?_, ?_, ?_⟩
    · rw [start_pastAll_i, hlength]
    · exact start_pastAll_counter hfile.mem
    · rw [length_flatten hfile.mem, hlength]

/-- The loop returns or fails an assertion without a store through `NULL`, unless a sequence breaks
off in front of a byte that starts another one. -/
theorem settled_iff (file : List UInt8) :
    Settled ((count file).run start) ∧ .store .null ∉ (final ((count file).run start)).log ↔
      ∀ c, BreaksOff file c → lead c = none := by
  constructor
  · rintro ⟨hsettled, -⟩ c hfile
    obtain ⟨t, log, hrun, -⟩ := run_count_of_breaksOff hfile
    rw [hrun] at hsettled
    -- a byte that starts a sequence would have been stored through `NULL`
    by_contra hlead
    have hreason : reason c = .undefined := if_pos (Option.isSome_iff_ne_none.mpr hlead)
    rw [hreason] at hsettled
    exact not_settled_of_ne (by decide) t hsettled
  · intro h
    rcases file_cases file with ⟨ws, hfile⟩ | hfile | ⟨c, hfile⟩
    · rw [run_count hfile]
      have hlength : ws.flatten.length = file.length := congrArg List.length hfile.flatten
      exact ⟨settled_ok _ _, store_null_notMem (start_pastAll_ok hfile.mem hlength.le)⟩
    · obtain ⟨t, hrun, hok⟩ := run_count_of_stray hfile
      rw [hrun]
      exact ⟨settled_assertion t, store_null_notMem hok⟩
    · obtain ⟨t, log, hrun, hlog, hok⟩ := run_count_of_breaksOff hfile
      have hlead := h c hfile
      have hreason : reason c = .assertion := by
        rw [reason, hlead]
        rfl
      rw [hrun, hreason, final_error, hlog, List.mem_append, store_null_mem_stores, hlead]
      refine ⟨settled_assertion t, ?_⟩
      rintro (hmem | hmem)
      · exact store_null_notMem hok hmem
      · cases hmem

/-- A file that ends behind the first byte of `é`. -/
theorem not_settled_of_cut :
    ¬ (Settled ((count [0xC3]).run start) ∧
      .store .null ∉ (final ((count [0xC3]).run start)).log) := by
  have hrun : ∃ s, (count [0xC3]).run start = .error .undefined s := ⟨_, rfl⟩
  obtain ⟨s, hrun⟩ := hrun
  rw [hrun]
  exact fun h => not_settled_of_ne (by decide) s h.1

/-! ## Text -/

/-- An ASCII byte is a sequence by itself. -/
theorem lead_of_lt (h : b < 128) : lead b = some 0 := by
  revert b
  decide +kernel

/-- The first byte of two. -/
theorem lead_two (b : UInt8) : lead (b &&& 0x1f ||| 0xc0) = some 1 := by
  revert b
  decide +kernel

/-- The first byte of three. -/
theorem lead_three (b : UInt8) : lead (b &&& 0x0f ||| 0xe0) = some 2 := by
  revert b
  decide +kernel

/-- The first byte of four. -/
theorem lead_four (b : UInt8) : lead (b &&& 0x07 ||| 0xf0) = some 3 := by
  revert b
  decide +kernel

/-- The bytes behind the first one. -/
theorem isTrailing_low (b : UInt8) : IsTrailing (b &&& 0x3f ||| 0x80) := by
  revert b
  decide +kernel

/-- A character is encoded as one of the sequences. -/
theorem utf8EncodeChar_mem (c : Char) : String.utf8EncodeChar c ∈ sequences := by
  rcases c.utf8Size_eq with h | h | h | h
  · have hle := Char.utf8Size_eq_one_iff.mp h
    have hlt : c.val.toUInt8 < 128 := by
      rw [UInt8.lt_iff_toNat_lt, UInt32.toNat_toUInt8]
      rw [UInt32.le_iff_toNat_le] at hle
      exact Nat.lt_of_le_of_lt (Nat.mod_le _ _) (Nat.lt_succ_of_le hle)
    rw [String.utf8EncodeChar_eq_singleton h]
    exact ⟨_, [], rfl, lead_of_lt hlt, List.forall_mem_nil _⟩
  · rw [String.utf8EncodeChar_eq_cons_cons h]
    exact ⟨_, _, rfl, lead_two _, by simp [isTrailing_low]⟩
  · rw [String.utf8EncodeChar_eq_cons_cons_cons h]
    exact ⟨_, _, rfl, lead_three _, by simp [isTrailing_low]⟩
  · rw [String.utf8EncodeChar_eq_cons_cons_cons_cons h]
    exact ⟨_, _, rfl, lead_four _, by simp [isTrailing_low]⟩

/-- The encodings of the characters of a text are its decomposition. -/
theorem decomposition_utf8 (text : String) :
    Decomposition (utf8 text) (text.toList.map String.utf8EncodeChar) where
  mem := by
    rw [List.forall_mem_map]
    exact fun c _ => utf8EncodeChar_mem c
  flatten := List.flatMap_def.symm

/-- The characters of a text are counted by their size. -/
theorem run_count_utf8 (text : String) :
    ∃ s, (count (utf8 text)).run start = .ok () s ∧
      s.counter =
        [0, text.toList.countP (·.utf8Size = 1), text.toList.countP (·.utf8Size = 2),
          text.toList.countP (·.utf8Size = 3), text.toList.countP (·.utf8Size = 4)] := by
  have hfile := decomposition_utf8 text
  refine ⟨_, run_count hfile, ?_⟩
  rw [start_pastAll_counter hfile.mem]
  simp only [List.countP_map, Function.comp_def, String.length_utf8EncodeChar]

/-! ## `main` -/

/-- The length agrees with `strlen` exactly for a file without a NUL. -/
theorem length_ofBlock_iff : file.length = (ofBlock (file ++ [0])).length ↔ 0 ∉ file := by
  constructor
  · intro h hmem
    obtain ⟨rest, hrest⟩ : ofBlock (file ++ [0]) <+: file ++ [0] := List.takeWhile_prefix _
    rw [← List.append_inj_left hrest h.symm] at hmem
    simpa using List.mem_takeWhile_imp hmem
  · intro h
    rw [ofBlock_append_nul h]

/-- `main` takes the files without a NUL that are a row of sequences, unless they are too long. -/
theorem run_main_iff :
    (∃ s, (main file).run start = .ok () s) ↔
      (0 ∉ file ∧ file.length < 2 ^ 31) ∧ ∃ ws, Decomposition file ws := by
  rw [← length_ofBlock_iff]
  constructor
  · rintro ⟨s, hrun⟩
    obtain ⟨_, s₁, hassert, hrun⟩ := run_bind_eq_ok.mp hrun
    -- the first assertion compares `strlen` with the length of the file
    obtain ⟨hfile, rfl⟩ := run_assert_eq_ok.mp hassert
    obtain ⟨_, s₂, hcount, -⟩ := run_bind_eq_ok.mp hrun
    exact ⟨hfile, exists_decomposition hcount⟩
  · rintro ⟨hfile, ws, hws⟩
    -- the last one asks whether the loop has got to its end
    have hi : (start.pastAll ws).i = file.length := by
      rw [start_pastAll_i, hws.flatten]
    refine ⟨start.pastAll ws, ?_⟩
    rw [main, run_assert_bind, if_pos hfile, EStateM.run_bind, run_count hws]
    dsimp only
    rw [EStateM.run_bind, EStateM.run_get]
    exact run_assert_of_true hi _

end Utf8Count
