import Clash.Convert.Flag

/-!
# What a group title says

`ccs2str` writes the symbols of the codes with a space behind each and takes the last space
back. The room it asks for before each symbol is the widest symbol, so it stays inside the
destination, and no symbol contains a space, so the codes can be read back from the title.

## Main definitions

* `symbol`: the UTF-8 encoding of the symbol of a code.
* `titleText`: the symbols of some codes with single spaces between them.
* `padded`: a buffer that begins with some text and is zero behind it.

## Main results

* `ccs2str_inBounds`: `ccs2str` writes inside its destination, leaves exactly the title there,
  and has room for every group that `convert.c` makes.
* `title_eq_iff`: two titles are equal exactly when the codes are, up to `MO` for `CN`.
-/

open CProg CString Memory

namespace Flag

/-- A code of two letters from `A` to `Z`. -/
def CC.IsCode (code : CC) : Prop := (65 ≤ code.c0 ∧ code.c0 ≤ 90) ∧ 65 ≤ code.c1 ∧ code.c1 ≤ 90

instance (code : CC) : Decidable code.IsCode := inferInstanceAs (Decidable (_ ∧ _))

/-- The character of the regional indicator symbol of a letter. -/
def ris (c : UInt8) : Char := Char.ofNat (0x1F1E6 + (c.toNat - 65))

/-- The symbol of a code, encoded. -/
def symbol (code : CC) : CString :=
  if code = .cc 'C' 'N' ∨ code = .cc 'M' 'O' then utf8 "☒"
  else if code = .cc 'H' 'K' then utf8 "🏴"
  else String.utf8EncodeChar (ris code.c0) ++ String.utf8EncodeChar (ris code.c1)

/-- The symbols of the codes, joined by single spaces. -/
def titleText (codes : List CC) : CString := (utf8 " ").intercalate (codes.map symbol)

/-- The symbols of the codes, a space behind each. -/
def spaced (codes : List CC) : CString := codes.flatMap fun code => symbol code ++ utf8 " "

/-- The codes that a title tells apart: `MO` is written as `CN` is. -/
def canonical (code : CC) : CC := if code = .cc 'M' 'O' then .cc 'C' 'N' else code

/-! ## Symbols -/

/-- The indicators of the letters differ in their last byte. -/
theorem utf8EncodeChar_ris {c : UInt8} (hc : 65 ≤ c ∧ c ≤ 90) :
    String.utf8EncodeChar (ris c) = [240, 159, 135, c + 101] := by
  have hall : ∀ k : Fin 26, String.utf8EncodeChar (ris (65 + UInt8.ofNat k)) =
      [240, 159, 135, 65 + UInt8.ofNat k + 101] := by decide +kernel
  have hle : 65 ≤ c.toNat := UInt8.le_iff_toNat_le.mp hc.1
  have hge : c.toNat ≤ 90 := UInt8.le_iff_toNat_le.mp hc.2
  have hcast : 65 + UInt8.ofNat (c.toNat - 65) = c := by
    apply UInt8.toNat_inj.mp
    rw [UInt8.toNat_add, UInt8.toNat_ofNat']
    change (65 + (c.toNat - 65) % 2 ^ 8) % 2 ^ 8 = c.toNat
    omega
  have hc := hall ⟨c.toNat - 65, by omega⟩
  rwa [hcast] at hc

theorem length_utf8EncodeChar_ris {c : UInt8} (hc : 65 ≤ c ∧ c ≤ 90) :
    (String.utf8EncodeChar (ris c)).length = 4 := by
  rw [utf8EncodeChar_ris hc]
  rfl

theorem utf8_box : utf8 "☒" = [226, 152, 146] := by decide +kernel

theorem utf8_flag : utf8 "🏴" = [240, 159, 143, 180] := by decide +kernel

theorem utf8_space : utf8 " " = [32] := by decide +kernel

/-- The bytes of a symbol: three of the box, four of the black flag, eight of two indicators. -/
theorem symbol_cases {code : CC} (hcode : code.IsCode) :
    (canonical code = .cc 'C' 'N' ∧ symbol code = [226, 152, 146]) ∨
    (canonical code = .cc 'H' 'K' ∧ symbol code = [240, 159, 143, 180]) ∨
    (canonical code = code ∧
      symbol code = [240, 159, 135, code.c0 + 101, 240, 159, 135, code.c1 + 101]) := by
  -- the order of the tests in `cc2str`
  by_cases hbox : code = .cc 'C' 'N' ∨ code = .cc 'M' 'O'
  · left
    rw [symbol, if_pos hbox, utf8_box]
    rcases hbox with rfl | rfl <;> exact ⟨rfl, rfl⟩
  by_cases hflag : code = .cc 'H' 'K'
  · right; left
    rw [symbol, if_neg hbox, if_pos hflag, utf8_flag, hflag]
    exact ⟨rfl, rfl⟩
  · right; right
    rw [symbol, if_neg hbox, if_neg hflag, utf8EncodeChar_ris hcode.1, utf8EncodeChar_ris hcode.2,
      canonical, if_neg fun hmo => hbox (.inr hmo)]
    exact ⟨rfl, rfl⟩

theorem symbol_ne_nil {code : CC} (hcode : code.IsCode) : symbol code ≠ [] := by
  obtain ⟨-, h⟩ | ⟨-, h⟩ | ⟨-, h⟩ := symbol_cases hcode <;> rw [h] <;> exact List.cons_ne_nil _ _

theorem length_symbol_le {code : CC} (hcode : code.IsCode) : (symbol code).length ≤ 8 := by
  obtain ⟨-, h⟩ | ⟨-, h⟩ | ⟨-, h⟩ := symbol_cases hcode <;> rw [h] <;>
    simp only [List.length_cons, List.length_nil] <;> decide

/-- The last byte of an indicator is neither a space nor NUL. -/
private theorem le_indicator {c : UInt8} (hc : 65 ≤ c ∧ c ≤ 90) : 166 ≤ c + 101 := by
  have hle : 65 ≤ c.toNat := UInt8.le_iff_toNat_le.mp hc.1
  have hge : c.toNat ≤ 90 := UInt8.le_iff_toNat_le.mp hc.2
  rw [UInt8.le_iff_toNat_le, UInt8.toNat_add]
  change 166 ≤ (c.toNat + 101) % 2 ^ 8
  omega

/-- Every byte of a symbol is part of a character outside ASCII. -/
theorem le_of_mem_symbol {code : CC} (hcode : code.IsCode) : ∀ b ∈ symbol code, 135 ≤ b := by
  have h0 := le_indicator hcode.1
  have h1 := le_indicator hcode.2
  obtain ⟨-, h⟩ | ⟨-, h⟩ | ⟨-, h⟩ := symbol_cases hcode
  · rw [h]
    decide +kernel
  · rw [h]
    decide +kernel
  · rw [h]
    have hle : (135 : UInt8) ≤ 166 := by decide
    intro b hb
    simp only [List.mem_cons, List.not_mem_nil, or_false] at hb
    rcases hb with rfl | rfl | rfl | rfl | rfl | rfl | rfl | rfl
    all_goals first | decide | exact UInt8.le_trans hle ‹_›

theorem symbol_canonical (code : CC) : symbol (canonical code) = symbol code := by
  unfold canonical
  split
  · rename_i hmo
    rw [hmo]
    rfl
  · rfl

/-- Codes with the same symbol are the same code, up to `MO` for `CN`. -/
theorem symbol_eq_iff {code code' : CC} (hcode : code.IsCode) (hcode' : code'.IsCode) :
    symbol code = symbol code' ↔ canonical code = canonical code' := by
  constructor
  · intro h
    obtain ⟨hc, hs⟩ | ⟨hc, hs⟩ | ⟨hc, hs⟩ := symbol_cases hcode <;>
      obtain ⟨hc', hs'⟩ | ⟨hc', hs'⟩ | ⟨hc', hs'⟩ := symbol_cases hcode' <;>
      rw [hs, hs'] at h
    -- symbols of different kinds differ in their length or their third byte
    case inr.inr.inr.inr =>
      obtain ⟨c0, c1⟩ := code
      obtain ⟨c0', c1'⟩ := code'
      rw [hc, hc']
      simpa using h
    all_goals first
      | exact hc.trans hc'.symm
      | simp at h
  · intro h
    rw [← symbol_canonical code, ← symbol_canonical code', h]

/-! ## One code -/

variable {σ : Type} {n : ℕ} {text rest : List UInt8}

theorem run_c2ris {c : UInt8} (hc : 65 ≤ c ∧ c ≤ 90) (s : σ) :
    (c2ris c).run s = .ok (0x1F1E6 + (c.toNat - 65)) s := by
  have hle : 65 ≤ c.toNat := UInt8.le_iff_toNat_le.mp hc.1
  have hge : c.toNat ≤ 90 := UInt8.le_iff_toNat_le.mp hc.2
  rw [c2ris, EStateM.run_bind, run_assert_of_true hc]
  dsimp only
  rw [EStateM.run_bind, run_assert_of_true (by omega)]
  rfl

/-- Only letters have an indicator. -/
theorem isLetter_of_run_c2ris {c : UInt8} {r : ℕ} {s s' : σ} (h : (c2ris c).run s = .ok r s') :
    (65 ≤ c ∧ c ≤ 90) ∧ s = s' := by
  obtain ⟨_, _, hletter, h⟩ := run_bind_eq_ok.mp h
  obtain ⟨hc, rfl⟩ := run_assert_eq_ok.mp hletter
  obtain ⟨_, _, hrange, h⟩ := run_bind_eq_ok.mp h
  obtain ⟨-, rfl⟩ := run_assert_eq_ok.mp hrange
  cases h
  exact ⟨hc, rfl⟩

/-- An indicator goes into a buffer that has room for it. -/
theorem run_writeRis {c : UInt8} (hc : 65 ≤ c ∧ c ≤ 90) (hroom : text.length + 4 ≤ n) :
    (writeRis text.length (0x1F1E6 + (c.toNat - 65))).run (padded n text rest) =
      .ok () (padded n (text ++ String.utf8EncodeChar (ris c)) rest) := by
  have hlen := length_utf8EncodeChar_ris hc
  change (write text.length (String.utf8EncodeChar (ris c)) >>= fun _ =>
    assert (mbCurRis = (String.utf8EncodeChar (ris c)).length)).run _ = _
  rw [EStateM.run_bind, run_write_padded (by omega)]
  exact run_assert_of_true hlen.symm _

/-- The symbol of a code goes into a buffer that has room for it and for one byte more. -/
theorem run_cc2str {code : CC} (hcode : code.IsCode)
    (hroom : text.length + (symbol code).length < n) :
    (cc2str text.length code).run (padded n text rest) =
      .ok (symbol code).length (padded n (text ++ symbol code) rest) := by
  unfold cc2str
  by_cases hbox : code = .cc 'C' 'N' ∨ code = .cc 'M' 'O'
  · have hsymbol : symbol code = utf8 "☒" := by rw [symbol, if_pos hbox]
    rw [hsymbol] at hroom ⊢
    rw [if_pos hbox, EStateM.run_bind, run_write_padded_nul hroom]
    rfl
  rw [if_neg hbox]
  by_cases hflag : code = .cc 'H' 'K'
  · have hsymbol : symbol code = utf8 "🏴" := by rw [symbol, if_neg hbox, if_pos hflag]
    rw [hsymbol] at hroom ⊢
    rw [if_pos hflag, EStateM.run_bind, run_write_padded_nul hroom]
    rfl
  · have hsymbol : symbol code =
        String.utf8EncodeChar (ris code.c0) ++ String.utf8EncodeChar (ris code.c1) := by
      rw [symbol, if_neg hbox, if_neg hflag]
    have hlen0 := length_utf8EncodeChar_ris hcode.1
    have hlen1 := length_utf8EncodeChar_ris hcode.2
    rw [hsymbol, List.length_append] at hroom ⊢
    rw [if_neg hflag]
    refine run_bind_eq_ok.mpr ⟨_, _, run_c2ris hcode.1 _, ?_⟩
    refine run_bind_eq_ok.mpr ⟨_, _, run_writeRis hcode.1 (by omega), ?_⟩
    refine run_bind_eq_ok.mpr ⟨_, _, run_c2ris hcode.2 _, ?_⟩
    -- the second letter goes behind the first
    have hsecond : text.length + mbCurRis =
        (text ++ String.utf8EncodeChar (ris code.c0)).length := by
      rw [List.length_append, hlen0]
      rfl
    rw [hsecond]
    refine run_bind_eq_ok.mpr
      ⟨_, _, run_writeRis hcode.2 (by rw [List.length_append]; omega), ?_⟩
    rw [hlen0, hlen1, List.append_assoc]
    rfl

theorem length_of_run_write {off : ℕ} {bs block block' : List UInt8}
    (h : (write off bs).run block = .ok () block') :
    off + bs.length ≤ block.length ∧ block'.length = block.length := by
  rw [run_write] at h
  split at h
  · cases h
    exact ⟨‹_›, length_splice ‹_›⟩
  · cases h

theorem length_of_run_writeRis {off wc : ℕ} {block block' : List UInt8}
    (h : (writeRis off wc).run block = .ok () block') : block'.length = block.length := by
  obtain ⟨_, _, hwrite, h⟩ := run_bind_eq_ok.mp h
  obtain ⟨-, rfl⟩ := run_assert_eq_ok.mp h
  exact (length_of_run_write hwrite).2

/-- A code that was printed has two letters. The buffer keeps its size. -/
theorem isCode_of_run_cc2str {s k : ℕ} {code : CC} {block block' : List UInt8}
    (h : (cc2str s code).run block = .ok k block') :
    code.IsCode ∧ k = (symbol code).length ∧ block'.length = block.length := by
  unfold cc2str at h
  by_cases hbox : code = .cc 'C' 'N' ∨ code = .cc 'M' 'O'
  · rw [if_pos hbox] at h
    obtain ⟨_, block₁, hwrite, h⟩ := run_bind_eq_ok.mp h
    cases h
    rw [symbol, if_pos hbox]
    -- these codes have two letters
    refine ⟨?_, rfl, (length_of_run_write hwrite).2⟩
    rcases hbox with rfl | rfl <;> decide
  rw [if_neg hbox] at h
  by_cases hflag : code = .cc 'H' 'K'
  · rw [if_pos hflag] at h
    obtain ⟨_, block₁, hwrite, h⟩ := run_bind_eq_ok.mp h
    cases h
    rw [symbol, if_neg hbox, if_pos hflag]
    refine ⟨?_, rfl, (length_of_run_write hwrite).2⟩
    rw [hflag]
    decide
  · rw [if_neg hflag] at h
    -- `c2ris` asserts that each byte is a letter
    obtain ⟨r0, _, hr0, h⟩ := run_bind_eq_ok.mp h
    obtain ⟨hc0, rfl⟩ := isLetter_of_run_c2ris hr0
    obtain ⟨_, block₁, hwrite0, h⟩ := run_bind_eq_ok.mp h
    obtain ⟨r1, _, hr1, h⟩ := run_bind_eq_ok.mp h
    obtain ⟨hc1, rfl⟩ := isLetter_of_run_c2ris hr1
    obtain ⟨_, block₂, hwrite1, h⟩ := run_bind_eq_ok.mp h
    cases h
    refine ⟨⟨hc0, hc1⟩, ?_, ?_⟩
    · rw [symbol, if_neg hbox, if_neg hflag, List.length_append, length_utf8EncodeChar_ris hc0,
        length_utf8EncodeChar_ris hc1]
      rfl
    · rw [length_of_run_writeRis hwrite1, length_of_run_writeRis hwrite0]

/-! ## The loop over the codes -/

variable {mbCurMax : ℕ} {codes : List CC} {code : CC}

theorem bufSz_eq (mbCurMax : ℕ) : bufSz mbCurMax = 51 + mbCurMax := by
  simp only [bufSz, mbCurRis, maxFlagsInGroup]
  omega

/-- One round of the loop: a symbol and a space. -/
theorem run_printFlags_cons (hcode : code.IsCode)
    (hassert : text.length + mbCurRis + mbCurMax + 1 ≤ bufSz mbCurMax - 1)
    (hroom : text.length + (symbol code).length < bufSz mbCurMax) :
    (printFlags mbCurMax text.length (code :: codes)).run (padded (bufSz mbCurMax) text rest) =
      (printFlags mbCurMax (text ++ (symbol code ++ utf8 " ")).length codes).run
        (padded (bufSz mbCurMax) (text ++ (symbol code ++ utf8 " ")) rest) := by
  have hspace : text.length + (symbol code).length = (text ++ symbol code).length :=
    List.length_append.symm
  have hend : text.length + (symbol code).length + 1 =
      (text ++ (symbol code ++ utf8 " ")).length := by
    simp only [List.length_append, utf8_space, List.length_singleton]
    omega
  -- the symbol, and the space behind it
  rw [printFlags, run_assert_bind, if_pos hassert, EStateM.run_bind, run_cc2str hcode hroom]
  dsimp only
  rw [EStateM.run_bind, hspace,
    run_write_padded (by rw [List.length_append, utf8_space, List.length_singleton]; omega)]
  dsimp only
  rw [← hspace, hend, List.append_assoc]

/-- A round that was made had room for its symbol and for the space, because the assertion asks
for the widest symbol, or because the buffer is all the memory there is. -/
theorem room_of_run_printFlags {s : ℕ} {block' : List UInt8} (hmax : 4 ≤ mbCurMax ∨ rest = [])
    (htext : text.length ≤ bufSz mbCurMax)
    (h : (printFlags mbCurMax text.length (code :: codes)).run
      (padded (bufSz mbCurMax) text rest) = .ok s block') :
    code.IsCode ∧ text.length + mbCurRis + mbCurMax + 1 ≤ bufSz mbCurMax - 1 ∧
      text.length + (symbol code).length < bufSz mbCurMax := by
  obtain ⟨_, _, hrun, h⟩ := run_bind_eq_ok.mp h
  obtain ⟨hassert, rfl⟩ := run_assert_eq_ok.mp hrun
  obtain ⟨k, block₁, hprint, h⟩ := run_bind_eq_ok.mp h
  obtain ⟨_, block₂, hwrite, -⟩ := run_bind_eq_ok.mp h
  obtain ⟨hcode, rfl, hlen⟩ := isCode_of_run_cc2str hprint
  refine ⟨hcode, hassert, ?_⟩
  -- the assertion has asked for room, or the space has been written
  rcases hmax with hmax | rfl
  · have hsymbol := length_symbol_le hcode
    rw [mbCurRis] at hassert
    omega
  · have hspace := (length_of_run_write hwrite).1
    rw [hlen, length_padded htext, utf8_space] at hspace
    simpa using hspace

/-- The loop leaves the symbols of the codes, a space behind each. -/
theorem printFlags_eq_ok (text : List UInt8) {s : ℕ} {block' : List UInt8}
    (hmax : 4 ≤ mbCurMax ∨ rest = []) (htext : text.length ≤ bufSz mbCurMax)
    (h : (printFlags mbCurMax text.length codes).run (padded (bufSz mbCurMax) text rest) =
      .ok s block') :
    (∀ code ∈ codes, code.IsCode) ∧ s = (text ++ spaced codes).length ∧ s ≤ bufSz mbCurMax ∧
      block' = padded (bufSz mbCurMax) (text ++ spaced codes) rest := by
  induction codes generalizing text with
  | nil =>
    cases h
    rw [spaced, List.flatMap_nil, List.append_nil]
    exact ⟨fun _ hmem => absurd hmem List.not_mem_nil, rfl, htext, rfl⟩
  | cons code codes ih =>
    obtain ⟨hcode, hassert, hroom⟩ := room_of_run_printFlags hmax htext h
    rw [run_printFlags_cons hcode hassert hroom] at h
    have hnext : (text ++ (symbol code ++ utf8 " ")).length ≤ bufSz mbCurMax := by
      simp only [List.length_append, utf8_space, List.length_singleton]
      omega
    obtain ⟨hcodes, hs, hle, hblock⟩ := ih _ hnext h
    rw [spaced, List.flatMap_cons, ← spaced, ← List.append_assoc]
    exact ⟨List.forall_mem_cons.mpr ⟨hcode, hcodes⟩, hs, hle, hblock⟩

/-- The loop writes nothing outside the buffer, whether it returns or aborts. -/
theorem avoids_printFlags (text : List UInt8) (hmax : 4 ≤ mbCurMax)
    (hcodes : ∀ code ∈ codes, code.IsCode) :
    Avoids .undefined (printFlags mbCurMax text.length codes)
      (padded (bufSz mbCurMax) text rest) := by
  -- the assertion in front of a symbol leaves room for it
  induction codes generalizing text with
  | nil => exact avoids_pure _
  | cons code codes ih =>
    obtain ⟨hcode, hcodes⟩ := List.forall_mem_cons.mp hcodes
    by_cases hassert : text.length + mbCurRis + mbCurMax + 1 ≤ bufSz mbCurMax - 1
    · have hsymbol := length_symbol_le hcode
      have hroom : text.length + (symbol code).length < bufSz mbCurMax := by
        rw [mbCurRis] at hassert
        omega
      intro s' herror
      rw [run_printFlags_cons hcode hassert hroom] at herror
      exact ih _ hcodes s' herror
    · exact avoids_bind_of_error (by decide) (run_assert_of_false hassert _)

/-- A group of `MAX_FLAGS_IN_GROUP` codes at most is printed to its end. -/
theorem exists_run_printFlags (text rest : List UInt8) (hmax : 4 ≤ mbCurMax)
    (hcodes : ∀ code ∈ codes, code.IsCode)
    (hlen : text.length + 9 * codes.length ≤ 9 * maxFlagsInGroup) :
    ∃ s block', (printFlags mbCurMax text.length codes).run (padded (bufSz mbCurMax) text rest) =
      .ok s block' := by
  induction codes generalizing text with
  | nil => exact ⟨_, _, rfl⟩
  | cons code codes ih =>
    obtain ⟨hcode, hcodes⟩ := List.forall_mem_cons.mp hcodes
    have hsymbol := length_symbol_le hcode
    have hbuf := bufSz_eq mbCurMax
    rw [List.length_cons, maxFlagsInGroup] at hlen
    rw [run_printFlags_cons hcode (by rw [mbCurRis]; omega) (by omega)]
    apply ih _ hcodes
    simp only [List.length_append, utf8_space, List.length_singleton, maxFlagsInGroup]
    omega

/-! ## The title -/

/-- The title of some codes, with the space behind the last one. -/
theorem spaced_eq_append (hne : codes ≠ []) : spaced codes = titleText codes ++ utf8 " " := by
  induction codes with
  | nil => exact absurd rfl hne
  | cons code codes ih =>
    rcases codes with _ | ⟨code', codes⟩
    · simp [spaced, titleText]
    · have hrest := ih (List.cons_ne_nil _ _)
      rw [spaced, List.flatMap_cons, ← spaced, hrest]
      simp only [titleText, List.map_cons, List.intercalate_cons_cons, List.append_assoc]

/-- The NUL goes over the last space. -/
theorem splice_padded_nul (h : text.length < n) :
    splice (padded n (text ++ [32]) rest) text.length [0] = padded n text rest := by
  have hlen : text.length + 1 ≤ (padded n text rest).length := by
    rw [length_padded (by omega)]
    omega
  have hover : splice (splice (padded n text rest) text.length [32]) text.length [0] =
      splice (padded n text rest) text.length [0] := splice_splice_self hlen rfl
  rw [← splice_padded h, hover, splice_padded h, padded_append_nul h]

/-- `bzero` on the destination. -/
theorem splice_zeros {block : List UInt8} (hblock : block.length = n) :
    splice (block ++ rest) 0 (List.replicate n 0) = padded n [] rest := by
  rw [splice, List.take_zero, List.length_replicate, Nat.zero_add, List.drop_left' hblock]
  rfl

/-- `ccs2str` on a buffer that `bzero` cleared. -/
theorem run_ccs2str_cleared {block : List UInt8} (hblock : block.length = bufSz mbCurMax) :
    (ccs2str mbCurMax codes).run (block ++ rest) =
      (do
        let s ← printFlags mbCurMax 0 codes
        let dest ← get
        write (if 1 ≤ s ∧ dest[s - 1]? = some 32 then s - 1 else s) [0]).run
        (padded (bufSz mbCurMax) [] rest) := by
  rw [ccs2str, EStateM.run_bind,
    run_write_of_le (by rw [List.length_replicate, List.length_append]; omega),
    splice_zeros hblock]

/-- When the loop is done, the NUL takes the place of the last space. -/
theorem run_ccs2str {block : List UInt8} (hblock : block.length = bufSz mbCurMax)
    (hlen : (spaced codes).length ≤ bufSz mbCurMax)
    (hloop : (printFlags mbCurMax 0 codes).run (padded (bufSz mbCurMax) [] rest) =
      .ok (spaced codes).length (padded (bufSz mbCurMax) (spaced codes) rest)) :
    (ccs2str mbCurMax codes).run (block ++ rest) =
      .ok () (padded (bufSz mbCurMax) (titleText codes) rest) := by
  have hbuf := bufSz_eq mbCurMax
  rw [run_ccs2str_cleared hblock, EStateM.run_bind, hloop]
  dsimp only
  rw [EStateM.run_bind, EStateM.run_get]
  dsimp only
  rcases codes with _ | ⟨code, codes⟩
  · -- without a code there is no space to replace
    rw [if_neg (by simp [spaced])]
    have hnul : ([] : List UInt8).length < bufSz mbCurMax := by
      rw [List.length_nil]
      omega
    exact (run_write_padded hnul).trans (congrArg _ (padded_append_nul hnul))
  · have hspaced := spaced_eq_append (List.cons_ne_nil code codes)
    rw [hspaced, utf8_space, List.length_append, List.length_singleton] at hlen ⊢
    have hlast : (padded (bufSz mbCurMax) (titleText (code :: codes) ++ [32]) rest)[
        (titleText (code :: codes)).length]? = some 32 := by
      rw [padded, List.append_assoc, List.append_assoc, List.getElem?_append_right (Nat.le_refl _),
        Nat.sub_self]
      rfl
    rw [Nat.add_sub_cancel, if_pos ⟨Nat.le_add_left _ _, hlast⟩, run_write_of_le,
      splice_padded_nul hlen]
    rw [length_padded (by rw [List.length_append, List.length_singleton]; exact hlen),
      List.length_singleton]
    omega

/-- What `ccs2str` leaves when it returns. -/
theorem ccs2str_eq_ok {block dest : List UInt8} (hmax : 4 ≤ mbCurMax ∨ rest = [])
    (hblock : block.length = bufSz mbCurMax)
    (h : (ccs2str mbCurMax codes).run (block ++ rest) = .ok () dest) :
    (∀ code ∈ codes, code.IsCode) ∧ (titleText codes).length < bufSz mbCurMax ∧
      dest = padded (bufSz mbCurMax) (titleText codes) rest := by
  have hbuf := bufSz_eq mbCurMax
  have hrun := h
  obtain ⟨_, block₁, hzero, h⟩ := run_bind_eq_ok.mp h
  rw [run_write_of_le (by rw [List.length_replicate, List.length_append]; omega),
    splice_zeros hblock] at hzero
  cases hzero
  -- what the loop has printed decides about the rest
  obtain ⟨s, block₂, hloop, -⟩ := run_bind_eq_ok.mp h
  obtain ⟨hcodes, rfl, hle, rfl⟩ := printFlags_eq_ok [] hmax (Nat.zero_le _) hloop
  rw [List.nil_append] at hle hloop
  rw [run_ccs2str hblock hle hloop] at hrun
  cases hrun
  refine ⟨hcodes, ?_, rfl⟩
  -- the last space of the row gives way to the NUL
  rcases codes with _ | ⟨code, codes⟩
  · rw [hbuf]
    exact Nat.lt_of_lt_of_le (Nat.zero_lt_succ 50) (Nat.le_add_right 51 mbCurMax)
  · rwa [spaced_eq_append (List.cons_ne_nil code codes), List.length_append, utf8_space] at hle

/-- `ccs2str` does not write outside its `BUF_SZ` bytes. What it leaves there when it returns is
the title and zeros behind it, and it returns for every group of `MAX_FLAGS_IN_GROUP` codes. -/
theorem ccs2str_inBounds (hmax : 4 ≤ mbCurMax) (hcodes : ∀ code ∈ codes, code.IsCode)
    (block rest : List UInt8) (hblock : block.length = bufSz mbCurMax) :
    Avoids .undefined (ccs2str mbCurMax codes) (block ++ rest) ∧
    (∀ dest, (ccs2str mbCurMax codes).run (block ++ rest) = .ok () dest →
      (titleText codes).length < bufSz mbCurMax ∧
      dest = titleText codes ++
        List.replicate (bufSz mbCurMax - (titleText codes).length) 0 ++ rest) ∧
    (codes.length ≤ maxFlagsInGroup →
      ∃ dest, (ccs2str mbCurMax codes).run (block ++ rest) = .ok () dest) := by
  have hloop : ∀ s block₁, (printFlags mbCurMax 0 codes).run (padded (bufSz mbCurMax) [] rest) =
      .ok s block₁ → ∃ dest, (ccs2str mbCurMax codes).run (block ++ rest) = .ok () dest := by
    intro s block₁ h
    obtain ⟨-, rfl, hle, rfl⟩ := printFlags_eq_ok [] (.inl hmax) (Nat.zero_le _) h
    exact ⟨_, run_ccs2str hblock hle h⟩
  refine ⟨?_, ?_, ?_⟩
  · cases h : (printFlags mbCurMax 0 codes).run (padded (bufSz mbCurMax) [] rest) with
    -- behind the loop, the removal of the last space stays in the buffer
    | ok s block₁ =>
      obtain ⟨dest, hdest⟩ := hloop s block₁ h
      exact avoids_of_ok hdest
    | error e block₁ =>
      have he : e ≠ .undefined := by
        rintro rfl
        exact avoids_printFlags [] hmax hcodes block₁ h
      have hrun : (ccs2str mbCurMax codes).run (block ++ rest) = .error e block₁ := by
        rw [run_ccs2str_cleared hblock, EStateM.run_bind, h]
      exact avoids_of_error he hrun
  · intro dest h
    obtain ⟨-, hlt, hdest⟩ := ccs2str_eq_ok (.inl hmax) hblock h
    exact ⟨hlt, hdest⟩
  · intro hlen
    obtain ⟨s, block₁, h⟩ := exists_run_printFlags [] rest hmax hcodes
      (by rw [List.length_nil]; omega)
    exact hloop s block₁ h

theorem ccs2str_inBounds_six :
    (∃ dest, (ccs2str 6 [.cc 'H' 'K', .cc 'J' 'P', .cc 'C' 'N', .cc 'U' 'S', .cc 'T' 'W',
      .cc 'S' 'G']).run (List.replicate (bufSz 6) 0 ++ [7]) = .ok () dest) :=
  (ccs2str_inBounds (by decide) (by decide) _ _ List.length_replicate).2.2 (by decide)

/-! ## Reading a title -/

theorem space_not_mem_symbol (hcode : code.IsCode) : 32 ∉ symbol code := by
  intro hmem
  exact absurd (le_of_mem_symbol hcode 32 hmem) (by decide)

/-- A title is a string. -/
theorem nul_not_mem_titleText (hcodes : ∀ code ∈ codes, code.IsCode) : 0 ∉ titleText codes := by
  have hspaced : 0 ∉ spaced codes := by
    intro hmem
    obtain ⟨code, hcode, hmem⟩ := List.mem_flatMap.mp hmem
    rw [List.mem_append, utf8_space] at hmem
    rcases hmem with hmem | hmem
    · exact absurd (le_of_mem_symbol (hcodes code hcode) 0 hmem) (by decide)
    · exact absurd (List.mem_singleton.mp hmem) (by decide)
  intro hmem
  apply hspaced
  rw [spaced_eq_append]
  · exact List.mem_append_left _ hmem
  · rintro rfl
    exact List.not_mem_nil hmem

/-- Between the spaces of a title are the symbols. -/
theorem splitOn_titleText (hcodes : ∀ code ∈ codes, code.IsCode) (hne : codes ≠ []) :
    (titleText codes).splitOn 32 = codes.map symbol := by
  rw [titleText, utf8_space]
  apply List.splitOn_intercalate
  · intro l hl
    obtain ⟨code, hcode, rfl⟩ := List.mem_map.mp hl
    exact space_not_mem_symbol (hcodes code hcode)
  · exact fun h => hne (List.map_eq_nil_iff.mp h)

theorem titleText_eq_nil_iff (hcodes : ∀ code ∈ codes, code.IsCode) :
    titleText codes = [] ↔ codes = [] := by
  constructor
  · intro h
    by_contra hne
    have hsplit := splitOn_titleText hcodes hne
    obtain ⟨code, codes, rfl⟩ := List.exists_cons_of_ne_nil hne
    rw [h] at hsplit
    exact symbol_ne_nil (hcodes code List.mem_cons_self) (List.cons.inj hsplit).1.symm
  · rintro rfl
    rfl

/-- Lists of codes with the same symbols are the same, up to `MO` for `CN`. -/
theorem map_symbol_eq_iff {codes' : List CC} (hcodes : ∀ code ∈ codes, code.IsCode)
    (hcodes' : ∀ code ∈ codes', code.IsCode) :
    codes.map symbol = codes'.map symbol ↔ codes.map canonical = codes'.map canonical := by
  induction codes generalizing codes' with
  | nil => cases codes' <;> simp
  | cons code codes ih =>
    rcases codes' with _ | ⟨code', codes'⟩
    · simp
    obtain ⟨hcode, hcodes⟩ := List.forall_mem_cons.mp hcodes
    obtain ⟨hcode', hcodes'⟩ := List.forall_mem_cons.mp hcodes'
    simp only [List.map_cons, List.cons.injEq]
    rw [symbol_eq_iff hcode hcode', ih hcodes hcodes']

/-- The codes can be read back from the title. -/
theorem titleText_eq_iff {codes' : List CC} (hcodes : ∀ code ∈ codes, code.IsCode)
    (hcodes' : ∀ code ∈ codes', code.IsCode) :
    titleText codes = titleText codes' ↔ codes.map canonical = codes'.map canonical := by
  rw [← map_symbol_eq_iff hcodes hcodes']
  constructor
  · intro h
    by_cases hne : codes = []
    · have hne' := (titleText_eq_nil_iff hcodes').mp (h ▸ (titleText_eq_nil_iff hcodes).mpr hne)
      rw [hne, hne']
    · have hne' : codes' ≠ [] := fun h' =>
        hne ((titleText_eq_nil_iff hcodes).mp (h.trans ((titleText_eq_nil_iff hcodes').mpr h')))
      rw [← splitOn_titleText hcodes hne, ← splitOn_titleText hcodes' hne', h]
  · intro h
    rw [titleText, titleText, h]

/-- The string that `ccs2str` leaves is the title. -/
theorem title_eq_ok {t : CString} {s s' : σ} (h : (title mbCurMax codes).run s = .ok t s') :
    (∀ code ∈ codes, code.IsCode) ∧ t = titleText codes := by
  rw [EStateM.run, title] at h
  split at h
  · rename_i dest hrun
    cases h
    rw [← List.append_nil (List.replicate _ _)] at hrun
    obtain ⟨hcodes, hlt, rfl⟩ := ccs2str_eq_ok (.inr rfl) List.length_replicate hrun
    refine ⟨hcodes, ?_⟩
    have hzeros : bufSz mbCurMax - (titleText codes).length =
        bufSz mbCurMax - (titleText codes).length - 1 + 1 := by omega
    have hne : ∀ b ∈ titleText codes, decide (b ≠ 0) = true := fun b hb =>
      decide_eq_true fun hb0 => nul_not_mem_titleText hcodes (hb0 ▸ hb)
    -- the string ends at the first zero behind the text
    rw [padded, hzeros, List.replicate_succ, List.append_nil, ofBlock,
      List.takeWhile_append_of_pos hne]
    simp
  · cases h

/-- Two titles are equal exactly when the codes are, `MO` taken for `CN`. -/
theorem title_eq_iff {codes' : List CC} {t t' : CString} {s s₁ s' s₁' : σ}
    (h : (title mbCurMax codes).run s = .ok t s₁)
    (h' : (title mbCurMax codes').run s' = .ok t' s₁') :
    t = t' ↔ codes.map canonical = codes'.map canonical := by
  obtain ⟨hcodes, rfl⟩ := title_eq_ok h
  obtain ⟨hcodes', rfl⟩ := title_eq_ok h'
  exact titleText_eq_iff hcodes hcodes'

/-- Macau and China have one title. -/
theorem title_eq_iff_mo_cn :
    ∃ t, (title 6 [.cc 'M' 'O', .cc 'J' 'P'] : Prog Unit CString).run () = .ok t () ∧
      (title 6 [.cc 'C' 'N', .cc 'J' 'P'] : Prog Unit CString).run () = .ok t () := by
  obtain ⟨t, h⟩ : ∃ t, (title 6 [.cc 'M' 'O', .cc 'J' 'P'] : Prog Unit CString).run () =
      .ok t () := ⟨utf8 "☒ 🇯🇵", rfl⟩
  obtain ⟨t', h'⟩ : ∃ t', (title 6 [.cc 'C' 'N', .cc 'J' 'P'] : Prog Unit CString).run () =
      .ok t' () := ⟨utf8 "☒ 🇯🇵", rfl⟩
  have heq : t = t' := (title_eq_iff h h').mpr (by decide)
  exact ⟨t, h, heq ▸ h'⟩

end Flag
