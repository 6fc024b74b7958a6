import Clash.Lib.HalfBlocks

/-!
# The QR code on the terminal

`qr_unicode` prints the matrix of a QR code as half blocks, with a margin around it. Where the
number of rows is odd the last one is printed alone.

## Main definitions

* `QRcode`: a square matrix of modules, as libqrencode returns it.
* `qrUnicode`: the lines printed for it.
* `Shows`: what a picture of the matrix is.

## Main results

* `run_qrUnicode`: the text is the picture of a bitmap, in which row 0 stands in the place of a last
  row that is printed alone.
* `qrUnicode_shows_iff`: the text shows the matrix exactly if the width is even, or if the last row
  is the same as row 0.
-/

open CProg CString HalfBlocks

namespace Sip002

/-- A `QRcode` of libqrencode: `width` rows of `width` bytes, whose lowest bit is set where the
module is dark. -/
structure QRcode where
  width : ℕ
  data : List UInt8
  width_pos : 0 < width
  length_data : data.length = width * width

/-- Bit 0 of `q->data[r*w+c]`. -/
def QRcode.bit (q : QRcode) (r c : ℕ) : Bool := (q.data[r * q.width + c]?.getD 0) &&& 1 = 1

/-! ## Printing -/

/-- `printf` with a plain string. -/
def printf (s : CString) : Prog CString Unit := modify (· ++ s)

/-- `puts`, with its line feed. -/
def puts (s : CString) : Prog CString Unit := printf (s ++ [10])

-- the file's table of glyphs, upper module over lower module
def F : CString := utf8 " "
def U : CString := [0o342, 0o226, 0o204]
def D : CString := [0o342, 0o226, 0o200]
def E : CString := [0o342, 0o226, 0o210]

/-- The table is that of a light drawing on a dark ground. -/
example : [(true, true), (true, false), (false, true), (false, false)].map glyph = [F, U, D, E] :=
  rfl

/-- The width of the frame around the code. -/
def margin : ℕ := 4

/-- `A[r][c]&1u`. -/
def moduleBit (q : QRcode) (r c : ℕ) : Prog CString UInt32 :=
  match q.data[r * q.width + c]? with
  | some byte => pure (byte.toUInt32 &&& 1)
  | none => throw .undefined

/-- `margin` times `printf(E)`. -/
def printMargin : Prog CString Unit := (List.range margin).forM fun _ => printf E

def qrUnicodeLone (q : QRcode) (head : Bool) : Prog CString Unit := do
  printMargin
  if head then
    (List.range q.width).forM fun c => do
      printf (if (← moduleBit q 0 c) ≠ 0 then U else E)
  else
    (List.range q.width).forM fun c => do
      printf (if (← moduleBit q (q.width - 1) c) ≠ 0 then D else E)
  printMargin
  puts []

/-- The macro `qr_unicode_lone_head`. -/
def qrUnicodeLoneHead (q : QRcode) : Prog CString Unit := qrUnicodeLone q false

/-- The macro `qr_unicode_lone_tail`. -/
def qrUnicodeLoneTail (q : QRcode) : Prog CString Unit := qrUnicodeLone q true

def qrUnicodeDuoEmpty (q : QRcode) : Prog CString Unit := do
  (List.range (margin + q.width + margin)).forM fun _ => printf E
  puts []

def qrUnicodeDuo (q : QRcode) (r0 r1 : ℕ) : Prog CString Unit := do
  assert (0 ≤ r0 ∧ r0 + 1 = r1 ∧ (r1 : ℤ) ≤ q.width - 1)
  printMargin
  (List.range q.width).forM fun c => do
    match ((← moduleBit q r0 c) <<< 4) ||| (← moduleBit q r1 c) with
    | 0x11 => printf F
    | 0x10 => printf U
    | 0x01 => printf D
    | 0x00 => printf E
    | _ => assert False
  printMargin
  puts []

def qrUnicode (q : QRcode) : Prog CString Unit := do
  (List.range (margin / 2)).forM fun _ => qrUnicodeDuoEmpty q
  if margin % 2 ≠ 0 then
    qrUnicodeLoneHead q
    (List.range ((q.width - 1) / 2)).forM fun rr => qrUnicodeDuo q (2 * rr + 1) (2 * rr + 2)
    if (q.width - 1) % 2 ≠ 0 then qrUnicodeLoneTail q
  else
    (List.range (q.width / 2)).forM fun rr => qrUnicodeDuo q (2 * rr) (2 * rr + 1)
    if q.width % 2 ≠ 0 then qrUnicodeLoneTail q
  (List.range ((margin + (margin + q.width + 1) % 2) / 2)).forM fun _ => qrUnicodeDuoEmpty q

/-! ## What is printed -/

variable {q : QRcode} {out : CString}

/-- A loop prints what its iterations print. -/
theorem run_forM_print {α : Type} {l : List α} {body : α → Prog CString Unit} {f : α → CString}
    (h : ∀ a ∈ l, ∀ out, (body a).run out = .ok () (out ++ f a)) (out : CString) :
    (l.forM body).run out = .ok () (out ++ l.flatMap f) := by
  induction l generalizing out with
  | nil =>
    rw [List.flatMap_nil, List.append_nil]
    rfl
  | cons a l ih =>
    rw [List.forall_mem_cons] at h
    show (body a >>= fun _ => l.forM body).run out = _
    rw [EStateM.run_bind, h.1]
    dsimp only
    rw [ih h.2, List.flatMap_cons, List.append_assoc]

@[simp] theorem run_printf (s : CString) : (printf s).run out = .ok () (out ++ s) := rfl

@[simp] theorem run_puts (s : CString) : (puts s).run out = .ok () (out ++ (s ++ [10])) := rfl

/-- The cell of four light modules, `n` times. -/
theorem flatMap_light (n : ℕ) :
    (List.range n).flatMap (fun _ => E) = (List.replicate n (false, false)).flatMap glyph := by
  induction n with
  | zero => rfl
  | succ n ih =>
    rw [List.range_succ, List.flatMap_append, ih, List.replicate_succ', List.flatMap_append]
    rfl

theorem toUInt32_and_one (byte : UInt8) :
    byte.toUInt32 &&& 1 = if byte &&& 1 = 1 then 1 else 0 := by
  -- both sides are the value modulo 2
  have hbit : (byte &&& 1).toNat = byte.toNat % 2 := by
    rw [UInt8.toNat_and]
    exact Nat.and_one_is_mod _
  apply UInt32.toNat_inj.mp
  have hleft : (byte.toUInt32 &&& 1).toNat = byte.toNat % 2 := by
    rw [UInt32.toNat_and, UInt8.toNat_toUInt32]
    exact Nat.and_one_is_mod _
  rw [hleft, ← hbit]
  by_cases hone : byte &&& 1 = 1
  · rw [if_pos hone, hone]
    rfl
  · rw [if_neg hone]
    have hne : (byte &&& 1).toNat ≠ 1 := fun h => hone (UInt8.toNat_inj.mp h)
    show (byte &&& 1).toNat = 0
    omega

/-- A module within the matrix is read as its bit. -/
theorem run_moduleBit {r c : ℕ} (hr : r < q.width) (hc : c < q.width) :
    (moduleBit q r c).run out = .ok (if q.bit r c then 1 else 0) out := by
  have hindex : r * q.width + c < q.data.length := by
    rw [q.length_data]
    calc r * q.width + c < (r + 1) * q.width := by rw [Nat.succ_mul]; omega
      _ ≤ q.width * q.width := Nat.mul_le_mul_right _ hr
  have hget := List.getElem?_eq_getElem hindex
  rw [moduleBit, hget]
  simp only [QRcode.bit, hget, Option.getD_some, toUInt32_and_one, decide_eq_true_eq]
  rfl

/-- A margin is empty columns. -/
@[simp] theorem run_printMargin :
    printMargin.run out = .ok () (out ++ (List.replicate margin (false, false)).flatMap glyph) := by
  rw [printMargin, run_forM_print (fun _ _ out => run_printf E), flatMap_light]

/-- The modules of a line between its margins. -/
def framed (cells : List Cell) : List Cell :=
  List.replicate margin (false, false) ++ cells ++ List.replicate margin (false, false)

/-- A line is a margin, the cells that a loop prints, and another margin. -/
theorem run_framed {body : ℕ → Prog CString Unit} {cell : ℕ → Cell}
    (h : ∀ c < q.width, ∀ out, (body c).run out = .ok () (out ++ glyph (cell c)))
    (out : CString) :
    (do
      printMargin
      (List.range q.width).forM body
      printMargin
      puts [] : Prog CString Unit).run out =
      .ok () (out ++ lineText (framed ((List.range q.width).map cell))) := by
  have hloop (out : CString) : ((List.range q.width).forM body).run out =
      .ok () (out ++ (List.range q.width).flatMap fun c => glyph (cell c)) :=
    run_forM_print (fun c hc => h c (List.mem_range.mp hc)) out
  simp only [EStateM.run_bind, run_printMargin, hloop, run_puts]
  simp [lineText, framed, List.flatMap_map]

/-- A line of one row of modules, with the other half empty. -/
theorem run_qrUnicodeLone (head : Bool) :
    (qrUnicodeLone q head).run out = .ok () (out ++ lineText (framed ((List.range q.width).map
      fun c => if head then (q.bit 0 c, false) else (false, q.bit (q.width - 1) c)))) := by
  cases head with
  | true =>
    refine run_framed (fun c hc out => ?_) out
    rw [EStateM.run_bind, run_moduleBit q.width_pos hc]
    cases q.bit 0 c with
    | true => rfl
    | false => rfl
  | false =>
    refine run_framed (fun c hc out => ?_) out
    rw [EStateM.run_bind, run_moduleBit (Nat.sub_lt q.width_pos Nat.one_pos) hc]
    cases q.bit (q.width - 1) c with
    | true => rfl
    | false => rfl

/-- A line with nothing in it. -/
theorem run_qrUnicodeDuoEmpty :
    (qrUnicodeDuoEmpty q).run out =
      .ok () (out ++ lineText (List.replicate (margin + q.width + margin) (false, false))) := by
  rw [qrUnicodeDuoEmpty, EStateM.run_bind, run_forM_print (fun _ _ out => run_printf E)]
  dsimp only
  rw [run_puts, flatMap_light, lineText, List.nil_append, List.append_assoc]

/-- A line of two rows of modules. -/
theorem run_qrUnicodeDuo {r : ℕ} (hr : r + 1 < q.width) :
    (qrUnicodeDuo q r (r + 1)).run out = .ok () (out ++ lineText (framed ((List.range q.width).map
      fun c => (q.bit r c, q.bit (r + 1) c)))) := by
  have hassert : 0 ≤ r ∧ r + 1 = r + 1 ∧ ((r + 1 : ℕ) : ℤ) ≤ q.width - 1 := by
    omega
  rw [qrUnicodeDuo, EStateM.run_bind, run_assert_of_true hassert]
  refine run_framed (fun c hc out => ?_) out
  simp only [EStateM.run_bind]
  rw [run_moduleBit (by omega) hc]
  dsimp only
  rw [run_moduleBit hr hc]
  -- one case for each row of the table
  cases q.bit r c <;> cases q.bit (r + 1) c <;> rfl

/-! ## The picture -/

/-- The row of the matrix that is printed in the place of row `r`. Where the width is odd the last
row is left to `qr_unicode_lone_tail`, and its `true` selects row 0. -/
def printedRow (q : QRcode) (r : ℕ) : ℕ :=
  if q.width % 2 = 1 ∧ r = q.width - 1 then 0 else r

/-- The bitmap that the text is a picture of. -/
def printed (q : QRcode) (i j : ℕ) : Bool :=
  decide (margin ≤ i ∧ i < margin + q.width ∧ margin ≤ j ∧ j < margin + q.width) &&
    q.bit (printedRow q (i - margin)) (j - margin)

/-- Outside the matrix nothing is printed. -/
theorem printed_of_outside {i j : ℕ}
    (h : ¬ (margin ≤ i ∧ i < margin + q.width ∧ margin ≤ j ∧ j < margin + q.width)) :
    printed q i j = false := by
  simp [printed, h]

/-- Inside it a module of the matrix is. -/
theorem printed_of_inside {r c : ℕ} (hr : r < q.width) (hc : c < q.width) :
    printed q (margin + r) (margin + c) = q.bit (printedRow q r) c := by
  simp [printed, hr, hc]

/-- A line of the picture. -/
def printedLine (q : QRcode) (k : ℕ) : List Cell :=
  (List.range (margin + q.width + margin)).map fun j =>
    (printed q (2 * k) j, printed q (2 * k + 1) j)

/-- A line above or below the matrix is empty. -/
theorem printedLine_of_outside {k : ℕ} (h : 2 * k + 1 < margin ∨ margin + q.width ≤ 2 * k) :
    printedLine q k = List.replicate (margin + q.width + margin) (false, false) := by
  apply List.eq_replicate_iff.mpr
  refine ⟨by simp [printedLine], fun cell hcell => ?_⟩
  obtain ⟨j, -, rfl⟩ := List.mem_map.mp hcell
  rw [printed_of_outside (by omega), printed_of_outside (by omega)]

/-- The margins of a line are light. -/
theorem printedLine_eq_framed (k : ℕ) :
    printedLine q k = framed ((List.range q.width).map fun c =>
      (printed q (2 * k) (margin + c), printed q (2 * k + 1) (margin + c))) := by
  have hlight (f : ℕ → ℕ) (hf : ∀ j < margin, f j < margin ∨ margin + q.width ≤ f j) :
      (List.range margin).map (fun j => (printed q (2 * k) (f j), printed q (2 * k + 1) (f j))) =
        List.replicate margin (false, false) := by
    apply List.eq_replicate_iff.mpr
    refine ⟨by simp, fun cell hcell => ?_⟩
    obtain ⟨j, hj, rfl⟩ := List.mem_map.mp hcell
    have houtside := hf j (List.mem_range.mp hj)
    rw [printed_of_outside (by omega), printed_of_outside (by omega)]
  rw [printedLine, List.range_add, List.range_add, List.map_append, List.map_append, List.map_map,
    List.map_map, framed]
  have hleft := hlight id fun j hj => .inl hj
  have hright := hlight (margin + q.width + ·) fun j _ => .inr (Nat.le_add_right _ _)
  exact congrArg₂ (· ++ ·) (congrArg (· ++ List.map _ (List.range q.width)) hleft) hright

/-- A pair of rows is printed in its place. -/
theorem run_qrUnicodeDuo_eq {rr : ℕ} (hrr : 2 * rr + 1 < q.width) :
    (qrUnicodeDuo q (2 * rr) (2 * rr + 1)).run out =
      .ok () (out ++ lineText (printedLine q (margin / 2 + rr))) := by
  have hupper : 2 * (margin / 2 + rr) = margin + 2 * rr := by
    show 2 * (2 + rr) = 4 + 2 * rr
    omega
  rw [run_qrUnicodeDuo hrr, printedLine_eq_framed, hupper, Nat.add_assoc margin]
  congr 4
  apply List.map_congr_left
  intro c hc
  rw [List.mem_range] at hc
  rw [printed_of_inside (by omega) hc, printed_of_inside hrr hc, printedRow, printedRow,
    if_neg (by omega), if_neg (by omega)]

/-- The last row of an odd width is printed in its place, with the modules of row 0. -/
theorem run_qrUnicodeLoneTail (hodd : q.width % 2 = 1) :
    (qrUnicodeLoneTail q).run out =
      .ok () (out ++ lineText (printedLine q (margin / 2 + q.width / 2))) := by
  have hupper : 2 * (margin / 2 + q.width / 2) = margin + (q.width - 1) := by
    show 2 * (2 + q.width / 2) = 4 + (q.width - 1)
    omega
  rw [qrUnicodeLoneTail, run_qrUnicodeLone, printedLine_eq_framed, hupper]
  congr 4
  apply List.map_congr_left
  intro c hc
  rw [List.mem_range] at hc
  have hlast : printedRow q (q.width - 1) = 0 := if_pos ⟨hodd, rfl⟩
  rw [printed_of_inside (by omega) hc, hlast, if_pos rfl, printed_of_outside (by omega)]

/-- The text is a picture, with row 0 in the place of a last row that is printed alone. -/
theorem run_qrUnicode (q : QRcode) (out : CString) :
    (qrUnicode q).run out = .ok () (out ++ text (picture (printed q) (margin + (q.width + 1) / 2)
      (margin + q.width + margin))) := by
  let line (k : ℕ) : CString := lineText (printedLine q k)
  -- the lines come in three parts: above the code, the pairs of rows, and below
  have htop (out : CString) :
      ((List.range (margin / 2)).forM fun _ => qrUnicodeDuoEmpty q).run out =
      .ok () (out ++ (List.range (margin / 2)).flatMap line) := by
    refine run_forM_print (fun k hk out => ?_) out
    rw [run_qrUnicodeDuoEmpty, ← printedLine_of_outside (.inl ?_)]
    have hk : k < 2 := List.mem_range.mp hk
    show 2 * k + 1 < 4
    omega
  have hpairs (out : CString) : ((List.range (q.width / 2)).forM fun rr =>
      qrUnicodeDuo q (2 * rr) (2 * rr + 1)).run out =
      .ok () (out ++ (List.range (q.width / 2)).flatMap fun rr => line (margin / 2 + rr)) := by
    refine run_forM_print (fun rr hrr out => run_qrUnicodeDuo_eq ?_) out
    rw [List.mem_range] at hrr
    omega
  have hbottom (out : CString) :
      ((List.range ((margin + (margin + q.width + 1) % 2) / 2)).forM fun _ =>
        qrUnicodeDuoEmpty q).run out =
      .ok () (out ++ (List.range (margin / 2)).flatMap fun k =>
        line (margin / 2 + (q.width + 1) / 2 + k)) := by
    -- the remainder is lost in the division, as the margin is even
    have hheight : (margin + (margin + q.width + 1) % 2) / 2 = margin / 2 := by
      show (4 + (4 + q.width + 1) % 2) / 2 = 2
      omega
    rw [hheight]
    refine run_forM_print (fun k _ out => ?_) out
    rw [run_qrUnicodeDuoEmpty, ← printedLine_of_outside (.inr ?_)]
    show 4 + q.width ≤ 2 * (2 + (q.width + 1) / 2 + k)
    omega
  have htext : text (picture (printed q) (margin + (q.width + 1) / 2)
      (margin + q.width + margin)) =
      (List.range (margin / 2)).flatMap line ++
        (List.range ((q.width + 1) / 2)).flatMap (fun rr => line (margin / 2 + rr)) ++
          (List.range (margin / 2)).flatMap fun k =>
            line (margin / 2 + (q.width + 1) / 2 + k) := by
    have hheight : margin + (q.width + 1) / 2 = margin / 2 + (q.width + 1) / 2 + margin / 2 := by
      show 4 + (q.width + 1) / 2 = 2 + (q.width + 1) / 2 + 2
      omega
    have hlines : text (picture (printed q) (margin + (q.width + 1) / 2)
        (margin + q.width + margin)) =
        (List.range (margin + (q.width + 1) / 2)).flatMap line := by
      rw [text, picture, List.flatMap_map]
      rfl
    rw [hlines, hheight, List.range_add, List.range_add, List.flatMap_append, List.flatMap_append,
      List.flatMap_map, List.flatMap_map]
  have hmargin : ¬ margin % 2 ≠ 0 := by decide
  rw [qrUnicode, EStateM.run_bind, htop]
  dsimp only
  rw [if_neg hmargin, htext]
  -- an odd width leaves a last row, which is printed alone
  by_cases hodd : q.width % 2 = 1
  · have hrows : (q.width + 1) / 2 = q.width / 2 + 1 := by omega
    have hlast : q.width % 2 ≠ 0 := by omega
    simp only [EStateM.run_bind, hpairs, if_pos hlast, run_qrUnicodeLoneTail hodd]
    rw [hbottom, hrows, List.range_succ, List.flatMap_append, List.flatMap_singleton]
    simp only [List.append_assoc, line]
  · have hrows : (q.width + 1) / 2 = q.width / 2 := by omega
    have hlast : ¬ q.width % 2 ≠ 0 := by omega
    simp only [EStateM.run_bind, hpairs, if_neg hlast]
    show EStateM.run _ _ = _
    rw [hbottom, hrows]
    simp only [List.append_assoc, line]

/-- The lines are a picture of the matrix, with at least `margin` light modules on each side. -/
structure Shows (q : QRcode) (lines : List (List Cell)) : Prop where
  width : ∀ cells ∈ lines, cells.length = margin + q.width + margin
  height : margin + q.width + margin ≤ (rows lines).length
  dark : ∀ r < q.width, ∀ c < q.width, moduleAt lines (margin + r) (margin + c) = some (q.bit r c)
  light : ∀ i j b, moduleAt lines i j = some b →
    ¬ (margin ≤ i ∧ i < margin + q.width ∧ margin ≤ j ∧ j < margin + q.width) → b = false

/-- The picture of a bitmap shows the matrix exactly if the bitmap has the modules of the matrix. -/
theorem shows_picture_iff : Shows q (picture (printed q) (margin + (q.width + 1) / 2)
      (margin + q.width + margin)) ↔
    ∀ r < q.width, ∀ c < q.width, q.bit (printedRow q r) c = q.bit r c := by
  have hheight : margin + q.width + margin ≤ 2 * (margin + (q.width + 1) / 2) := by
    show 4 + q.width + 4 ≤ 2 * (4 + (q.width + 1) / 2)
    omega
  have hmodule {r c : ℕ} (hr : r < q.width) (hc : c < q.width) :
      moduleAt (picture (printed q) (margin + (q.width + 1) / 2) (margin + q.width + margin))
        (margin + r) (margin + c) = some (q.bit (printedRow q r) c) := by
    rw [moduleAt_picture (by omega) (by omega), printed_of_inside hr hc]
  constructor
  · intro h r hr c hc
    have hdark := h.dark r hr c hc
    rw [hmodule hr hc] at hdark
    exact Option.some.inj hdark
  · intro h
    refine ⟨fun cells => length_of_mem_picture, ?_, fun r hr c hc => ?_,
      fun i j b hb houtside => ?_⟩
    · rw [length_rows, length_picture]
      exact hheight
    · rw [hmodule hr hc, h r hr c hc]
    · rw [← moduleAt_picture_eq_some hb, printed_of_outside houtside]

/-- The text shows the matrix exactly if the right rows are printed. -/
theorem exists_shows_iff (q : QRcode) (out : CString) :
    (∃ s lines, (qrUnicode q).run out = .ok () (out ++ s) ∧ decode s = some lines ∧
        Shows q lines) ↔
      ∀ r < q.width, ∀ c < q.width, q.bit (printedRow q r) c = q.bit r c := by
  rw [← shows_picture_iff]
  constructor
  · rintro ⟨s, lines, hrun, hdecode, h⟩
    rw [run_qrUnicode, EStateM.Result.ok.injEq, List.append_cancel_left_eq] at hrun
    rw [← hrun.2, decode_text] at hdecode
    cases hdecode
    exact h
  · intro h
    exact ⟨_, _, run_qrUnicode q out, decode_text _, h⟩

/-- The text that is printed shows the matrix exactly if the width is even, or if the last row is
the same as row 0. -/
theorem qrUnicode_shows_iff (q : QRcode) (out : CString) :
    (∃ s lines, (qrUnicode q).run out = .ok () (out ++ s) ∧ decode s = some lines ∧
        Shows q lines) ↔
      q.width % 2 = 0 ∨ ∀ c < q.width, q.bit 0 c = q.bit (q.width - 1) c := by
  rw [exists_shows_iff]
  constructor
  · intro h
    by_cases heven : q.width % 2 = 0
    · exact .inl heven
    · refine .inr fun c hc => ?_
      -- of an odd number of rows, row 0 is printed in place of the last one
      have hlast : printedRow q (q.width - 1) = 0 := if_pos ⟨by omega, rfl⟩
      rw [← hlast]
      exact h _ (Nat.sub_lt q.width_pos Nat.one_pos) c hc
  · intro h r hr c hc
    rw [printedRow]
    split
    · rename_i hlast
      rcases h with heven | hsame
      · omega
      · rw [hlast.2, hsame c hc]
    · rfl

/-- A finder pattern in its square of seven by seven modules. -/
def finder (i j : ℕ) : Bool :=
  i < 7 && j < 7 &&
    (i == 0 || i == 6 || j == 0 || j == 6 || (2 ≤ i && i ≤ 4 && 2 ≤ j && j ≤ 4))

/-- The finder patterns of a QR code of version 5, in three of its corners. -/
def finderPatterns : QRcode where
  width := 37
  data := (List.range (37 * 37)).map fun k =>
    let (r, c) := (k / 37, k % 37)
    if finder r c || finder r (36 - c) || finder (36 - r) c then 1 else 0
  width_pos := by decide
  length_data := by simp

/-- The last row has one finder pattern, and two of them are printed in its place. -/
theorem not_shows_finderPatterns :
    ¬ ∃ s lines, (qrUnicode finderPatterns).run [] = .ok () ([] ++ s) ∧ decode s = some lines ∧
      Shows finderPatterns lines := by
  rw [exists_shows_iff]
  intro h
  have hcorner : finderPatterns.bit 0 36 = finderPatterns.bit 36 36 :=
    h 36 (by decide) 36 (by decide)
  have hdark : finderPatterns.bit 0 36 = true := by decide +kernel
  have hlight : finderPatterns.bit 36 36 = false := by decide +kernel
  rw [hdark, hlight] at hcorner
  cases hcorner

end Sip002
