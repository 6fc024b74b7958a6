import Mathlib.Data.List.Infix
import Clash.Lib.CString

/-!
# Bitmaps as half blocks

A terminal shows a bitmap with two rows of modules to a line of text: each character is one of the
four half blocks of Unicode, drawn light on a dark ground.

## Main definitions

* `Cell`, `glyph`: two modules, one above the other, and their character.
* `text`, `decode`: lines of cells as text, and back.
* `moduleAt`: a module of the bitmap that the lines show.
* `picture`: the lines for a bitmap that is given by its modules.

## Main results

* `decode_text`: a text shows the cells that it was made of.
* `moduleAt_picture`: a picture shows the modules that it was made of.
-/

namespace HalfBlocks

/-- Whether the upper and the lower module are dark. -/
abbrev Cell := Bool × Bool

/-- The character of a cell. -/
def glyph : Cell → CString
  | (true, true) => [32]
  | (true, false) => [226, 150, 132]
  | (false, true) => [226, 150, 128]
  | (false, false) => [226, 150, 136]

/-- A line of text, with its newline. -/
def lineText (cells : List Cell) : CString := cells.flatMap glyph ++ [10]

/-- The text of some lines. -/
def text (lines : List (List Cell)) : CString := lines.flatMap lineText

/-- A cell in front of the first line. -/
def addCell (cell : Cell) : List (List Cell) → Option (List (List Cell))
  | [] => none
  | cells :: lines => some ((cell :: cells) :: lines)

/-- Read a text glyph by glyph. Each line ends with a newline. -/
def decode : CString → Option (List (List Cell))
  | [] => some []
  | 10 :: s => (decode s).map ([] :: ·)
  | 32 :: s => (decode s).bind (addCell (true, true))
  | 226 :: 150 :: 132 :: s => (decode s).bind (addCell (true, false))
  | 226 :: 150 :: 128 :: s => (decode s).bind (addCell (false, true))
  | 226 :: 150 :: 136 :: s => (decode s).bind (addCell (false, false))
  | _ => none

/-- A glyph in front of a text is the first cell of the first line. -/
theorem decode_glyph_append (cell : Cell) (s : CString) :
    decode (glyph cell ++ s) = (decode s).bind (addCell cell) := by
  rcases cell with ⟨_ | _, _ | _⟩ <;> simp [glyph, decode]

/-- A line in front of a text is its first line. -/
theorem decode_lineText_append (cells : List Cell) (s : CString) :
    decode (lineText cells ++ s) = (decode s).map (cells :: ·) := by
  induction cells with
  | nil => simp [lineText, decode]
  | cons cell cells ih =>
    have hline : lineText (cell :: cells) = glyph cell ++ lineText cells := by
      simp [lineText]
    rw [hline, List.append_assoc, decode_glyph_append, ih]
    cases decode s with
    | none => rfl
    | some lines => rfl

/-- Reading a text gives back the cells of each of its lines. -/
theorem decode_text (lines : List (List Cell)) : decode (text lines) = some lines := by
  induction lines with
  | nil => simp [text, decode]
  | cons cells lines ih =>
    have htext : text (cells :: lines) = lineText cells ++ text lines := by
      simp [text]
    rw [htext, decode_lineText_append, ih, Option.map_some]

/-- The rows of modules of some lines, two for each line. -/
def rows (lines : List (List Cell)) : List (List Bool) :=
  lines.flatMap fun cells => [cells.map Prod.fst, cells.map Prod.snd]

/-- Two rows for each line. -/
@[simp] theorem length_rows (lines : List (List Cell)) :
    (rows lines).length = 2 * lines.length := by
  simp [rows, List.length_flatMap]
  omega

/-- The module in row `i` and column `j`, if the lines show one. -/
def moduleAt (lines : List (List Cell)) (i j : ℕ) : Option Bool := (rows lines)[i]?.bind (·[j]?)

/-- The lines for `2 * height` rows and `width` columns of a bitmap. -/
def picture (dark : ℕ → ℕ → Bool) (height width : ℕ) : List (List Cell) :=
  (List.range height).map fun k =>
    (List.range width).map fun j => (dark (2 * k) j, dark (2 * k + 1) j)

section Picture

variable {dark : ℕ → ℕ → Bool} {height width : ℕ}

/-- The height of a picture in lines. -/
@[simp] theorem length_picture : (picture dark height width).length = height := by
  simp [picture]

/-- Every line has the width of the picture. -/
theorem length_of_mem_picture {cells : List Cell} (h : cells ∈ picture dark height width) :
    cells.length = width := by
  obtain ⟨k, -, rfl⟩ := List.mem_map.mp h
  simp

/-- The rows of a picture are those it was drawn from. -/
theorem rows_picture :
    rows (picture dark height width) =
      (List.range (2 * height)).map fun i => (List.range width).map (dark i) := by
  induction height with
  | zero => rfl
  | succ height ih =>
    have hsnoc : picture dark (height + 1) width =
        picture dark height width ++
          [(List.range width).map fun j => (dark (2 * height) j, dark (2 * height + 1) j)] := by
      simp [picture, List.range_succ]
    have happend (lines lines' : List (List Cell)) :
        rows (lines ++ lines') = rows lines ++ rows lines' := List.flatMap_append
    rw [hsnoc, happend, ih, Nat.mul_succ, List.range_succ, List.range_succ]
    simp [rows, Function.comp_def]

/-- A picture shows the modules that it was made of. -/
theorem moduleAt_picture {i j : ℕ} (hi : i < 2 * height) (hj : j < width) :
    moduleAt (picture dark height width) i j = some (dark i j) := by
  simp [moduleAt, rows_picture, hi, hj]

/-- A module of a picture is as it was drawn. -/
theorem moduleAt_picture_eq_some {i j : ℕ} {b : Bool}
    (h : moduleAt (picture dark height width) i j = some b) : dark i j = b := by
  by_cases hi : i < 2 * height
  · by_cases hj : j < width
    · rw [moduleAt_picture hi hj] at h
      exact Option.some.inj h
    · simp [moduleAt, rows_picture, hi, hj] at h
  · simp [moduleAt, rows_picture, hi] at h

end Picture

end HalfBlocks
