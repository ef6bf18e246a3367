import CasseOS.Screen.FbBounds
import CasseOS.Screen.FbRefinement

/-! # Printing with auto cursor off

`print_char` moves the cursor at its end if auto cursor is on. On a framebuffer
`fb_console_print_char` has moved it before, whatever the flag, so the cursor
follows the text; it is where it was only if the text happens to end there. -/

namespace CasseOS.Screen
open CInt Loop TextGrid

/-- `set_auto_cursor` (`screen.c:79-81`). -/
def setAutoCursor (s : Console) (autoCursor : Bool) : Console := {s with autoCursor}

/-! ### Scrolling -/

/- The test of `fb_console_print_char` before it scrolls. -/
def fbPrintCharScrolls (f : Fb) (c : UInt8) (col row : ℤ) : Bool :=
  let f' := (fbConsoleUse f).2
  let cell := fbPrintCell f' col row
  let cols := wrap32 f'.con.cols
  let rows := wrap32 f'.con.rows
  (fbConsoleUse f).1 && !decide (cols ≤ 0 ∨ rows ≤ 0) &&
    decide (rows ≤ (fbNextCell cols c cell.1 cell.2).2)

/- The test of `print_char` for video memory. -/
def Vga.printCharScrolls (t : TextMode) (v : Vga) (c : UInt8) (col row : ℤ) : Bool :=
  !decide (t.maxCols ≤ col ∨ t.maxRows ≤ row) &&
    decide (t.maxRows * t.maxCols * 2 ≤ vgaNextOffset t c (v.printOffset t col row))

def printCharScrolls (t : TextMode) (s : Console) (c : UInt8) (col row : ℤ) : Bool :=
  if (usesFb s).1 then fbPrintCharScrolls (usesFb s).2.fb c col row
  else s.available && s.vga.printCharScrolls t c col row

/- A character of the printing loop of `kprint_at` scrolls. -/
def kprintLoopScrolls (t : TextMode) : Console → List UInt8 → ℤ → ℤ → Bool
  | _, [], _, _ => false
  | s, c :: message, col, row =>
    if c = 0 then false
    else
      let printed := printChar t s c col row whiteOnBlack
      let atRow := getVgaOffsetRow t printed.2 printed.1
      let atCol := getVgaOffsetCol t atRow.2 printed.1
      printCharScrolls t s c col row || kprintLoopScrolls t atCol.2 message atCol.1 atRow.1

def kprintAtScrolls (t : TextMode) (s : Console) (message : List UInt8) (col row : ℤ) : Bool :=
  if !s.available && !s.fb.ready then false
  else if 0 ≤ col ∧ 0 ≤ row then kprintLoopScrolls t (getOffset t s col row).2 message col row
  else
    let cursor := getCursorOffset s
    let atRow := getVgaOffsetRow t cursor.2 cursor.1
    let atCol := getVgaOffsetCol t atRow.2 cursor.1
    kprintLoopScrolls t atCol.2 message atCol.1 atRow.1

/- `get_cursor_offset` answers as before, unless the text has scrolled. -/
def CursorKept (s s' : Console) (scrolled : Bool) : Prop :=
  (getCursorOffset s').1 = (getCursorOffset s).1 ∨ scrolled = true

/- Where the text starts. -/
def startCell (s : Console) (col row : ℤ) : ℤ × ℤ :=
  let con := (usesFb s).2.fb.con
  if 0 ≤ col ∧ 0 ≤ row then (col, row) else (con.cursorCol, con.cursorRow)

/- A negative coordinate counts as 0. -/
def cellIndex (cols : ℕ) (cell : ℤ × ℤ) : ℕ := cell.2.toNat * cols + cell.1.toNat

/- On a framebuffer: the text is empty, or it goes past the last row, or the
cell after it is that of the cursor. -/
def EndsAtCursor (s : Console) (message : List UInt8) (col row : ℤ) : Prop :=
  match cstr message with
  | [] => True
  | c :: text =>
    let con := (usesFb s).2.fb.con
    let start := startCell s col row
    let next := fbNextCell con.cols c start.1 start.2
    let stop := advances newline con.cols (cellIndex con.cols next) text
    con.rows ≤ next.2 ∨ con.rows * con.cols ≤ stop ∨
      stop = con.cursorRow * con.cols + con.cursorCol

/-! ### Without a framebuffer -/

theorem vgaPrintChar_cursor (t : TextMode) (v : Vga) (c : UInt8) (col row : ℤ) (attr : UInt8) :
    (v.printChar t false c col row attr).2.getCursorOffset = v.getCursorOffset := by
  have hregisters : (v.printChar t false c col row attr).2.cursorHigh = v.cursorHigh ∧
      (v.printChar t false c col row attr).2.cursorLow = v.cursorLow := by
    simp only [Vga.printChar, Bool.false_eq_true, if_false]
    split_ifs <;> exact ⟨rfl, rfl⟩
  rw [Vga.getCursorOffset, hregisters.1, hregisters.2, Vga.getCursorOffset]

section Off
variable {t : TextMode} {s : Console}

theorem getCursorOffset_off (h : FbOff s) :
    (getCursorOffset s).1 = if s.available then s.vga.getCursorOffset else 0 := by
  have huse : usesFb s = (false, s) := h
  simp only [getCursorOffset, huse, Bool.false_eq_true, if_false]
  cases s.available <;> rfl

theorem printChar_off_cursor (h : FbOff s) (hauto : s.autoCursor = false) (c : UInt8) (col row : ℤ)
    (attr : UInt8) : ∃ v : Vga, v.getCursorOffset = s.vga.getCursorOffset ∧
      (printChar t s c col row attr).2 = {s with vga := v} := by
  have huse : usesFb s = (false, s) := h
  simp only [printChar, huse, Bool.false_eq_true, if_false]
  split
  · exact ⟨s.vga, rfl, by rw [getOffset_state, huse]⟩
  · rw [hauto]
    exact ⟨_, vgaPrintChar_cursor t s.vga c col row attr, rfl⟩

theorem kprintLoop_off_cursor (h : FbOff s) (hauto : s.autoCursor = false) (message : List UInt8)
    (col row : ℤ) : ∃ v : Vga, v.getCursorOffset = s.vga.getCursorOffset ∧
      kprintLoop t s message col row = {s with vga := v} := by
  induction message generalizing s col row with
  | nil => exact ⟨s.vga, rfl, rfl⟩
  | cons c message ih =>
    rw [kprintLoop]
    split
    · exact ⟨s.vga, rfl, rfl⟩
    · obtain ⟨v, hv, hprint⟩ := printChar_off_cursor (t := t) h hauto c col row whiteOnBlack
      dsimp only
      rw [hprint, locate_off (h.setVga v)]
      obtain ⟨v', hv', hloop⟩ := ih (h.setVga v) hauto _ _
      exact ⟨v', hv'.trans hv, hloop⟩

/- Both ways into the loop start it in the refreshed state. -/
theorem kprintAt_off_cursor (h : (usesFb s).1 = false) (hauto : s.autoCursor = false)
    (message : List UInt8) (col row : ℤ) :
    (getCursorOffset (kprintAt t s message col row)).1 = (getCursorOffset s).1 := by
  have hoff := usesFb_off h
  have hsame : (usesFb s).2.autoCursor = s.autoCursor := by
    unfold usesFb
    split <;> rfl
  have hstart : (getCursorOffset s).1 = (getCursorOffset (usesFb s).2).1 := by
    have huse : usesFb (usesFb s).2 = (false, (usesFb s).2) := hoff
    simp only [getCursorOffset, h, huse]
  have hloop : ∀ col row, (getCursorOffset (kprintLoop t (usesFb s).2 message col row)).1 =
      (getCursorOffset s).1 := by
    intro col row
    obtain ⟨v, hv, he⟩ := kprintLoop_off_cursor (t := t) hoff (hsame.trans hauto) message col row
    rw [he, hstart, getCursorOffset_off hoff, getCursorOffset_off (hoff.setVga v), hv]
  unfold kprintAt
  split
  · rfl
  · split
    · rw [getOffset_state]
      exact hloop col row
    · have hcursor := hoff
      rw [← getCursorOffset_state] at hcursor
      dsimp only
      rw [locate_off hcursor, getCursorOffset_state]
      exact hloop _ _

end Off

/-! ### On a framebuffer -/

/- The framebuffer console is in use, with the cursor at `pos`, and the offset of
each of its cells is an `int`. -/
structure FbAt (cols rows pos : ℕ) (s : Console) : Prop where
  auto : s.autoCursor = false
  measured : FbMeasured s.fb
  cols_eq : s.fb.con.cols = cols
  rows_eq : s.fb.con.rows = rows
  fits : 2 * (rows * cols) ≤ 2147483648
  col : s.fb.con.cursorCol = pos % cols
  row : s.fb.con.cursorRow = pos / cols
  pos_lt : pos < rows * cols

/- The two arguments of a cell, as `int`. -/
structure IntCell (col row : ℤ) : Prop where
  col_nonneg : 0 ≤ col
  col_lt : col < 2147483648
  row_nonneg : 0 ≤ row
  row_lt : row < 2147483648

/- Past the largest `int` both coordinates go on from the smallest. -/
theorem fbNextCell_range {cols : ℤ} (hc : 0 < cols) (c : UInt8) {col row : ℤ}
    (h : IntCell col row) :
    (0 ≤ (fbNextCell cols c col row).1 ∨ (fbNextCell cols c col row).1 = -2147483648) ∧
      (0 ≤ (fbNextCell cols c col row).2 ∨ (fbNextCell cols c col row).2 = -2147483648) := by
  obtain ⟨hcol, hcolt, hrow, hrowt⟩ := h
  have hwrap : ∀ x : ℤ, 0 ≤ x → x < 2147483648 →
      0 ≤ wrap32 (x + 1) ∨ wrap32 (x + 1) = -2147483648 := by
    intro x hx hlt
    unfold wrap32
    omega
  have hcol1 := hwrap col hcol hcolt
  have hrow1 := hwrap row hrow hrowt
  unfold fbNextCell
  by_cases hn : c = newline
  · simp only [if_pos hn, if_neg (not_le.mpr hc)]
    exact ⟨Or.inl le_rfl, hrow1⟩
  · simp only [if_neg hn]
    split
    · exact ⟨Or.inl le_rfl, hrow1⟩
    · exact ⟨hcol1, Or.inl hrow⟩

section At
variable {t : TextMode} {cols rows pos : ℕ} {s : Console} (h : FbAt cols rows pos s)
include h

theorem FbAt.cols_pos : 0 < cols := h.cols_eq ▸ Nat.zero_lt_of_lt h.measured.col_lt

theorem FbAt.rows_pos : 0 < rows := h.rows_eq ▸ Nat.zero_lt_of_lt h.measured.row_lt

theorem FbAt.cols_lt : cols < 2147483648 := by
  have hle : cols ≤ rows * cols := Nat.le_mul_of_pos_left cols h.rows_pos
  have hfits := h.fits
  omega

theorem FbAt.rows_lt : rows < 2147483648 := by
  have hle : rows ≤ rows * cols := Nat.le_mul_of_pos_right rows h.cols_pos
  have hfits := h.fits
  omega

theorem FbAt.cols_int : wrap32 s.fb.con.cols = cols := by
  have hlt := h.cols_lt
  rw [h.cols_eq, wrap32_of_range] <;> omega

theorem FbAt.rows_int : wrap32 s.fb.con.rows = rows := by
  have hlt := h.rows_lt
  rw [h.rows_eq, wrap32_of_range] <;> omega

theorem FbAt.uses : usesFb s = (true, s) := by
  simp only [usesFb, h.measured.ready, if_true, h.measured.use]

theorem FbAt.cursorOffset : getCursorOffset s = (((2 * pos : ℕ) : ℤ), s) := by
  have hc := h.cols_pos
  have hlt := h.cols_lt
  have hpos := h.pos_lt
  have hfits := h.fits
  have hindex : s.fb.con.cursorRow * toU32 cols + s.fb.con.cursorCol = pos := by
    rw [toU32_natCast (by omega), h.row, h.col, Nat.mul_comm, Nat.div_add_mod]
  have hint : wrap32 ((pos : ℕ) : ℤ) = pos := by rw [wrap32_of_range] <;> omega
  simp only [getCursorOffset, h.uses, if_true, h.cols_int]
  rw [if_neg (by omega), hindex, u32_of_lt (by omega), hint, wrap32_of_range (by omega) (by omega)]
  push_cast
  rw [Int.mul_comm]

theorem FbAt.offsetRow (p : ℕ) : getVgaOffsetRow t s (2 * p : ℕ) = (((p / cols : ℕ) : ℤ), s) := by
  have hc := h.cols_pos
  simp only [getVgaOffsetRow, h.uses, if_true, h.cols_int]
  rw [if_neg (by omega), half_natCast, tdiv_natCast]

theorem FbAt.offsetCol (p : ℕ) : getVgaOffsetCol t s (2 * p : ℕ) = (((p % cols : ℕ) : ℤ), s) := by
  have hc := h.cols_pos
  simp only [getVgaOffsetCol, h.uses, if_true, h.cols_int]
  rw [if_neg (by omega), half_natCast, tmod_natCast]

theorem FbAt.printScrolls (c : UInt8) {col row : ℤ} (hcell : IntCell col row) :
    printCharScrolls t s c col row = decide ((rows : ℤ) ≤ (fbNextCell cols c col row).2) := by
  have hc := h.cols_pos
  have hr := h.rows_pos
  have hin : fbPrintCell s.fb col row = (col, row) :=
    if_neg (not_or.mpr ⟨not_lt.mpr hcell.col_nonneg, not_lt.mpr hcell.row_nonneg⟩)
  have hgrid : ¬((cols : ℤ) ≤ 0 ∨ (rows : ℤ) ≤ 0) := by omega
  simp only [printCharScrolls, h.uses, if_true, fbPrintCharScrolls, h.measured.use, h.cols_int,
    h.rows_int, hin, decide_eq_false hgrid, Bool.not_false, Bool.true_and]

/- A character that does not scroll takes the cursor to the cell after it. -/
theorem FbAt.print (c : UInt8) {col row : ℤ} (hcell : IntCell col row) (attr : UInt8)
    (hstay : (fbNextCell cols c col row).2 < rows) :
    ∃ s', FbAt cols rows (cellIndex cols (fbNextCell cols c col row)) s' ∧
      printChar t s c col row attr =
        (((2 * cellIndex cols (fbNextCell cols c col row) : ℕ) : ℤ), s') := by
  have hc := h.cols_pos
  have hr := h.rows_pos
  have hcl := h.cols_lt
  have hrl := h.rows_lt
  have hfits := h.fits
  have hin : ¬(col < 0 ∨ row < 0) :=
    not_or.mpr ⟨not_lt.mpr hcell.col_nonneg, not_lt.mpr hcell.row_nonneg⟩
  have hgrid : ¬((cols : ℤ) ≤ 0 ∨ (rows : ℤ) ≤ 0) := by omega
  have hnext := fbNextCell_lt (by omega : (0 : ℤ) < cols) c col row
  obtain ⟨hcol', hrow'⟩ := fbNextCell_range (by omega : (0 : ℤ) < cols) c hcell
  obtain ⟨q, hq⟩ : ∃ q, (if c = newline then s.fb else fbDrawChar s.fb c col row) =
      {s.fb with pixels := q} := by
    split
    · exact ⟨s.fb.pixels, rfl⟩
    · exact ⟨_, fbDrawChar_rest s.fb c col row⟩
  simp only [printChar, h.uses, if_true, h.auto, Bool.false_eq_true, if_false, fbConsolePrintChar,
    h.measured.use, Bool.not_true, if_neg hin, h.cols_int, h.rows_int, if_neg hgrid, hq,
    fbPlaceCursor, if_neg (not_le.mpr hstay)]
  generalize fbNextCell cols c col row = next at hnext hcol' hstay hrow'
  obtain ⟨x, y⟩ := next
  dsimp only at hnext hcol' hstay hrow' ⊢
  have hx : (if x < 0 then 0 else toU32 x) = x.toNat := by
    unfold toU32
    split <;> omega
  have hy : (if y < 0 then 0 else toU32 y) = y.toNat := by
    unfold toU32
    split <;> omega
  have hxlt : x.toNat < cols := by omega
  have hylt : y.toNat < rows := by omega
  have hp : cellIndex cols (x, y) < rows * cols := cell_lt hylt hxlt
  -- twice the smallest `int`, or a multiple of that, wraps around to 0
  have hoffset : wrap32 (2 * (y * cols + x)) = (2 * cellIndex cols (x, y) : ℕ) := by
    obtain hy0 | rfl := hrow'
    · obtain ⟨r, rfl⟩ := Int.eq_ofNat_of_zero_le hy0
      have hp' : cellIndex cols (x, (r : ℤ)) = r * cols + x.toNat := rfl
      have hcast : ((r : ℕ) : ℤ) * cols = (r * cols : ℕ) := (Nat.cast_mul r cols).symm
      rw [hcast]
      unfold wrap32
      generalize r * cols = m at hp'
      omega
    · have hp' : cellIndex cols (x, -2147483648) = 0 * cols + x.toNat := rfl
      unfold wrap32
      omega
  rw [hx, hy, hoffset]
  refine ⟨_, ?_, rfl⟩
  refine ⟨rfl, h.measured.moved q (h.cols_eq ▸ hxlt) (h.rows_eq ▸ hylt), h.cols_eq, h.rows_eq,
    h.fits, ?_, ?_, hp⟩
  · exact (cell_mod _ hxlt).symm
  · exact (cell_div _ hxlt).symm

/- A round of the printing loop that does not scroll. -/
theorem FbAt.loop_cons {c : UInt8} (hz : c ≠ 0) (message : List UInt8) {col row : ℤ}
    (hcell : IntCell col row) {p : ℕ} (hp : cellIndex cols (fbNextCell cols c col row) = p)
    (hstay : (fbNextCell cols c col row).2 < rows) :
    ∃ s', FbAt cols rows p s' ∧
      kprintLoop t s (c :: message) col row =
        kprintLoop t s' message (p % cols : ℕ) (p / cols : ℕ) ∧
      kprintLoopScrolls t s (c :: message) col row =
        kprintLoopScrolls t s' message (p % cols : ℕ) (p / cols : ℕ) := by
  obtain ⟨s', hs', hprint⟩ := h.print (t := t) c hcell whiteOnBlack hstay
  have hscrolls := h.printScrolls (t := t) c hcell
  rw [decide_eq_false (not_le.mpr hstay)] at hscrolls
  rw [hp] at hs' hprint
  refine ⟨s', hs', ?_, ?_⟩
  · simp only [kprintLoop, if_neg hz, hprint, hs'.offsetRow, hs'.offsetCol]
  · simp only [kprintLoopScrolls, if_neg hz, hprint, hs'.offsetRow, hs'.offsetCol, hscrolls,
      Bool.false_or]

theorem FbAt.loop_scrolls {c : UInt8} (hz : c ≠ 0) (message : List UInt8) {col row : ℤ}
    (hcell : IntCell col row) (hpast : (rows : ℤ) ≤ (fbNextCell cols c col row).2) :
    kprintLoopScrolls t s (c :: message) col row = true := by
  have hscrolls := h.printScrolls (t := t) c hcell
  rw [decide_eq_true hpast] at hscrolls
  simp only [kprintLoopScrolls, if_neg hz, hscrolls, Bool.true_or]

omit h in
/- From the cell of the cursor on, the loop scrolls if the text goes past the last
cell, and otherwise leaves the cursor after the text. -/
theorem FbAt.loop (h : FbAt cols rows pos s) (message : List UInt8) :
    let stop := advances newline cols pos (cstr message)
    (rows * cols ≤ stop →
      kprintLoopScrolls t s message (pos % cols : ℕ) (pos / cols : ℕ) = true) ∧
    (stop < rows * cols →
      kprintLoopScrolls t s message (pos % cols : ℕ) (pos / cols : ℕ) = false ∧
        FbAt cols rows stop (kprintLoop t s message (pos % cols : ℕ) (pos / cols : ℕ))) := by
  induction message generalizing s pos with
  | nil => exact ⟨fun hpast => absurd h.pos_lt (not_lt.mpr hpast), fun _ => ⟨rfl, h⟩⟩
  | cons c message ih =>
    by_cases hz : c = 0
    · have hnil : cstr (c :: message) = [] := by simp [cstr, hz]
      simp only [kprintLoop, kprintLoopScrolls, if_pos hz, hnil]
      exact ⟨fun hpast => absurd h.pos_lt (not_lt.mpr hpast), fun _ => ⟨trivial, h⟩⟩
    · have hcons : cstr (c :: message) = c :: cstr message := by simp [cstr, hz]
      have hc := h.cols_pos
      have hcl := h.cols_lt
      have hrl := h.rows_lt
      have hcol : pos % cols < cols := Nat.mod_lt _ hc
      have hrow : pos / cols < rows := row_lt h.pos_lt
      have hcell : IntCell (pos % cols : ℕ) (pos / cols : ℕ) :=
        ⟨Int.natCast_nonneg _, by omega, Int.natCast_nonneg _, by omega⟩
      have hnext := fbNextCell_pos hc hcl (show pos / cols + 1 < 2147483648 by omega) c
      have hstop : advances newline cols pos (cstr (c :: message)) =
          advances newline cols (advance newline cols pos c) (cstr message) := by rw [hcons]; rfl
      rw [hstop]
      generalize hadv : advance newline cols pos c = next at hnext
      by_cases hlt : next < rows * cols
      · have hindex : cellIndex cols (fbNextCell cols c (pos % cols : ℕ) (pos / cols : ℕ)) = next := by
          rw [hnext, cellIndex, Int.toNat_natCast, Int.toNat_natCast, Nat.mul_comm, Nat.div_add_mod]
        have hstay : (fbNextCell cols c (pos % cols : ℕ) (pos / cols : ℕ)).2 < rows := by
          rw [hnext]
          exact Int.ofNat_lt.mpr (row_lt hlt)
        obtain ⟨s', hs', hloop, hscrolls⟩ := h.loop_cons (t := t) hz message hcell hindex hstay
        rw [hloop, hscrolls]
        exact ih hs'
      · rw [not_lt] at hlt
        have hpast : (rows : ℤ) ≤ (fbNextCell cols c (pos % cols : ℕ) (pos / cols : ℕ)).2 := by
          rw [hnext]
          exact Int.ofNat_le.mpr ((Nat.le_div_iff_mul_le hc).mpr hlt)
        refine ⟨fun _ => h.loop_scrolls hz message hcell hpast, fun hstay => ?_⟩
        exact absurd (hlt.trans (le_advances newline hc _ _)) (not_le.mpr hstay)

/- The whole loop, from any cell. -/
theorem FbAt.kept_iff (message : List UInt8) {col row : ℤ} (hcell : IntCell col row) :
    ((getCursorOffset (kprintLoop t s message col row)).1 = (2 * pos : ℕ) ∨
        kprintLoopScrolls t s message col row = true) ↔
      match cstr message with
      | [] => True
      | c :: text =>
        (rows : ℤ) ≤ (fbNextCell cols c col row).2 ∨
          rows * cols ≤ advances newline cols (cellIndex cols (fbNextCell cols c col row)) text ∨
          advances newline cols (cellIndex cols (fbNextCell cols c col row)) text = pos := by
  have hstays : (getCursorOffset s).1 = (2 * pos : ℕ) := congrArg Prod.fst h.cursorOffset
  cases message with
  | nil => exact iff_of_true (Or.inl hstays) trivial
  | cons c message =>
    by_cases hz : c = 0
    · have hnil : cstr (c :: message) = [] := by simp [cstr, hz]
      simp only [kprintLoop, if_pos hz, hnil]
      exact iff_of_true (Or.inl hstays) trivial
    · have hcons : cstr (c :: message) = c :: cstr message := by simp [cstr, hz]
      rw [hcons]
      dsimp only
      by_cases hpast : (rows : ℤ) ≤ (fbNextCell cols c col row).2
      · exact iff_of_true (Or.inr (h.loop_scrolls hz message hcell hpast)) (Or.inl hpast)
      · obtain ⟨s', hs', hloop, hscrolls⟩ :=
          h.loop_cons (t := t) hz message hcell rfl (not_le.mp hpast)
        rw [hloop, hscrolls]
        obtain ⟨hover, hstop⟩ := hs'.loop (t := t) message
        generalize advances newline cols _ (cstr message) = stop at hover hstop ⊢
        by_cases hlt : stop < rows * cols
        · obtain ⟨hno, hend⟩ := hstop hlt
          rw [hno, congrArg Prod.fst hend.cursorOffset, or_iff_left Bool.false_ne_true,
            or_iff_right hpast, or_iff_right (not_le.mpr hlt)]
          omega
        · rw [not_lt] at hlt
          exact iff_of_true (Or.inr (hover hlt)) (Or.inr (Or.inl hlt))

end At

/-! ### Every call -/

/- The offset of each cell is an `int`. -/
def OffsetsFit (s : Console) : Prop :=
  2 * ((usesFb s).2.fb.con.rows * (usesFb s).2.fb.con.cols) ≤ 2147483648

section Calls
variable {t : TextMode} {s : Console}

theorem usesFb_at (h : (usesFb s).1 = true) (hauto : s.autoCursor = false) (hfits : OffsetsFit s) :
    FbAt (usesFb s).2.fb.con.cols (usesFb s).2.fb.con.rows
      ((usesFb s).2.fb.con.cursorRow * (usesFb s).2.fb.con.cols + (usesFb s).2.fb.con.cursorCol)
      (usesFb s).2 := by
  obtain ⟨-, hok, hstate⟩ := usesFb_used h
  have hm : FbMeasured (usesFb s).2.fb := by
    rw [hstate]
    exact fbConsoleUse_measures hok
  have hsame : (usesFb s).2.autoCursor = s.autoCursor := by rw [hstate]
  exact ⟨hsame.trans hauto, hm, rfl, rfl, hfits, (cell_mod _ hm.col_lt).symm,
    (cell_div _ hm.col_lt).symm, cell_lt hm.row_lt hm.col_lt⟩

theorem kprintAt_kept_iff (hauto : s.autoCursor = false)
    (hfits : (usesFb s).1 = true → OffsetsFit s) (message : List UInt8) {col row : ℤ}
    (hcol : col < 2147483648) (hrow : row < 2147483648) :
    CursorKept s (kprintAt t s message col row) (kprintAtScrolls t s message col row) ↔
      ((usesFb s).1 = true → EndsAtCursor s message col row) := by
  by_cases huse : (usesFb s).1 = true
  · have hat := usesFb_at huse hauto (hfits huse)
    obtain ⟨s₀, hs₀⟩ : ∃ s₀, usesFb s = (true, s₀) := ⟨_, Prod.ext huse rfl⟩
    simp only [EndsAtCursor, startCell, hs₀] at hat ⊢
    have hskip : (!s.available && !s.fb.ready) = false := by
      rw [(usesFb_used huse).1, Bool.not_true, Bool.and_false]
    have hcursor : getCursorOffset s = getCursorOffset s₀ := by
      simp only [getCursorOffset, hs₀, hat.uses]
    unfold CursorKept kprintAt kprintAtScrolls
    simp only [hskip, Bool.false_eq_true, if_false, getOffset_state, hs₀, hcursor, hat.cursorOffset,
      hat.offsetRow, hat.offsetCol, forall_const]
    by_cases hin : 0 ≤ col ∧ 0 ≤ row
    · simp only [if_pos hin]
      exact hat.kept_iff message ⟨hin.1, hcol, hin.2, hrow⟩
    · have hcl := hat.cols_lt
      have hrl := hat.rows_lt
      have hc := hat.measured.col_lt
      have hr := hat.measured.row_lt
      simp only [if_neg hin]
      rw [← hat.col, ← hat.row]
      exact hat.kept_iff message ⟨Int.natCast_nonneg _, by omega, Int.natCast_nonneg _, by omega⟩
  · rw [Bool.not_eq_true] at huse
    refine iff_of_true (Or.inl (kprintAt_off_cursor huse hauto message col row)) fun htrue => ?_
    exact absurd (huse.symm.trans htrue) Bool.false_ne_true

theorem kprint_eq (t : TextMode) (s : Console) (message : List UInt8) :
    kprint t s message = kprintAt t s message (-1) (-1) := by
  unfold kprint
  split
  next hskip => rw [kprintAt, if_pos hskip]
  next => rfl

end Calls

/-- With auto cursor off, on either backend and from any cell: a call leaves the
cursor offset as it was, or scrolls, if and only if no framebuffer is in use or
the text ends at the cursor. -/
theorem auto_cursor_iff (t : TextMode) (s : Console) (message : List UInt8) (col row : ℤ)
    (hcol : col < 2147483648) (hrow : row < 2147483648)
    (hfits : (usesFb (setAutoCursor s false)).1 = true → OffsetsFit (setAutoCursor s false)) :
    let s := setAutoCursor s false
    (CursorKept s (kprintAt t s message col row) (kprintAtScrolls t s message col row) ↔
      ((usesFb s).1 = true → EndsAtCursor s message col row)) ∧
    (CursorKept s (kprint t s message) (kprintAtScrolls t s message (-1) (-1)) ↔
      ((usesFb s).1 = true → EndsAtCursor s message (-1) (-1))) := by
  intro s
  rw [kprint_eq]
  exact ⟨kprintAt_kept_iff rfl hfits message hcol hrow,
    kprintAt_kept_iff rfl hfits message (by decide) (by decide)⟩

/- A row of two cells. -/
def twoCells : FbGeometry :=
  ⟨⟨18, 16, 18, 32, 8, 16⟩, by decide, by decide, by decide, rfl, rfl, rfl, by decide, by decide,
    by decide⟩

/- The cursor is in the second cell, and the text is printed to the first. -/
theorem auto_cursor_iff_same :
    let s := setAutoCursor (setCursorOffset (uefiConsole twoCells 0) 2) false
    CursorKept s (kprintAt vgaText s [65] 0 0) (kprintAtScrolls vgaText s [65] 0 0) := by
  intro s
  refine (auto_cursor_iff vgaText (setCursorOffset (uefiConsole twoCells 0) 2) [65] 0 0
    (by decide) (by decide) fun _ => ?_).1.mpr fun _ => ?_
  · unfold OffsetsFit
    decide
  · exact Or.inr (Or.inr (by decide))

/- From the first cell `kprint` takes the cursor to the second. -/
theorem auto_cursor_moves :
    ¬ ∀ (s : Console) (message : List UInt8),
      CursorKept (setAutoCursor s false) (kprint vgaText (setAutoCursor s false) message)
        (kprintAtScrolls vgaText (setAutoCursor s false) message (-1) (-1)) := by
  intro h
  have hkept := h (uefiConsole twoCells 0) [65]
  exact absurd hkept (by unfold CursorKept; decide)

end CasseOS.Screen
