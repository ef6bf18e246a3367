import CasseOS.Lib.CInt
import CasseOS.Lib.Loop
import CasseOS.Screen.Font
import CasseOS.Screen.Vga

/-! # Framebuffer backend (`framebuffer_console.c`, `screen.c:390-609`)

Pixels are 32-bit words addressed by their index from `fb_console.base`. The
source computes the index of pixel `(x, y)` as `y * stride`, a `uint32_t`
product, plus `x` by pointer arithmetic: `pixelIndex` keeps that wrap-around. -/

namespace CasseOS.Screen
open CInt Loop

abbrev Pixels := ℤ → UInt32

/- `framebuffer_console_t` without `base`, from which the pixels are counted, and
without `size` and the font pointer, which nothing reads. -/
structure FramebufferConsole where
  width : ℕ
  height : ℕ
  stride : ℕ
  bpp : ℕ
  glyphWidth : ℕ
  glyphHeight : ℕ

/-- `fb_console_state_t` (`screen.c:20-30`). -/
structure FbConsoleState where
  active : Bool
  cellWidth : ℕ
  cellHeight : ℕ
  cols : ℕ
  rows : ℕ
  cursorCol : ℕ
  cursorRow : ℕ
  fgColor : UInt32
  bgColor : UInt32

structure Fb where
  /-- `fb_console_ready`. -/
  ready : Bool
  dev : FramebufferConsole
  con : FbConsoleState
  pixels : Pixels

/-- The static initializer `fb_console_state` (`screen.c:32-42`). -/
def fbConsoleStateInit : FbConsoleState := ⟨false, 0, 0, 0, 0, 0, 0, 0x00FFFFFF, 0x00000000⟩

def FramebufferConsole.pixelIndex (d : FramebufferConsole) (x y : ℕ) : ℤ :=
  (u32 (y * d.stride) + x : ℕ)

/- The nested loops of `fb_console_fill_rect`, `framebuffer_console_draw_glyph`
and the blanking part of `fb_console_scroll`: `h` lines from line `y`, `w`
pixels each from column `x`. -/
def blit (d : FramebufferConsole) (x y w h : ℕ) (color : ℕ → ℕ → UInt32) (p : Pixels) : Pixels :=
  loop h (fun row p => loop w (fun col p =>
    Function.update p (d.pixelIndex x (u32 (y + row)) + col) (color col row)) p) p

/-- `fb_console_use` (`screen.c:424-472`). -/
def fbConsoleUse (f : Fb) : Bool × Fb :=
  let off := (false, {f with con := {f.con with active := false}})
  if !f.ready then off
  else if f.dev.glyphWidth = 0 ∨ f.dev.glyphHeight = 0 then off
  else
    let cellWidth := u32 (f.dev.glyphWidth + 1)
    let cellHeight := f.dev.glyphHeight
    let cols := f.dev.width / cellWidth
    let rows := f.dev.height / cellHeight
    if cols = 0 ∨ rows = 0 then off
    else
      let con :=
        if !f.con.active then
          {f.con with cursorCol := 0, cursorRow := 0, fgColor := 0x00FFFFFF, bgColor := 0x00000000}
        else
          {f.con with
            cursorCol := if cols ≤ f.con.cursorCol then cols - 1 else f.con.cursorCol
            cursorRow := if rows ≤ f.con.cursorRow then rows - 1 else f.con.cursorRow}
      (true, {f with con := {con with cellWidth, cellHeight, cols, rows, active := true}})

theorem cell_size : u32 (8 + 1) = 9 := rfl
theorem glyph_size : ¬((8 : ℕ) = 0 ∨ (16 : ℕ) = 0) := by decide

/- What a use leaves behind: the grid is measured and the cursor is on it. -/
structure FbMeasured (f : Fb) : Prop where
  ready : f.ready = true
  glyph : ¬(f.dev.glyphWidth = 0 ∨ f.dev.glyphHeight = 0)
  active : f.con.active = true
  cellWidth : f.con.cellWidth = u32 (f.dev.glyphWidth + 1)
  cellHeight : f.con.cellHeight = f.dev.glyphHeight
  cols : f.con.cols = f.dev.width / u32 (f.dev.glyphWidth + 1)
  rows : f.con.rows = f.dev.height / f.dev.glyphHeight
  col_lt : f.con.cursorCol < f.con.cols
  row_lt : f.con.cursorRow < f.con.rows

theorem last_lt {n : ℕ} (hn : 0 < n) (k : ℕ) : (if n ≤ k then n - 1 else k) < n := by
  split <;> omega

section Use
variable {f : Fb}

/- The cursor starts over, or is brought onto the grid. -/
theorem fbConsoleUse_measures (hu : (fbConsoleUse f).1 = true) : FbMeasured (fbConsoleUse f).2 := by
  unfold fbConsoleUse at hu ⊢
  dsimp only at hu ⊢
  split at hu
  · cases hu
  next hr =>
    split at hu
    · cases hu
    next hg =>
      split at hu
      · cases hu
      next hgrid =>
        rw [if_neg hr, if_neg hg, if_neg hgrid]
        rw [not_or] at hgrid
        have hcols := Nat.pos_of_ne_zero hgrid.1
        have hrows := Nat.pos_of_ne_zero hgrid.2
        refine ⟨by simpa using hr, hg, rfl, rfl, rfl, rfl, rfl, ?_, ?_⟩
        · cases f.con.active with
          | false => exact hcols
          | true => exact last_lt hcols _
        · cases f.con.active with
          | false => exact hrows
          | true => exact last_lt hrows _

/- A second use finds nothing to do. -/
theorem FbMeasured.use (h : FbMeasured f) : fbConsoleUse f = (true, f) := by
  have hgrid : ¬(f.dev.width / u32 (f.dev.glyphWidth + 1) = 0 ∨
      f.dev.height / f.dev.glyphHeight = 0) := by
    rw [← h.cols, ← h.rows]
    exact not_or.mpr ⟨Nat.ne_of_gt (Nat.zero_lt_of_lt h.col_lt),
      Nat.ne_of_gt (Nat.zero_lt_of_lt h.row_lt)⟩
  have hcol := h.col_lt
  have hrow := h.row_lt
  rw [h.cols] at hcol
  rw [h.rows] at hrow
  simp only [fbConsoleUse, h.ready, h.active, if_neg h.glyph, if_neg hgrid,
    if_neg (Nat.not_le.mpr hcol), if_neg (Nat.not_le.mpr hrow), Bool.not_true, Bool.false_eq_true,
    if_false]
  obtain ⟨ready, dev, ⟨active, cw, ch, cols, rows, cc, cr, fg, bg⟩, pixels⟩ := f
  obtain ⟨hready, -, hactive, hcw, hch, hcols, hrows, -, -⟩ := h
  dsimp only at hready hactive hcw hch hcols hrows ⊢
  rw [hready, hactive, hcw, hch, hcols, hrows]

/- Drawing and moving the cursor on the grid. -/
theorem FbMeasured.moved (h : FbMeasured f) (p : Pixels) {col row : ℕ} (hc : col < f.con.cols)
    (hr : row < f.con.rows) :
    FbMeasured {f with pixels := p, con := {f.con with cursorCol := col, cursorRow := row}} :=
  ⟨h.ready, h.glyph, h.active, h.cellWidth, h.cellHeight, h.cols, h.rows, hc, hr⟩

/- A use only refreshes `fb_console_state`. -/
theorem fbConsoleUse_rest (f : Fb) : (fbConsoleUse f).2 = {f with con := (fbConsoleUse f).2.con} := by
  unfold fbConsoleUse
  dsimp only
  split_ifs <;> rfl

end Use

/-- `fb_console_fill_rect` (`screen.c:474-498`). -/
def fbConsoleFillRect (f : Fb) (x y width height : ℕ) (color : UInt32) : Fb :=
  if !f.ready || width = 0 || height = 0 then f
  else if f.dev.width ≤ x ∨ f.dev.height ≤ y then f
  else
    let width := if f.dev.width < u32 (x + width) then f.dev.width - x else width
    let height := if f.dev.height < u32 (y + height) then f.dev.height - y else height
    {f with pixels := blit f.dev x y width height (fun _ _ => color) f.pixels}

/-- `framebuffer_console_draw_glyph` (`framebuffer_console.c:48-83`). -/
def framebufferConsoleDrawGlyph (f : Fb) (c : UInt8) (x y : ℕ) (fg bg : UInt32) : Bool × Fb :=
  if !f.ready || f.dev.bpp ≠ 32 then (false, f)
  else if f.dev.glyphWidth = 0 ∨ f.dev.glyphHeight = 0 then (false, f)
  else if f.dev.width ≤ x ∨ f.dev.height ≤ y then (false, f)
  else if f.dev.width < u32 (x + f.dev.glyphWidth) ∨ f.dev.height < u32 (y + f.dev.glyphHeight) then
    (false, f)
  else
    let glyph := framebufferFontGetGlyph c.toNat
    let color := fun col row =>
      if (glyphRow glyph row).testBit (7 - col) ∧ col < 8 then fg else bg
    (true, {f with
      pixels := blit f.dev x y f.dev.glyphWidth f.dev.glyphHeight color f.pixels})

/-- `fb_console_clear` (`screen.c:500-509`). -/
def fbConsoleClear (f : Fb) : Fb :=
  let (ok, f) := fbConsoleUse f
  if !ok then f
  else
    let width := u32 (f.con.cols * f.con.cellWidth)
    let height := u32 (f.con.rows * f.con.cellHeight)
    let f := fbConsoleFillRect f 0 0 width height f.con.bgColor
    {f with con := {f.con with cursorCol := 0, cursorRow := 0}}

/-- `fb_console_scroll` (`screen.c:511-551`). -/
def fbConsoleScroll (f : Fb) : Fb :=
  let (ok, f) := fbConsoleUse f
  if !ok then f
  else
    let cols := f.con.cols
    let rows := f.con.rows
    if cols = 0 ∨ rows = 0 then f
    else
      let activeWidth := u32 (cols * f.con.cellWidth)
      let step := f.con.cellHeight
      if activeWidth = 0 ∨ step = 0 then f
      else
        let copyHeight := u32 ((rows - 1) * step)
        let moved := loop copyHeight (fun y p => loop activeWidth (fun x p =>
          Function.update p (f.dev.pixelIndex 0 y + x)
            (p (f.dev.pixelIndex 0 (u32 (y + step)) + x))) p) f.pixels
        let lines := min (u32 (copyHeight + step)) f.dev.height - copyHeight
        let blanked := blit f.dev 0 copyHeight activeWidth lines (fun _ _ => f.con.bgColor) moved
        {f with pixels := blanked, con := {f.con with cursorRow := rows - 1, cursorCol := 0}}

/-! ### `fb_console_print_char` (`screen.c:553-609`), in the three parts of its body -/

/- The `else` branch: the glyph, then the background columns right of it. -/
def fbDrawChar (f : Fb) (c : UInt8) (col row : ℤ) : Fb :=
  let px := u32 (toU32 col * f.con.cellWidth)
  let py := u32 (toU32 row * f.con.cellHeight)
  let glyph := if c = 0 then space else c
  let f := (framebufferConsoleDrawGlyph f glyph px py f.con.fgColor f.con.bgColor).2
  if f.dev.glyphWidth < f.con.cellWidth then
    fbConsoleFillRect f (u32 (px + f.dev.glyphWidth)) py
      (f.con.cellWidth - f.dev.glyphWidth) f.con.cellHeight f.con.bgColor
  else f

/- Column and row after the character, wrapped at the last column. -/
def fbNextCell (cols : ℤ) (c : UInt8) (col row : ℤ) : ℤ × ℤ :=
  let (col, row) := if c = newline then (0, wrap32 (row + 1)) else (wrap32 (col + 1), row)
  if cols ≤ col then (0, wrap32 (row + 1)) else (col, row)

/- The end of the function: scroll, store the cursor, return the offset. -/
def fbPlaceCursor (f : Fb) (cols rows col row : ℤ) : ℤ × Fb :=
  let (row, f) := if rows ≤ row then (rows - 1, fbConsoleScroll f) else (row, f)
  (wrap32 (2 * (row * cols + col)),
    {f with con := {f.con with
      cursorCol := if col < 0 then 0 else toU32 col
      cursorRow := if row < 0 then 0 else toU32 row}})

def fbConsolePrintChar (f : Fb) (c : UInt8) (col row : ℤ) : ℤ × Fb :=
  let (ok, f) := fbConsoleUse f
  if !ok then (0, f)
  else
    let (col, row) :=
      if col < 0 ∨ row < 0 then (wrap32 f.con.cursorCol, wrap32 f.con.cursorRow) else (col, row)
    let cols := wrap32 f.con.cols
    let rows := wrap32 f.con.rows
    if cols ≤ 0 ∨ rows ≤ 0 then (0, f)
    else
      let drawn := if c = newline then f else fbDrawChar f c col row
      let (col, row) := fbNextCell cols c col row
      fbPlaceCursor drawn cols rows col row

end CasseOS.Screen
