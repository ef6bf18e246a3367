import CasseOS.Lib.Run
import CasseOS.Screen.Accesses

/-! # The framebuffer console across changes of resolution

`framebuffer_console_init` may give the console another framebuffer at any
time. `FbSettled` is what `fb_console_use` makes of whatever cursor it finds;
every function of the console keeps it and stays on the framebuffer. -/

namespace CasseOS.Screen
open CInt Loop

/-! ### `framebuffer_console_init` -/

/- `kernel_bootinfo_t` (`bootinfo.h:8-18`), what the console reads of it. -/
structure KernelBootinfo where
  flags : UInt64
  fbBase : UInt64
  fbWidth : UInt32
  fbHeight : UInt32
  fbStride : UInt32
  fbBpp : UInt32

def kernelBootinfoFlagFramebuffer : UInt64 := 0x2

def framebufferFontWidth : ℕ := 8
def framebufferFontHeight : ℕ := 16

/-- `framebuffer_console_init` (`framebuffer_console.c:9-38`); `pixels` is what
the memory at `fb_base` holds, `none` a null pointer. -/
def framebufferConsoleInit (s : Console) (bootinfo : Option KernelBootinfo) (pixels : Pixels) :
    Bool × Console :=
  let rejected := (false, {s with fb := {s.fb with ready := false}})
  match bootinfo with
  | none => rejected
  | some b =>
    if b.flags &&& kernelBootinfoFlagFramebuffer = 0 then rejected
    else if b.fbBase = 0 ∨ b.fbWidth = 0 ∨ b.fbHeight = 0 ∨ b.fbStride = 0 then rejected
    else
      let dev := ⟨b.fbWidth.toNat, b.fbHeight.toNat, b.fbStride.toNat, b.fbBpp.toNat,
        framebufferFontWidth, framebufferFontHeight⟩
      (true, {s with available := false, fb := {s.fb with ready := true, dev, pixels}})

/- A framebuffer the source's 32-bit arithmetic can address. -/
structure FbDims (d : FramebufferConsole) : Prop where
  stride_ge : d.width ≤ d.stride
  area_lt : d.height * d.stride < 4294967296
  width_lt : d.width < 2147483648
  height_lt : d.height < 2147483648
  glyphWidth : d.glyphWidth = 8
  glyphHeight : d.glyphHeight = 16

/- The index is that of a pixel of the framebuffer. -/
def InFrame (d : FramebufferConsole) (index : ℤ) : Prop :=
  ∃ x < d.width, ∃ y < d.height, index = (y * d.stride + x : ℕ)

def AllInFrame (d : FramebufferConsole) (l : List ℤ) : Prop := ∀ index ∈ l, InFrame d index

/-! ### Drawing -/

section Drawing
variable {d : FramebufferConsole} {l l' : List ℤ}

theorem allInFrame_nil : AllInFrame d [] := List.forall_mem_nil _

theorem AllInFrame.append (h : AllInFrame d l) (h' : AllInFrame d l') : AllInFrame d (l ++ l') :=
  List.forall_mem_append.mpr ⟨h, h'⟩

theorem pixelIndex_inFrame (hd : FbDims d) {x y k : ℕ} (hx : x + k < d.width) (hy : y < d.height) :
    InFrame d (d.pixelIndex x y + k) := by
  have hline : y * d.stride ≤ d.height * d.stride := Nat.mul_le_mul_right _ hy.le
  have harea := hd.area_lt
  refine ⟨x + k, hx, y, hy, ?_⟩
  unfold FramebufferConsole.pixelIndex
  rw [u32_of_lt (by omega)]
  push_cast
  ring

theorem blit_inFrame (hd : FbDims d) {x y w h : ℕ} (hw : x + w ≤ d.width) (hh : y + h ≤ d.height) :
    AllInFrame d (blitAccesses d x y w h) := by
  have hheight := hd.height_lt
  intro index hi
  obtain ⟨row, hrow, hi⟩ := List.mem_flatMap.mp hi
  obtain ⟨col, hcol, rfl⟩ := List.mem_map.mp hi
  rw [List.mem_range] at hrow hcol
  rw [u32_of_lt (by omega)]
  exact pixelIndex_inFrame hd (by omega) (by omega)

variable {f : Fb}

/- A rectangle is cut off at the edges, wherever it is. -/
theorem fillRect_inFrame (hd : FbDims f.dev) (x y : ℕ) {w h : ℕ} (hw : w < 2147483648)
    (hh : h < 2147483648) : AllInFrame f.dev (fillRectAccesses f x y w h) := by
  have hwidth := hd.width_lt
  have hheight := hd.height_lt
  unfold fillRectAccesses
  split
  · exact allInFrame_nil
  · split
    · exact allInFrame_nil
    next hin =>
      rw [not_or, not_le, not_le] at hin
      rw [u32_of_lt (by omega), u32_of_lt (by omega)]
      refine blit_inFrame hd ?_ ?_
      · split <;> omega
      · split <;> omega

/- A glyph that does not fit is not drawn. -/
theorem drawGlyph_inFrame (hd : FbDims f.dev) (x y : ℕ) :
    AllInFrame f.dev (drawGlyphAccesses f x y) := by
  have hwidth := hd.width_lt
  have hheight := hd.height_lt
  have hgw := hd.glyphWidth
  have hgh := hd.glyphHeight
  unfold drawGlyphAccesses
  split
  · exact allInFrame_nil
  · split
    · exact allInFrame_nil
    · split
      · exact allInFrame_nil
      next hin =>
        rw [not_or, not_le, not_le] at hin
        rw [u32_of_lt (by omega), u32_of_lt (by omega)]
        split
        · exact allInFrame_nil
        next hfits =>
          rw [not_or, not_lt, not_lt] at hfits
          exact blit_inFrame hd hfits.1 hfits.2

/- Filling a rectangle changes pixels only. -/
theorem fillRect_rest (x y w h : ℕ) (color : UInt32) :
    fbConsoleFillRect f x y w h color =
      {f with pixels := (fbConsoleFillRect f x y w h color).pixels} := by
  unfold fbConsoleFillRect
  split_ifs <;> rfl

end Drawing

/-! ### The console in use -/

/- The grid is measured and the cursor is on it. -/
structure FbSettled (d : FramebufferConsole) (f : Fb) : Prop where
  dims : FbDims d
  ready : f.ready = true
  dev : f.dev = d
  active : f.con.active = true
  cellWidth : f.con.cellWidth = 9
  cellHeight : f.con.cellHeight = 16
  cols : f.con.cols = d.width / 9
  rows : f.con.rows = d.height / 16
  cols_pos : 1 ≤ d.width / 9
  rows_pos : 1 ≤ d.height / 16
  col_lt : f.con.cursorCol < d.width / 9
  row_lt : f.con.cursorRow < d.height / 16

section Settled
variable {d : FramebufferConsole} {f : Fb}

/- Whatever cursor is left from another framebuffer, the first use settles it. -/
theorem fbConsoleUse_settles (hd : FbDims f.dev) (hu : (fbConsoleUse f).1 = true) :
    FbSettled f.dev (fbConsoleUse f).2 := by
  have h := fbConsoleUse_measures hu
  have hdev : (fbConsoleUse f).2.dev = f.dev :=
    (congrArg Fb.dev (fbConsoleUse_rest f)).trans rfl
  obtain ⟨hready, -, hactive, hcw, hch, hcols, hrows, hcol, hrow⟩ := h
  rw [hdev, hd.glyphWidth] at hcw hcols
  rw [hdev, hd.glyphHeight] at hch hrows
  have hcols' : (fbConsoleUse f).2.con.cols = f.dev.width / 9 := hcols
  rw [hcols'] at hcol
  rw [hrows] at hrow
  exact ⟨hd, hready, hdev, hactive, hcw, hch, hcols', hrows, Nat.zero_lt_of_lt hcol,
    Nat.zero_lt_of_lt hrow, hcol, hrow⟩

theorem FbSettled.measured (h : FbSettled d f) : FbMeasured f := by
  have hcol := h.col_lt
  have hrow := h.row_lt
  refine ⟨h.ready, ?_, h.active, ?_, ?_, ?_, ?_, ?_, ?_⟩
  · rw [h.dev, h.dims.glyphWidth, h.dims.glyphHeight]
    exact glyph_size
  · rw [h.dev, h.dims.glyphWidth, h.cellWidth, cell_size]
  · rw [h.dev, h.dims.glyphHeight, h.cellHeight]
  · rw [h.dev, h.dims.glyphWidth, h.cols, cell_size]
  · rw [h.dev, h.dims.glyphHeight, h.rows]
  · rwa [h.cols]
  · rwa [h.rows]

theorem fbConsoleUse_settled (h : FbSettled d f) : fbConsoleUse f = (true, f) := h.measured.use

theorem FbSettled.setPixels (h : FbSettled d f) (p : Pixels) : FbSettled d {f with pixels := p} :=
  ⟨h.dims, h.ready, h.dev, h.active, h.cellWidth, h.cellHeight, h.cols, h.rows, h.cols_pos, h.rows_pos,
    h.col_lt, h.row_lt⟩

theorem FbSettled.setCursor (h : FbSettled d f) {col row : ℕ} (hc : col < d.width / 9)
    (hr : row < d.height / 16) :
    FbSettled d {f with con := {f.con with cursorCol := col, cursorRow := row}} :=
  ⟨h.dims, h.ready, h.dev, h.active, h.cellWidth, h.cellHeight, h.cols, h.rows, h.cols_pos, h.rows_pos,
    hc, hr⟩

/- The counts of the grid fit an `int`. -/
theorem FbSettled.cols_int (h : FbSettled d f) : wrap32 f.con.cols = (d.width / 9 : ℕ) := by
  have hw := h.dims.width_lt
  rw [h.cols, wrap32_of_range (by omega) (by omega)]

theorem FbSettled.rows_int (h : FbSettled d f) : wrap32 f.con.rows = (d.height / 16 : ℕ) := by
  have hw := h.dims.height_lt
  rw [h.rows, wrap32_of_range (by omega) (by omega)]

/- The character area is no wider and no higher than the framebuffer. -/
theorem FbSettled.area (h : FbSettled d f) :
    f.con.cols * f.con.cellWidth ≤ d.width ∧ f.con.rows * f.con.cellHeight ≤ d.height := by
  rw [h.cols, h.rows, h.cellWidth, h.cellHeight]
  omega

theorem clear_inFrame (h : FbSettled d f) : AllInFrame d (fbClearAccesses f) := by
  obtain ⟨hcols, hrows⟩ := h.area
  have hwidth := h.dims.width_lt
  have hheight := h.dims.height_lt
  have hdims := h.dims
  simp only [fbClearAccesses, fbConsoleUse_settled h, if_true]
  rw [← h.dev] at hdims ⊢
  refine fillRect_inFrame hdims 0 0 ?_ ?_
  · rw [u32_of_lt (by omega)]
    omega
  · rw [u32_of_lt (by omega)]
    omega

theorem clear_settled (h : FbSettled d f) : FbSettled d (fbConsoleClear f) := by
  simp only [fbConsoleClear, fbConsoleUse_settled h, Bool.not_true, Bool.false_eq_true, if_false]
  rw [fillRect_rest]
  exact (h.setPixels _).setCursor h.cols_pos h.rows_pos

theorem move_inFrame (hd : FbDims d) {lines width step : ℕ} (hw : width ≤ d.width)
    (hh : lines + step ≤ d.height) : AllInFrame d (moveAccesses d lines width step) := by
  have hheight := hd.height_lt
  intro index hi
  obtain ⟨y, hy, hi⟩ := List.mem_flatMap.mp hi
  obtain ⟨x, hx, hi⟩ := List.mem_flatMap.mp hi
  rw [List.mem_range] at hy hx
  rw [u32_of_lt (by omega)] at hi
  simp only [List.mem_cons, List.not_mem_nil, or_false] at hi
  obtain rfl | rfl := hi
  · exact pixelIndex_inFrame hd (by omega) (by omega)
  · exact pixelIndex_inFrame hd (by omega) (by omega)

theorem scroll_inFrame (h : FbSettled d f) : AllInFrame d (fbScrollAccesses f) := by
  have hwidth := h.dims.width_lt
  have hheight := h.dims.height_lt
  have hrows := h.rows_pos
  unfold fbScrollAccesses
  rw [fbConsoleUse_settled h]
  dsimp only
  rw [h.dev, h.cols, h.rows, h.cellWidth, h.cellHeight, u32_of_lt (by omega : d.width / 9 * 9 < 4294967296),
    u32_of_lt (by omega : (d.height / 16 - 1) * 16 < 4294967296), u32_of_lt (by omega)]
  split
  · exact allInFrame_nil
  · exact (move_inFrame h.dims (by omega) (by omega)).append (blit_inFrame h.dims (by omega) (by omega))

theorem scroll_settled (h : FbSettled d f) : FbSettled d (fbConsoleScroll f) := by
  have hrow : f.con.rows - 1 < d.height / 16 := by
    have hrows := h.rows_pos
    rw [h.rows]
    omega
  simp only [fbConsoleScroll, fbConsoleUse_settled h, Bool.not_true, Bool.false_eq_true, if_false]
  split
  · exact h
  · split
    · exact h
    · exact (h.setCursor h.cols_pos hrow).setPixels _

theorem drawChar_inFrame (h : FbSettled d f) (col row : ℤ) : AllInFrame d (drawCharAccesses f col row) := by
  have hdims := h.dims
  rw [← h.dev] at hdims ⊢
  refine (drawGlyph_inFrame hdims _ _).append ?_
  rw [hdims.glyphWidth, h.cellWidth, h.cellHeight]
  split
  · exact fillRect_inFrame hdims _ _ (by decide) (by decide)
  · exact allInFrame_nil

/- Only the pixels change. -/
theorem fbDrawChar_rest (f : Fb) (c : UInt8) (col row : ℤ) :
    fbDrawChar f c col row = {f with pixels := (fbDrawChar f c col row).pixels} := by
  unfold fbDrawChar
  dsimp only
  rw [drawGlyph_rest]
  generalize (framebufferConsoleDrawGlyph f _ _ _ _ _).2.pixels = drawn
  dsimp only
  split
  · rw [fillRect_rest]
  · rfl

theorem drawChar_settled (h : FbSettled d f) (c : UInt8) (col row : ℤ) :
    FbSettled d (fbDrawChar f c col row) := by
  rw [fbDrawChar_rest]
  exact h.setPixels _

theorem fbNextCell_lt {cols : ℤ} (hcols : 0 < cols) (c : UInt8) (col row : ℤ) :
    (fbNextCell cols c col row).1 < cols := by
  unfold fbNextCell
  generalize (if c = newline then ((0 : ℤ), wrap32 (row + 1)) else (wrap32 (col + 1), row)) = cell
  dsimp only
  split
  · exact hcols
  next hlt => exact not_le.mp hlt

/- Wherever the character went, the cursor is put on the grid. -/
theorem placeCursor_settled (h : FbSettled d f) {col : ℤ} (hcol : col < (d.width / 9 : ℕ)) (row : ℤ) :
    FbSettled d (fbPlaceCursor f (d.width / 9 : ℕ) (d.height / 16 : ℕ) col row).2 := by
  have hwidth := h.dims.width_lt
  have hheight := h.dims.height_lt
  have hc : (if col < 0 then 0 else toU32 col) < d.width / 9 := by
    have hpos := h.cols_pos
    unfold toU32
    split <;> omega
  unfold fbPlaceCursor
  by_cases hrow : ((d.height / 16 : ℕ) : ℤ) ≤ row
  · simp only [if_pos hrow]
    refine (scroll_settled h).setCursor hc ?_
    have hpos := h.rows_pos
    unfold toU32
    split <;> omega
  · simp only [if_neg hrow]
    refine h.setCursor hc ?_
    have hpos := h.rows_pos
    unfold toU32
    split <;> omega

theorem fbPrintChar_settled (h : FbSettled d f) (c : UInt8) (col row : ℤ) :
    FbSettled d (fbConsolePrintChar f c col row).2 := by
  have hpos : (0 : ℤ) < (d.width / 9 : ℕ) := Int.natCast_pos.mpr h.cols_pos
  simp only [fbConsolePrintChar, fbConsoleUse_settled h, Bool.not_true, Bool.false_eq_true, if_false,
    h.cols_int, h.rows_int]
  rw [← fbPrintCell]
  split
  · exact h
  · refine placeCursor_settled ?_ (fbNextCell_lt hpos c _ _) _
    split
    · exact h
    · exact drawChar_settled h c _ _

theorem fbPrintChar_inFrame (h : FbSettled d f) (c : UInt8) (col row : ℤ) :
    AllInFrame d (fbPrintCharAccesses f c col row) := by
  simp only [fbPrintCharAccesses, fbConsoleUse_settled h, Bool.not_true, Bool.false_or]
  split
  · exact allInFrame_nil
  · by_cases hc : c = newline
    · simp only [if_pos hc]
      refine allInFrame_nil.append ?_
      split
      · exact scroll_inFrame h
      · exact allInFrame_nil
    · simp only [if_neg hc]
      refine (drawChar_inFrame h _ _).append ?_
      split
      · exact scroll_inFrame (drawChar_settled h c _ _)
      · exact allInFrame_nil

end Settled
/-! ### The console API -/

/- The pixels among the accesses are pixels of the framebuffer. -/
def PixelsInFrame (d : FramebufferConsole) (l : List Access) : Prop :=
  ∀ index, Access.pixel index ∈ l → InFrame d index

section Api
variable {t : TextMode} {d : FramebufferConsole} {s : Console} {l l' : List Access}

theorem pixelsInFrame_nil : PixelsInFrame d [] := fun _ h => absurd h List.not_mem_nil

theorem PixelsInFrame.append (h : PixelsInFrame d l) (h' : PixelsInFrame d l') :
    PixelsInFrame d (l ++ l') := by
  intro index hi
  obtain hi | hi := List.mem_append.mp hi
  · exact h index hi
  · exact h' index hi

theorem pixelsInFrame_pixels {m : List ℤ} (h : AllInFrame d m) : PixelsInFrame d (m.map .pixel) := by
  intro index hi
  obtain ⟨i, hmem, he⟩ := List.mem_map.mp hi
  cases he
  exact h index hmem

theorem pixelsInFrame_video (m : List ℤ) : PixelsInFrame d (m.map .video) := by
  intro index hi
  obtain ⟨i, -, he⟩ := List.mem_map.mp hi
  cases he

theorem usesFb_settled (h : FbSettled d s.fb) : usesFb s = (true, s) := by
  simp only [usesFb, h.ready, if_true, fbConsoleUse_settled h]

theorem locate_settled (h : FbSettled d s.fb) (offset : ℤ) :
    (getVgaOffsetCol t (getVgaOffsetRow t s offset).2 offset).2 = s := by
  rw [getVgaOffsetCol_state, getVgaOffsetRow_state, usesFb_settled h]
  dsimp only
  rw [usesFb_settled h]

theorem usesFb_used (h : (usesFb s).1 = true) :
    s.fb.ready = true ∧ (fbConsoleUse s.fb).1 = true ∧
      (usesFb s).2 = {s with fb := (fbConsoleUse s.fb).2} := by
  unfold usesFb at h ⊢
  split at h
  next hr =>
    rw [if_pos hr]
    exact ⟨hr, h, rfl⟩
  next => cases h

/- The call uses the framebuffer, on device `d`. -/
structure FbInUse (d : FramebufferConsole) (s : Console) : Prop where
  uses : (usesFb s).1 = true
  settled : FbSettled d (usesFb s).2.fb

theorem FbSettled.inUse (h : FbSettled d s.fb) : FbInUse d s := by
  refine ⟨?_, ?_⟩
  · rw [usesFb_settled h]
  · rw [usesFb_settled h]
    exact h

/- The comparisons of `set_cursor_offset` for one coordinate. -/
theorem clamp_lt {n : ℕ} (hn : 1 ≤ n) (hlt : n < 2147483648) (x : ℤ) :
    toU32 (if (n : ℤ) ≤ (if x < 0 then 0 else x) then n - 1 else if x < 0 then 0 else x) < n := by
  have hnn : 0 ≤ (if x < 0 then 0 else x) := by split <;> omega
  generalize (if x < 0 then 0 else x) = y at hnn
  unfold toU32
  split <;> omega

/- Any offset is brought onto the grid. -/
theorem setCursorOffset_settled (h : FbInUse d s) (offset : ℤ) :
    FbSettled d (setCursorOffset s offset).fb := by
  obtain ⟨huse, hset⟩ := h
  have hcols := hset.cols_int
  have hrows := hset.rows_int
  have hcp := hset.cols_pos
  have hrp := hset.rows_pos
  have hwidth := hset.dims.width_lt
  have hheight := hset.dims.height_lt
  simp only [setCursorOffset, huse, if_true, hcols, hrows]
  split
  · exact hset
  · exact hset.setCursor (clamp_lt hcp (by omega) _) (clamp_lt hrp (by omega) _)

theorem printChar_settled (h : FbSettled d s.fb) (c : UInt8) (col row : ℤ) (attr : UInt8) :
    FbSettled d (printChar t s c col row attr).2.fb := by
  have hprint := fbPrintChar_settled h c col row
  simp only [printChar, usesFb_settled h, if_true]
  split
  · exact setCursorOffset_settled (s := {s with fb := (fbConsolePrintChar s.fb c col row).2})
      (FbSettled.inUse hprint) _
  · exact hprint

theorem printChar_inFrame (h : FbSettled d s.fb) (c : UInt8) (col row : ℤ) :
    PixelsInFrame d (printCharAccesses t s c col row) := by
  simp only [printCharAccesses, usesFb_settled h, if_true]
  exact pixelsInFrame_pixels (fbPrintChar_inFrame h c col row)

theorem kprintLoop_settled (h : FbSettled d s.fb) (message : List UInt8) (col row : ℤ) :
    FbSettled d (kprintLoop t s message col row).fb ∧
      PixelsInFrame d (kprintLoopAccesses t s message col row) := by
  induction message generalizing s col row with
  | nil => exact ⟨h, pixelsInFrame_nil⟩
  | cons c message ih =>
    rw [kprintLoop, kprintLoopAccesses]
    split
    · exact ⟨h, pixelsInFrame_nil⟩
    · have hprint := printChar_settled (t := t) h c col row whiteOnBlack
      dsimp only
      rw [locate_settled hprint]
      exact ⟨(ih hprint _ _).1, (printChar_inFrame h c col row).append (ih hprint _ _).2⟩

theorem FbInUse.ready (h : FbInUse d s) : s.fb.ready = true := (usesFb_used h.uses).1

theorem FbInUse.not_skipped (h : FbInUse d s) : (!s.available && !s.fb.ready) = false := by
  rw [h.ready, Bool.not_true, Bool.and_false]

theorem kprintAt_settled (h : FbInUse d s) (message : List UInt8) (col row : ℤ) :
    FbSettled d (kprintAt t s message col row).fb ∧
      PixelsInFrame d (kprintAtAccesses t s message col row) := by
  simp only [kprintAt, kprintAtAccesses, h.not_skipped, Bool.false_eq_true, if_false]
  split
  · rw [getOffset_state]
    exact kprintLoop_settled h.settled message col row
  · have hset := h.settled
    rw [← getCursorOffset_state] at hset
    rw [locate_settled hset]
    exact kprintLoop_settled hset message _ _

theorem backspace_settled (h : FbInUse d s) :
    FbSettled d (kprintBackspace t s).fb ∧ PixelsInFrame d (backspaceAccesses t s) := by
  have hset := h.settled
  rw [← getCursorOffset_state] at hset
  simp only [kprintBackspace, backspaceAccesses, h.not_skipped, Bool.false_eq_true, if_false]
  rw [locate_settled hset]
  exact ⟨setCursorOffset_settled (printChar_settled hset 0 _ _ _).inUse _, printChar_inFrame hset 0 _ _⟩

/- An operation that finds a framebuffer stays on it. -/
theorem consoleStep_settled (h : FbInUse d s) (op : ConsoleOp) :
    FbSettled d (consoleStep t s op).fb ∧ PixelsInFrame d (consoleAccesses t s op) := by
  cases op with
  | clear =>
    show FbSettled d (clearScreen t s).fb ∧ PixelsInFrame d (clearAccesses t s)
    simp only [clearScreen, clearAccesses, h.uses, if_true]
    exact ⟨clear_settled h.settled, pixelsInFrame_pixels (clear_inFrame h.settled)⟩
  | print message =>
    show FbSettled d (kprint t s message).fb ∧ PixelsInFrame d (kprintAtAccesses t s message (-1) (-1))
    simp only [kprint, h.not_skipped, Bool.false_eq_true, if_false]
    exact kprintAt_settled h message (-1) (-1)
  | printAt message col row => exact kprintAt_settled h message col row
  | setCursor offset => exact ⟨setCursorOffset_settled h offset, pixelsInFrame_nil⟩
  | backspace => exact backspace_settled h

/-! ### Without a framebuffer -/

def SameDevice (s s' : Console) : Prop := s'.fb.ready = s.fb.ready ∧ s'.fb.dev = s.fb.dev

theorem usesFb_device (s : Console) : SameDevice s (usesFb s).2 := by
  unfold SameDevice usesFb
  split
  · unfold fbConsoleUse
    dsimp only
    split_ifs <;> exact ⟨rfl, rfl⟩
  · exact ⟨rfl, rfl⟩

/- Asked again, the console finds no framebuffer and nothing to refresh. -/
def FbOff (s : Console) : Prop := usesFb s = (false, s)

theorem fbConsoleUse_off {f : Fb} (h : (fbConsoleUse f).1 = false) :
    (fbConsoleUse f).2 = {f with con := {f.con with active := false}} := by
  unfold fbConsoleUse at h ⊢
  dsimp only at h ⊢
  split_ifs at h ⊢ <;> rfl

/- Whether there is a grid to use is a matter of the device. -/
theorem fbConsoleUse_device {f f' : Fb} (hr : f'.ready = f.ready) (hd : f'.dev = f.dev) :
    (fbConsoleUse f').1 = (fbConsoleUse f).1 := by
  unfold fbConsoleUse
  rw [hr, hd]
  dsimp only
  split_ifs <;> rfl

theorem usesFb_off (h : (usesFb s).1 = false) : FbOff (usesFb s).2 := by
  unfold FbOff
  cases hr : s.fb.ready with
  | false => simp only [usesFb, hr, Bool.false_eq_true, if_false]
  | true =>
    simp only [usesFb, hr, if_true] at h ⊢
    have hfirst := fbConsoleUse_off h
    have hready : (fbConsoleUse s.fb).2.ready = true := by rw [hfirst, hr]
    have hagain : (fbConsoleUse (fbConsoleUse s.fb).2).1 = false := by
      rw [fbConsoleUse_device (f := s.fb) (by rw [hfirst]) (by rw [hfirst])]
      exact h
    have hsame : (fbConsoleUse (fbConsoleUse s.fb).2).2 = (fbConsoleUse s.fb).2 := by
      rw [fbConsoleUse_off hagain, hfirst]
    rw [if_pos hready, hagain, hsame]

theorem usesFb_setVga (s : Console) (v : Vga) :
    usesFb {s with vga := v} = ((usesFb s).1, {(usesFb s).2 with vga := v}) := by
  unfold usesFb
  dsimp only
  split <;> rfl

theorem FbOff.setVga (h : FbOff s) (v : Vga) : FbOff {s with vga := v} := by
  unfold FbOff at h ⊢
  rw [usesFb_setVga, h]

theorem printChar_off (h : FbOff s) (c : UInt8) (col row : ℤ) (attr : UInt8) :
    (∃ v, (printChar t s c col row attr).2 = {s with vga := v}) ∧
      PixelsInFrame d (printCharAccesses t s c col row) := by
  have huse : usesFb s = (false, s) := h
  refine ⟨?_, ?_⟩
  · simp only [printChar, huse, Bool.false_eq_true, if_false]
    split
    · exact ⟨s.vga, by rw [getOffset_state, huse]⟩
    · exact ⟨_, rfl⟩
  · simp only [printCharAccesses, huse, Bool.false_eq_true, if_false]
    split
    · exact pixelsInFrame_video _
    · exact pixelsInFrame_nil

theorem locate_off (h : FbOff s) (offset : ℤ) :
    (getVgaOffsetCol t (getVgaOffsetRow t s offset).2 offset).2 = s := by
  have huse : usesFb s = (false, s) := h
  rw [getVgaOffsetCol_state, getVgaOffsetRow_state, huse]
  dsimp only
  rw [huse]

theorem setCursorOffset_off (h : FbOff s) (offset : ℤ) :
    ∃ v, setCursorOffset s offset = {s with vga := v} := by
  have huse : usesFb s = (false, s) := h
  simp only [setCursorOffset, huse, Bool.false_eq_true, if_false]
  split
  · exact ⟨s.vga, rfl⟩
  · exact ⟨_, rfl⟩

theorem kprintLoop_off (h : FbOff s) (message : List UInt8) (col row : ℤ) :
    (∃ v, kprintLoop t s message col row = {s with vga := v}) ∧
      PixelsInFrame d (kprintLoopAccesses t s message col row) := by
  induction message generalizing s col row with
  | nil => exact ⟨⟨s.vga, rfl⟩, pixelsInFrame_nil⟩
  | cons c message ih =>
    rw [kprintLoop, kprintLoopAccesses]
    split
    · exact ⟨⟨s.vga, rfl⟩, pixelsInFrame_nil⟩
    · obtain ⟨⟨v, hv⟩, hchar⟩ := printChar_off (t := t) (d := d) h c col row whiteOnBlack
      have hoff : FbOff (printChar t s c col row whiteOnBlack).2 := by
        rw [hv]
        exact h.setVga v
      dsimp only
      rw [locate_off hoff, hv]
      obtain ⟨⟨v', hv'⟩, hpixels⟩ := ih (h.setVga v) _ _
      rw [hv']
      exact ⟨⟨v', rfl⟩, hchar.append hpixels⟩

theorem kprintAt_off (h : (usesFb s).1 = false) (message : List UInt8) (col row : ℤ) :
    SameDevice s (kprintAt t s message col row) ∧
      PixelsInFrame d (kprintAtAccesses t s message col row) := by
  have hdev := usesFb_device s
  unfold kprintAt kprintAtAccesses
  split
  · exact ⟨⟨rfl, rfl⟩, pixelsInFrame_nil⟩
  · split
    · rw [getOffset_state]
      obtain ⟨⟨v, hv⟩, hpixels⟩ := kprintLoop_off (t := t) (d := d) (usesFb_off h) message col row
      rw [hv]
      exact ⟨hdev, hpixels⟩
    · have hoff := usesFb_off h
      rw [← getCursorOffset_state] at hoff hdev
      dsimp only
      rw [locate_off hoff]
      obtain ⟨⟨v, hv⟩, hpixels⟩ := kprintLoop_off (t := t) (d := d) hoff message _ _
      rw [hv]
      exact ⟨hdev, hpixels⟩

theorem backspace_off (h : (usesFb s).1 = false) :
    SameDevice s (kprintBackspace t s) ∧ PixelsInFrame d (backspaceAccesses t s) := by
  unfold kprintBackspace backspaceAccesses
  split
  · exact ⟨⟨rfl, rfl⟩, pixelsInFrame_nil⟩
  · have hdev := usesFb_device s
    have hoff := usesFb_off h
    rw [← getCursorOffset_state] at hoff hdev
    dsimp only
    rw [locate_off hoff]
    obtain ⟨⟨v, hv⟩, hpixels⟩ := printChar_off (t := t) (d := d) hoff 0 _ _ whiteOnBlack
    rw [hv]
    obtain ⟨v', hv'⟩ := setCursorOffset_off (hoff.setVga v) (wrap32 ((getCursorOffset s).1 - 2))
    rw [hv']
    exact ⟨hdev, hpixels⟩

/- An operation that finds no framebuffer touches no pixel. -/
theorem consoleStep_off (h : (usesFb s).1 = false) (op : ConsoleOp) :
    SameDevice s (consoleStep t s op) ∧ PixelsInFrame d (consoleAccesses t s op) := by
  cases op with
  | clear =>
    show SameDevice s (clearScreen t s) ∧ PixelsInFrame d (clearAccesses t s)
    have hdev := usesFb_device s
    simp only [clearScreen, clearAccesses, h, Bool.false_eq_true, if_false]
    refine ⟨?_, ?_⟩
    · split
      · exact hdev
      · exact hdev
    · split
      · exact pixelsInFrame_video _
      · exact pixelsInFrame_nil
  | print message =>
    show SameDevice s (kprint t s message) ∧ PixelsInFrame d (kprintAtAccesses t s message (-1) (-1))
    obtain ⟨hdev, hpixels⟩ := kprintAt_off (t := t) (d := d) h message (-1) (-1)
    refine ⟨?_, hpixels⟩
    unfold kprint
    split
    · exact ⟨rfl, rfl⟩
    · exact hdev
  | printAt message col row => exact kprintAt_off h message col row
  | setCursor offset =>
    refine ⟨?_, pixelsInFrame_nil⟩
    show SameDevice s (setCursorOffset s offset)
    have hdev := usesFb_device s
    simp only [setCursorOffset, h, Bool.false_eq_true, if_false]
    split
    · exact hdev
    · exact hdev
  | backspace => exact backspace_off h

end Api

/-! ### Runs -/

inductive FbOp where
  | init (bootinfo : Option KernelBootinfo) (pixels : Pixels)
  | console (op : ConsoleOp)

def fbStep (s : Console) : FbOp → Option Console
  | .init bootinfo pixels => some (framebufferConsoleInit s bootinfo pixels).2
  | .console op => some (consoleStep vgaText s op)

/- What an accepted boot information promises. -/
structure KernelBootinfo.Fits (b : KernelBootinfo) : Prop where
  stride_ge : b.fbWidth.toNat ≤ b.fbStride.toNat
  area_lt : b.fbHeight.toNat * b.fbStride.toNat < 2 ^ 32
  width_lt : b.fbWidth.toNat < 2 ^ 31
  height_lt : b.fbHeight.toNat < 2 ^ 31

def AcceptsFitting (s : Console) : FbOp → Prop
  | .init bootinfo pixels =>
    (framebufferConsoleInit s bootinfo pixels).1 = true → ∀ b, bootinfo = some b → b.Fits
  | .console _ => True

/- The operation changes nothing but what it is listed to access, it reads and writes
pixels of the framebuffer only, and where it uses the framebuffer it leaves the
cursor on a grid that fits it. -/
def StaysInside (s : Console) : FbOp → Prop
  | .init _ _ => True
  | .console op =>
    ConsoleChanges (consoleAccesses vgaText s op) s (consoleStep vgaText s op) ∧
    PixelsInFrame s.fb.dev (consoleAccesses vgaText s op) ∧
    ((usesFb s).1 = true →
      let f := (consoleStep vgaText s op).fb
      f.con.cursorCol < f.con.cols ∧ f.con.cursorRow < f.con.rows ∧
        f.con.cols * f.con.cellWidth ≤ f.dev.width ∧ f.con.rows * f.con.cellHeight ≤ f.dev.height)

/- The framebuffer, if there is one, can be addressed. -/
def FbFits (s : Console) : Prop := s.fb.ready = true → FbDims s.fb.dev

theorem init_fits {s : Console} {bootinfo : Option KernelBootinfo} {pixels : Pixels}
    (hb : AcceptsFitting s (.init bootinfo pixels)) :
    FbFits (framebufferConsoleInit s bootinfo pixels).2 := by
  unfold AcceptsFitting at hb
  cases bootinfo with
  | none => exact nofun
  | some b =>
    unfold framebufferConsoleInit at hb ⊢
    dsimp only at hb ⊢
    split at hb
    next hflag =>
      rw [if_pos hflag]
      exact nofun
    next hflag =>
      rw [if_neg hflag]
      split at hb
      next hzero =>
        rw [if_pos hzero]
        exact nofun
      next hzero =>
        rw [if_neg hzero]
        obtain ⟨hstride, harea, hwidth, hheight⟩ := hb rfl b rfl
        exact fun _ => ⟨hstride, harea, hwidth, hheight, rfl, rfl⟩

theorem console_inside {s : Console} (h : FbFits s) (op : ConsoleOp) :
    StaysInside s (.console op) ∧ FbFits (consoleStep vgaText s op) := by
  cases huse : (usesFb s).1 with
  | false =>
    obtain ⟨⟨hready, hdev⟩, hpixels⟩ := consoleStep_off (t := vgaText) (d := s.fb.dev) huse op
    refine ⟨⟨consoleStep_changes vgaText s op, hpixels, fun htrue => absurd (huse.symm.trans htrue) Bool.false_ne_true⟩, ?_⟩
    unfold FbFits
    rw [hready, hdev]
    exact h
  | true =>
    have hinUse : FbInUse s.fb.dev s := by
      obtain ⟨hr, hok, hstate⟩ := usesFb_used huse
      refine ⟨huse, ?_⟩
      rw [hstate]
      exact fbConsoleUse_settles (h hr) hok
    obtain ⟨hset, hpixels⟩ := consoleStep_settled (t := vgaText) hinUse op
    have harea := hset.area
    refine ⟨⟨consoleStep_changes vgaText s op, hpixels, fun _ => ?_⟩, fun _ => ?_⟩
    · dsimp only
      rw [hset.dev]
      refine ⟨?_, ?_, harea⟩
      · rw [hset.cols]
        exact hset.col_lt
      · rw [hset.rows]
        exact hset.row_lt
    · rw [hset.dev]
      exact hset.dims

/-- From boot on, whatever framebuffers `framebuffer_console_init` accepts, as
long as their sizes fit, every operation of the console stays on the
framebuffer it finds. -/
theorem fb_console_inside (s : Console) (hboot : s.fb.ready = false) (ops : List FbOp)
    (hfits : Run.Guarded fbStep AcceptsFitting s ops) : Run.Guarded fbStep StaysInside s ops := by
  have hstart : FbFits s := by
    intro hr
    rw [hboot] at hr
    cases hr
  refine Run.Guarded.of_invariant ?_ hstart hfits
  intro s op h hop
  cases op with
  | init bootinfo pixels =>
    refine ⟨trivial, ?_⟩
    rintro s' ⟨⟩
    exact init_fits hop
  | console op =>
    obtain ⟨hinside, hnext⟩ := console_inside h op
    refine ⟨hinside, ?_⟩
    rintro s' ⟨⟩
    exact hnext

/- Two by two cells, then a single one under the same cursor. -/
theorem fb_console_inside_shrinks :
    Run.Guarded fbStep StaysInside biosConsole
      [.init (some ⟨2, 4096, 18, 32, 20, 32⟩) fun _ => 0, .console (.print [97, 98, 99]),
        .init (some ⟨2, 4096, 9, 16, 9, 32⟩) fun _ => 0, .console .backspace] := by
  refine fb_console_inside biosConsole rfl _ ⟨?_, fun _ _ => ⟨trivial, fun _ _ => ⟨?_, fun _ _ =>
    ⟨trivial, fun _ _ => trivial⟩⟩⟩⟩
  · rintro - b ⟨⟩
    exact ⟨by decide, by decide, by decide, by decide⟩
  · rintro - b ⟨⟩
    exact ⟨by decide, by decide, by decide, by decide⟩

end CasseOS.Screen
