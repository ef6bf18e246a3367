import CasseOS.Screen.FbPixels
import CasseOS.Lib.Run

/-! # The framebuffer backend refines the abstract console

`FbSteady` is the state `fb_console_use` leaves behind: the grid measured, the
cursor on it, and nothing to refresh. In such a state the pixels of each cell
are the rendering of the character the abstract console has there (`FbShows`),
and every operation of the API keeps that. -/

namespace CasseOS.Screen
open CInt Loop TextGrid

def Fb.setCursor (f : Fb) (col row : ℕ) : Fb :=
  {f with con := {f.con with cursorCol := col, cursorRow := row}}

structure FbSteady (g : FbGeometry) (f : Fb) : Prop where
  ready : f.ready = true
  dev : f.dev = g.dev
  active : f.con.active = true
  cellWidth : f.con.cellWidth = 9
  cellHeight : f.con.cellHeight = 16
  cols : f.con.cols = g.cols
  rows : f.con.rows = g.rows
  col_lt : f.con.cursorCol < g.cols
  row_lt : f.con.cursorRow < g.rows

section Steady
variable {g : FbGeometry} {f : Fb}

theorem FbSteady.measured (h : FbSteady g f) : FbMeasured f := by
  have hcol := h.col_lt
  have hrow := h.row_lt
  refine ⟨h.ready, ?_, h.active, ?_, ?_, ?_, ?_, ?_, ?_⟩
  · rw [h.dev, g.glyphWidth, g.glyphHeight]
    exact glyph_size
  · rw [h.dev, g.glyphWidth, h.cellWidth, cell_size]
  · rw [h.dev, g.glyphHeight, h.cellHeight]
  · rw [h.dev, g.glyphWidth, h.cols, cell_size, FbGeometry.cols]
  · rw [h.dev, g.glyphHeight, h.rows, FbGeometry.rows]
  · rwa [h.cols]
  · rwa [h.rows]

theorem fbConsoleUse_steady (h : FbSteady g f) : fbConsoleUse f = (true, f) := h.measured.use

/- The first use after boot measures the grid and may reset the cursor. -/
theorem fbConsoleUse_ready (hr : f.ready = true) (hd : f.dev = g.dev) :
    (fbConsoleUse f).1 = true ∧ FbSteady g (fbConsoleUse f).2 ∧
      (fbConsoleUse f).2.pixels = f.pixels := by
  have hc := g.cols_pos
  have hrow := g.rows_pos
  have hgrid : ¬(g.dev.width / 9 = 0 ∨ g.dev.height / 16 = 0) := by omega
  have hu : (fbConsoleUse f).1 = true := by
    simp only [fbConsoleUse, hr, hd, g.glyphWidth, g.glyphHeight, cell_size, if_neg glyph_size,
      if_neg hgrid, Bool.not_true, Bool.false_eq_true, if_false]
  have hrest := fbConsoleUse_rest f
  have hdev : (fbConsoleUse f).2.dev = g.dev := (congrArg Fb.dev hrest).trans hd
  obtain ⟨hready, -, hactive, hcw, hch, hcols, hrows, hcol, hrow⟩ := fbConsoleUse_measures hu
  rw [hdev, g.glyphWidth] at hcw hcols
  rw [hdev, g.glyphHeight] at hch hrows
  have hcols' : (fbConsoleUse f).2.con.cols = g.cols := hcols
  have hrows' : (fbConsoleUse f).2.con.rows = g.rows := hrows
  exact ⟨hu, ⟨hready, hdev, hactive, hcw, hch, hcols', hrows', hcols' ▸ hcol, hrows' ▸ hrow⟩,
    (congrArg Fb.pixels hrest).trans rfl⟩

theorem FbSteady.setPixels (h : FbSteady g f) (p : Pixels) : FbSteady g {f with pixels := p} :=
  ⟨h.ready, h.dev, h.active, h.cellWidth, h.cellHeight, h.cols, h.rows, h.col_lt, h.row_lt⟩

theorem FbSteady.setCursor (h : FbSteady g f) {col row : ℕ} (hc : col < g.cols) (hr : row < g.rows) :
    FbSteady g (f.setCursor col row) :=
  ⟨h.ready, h.dev, h.active, h.cellWidth, h.cellHeight, h.cols, h.rows, hc, hr⟩

theorem fillRect_steady (h : FbSteady g f) {x y w k : ℕ} (hw : 0 < w) (hk : 0 < k)
    (hx : x + w ≤ 9 * g.cols) (hy : y + k ≤ 16 * g.rows) (color : UInt32) :
    fbConsoleFillRect f x y w k color =
      {f with pixels := blit g.dev x y w k (fun _ _ => color) f.pixels} := by
  have hwidth := g.area_width
  have hheight := g.area_height
  have hwlt := g.width_lt
  have hhlt := g.height_lt
  have h0 : (!f.ready || decide (w = 0) || decide (k = 0)) = false := by
    rw [h.ready]
    simp only [Bool.not_true, Bool.false_or, Bool.or_eq_false_iff, decide_eq_false_iff_not]
    omega
  have h1 : ¬(g.dev.width ≤ x ∨ g.dev.height ≤ y) := by omega
  have h2 : ¬g.dev.width < u32 (x + w) := by rw [u32_of_lt (by omega)]; omega
  have h3 : ¬g.dev.height < u32 (y + k) := by rw [u32_of_lt (by omega)]; omega
  simp only [fbConsoleFillRect, h0, Bool.false_eq_true, if_false, h.dev, if_neg h1, if_neg h2,
    if_neg h3]

/- Colour of a pixel of a cell that holds character `c`: the 8x16 glyph and
one background column, NUL drawn as a space. -/
def cellPixel (fg bg : UInt32) (c : UInt8) (dx dy : ℕ) : UInt32 :=
  let glyph := framebufferFontGetGlyph (if c = 0 then space else c).toNat
  if (glyphRow glyph dy).testBit (7 - dx) ∧ dx < 8 then fg else bg

theorem drawGlyph_steady (h : FbSteady g f) {x y : ℕ} (hx : x + 8 ≤ 9 * g.cols)
    (hy : y + 16 ≤ 16 * g.rows) (c : UInt8) (fg bg : UInt32) :
    framebufferConsoleDrawGlyph f (if c = 0 then space else c) x y fg bg =
      (true, {f with pixels := blit g.dev x y 8 16 (cellPixel fg bg c) f.pixels}) := by
  have hwidth := g.area_width
  have hheight := g.area_height
  have hwlt := g.width_lt
  have hhlt := g.height_lt
  have h0 : (!f.ready || decide (g.dev.bpp ≠ 32)) = false := by
    rw [h.ready, g.bpp]
    decide
  have h1 : ¬(g.dev.width ≤ x ∨ g.dev.height ≤ y) := by omega
  have h2 : ¬(g.dev.width < u32 (x + 8) ∨ g.dev.height < u32 (y + 16)) := by
    rw [u32_of_lt (by omega), u32_of_lt (by omega)]; omega
  simp only [framebufferConsoleDrawGlyph, h0, h.dev, g.glyphWidth, g.glyphHeight,
    if_neg glyph_size, if_neg h1, if_neg h2, Bool.false_eq_true, if_false]
  rfl

/- What `fb_console_print_char` draws for one character cell. -/
def drawCell (g : FbGeometry) (f : Fb) (c : UInt8) (col row : ℕ) : Fb :=
  {f with
    pixels := blit g.dev (col * 9 + 8) (row * 16) 1 16 (fun _ _ => f.con.bgColor)
      (blit g.dev (col * 9) (row * 16) 8 16 (cellPixel f.con.fgColor f.con.bgColor c) f.pixels)}

/- What `fb_console_scroll` does to the pixels. -/
def scrolled (g : FbGeometry) (f : Fb) : Fb :=
  {f with
    pixels := blit g.dev 0 (16 * g.rows - 16) (9 * g.cols) 16 (fun _ _ => f.con.bgColor)
      (loop (16 * g.rows - 16) (fun y p => loop (9 * g.cols) (fun x p =>
        Function.update p (g.dev.pixelIndex 0 y + x)
          (p (g.dev.pixelIndex 0 (u32 (y + 16)) + x))) p) f.pixels)
    con := {f.con with cursorRow := g.rows - 1, cursorCol := 0}}

theorem FbSteady.scrolled (h : FbSteady g f) : FbSteady g (scrolled g f) :=
  ⟨h.ready, h.dev, h.active, h.cellWidth, h.cellHeight, h.cols, h.rows, g.cols_pos,
    Nat.sub_lt g.rows_pos Nat.one_pos⟩

theorem fbConsoleScroll_steady (h : FbSteady g f) : fbConsoleScroll f = scrolled g f := by
  have hc : 1 ≤ g.cols := g.cols_pos
  have hr : 1 ≤ g.rows := g.rows_pos
  have hcl := g.cols_lt
  have hrl := g.rows_lt
  have hheight := g.area_height
  have h1 : ¬(g.cols = 0 ∨ g.rows = 0) := by omega
  have hw : u32 (g.cols * 9) = 9 * g.cols := by rw [u32_of_lt (by omega)]; omega
  have hh : u32 ((g.rows - 1) * 16) = 16 * g.rows - 16 := by rw [u32_of_lt (by omega)]; omega
  have h2 : ¬(9 * g.cols = 0 ∨ 16 = 0) := by omega
  have hlines : min (u32 (16 * g.rows - 16 + 16)) g.dev.height - (16 * g.rows - 16) = 16 := by
    rw [u32_of_lt (by omega)]
    omega
  simp only [fbConsoleScroll, fbConsoleUse_steady h, Bool.not_true, Bool.false_eq_true, if_false,
    h.cols, h.rows, h.cellWidth, h.cellHeight, h.dev, if_neg h1, hw, hh, if_neg h2, hlines, scrolled]

/-! ### Rendering -/

/- The pixels of every cell render what the abstract console has there. -/
def FbShows (g : FbGeometry) (f : Fb) (cell : ℕ → UInt8) : Prop :=
  ∀ k < g.mode.cells, ∀ dx < 9, ∀ dy < 16,
    f.pixels (g.index (k % g.cols * 9 + dx) (k / g.cols * 16 + dy)) =
      cellPixel f.con.fgColor f.con.bgColor (cell k) dx dy

theorem FbShows.setCursor {cell : ℕ → UInt8} (h : FbShows g f cell) (col row : ℕ) :
    FbShows g (f.setCursor col row) cell := by
  intro k hk dx hx dy hy
  exact h k hk dx hx dy hy

theorem cellPixel_blank (fg bg : UInt32) {c : UInt8} (hc : c = 0 ∨ c = space) (dx dy : ℕ) :
    cellPixel fg bg c dx dy = bg := by
  have hglyph : framebufferFontGetGlyph (if c = 0 then space else c).toNat =
      framebufferFontGetGlyph 32 := by
    rcases hc with rfl | rfl <;> rfl
  simp only [cellPixel, hglyph, glyphRow_space, Nat.zero_testBit, Bool.false_eq_true, false_and,
    if_false]

theorem cellPixel_gap (fg bg : UInt32) (c : UInt8) (dy : ℕ) : cellPixel fg bg c 8 dy = bg := by
  simp only [cellPixel, Nat.lt_irrefl, and_false, if_false]

theorem cell_pixel_bounds {k dx dy : ℕ} (hk : k < g.mode.cells) (hx : dx < 9) (hy : dy < 16) :
    k % g.cols * 9 + dx < 9 * g.cols ∧ k / g.cols * 16 + dy < 16 * g.rows := by
  have hc : k % g.cols < g.cols := Nat.mod_lt _ g.cols_pos
  have hr : k / g.cols < g.rows := row_lt hk
  omega

theorem drawCell_shows (hnw : g.NoWrap) (cell : ℕ → UInt8) (hs : FbShows g f cell)
    {pos : ℕ} (hp : pos < g.mode.cells) (c : UInt8) :
    FbShows g (drawCell g f c (pos % g.cols) (pos / g.cols)) (Function.update cell pos c) := by
  intro k hk dx hx dy hy
  have harea := g.area_stride
  obtain ⟨hpx, hpy⟩ := cell_pixel_bounds hk hx hy
  obtain ⟨hqx, hqy⟩ := cell_pixel_bounds hp (by decide : 8 < 9) (by decide : 15 < 16)
  have hkey : k = pos ↔ k % g.cols = pos % g.cols ∧ k / g.cols = pos / g.cols := by
    constructor
    · rintro rfl
      exact ⟨rfl, rfl⟩
    · rintro ⟨hm, hd⟩
      rw [← Nat.div_add_mod k g.cols, hm, hd, Nat.div_add_mod]
  simp only [drawCell, Function.update_apply]
  rw [FbGeometry.blit_pixel hnw (by omega) (by omega) _ _ _ (by omega),
    FbGeometry.blit_pixel hnw (by omega) (by omega) _ _ _ (by omega)]
  by_cases hcell : k = pos
  · subst hcell
    rw [if_pos rfl]
    by_cases hgap : dx = 8
    · rw [if_pos (by omega), hgap, cellPixel_gap]
    · rw [if_neg (by omega), if_pos (by omega)]
      congr 1 <;> omega
  · rw [if_neg hcell]
    have hne : ¬(k % g.cols = pos % g.cols ∧ k / g.cols = pos / g.cols) := mt hkey.mpr hcell
    rw [if_neg (by omega), if_neg (by omega)]
    exact hs k hk dx hx dy hy

theorem scrolled_shows (hnw : g.NoWrap) (cell : ℕ → UInt8) (hs : FbShows g f cell) :
    FbShows g (scrolled g f) (scroll 0 g.cols g.rows cell) := by
  intro k hk dx hx dy hy
  have harea := g.area_stride
  have hc : 0 < g.cols := g.cols_pos
  have hr : 1 ≤ g.rows := g.rows_pos
  obtain ⟨hpx, hpy⟩ := cell_pixel_bounds hk hx hy
  have hmod : (k + g.cols) % g.cols = k % g.cols := Nat.add_mod_right k g.cols
  have hdiv : (k + g.cols) / g.cols = k / g.cols + 1 := Nat.add_div_right k hc
  simp only [scrolled, scroll]
  rw [FbGeometry.blit_pixel hnw (by omega) (by omega) _ _ _ (by omega),
    FbGeometry.moved_pixel hnw _ _ (by omega)]
  by_cases hin : k + g.cols < g.rows * g.cols
  · have hrow : k / g.cols + 1 < g.rows := by
      rw [← hdiv]
      exact row_lt hin
    have hnext := hs (k + g.cols) hin dx hx dy hy
    rw [hmod, hdiv] at hnext
    rw [if_neg (by omega), if_pos (by omega), if_pos hin, ← hnext]
    congr 2
    ring
  · have hrow : ¬k / g.cols + 1 < g.rows := by
      intro hlt
      refine hin ?_
      rw [← hdiv] at hlt
      exact (Nat.div_lt_iff_lt_mul hc).mp hlt
    rw [if_pos (by omega), if_neg hin, cellPixel_blank _ _ (Or.inl rfl)]

end Steady
end CasseOS.Screen
