import CasseOS.Screen.FbConsole

/-! # The framebuffer console refines the VGA text console

`fb_console_print_char` in a steady state is one step of the abstract console,
as `print_char` is on the VGA side; so are the other operations of the API. Run
side by side after `clear_screen`, the two consoles agree after every call. -/

namespace CasseOS.Screen
open CInt Loop TextGrid

section PrintChar
variable {g : FbGeometry} {f : Fb}

theorem wrap32_cols (g : FbGeometry) : wrap32 g.cols = g.cols := by
  have h := g.cols_lt
  exact wrap32_of_range (by omega) (by omega)

theorem wrap32_rows (g : FbGeometry) : wrap32 g.rows = g.rows := by
  have h := g.rows_lt
  exact wrap32_of_range (by omega) (by omega)

theorem wrap32_succ {n : ℕ} (h : n + 1 < 2147483648) : wrap32 ((n : ℤ) + 1) = (n + 1 : ℕ) := by
  rw [wrap32_of_range] <;> omega

/- The glyph and the gap column next to it. -/
theorem draw_steady (h : FbSteady g f) {col row : ℕ} (hc : col < g.cols) (hr : row < g.rows)
    (c : UInt8) : fbDrawChar f c col row = drawCell g f c col row := by
  have hcl := g.cols_lt
  have hrl := g.rows_lt
  have hpx : u32 (toU32 col * f.con.cellWidth) = col * 9 := by
    rw [h.cellWidth, toU32_natCast (by omega), u32_of_lt (by omega)]
  have hpy : u32 (toU32 row * f.con.cellHeight) = row * 16 := by
    rw [h.cellHeight, toU32_natCast (by omega), u32_of_lt (by omega)]
  have hgap : u32 (col * 9 + 8) = col * 9 + 8 := u32_of_lt (by omega)
  have hglyph : f.dev.glyphWidth = 8 := by rw [h.dev, g.glyphWidth]
  simp only [fbDrawChar]
  rw [hpx, hpy, drawGlyph_steady h (by omega) (by omega)]
  dsimp only
  rw [hglyph, h.cellWidth, h.cellHeight, if_pos (by decide), hgap,
    fillRect_steady (h.setPixels _) (by decide) (by decide) (by omega) (by omega)]
  rfl

/- Column and row of the position after a character, before scrolling. -/
theorem advance_split {cols : ℕ} (pos : ℕ) (hc : 0 < cols) (c : UInt8) :
    (c = newline → advance newline cols pos c % cols = 0 ∧
      advance newline cols pos c / cols = pos / cols + 1) ∧
    (c ≠ newline → pos % cols + 1 = cols → advance newline cols pos c % cols = 0 ∧
      advance newline cols pos c / cols = pos / cols + 1) ∧
    (c ≠ newline → pos % cols + 1 < cols → advance newline cols pos c % cols = pos % cols + 1 ∧
      advance newline cols pos c / cols = pos / cols) := by
  have hdm := Nat.div_add_mod pos cols
  refine ⟨?_, ?_, ?_⟩
  · intro hn
    rw [advance, if_pos hn]
    exact ⟨Nat.mul_mod_left _ _, Nat.mul_div_left _ hc⟩
  · intro hn hwrap
    have he : pos + 1 = (pos / cols + 1) * cols := by
      rw [Nat.succ_mul, Nat.mul_comm]
      omega
    rw [advance, if_neg hn, he]
    exact ⟨Nat.mul_mod_left _ _, Nat.mul_div_left _ hc⟩
  · intro hn hin
    have he : pos + 1 = cols * (pos / cols) + (pos % cols + 1) := by omega
    rw [advance, if_neg hn, he, Nat.mul_add_mod, Nat.mod_eq_of_lt hin, Nat.mul_add_div hc,
      Nat.div_eq_of_lt hin, Nat.add_zero]
    exact ⟨rfl, rfl⟩

theorem placeCursor_steady (h : FbSteady g f) {col row : ℕ} (hc : col < g.cols) (hr : row ≤ g.rows)
    (hlast : row = g.rows → col = 0) :
    fbPlaceCursor f g.cols g.rows col row =
      if row = g.rows then
        (((2 * ((g.rows - 1) * g.cols) : ℕ) : ℤ), (scrolled g f).setCursor 0 (g.rows - 1))
      else (((2 * (row * g.cols + col) : ℕ) : ℤ), f.setCursor col row) := by
  have hcl := g.cols_lt
  have hrl := g.rows_lt
  have hfits : g.rows * g.cols ≤ 65536 := g.fits
  have hcol : ¬(col : ℤ) < 0 := by omega
  have hr1 : 1 ≤ g.rows := g.rows_pos
  have hmul : ∀ r, r ≤ g.rows → r * g.cols ≤ 65536 :=
    fun r hr => (Nat.mul_le_mul_right _ hr).trans hfits
  unfold fbPlaceCursor
  by_cases hs : row = g.rows
  · have hrow : ((g.rows : ℤ) - 1) = (g.rows - 1 : ℕ) := by omega
    have hm := hmul (g.rows - 1) (by omega)
    have hoff : wrap32 (2 * (((g.rows - 1 : ℕ) : ℤ) * g.cols + (0 : ℕ))) =
        (2 * ((g.rows - 1) * g.cols) : ℕ) := by
      rw [wrap32_of_range] <;> push_cast at * <;> omega
    have hneg : ¬(((g.rows - 1 : ℕ) : ℤ) < 0) := by omega
    have h0 := hlast hs
    subst h0
    rw [if_pos (by omega), if_pos hs, hrow]
    dsimp only
    rw [hoff, if_neg hcol, if_neg hneg, toU32_natCast (by omega), toU32_natCast (by omega),
      fbConsoleScroll_steady h]
    rfl
  · have hm := hmul (row + 1) (by omega)
    rw [Nat.succ_mul] at hm
    have hoff : wrap32 (2 * ((row : ℤ) * g.cols + col)) = (2 * (row * g.cols + col) : ℕ) := by
      rw [wrap32_of_range] <;> push_cast at * <;> omega
    have hneg : ¬((row : ℤ) < 0) := by omega
    rw [if_neg (by omega), if_neg hs]
    dsimp only
    rw [hoff, if_neg hcol, if_neg hneg, toU32_natCast (by omega), toU32_natCast (by omega)]
    rfl

/- The next cell of a cell of a grid, as long as its row is an `int`. -/
theorem fbNextCell_pos {cols pos : ℕ} (hc : 0 < cols) (hcols : cols < 2147483648)
    (hrow : pos / cols + 1 < 2147483648) (c : UInt8) :
    fbNextCell cols c (pos % cols : ℕ) (pos / cols : ℕ) =
      (((advance newline cols pos c % cols : ℕ) : ℤ),
        ((advance newline cols pos c / cols : ℕ) : ℤ)) := by
  have hcol : pos % cols < cols := Nat.mod_lt _ hc
  obtain ⟨hnl, hwrap, hin⟩ := advance_split pos hc c
  have hr1 := wrap32_succ hrow
  have hc1 := wrap32_succ (show pos % cols + 1 < 2147483648 by omega)
  unfold fbNextCell
  rw [hr1, hc1]
  by_cases hn : c = newline
  · rw [(hnl hn).1, (hnl hn).2, if_pos hn]
    dsimp only
    rw [if_neg (by omega)]
    rfl
  · rw [if_neg hn]
    dsimp only
    by_cases hw : pos % cols + 1 = cols
    · rw [(hwrap hn hw).1, (hwrap hn hw).2, if_pos (by omega), hr1]
      rfl
    · have hlt : pos % cols + 1 < cols := by omega
      rw [(hin hn hlt).1, (hin hn hlt).2, if_neg (by omega)]

theorem nextCell_steady {pos : ℕ} (hp : pos < g.mode.cells) (c : UInt8) :
    fbNextCell g.cols c (pos % g.cols : ℕ) (pos / g.cols : ℕ) =
      (((advance newline g.cols pos c % g.cols : ℕ) : ℤ),
        ((advance newline g.cols pos c / g.cols : ℕ) : ℤ)) := by
  have hcl := g.cols_lt
  have hrl := g.rows_lt
  have hc : 0 < g.cols := g.cols_pos
  have hrow : pos / g.cols < g.rows := row_lt hp
  exact fbNextCell_pos hc (by omega) (by omega) c

theorem fbPrintChar_steady (h : FbSteady g f) {pos : ℕ} (hp : pos < g.mode.cells) (c : UInt8) :
    fbConsolePrintChar f c (pos % g.cols : ℕ) (pos / g.cols : ℕ) =
      fbPlaceCursor (if c = newline then f else drawCell g f c (pos % g.cols) (pos / g.cols))
        g.cols g.rows (advance newline g.cols pos c % g.cols : ℕ)
        (advance newline g.cols pos c / g.cols : ℕ) := by
  have hc : 0 < g.cols := g.cols_pos
  have hr : 0 < g.rows := g.rows_pos
  have hneg : ¬(((pos % g.cols : ℕ) : ℤ) < 0 ∨ ((pos / g.cols : ℕ) : ℤ) < 0) := by
    rintro (hlt | hlt)
    · exact absurd hlt (Int.not_lt.mpr (Int.natCast_nonneg _))
    · exact absurd hlt (Int.not_lt.mpr (Int.natCast_nonneg _))
  have hgrid : ¬((g.cols : ℤ) ≤ 0 ∨ (g.rows : ℤ) ≤ 0) := by omega
  have hrow : pos / g.cols < g.rows := row_lt hp
  unfold fbConsolePrintChar
  rw [fbConsoleUse_steady h]
  dsimp only
  rw [if_neg hneg]
  dsimp only
  rw [h.cols, h.rows, wrap32_cols, wrap32_rows, if_neg hgrid, nextCell_steady hp c,
    draw_steady h (Nat.mod_lt _ hc) hrow c]
  rfl

/- One character on the framebuffer is one step of the abstract grid. -/
theorem fbPrintChar_grid (hnw : g.NoWrap) (h : FbSteady g f) {cell : ℕ → UInt8}
    (hs : FbShows g f cell) {pos : ℕ} (hp : pos < g.mode.cells) (c : UInt8) :
    let r := fbConsolePrintChar f c (pos % g.cols : ℕ) (pos / g.cols : ℕ)
    r.1 = (2 * (gridPut g.mode cell pos c).1 : ℕ) ∧ FbSteady g r.2 ∧
      FbShows g r.2 (gridPut g.mode cell pos c).2 := by
  have hc : 0 < g.cols := g.cols_pos
  have hr : 0 < g.rows := g.rows_pos
  have hcells : g.mode.cells = g.rows * g.cols := rfl
  have hle : advance newline g.cols pos c ≤ g.rows * g.cols := advance_le newline c hp
  have hdm := Nat.div_add_mod (advance newline g.cols pos c) g.cols
  have hmod : advance newline g.cols pos c % g.cols < g.cols := Nat.mod_lt _ hc
  have hrow : advance newline g.cols pos c / g.cols ≤ g.rows :=
    Nat.div_le_of_le_mul (by rwa [Nat.mul_comm])
  have hiff : advance newline g.cols pos c / g.cols = g.rows ↔
      g.rows * g.cols ≤ advance newline g.cols pos c := by
    rw [← Nat.le_div_iff_mul_le hc]
    omega
  have hlast : advance newline g.cols pos c / g.cols = g.rows →
      advance newline g.cols pos c % g.cols = 0 := by
    intro hl
    rw [hl, Nat.mul_comm] at hdm
    omega
  have hf1 : FbSteady g (if c = newline then f else drawCell g f c (pos % g.cols) (pos / g.cols)) := by
    split
    · exact h
    · exact h.setPixels _
  have hs1 : FbShows g (if c = newline then f else drawCell g f c (pos % g.cols) (pos / g.cols))
      (TextGrid.write newline cell pos c) := by
    unfold TextGrid.write
    split
    · exact hs
    · exact drawCell_shows hnw cell hs hp c
  have hput : gridPut g.mode cell pos c =
      settle 0 g.cols g.rows (TextGrid.write newline cell pos c) (advance newline g.cols pos c) := rfl
  dsimp only
  rw [fbPrintChar_steady h hp c, placeCursor_steady hf1 hmod hrow hlast, hput, settle]
  by_cases hl : advance newline g.cols pos c / g.cols = g.rows
  · rw [if_pos hl, if_pos (hiff.mp hl)]
    have he : (g.rows - 1) * g.cols = advance newline g.cols pos c - g.cols := by
      rw [Nat.sub_mul, Nat.one_mul]
      have := hiff.mp hl
      omega
    refine ⟨?_, hf1.scrolled.setCursor hc (Nat.sub_lt hr Nat.one_pos),
      (scrolled_shows hnw _ hs1).setCursor _ _⟩
    dsimp only
    rw [he]
  · rw [if_neg hl, if_neg (mt hiff.mpr hl)]
    refine ⟨?_, hf1.setCursor hmod (by omega), hs1.setCursor _ _⟩
    dsimp only
    rw [Nat.mul_comm (_ / _) g.cols, hdm]

end PrintChar

/-! ### The API on the framebuffer -/

structure FbRep (g : FbGeometry) (s : Console) (gr : Grid) : Prop where
  steady : FbSteady g s.fb
  auto : s.autoCursor = true
  shown : FbShows g s.fb gr.cell
  cursorCol : s.fb.con.cursorCol = gr.pos % g.cols
  cursorRow : s.fb.con.cursorRow = gr.pos / g.cols
  pos_lt : gr.pos < g.mode.cells

section Api
variable {g : FbGeometry} {t : TextMode} {s : Console}

theorem usesFb_steady (h : FbSteady g s.fb) : usesFb s = (true, s) := by
  simp only [usesFb, h.ready, if_true, fbConsoleUse_steady h]

theorem setCursorOffset_fb (h : FbSteady g s.fb) {pos : ℕ} (hp : pos < g.mode.cells) {offset : ℤ}
    (h0 : 0 ≤ offset) (hpos : offset.toNat / 2 = pos) :
    setCursorOffset s offset = {s with fb := s.fb.setCursor (pos % g.cols) (pos / g.cols)} := by
  have hc : 0 < g.cols := g.cols_pos
  have hcl := g.cols_lt
  have hrl := g.rows_lt
  have hcol : pos % g.cols < g.cols := Nat.mod_lt _ hc
  have hrow : pos / g.cols < g.rows := row_lt hp
  have h2 : (2 : ℤ) = (2 : ℕ) := rfl
  have hindex : offset.tdiv 2 = (pos : ℕ) := by
    obtain ⟨n, rfl⟩ := Int.eq_ofNat_of_zero_le h0
    rw [h2, tdiv_natCast, ← hpos, Int.toNat_natCast]
  have hcols : ¬((g.cols : ℤ) ≤ 0) := by omega
  have hr0 : ¬(((pos / g.cols : ℕ) : ℤ) < 0) := Int.not_lt.mpr (Int.natCast_nonneg _)
  have hc0 : ¬(((pos % g.cols : ℕ) : ℤ) < 0) := Int.not_lt.mpr (Int.natCast_nonneg _)
  have hr1 : ¬((g.rows : ℤ) ≤ (pos / g.cols : ℕ)) := by
    rw [Nat.cast_le]
    omega
  have hc1 : ¬((g.cols : ℤ) ≤ (pos % g.cols : ℕ)) := by
    rw [Nat.cast_le]
    omega
  simp only [setCursorOffset, usesFb_steady h, if_true]
  rw [h.cols, h.rows, wrap32_cols, wrap32_rows, if_neg hcols, if_neg (by omega : ¬offset < 0), hindex,
    tdiv_natCast, tmod_natCast, if_neg hr0, if_neg hc0, if_neg hr1, if_neg hc1,
    toU32_natCast (by omega), toU32_natCast (by omega), ← h.cols, ← h.rows]
  rfl

theorem half_natCast (n : ℕ) : Int.tdiv ((2 * n : ℕ) : ℤ) 2 = n := by
  have h2 : (2 : ℤ) = (2 : ℕ) := rfl
  rw [h2, tdiv_natCast, Nat.mul_div_cancel_left _ (by decide)]

theorem getVgaOffsetRow_fb (h : FbSteady g s.fb) (pos : ℕ) :
    getVgaOffsetRow t s (2 * pos : ℕ) = (((pos / g.cols : ℕ) : ℤ), s) := by
  have hc : 0 < g.cols := g.cols_pos
  simp only [getVgaOffsetRow, usesFb_steady h, if_true, h.cols, wrap32_cols,
    if_neg (by omega : ¬((g.cols : ℤ) ≤ 0)), half_natCast, tdiv_natCast]

theorem getVgaOffsetCol_fb (h : FbSteady g s.fb) (pos : ℕ) :
    getVgaOffsetCol t s (2 * pos : ℕ) = (((pos % g.cols : ℕ) : ℤ), s) := by
  have hc : 0 < g.cols := g.cols_pos
  simp only [getVgaOffsetCol, usesFb_steady h, if_true, h.cols, wrap32_cols,
    if_neg (by omega : ¬((g.cols : ℤ) ≤ 0)), half_natCast, tmod_natCast]

theorem getOffset_fb (h : FbSteady g s.fb) (col row : ℤ) : (getOffset t s col row).2 = s := by
  simp only [getOffset, usesFb_steady h, if_true]
  split <;> rfl

theorem getCursorOffset_fb {gr : Grid} (h : FbRep g s gr) :
    getCursorOffset s = (((2 * gr.pos : ℕ) : ℤ), s) := by
  have hc : 0 < g.cols := g.cols_pos
  have hcl := g.cols_lt
  have hpos := cell_bounds g.mode h.pos_lt
  have hdm : gr.pos / g.cols * g.cols + gr.pos % g.cols = gr.pos := by
    rw [Nat.mul_comm]
    exact Nat.div_add_mod _ _
  have hindex : wrap32 (gr.pos : ℤ) = gr.pos := wrap32_of_range (by omega) (by omega)
  have hoff : wrap32 ((gr.pos : ℤ) * 2) = (2 * gr.pos : ℕ) := by
    rw [wrap32_of_range] <;> omega
  simp only [getCursorOffset, usesFb_steady h.steady, if_true, h.steady.cols, wrap32_cols,
    if_neg (by omega : ¬((g.cols : ℤ) ≤ 0)), h.cursorCol, h.cursorRow,
    toU32_natCast (by omega : g.cols < 4294967296), hdm, u32_of_lt (by omega : gr.pos < 4294967296),
    hindex, hoff]

theorem setCursorOffset_fb_rep {gr : Grid} (hs : FbSteady g s.fb) (hauto : s.autoCursor = true)
    {cell : ℕ → UInt8} (hshow : FbShows g s.fb cell) {offset : ℤ} (h0 : 0 ≤ offset)
    (hgr : gr = ⟨cell, offset.toNat / 2⟩) (hp : gr.pos < g.mode.cells) :
    FbRep g (setCursorOffset s offset) gr := by
  subst hgr
  have hrow : offset.toNat / 2 / g.cols < g.rows := row_lt hp
  rw [setCursorOffset_fb hs hp h0 rfl]
  exact ⟨hs.setCursor (Nat.mod_lt _ g.cols_pos) hrow, hauto, hshow.setCursor _ _, rfl, rfl, hp⟩

theorem printChar_fb (hnw : g.NoWrap) {gr : Grid} (h : FbRep g s gr) {pos : ℕ}
    (hp : pos < g.mode.cells) (c attr : UInt8) :
    let r := printChar t s c (pos % g.cols : ℕ) (pos / g.cols : ℕ) attr
    r.1 = (2 * (gridPut g.mode gr.cell pos c).1 : ℕ) ∧
      FbRep g r.2 ⟨(gridPut g.mode gr.cell pos c).2, (gridPut g.mode gr.cell pos c).1⟩ := by
  obtain ⟨hoff, hsteady, hshown⟩ := fbPrintChar_grid hnw h.steady h.shown hp c
  have hlt := gridPut_lt g.mode gr.cell c hp
  simp only [printChar, usesFb_steady h.steady, if_true, h.auto]
  refine ⟨hoff, ?_⟩
  rw [hoff]
  refine setCursorOffset_fb_rep hsteady rfl hshown (Int.natCast_nonneg _) ?_ hlt
  rw [Int.toNat_natCast, Nat.mul_div_cancel_left _ (by decide)]

theorem kprintLoop_fb (hnw : g.NoWrap) {gr : Grid} (h : FbRep g s gr) {pos : ℕ}
    (hp : pos < g.mode.cells) (message : List UInt8) :
    FbRep g (kprintLoop t s message (pos % g.cols : ℕ) (pos / g.cols : ℕ))
      ⟨(gridPuts g.mode gr.cell pos (cstr message)).2,
        if cstr message = [] then gr.pos else (gridPuts g.mode gr.cell pos (cstr message)).1⟩ := by
  induction message generalizing s gr pos with
  | nil => exact h
  | cons c message ih =>
    by_cases hc : c = 0
    · have hnil : cstr (c :: message) = [] := by simp [cstr, hc]
      simp only [kprintLoop, if_pos hc, hnil]
      exact h
    · have hcons : cstr (c :: message) = c :: cstr message := by simp [cstr, hc]
      obtain ⟨hoff, hrep⟩ := printChar_fb (t := t) hnw h hp c whiteOnBlack
      have hlt := gridPut_lt g.mode gr.cell c hp
      have hih := ih hrep hlt
      simp only [kprintLoop, if_neg hc, hoff, getVgaOffsetRow_fb hrep.steady,
        getVgaOffsetCol_fb hrep.steady, hcons]
      have hpos : (if cstr message = [] then (gridPut g.mode gr.cell pos c).1
          else (gridPuts g.mode (gridPut g.mode gr.cell pos c).2 (gridPut g.mode gr.cell pos c).1
            (cstr message)).1) = (gridPuts g.mode gr.cell pos (c :: cstr message)).1 := by
        split
        next hnil => rw [hnil]; rfl
        next => rfl
      rw [if_neg (List.cons_ne_nil _ _), ← hpos]
      exact hih

theorem clearScreen_fb (hnw : g.NoWrap) (hr : s.fb.ready = true) (hd : s.fb.dev = g.dev)
    (hauto : s.autoCursor = true) : FbRep g (clearScreen t s) ⟨blankCell g.mode, 0⟩ := by
  obtain ⟨hok, hsteady, -⟩ := fbConsoleUse_ready hr hd
  have hc : 0 < g.cols := g.cols_pos
  have hrow : 0 < g.rows := g.rows_pos
  have hcl := g.cols_lt
  have hrl := g.rows_lt
  have harea := g.area_stride
  have hwidth : u32 (g.cols * 9) = 9 * g.cols := by rw [u32_of_lt (by omega)]; omega
  have hheight : u32 (g.rows * 16) = 16 * g.rows := by rw [u32_of_lt (by omega)]; omega
  have huse : usesFb s = (true, {s with fb := (fbConsoleUse s.fb).2}) := by
    simp only [usesFb, hr, if_true, hok]
  have hclear : fbConsoleClear (fbConsoleUse s.fb).2 = Fb.setCursor
      {(fbConsoleUse s.fb).2 with
        pixels := blit g.dev 0 0 (9 * g.cols) (16 * g.rows)
          (fun _ _ => (fbConsoleUse s.fb).2.con.bgColor) (fbConsoleUse s.fb).2.pixels} 0 0 := by
    unfold fbConsoleClear
    rw [fbConsoleUse_steady hsteady]
    dsimp only
    rw [hsteady.cols, hsteady.rows, hsteady.cellWidth, hsteady.cellHeight, hwidth, hheight,
      fillRect_steady hsteady (by omega) (by omega) (by omega) (by omega)]
    rfl
  simp only [clearScreen, huse, if_true, hclear]
  refine ⟨(hsteady.setPixels _).setCursor hc hrow, hauto, ?_, ?_, ?_, Nat.mul_pos hrow hc⟩
  · refine FbShows.setCursor ?_ _ _
    intro k hk dx hx dy hy
    obtain ⟨hpx, hpy⟩ := cell_pixel_bounds hk hx hy
    have hblank : blankCell g.mode k = 0 ∨ blankCell g.mode k = space := Or.inr (if_pos hk)
    dsimp only
    rw [FbGeometry.blit_pixel hnw (by omega) (by omega) _ _ _ (by omega), if_pos (by omega),
      cellPixel_blank _ _ hblank]
  · exact (Nat.zero_mod _).symm
  · exact (Nat.zero_div _).symm

theorem kprintAt_fb (hnw : g.NoWrap) {gr : Grid} (h : FbRep g s gr) {row col : ℕ}
    (hcol : col < g.cols) (hrow : row < g.rows) (message : List UInt8) :
    FbRep g (kprintAt t s message col row) (gridStep g.mode gr (.printAt message col row)) := by
  have hcell : row * g.cols + col < g.mode.cells := cell_lt hrow hcol
  have hready : (!s.available && !s.fb.ready) = false := by
    rw [h.steady.ready, Bool.not_true, Bool.and_false]
  have hnn : (0 : ℤ) ≤ col ∧ (0 : ℤ) ≤ row := ⟨Int.natCast_nonneg _, Int.natCast_nonneg _⟩
  have hloop := kprintLoop_fb (t := t) hnw h hcell message
  rw [cell_div row hcol, cell_mod row hcol] at hloop
  simp only [kprintAt, hready, Bool.false_eq_true, if_false, if_pos hnn, getOffset_fb h.steady]
  exact hloop

theorem kprint_fb (hnw : g.NoWrap) {gr : Grid} (h : FbRep g s gr) (message : List UInt8) :
    FbRep g (kprint t s message) (gridStep g.mode gr (.print message)) := by
  have hready : (!s.available && !s.fb.ready) = false := by
    rw [h.steady.ready, Bool.not_true, Bool.and_false]
  have hneg : ¬((0 : ℤ) ≤ -1 ∧ (0 : ℤ) ≤ -1) := by decide
  have hloop := kprintLoop_fb (t := t) hnw h h.pos_lt message
  have hpos : (if cstr message = [] then gr.pos
      else (gridPuts g.mode gr.cell gr.pos (cstr message)).1) =
      (gridPuts g.mode gr.cell gr.pos (cstr message)).1 := by
    split
    next hnil => rw [hnil]; rfl
    next => rfl
  rw [hpos] at hloop
  simp only [kprint, kprintAt, hready, Bool.false_eq_true, if_false, if_neg hneg,
    getCursorOffset_fb h, getVgaOffsetRow_fb h.steady, getVgaOffsetCol_fb h.steady]
  exact hloop

theorem kprintBackspace_fb (hnw : g.NoWrap) {gr : Grid} (h : FbRep g s gr) (hpos : 0 < gr.pos) :
    FbRep g (kprintBackspace t s) (gridStep g.mode gr .backspace) := by
  have hlt := h.pos_lt
  have hbound := cell_bounds g.mode hlt
  have hprev : gr.pos - 1 < g.mode.cells := by omega
  have hready : (!s.available && !s.fb.ready) = false := by
    rw [h.steady.ready, Bool.not_true, Bool.and_false]
  have hoff : wrap32 (((2 * gr.pos : ℕ) : ℤ) - 2) = (2 * (gr.pos - 1) : ℕ) := by
    rw [wrap32_of_range] <;> omega
  obtain ⟨-, hrep⟩ := printChar_fb (t := t) hnw h hprev 0 whiteOnBlack
  rw [gridPut_zero g.mode gr.cell (by omega)] at hrep
  simp only [kprintBackspace, hready, Bool.false_eq_true, if_false, getCursorOffset_fb h, hoff,
    getVgaOffsetRow_fb h.steady, getVgaOffsetCol_fb h.steady]
  refine setCursorOffset_fb_rep hrep.steady hrep.auto hrep.shown (Int.natCast_nonneg _) ?_ hprev
  rw [Int.toNat_natCast, Nat.mul_div_cancel_left _ (by decide)]
  rfl

theorem fb_step (hnw : g.NoWrap) {gr : Grid} (h : FbRep g s gr) (op : ConsoleOp)
    (hok : GridOk g.mode gr op) : FbRep g (consoleStep t s op) (gridStep g.mode gr op) := by
  cases op with
  | clear => exact clearScreen_fb hnw h.steady.ready h.steady.dev h.auto
  | print message => exact kprint_fb hnw h message
  | printAt message col row =>
    obtain ⟨⟨hc0, hc⟩, hr0, hr⟩ := hok
    obtain ⟨k, rfl⟩ := Int.eq_ofNat_of_zero_le hc0
    obtain ⟨r, rfl⟩ := Int.eq_ofNat_of_zero_le hr0
    exact kprintAt_fb hnw h (Int.ofNat_lt.mp hc) (Int.ofNat_lt.mp hr) message
  | setCursor offset =>
    obtain ⟨h0, h1⟩ := hok
    refine setCursorOffset_fb_rep h.steady h.auto h.shown h0 rfl ?_
    show offset.toNat / 2 < g.mode.cells
    omega
  | backspace => exact kprintBackspace_fb hnw h hok

end Api

/-! ### The two consoles side by side -/

/- Operations the API is used with: coordinates on the screen, and a backspace
only when the cursor is not at the top left. -/
def OnScreen (t : TextMode) (s : Console) : ConsoleOp → Prop
  | .clear | .print _ => True
  | .printAt _ col row => (0 ≤ col ∧ col < t.maxCols) ∧ (0 ≤ row ∧ row < t.maxRows)
  | .setCursor offset => 0 ≤ offset ∧ offset < 2 * t.cells
  | .backspace => (getCursorOffset s).1 ≠ 0

/- The framebuffer console `f` shows what the VGA console `v` holds. -/
structure Agree (g : FbGeometry) (f v : Console) : Prop where
  pixels : ∀ r < g.rows, ∀ k < g.cols, ∀ dx < 9, ∀ dy < 16,
    f.fb.pixels (g.index (k * 9 + dx) (r * 16 + dy)) =
      cellPixel f.fb.con.fgColor f.fb.con.bgColor (v.vga.cell (r * g.cols + k)) dx dy
  cursor : (getCursorOffset f).1 = (getCursorOffset v).1

def bothStep (g : FbGeometry) (p : Console × Console) (op : ConsoleOp) :
    Option (Console × Console) :=
  some (consoleStep vgaText p.1 op, consoleStep g.mode p.2 op)

theorem bothStep_snd {g : FbGeometry} {p q : Console × Console} {op : ConsoleOp}
    (h : bothStep g p op = some q) : consoleStep g.mode p.2 op = q.2 :=
  congrArg Prod.snd (Option.some.inj h)

/- One abstract console that both represent. -/
def Joined (g : FbGeometry) (p : Console × Console) : Prop :=
  ∃ gr, FbRep g p.1 gr ∧ VgaRep g.mode p.2 gr

theorem joined_agree {g : FbGeometry} {p : Console × Console} (h : Joined g p) :
    Agree g p.1 p.2 := by
  obtain ⟨gr, hf, hv⟩ := h
  refine ⟨?_, ?_⟩
  · intro r hr k hk dx hx dy hy
    have hcell : r * g.cols + k < g.mode.cells := cell_lt hr hk
    have hpix := hf.shown _ hcell dx hx dy hy
    have hgrid := congrFun hv.grid (r * g.cols + k)
    rw [Vga.grid, if_pos hcell] at hgrid
    rw [cell_div r hk, cell_mod r hk, ← hgrid] at hpix
    exact hpix
  · rw [getCursorOffset_fb hf, getCursorOffset_vga hv.on, hv.cursor]

theorem joined_step {g : FbGeometry} (hnw : g.NoWrap) (p : Console × Console) (op : ConsoleOp)
    (h : Joined g p) (hok : OnScreen g.mode p.2 op) :
    ∃ p', bothStep g p op = some p' ∧ Joined g p' := by
  obtain ⟨gr, hf, hv⟩ := h
  have hgrid : GridOk g.mode gr op := by
    cases op with
    | clear | print _ => trivial
    | printAt _ _ _ | setCursor _ => exact hok
    | backspace =>
      change (getCursorOffset p.2).1 ≠ 0 at hok
      rw [getCursorOffset_vga hv.on, hv.cursor] at hok
      show 0 < gr.pos
      omega
  exact ⟨_, rfl, gridStep g.mode gr op, fb_step hnw hf op hgrid, vga_step hv op hgrid⟩

/-- After `clear_screen`, every sequence of calls keeps the framebuffer showing
the cells and the cursor of the VGA algorithm run on a screen of the same size,
as long as no line offset of the character area exceeds 32 bits. -/
theorem fb_refines_vga (g : FbGeometry) (hnw : g.NoWrap) (f v : Console)
    (hready : f.fb.ready = true) (hdev : f.fb.dev = g.dev) (hfauto : f.autoCursor = true)
    (hv : OnVga v) (hvauto : v.autoCursor = true) (ops : List ConsoleOp)
    (hok : Run.Guarded (bothStep g) (fun p op => OnScreen g.mode p.2 op)
      (clearScreen vgaText f, clearScreen g.mode v) ops) :
    Run.Throughout (bothStep g) (fun p => Agree g p.1 p.2)
      (clearScreen vgaText f, clearScreen g.mode v) ops := by
  have h0 : Joined g (clearScreen vgaText f, clearScreen g.mode v) :=
    ⟨_, clearScreen_fb hnw hready hdev hfauto, clearScreen_vga g.mode hv hvauto⟩
  exact (Run.throughout_of_invariant (joined_step hnw) h0 hok).mono fun _ => joined_agree

/- Two by two cells, with pixels left over on the right and below. -/
def twoByTwo : FbGeometry :=
  ⟨⟨20, 33, 24, 32, 8, 16⟩, by decide, by decide, by decide, rfl, rfl, rfl, by decide, by decide,
    by decide⟩

def uefiConsole (g : FbGeometry) (fill : UInt32) : Console :=
  ⟨false, true, ⟨fun _ => 0, 0, 0⟩, ⟨true, g.dev, fbConsoleStateInit, fun _ => fill⟩⟩

def bothCleared : Console × Console :=
  (clearScreen vgaText (uefiConsole twoByTwo 0), clearScreen twoByTwo.mode biosConsole)

/- The third letter wraps, the fourth scrolls, and the fifth is replaced. -/
def scrollingOps : List ConsoleOp := [.print [65, 66, 67], .print [68, 69], .backspace, .print [70]]

theorem fb_refines_vga_scrolls :
    Run.Throughout (bothStep twoByTwo) (fun p => Agree twoByTwo p.1 p.2) bothCleared scrollingOps ∧
      (Run.exec (bothStep twoByTwo) bothCleared scrollingOps).map
        (fun p => ((List.range 4).map p.2.vga.cell, (getCursorOffset p.1).1)) =
          some ([67, 68, 70, 0], 6) := by
  refine ⟨fb_refines_vga twoByTwo (by unfold FbGeometry.NoWrap; decide) (uefiConsole twoByTwo 0)
    biosConsole rfl rfl rfl ⟨rfl, rfl⟩ rfl scrollingOps ⟨trivial, ?_⟩, by decide +kernel⟩
  intro p hp
  refine ⟨trivial, fun q hq => ⟨?_, fun _ _ => ⟨trivial, fun _ _ => trivial⟩⟩⟩
  show (getCursorOffset q.2).1 ≠ 0
  rw [← bothStep_snd hq, ← bothStep_snd hp]
  decide +kernel

/- Two rows of cells on lines so long that line 16 starts at index `2 ^ 32`. -/
def wideStride : FbGeometry :=
  ⟨⟨9, 32, 268435456, 32, 8, 16⟩, by decide, by decide, by decide, rfl, rfl, rfl, by decide,
    by decide, by decide⟩

/- The 32-bit product wraps to line 0, so `clear_screen` leaves the second row
of cells as it was. -/
theorem clearScreen_wraps :
    ¬Agree wideStride (clearScreen vgaText (uefiConsole wideStride 0x00FFFFFF))
      (clearScreen wideStride.mode biosConsole) := by
  intro h
  have hpix := h.pixels 1 (by decide) 0 (by decide) 0 (by decide) 0 (by decide)
  have hleft : (clearScreen vgaText (uefiConsole wideStride 0x00FFFFFF)).fb.pixels
      (wideStride.index (0 * 9 + 0) (1 * 16 + 0)) = 0x00FFFFFF := by decide +kernel
  have hright : cellPixel
      (clearScreen vgaText (uefiConsole wideStride 0x00FFFFFF)).fb.con.fgColor
      (clearScreen vgaText (uefiConsole wideStride 0x00FFFFFF)).fb.con.bgColor
      ((clearScreen wideStride.mode biosConsole).vga.cell (1 * wideStride.cols + 0)) 0 0 = 0 := by
    decide +kernel
  rw [hleft, hright] at hpix
  exact absurd hpix (by decide)

end CasseOS.Screen
