import CasseOS.Screen.FbRefinement
import CasseOS.Shell.Editor

/-! # What the command line shows

The editor repaints the whole text after every edit, from the fixed cell
`cmd_start_offset` on. As long as the text ends before the last cell of the
screen the console does not scroll, and the screen shows the line being edited
and the cursor; the repaint is the same on both backends. -/

namespace CasseOS.Shell
open CInt Keyboard Screen TextGrid

/-! ### The backends -/

inductive Backend where
  | vga (t : TextMode)
  | framebuffer (g : FbGeometry) (hnw : g.NoWrap)

namespace Backend

/- The text mode the code is compiled for. -/
def text : Backend → TextMode
  | vga t => t
  | framebuffer _ _ => vgaText

/- The cells of the screen. -/
def mode : Backend → TextMode
  | vga t => t
  | framebuffer g _ => g.mode

/- The console shows the characters `cell`. -/
def Shows : Backend → Console → (ℕ → UInt8) → Prop
  | vga t, s, cell => OnVga s ∧ s.vga.grid t = cell
  | framebuffer g _, s, cell => s.autoCursor = true ∧ FbSteady g s.fb ∧ FbShows g s.fb cell

theorem fbRep_of_shows {g : FbGeometry} {s : Console} {cell : ℕ → UInt8}
    (ha : s.autoCursor = true) (hs : FbSteady g s.fb) (hc : FbShows g s.fb cell) :
    FbRep g s ⟨cell, s.fb.con.cursorRow * g.cols + s.fb.con.cursorCol⟩ :=
  ⟨hs, ha, hc, (cell_mod _ hs.col_lt).symm, (cell_div _ hs.col_lt).symm, cell_lt hs.row_lt hs.col_lt⟩

section Api
variable {b : Backend} {s : Console} {cell : ℕ → UInt8}

theorem Shows.row (h : b.Shows s cell) (pos : ℕ) :
    getVgaOffsetRow b.text s (2 * pos : ℕ) = (((pos / b.mode.maxCols : ℕ) : ℤ), s) := by
  cases b with
  | vga t => exact (getVgaOffsetRow_vga h.1 _).trans (by rw [vgaOffsetRow_cell]; rfl)
  | framebuffer g hnw => exact getVgaOffsetRow_fb h.2.1 pos

theorem Shows.col (h : b.Shows s cell) (pos : ℕ) :
    getVgaOffsetCol b.text s (2 * pos : ℕ) = (((pos % b.mode.maxCols : ℕ) : ℤ), s) := by
  cases b with
  | vga t => exact (getVgaOffsetCol_vga h.1 _).trans (by rw [vgaOffsetCol_cell]; rfl)
  | framebuffer g hnw => exact getVgaOffsetCol_fb h.2.1 pos

theorem Shows.kprintAt (h : b.Shows s cell) {pos : ℕ} (hp : pos < b.mode.cells)
    (message : List UInt8) :
    b.Shows (kprintAt b.text s message (pos % b.mode.maxCols : ℕ) (pos / b.mode.maxCols : ℕ))
      (gridPuts b.mode cell pos (cstr message)).2 := by
  cases b with
  | vga t =>
    obtain ⟨hon, rfl⟩ := h
    have hpr := kprintAt_vga hon message hp
    exact ⟨hpr.onVga hon, hpr.grid⟩
  | framebuffer g hnw =>
    have hcol : pos % g.cols < g.cols := Nat.mod_lt _ g.cols_pos
    have hr := kprintAt_fb (t := vgaText) hnw (fbRep_of_shows h.1 h.2.1 h.2.2) hcol (row_lt hp)
      message
    have hpos : pos / g.cols * g.cols + pos % g.cols = pos := by
      rw [Nat.mul_comm]
      exact Nat.div_add_mod _ _
    refine ⟨hr.auto, hr.steady, ?_⟩
    have hshown := hr.shown
    simp only [gridStep, Int.toNat_natCast] at hshown
    change FbShows g _ (gridPuts g.mode cell (pos / g.cols * g.cols + pos % g.cols) _).2 at hshown
    rw [hpos] at hshown
    exact hshown

theorem Shows.setCursorOffset (h : b.Shows s cell) {pos : ℕ} (hp : pos < b.mode.cells) :
    b.Shows (setCursorOffset s (2 * pos : ℕ)) cell ∧
      (getCursorOffset (setCursorOffset s (2 * pos : ℕ))).1 = (2 * pos : ℕ) := by
  cases b with
  | vga t =>
    rw [setCursorOffset_vga h.1, getCursorOffset_vga (onVga_setVga h.1 _)]
    exact ⟨⟨onVga_setVga h.1 _, h.2⟩, getCursorOffset_setCursorOffset _ (cell_bounds t hp)⟩
  | framebuffer g hnw =>
    have hr : FbRep g (Screen.setCursorOffset s (2 * pos : ℕ)) ⟨cell, pos⟩ := by
      refine setCursorOffset_fb_rep h.2.1 h.1 h.2.2 (Int.natCast_nonneg _) ?_ hp
      rw [Int.toNat_natCast, Nat.mul_div_cancel_left _ (by decide)]
    exact ⟨⟨hr.auto, hr.steady, hr.shown⟩, congrArg Prod.fst (getCursorOffset_fb hr)⟩

end Api

end Backend

/-! ### Repainting -/

/- The cells after `text` was printed at `start` and `n` cells behind it were
blanked. -/
def paint (cell : ℕ → UInt8) (start : ℕ) (text : List UInt8) (n k : ℕ) : UInt8 :=
  if k < start then cell k
  else (text[k - start]?).getD (if k < start + text.length + n then space else cell k)

section Paint
variable {b : Backend} {s : Console} {cell : ℕ → UInt8} {start : ℕ} {text : List UInt8}

theorem cstr_of_noNul (h0 : 0 ∉ text) : cstr text = text := by
  refine List.takeWhile_eq_self_iff.mpr ?_
  intro c hc
  exact decide_eq_true fun he => h0 (he ▸ hc)

theorem gridPuts_paint (t : TextMode) (hn : newline ∉ text) (hfit : start + text.length < t.cells) :
    (gridPuts t cell start text).2 = paint cell start text 0 := by
  funext k
  have hputs : (puts newline 0 t.maxCols t.maxRows cell start text).2 k = _ :=
    puts_of_fits text hn hfit k
  rw [gridPuts, hputs, paint]
  by_cases hk : k < start
  · rw [if_neg (by omega), if_pos hk]
  · rw [if_pos (by omega), if_neg hk]
    by_cases hlt : k - start < text.length
    · rw [List.getElem?_eq_getElem hlt]
      rfl
    · rw [List.getElem?_eq_none (by omega), if_neg (by omega)]

theorem paint_space (n : ℕ) :
    paint (paint cell start text n) (start + text.length + n) [space] 0 =
      paint cell start text (n + 1) := by
  funext k
  simp only [paint, List.length_singleton, Nat.add_zero]
  by_cases hend : k < start + text.length + n
  · rw [if_pos hend]
    by_cases hk : k < start
    · rw [if_pos hk, if_pos hk]
    · rw [if_neg hk, if_neg hk, if_pos hend, if_pos (by omega)]
  · have hnone : text[k - start]? = none := List.getElem?_eq_none (by omega)
    have hk : ¬k < start := by omega
    rw [if_neg hend, if_neg hk, if_neg hk, if_neg hend, hnone, Option.getD_none, Option.getD_none]
    by_cases heq : k = start + text.length + n
    · have hzero : k - (start + text.length + n) = 0 := by omega
      rw [hzero, if_pos (by omega : k < start + text.length + (n + 1))]
      rfl
    · have hone : [space][k - (start + text.length + n)]? = none :=
        List.getElem?_eq_none (by simp only [List.length_singleton]; omega)
      rw [hone, Option.getD_none, if_neg (by omega), if_neg (by omega)]

theorem wrap32_cell {n : ℕ} (h : n < 65536) : wrap32 ((n : ℤ) * 2) = (2 * n : ℕ) := by
  rw [wrap32_of_range] <;> omega

theorem blankLoop_shows (m : ℕ) {n : ℕ} (h : b.Shows s (paint cell start text n))
    (hfit : start + text.length + n + m < b.mode.cells) :
    b.Shows (blankLoop b.text m (2 * (start + text.length + n) : ℕ) s)
      (paint cell start text (n + m)) := by
  induction m generalizing s n with
  | zero => exact h
  | succ m ih =>
    have hb := cell_bounds b.mode hfit
    have hprint := h.kprintAt (by omega : start + text.length + n < b.mode.cells) [space]
    have hspace : cstr [space] = [space] := cstr_of_noNul (by decide)
    rw [hspace, gridPuts_paint b.mode (by decide) (by simp only [List.length_singleton]; omega),
      paint_space] at hprint
    have hnext : wrap32 (((2 * (start + text.length + n) : ℕ) : ℤ) + 2) =
        (2 * (start + text.length + (n + 1)) : ℕ) := by
      rw [wrap32_of_range] <;> omega
    have hih := ih hprint (by omega)
    rw [Nat.add_right_comm n 1 m] at hih
    simp only [blankLoop, h.row, h.col, hnext]
    exact hih

/- The whole repaint: the text, the cells it no longer needs, the cursor. -/
theorem repainted_shows {st : CmdState} {previousLen : ℕ} (h : b.Shows st.console cell)
    (hstart : st.cmdStartOffset = start) (hlen : text.length = st.cmdLen) (h0 : 0 ∉ text)
    (hn : newline ∉ text) (hcur : st.cmdCursor ≤ st.cmdLen)
    (hfit : start + st.cmdLen < b.mode.cells) (hprev : start + previousLen < b.mode.cells) :
    b.Shows (repainted b.text st text previousLen)
        (paint cell start text (previousLen - st.cmdLen)) ∧
      (getCursorOffset (repainted b.text st text previousLen)).1 =
        (2 * (start + st.cmdCursor) : ℕ) := by
  have hbound := cell_bounds b.mode hfit
  have hbase : wrap32 (st.cmdStartOffset * 2) = (2 * start : ℕ) := by
    rw [hstart, wrap32_cell (by omega)]
  have hend : wrap32 ((st.cmdStartOffset + st.cmdLen) * 2) = (2 * (start + text.length + 0) : ℕ) := by
    rw [hstart, ← Nat.cast_add, wrap32_cell hbound, hlen, Nat.add_zero]
  have hcursor : wrap32 ((st.cmdStartOffset + st.cmdCursor) * 2) =
      (2 * (start + st.cmdCursor) : ℕ) := by
    rw [hstart, ← Nat.cast_add, wrap32_cell (by omega)]
  have hprint := h.kprintAt (by omega : start < b.mode.cells) text
  rw [cstr_of_noNul h0, gridPuts_paint b.mode hn (by omega)] at hprint
  have hblank := blankLoop_shows (previousLen - st.cmdLen) hprint (by omega)
  rw [Nat.zero_add] at hblank
  simp only [repainted, hbase, hend, hcursor, h.row, h.col]
  exact hblank.setCursorOffset (by omega)

end Paint

/-! ### The line on the screen -/

/- A key that makes the text reach the last cell of the screen is not pressed. -/
def StaysOnScreen (t : TextMode) (st : CmdState) (code : Keycode) : Prop :=
  Printable code → st.cmdLen < 1999 → st.cmdStartOffset + st.cmdLen + 1 < t.cells

/- What the user sees: the line from cell `start` on and a blank behind it, the
cursor, and the cell before the line as it was in `cell₀`. -/
structure Visible (b : Backend) (cell₀ : ℕ → UInt8) (start : ℕ) (st : CmdState) : Prop where
  onScreen : start + st.cmdLen < b.mode.cells
  shown : ∃ cell, b.Shows st.console cell ∧ (∀ i < st.cmdLen, cell (start + i) = st.command i) ∧
    Blank (cell (start + st.cmdLen)) ∧ (0 < start → cell (start - 1) = cell₀ (start - 1))
  cursor : (getCursorOffset st.console).1 = (2 * (start + st.cmdCursor) : ℕ)

/- The invariant of a run: also that nothing else from the line on is shown, and
that the text has no newline. -/
structure Painted (b : Backend) (cell₀ : ℕ → UInt8) (start : ℕ) (st : CmdState) : Prop where
  wellFormed : WellFormed st
  startOffset : st.cmdStartOffset = start
  noNewline : newline ∉ (lineOf st).text
  onScreen : start + st.cmdLen < b.mode.cells
  shown : ∃ cell, b.Shows st.console cell ∧ (∀ i < st.cmdLen, cell (start + i) = st.command i) ∧
    (∀ k < b.mode.cells, start + st.cmdLen ≤ k → Blank (cell k)) ∧ ∀ k < start, cell k = cell₀ k
  cursor : (getCursorOffset st.console).1 = (2 * (start + st.cmdCursor) : ℕ)

section Run
variable {b : Backend} {cell₀ : ℕ → UInt8} {start : ℕ} {st : CmdState}

theorem Painted.visible (h : Painted b cell₀ start st) : Visible b cell₀ start st := by
  obtain ⟨cell, hs, htext, hblank, hbefore⟩ := h.shown
  exact ⟨h.onScreen, ⟨cell, hs, htext, hblank _ h.onScreen le_rfl,
    fun hpos => hbefore _ (by omega)⟩, h.cursor⟩

theorem WellFormed.noNul_text (h : WellFormed st) : 0 ∉ (lineOf st).text := by
  intro hmem
  obtain ⟨i, hi, hz⟩ := List.mem_map.mp hmem
  exact h.noNul i (List.mem_range.mp hi) hz

theorem getElem?_lineOf {i : ℕ} (hi : i < st.cmdLen) :
    (lineOf st).text[i]? = some (st.command i) := by
  simp [lineOf, textOf, hi]

/- An edit of a painted line, followed by a repaint. -/
theorem Painted.repaint (h : Painted b cell₀ start st) {st' : CmdState} {text : List UInt8}
    (hwf : WellFormed st') (hline : (lineOf st').text = text) (hconsole : st'.console = st.console)
    (hoffset : st'.cmdStartOffset = st.cmdStartOffset) (hn : newline ∉ text)
    (hfit : start + st'.cmdLen < b.mode.cells) :
    Painted b cell₀ start {st' with console := repainted b.text st' text st.cmdLen} := by
  subst hline
  obtain ⟨cell, hs, htext, hblank, hbefore⟩ := h.shown
  have hlen := length_lineOf st'
  obtain ⟨hshow, hcursor⟩ := repainted_shows (hconsole ▸ hs) (hoffset.trans h.startOffset) hlen
    hwf.noNul_text hn hwf.cursor_le hfit h.onScreen
  refine ⟨⟨hwf.cursor_le, hwf.len_le, hwf.noNul, hwf.terminated⟩, hoffset.trans h.startOffset, hn,
    hfit, ⟨_, hshow, ?_, ?_, ?_⟩, hcursor⟩
  · intro i hi
    have hget : (lineOf st').text[i]? = some (st'.command i) := getElem?_lineOf hi
    rw [paint, if_neg (by omega), Nat.add_sub_cancel_left, hget]
    rfl
  · intro k hk hle
    replace hle : start + st'.cmdLen ≤ k := hle
    rw [paint, if_neg (by omega), List.getElem?_eq_none (by omega), Option.getD_none]
    split
    · exact Or.inr rfl
    · exact hblank k hk (by omega)
  · intro k hk
    rw [paint, if_pos hk]
    exact hbefore k hk

theorem Painted.moveCursor (h : Painted b cell₀ start st) {p : ℕ} (hp : p ≤ st.cmdLen) :
    Painted b cell₀ start (showCursor {st with cmdCursor := p}) := by
  obtain ⟨cell, hs, htext, hblank, hbefore⟩ := h.shown
  have hfit := h.onScreen
  have hbound := cell_bounds b.mode hfit
  have hoff : wrap32 ((st.cmdStartOffset + p) * 2) = (2 * (start + p) : ℕ) := by
    rw [h.startOffset, ← Nat.cast_add, wrap32_cell (by omega)]
  obtain ⟨hshow, hcursor⟩ := hs.setCursorOffset (by omega : start + p < b.mode.cells)
  have hwf := h.wellFormed
  simp only [showCursor, hoff]
  exact ⟨⟨hp, hwf.len_le, hwf.noNul, hwf.terminated⟩, h.startOffset, h.noNewline, hfit,
    ⟨cell, hshow, htext, hblank, hbefore⟩, hcursor⟩

theorem Painted.step (h : Painted b cell₀ start st) (code : Keycode)
    (hok : StaysOnScreen b.mode st code) :
    ∃ st', keyStep b.text st code = some st' ∧ Painted b cell₀ start st' := by
  have hwf := h.wellFormed
  have hfit := h.onScreen
  obtain ⟨r, hr, hd⟩ := handleCommandLine_spec b.text hwf code
  refine ⟨r.2, by rw [keyStep, hr]; rfl, ?_⟩
  cases hd with
  | enter => exact h
  | ignored => exact h
  | moved _ p hle => exact h.moveCursor hle
  | erased _ p hlt =>
    have hline := congrArg Line.text (erased_line hlt)
    have hn : newline ∉ (lineOf st).text.eraseIdx p :=
      fun hmem => h.noNewline ((List.eraseIdx_sublist _ _).subset hmem)
    refine h.repaint (erased_wellFormed hwf hlt) hline rfl rfl hn ?_
    show start + (st.cmdLen - 1) < _
    omega
  | inserted _ hpr hlen =>
    have hline := congrArg Line.text (inserted_line (c := code.toUInt8) hwf.cursor_le)
    have hn : newline ∉ (lineOf st).text.insertIdx st.cmdCursor code.toUInt8 := by
      intro hmem
      rw [List.mem_insertIdx (by rw [length_lineOf]; exact hwf.cursor_le)] at hmem
      exact hmem.elim (printable_newline hpr) h.noNewline
    refine h.repaint (inserted_wellFormed hwf hlen (printable_toUInt8 hpr)) hline rfl rfl hn ?_
    have hroom := hok hpr hlen
    rw [h.startOffset] at hroom
    show start + (st.cmdLen + 1) < _
    omega

end Run

/-- From a start cell with blanks behind it, keys that keep the text before the
last cell of the screen keep the line visible. -/
theorem commandLine_visible (b : Backend) (st : CmdState) (cell₀ : ℕ → UInt8) (start : ℕ)
    (hstart : start < b.mode.cells) (hshows : b.Shows st.console cell₀)
    (hblank : ∀ k < b.mode.cells, start ≤ k → Blank (cell₀ k)) (keys : List Keycode)
    (hkeys : Run.Guarded (keyStep b.text) (StaysOnScreen b.mode)
      (flushCommandLine (initCommandLine st start)) keys) :
    Run.Throughout (keyStep b.text) (Visible b cell₀ start)
      (flushCommandLine (initCommandLine st start)) keys := by
  have hbound := cell_bounds b.mode hstart
  have hoff : wrap32 ((start : ℤ) * 2) = (2 * start : ℕ) := wrap32_cell hbound
  obtain ⟨hshow, hcursor⟩ := hshows.setCursorOffset hstart
  have h0 : Painted b cell₀ start (flushCommandLine (initCommandLine st start)) := by
    refine ⟨flushCommandLine_wellFormed _, rfl, List.not_mem_nil, hstart,
      ⟨cell₀, ?_, fun i hi => absurd hi (Nat.not_lt_zero i), hblank, fun _ _ => rfl⟩, ?_⟩
    · simp only [flushCommandLine, initCommandLine, hoff]
      exact hshow
    · simp only [flushCommandLine, initCommandLine, hoff]
      exact hcursor
  exact (Run.throughout_of_invariant (fun st code h hok => h.step code hok) h0 hkeys).mono
    fun _ h => h.visible

/- What a repaint after an insertion leaves in the cells, scrolled or not. -/
theorem repainted_grid {t : TextMode} {st : CmdState} {cell : ℕ → UInt8} {start previousLen : ℕ}
    (h : (Backend.vga t).Shows st.console cell) (hstart : st.cmdStartOffset = start)
    (hlt : start < t.cells) (text : List UInt8) (hprev : previousLen ≤ st.cmdLen) :
    (repainted t st text previousLen).vga.grid t = (gridPuts t cell start (cstr text)).2 := by
  have hbase : wrap32 (st.cmdStartOffset * 2) = (2 * start : ℕ) := by
    rw [hstart, wrap32_cell (cell_bounds t hlt)]
  have hrow := h.row start
  have hcol := h.col start
  obtain ⟨hon, hgrid⟩ := h.kprintAt hlt text
  simp only [Backend.text, Backend.mode] at hrow hcol hon hgrid
  simp only [repainted, hbase, hrow, hcol, Nat.sub_eq_zero_of_le hprev, blankLoop,
    setCursorOffset_vga hon]
  exact hgrid

/- A BIOS console with the prompt in the last cell but one. -/
def bottomPrompt : Console :=
  {biosConsole with vga := ⟨Function.update (fun _ => 0) (2 * 1998) 62, 0, 0⟩}

def bottomLine : CmdState := ⟨fun _ => 0, 0, 0, 0, bottomPrompt⟩

theorem bottomPrompt_shows :
    (Backend.vga vgaText).Shows bottomPrompt (Vga.grid vgaText bottomPrompt.vga) :=
  ⟨⟨rfl, rfl⟩, rfl⟩

theorem bottomPrompt_blank (k : ℕ) (hk : 1999 ≤ k) :
    Blank (Vga.grid vgaText bottomPrompt.vga k) := by
  have hne : (2 * (k : ℤ)) ≠ 2 * 1998 := by omega
  refine Or.inl ?_
  simp only [Vga.grid, Vga.cell, bottomPrompt, Function.update_of_ne hne, ite_self]

theorem commandLine_visible_edit :
    Run.Throughout (keyStep vgaText)
      (Visible (.vga vgaText) (Vga.grid vgaText biosConsole.vga) 0)
      (flushCommandLine (initCommandLine {bottomLine with console := biosConsole} (0 : ℕ)))
      [97, kcLeft, kcDelete] := by
  have hblank : ∀ k < vgaText.cells, 0 ≤ k → Blank (Vga.grid vgaText biosConsole.vga k) :=
    fun _ _ _ => Or.inl (ite_self _)
  refine commandLine_visible (.vga vgaText) {bottomLine with console := biosConsole}
    (Vga.grid vgaText biosConsole.vga) 0 (by decide) ⟨⟨rfl, rfl⟩, rfl⟩ hblank
    [97, kcLeft, kcDelete] ⟨fun _ _ => by decide, fun _ _ => ⟨?_, fun _ _ => ⟨?_, fun _ _ => trivial⟩⟩⟩
  · intro hp
    exact absurd hp (by decide)
  · intro hp
    exact absurd hp (by decide)

/- One character typed in the last cell: it is printed there, the console
scrolls, and the cell is empty again while the command holds the character. -/
theorem lastCell_scrolls :
    (Backend.vga vgaText).Shows bottomLine.console (Vga.grid vgaText bottomPrompt.vga) ∧
    (∀ k < vgaText.cells, 1999 ≤ k → Blank (Vga.grid vgaText bottomPrompt.vga k)) ∧
    ∃ st', keyStep vgaText (flushCommandLine (initCommandLine bottomLine (1999 : ℕ))) 97 = some st' ∧
      st'.cmdLen = 1 ∧ st'.command 0 = 97 ∧ st'.console.vga.cell 1999 = 0 ∧
      ¬Visible (.vga vgaText) (Vga.grid vgaText bottomPrompt.vga) 1999 st' := by
  refine ⟨bottomPrompt_shows, fun k _ hk => bottomPrompt_blank k hk, ?_⟩
  have hwf := flushCommandLine_wellFormed (initCommandLine bottomLine (1999 : ℕ))
  have hline : lineOf (flushCommandLine (initCommandLine bottomLine (1999 : ℕ))) = emptyLine := rfl
  obtain ⟨r, hr, hd⟩ := handleCommandLine_spec vgaText hwf 97
  refine ⟨r.2, by rw [keyStep, hr]; rfl, ?_⟩
  cases hd with
  | enter hc => exact absurd hc (by decide)
  | ignored _ hp => exact absurd (hline ▸ hp) (by decide)
  | moved _ p hle hp =>
    rw [hline] at hp
    have htext := congrArg Line.text hp
    change (press emptyLine 97).text = emptyLine.text at htext
    exact absurd htext (by decide)
  | erased _ p hlt => exact absurd hlt (Nat.not_lt_zero p)
  | inserted =>
    have hshow : (Backend.vga vgaText).Shows
        (inserted (flushCommandLine (initCommandLine bottomLine (1999 : ℕ))) 97).console
        (Vga.grid vgaText bottomPrompt.vga) := by
      simp only [inserted, flushCommandLine, initCommandLine]
      rw [wrap32_cell (by decide)]
      exact (bottomPrompt_shows.setCursorOffset (by decide : 1999 < vgaText.cells)).1
    have hgrid := repainted_grid hshow (rfl : _ = ((1999 : ℕ) : ℤ)) (by decide) [97]
      (Nat.zero_le _)
    have hcell := congrFun hgrid 1999
    refine ⟨rfl, rfl, hcell, fun hv => absurd hv.onScreen (by decide)⟩

end CasseOS.Shell
