import CasseOS.Screen.VgaGrid
import Mathlib.Data.List.TakeWhile

/-! # The console API on the VGA backend

`Grid` is the abstract console: what the cells hold and where the cursor is.
`gridStep` gives each operation of the API its meaning there. On the VGA
backend with auto cursor on, every operation refines it (`vga_step`), and a
sequence of `kprint` calls shows the last rows of the endless page. -/

namespace CasseOS.Screen
open CInt Loop TextGrid

/- The bytes of a C string. -/
def cstr (message : List UInt8) : List UInt8 := message.takeWhile (· ≠ 0)

structure Grid where
  cell : ℕ → UInt8
  pos : ℕ

def gridPuts (t : TextMode) (cell : ℕ → UInt8) (pos : ℕ) (text : List UInt8) : ℕ × (ℕ → UInt8) :=
  TextGrid.puts newline 0 t.maxCols t.maxRows cell pos text

def blankCell (t : TextMode) (k : ℕ) : UInt8 := if k < t.cells then space else 0

def gridStep (t : TextMode) (g : Grid) : ConsoleOp → Grid
  | .clear => ⟨blankCell t, 0⟩
  | .print message =>
    let r := gridPuts t g.cell g.pos (cstr message)
    ⟨r.2, r.1⟩
  | .printAt message col row =>
    let r := gridPuts t g.cell (row.toNat * t.maxCols + col.toNat) (cstr message)
    ⟨r.2, if cstr message = [] then g.pos else r.1⟩
  | .setCursor offset => ⟨g.cell, offset.toNat / 2⟩
  | .backspace => ⟨Function.update g.cell (g.pos - 1) 0, g.pos - 1⟩

/- Operations whose coordinates are on the screen. -/
def GridOk (t : TextMode) (g : Grid) : ConsoleOp → Prop
  | .clear | .print _ => True
  | .printAt _ col row => (0 ≤ col ∧ col < t.maxCols) ∧ (0 ≤ row ∧ row < t.maxRows)
  | .setCursor offset => 0 ≤ offset ∧ offset < 2 * t.cells
  | .backspace => 0 < g.pos

theorem gridPuts_lt (t : TextMode) (cell : ℕ → UInt8) {pos : ℕ} (text : List UInt8)
    (hp : pos < t.cells) : (gridPuts t cell pos text).1 < t.cells := by
  unfold gridPuts
  induction text generalizing cell pos with
  | nil => exact hp
  | cons c text ih => exact ih _ (gridPut_lt t cell c hp)

/-! ### The functions of the API on the VGA backend -/

structure OnVga (s : Console) : Prop where
  available : s.available = true
  notReady : s.fb.ready = false

section Api
variable {t : TextMode} {s : Console}

theorem usesFb_vga (h : OnVga s) : usesFb s = (false, s) := by
  simp only [usesFb, h.notReady, Bool.false_eq_true, if_false]

theorem getVgaOffsetRow_vga (h : OnVga s) (offset : ℤ) :
    getVgaOffsetRow t s offset = (vgaOffsetRow t offset, s) := by
  simp only [getVgaOffsetRow, usesFb_vga h, Bool.false_eq_true, if_false]

theorem getVgaOffsetCol_vga (h : OnVga s) (offset : ℤ) :
    getVgaOffsetCol t s offset = (vgaOffsetCol t offset, s) := by
  simp only [getVgaOffsetCol, usesFb_vga h, Bool.false_eq_true, if_false]

theorem getCursorOffset_vga (h : OnVga s) : getCursorOffset s = (s.vga.getCursorOffset, s) := by
  simp only [getCursorOffset, usesFb_vga h, h.available, Bool.false_eq_true, if_false, Bool.not_true]

theorem getOffset_vga (h : OnVga s) (col row : ℤ) :
    getOffset t s col row = (vgaGetOffset t col row, s) := by
  simp only [getOffset, usesFb_vga h, Bool.false_eq_true, if_false]

theorem setCursorOffset_vga (h : OnVga s) (offset : ℤ) :
    setCursorOffset s offset = {s with vga := s.vga.setCursorOffset offset} := by
  simp only [setCursorOffset, usesFb_vga h, h.available, Bool.false_eq_true, if_false, Bool.not_true]

theorem printChar_vga (h : OnVga s) (c : UInt8) (col row : ℤ) (attr : UInt8) :
    printChar t s c col row attr =
      ((s.vga.printChar t s.autoCursor c col row attr).1,
        {s with vga := (s.vga.printChar t s.autoCursor c col row attr).2}) := by
  simp only [printChar, usesFb_vga h, h.available, Bool.false_eq_true, if_false, Bool.not_true]

theorem onVga_setVga (h : OnVga s) (v : Vga) : OnVga {s with vga := v} := ⟨h.available, h.notReady⟩

/- The state after printing a string: only the VGA part changes, cell by cell
as the grid does; the cursor follows when auto cursor is on. -/
structure Printed (t : TextMode) (s : Console) (pos : ℕ) (text : List UInt8) (s' : Console) :
    Prop where
  only_vga : s' = {s with vga := s'.vga}
  grid : s'.vga.grid t = (gridPuts t (s.vga.grid t) pos text).2
  cursor : s.autoCursor = true → text ≠ [] →
    s'.vga.getCursorOffset = (2 * (gridPuts t (s.vga.grid t) pos text).1 : ℕ)
  registers : text = [] → s'.vga = s.vga

theorem Printed.onVga {s' : Console} {pos : ℕ} {text : List UInt8} (hpr : Printed t s pos text s')
    (h : OnVga s) : OnVga s' := by
  rw [hpr.only_vga]
  exact onVga_setVga h _

theorem kprintLoop_vga (h : OnVga s) {pos : ℕ} (message : List UInt8) (hp : pos < t.cells) :
    Printed t s pos (cstr message)
      (kprintLoop t s message (pos % t.maxCols : ℕ) (pos / t.maxCols : ℕ)) := by
  induction message generalizing s pos with
  | nil => exact ⟨rfl, rfl, fun _ hne => absurd rfl hne, fun _ => rfl⟩
  | cons c message ih =>
    by_cases hc : c = 0
    · have hnil : cstr (c :: message) = [] := by simp [cstr, hc]
      simp only [kprintLoop, if_pos hc, hnil]
      exact ⟨rfl, rfl, fun _ hne => absurd rfl hne, fun _ => rfl⟩
    · have hcons : cstr (c :: message) = c :: cstr message := by simp [cstr, hc]
      have hput := gridPut_lt t (s.vga.grid t) c hp
      obtain ⟨hoff, hgrid, hcur⟩ := vga_printChar_grid t s.autoCursor s.vga c whiteOnBlack hp
      simp only [kprintLoop, if_neg hc, printChar_vga h, hcons]
      rw [getVgaOffsetRow_vga (onVga_setVga h _)]
      dsimp only
      rw [getVgaOffsetCol_vga (onVga_setVga h _), hoff, vgaOffsetRow_cell, vgaOffsetCol_cell]
      obtain ⟨honly, hg, hcursor, hreg⟩ := ih (onVga_setVga h
        (s.vga.printChar t s.autoCursor c (pos % t.maxCols : ℕ) (pos / t.maxCols : ℕ)
          whiteOnBlack).2) hput
      refine ⟨by rw [honly], ?_, ?_, fun hnil => absurd hnil (List.cons_ne_nil _ _)⟩
      · rw [hg]
        dsimp only
        rw [hgrid]
        rfl
      · intro hauto _
        by_cases hnil : cstr message = []
        · rw [hreg hnil, hcur hauto, hnil]
          rfl
        · rw [hcursor hauto hnil]
          dsimp only
          rw [hgrid]
          rfl

theorem kprintAt_vga (h : OnVga s) {pos : ℕ} (message : List UInt8) (hp : pos < t.cells) :
    Printed t s pos (cstr message)
      (kprintAt t s message (pos % t.maxCols : ℕ) (pos / t.maxCols : ℕ)) := by
  have hnn : (0 : ℤ) ≤ (pos % t.maxCols : ℕ) ∧ (0 : ℤ) ≤ (pos / t.maxCols : ℕ) :=
    ⟨Int.natCast_nonneg _, Int.natCast_nonneg _⟩
  simp only [kprintAt, h.available, Bool.not_true, Bool.false_and, Bool.false_eq_true, if_false,
    if_pos hnn, getOffset_vga h]
  exact kprintLoop_vga h message hp

theorem kprint_vga (h : OnVga s) {pos : ℕ} (message : List UInt8) (hp : pos < t.cells)
    (hcur : s.vga.getCursorOffset = (2 * pos : ℕ)) :
    Printed t s pos (cstr message) (kprint t s message) := by
  have hneg : ¬((0 : ℤ) ≤ -1 ∧ (0 : ℤ) ≤ -1) := by decide
  simp only [kprint, kprintAt, h.available, Bool.not_true, Bool.false_and, Bool.false_eq_true,
    if_false, if_neg hneg, getCursorOffset_vga h, getVgaOffsetRow_vga h, getVgaOffsetCol_vga h,
    hcur, vgaOffsetRow_cell, vgaOffsetCol_cell]
  exact kprintLoop_vga h message hp

end Api

/-! ### Refinement of the abstract console -/

structure VgaRep (t : TextMode) (s : Console) (g : Grid) : Prop where
  on : OnVga s
  auto : s.autoCursor = true
  grid : s.vga.grid t = g.cell
  cursor : s.vga.getCursorOffset = (2 * g.pos : ℕ)
  pos_lt : g.pos < t.cells

theorem clear_cells (t : TextMode) (v : Vga) (k : ℕ) :
    (loop (t.maxCols * t.maxRows) (fun i v =>
      (v.poke (2 * i) space).poke (2 * i + 1) whiteOnBlack) v).cell k =
      if k < t.cells then space else v.cell k := by
  have hcells : t.maxCols * t.maxRows = t.cells := Nat.mul_comm _ _
  refine hcells ▸ loop_invariant
    (fun i v' => v'.cell k = if k < i then space else v.cell k) (t.maxCols * t.maxRows) _ v ?_ ?_
  · rw [if_neg (Nat.not_lt_zero k)]
  · intro i v' _ hv
    simp only [Vga.cell, Vga.poke, Function.update_apply] at hv ⊢
    rw [if_neg (by omega : ¬(2 * (k : ℤ) = 2 * i + 1))]
    by_cases hk : k = i
    · subst hk
      rw [if_pos rfl, if_pos (Nat.lt_succ_self k)]
    · rw [if_neg (by omega : ¬(2 * (k : ℤ) = 2 * i)), hv]
      by_cases hlt : k < i
      · rw [if_pos hlt, if_pos (by omega)]
      · rw [if_neg hlt, if_neg (by omega)]

theorem vgaGetOffset_zero (t : TextMode) : vgaGetOffset t 0 0 = (2 * 0 : ℕ) := by
  unfold vgaGetOffset
  rw [zero_mul, add_zero, mul_zero, wrap32_of_range (by omega) (by omega)]
  rfl

theorem cell_setCursorOffset (v : Vga) (offset : ℤ) (k : ℕ) :
    (v.setCursorOffset offset).cell k = v.cell k := rfl

theorem clear_grid (t : TextMode) (v : Vga) : (v.clear t).grid t = blankCell t := by
  funext k
  have hk : (v.clear t).cell k = if k < t.cells then space else v.cell k := by
    unfold Vga.clear
    exact (cell_setCursorOffset _ _ k).trans (clear_cells t v k)
  unfold Vga.grid blankCell
  rw [hk]
  by_cases hlt : k < t.cells
  · simp only [if_pos hlt]
  · simp only [if_neg hlt]

theorem clear_cursor (t : TextMode) (v : Vga) :
    (v.clear t).getCursorOffset = (2 * 0 : ℕ) := by
  unfold Vga.clear
  rw [vgaGetOffset_zero]
  exact getCursorOffset_setCursorOffset _ (by omega)

theorem clearScreen_vga_eq (t : TextMode) {s : Console} (h : OnVga s) :
    clearScreen t s = {s with vga := s.vga.clear t} := by
  simp only [clearScreen, usesFb_vga h, h.available, Bool.false_eq_true, if_false, Bool.not_true]

theorem clearScreen_vga (t : TextMode) {s : Console} (h : OnVga s) (hauto : s.autoCursor = true) :
    VgaRep t (clearScreen t s) ⟨blankCell t, 0⟩ := by
  have hpos : 0 < t.cells := Nat.mul_pos t.rows_pos t.cols_pos
  rw [clearScreen_vga_eq t h]
  exact ⟨onVga_setVga h _, hauto, clear_grid t s.vga, clear_cursor t s.vga, hpos⟩

theorem printed_vga {t : TextMode} {s s' : Console} {g : Grid} {pos : ℕ} {text : List UInt8}
    (h : VgaRep t s g) (hp : pos < t.cells) (hpr : Printed t s pos text s') :
    VgaRep t s' ⟨(gridPuts t g.cell pos text).2,
      if text = [] then g.pos else (gridPuts t g.cell pos text).1⟩ := by
  have hgrid := h.grid
  have hon := hpr.onVga h.on
  obtain ⟨honly, hg, hcur, hreg⟩ := hpr
  rw [hgrid] at hg hcur
  refine ⟨hon, ?_, hg, ?_, ?_⟩
  · rw [honly]
    exact h.auto
  · by_cases hnil : text = []
    · rw [if_pos hnil, hreg hnil]
      exact h.cursor
    · rw [if_neg hnil]
      exact hcur h.auto hnil
  · dsimp only
    split
    · exact h.pos_lt
    · exact gridPuts_lt t g.cell text hp

theorem kprint_rep {t : TextMode} {s : Console} {g : Grid} (h : VgaRep t s g)
    (message : List UInt8) : VgaRep t (kprint t s message) (gridStep t g (.print message)) := by
  have hr := printed_vga h h.pos_lt (kprint_vga h.on message h.pos_lt h.cursor)
  have hpos : (if cstr message = [] then g.pos else (gridPuts t g.cell g.pos (cstr message)).1) =
      (gridPuts t g.cell g.pos (cstr message)).1 := by
    split
    next hnil => rw [hnil]; rfl
    next => rfl
  rw [hpos] at hr
  exact hr

theorem setCursorOffset_rep {t : TextMode} {s : Console} {g : Grid} (h : VgaRep t s g) {pos : ℕ}
    (hp : pos < t.cells) : VgaRep t (setCursorOffset s (2 * pos : ℕ)) ⟨g.cell, pos⟩ := by
  rw [setCursorOffset_vga h.on]
  exact ⟨onVga_setVga h.on _, h.auto, h.grid,
    getCursorOffset_setCursorOffset _ (cell_bounds t hp), hp⟩

/- The byte registers of the cursor only see `offset / 2`. -/
theorem setCursorOffset_half (s : Console) (h : OnVga s) {offset : ℤ} (h0 : 0 ≤ offset) :
    setCursorOffset s offset = setCursorOffset s (2 * (offset.toNat / 2) : ℕ) := by
  have h2 : (2 : ℤ) = (2 : ℕ) := rfl
  have hhalf : offset.tdiv 2 = Int.tdiv ((2 * (offset.toNat / 2) : ℕ) : ℤ) 2 := by
    obtain ⟨n, rfl⟩ := Int.eq_ofNat_of_zero_le h0
    rw [h2, tdiv_natCast, tdiv_natCast, Int.toNat_natCast, Nat.mul_div_cancel_left _ (by decide)]
  simp only [setCursorOffset_vga h, Vga.setCursorOffset, hhalf]

/- Printing NUL at the cell before the cursor neither wraps nor scrolls. -/
theorem gridPut_zero (t : TextMode) (cell : ℕ → UInt8) {pos : ℕ} (hp : pos + 1 < t.cells) :
    gridPut t cell pos 0 = (pos + 1, Function.update cell pos 0) := by
  have hn : ¬((0 : UInt8) = newline) := by decide
  have hs : ¬t.maxRows * t.maxCols ≤ pos + 1 := Nat.not_le.mpr hp
  simp only [gridPut, TextGrid.put, settle, advance, TextGrid.write, if_neg hn, if_neg hs]

theorem kprintBackspace_vga {t : TextMode} {s : Console} (h : OnVga s) {offset : ℤ}
    (hoff : wrap32 (s.vga.getCursorOffset - 2) = offset) :
    kprintBackspace t s = {s with vga := (s.vga.printChar t s.autoCursor 0 (vgaOffsetCol t offset)
      (vgaOffsetRow t offset) whiteOnBlack).2.setCursorOffset offset} := by
  have hav : (!s.available && !s.fb.ready) = false := by rw [h.available]; rfl
  simp only [kprintBackspace, hav, Bool.false_eq_true, if_false, getCursorOffset_vga h, hoff,
    getVgaOffsetRow_vga h, getVgaOffsetCol_vga h, printChar_vga h]
  rw [setCursorOffset_vga (onVga_setVga h _)]

theorem kprintBackspace_rep {t : TextMode} {s : Console} {g : Grid} (h : VgaRep t s g)
    (hpos : 0 < g.pos) : VgaRep t (kprintBackspace t s) (gridStep t g .backspace) := by
  have hlt := h.pos_lt
  have hprev : g.pos - 1 < t.cells := by omega
  have hbound := cell_bounds t hlt
  have hoff : wrap32 (s.vga.getCursorOffset - 2) = (2 * (g.pos - 1) : ℕ) := by
    rw [h.cursor, wrap32_of_range] <;> omega
  obtain ⟨-, hgrid, -⟩ := vga_printChar_grid t s.autoCursor s.vga 0 whiteOnBlack hprev
  rw [h.grid, gridPut_zero t g.cell (by omega)] at hgrid
  rw [kprintBackspace_vga h.on hoff, vgaOffsetRow_cell, vgaOffsetCol_cell]
  exact ⟨onVga_setVga h.on _, h.auto, hgrid,
    getCursorOffset_setCursorOffset _ (cell_bounds t hprev), hprev⟩

theorem vga_step {t : TextMode} {s : Console} {g : Grid} (h : VgaRep t s g) (op : ConsoleOp)
    (hok : GridOk t g op) : VgaRep t (consoleStep t s op) (gridStep t g op) := by
  cases op with
  | clear => exact clearScreen_vga t h.on h.auto
  | print message => exact kprint_rep h message
  | printAt message col row =>
    obtain ⟨⟨hc0, hc⟩, hr0, hr⟩ := hok
    obtain ⟨k, rfl⟩ := Int.eq_ofNat_of_zero_le hc0
    obtain ⟨r, rfl⟩ := Int.eq_ofNat_of_zero_le hr0
    have hk : k < t.maxCols := by omega
    have hcell : r * t.maxCols + k < t.cells := cell_lt (by omega) hk
    have hpr := kprintAt_vga h.on message hcell
    rw [cell_div r hk, cell_mod r hk] at hpr
    exact printed_vga h hcell hpr
  | setCursor offset =>
    obtain ⟨h0, h1⟩ := hok
    show VgaRep t (setCursorOffset s offset) _
    rw [setCursorOffset_half s h.on h0]
    exact setCursorOffset_rep h (by omega)
  | backspace => exact kprintBackspace_rep h hok

/-! ### The endless page -/

/- Bytes that look like an empty cell. -/
def Blank (b : UInt8) : Prop := b = 0 ∨ b = space

theorem kprint_run {t : TextMode} (messages : List (List UInt8)) {s : Console} {g : Grid}
    (h : VgaRep t s g) (hnul : ∀ m ∈ messages, 0 ∉ m) :
    VgaRep t (messages.foldl (kprint t) s)
      ⟨(gridPuts t g.cell g.pos messages.flatten).2, (gridPuts t g.cell g.pos messages.flatten).1⟩ := by
  induction messages generalizing s g with
  | nil => exact h
  | cons m messages ih =>
    have hm : cstr m = m := by
      refine List.takeWhile_eq_self_iff.mpr ?_
      intro c hc
      have h0 : c ≠ 0 := fun he => hnul m (List.mem_cons_self ..) (he ▸ hc)
      simpa using h0
    have hr := ih (kprint_rep h m) fun m' hm' => hnul m' (List.mem_cons_of_mem _ hm')
    have happ : ∀ (a b : List UInt8) (cell : ℕ → UInt8) (pos : ℕ),
        gridPuts t (gridPuts t cell pos a).2 (gridPuts t cell pos a).1 b =
          gridPuts t cell pos (a ++ b) := by
      intro a
      induction a with
      | nil => intro b cell pos; rfl
      | cons c a iha => intro b cell pos; exact iha b _ _
    simp only [gridStep, hm, happ] at hr
    exact hr

/-- After `clear_screen`, any sequence of `kprint` calls leaves the last 25
rows of the text on the screen and the cursor where the text ends. -/
theorem kprint_shows_page (s : Console) (hs : OnVga s) (hauto : s.autoCursor = true)
    (messages : List (List UInt8)) (hnul : ∀ m ∈ messages, 0 ∉ m) :
    let s' := messages.foldl (kprint vgaText) (clearScreen vgaText s)
    let page := layout newline 80 messages.flatten
    (∀ r < 25, ∀ k < 80,
      Shows Blank (s'.vga.cell (r * 80 + k)) (page.cells (page.row - 24 + r) k)) ∧
    (getCursorOffset s').1 = (2 * ((page.row - (page.row - 24)) * 80 + page.col) : ℕ) := by
  have h0 := clearScreen_vga vgaText hs hauto
  have hrun := kprint_run messages h0 hnul
  have hblank : ∀ k < 25 * 80, Blank (blankCell vgaText k) := by
    intro k hk
    exact Or.inr (if_pos hk)
  have hwin := window_puts newline (Or.inl rfl : Blank 0) (by decide) messages.flatten
    (window_empty (by decide : 0 < 80) hblank)
  refine ⟨?_, ?_⟩
  · intro r hr k hk
    have hcell : r * 80 + k < vgaText.cells := by
      show r * 80 + k < 25 * 80
      omega
    have hgrid := congrFun hrun.grid (r * 80 + k)
    rw [Vga.grid, if_pos hcell] at hgrid
    rw [hgrid]
    exact hwin.shows r hr k hk
  · rw [getCursorOffset_vga hrun.on]
    exact hrun.cursor.trans (congrArg (fun n : ℕ => ((2 * n : ℕ) : ℤ)) hwin.pos_eq)

/- The console of a BIOS boot: VGA text, no framebuffer. -/
def biosConsole : Console :=
  ⟨true, true, ⟨fun _ => 0, 0, 0⟩, ⟨false, ⟨0, 0, 0, 0, 0, 0⟩, fbConsoleStateInit, fun _ => 0⟩⟩

theorem kprint_shows_page_hi :
    let s' := [[104, 105], [10]].foldl (kprint vgaText) (clearScreen vgaText biosConsole)
    s'.vga.cell 0 = 104 ∧ s'.vga.cell 1 = 105 ∧ (getCursorOffset s').1 = 160 := by
  have h := kprint_shows_page biosConsole ⟨rfl, rfl⟩ rfl [[104, 105], [10]] (by decide)
  exact ⟨h.1 0 (by decide) 0 (by decide), h.1 0 (by decide) 1 (by decide), h.2⟩

end CasseOS.Screen
