import CasseOS.Lib.Run
import CasseOS.Screen.Accesses

/-! # The VGA cursor under `kprint` and `kprint_backspace`

Whatever the cursor registers hold, the console stays inside the screen when it
writes. The cursor itself leaves it in one case: `kprint_backspace` at the top
left stores the position -1, which the two byte registers keep as 65535. -/

namespace CasseOS.Screen
open CInt Loop TextGrid

/- The offset is one of a byte of the screen. -/
def OnVidmem (t : TextMode) (offset : ℤ) : Prop := 0 ≤ offset ∧ offset < 2 * t.cells

section Writes
variable {t : TextMode} {s : Console}

theorem vgaGetOffset_start (row : ℕ) (h : row ≤ t.maxRows) :
    vgaGetOffset t 0 row = 2 * (row * t.maxCols : ℕ) := by
  have hle : row * t.maxCols ≤ t.cells := Nat.mul_le_mul_right _ h
  have hfits : t.cells ≤ 65536 := t.fits
  have hcell := vgaGetOffset_cell t row 0 (by omega)
  rw [Nat.add_zero] at hcell
  exact hcell

/- A byte of a line of the screen. -/
theorem onVidmem_line (row : ℕ) {k : ℕ} (hrow : row < t.maxRows) (hk : k < t.maxCols * 2) :
    OnVidmem t (2 * (row * t.maxCols : ℕ) + k) := by
  have hle : (row + 1) * t.maxCols ≤ t.cells := Nat.mul_le_mul_right _ hrow
  rw [Nat.succ_mul] at hle
  unfold OnVidmem
  omega

theorem scrollMemoryAccesses_onVidmem : ∀ a ∈ scrollMemoryAccesses t, OnVidmem t a := by
  have hrows := t.rows_pos
  intro a ha
  obtain hmove | hblank := List.mem_append.mp ha
  · obtain ⟨i, hi, ha⟩ := List.mem_flatMap.mp hmove
    obtain ⟨k, hk, ha⟩ := List.mem_flatMap.mp ha
    rw [List.mem_range] at hi hk
    have hdest := vgaGetOffset_start (t := t) i (by omega)
    have hsource := vgaGetOffset_start (t := t) (i + 1) (by omega)
    push_cast at hsource
    rw [hdest, hsource] at ha
    simp only [List.mem_cons, List.not_mem_nil, or_false] at ha
    obtain rfl | rfl := ha
    · have hline := onVidmem_line (i + 1) (by omega) hk
      push_cast at hline
      exact hline
    · have hline := onVidmem_line i (by omega) hk
      push_cast at hline
      exact hline
  · obtain ⟨k, hk, rfl⟩ := List.mem_map.mp hblank
    rw [List.mem_range] at hk
    have hlast := vgaGetOffset_start (t := t) (t.maxRows - 1) (by omega)
    rw [Nat.cast_sub hrows, Nat.cast_one] at hlast
    rw [hlast]
    exact onVidmem_line (t.maxRows - 1) (by omega) hk

/- The cursor registers hold a 16-bit position. -/
theorem getCursorOffset_position (v : Vga) : ∃ pos < 65536, v.getCursorOffset = (2 * pos : ℕ) := by
  have hh := v.cursorHigh.toNat_lt
  have hl := v.cursorLow.toNat_lt
  refine ⟨v.cursorHigh.toNat * 256 + v.cursorLow.toNat, by omega, ?_⟩
  unfold Vga.getCursorOffset
  push_cast
  ring

/- Where `print_char` prints is a cell of the screen. -/
theorem printOffset_cell {v : Vga} {col row : ℤ} (hcol : col < t.maxCols) (hrow : row < t.maxRows)
    (h : (0 ≤ col ∧ 0 ≤ row) ∨ v.getCursorOffset < 2 * t.cells) :
    ∃ pos < t.cells, v.printOffset t col row = (2 * pos : ℕ) := by
  unfold Vga.printOffset
  by_cases hnn : 0 ≤ col ∧ 0 ≤ row
  · rw [if_pos hnn]
    obtain ⟨k, rfl⟩ := Int.eq_ofNat_of_zero_le hnn.1
    obtain ⟨r, rfl⟩ := Int.eq_ofNat_of_zero_le hnn.2
    have hcell : r * t.maxCols + k < t.cells := cell_lt (by omega) (by omega)
    refine ⟨r * t.maxCols + k, hcell, ?_⟩
    rw [vgaGetOffset_cell t r k (by have hfits : t.cells ≤ 65536 := t.fits; omega)]
    push_cast
    rfl
  · rw [if_neg hnn]
    obtain ⟨pos, -, hpos⟩ := getCursorOffset_position v
    rw [hpos] at h ⊢
    exact ⟨pos, by have hlt := h.resolve_left hnn; omega, rfl⟩

/- `print_char` writes on the screen, where it is told to or at the cursor. -/
theorem printCharAccesses_onVidmem {v : Vga} (c : UInt8) {col row : ℤ}
    (h : (0 ≤ col ∧ 0 ≤ row) ∨ v.getCursorOffset < 2 * t.cells) :
    ∀ a ∈ v.printCharAccesses t c col row, OnVidmem t a := by
  have hcells : 1 ≤ t.cells := Nat.mul_pos t.rows_pos t.cols_pos
  have hlast : (2 * t.maxCols * t.maxRows : ℤ) = 2 * t.cells := by
    unfold TextMode.cells
    push_cast
    ring
  intro a ha
  unfold Vga.printCharAccesses at ha
  split at ha
  next =>
    rw [hlast] at ha
    simp only [List.mem_cons, List.not_mem_nil, or_false] at ha
    unfold OnVidmem
    omega
  next hin =>
    rw [not_or, not_le, not_le] at hin
    obtain ⟨pos, hpos, hoff⟩ := printOffset_cell hin.1 hin.2 h
    rw [hoff] at ha
    obtain hchar | hscroll := List.mem_append.mp ha
    · split at hchar
      · cases hchar
      · simp only [List.mem_cons, List.not_mem_nil, or_false] at hchar
        unfold OnVidmem
        omega
    · split at hscroll
      · exact scrollMemoryAccesses_onVidmem a hscroll
      · cases hscroll

/- The accesses are to bytes of the screen, and to no pixel. -/
def AllOnVidmem (t : TextMode) (l : List Access) : Prop :=
  ∀ a ∈ l, ∃ offset, a = .video offset ∧ OnVidmem t offset

theorem printChar_onVidmem (h : OnVga s) (c : UInt8) {col row : ℤ}
    (hwhere : (0 ≤ col ∧ 0 ≤ row) ∨ s.vga.getCursorOffset < 2 * t.cells) :
    AllOnVidmem t (printCharAccesses t s c col row) := by
  intro a ha
  simp only [printCharAccesses, usesFb_vga h, Bool.false_eq_true, if_false, h.available, if_true] at ha
  obtain ⟨offset, hoff, rfl⟩ := List.mem_map.mp ha
  exact ⟨offset, rfl, printCharAccesses_onVidmem c hwhere offset hoff⟩

/- Past the screen `print_char` leaves everything but the mark alone. -/
theorem printChar_past (h : OnVga s) {pos : ℕ} (hpos : t.cells ≤ pos) (hlt : pos < 65536) (c : UInt8) :
    (printChar t s c (pos % t.maxCols : ℕ) (pos / t.maxCols : ℕ) whiteOnBlack).1 = (2 * pos : ℕ) ∧
      (printChar t s c (pos % t.maxCols : ℕ) (pos / t.maxCols : ℕ) whiteOnBlack).2.vga.getCursorOffset =
        s.vga.getCursorOffset := by
  have hrow : t.maxRows ≤ pos / t.maxCols := (Nat.le_div_iff_mul_le t.cols_pos).mpr hpos
  have hout : (t.maxCols : ℤ) ≤ (pos % t.maxCols : ℕ) ∨ (t.maxRows : ℤ) ≤ (pos / t.maxCols : ℕ) :=
    Or.inr (by exact_mod_cast hrow)
  have hoff : vgaGetOffset t (pos % t.maxCols : ℕ) (pos / t.maxCols : ℕ) = (2 * pos : ℕ) := by
    rw [vgaGetOffset_cell t _ _ (by rw [div_mul_add_mod]; omega), div_mul_add_mod]
    push_cast
    rfl
  rw [printChar_vga h]
  unfold Vga.printChar
  simp only [if_pos hout]
  exact ⟨hoff, rfl⟩

/- Each character goes to the position the last one left. -/
theorem printChar_next (h : OnVga s) {pos : ℕ} (hlt : pos < 65536) (c : UInt8) :
    ∃ next < 65536,
      (printChar t s c (pos % t.maxCols : ℕ) (pos / t.maxCols : ℕ) whiteOnBlack).1 = (2 * next : ℕ) := by
  by_cases hpos : pos < t.cells
  · obtain ⟨hoff, -⟩ := vga_printChar_grid t s.autoCursor s.vga c whiteOnBlack hpos
    refine ⟨_, cell_bounds t (gridPut_lt t (s.vga.grid t) c hpos), ?_⟩
    rw [printChar_vga h]
    exact hoff
  · exact ⟨pos, hlt, (printChar_past h (Nat.le_of_not_lt hpos) hlt c).1⟩

theorem kprintLoop_onVidmem (h : OnVga s) {pos : ℕ} (hlt : pos < 65536) (message : List UInt8) :
    AllOnVidmem t (kprintLoopAccesses t s message (pos % t.maxCols : ℕ) (pos / t.maxCols : ℕ)) := by
  induction message generalizing s pos with
  | nil => exact fun a ha => absurd ha List.not_mem_nil
  | cons c message ih =>
    rw [kprintLoopAccesses]
    split
    · exact fun a ha => absurd ha List.not_mem_nil
    · obtain ⟨next, hnext, hoff⟩ := printChar_next (t := t) h hlt c
      have hon : OnVga (printChar t s c (pos % t.maxCols : ℕ) (pos / t.maxCols : ℕ) whiteOnBlack).2 := by
        rw [printChar_vga h]
        exact onVga_setVga h _
      have hnn : (0 : ℤ) ≤ (pos % t.maxCols : ℕ) ∧ (0 : ℤ) ≤ (pos / t.maxCols : ℕ) :=
        ⟨Int.natCast_nonneg _, Int.natCast_nonneg _⟩
      dsimp only
      rw [hoff, getVgaOffsetRow_vga hon]
      dsimp only
      rw [getVgaOffsetCol_vga hon, vgaOffsetRow_cell, vgaOffsetCol_cell]
      intro a ha
      obtain ha | ha := List.mem_append.mp ha
      · exact printChar_onVidmem h c (Or.inl hnn) a ha
      · exact ih hon hnext a ha

theorem kprint_onVidmem (h : OnVga s) (message : List UInt8) :
    AllOnVidmem t (kprintAtAccesses t s message (-1) (-1)) := by
  obtain ⟨pos, hlt, hpos⟩ := getCursorOffset_position s.vga
  have hneg : ¬((0 : ℤ) ≤ -1 ∧ (0 : ℤ) ≤ -1) := by decide
  simp only [kprintAtAccesses, h.available, Bool.not_true, Bool.false_and, Bool.false_eq_true, if_false,
    if_neg hneg, getCursorOffset_vga h, getVgaOffsetRow_vga h, getVgaOffsetCol_vga h, hpos,
    vgaOffsetRow_cell, vgaOffsetCol_cell]
  exact kprintLoop_onVidmem h hlt message

theorem backspace_onVidmem (h : OnVga s) : AllOnVidmem t (backspaceAccesses t s) := by
  obtain ⟨pos, hlt, hpos⟩ := getCursorOffset_position s.vga
  simp only [backspaceAccesses, h.available, Bool.not_true, Bool.false_and, Bool.false_eq_true, if_false,
    getCursorOffset_vga h, getVgaOffsetRow_vga h, getVgaOffsetCol_vga h, hpos]
  cases pos with
  | zero =>
    refine printChar_onVidmem h 0 (Or.inr ?_)
    have hcells : 1 ≤ t.cells := Nat.mul_pos t.rows_pos t.cols_pos
    rw [hpos]
    omega
  | succ pos =>
    have hoff : wrap32 (((2 * (pos + 1) : ℕ) : ℤ) - 2) = (2 * pos : ℕ) := by
      rw [wrap32_of_range] <;> omega
    rw [hoff, vgaOffsetRow_cell, vgaOffsetCol_cell]
    exact printChar_onVidmem h 0 (Or.inl ⟨Int.natCast_nonneg _, Int.natCast_nonneg _⟩)

end Writes

/-! ### The cursor -/

/- `kprint` or `kprint_backspace`. -/
inductive TextCall where
  | kprint (message : List UInt8)
  | kprintBackspace

def TextCall.op : TextCall → ConsoleOp
  | kprint message => .print message
  | kprintBackspace => .backspace

def textStep (s : Console) (call : TextCall) : Option Console := some (consoleStep vgaText s call.op)

/- After the call the cursor is on a cell of the screen. -/
def CursorStays (s : Console) (call : TextCall) : Prop :=
  let offset := (getCursorOffset (consoleStep vgaText s call.op)).1
  Even offset ∧ 0 ≤ offset ∧ offset < 2 * 80 * 25

/- The call changes nothing but what it is listed to access, and that is on the screen. -/
def WritesStay (s : Console) (call : TextCall) : Prop :=
  ConsoleChanges (consoleAccesses vgaText s call.op) s (consoleStep vgaText s call.op) ∧
    ∀ a ∈ consoleAccesses vgaText s call.op,
      ∃ offset, a = .video offset ∧ 0 ≤ offset ∧ offset < 2 * 80 * 25

/- It is no `kprint_backspace` with the cursor at the top left. -/
def KeepsOffTop (s : Console) (call : TextCall) : Prop :=
  call = .kprintBackspace → ¬(s.vga.cursorHigh = 0 ∧ s.vga.cursorLow = 0)

theorem cursor_top (v : Vga) : v.getCursorOffset = 0 ↔ v.cursorHigh = 0 ∧ v.cursorLow = 0 := by
  have hhigh : v.cursorHigh = 0 ↔ v.cursorHigh.toNat = 0 := UInt8.toNat_inj.symm
  have hlow : v.cursorLow = 0 ↔ v.cursorLow.toNat = 0 := UInt8.toNat_inj.symm
  rw [hhigh, hlow]
  unfold Vga.getCursorOffset
  omega

section Kept
variable {t : TextMode} {s : Console}

theorem kprintLoop_onVga (h : OnVga s) (message : List UInt8) (col row : ℤ) :
    OnVga (kprintLoop t s message col row) := by
  induction message generalizing s col row with
  | nil => exact h
  | cons c message ih =>
    rw [kprintLoop]
    split
    · exact h
    · have hon : OnVga (printChar t s c col row whiteOnBlack).2 := by
        rw [printChar_vga h]
        exact onVga_setVga h _
      dsimp only
      rw [getVgaOffsetCol_state, getVgaOffsetRow_state, usesFb_vga hon]
      dsimp only
      rw [usesFb_vga hon]
      exact ih hon _ _

theorem kprint_onVga (h : OnVga s) (message : List UInt8) : OnVga (kprint t s message) := by
  have hneg : ¬((0 : ℤ) ≤ -1 ∧ (0 : ℤ) ≤ -1) := by decide
  simp only [kprint, kprintAt, h.available, Bool.not_true, Bool.false_and, Bool.false_eq_true, if_false,
    if_neg hneg, getCursorOffset_vga h, getVgaOffsetRow_vga h, getVgaOffsetCol_vga h]
  exact kprintLoop_onVga h message _ _

theorem textCall_onVga (h : OnVga s) (call : TextCall) : OnVga (consoleStep t s call.op) := by
  cases call with
  | kprint message => exact kprint_onVga h message
  | kprintBackspace =>
    show OnVga (kprintBackspace t s)
    rw [kprintBackspace_vga h rfl]
    exact onVga_setVga h _

end Kept

theorem writesStay {s : Console} (h : OnVga s) (call : TextCall) : WritesStay s call := by
  have hon : AllOnVidmem vgaText (consoleAccesses vgaText s call.op) := by
    cases call with
    | kprint message => exact kprint_onVidmem h message
    | kprintBackspace => exact backspace_onVidmem h
  exact ⟨consoleStep_changes vgaText s call.op, hon⟩

/- At the top left `kprint_backspace` stores the position -1. -/
theorem backspace_leaves {s : Console} (h : OnVga s) (htop : s.vga.getCursorOffset = 0) :
    ¬CursorStays s .kprintBackspace := by
  have hoff : wrap32 (s.vga.getCursorOffset - 2) = -2 := by
    rw [htop]
    rfl
  have hbyte : toByte (-1) = 255 := rfl
  have hstored : ∀ v : Vga, (v.setCursorOffset (-2)).getCursorOffset = ((255 * 256 + 255 : ℕ) : ℤ) * 2 := by
    intro v
    show (((toByte (-1)).toNat * 256 + (toByte (-1)).toNat : ℕ) : ℤ) * 2 = _
    rw [hbyte]
    rfl
  have hstep : consoleStep vgaText s TextCall.kprintBackspace.op = _ := kprintBackspace_vga h hoff
  unfold CursorStays
  rw [hstep, getCursorOffset_vga (onVga_setVga h _)]
  dsimp only
  rw [hstored]
  omega

theorem keepsOffTop_of_stays {s : Console} (h : OnVga s) {call : TextCall} (hc : CursorStays s call) :
    KeepsOffTop s call := by
  rintro rfl htop
  exact backspace_leaves h ((cursor_top s.vga).mpr htop) hc

/- The screen shows an abstract console, its cursor included. -/
def OnGrid (s : Console) : Prop := ∃ g, VgaRep vgaText s g

/- A call with the cursor on the screen, backspace at the top left apart. -/
theorem textCall_onGrid {s : Console} (h : OnGrid s) (call : TextCall) (hk : KeepsOffTop s call) :
    CursorStays s call ∧ OnGrid (consoleStep vgaText s call.op) := by
  obtain ⟨g, h⟩ := h
  have hok : GridOk vgaText g call.op := by
    cases call with
    | kprint message => trivial
    | kprintBackspace =>
      have hne : ¬s.vga.getCursorOffset = 0 := fun he => hk rfl ((cursor_top s.vga).mp he)
      rw [h.cursor] at hne
      show 0 < g.pos
      omega
  have hrep := vga_step h call.op hok
  have hlt : (gridStep vgaText g call.op).pos < 25 * 80 := hrep.pos_lt
  refine ⟨?_, ⟨_, hrep⟩⟩
  unfold CursorStays
  rw [getCursorOffset_vga hrep.on]
  dsimp only
  rw [hrep.cursor]
  exact ⟨⟨_, by push_cast; ring⟩, by omega, by omega⟩

/-- After `clear_screen`, every call of a sequence of `kprint` and
`kprint_backspace` leaves the cursor on the screen exactly when no
`kprint_backspace` of the sequence finds it at the top left; the calls write to
the screen only, whichever it is. -/
theorem cursor_stays_iff (s : Console) (hs : OnVga s) (hauto : s.autoCursor = true)
    (calls : List TextCall) :
    (Run.Guarded textStep (fun s call => CursorStays s call ∧ WritesStay s call)
        (clearScreen vgaText s) calls ↔
      Run.Guarded textStep KeepsOffTop (clearScreen vgaText s) calls) ∧
    Run.Guarded textStep WritesStay (clearScreen vgaText s) calls := by
  have hclear := clearScreen_vga vgaText hs hauto
  have hgrid : OnGrid (clearScreen vgaText s) := ⟨_, hclear⟩
  have honvga : ∀ s call, OnVga s → ∀ s', textStep s call = some s' → OnVga s' := by
    rintro s call h s' ⟨⟩
    exact textCall_onVga h call
  refine ⟨⟨?_, ?_⟩, ?_⟩
  · refine Run.Guarded.of_invariant ?_ hclear.on
    intro s call h hc
    exact ⟨keepsOffTop_of_stays h hc.1, honvga s call h⟩
  · refine Run.Guarded.of_invariant ?_ hgrid
    intro s call h hk
    obtain ⟨hstay, hnext⟩ := textCall_onGrid h call hk
    obtain ⟨g, hrep⟩ := h
    refine ⟨⟨hstay, writesStay hrep.on call⟩, ?_⟩
    rintro s' ⟨⟩
    exact hnext
  · refine Run.Guarded.of_invariant ?_ hclear.on (Run.guarded_of_forall fun _ _ => trivial)
    intro s call h _
    exact ⟨writesStay h call, honvga s call h⟩

/- Typing one letter and deleting it. -/
theorem cursor_stays_typo :
    Run.Guarded textStep (fun s call => CursorStays s call ∧ WritesStay s call)
      (clearScreen vgaText biosConsole) [.kprint [97], .kprintBackspace] := by
  have hclear := clearScreen_vga vgaText (s := biosConsole) ⟨rfl, rfl⟩ rfl
  have hbehind := (kprint_rep hclear [97]).cursor
  refine (cursor_stays_iff biosConsole ⟨rfl, rfl⟩ rfl [.kprint [97], .kprintBackspace]).1.mpr ⟨nofun, ?_⟩
  rintro s ⟨⟩
  refine ⟨fun _ htop => ?_, fun _ _ => trivial⟩
  have hzero := hbehind.symm.trans ((cursor_top _).mpr htop)
  exact absurd hzero (by decide)

/- Deleting from the empty screen. -/
theorem cursor_leaves_top :
    ¬Run.Guarded textStep (fun s call => CursorStays s call ∧ WritesStay s call)
      (clearScreen vgaText biosConsole) [.kprintBackspace] := by
  have hclear := clearScreen_vga vgaText (s := biosConsole) ⟨rfl, rfl⟩ rfl
  exact fun h => backspace_leaves hclear.on hclear.cursor h.1.1

end CasseOS.Screen
