import CasseOS.Lib.TextGrid
import CasseOS.Screen.Console
import Mathlib.Tactic.Linarith

/-! # The VGA backend as a text grid

Character cells of video memory form the grid of `TextGrid`, with the byte 0 as
the blank that scrolling brings in. One `print_char` at a cell of the screen is
one `TextGrid.put`. -/

namespace CasseOS.Screen
open CInt Loop

/- Character bytes of the screen; everything past it reads as 0. -/
def Vga.grid (t : TextMode) (v : Vga) (k : ℕ) : UInt8 := if k < t.cells then v.cell k else 0

def gridPut (t : TextMode) (cell : ℕ → UInt8) (pos : ℕ) (c : UInt8) : ℕ × (ℕ → UInt8) :=
  TextGrid.put newline 0 t.maxCols t.maxRows cell pos c

theorem gridPut_lt (t : TextMode) (cell : ℕ → UInt8) {pos : ℕ} (c : UInt8) (hp : pos < t.cells) :
    (gridPut t cell pos c).1 < t.cells := TextGrid.put_lt cell c t.cols_pos hp

/-! ### Offsets and the cursor registers -/

theorem cell_bounds (t : TextMode) {pos : ℕ} (hp : pos < t.cells) : pos < 65536 :=
  Nat.lt_of_lt_of_le hp t.fits

theorem div_mul_add_mod (t : TextMode) (pos : ℕ) :
    pos / t.maxCols * t.maxCols + pos % t.maxCols = pos := by
  rw [Nat.mul_comm]
  exact Nat.div_add_mod pos t.maxCols

theorem vgaGetOffset_cell (t : TextMode) (row col : ℕ) (h : row * t.maxCols + col ≤ 131072) :
    vgaGetOffset t col row = 2 * (row * t.maxCols + col : ℕ) := by
  unfold vgaGetOffset
  rw [wrap32_of_range] <;> push_cast at * <;> omega

theorem vgaOffsetRow_cell (t : TextMode) (pos : ℕ) :
    vgaOffsetRow t (2 * pos : ℕ) = (pos / t.maxCols : ℕ) := by
  unfold vgaOffsetRow
  have h : (2 * (t.maxCols : ℤ)) = (2 * t.maxCols : ℕ) := by push_cast; ring
  rw [h, tdiv_natCast, Nat.mul_div_mul_left _ _ (by decide)]

theorem vgaOffsetCol_cell (t : TextMode) (pos : ℕ) :
    vgaOffsetCol t (2 * pos : ℕ) = (pos % t.maxCols : ℕ) := by
  unfold vgaOffsetCol
  rw [vgaOffsetRow_cell]
  have hm := div_mul_add_mod t pos
  have h : ((2 * pos : ℕ) : ℤ) - (pos / t.maxCols : ℕ) * 2 * t.maxCols =
      (2 * (pos % t.maxCols) : ℕ) := by
    have hz : ((pos / t.maxCols : ℕ) : ℤ) * t.maxCols + (pos % t.maxCols : ℕ) = pos := by
      exact_mod_cast hm
    push_cast at hz ⊢
    linarith
  have h2 : (2 : ℤ) = (2 : ℕ) := rfl
  rw [h]
  rw [h2, tdiv_natCast, Nat.mul_div_cancel_left _ (by decide)]

theorem getCursorOffset_setCursorOffset (v : Vga) {pos : ℕ} (hp : pos < 65536) :
    (v.setCursorOffset (2 * pos : ℕ)).getCursorOffset = (2 * pos : ℕ) := by
  have hpos : Int.tdiv ((2 * pos : ℕ) : ℤ) 2 = pos := by
    have h2 : (2 : ℤ) = (2 : ℕ) := rfl
    rw [h2, tdiv_natCast, Nat.mul_div_cancel_left _ (by decide)]
  have hh := toByte_toNat ((pos : ℤ) / 256)
  have hl := toByte_toNat (pos : ℤ)
  simp only [Vga.getCursorOffset, Vga.setCursorOffset, hpos]
  push_cast
  omega

/-! ### Scrolling -/

theorem moved_rows (t : TextMode) (m : ℤ → UInt8) (a : ℤ) (ha : 0 ≤ a) :
    loop (t.maxRows - 1) (fun i m =>
      memoryCopy m (vgaGetOffset t 0 i) (vgaGetOffset t 0 (i + 1)) (t.maxCols * 2)) m a =
      if a < ((t.maxRows - 1) * (2 * t.maxCols) : ℕ) then m (a + (2 * t.maxCols : ℕ)) else m a := by
  refine loop_invariant
    (fun i m' => ∀ a : ℤ, 0 ≤ a →
      m' a = if a < (i * (2 * t.maxCols) : ℕ) then m (a + (2 * t.maxCols : ℕ)) else m a)
    (t.maxRows - 1) _ m ?_ ?_ a ha
  · intro a ha
    rw [if_neg (by simp only [Nat.zero_mul]; omega)]
  · intro i m' hi hm a ha
    have hfit : (i + 1) * t.maxCols ≤ 65536 := by
      refine le_trans (Nat.mul_le_mul_right _ ?_) t.fits
      omega
    have hsucc : (i + 1) * t.maxCols = i * t.maxCols + t.maxCols := Nat.succ_mul _ _
    have hdst : vgaGetOffset t 0 i = (i * (2 * t.maxCols) : ℕ) := by
      have h := vgaGetOffset_cell t i 0 (by omega)
      push_cast at h ⊢
      rw [h]
      ring
    have hsrc : vgaGetOffset t 0 (i + 1) = ((i + 1) * (2 * t.maxCols) : ℕ) := by
      have h := vgaGetOffset_cell t (i + 1) 0 (by omega)
      push_cast at h ⊢
      rw [h]
      ring
    have hstep : (i + 1) * (2 * t.maxCols) = i * (2 * t.maxCols) + 2 * t.maxCols :=
      Nat.succ_mul _ _
    rw [memoryCopy, loop_copy _ _ _ _ (by rw [hdst, hsrc]; omega) a, hdst, hsrc, hstep]
    by_cases hin : ((i * (2 * t.maxCols) : ℕ) : ℤ) ≤ a ∧
        a < (i * (2 * t.maxCols) : ℕ) + (t.maxCols * 2 : ℕ)
    · have he : ((i * (2 * t.maxCols) + 2 * t.maxCols : ℕ) : ℤ) +
          (a - (i * (2 * t.maxCols) : ℕ)) = a + (2 * t.maxCols : ℕ) := by omega
      rw [if_pos hin, if_pos (by omega), he, hm _ (by omega), if_neg (by omega)]
    · rw [if_neg hin, hm a ha]
      by_cases hlt : a < ((i * (2 * t.maxCols) : ℕ) : ℤ)
      · rw [if_pos hlt, if_pos (by omega)]
      · rw [if_neg hlt, if_neg (by omega)]

theorem rows_eq (t : TextMode) : t.cells = (t.maxRows - 1) * t.maxCols + t.maxCols := by
  have hr := t.rows_pos
  calc t.cells = (t.maxRows - 1 + 1) * t.maxCols := by rw [Nat.sub_add_cancel hr]; rfl
    _ = (t.maxRows - 1) * t.maxCols + t.maxCols := Nat.succ_mul _ _

theorem scrollMemory_cell (t : TextMode) (m : ℤ → UInt8) {k : ℕ} (hk : k < t.cells) :
    scrollMemory t m (2 * k) = if k + t.maxCols < t.cells then m (2 * (k + t.maxCols : ℕ)) else 0 := by
  have hcells := rows_eq t
  have hfit : t.cells ≤ 65536 := t.fits
  have hr := t.rows_pos
  have hlast : vgaGetOffset t 0 (t.maxRows - 1) = ((t.maxRows - 1) * (2 * t.maxCols) : ℕ) := by
    have h := vgaGetOffset_cell t (t.maxRows - 1) 0 (by omega)
    rw [Nat.cast_sub hr] at h
    push_cast [Nat.cast_sub hr] at h ⊢
    rw [h]
    ring
  have hassoc : (t.maxRows - 1) * (2 * t.maxCols) = 2 * ((t.maxRows - 1) * t.maxCols) := by ring
  unfold scrollMemory
  rw [loop_store, hlast, hassoc]
  by_cases hin : k + t.maxCols < t.cells
  · rw [if_neg (by omega), moved_rows t m _ (by omega), hassoc, if_pos (by omega), if_pos hin]
    congr 1
    push_cast
    ring
  · rw [if_pos (by omega), if_neg hin]

/-! ### One character -/

theorem grid_write (t : TextMode) (v : Vga) {pos : ℕ} (c attr : UInt8) (hp : pos < t.cells) :
    ((v.poke (2 * pos : ℕ) c).poke ((2 * pos : ℕ) + 1) attr).grid t =
      Function.update (v.grid t) pos c := by
  funext k
  simp only [Vga.grid, Vga.cell, Vga.poke, Function.update_apply]
  rw [if_neg (by omega : ¬(2 * (k : ℤ) = (2 * pos : ℕ) + 1))]
  by_cases hk : k = pos
  · subst hk
    rw [if_pos hp, if_pos (by push_cast; rfl), if_pos rfl]
  · rw [if_neg (by omega : ¬(2 * (k : ℤ) = (2 * pos : ℕ))), if_neg hk]

theorem grid_scroll (t : TextMode) (v : Vga) :
    Vga.grid t {v with vidmem := scrollMemory t v.vidmem} =
      TextGrid.scroll 0 t.maxCols t.maxRows (v.grid t) := by
  have hcells : t.cells = t.maxRows * t.maxCols := rfl
  funext k
  simp only [Vga.grid, Vga.cell, TextGrid.scroll, ← hcells]
  by_cases hk : k < t.cells
  · rw [if_pos hk, scrollMemory_cell t v.vidmem hk]
    by_cases hin : k + t.maxCols < t.cells
    · simp only [if_pos hin]
    · simp only [if_neg hin]
  · rw [if_neg hk, if_neg (by omega)]

/- What `print_char` does after the character is stored: scroll when the offset
has left the screen, then set the cursor. -/
def Vga.finish (t : TextMode) (auto : Bool) (v : Vga) (offset : ℤ) : ℤ × Vga :=
  let (offset, v) :=
    if t.maxRows * t.maxCols * 2 ≤ offset then
      (offset - 2 * t.maxCols, {v with vidmem := scrollMemory t v.vidmem})
    else (offset, v)
  (offset, if auto then v.setCursorOffset offset else v)

theorem finish_grid (t : TextMode) (auto : Bool) (v : Vga) {next : ℕ} (hn : next ≤ t.cells) :
    (v.finish t auto (2 * next : ℕ)).1 =
        (2 * (TextGrid.settle 0 t.maxCols t.maxRows (v.grid t) next).1 : ℕ) ∧
      (v.finish t auto (2 * next : ℕ)).2.grid t =
        (TextGrid.settle 0 t.maxCols t.maxRows (v.grid t) next).2 ∧
      (auto = true → (v.finish t auto (2 * next : ℕ)).2.getCursorOffset =
        (2 * (TextGrid.settle 0 t.maxCols t.maxRows (v.grid t) next).1 : ℕ)) := by
  have hcells : t.cells = t.maxRows * t.maxCols := rfl
  have hrows := rows_eq t
  have hpos := t.cols_pos
  have hfits := t.fits
  unfold Vga.finish TextGrid.settle
  by_cases hs : t.maxRows * t.maxCols ≤ next
  · have hs' : (t.maxRows * t.maxCols * 2 : ℤ) ≤ (2 * next : ℕ) := by
      exact_mod_cast (by omega : t.maxRows * t.maxCols * 2 ≤ 2 * next)
    have hoff : ((2 * next : ℕ) : ℤ) - 2 * t.maxCols = (2 * (next - t.maxCols) : ℕ) := by omega
    simp only [if_pos hs, if_pos hs', hoff]
    refine ⟨trivial, ?_, ?_⟩
    · rw [← grid_scroll]
      cases auto <;> rfl
    · rintro rfl
      exact getCursorOffset_setCursorOffset _ (by omega)
  · have hs' : ¬(t.maxRows * t.maxCols * 2 : ℤ) ≤ (2 * next : ℕ) := by
      exact_mod_cast (by omega : ¬t.maxRows * t.maxCols * 2 ≤ 2 * next)
    simp only [if_neg hs, if_neg hs']
    refine ⟨trivial, ?_, ?_⟩
    · cases auto <;> rfl
    · rintro rfl
      exact getCursorOffset_setCursorOffset _ (by omega)

theorem vga_printChar_eq (t : TextMode) (auto : Bool) (v : Vga) {pos : ℕ} (c attr : UInt8)
    (hp : pos < t.cells) :
    v.printChar t auto c (pos % t.maxCols : ℕ) (pos / t.maxCols : ℕ) attr =
      Vga.finish t auto
        (if c = newline then v
          else (v.poke (2 * pos : ℕ) c).poke ((2 * pos : ℕ) + 1)
            (if attr = 0 then whiteOnBlack else attr))
        (2 * TextGrid.advance newline t.maxCols pos c : ℕ) := by
  have hcol := Nat.mod_lt pos t.cols_pos
  have hrow : pos / t.maxCols < t.maxRows := TextGrid.row_lt hp
  have hbound := cell_bounds t hp
  have hin : ¬((t.maxCols : ℤ) ≤ (pos % t.maxCols : ℕ) ∨ (t.maxRows : ℤ) ≤ (pos / t.maxCols : ℕ)) := by
    omega
  have hnn : (0 : ℤ) ≤ (pos % t.maxCols : ℕ) ∧ (0 : ℤ) ≤ (pos / t.maxCols : ℕ) :=
    ⟨Int.natCast_nonneg _, Int.natCast_nonneg _⟩
  have hoff : vgaGetOffset t (pos % t.maxCols : ℕ) (pos / t.maxCols : ℕ) = (2 * pos : ℕ) := by
    rw [vgaGetOffset_cell t _ _ (by rw [div_mul_add_mod]; omega), div_mul_add_mod]
    push_cast
    rfl
  unfold Vga.printChar Vga.finish TextGrid.advance
  simp only [if_neg hin, if_pos hnn, hoff]
  by_cases hc : c = newline
  · have hnext : vgaGetOffset t 0 (vgaOffsetRow t (2 * pos : ℕ) + 1) =
        (2 * ((pos / t.maxCols + 1) * t.maxCols) : ℕ) := by
      have hle : (pos / t.maxCols + 1) * t.maxCols ≤ t.cells := Nat.mul_le_mul_right _ hrow
      have hfit : t.cells ≤ 65536 := t.fits
      have h := vgaGetOffset_cell t (pos / t.maxCols + 1) 0 (by omega)
      rw [vgaOffsetRow_cell]
      push_cast at h ⊢
      rw [h, add_zero]
    simp only [if_pos hc, hnext]
  · have hnext : wrap32 ((2 * pos : ℕ) + 2) = (2 * (pos + 1) : ℕ) := by
      rw [wrap32_of_range] <;> omega
    simp only [if_neg hc, hnext]

theorem vga_printChar_grid (t : TextMode) (auto : Bool) (v : Vga) {pos : ℕ} (c attr : UInt8)
    (hp : pos < t.cells) :
    let r := v.printChar t auto c (pos % t.maxCols : ℕ) (pos / t.maxCols : ℕ) attr
    r.1 = (2 * (gridPut t (v.grid t) pos c).1 : ℕ) ∧ r.2.grid t = (gridPut t (v.grid t) pos c).2 ∧
      (auto = true → r.2.getCursorOffset = (2 * (gridPut t (v.grid t) pos c).1 : ℕ)) := by
  dsimp only
  rw [vga_printChar_eq t auto v c attr hp]
  have hle : TextGrid.advance newline t.maxCols pos c ≤ t.cells := TextGrid.advance_le newline c hp
  have h := finish_grid t auto
    (if c = newline then v
      else (v.poke (2 * pos : ℕ) c).poke ((2 * pos : ℕ) + 1)
        (if attr = 0 then whiteOnBlack else attr)) hle
  have hw : Vga.grid t (if c = newline then v
      else (v.poke (2 * pos : ℕ) c).poke ((2 * pos : ℕ) + 1)
        (if attr = 0 then whiteOnBlack else attr)) = TextGrid.write newline (v.grid t) pos c := by
    unfold TextGrid.write
    split
    · rfl
    · exact grid_write t v c _ hp
  rw [hw] at h
  exact h

end CasseOS.Screen
