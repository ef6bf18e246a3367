import CasseOS.Lib.TextGrid
import CasseOS.Screen.VgaConsole

/-! # Drawing on the framebuffer, pixel by pixel

Closed forms of the drawing loops on the character area of a framebuffer: what
every pixel `(px, py)` with `px < stride` holds after a `blit` or a scroll. The
character area is `9 * cols` pixels wide and `16 * rows` lines high; `NoWrap`
says that the 32-bit product `y * stride` does not wrap on any of its lines. -/

namespace CasseOS.Screen
open CInt Loop

/- A framebuffer that holds a grid of 9x16 cells the cursor can address. -/
structure FbGeometry where
  dev : FramebufferConsole
  width_lt : dev.width < 4294967296
  height_lt : dev.height < 4294967296
  stride_ge : dev.width ≤ dev.stride
  bpp : dev.bpp = 32
  glyphWidth : dev.glyphWidth = 8
  glyphHeight : dev.glyphHeight = 16
  cols_pos : 1 ≤ dev.width / 9
  rows_pos : 1 ≤ dev.height / 16
  fits : dev.height / 16 * (dev.width / 9) ≤ 65536

namespace FbGeometry
variable (g : FbGeometry)

def cols : ℕ := g.dev.width / 9
def rows : ℕ := g.dev.height / 16

/- The text mode with one cell for each character cell of the framebuffer. -/
def mode : TextMode := ⟨g.cols, g.rows, g.cols_pos, g.rows_pos, g.fits⟩

/- The offset of the last line of the character area fits 32 bits. -/
def NoWrap : Prop := (16 * g.rows - 1) * g.dev.stride < 4294967296

theorem area_width : 9 * g.cols ≤ g.dev.width := Nat.mul_div_le _ _
theorem area_height : 16 * g.rows ≤ g.dev.height := Nat.mul_div_le _ _
theorem area_stride : 9 * g.cols ≤ g.dev.stride := g.area_width.trans g.stride_ge
theorem rows_lt : g.rows ≤ 65536 :=
  (Nat.le_mul_of_pos_right _ g.cols_pos).trans g.fits
theorem cols_lt : g.cols ≤ 65536 :=
  (Nat.le_mul_of_pos_left _ g.rows_pos).trans g.fits

/- Index of pixel `(x, y)` without wrap-around. -/
def index (x y : ℕ) : ℤ := (y * g.dev.stride + x : ℕ)

variable {g}

theorem pixelIndex_eq (hw : g.NoWrap) {x y : ℕ} (hy : y < 16 * g.rows) :
    g.dev.pixelIndex x y = g.index x y := by
  have hle : y * g.dev.stride ≤ (16 * g.rows - 1) * g.dev.stride :=
    Nat.mul_le_mul_right _ (by omega)
  unfold FramebufferConsole.pixelIndex index
  rw [u32_of_lt (Nat.lt_of_le_of_lt hle hw)]

/- Positions of one line never meet those of another line. -/
theorem line_mem {x w y px py : ℕ} (hw : x + w ≤ g.dev.stride) (hpx : px < g.dev.stride) :
    (g.index x y ≤ g.index px py ∧ g.index px py < g.index x y + w) ↔
      py = y ∧ x ≤ px ∧ px < x + w := by
  unfold index
  constructor
  · rintro ⟨hlo, hhi⟩
    have hy : py = y := by
      rcases Nat.lt_trichotomy py y with hlt | heq | hgt
      · have hle : (py + 1) * g.dev.stride ≤ y * g.dev.stride := Nat.mul_le_mul_right _ hlt
        rw [Nat.succ_mul] at hle
        omega
      · exact heq
      · have hle : (y + 1) * g.dev.stride ≤ py * g.dev.stride := Nat.mul_le_mul_right _ hgt
        rw [Nat.succ_mul] at hle
        omega
    subst hy
    omega
  · rintro ⟨rfl, hlo, hhi⟩
    omega

theorem blit_pixel (hnw : g.NoWrap) {x y w h : ℕ} (hw : x + w ≤ g.dev.stride)
    (hh : y + h ≤ 16 * g.rows) (color : ℕ → ℕ → UInt32) (p : Pixels) {px : ℕ} (py : ℕ)
    (hpx : px < g.dev.stride) :
    blit g.dev x y w h color p (g.index px py) =
      if (x ≤ px ∧ px < x + w) ∧ y ≤ py ∧ py < y + h then color (px - x) (py - y)
      else p (g.index px py) := by
  have hlines : y + h < 4294967296 :=
    Nat.lt_of_le_of_lt (hh.trans g.area_height) g.height_lt
  unfold blit
  refine loop_invariant
    (fun i p' => p' (g.index px py) =
      if (x ≤ px ∧ px < x + w) ∧ y ≤ py ∧ py < y + i then color (px - x) (py - y)
      else p (g.index px py)) h _ p ?_ ?_
  · rw [if_neg (by omega)]
  · intro i p' hi hp
    rw [u32_of_lt (by omega : y + i < 4294967296), pixelIndex_eq hnw (by omega), loop_store]
    by_cases hline : py = y + i ∧ x ≤ px ∧ px < x + w
    · have hcol : (g.index px py - g.index x (y + i)).toNat = px - x := by
        rw [hline.1]
        unfold index
        omega
      have hrow : py - y = i := by omega
      rw [if_pos ((line_mem hw hpx).mpr hline), hcol, if_pos (by omega), hrow]
    · rw [if_neg (mt (line_mem hw hpx).mp hline), hp]
      by_cases hin : (x ≤ px ∧ px < x + w) ∧ y ≤ py ∧ py < y + i
      · rw [if_pos hin, if_pos (by omega)]
      · rw [if_neg hin, if_neg (by omega)]

/-- The copying loops of `fb_console_scroll`, on the character area. -/
theorem moved_pixel (hnw : g.NoWrap) (p : Pixels) {px : ℕ} (py : ℕ) (hpx : px < g.dev.stride) :
    loop (16 * g.rows - 16) (fun y p => loop (9 * g.cols) (fun x p =>
      Function.update p (g.dev.pixelIndex 0 y + x)
        (p (g.dev.pixelIndex 0 (u32 (y + 16)) + x))) p) p (g.index px py) =
      if px < 9 * g.cols ∧ py < 16 * g.rows - 16 then p (g.index px (py + 16))
      else p (g.index px py) := by
  have harea := g.area_stride
  have hheight := g.area_height
  have hlt := g.height_lt
  refine loop_invariant
    (fun i p' => ∀ px < g.dev.stride, ∀ py, p' (g.index px py) =
      if px < 9 * g.cols ∧ py < i then p (g.index px (py + 16)) else p (g.index px py))
    (16 * g.rows - 16) _ p ?_ ?_ px hpx py
  · intro px _ py
    rw [if_neg (by omega)]
  · intro i p' hi hp px hpx py
    have hsrc : g.index 0 (i + 16) = g.index 0 i + (16 * g.dev.stride : ℕ) := by
      unfold index
      push_cast
      ring
    rw [u32_of_lt (by omega : i + 16 < 4294967296), pixelIndex_eq hnw (by omega),
      pixelIndex_eq hnw (by omega), loop_copy _ _ _ _ (by rw [hsrc]; omega)]
    by_cases hline : py = i ∧ 0 ≤ px ∧ px < 0 + 9 * g.cols
    · have hfrom : g.index 0 (i + 16) + (g.index px py - g.index 0 i) = g.index px (py + 16) := by
        rw [hline.1, hsrc]
        unfold index
        push_cast
        ring
      rw [if_pos ((line_mem (by omega) hpx).mpr hline), hfrom, hp px hpx (py + 16),
        if_neg (by omega), if_pos (by omega)]
    · rw [if_neg (mt (line_mem (by omega) hpx).mp hline), hp px hpx py]
      by_cases hin : px < 9 * g.cols ∧ py < i
      · rw [if_pos hin, if_pos (by omega)]
      · rw [if_neg hin, if_neg (by omega)]

end FbGeometry
end CasseOS.Screen
