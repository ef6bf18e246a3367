import CasseOS.Screen.Framebuffer

/-! # Filled rectangles (`screen_draw_rect`, `fb_console_fill_rect`)

Both clip a rectangle to the screen, the one by its right and lower edge, the other
by its width and height. Both add coordinates of 32 bits. Where the sum wraps
around, the edge is left of the rectangle and nothing is drawn, and the width is
kept and lines run over the edge of the screen. -/

namespace CasseOS.Screen
open CInt Loop

/-- `screen_draw_rect` (`screen.c:60-77`). -/
def screenDrawRect (f : Fb) (x y width height : ℕ) (color : UInt32) : Bool × Fb :=
  if !f.ready then (false, f)
  else
    let maxX := if f.dev.width < u32 (x + width) then f.dev.width else u32 (x + width)
    let maxY := if f.dev.height < u32 (y + height) then f.dev.height else u32 (y + height)
    (true, {f with pixels := blit f.dev x y (maxX - x) (maxY - y) (fun _ _ => color) f.pixels})

/-! ### The clipped rectangle -/

/- The pixels of a rectangle that are on the screen, by their index without
wrap-around. -/
def Clipped (d : FramebufferConsole) (x y width height : ℕ) (a : ℤ) : Prop :=
  ∃ px py : ℕ, x ≤ px ∧ px < min (x + width) d.width ∧ y ≤ py ∧ py < min (y + height) d.height ∧
    a = py * d.stride + px

/- A drawing function fills the clipped rectangle and touches nothing else, whatever
the memory holds and whatever the colour is. -/
def FillsClipped (draw : Pixels → UInt32 → Pixels) (d : FramebufferConsole)
    (x y width height : ℕ) : Prop :=
  ∀ p color, Writes color (Clipped d x y width height) p (draw p color)

/- The rectangle is empty or beside the screen, or neither edge is beyond 32 bits. -/
def EdgesFit (d : FramebufferConsole) (x y width height : ℕ) : Prop :=
  (width = 0 ∨ height = 0 ∨ d.width ≤ x ∨ d.height ≤ y) ∨
    (x + width < 4294967296 ∧ y + height < 4294967296)

instance (d : FramebufferConsole) (x y width height : ℕ) :
    Decidable (EdgesFit d x y width height) :=
  inferInstanceAs (Decidable (_ ∨ _))

/- The addresses of a blit. -/
def Blitted (d : FramebufferConsole) (x y w h : ℕ) (a : ℤ) : Prop :=
  ∃ row < h, ∃ col < w, a = d.pixelIndex x (u32 (y + row)) + col

theorem blit_writes (d : FramebufferConsole) (x y w h : ℕ) (color : UInt32) (p : Pixels) :
    Writes color (Blitted d x y w h) p (blit d x y w h (fun _ _ => color) p) :=
  writes_loop (fun _ _ p => writes_loop (fun _ _ p => writes_update color _ p) p) p

theorem not_blitted {d : FramebufferConsole} {x y w h : ℕ} (he : w = 0 ∨ h = 0) (a : ℤ) :
    ¬ Blitted d x y w h a := by
  rintro ⟨row, hrow, col, hcol, -⟩
  omega

theorem not_clipped {d : FramebufferConsole} {x y w h : ℕ}
    (he : w = 0 ∨ h = 0 ∨ d.width ≤ x ∨ d.height ≤ y) (a : ℤ) : ¬ Clipped d x y w h a := by
  rintro ⟨px, py, hx, hpx, hy, hpy, -⟩
  omega

/-! ### Clipping in one direction -/

section Clip
variable {screen x w : ℕ}

/- From `x` to the right edge of the rectangle or of the screen. -/
def edgeClip (screen x w : ℕ) : ℕ :=
  (if screen < u32 (x + w) then screen else u32 (x + w)) - x

/- The width, or what is left of the screen from `x` on. -/
def lengthClip (screen x w : ℕ) : ℕ := if screen < u32 (x + w) then screen - x else w

theorem edgeClip_of_fit (hfit : x + w < 4294967296) :
    edgeClip screen x w = min (x + w) screen - x := by
  rw [edgeClip, u32_of_lt hfit]
  split_ifs with h <;> omega

theorem lengthClip_of_fit (hfit : x + w < 4294967296) :
    lengthClip screen x w = min (x + w) screen - x := by
  rw [lengthClip, u32_of_lt hfit]
  split_ifs with h <;> omega

/- A sum that wraps around is left of `x`, so of the screen's edge. -/
theorem u32_add_lt (hx : x < 4294967296) (hw : w < 4294967296) (hwrap : 4294967296 ≤ x + w) :
    u32 (x + w) < x := by
  unfold u32
  omega

theorem edgeClip_of_wrap (hw : w < 4294967296) (hx : x < 4294967296)
    (hwrap : 4294967296 ≤ x + w) : edgeClip screen x w = 0 := by
  have hsum := u32_add_lt hx hw hwrap
  rw [edgeClip]
  split_ifs with h <;> omega

theorem edgeClip_zero (screen x : ℕ) : edgeClip screen x 0 = 0 := by
  have hle : u32 (x + 0) ≤ x := Nat.mod_le _ _
  rw [edgeClip]
  split_ifs with h <;> omega

theorem edgeClip_beside (hx : screen ≤ x) : edgeClip screen x w = 0 := by
  rw [edgeClip]
  split_ifs with h <;> omega

theorem lengthClip_of_wrap (hw : w < 4294967296) (hx : x < screen) (hx' : x < 4294967296)
    (hwrap : 4294967296 ≤ x + w) : lengthClip screen x w = w := by
  have hsum := u32_add_lt hx' hw hwrap
  rw [lengthClip, if_neg (by omega)]

theorem lengthClip_pos (hw : 0 < w) (hx : x < screen) : 0 < lengthClip screen x w := by
  rw [lengthClip]
  split_ifs with h <;> omega

end Clip

section Geometry
variable {d : FramebufferConsole} {x y w h : ℕ}
  (hsize : d.height * d.stride < 4294967296) (hheight : d.height < 4294967296)
include hsize hheight

theorem pixelIndex_line {row : ℕ} (hrow : row ≤ d.height) :
    d.pixelIndex x (u32 row) = row * d.stride + x := by
  have hle : row * d.stride ≤ d.height * d.stride := Nat.mul_le_mul_right _ hrow
  rw [FramebufferConsole.pixelIndex, u32_of_lt (Nat.lt_of_le_of_lt hrow hheight),
    u32_of_lt (Nat.lt_of_le_of_lt hle hsize)]
  push_cast
  rfl

/- A blit with both lengths clipped fills the clipped rectangle. -/
theorem blitted_iff_clipped (hx : x < d.width) (hy : y < d.height) (a : ℤ) :
    Blitted d x y (min (x + w) d.width - x) (min (y + h) d.height - y) a ↔
      Clipped d x y w h a := by
  constructor
  · rintro ⟨row, hrow, col, hcol, rfl⟩
    refine ⟨x + col, y + row, by omega, by omega, by omega, by omega, ?_⟩
    rw [pixelIndex_line hsize hheight (by omega), Nat.cast_add x col, Int.add_assoc]
  · rintro ⟨px, py, hpx, hpx', hpy, hpy', rfl⟩
    refine ⟨py - y, by omega, px - x, by omega, ?_⟩
    rw [pixelIndex_line hsize hheight (by omega), Nat.add_sub_cancel' hpy, Nat.cast_sub hpx,
      Int.add_assoc, add_sub_cancel]

/- A line that is longer than what is left of the screen runs over its edge: into
the unused end of the line, or into the start of the next. -/
theorem blitted_beyond_width (hstride : d.width ≤ d.stride) (hx : 0 < x) (hy : y < d.height)
    (hw : d.width < x + w) (hx' : x < d.width) (hh : 0 < h) :
    ∃ a, Blitted d x y w h a ∧ ∀ w' h', ¬ Clipped d x y w' h' a := by
  refine ⟨y * d.stride + d.width, ⟨0, hh, d.width - x, by omega, ?_⟩, ?_⟩
  · rw [Nat.add_zero, pixelIndex_line hsize hheight (Nat.le_of_lt hy),
      Nat.cast_sub (Nat.le_of_lt hx'), Int.add_assoc, add_sub_cancel]
  · rintro w' h' ⟨px, py, hpx, hpx', hpy, hpy', he⟩
    have hpos : y * d.stride + d.width = py * d.stride + px := by exact_mod_cast he
    obtain rfl | hlt := Nat.eq_or_lt_of_le hpy
    · omega
    · have hle : (y + 1) * d.stride ≤ py * d.stride := Nat.mul_le_mul_right _ hlt
      rw [Nat.succ_mul] at hle
      omega

/- Below the last line of the screen there are more lines to write. -/
theorem blitted_beyond_height (hstride : d.width ≤ d.stride) (hy : y < d.height)
    (hh : d.height < y + h) (hw : 0 < w) :
    ∃ a, Blitted d x y w h a ∧ ∀ w' h', ¬ Clipped d x y w' h' a := by
  refine ⟨d.height * d.stride + x, ⟨d.height - y, by omega, 0, hw, ?_⟩, ?_⟩
  · rw [Nat.add_sub_cancel' (Nat.le_of_lt hy), pixelIndex_line hsize hheight le_rfl, Nat.cast_zero,
      Int.add_zero]
  · rintro w' h' ⟨px, py, hpx, hpx', hpy, hpy', he⟩
    have hpos : d.height * d.stride + x = py * d.stride + px := by exact_mod_cast he
    have hle : (py + 1) * d.stride ≤ d.height * d.stride := Nat.mul_le_mul_right _ (by omega)
    rw [Nat.succ_mul] at hle
    omega

end Geometry

/-! ### What the two functions write -/

section Functions
variable {f : Fb} {x y w h : ℕ}

/- The pixels after a call, from the pixels before it. -/
def drawRectPixels (f : Fb) (x y w h : ℕ) (p : Pixels) (color : UInt32) : Pixels :=
  (screenDrawRect {f with pixels := p} x y w h color).2.pixels

def fillRectPixels (f : Fb) (x y w h : ℕ) (p : Pixels) (color : UInt32) : Pixels :=
  (fbConsoleFillRect {f with pixels := p} x y w h color).pixels

theorem drawRect_writes (hr : f.ready = true) (p : Pixels) (color : UInt32) :
    Writes color (Blitted f.dev x y (edgeClip f.dev.width x w) (edgeClip f.dev.height y h)) p
      (drawRectPixels f x y w h p color) := by
  have hready : (!f.ready) = false := by rw [hr]; rfl
  simp only [drawRectPixels, screenDrawRect, hready, Bool.false_eq_true, if_false]
  exact blit_writes f.dev x y _ _ color p

theorem fillRect_empty (he : w = 0 ∨ h = 0 ∨ f.dev.width ≤ x ∨ f.dev.height ≤ y) (p : Pixels)
    (color : UInt32) : fillRectPixels f x y w h p color = p := by
  simp only [fillRectPixels, fbConsoleFillRect]
  by_cases h1 : (!f.ready || decide (w = 0) || decide (h = 0)) = true
  · rw [if_pos h1]
  · simp only [Bool.or_eq_true, decide_eq_true_eq, not_or] at h1
    have h2 : f.dev.width ≤ x ∨ f.dev.height ≤ y := by omega
    rw [if_pos h2]
    split_ifs <;> rfl

theorem fillRect_writes (hr : f.ready = true) (hw : 0 < w) (hh : 0 < h) (hx : x < f.dev.width)
    (hy : y < f.dev.height) (p : Pixels) (color : UInt32) :
    Writes color (Blitted f.dev x y (lengthClip f.dev.width x w) (lengthClip f.dev.height y h)) p
      (fillRectPixels f x y w h p color) := by
  have h1 : (!f.ready || decide (w = 0) || decide (h = 0)) = false := by
    simp [hr, Nat.ne_of_gt hw, Nat.ne_of_gt hh]
  have h2 : ¬(f.dev.width ≤ x ∨ f.dev.height ≤ y) := by omega
  simp only [fillRectPixels, fbConsoleFillRect, h1, Bool.false_eq_true, if_false, if_neg h2]
  exact blit_writes f.dev x y _ _ color p

end Functions

/-! ### The two compared with the clipped rectangle -/

section Compared
variable {f : Fb} {x y w h : ℕ} (hr : f.ready = true)
include hr

theorem clips_empty (he : w = 0 ∨ h = 0 ∨ f.dev.width ≤ x ∨ f.dev.height ≤ y) :
    FillsClipped (drawRectPixels f x y w h) f.dev x y w h ∧
      FillsClipped (fillRectPixels f x y w h) f.dev x y w h := by
  have hnone := not_clipped he
  refine ⟨fun p color => ?_, fun p color => ?_⟩
  · refine (drawRect_writes hr p color).congr fun a => ⟨fun ha => ?_, fun ha => absurd ha (hnone a)⟩
    refine absurd ha (not_blitted ?_ a)
    obtain rfl | rfl | hx | hy := he
    · exact Or.inl (edgeClip_zero _ _)
    · exact Or.inr (edgeClip_zero _ _)
    · exact Or.inl (edgeClip_beside hx)
    · exact Or.inr (edgeClip_beside hy)
  · rw [fillRect_empty he]
    exact .nothing hnone color p

variable (hw : 0 < w) (hh : 0 < h) (hx : x < f.dev.width) (hy : y < f.dev.height)
include hw hh hx hy

theorem clips_inside (hheight : f.dev.height < 4294967296)
    (hsize : f.dev.height * f.dev.stride < 4294967296) (hfit : x + w < 4294967296)
    (hfit' : y + h < 4294967296) :
    FillsClipped (drawRectPixels f x y w h) f.dev x y w h ∧
      FillsClipped (fillRectPixels f x y w h) f.dev x y w h := by
  have hclip := blitted_iff_clipped (w := w) (h := h) hsize hheight hx hy
  refine ⟨fun p color => ?_, fun p color => ?_⟩
  · have hdraw := drawRect_writes (x := x) (y := y) (w := w) (h := h) hr p color
    rw [edgeClip_of_fit hfit, edgeClip_of_fit hfit'] at hdraw
    exact hdraw.congr hclip
  · have hfill := fillRect_writes hr hw hh hx hy p color
    rw [lengthClip_of_fit hfit, lengthClip_of_fit hfit'] at hfill
    exact hfill.congr hclip

end Compared

section Wrapping
variable {f : Fb} {x y w h : ℕ} (hx : x < 4294967296) (hy : y < 4294967296) (hw : w < 4294967296)
  (hh : h < 4294967296) (hwrap : 4294967296 ≤ x + w ∨ 4294967296 ≤ y + h)
include hx hy hw hh hwrap

/- With an edge beyond 32 bits the one function draws nothing. -/
theorem drawRect_wraps (hr : f.ready = true) (p : Pixels) (color : UInt32) :
    drawRectPixels f x y w h p color = p := by
  have hempty : edgeClip f.dev.width x w = 0 ∨ edgeClip f.dev.height y h = 0 :=
    hwrap.imp (edgeClip_of_wrap hw hx) (edgeClip_of_wrap hh hy)
  exact (drawRect_writes hr p color).unique (.nothing (not_blitted hempty) color p)

/- The other draws beyond the screen. -/
theorem fillRect_wraps (hx' : x < f.dev.width) (hy' : y < f.dev.height) (hw' : 0 < w) (hh' : 0 < h)
    (hwidth : f.dev.width < 4294967296) (hheight : f.dev.height < 4294967296)
    (hstride : f.dev.width ≤ f.dev.stride) (hsize : f.dev.height * f.dev.stride < 4294967296) :
    ∃ a, Blitted f.dev x y (lengthClip f.dev.width x w) (lengthClip f.dev.height y h) a ∧
      ¬ Clipped f.dev x y w h a := by
  obtain hwrap | hwrap := hwrap
  · rw [lengthClip_of_wrap hw hx' hx hwrap]
    obtain ⟨a, ha, hno⟩ := blitted_beyond_width (x := x) (w := w) hsize hheight hstride (by omega)
      hy' (by omega) hx' (lengthClip_pos hh' hy')
    exact ⟨a, ha, hno w h⟩
  · rw [lengthClip_of_wrap hh hy' hy hwrap]
    obtain ⟨a, ha, hno⟩ := blitted_beyond_height (x := x) (h := h) hsize hheight hstride hy'
      (by omega) (lengthClip_pos hw' hx')
    exact ⟨a, ha, hno w h⟩

end Wrapping

/- The corner of a rectangle that is not empty and not beside the screen. -/
theorem clipped_corner {d : FramebufferConsole} {x y w h : ℕ} (hw : 0 < w) (hh : 0 < h)
    (hx : x < d.width) (hy : y < d.height) : Clipped d x y w h (y * d.stride + x) :=
  ⟨x, y, le_rfl, by omega, le_rfl, by omega, rfl⟩

/- On a ready framebuffer whose lines do not overlap and whose size is a number of
32 bits, both functions fill the clipped rectangle, and do the same, if and only if
the edges fit; else the one draws nothing and the other leaves the screen. -/
theorem rectangles_clip {f : Fb} (hr : f.ready = true) (hwidth : f.dev.width < 4294967296)
    (hheight : f.dev.height < 4294967296) (hstride : f.dev.width ≤ f.dev.stride)
    (hsize : f.dev.height * f.dev.stride < 4294967296) (x y width height : UInt32) :
    (FillsClipped (drawRectPixels f x.toNat y.toNat width.toNat height.toNat) f.dev x.toNat y.toNat
        width.toNat height.toNat ↔ EdgesFit f.dev x.toNat y.toNat width.toNat height.toNat) ∧
      (FillsClipped (fillRectPixels f x.toNat y.toNat width.toNat height.toNat) f.dev x.toNat
        y.toNat width.toNat height.toNat ↔
          EdgesFit f.dev x.toNat y.toNat width.toNat height.toNat) ∧
      ((∀ p color, drawRectPixels f x.toNat y.toNat width.toNat height.toNat p color =
        fillRectPixels f x.toNat y.toNat width.toNat height.toNat p color) ↔
          EdgesFit f.dev x.toNat y.toNat width.toNat height.toNat) := by
  have hx' := x.toNat_lt
  have hy' := y.toNat_lt
  have hw' := width.toNat_lt
  have hh' := height.toNat_lt
  generalize x.toNat = x at hx' ⊢
  generalize y.toNat = y at hy' ⊢
  generalize width.toNat = w at hw' ⊢
  generalize height.toNat = h at hh' ⊢
  have hsame : FillsClipped (drawRectPixels f x y w h) f.dev x y w h ∧
      FillsClipped (fillRectPixels f x y w h) f.dev x y w h →
      ∀ p color, drawRectPixels f x y w h p color = fillRectPixels f x y w h p color :=
    fun hboth p color => (hboth.1 p color).unique (hboth.2 p color)
  by_cases he : w = 0 ∨ h = 0 ∨ f.dev.width ≤ x ∨ f.dev.height ≤ y
  · have hboth := clips_empty hr he
    have hfit : EdgesFit f.dev x y w h := Or.inl he
    exact ⟨⟨fun _ => hfit, fun _ => hboth.1⟩, ⟨fun _ => hfit, fun _ => hboth.2⟩,
      ⟨fun _ => hfit, fun _ => hsame hboth⟩⟩
  have hw : 0 < w := by omega
  have hh : 0 < h := by omega
  have hx : x < f.dev.width := by omega
  have hy : y < f.dev.height := by omega
  by_cases hsum : x + w < 4294967296 ∧ y + h < 4294967296
  · have hboth := clips_inside hr hw hh hx hy hheight hsize hsum.1 hsum.2
    have hfit : EdgesFit f.dev x y w h := Or.inr hsum
    exact ⟨⟨fun _ => hfit, fun _ => hboth.1⟩, ⟨fun _ => hfit, fun _ => hboth.2⟩,
      ⟨fun _ => hfit, fun _ => hsame hboth⟩⟩
  · have hwrap : 4294967296 ≤ x + w ∨ 4294967296 ≤ y + h := by omega
    have hnofit : ¬ EdgesFit f.dev x y w h := fun h => h.elim he hsum
    have hdraw := drawRect_wraps hx' hy' hw' hh' hwrap hr
    have hfill := fillRect_writes hr hw hh hx hy
    obtain ⟨a, ha, hno⟩ := fillRect_wraps hx' hy' hw' hh' hwrap hx hy hw hh hwidth hheight hstride
      hsize
    have hcolors : Nontrivial UInt32 := ⟨0, 1, by decide⟩
    refine ⟨⟨fun hd => absurd ?_ hnofit, fun hf => absurd hf hnofit⟩,
      ⟨fun hd => absurd ?_ hnofit, fun hf => absurd hf hnofit⟩,
      ⟨fun hd => absurd ?_ hnofit, fun hf => absurd hf hnofit⟩⟩
    · have hcorner := (hd (fun _ => 0) 1).at_written _ (clipped_corner hw hh hx hy)
      rw [hdraw] at hcorner
      exact absurd hcorner (by decide)
    · exact absurd (((writes_iff hfill).mp hd a).mp ha) hno
    · have hpixel := (hfill (fun _ => 0) 1).at_written a ha
      rw [← hd, hdraw] at hpixel
      exact absurd hpixel (by decide)

/- A rectangle over the right edge of a screen of 64x16 pixels. -/
def smallScreen : Fb := ⟨true, ⟨64, 16, 64, 32, 8, 16⟩, fbConsoleStateInit, fun _ => 0⟩

theorem rectangles_clip_edge :
    FillsClipped (drawRectPixels smallScreen 60 0 16 4) smallScreen.dev 60 0 16 4 :=
  (rectangles_clip (f := smallScreen) rfl (by decide) (by decide) (by decide) (by decide)
    60 0 16 4).1.mpr (by decide)

/- A width that takes the right edge beyond 32 bits. -/
theorem wide_rectangles_differ :
    ¬ ∀ x y width height : UInt32,
      FillsClipped (drawRectPixels smallScreen x.toNat y.toNat width.toNat height.toNat)
          smallScreen.dev x.toNat y.toNat width.toNat height.toNat ∧
        ∀ p color, drawRectPixels smallScreen x.toNat y.toNat width.toNat height.toNat p color =
          fillRectPixels smallScreen x.toNat y.toNat width.toNat height.toNat p color := by
  intro h
  have hcorner := ((h 1 0 0xFFFFFFFF 1).1 (fun _ => 0) 1).at_written _
    (clipped_corner (by decide) (by decide) (by decide) (by decide))
  rw [drawRect_wraps (by decide) (by decide) (by decide) (by decide) (Or.inl (by decide))
    rfl] at hcorner
  exact absurd hcorner (by decide)

end CasseOS.Screen
