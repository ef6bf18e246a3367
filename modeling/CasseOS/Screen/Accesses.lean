import CasseOS.Screen.VgaConsole

/-! # The memory the console touches

For every function of the console the pixels and the bytes of video memory that
it reads or writes, in the order of the source. Nothing outside these lists
changes. -/

namespace CasseOS.Screen
open CInt Loop

/- A pixel by its index from `fb_console.base`, or a byte of video memory by its
offset from `VIDEO_ADDRESS`. -/
inductive Access where
  | pixel (index : ℤ)
  | video (offset : ℤ)
deriving DecidableEq

/-! ### Video memory -/

/- `memory_copy`: each byte is read and written. -/
def memoryCopyAccesses (dest source : ℤ) (nbytes : ℕ) : List ℤ :=
  (List.range nbytes).flatMap fun i : ℕ => [source + i, dest + i]

/- The scrolling part of `print_char` (`screen.c:183-195`). -/
def scrollMemoryAccesses (t : TextMode) : List ℤ :=
  ((List.range (t.maxRows - 1)).flatMap fun i : ℕ =>
    memoryCopyAccesses (vgaGetOffset t 0 i) (vgaGetOffset t 0 (i + 1)) (t.maxCols * 2)) ++
  (List.range (t.maxCols * 2)).map fun i : ℕ => vgaGetOffset t 0 (t.maxRows - 1) + i

/- Where `print_char` prints, and where it goes on. -/
def Vga.printOffset (t : TextMode) (v : Vga) (col row : ℤ) : ℤ :=
  if 0 ≤ col ∧ 0 ≤ row then vgaGetOffset t col row else v.getCursorOffset

def vgaNextOffset (t : TextMode) (c : UInt8) (offset : ℤ) : ℤ :=
  if c = newline then vgaGetOffset t 0 (vgaOffsetRow t offset + 1) else wrap32 (offset + 2)

/- `print_char` (`screen.c:160-203`). -/
def Vga.printCharAccesses (t : TextMode) (v : Vga) (c : UInt8) (col row : ℤ) : List ℤ :=
  if t.maxCols ≤ col ∨ t.maxRows ≤ row then
    [2 * t.maxCols * t.maxRows - 2, 2 * t.maxCols * t.maxRows - 1]
  else
    (if c = newline then [] else [v.printOffset t col row, v.printOffset t col row + 1]) ++
    if t.maxRows * t.maxCols * 2 ≤ vgaNextOffset t c (v.printOffset t col row) then
      scrollMemoryAccesses t
    else []

/- The loop of `clear_screen` (`screen.c:273-276`). -/
def vgaClearAccesses (t : TextMode) : List ℤ :=
  (List.range (t.maxCols * t.maxRows)).flatMap fun i : ℕ => [(2 * i : ℤ), 2 * i + 1]

/-! ### Pixels -/

def blitAccesses (d : FramebufferConsole) (x y w h : ℕ) : List ℤ :=
  (List.range h).flatMap fun row =>
    (List.range w).map fun col : ℕ => d.pixelIndex x (u32 (y + row)) + col

/- `fb_console_fill_rect` (`screen.c:474-498`). -/
def fillRectAccesses (f : Fb) (x y width height : ℕ) : List ℤ :=
  if !f.ready || width = 0 || height = 0 then []
  else if f.dev.width ≤ x ∨ f.dev.height ≤ y then []
  else
    blitAccesses f.dev x y
      (if f.dev.width < u32 (x + width) then f.dev.width - x else width)
      (if f.dev.height < u32 (y + height) then f.dev.height - y else height)

/- `framebuffer_console_draw_glyph` (`framebuffer_console.c:48-83`). -/
def drawGlyphAccesses (f : Fb) (x y : ℕ) : List ℤ :=
  if !f.ready || f.dev.bpp ≠ 32 then []
  else if f.dev.glyphWidth = 0 ∨ f.dev.glyphHeight = 0 then []
  else if f.dev.width ≤ x ∨ f.dev.height ≤ y then []
  else if f.dev.width < u32 (x + f.dev.glyphWidth) ∨ f.dev.height < u32 (y + f.dev.glyphHeight) then []
  else blitAccesses f.dev x y f.dev.glyphWidth f.dev.glyphHeight

/- `fb_console_clear` (`screen.c:500-509`). -/
def fbClearAccesses (f : Fb) : List ℤ :=
  let f' := (fbConsoleUse f).2
  if (fbConsoleUse f).1 then
    fillRectAccesses f' 0 0 (u32 (f'.con.cols * f'.con.cellWidth))
      (u32 (f'.con.rows * f'.con.cellHeight))
  else []

/- The copying loops of `fb_console_scroll` read `src[x]` and write `dest[x]`
(`screen.c:531-538`). -/
def moveAccesses (d : FramebufferConsole) (copyHeight activeWidth step : ℕ) : List ℤ :=
  (List.range copyHeight).flatMap fun y : ℕ => (List.range activeWidth).flatMap fun x : ℕ =>
    [d.pixelIndex 0 (u32 (y + step)) + x, d.pixelIndex 0 y + x]

/- `fb_console_scroll` (`screen.c:511-551`). -/
def fbScrollAccesses (f : Fb) : List ℤ :=
  let f' := (fbConsoleUse f).2
  let activeWidth := u32 (f'.con.cols * f'.con.cellWidth)
  let step := f'.con.cellHeight
  let copyHeight := u32 ((f'.con.rows - 1) * step)
  if !(fbConsoleUse f).1 || (f'.con.cols = 0 ∨ f'.con.rows = 0) || (activeWidth = 0 ∨ step = 0) then []
  else
    moveAccesses f'.dev copyHeight activeWidth step ++
    blitAccesses f'.dev 0 copyHeight activeWidth
      (min (u32 (copyHeight + step)) f'.dev.height - copyHeight)

/- The glyph and the columns right of it (`screen.c:580-597`). -/
def drawCharAccesses (f : Fb) (col row : ℤ) : List ℤ :=
  let px := u32 (toU32 col * f.con.cellWidth)
  let py := u32 (toU32 row * f.con.cellHeight)
  drawGlyphAccesses f px py ++
  if f.dev.glyphWidth < f.con.cellWidth then
    fillRectAccesses f (u32 (px + f.dev.glyphWidth)) py (f.con.cellWidth - f.dev.glyphWidth)
      f.con.cellHeight
  else []

/- The cell `fb_console_print_char` prints to. -/
def fbPrintCell (f : Fb) (col row : ℤ) : ℤ × ℤ :=
  if col < 0 ∨ row < 0 then (wrap32 f.con.cursorCol, wrap32 f.con.cursorRow) else (col, row)

/- `fb_console_print_char` (`screen.c:553-609`). -/
def fbPrintCharAccesses (f : Fb) (c : UInt8) (col row : ℤ) : List ℤ :=
  let f' := (fbConsoleUse f).2
  let cell := fbPrintCell f' col row
  let cols := wrap32 f'.con.cols
  let rows := wrap32 f'.con.rows
  if !(fbConsoleUse f).1 || (cols ≤ 0 ∨ rows ≤ 0) then []
  else
    (if c = newline then [] else drawCharAccesses f' cell.1 cell.2) ++
    if rows ≤ (fbNextCell cols c cell.1 cell.2).2 then
      fbScrollAccesses (if c = newline then f' else fbDrawChar f' c cell.1 cell.2)
    else []

/-! ### The console API -/

/- `print_char`. -/
def printCharAccesses (t : TextMode) (s : Console) (c : UInt8) (col row : ℤ) : List Access :=
  if (usesFb s).1 then (fbPrintCharAccesses (usesFb s).2.fb c col row).map .pixel
  else if s.available then (s.vga.printCharAccesses t c col row).map .video
  else []

/- The printing loop of `kprint_at`. -/
def kprintLoopAccesses (t : TextMode) : Console → List UInt8 → ℤ → ℤ → List Access
  | _, [], _, _ => []
  | s, c :: message, col, row =>
    if c = 0 then []
    else
      let printed := printChar t s c col row whiteOnBlack
      let atRow := getVgaOffsetRow t printed.2 printed.1
      let atCol := getVgaOffsetCol t atRow.2 printed.1
      printCharAccesses t s c col row ++ kprintLoopAccesses t atCol.2 message atCol.1 atRow.1

/- `kprint_at`. -/
def kprintAtAccesses (t : TextMode) (s : Console) (message : List UInt8) (col row : ℤ) :
    List Access :=
  if !s.available && !s.fb.ready then []
  else if 0 ≤ col ∧ 0 ≤ row then kprintLoopAccesses t (getOffset t s col row).2 message col row
  else
    let cursor := getCursorOffset s
    let atRow := getVgaOffsetRow t cursor.2 cursor.1
    let atCol := getVgaOffsetCol t atRow.2 cursor.1
    kprintLoopAccesses t atCol.2 message atCol.1 atRow.1

/- `kprint_backspace`. -/
def backspaceAccesses (t : TextMode) (s : Console) : List Access :=
  if !s.available && !s.fb.ready then []
  else
    let cursor := getCursorOffset s
    let atRow := getVgaOffsetRow t cursor.2 (wrap32 (cursor.1 - 2))
    let atCol := getVgaOffsetCol t atRow.2 (wrap32 (cursor.1 - 2))
    printCharAccesses t atCol.2 0 atCol.1 atRow.1

/- `clear_screen`. -/
def clearAccesses (t : TextMode) (s : Console) : List Access :=
  if (usesFb s).1 then (fbClearAccesses (usesFb s).2.fb).map .pixel
  else if s.available then (vgaClearAccesses t).map .video
  else []

def consoleAccesses (t : TextMode) (s : Console) : ConsoleOp → List Access
  | .clear => clearAccesses t s
  | .print message => kprintAtAccesses t s message (-1) (-1)
  | .printAt message col row => kprintAtAccesses t s message col row
  | .setCursor _ => []
  | .backspace => backspaceAccesses t s

/-! ### Nothing else changes -/

/- The memory changes at the listed addresses only. -/
def ChangesOnly {V : Type} (l : List ℤ) (m m' : ℤ → V) : Prop := ∀ a, a ∉ l → m' a = m a

section Memory
variable {V : Type} {l l' : List ℤ} {m m' m'' : ℤ → V}

theorem ChangesOnly.refl (l : List ℤ) (m : ℤ → V) : ChangesOnly l m m := fun _ _ => rfl

theorem ChangesOnly.append (h : ChangesOnly l m m') (h' : ChangesOnly l' m' m'') :
    ChangesOnly (l ++ l') m m'' := by
  intro a ha
  rw [List.mem_append, not_or] at ha
  exact (h' a ha.2).trans (h a ha.1)

/- A loop whose rounds keep to their own lists. -/
theorem ChangesOnly.loop {n : ℕ} {body : ℕ → (ℤ → V) → ℤ → V} {acc : ℕ → List ℤ} (m : ℤ → V)
    (h : ∀ i < n, ∀ m, ChangesOnly (acc i) m (body i m)) :
    ChangesOnly ((List.range n).flatMap acc) m (Loop.loop n body m) := by
  intro a ha
  refine loop_invariant (fun _ m' => m' a = m a) n body m rfl ?_
  intro i m' hi hm
  have hnot : a ∉ acc i := fun hmem => ha (List.mem_flatMap.mpr ⟨i, List.mem_range.mpr hi, hmem⟩)
  exact (h i hi m' a hnot).trans hm

theorem changesOnly_update {a : ℤ} (ha : a ∈ l) (m : ℤ → V) (v : V) :
    ChangesOnly l m (Function.update m a v) :=
  fun b hb => Function.update_of_ne (fun he : b = a => hb (he ▸ ha)) ..

theorem flatMap_singleton (n : ℕ) (f : ℕ → ℤ) :
    (List.range n).flatMap (fun i => [f i]) = (List.range n).map f := by
  induction n with
  | zero => rfl
  | succ n ih => rw [List.range_succ, List.flatMap_append, ih, List.map_append]; rfl

/- A loop that stores once a round. -/
theorem ChangesOnly.loop_update {n : ℕ} {f : ℕ → ℤ} {val : ℕ → (ℤ → V) → V} (m : ℤ → V) :
    ChangesOnly ((List.range n).map f) m
      (Loop.loop n (fun i m => Function.update m (f i) (val i m)) m) := by
  rw [← flatMap_singleton]
  exact ChangesOnly.loop m fun i _ m => changesOnly_update (List.mem_singleton_self _) m _

end Memory

theorem memoryCopy_changes (m : ℤ → UInt8) (dest source : ℤ) (n : ℕ) :
    ChangesOnly (memoryCopyAccesses dest source n) m (memoryCopy m dest source n) :=
  ChangesOnly.loop m fun _ _ m => changesOnly_update (List.mem_cons_of_mem _ (List.mem_cons_self ..)) m _

theorem scrollMemory_changes (t : TextMode) (m : ℤ → UInt8) :
    ChangesOnly (scrollMemoryAccesses t) m (scrollMemory t m) :=
  (ChangesOnly.loop m fun _ _ m => memoryCopy_changes m _ _ _).append (ChangesOnly.loop_update _)

section Pixels
variable (f : Fb) (d : FramebufferConsole)

theorem blit_changes (x y w h : ℕ) (color : ℕ → ℕ → UInt32) (p : Pixels) :
    ChangesOnly (blitAccesses d x y w h) p (blit d x y w h color p) :=
  ChangesOnly.loop p fun _ _ p => ChangesOnly.loop_update p

theorem fillRect_changes (x y width height : ℕ) (color : UInt32) :
    ChangesOnly (fillRectAccesses f x y width height) f.pixels
      (fbConsoleFillRect f x y width height color).pixels := by
  unfold fillRectAccesses fbConsoleFillRect
  split
  · exact .refl _ _
  · split
    · exact .refl _ _
    · exact blit_changes f.dev x y _ _ _ f.pixels

theorem drawGlyph_changes (c : UInt8) (x y : ℕ) (fg bg : UInt32) :
    ChangesOnly (drawGlyphAccesses f x y) f.pixels
      (framebufferConsoleDrawGlyph f c x y fg bg).2.pixels := by
  unfold drawGlyphAccesses framebufferConsoleDrawGlyph
  split
  · exact .refl _ _
  · split
    · exact .refl _ _
    · split
      · exact .refl _ _
      · split
        · exact .refl _ _
        · exact blit_changes f.dev x y _ _ _ f.pixels

theorem fbConsoleUse_pixels : (fbConsoleUse f).2.pixels = f.pixels :=
  (congrArg Fb.pixels (fbConsoleUse_rest f)).trans rfl

/- Drawing a glyph changes pixels only. -/
theorem drawGlyph_rest (c : UInt8) (x y : ℕ) (fg bg : UInt32) :
    (framebufferConsoleDrawGlyph f c x y fg bg).2 =
      {f with pixels := (framebufferConsoleDrawGlyph f c x y fg bg).2.pixels} := by
  unfold framebufferConsoleDrawGlyph
  split_ifs <;> rfl

theorem clear_changes : ChangesOnly (fbClearAccesses f) f.pixels (fbConsoleClear f).pixels := by
  have hpixels := fbConsoleUse_pixels f
  unfold fbClearAccesses fbConsoleClear
  generalize fbConsoleUse f = r at hpixels ⊢
  obtain ⟨ok, f'⟩ := r
  dsimp only at hpixels ⊢
  rw [← hpixels]
  cases ok with
  | false => exact .refl _ _
  | true => exact fillRect_changes f' 0 0 _ _ _

theorem scroll_changes : ChangesOnly (fbScrollAccesses f) f.pixels (fbConsoleScroll f).pixels := by
  have hpixels := fbConsoleUse_pixels f
  unfold fbScrollAccesses fbConsoleScroll
  generalize fbConsoleUse f = r at hpixels ⊢
  obtain ⟨ok, f'⟩ := r
  dsimp only at hpixels ⊢
  rw [← hpixels]
  cases ok with
  | false => exact .refl _ _
  | true =>
    by_cases hgrid : f'.con.cols = 0 ∨ f'.con.rows = 0
    · simp only [hgrid, Bool.not_true, Bool.false_eq_true, if_false, if_true, decide_true, Bool.or_true,
        Bool.true_or]
      exact .refl _ _
    · by_cases hsize : u32 (f'.con.cols * f'.con.cellWidth) = 0 ∨ f'.con.cellHeight = 0
      · simp only [hgrid, hsize, Bool.not_true, Bool.false_eq_true, if_false, if_true, decide_true,
          Bool.or_true]
        exact .refl _ _
      · simp only [hgrid, hsize, Bool.not_true, Bool.false_eq_true, if_false, decide_false, Bool.or_false]
        refine ChangesOnly.append ?_ (blit_changes f'.dev 0 _ _ _ _ _)
        refine ChangesOnly.loop _ fun y _ p => ChangesOnly.loop p fun x _ p => ?_
        exact changesOnly_update (List.mem_cons_of_mem _ (List.mem_cons_self ..)) p _

theorem drawChar_changes (c : UInt8) (col row : ℤ) :
    ChangesOnly (drawCharAccesses f col row) f.pixels (fbDrawChar f c col row).pixels := by
  have hglyph := drawGlyph_changes f (if c = 0 then space else c) (u32 (toU32 col * f.con.cellWidth))
    (u32 (toU32 row * f.con.cellHeight)) f.con.fgColor f.con.bgColor
  unfold drawCharAccesses fbDrawChar
  dsimp only
  rw [drawGlyph_rest]
  generalize (framebufferConsoleDrawGlyph f _ _ _ _ _).2.pixels = p at hglyph ⊢
  refine hglyph.append ?_
  dsimp only
  split
  · exact fillRect_changes {f with pixels := p} _ _ _ _ _
  · exact .refl _ _

theorem placeCursor_changes (cols rows col row : ℤ) :
    ChangesOnly (if rows ≤ row then fbScrollAccesses f else []) f.pixels
      (fbPlaceCursor f cols rows col row).2.pixels := by
  unfold fbPlaceCursor
  by_cases hrow : rows ≤ row
  · simp only [if_pos hrow]
    exact scroll_changes f
  · simp only [if_neg hrow]
    exact .refl _ _

theorem fbPrintChar_changes (c : UInt8) (col row : ℤ) :
    ChangesOnly (fbPrintCharAccesses f c col row) f.pixels (fbConsolePrintChar f c col row).2.pixels := by
  have hpixels := fbConsoleUse_pixels f
  unfold fbPrintCharAccesses fbConsolePrintChar
  generalize fbConsoleUse f = r at hpixels ⊢
  obtain ⟨ok, f'⟩ := r
  dsimp only at hpixels ⊢
  rw [← hpixels, ← fbPrintCell]
  cases ok with
  | false => exact .refl _ _
  | true =>
    obtain ⟨col', row'⟩ := fbPrintCell f' col row
    dsimp only
    by_cases hgrid : wrap32 f'.con.cols ≤ 0 ∨ wrap32 f'.con.rows ≤ 0
    · simp only [hgrid, Bool.not_true, Bool.false_eq_true, if_false, if_true, decide_true, Bool.or_true]
      exact .refl _ _
    · simp only [hgrid, Bool.not_true, Bool.false_eq_true, if_false, decide_false, Bool.or_false]
      by_cases hc : c = newline
      · simp only [if_pos hc]
        exact placeCursor_changes f' _ _ _ _
      · simp only [if_neg hc]
        exact (drawChar_changes f' c col' row').append (placeCursor_changes _ _ _ _ _)

end Pixels

theorem vgaPrintChar_changes (t : TextMode) (auto : Bool) (v : Vga) (c : UInt8) (col row : ℤ)
    (attr : UInt8) :
    ChangesOnly (v.printCharAccesses t c col row) v.vidmem
      (v.printChar t auto c col row attr).2.vidmem := by
  unfold Vga.printCharAccesses Vga.printChar
  by_cases hout : (t.maxCols : ℤ) ≤ col ∨ (t.maxRows : ℤ) ≤ row
  · simp only [if_pos hout]
    exact (changesOnly_update (List.mem_singleton_self _) v.vidmem 69).append
      (changesOnly_update (List.mem_singleton_self _) _ redOnWhite)
  · simp only [if_neg hout]
    rw [← Vga.printOffset]
    generalize v.printOffset t col row = offset
    have hauto : ∀ (v : Vga) (offset : ℤ),
        (if auto then v.setCursorOffset offset else v).vidmem = v.vidmem := by
      intro v offset
      cases auto <;> rfl
    rw [hauto]
    by_cases hc : c = newline
    · simp only [vgaNextOffset, if_pos hc]
      split
      · exact scrollMemory_changes t _
      · exact .refl _ _
    · simp only [vgaNextOffset, if_neg hc]
      refine ((changesOnly_update (List.mem_singleton_self offset) v.vidmem c).append
        (changesOnly_update (List.mem_singleton_self (offset + 1)) _
          (if attr = 0 then whiteOnBlack else attr))).append ?_
      split
      · exact scrollMemory_changes t _
      · exact .refl _ _

theorem vgaClear_changes (t : TextMode) (v : Vga) :
    ChangesOnly (vgaClearAccesses t) v.vidmem (v.clear t).vidmem := by
  intro a ha
  show (loop (t.maxCols * t.maxRows) (fun i v =>
    (v.poke (2 * i) space).poke (2 * i + 1) whiteOnBlack) v).vidmem a = v.vidmem a
  refine loop_invariant (fun _ v' => v'.vidmem a = v.vidmem a) _ _ v rfl ?_
  intro i v' hi hv
  have hnot : a ∉ [(2 * i : ℤ), 2 * i + 1] := fun hmem =>
    ha (List.mem_flatMap.mpr ⟨i, List.mem_range.mpr hi, hmem⟩)
  have hpokes : ChangesOnly [(2 * i : ℤ), 2 * i + 1] v'.vidmem
      ((v'.poke (2 * i) space).poke (2 * i + 1) whiteOnBlack).vidmem :=
    (changesOnly_update (List.mem_singleton_self _) v'.vidmem space).append
      (changesOnly_update (List.mem_singleton_self _) _ whiteOnBlack)
  exact (hpokes a hnot).trans hv

/-! ### The console -/

/- Pixels and video memory change at the listed places only. -/
structure ConsoleChanges (l : List Access) (s s' : Console) : Prop where
  pixel : ∀ i, Access.pixel i ∉ l → s'.fb.pixels i = s.fb.pixels i
  video : ∀ offset, Access.video offset ∉ l → s'.vga.vidmem offset = s.vga.vidmem offset

section Api
variable (t : TextMode) (s : Console)

theorem ConsoleChanges.refl (l : List Access) : ConsoleChanges l s s := ⟨fun _ _ => rfl, fun _ _ => rfl⟩

theorem ConsoleChanges.append {s s' s'' : Console} {l l' : List Access} (h : ConsoleChanges l s s')
    (h' : ConsoleChanges l' s' s'') : ConsoleChanges (l ++ l') s s'' := by
  refine ⟨?_, ?_⟩
  · intro i hi
    rw [List.mem_append, not_or] at hi
    exact (h'.pixel i hi.2).trans (h.pixel i hi.1)
  · intro offset hi
    rw [List.mem_append, not_or] at hi
    exact (h'.video offset hi.2).trans (h.video offset hi.1)

/- A step without accesses before another. -/
theorem ConsoleChanges.after {s s' s'' : Console} {l : List Access} (h : ConsoleChanges [] s s')
    (h' : ConsoleChanges l s' s'') : ConsoleChanges l s s'' := h.append h'

theorem ConsoleChanges.before {s s' s'' : Console} {l : List Access} (h : ConsoleChanges l s s')
    (h' : ConsoleChanges [] s' s'') : ConsoleChanges l s s'' := by
  have happ := h.append h'
  rwa [List.append_nil] at happ

theorem changes_pixels {s s' : Console} {l : List ℤ} (h : ChangesOnly l s.fb.pixels s'.fb.pixels)
    (hvga : s'.vga.vidmem = s.vga.vidmem) : ConsoleChanges (l.map .pixel) s s' := by
  refine ⟨?_, fun offset _ => congrFun hvga offset⟩
  intro i hi
  exact h i fun hmem => hi (List.mem_map_of_mem hmem)

theorem changes_video {s s' : Console} {l : List ℤ} (h : ChangesOnly l s.vga.vidmem s'.vga.vidmem)
    (hfb : s'.fb.pixels = s.fb.pixels) : ConsoleChanges (l.map .video) s s' := by
  refine ⟨fun i _ => congrFun hfb i, ?_⟩
  intro offset hi
  exact h offset fun hmem => hi (List.mem_map_of_mem hmem)

theorem usesFb_changes : ConsoleChanges [] s (usesFb s).2 := by
  unfold usesFb
  split
  · exact ⟨fun i _ => congrFun (fbConsoleUse_pixels s.fb) i, fun _ _ => rfl⟩
  · exact .refl s []

/- The functions that compute an offset only refresh `fb_console_state`. -/
theorem getOffset_state (col row : ℤ) : (getOffset t s col row).2 = (usesFb s).2 := by
  unfold getOffset
  dsimp only
  split_ifs <;> rfl

theorem getVgaOffsetRow_state (offset : ℤ) : (getVgaOffsetRow t s offset).2 = (usesFb s).2 := by
  unfold getVgaOffsetRow
  dsimp only
  split_ifs <;> rfl

theorem getVgaOffsetCol_state (offset : ℤ) : (getVgaOffsetCol t s offset).2 = (usesFb s).2 := by
  unfold getVgaOffsetCol
  dsimp only
  split_ifs <;> rfl

theorem getCursorOffset_state : (getCursorOffset s).2 = (usesFb s).2 := by
  unfold getCursorOffset
  dsimp only
  split_ifs <;> rfl

theorem setCursorOffset_changes (offset : ℤ) : ConsoleChanges [] s (setCursorOffset s offset) := by
  refine (usesFb_changes s).after ?_
  unfold setCursorOffset
  generalize usesFb s = r
  obtain ⟨ok, s'⟩ := r
  dsimp only
  split_ifs <;> exact ⟨fun _ _ => rfl, fun _ _ => rfl⟩

/- Row and column of an offset, one after the other. -/
theorem locate_changes (offset : ℤ) :
    ConsoleChanges [] s (getVgaOffsetCol t (getVgaOffsetRow t s offset).2 offset).2 := by
  rw [getVgaOffsetCol_state, getVgaOffsetRow_state]
  exact (usesFb_changes s).after (usesFb_changes _)

theorem printChar_changes (c : UInt8) (col row : ℤ) (attr : UInt8) :
    ConsoleChanges (printCharAccesses t s c col row) s (printChar t s c col row attr).2 := by
  have huse := usesFb_changes s
  have havail : (usesFb s).2.available = s.available ∧ (usesFb s).2.vga = s.vga := by
    unfold usesFb
    split <;> exact ⟨rfl, rfl⟩
  unfold printCharAccesses printChar
  generalize usesFb s = r at huse havail ⊢
  obtain ⟨ok, s'⟩ := r
  obtain ⟨havail, hvga⟩ := havail
  dsimp only at huse havail hvga ⊢
  rw [← havail, ← hvga]
  refine huse.after ?_
  cases ok with
  | true =>
    have hprint : ConsoleChanges ((fbPrintCharAccesses s'.fb c col row).map .pixel) s'
        {s' with fb := (fbConsolePrintChar s'.fb c col row).2} :=
      changes_pixels (fbPrintChar_changes s'.fb c col row) rfl
    simp only [if_true]
    split
    · exact hprint.before (setCursorOffset_changes _ _)
    · exact hprint
  | false =>
    cases s'.available with
    | true => exact changes_video (vgaPrintChar_changes t s'.autoCursor s'.vga c col row attr) rfl
    | false =>
      show ConsoleChanges [] s' (getOffset t s' col row).2
      rw [getOffset_state]
      exact usesFb_changes s'

theorem kprintLoop_changes (message : List UInt8) (col row : ℤ) :
    ConsoleChanges (kprintLoopAccesses t s message col row) s (kprintLoop t s message col row) := by
  induction message generalizing s col row with
  | nil => exact .refl s []
  | cons c message ih =>
    rw [kprintLoopAccesses, kprintLoop]
    split
    · exact .refl s []
    · exact (printChar_changes t s c col row whiteOnBlack).append ((locate_changes t _ _).after (ih _ _ _))

theorem kprintAt_changes (message : List UInt8) (col row : ℤ) :
    ConsoleChanges (kprintAtAccesses t s message col row) s (kprintAt t s message col row) := by
  unfold kprintAtAccesses kprintAt
  split
  · exact .refl s []
  · split
    · have hstart := usesFb_changes s
      rw [← getOffset_state t s col row] at hstart
      exact hstart.after (kprintLoop_changes t _ message col row)
    · have hcursor := usesFb_changes s
      rw [← getCursorOffset_state] at hcursor
      exact hcursor.after ((locate_changes t _ _).after (kprintLoop_changes t _ message _ _))

theorem kprintBackspace_changes :
    ConsoleChanges (backspaceAccesses t s) s (kprintBackspace t s) := by
  unfold backspaceAccesses kprintBackspace
  split
  · exact .refl s []
  · have hcursor := usesFb_changes s
    rw [← getCursorOffset_state] at hcursor
    exact hcursor.after ((locate_changes t _ _).after
      ((printChar_changes t _ 0 _ _ whiteOnBlack).before (setCursorOffset_changes _ _)))

theorem clearScreen_changes : ConsoleChanges (clearAccesses t s) s (clearScreen t s) := by
  have huse := usesFb_changes s
  have havail : (usesFb s).2.available = s.available := by
    unfold usesFb
    split <;> rfl
  unfold clearAccesses clearScreen
  generalize usesFb s = r at huse havail ⊢
  obtain ⟨ok, s'⟩ := r
  dsimp only at huse havail ⊢
  rw [← havail]
  refine huse.after ?_
  cases ok with
  | true => exact changes_pixels (clear_changes s'.fb) rfl
  | false =>
    cases s'.available with
    | true => exact changes_video (vgaClear_changes t s'.vga) rfl
    | false => exact .refl s' []

end Api

/- Every operation changes only what it is listed to access. -/
theorem consoleStep_changes (t : TextMode) (s : Console) (op : ConsoleOp) :
    ConsoleChanges (consoleAccesses t s op) s (consoleStep t s op) := by
  cases op with
  | clear => exact clearScreen_changes t s
  | print message =>
    show ConsoleChanges (kprintAtAccesses t s message (-1) (-1)) s (kprint t s message)
    unfold kprint
    split
    · exact .refl s _
    · exact kprintAt_changes t s message (-1) (-1)
  | printAt message col row => exact kprintAt_changes t s message col row
  | setCursor offset => exact setCursorOffset_changes s offset
  | backspace => exact kprintBackspace_changes t s

end CasseOS.Screen
