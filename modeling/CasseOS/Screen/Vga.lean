import CasseOS.Lib.CInt
import CasseOS.Lib.Loop

/-! # VGA text backend (`drivers/screen/screen.c`)

Video memory is a byte memory addressed by the offset from `VIDEO_ADDRESS`;
cell `k` is the character byte at offset `2 * k` and the attribute byte after
it. The CRTC keeps the cursor position in the two byte registers 14 and 15.
`MAX_COLS` and `MAX_ROWS` are the fields of a `TextMode`; `vgaText` holds the
values of `screen.h`. -/

namespace CasseOS.Screen
open CInt Loop

/- Column and row counts of a text screen whose cells the 16-bit cursor
position can all name. -/
structure TextMode where
  maxCols : ℕ
  maxRows : ℕ
  cols_pos : 0 < maxCols
  rows_pos : 0 < maxRows
  fits : maxRows * maxCols ≤ 65536

/-- `MAX_COLS` and `MAX_ROWS` (`screen.h:5-6`). -/
def vgaText : TextMode := ⟨80, 25, by decide, by decide, by decide⟩

def TextMode.cells (t : TextMode) : ℕ := t.maxRows * t.maxCols

def whiteOnBlack : UInt8 := 0x0f
def redOnWhite : UInt8 := 0xf4
def newline : UInt8 := 10
def space : UInt8 := 32

structure Vga where
  vidmem : ℤ → UInt8
  /-- CRTC register 14. -/
  cursorHigh : UInt8
  /-- CRTC register 15. -/
  cursorLow : UInt8

def Vga.poke (v : Vga) (offset : ℤ) (b : UInt8) : Vga :=
  {v with vidmem := Function.update v.vidmem offset b}

/- The character byte of cell `k`. -/
def Vga.cell (v : Vga) (k : ℕ) : UInt8 := v.vidmem (2 * k)

/-! ### Offsets (`screen.c:281-324`, VGA branches) -/

def vgaGetOffset (t : TextMode) (col row : ℤ) : ℤ := wrap32 (2 * (row * t.maxCols + col))

def vgaOffsetRow (t : TextMode) (offset : ℤ) : ℤ := offset.tdiv (2 * t.maxCols)

def vgaOffsetCol (t : TextMode) (offset : ℤ) : ℤ :=
  (offset - vgaOffsetRow t offset * 2 * t.maxCols).tdiv 2

/-! ### Cursor registers (`screen.c:205-259`, VGA branches) -/

def Vga.getCursorOffset (v : Vga) : ℤ := (v.cursorHigh.toNat * 256 + v.cursorLow.toNat : ℕ) * 2

def Vga.setCursorOffset (v : Vga) (offset : ℤ) : Vga :=
  let position := offset.tdiv 2
  {v with cursorHigh := toByte (position / 256), cursorLow := toByte position}

/-! ### Scrolling and printing (`screen.c:150-203`) -/

/-- `memory_copy` (`mem.c:3-10`) on video memory. -/
def memoryCopy (m : ℤ → UInt8) (dest source : ℤ) (nbytes : ℕ) : ℤ → UInt8 :=
  loop nbytes (fun i m => Function.update m (dest + i) (m (source + i))) m

/- Rows `1 .. MAX_ROWS - 1` move up one by one, then the last row is zeroed. -/
def scrollMemory (t : TextMode) (m : ℤ → UInt8) : ℤ → UInt8 :=
  let moved := loop (t.maxRows - 1) (fun i m =>
    memoryCopy m (vgaGetOffset t 0 i) (vgaGetOffset t 0 (i + 1)) (t.maxCols * 2)) m
  loop (t.maxCols * 2) (fun i m =>
    Function.update m (vgaGetOffset t 0 (t.maxRows - 1) + i) 0) moved

/- `print_char` once the framebuffer branch is not taken and the screen is
available. The calls of `get_offset` and `get_cursor_offset` inside it take
their VGA branches for the same reason. -/
def Vga.printChar (t : TextMode) (auto : Bool) (v : Vga) (c : UInt8) (col row : ℤ)
    (attr : UInt8) : ℤ × Vga :=
  let attr := if attr = 0 then whiteOnBlack else attr
  if t.maxCols ≤ col ∨ t.maxRows ≤ row then
    (vgaGetOffset t col row,
      (v.poke (2 * t.maxCols * t.maxRows - 2) 69).poke (2 * t.maxCols * t.maxRows - 1) redOnWhite)
  else
    let offset := if 0 ≤ col ∧ 0 ≤ row then vgaGetOffset t col row else v.getCursorOffset
    let (offset, v) :=
      if c = newline then (vgaGetOffset t 0 (vgaOffsetRow t offset + 1), v)
      else (wrap32 (offset + 2), (v.poke offset c).poke (offset + 1) attr)
    let (offset, v) :=
      if t.maxRows * t.maxCols * 2 ≤ offset then
        (offset - 2 * t.maxCols, {v with vidmem := scrollMemory t v.vidmem})
      else (offset, v)
    (offset, if auto then v.setCursorOffset offset else v)

/-- The loop of `clear_screen` (`screen.c:269-277`). -/
def Vga.clear (t : TextMode) (v : Vga) : Vga :=
  let v := loop (t.maxCols * t.maxRows) (fun i v =>
    (v.poke (2 * i) space).poke (2 * i + 1) whiteOnBlack) v
  v.setCursorOffset (vgaGetOffset t 0 0)

end CasseOS.Screen
