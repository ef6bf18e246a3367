import CasseOS.Screen.Framebuffer

/-! # The console API (`drivers/screen/screen.c`)

Every function of the API first asks `framebuffer_console_is_ready() &&
fb_console_use()` and takes its framebuffer branch when that holds. Asking
refreshes `fb_console_state`, so the functions pass the screen along. Strings
are byte lists; a list ends like a C string, at its end or at a NUL byte. -/

namespace CasseOS.Screen
open CInt Loop

structure Console where
  /-- `screen_available`. -/
  available : Bool
  /-- `screen_auto_cursor`. -/
  autoCursor : Bool
  vga : Vga
  fb : Fb

/- `framebuffer_console_is_ready() && fb_console_use()`. -/
def usesFb (s : Console) : Bool × Console :=
  if s.fb.ready then
    let (ok, fb) := fbConsoleUse s.fb
    (ok, {s with fb})
  else (false, s)

/-- `get_offset` (`screen.c:281-295`). -/
def getOffset (t : TextMode) (s : Console) (col row : ℤ) : ℤ × Console :=
  let (ok, s) := usesFb s
  if ok then
    let col := if col < 0 then 0 else col
    let row := if row < 0 then 0 else row
    let cols := wrap32 s.fb.con.cols
    let rows := wrap32 s.fb.con.rows
    if cols ≤ 0 ∨ rows ≤ 0 then (0, s)
    else
      let col := if cols ≤ col then cols - 1 else col
      let row := if rows ≤ row then rows - 1 else row
      (wrap32 (2 * (row * cols + col)), s)
  else (vgaGetOffset t col row, s)

/-- `get_vga_offset_row` (`screen.c:297-307`). -/
def getVgaOffsetRow (t : TextMode) (s : Console) (offset : ℤ) : ℤ × Console :=
  let (ok, s) := usesFb s
  if ok then
    let cols := wrap32 s.fb.con.cols
    if cols ≤ 0 then (0, s) else ((offset.tdiv 2).tdiv cols, s)
  else (vgaOffsetRow t offset, s)

/-- `get_vga_offset_col` (`screen.c:309-319`). -/
def getVgaOffsetCol (t : TextMode) (s : Console) (offset : ℤ) : ℤ × Console :=
  let (ok, s) := usesFb s
  if ok then
    let cols := wrap32 s.fb.con.cols
    if cols ≤ 0 then (0, s) else ((offset.tdiv 2).tmod cols, s)
  else (vgaOffsetCol t offset, s)

/-- `get_cursor_offset` (`screen.c:205-226`). -/
def getCursorOffset (s : Console) : ℤ × Console :=
  let (ok, s) := usesFb s
  if ok then
    let cols := wrap32 s.fb.con.cols
    if cols ≤ 0 then (0, s)
    else
      let index := wrap32 (u32 (s.fb.con.cursorRow * toU32 cols + s.fb.con.cursorCol))
      (wrap32 (index * 2), s)
  else if !s.available then (0, s)
  else (s.vga.getCursorOffset, s)

/-- `set_cursor_offset` (`screen.c:228-259`). -/
def setCursorOffset (s : Console) (offset : ℤ) : Console :=
  let (ok, s) := usesFb s
  if ok then
    let offset := if offset < 0 then 0 else offset
    let cols := wrap32 s.fb.con.cols
    if cols ≤ 0 then s
    else
      let index := offset.tdiv 2
      let row := index.tdiv cols
      let col := index.tmod cols
      let row := if row < 0 then 0 else row
      let col := if col < 0 then 0 else col
      let row := if wrap32 s.fb.con.rows ≤ row then wrap32 s.fb.con.rows - 1 else row
      let col := if wrap32 s.fb.con.cols ≤ col then wrap32 s.fb.con.cols - 1 else col
      {s with fb := {s.fb with con := {s.fb.con with cursorRow := toU32 row, cursorCol := toU32 col}}}
  else if !s.available then s
  else {s with vga := s.vga.setCursorOffset offset}

/-- `print_char` (`screen.c:150-203`). -/
def printChar (t : TextMode) (s : Console) (c : UInt8) (col row : ℤ) (attr : UInt8) : ℤ × Console :=
  let (ok, s) := usesFb s
  if ok then
    let (offset, fb) := fbConsolePrintChar s.fb c col row
    let s := {s with fb}
    (offset, if s.autoCursor then setCursorOffset s offset else s)
  else if !s.available then getOffset t s col row
  else
    let (offset, vga) := s.vga.printChar t s.autoCursor c col row attr
    (offset, {s with vga})

/-- The printing loop of `kprint_at` (`screen.c:109-115`). -/
def kprintLoop (t : TextMode) : Console → List UInt8 → ℤ → ℤ → Console
  | s, [], _, _ => s
  | s, c :: message, col, row =>
    if c = 0 then s
    else
      let (offset, s) := printChar t s c col row whiteOnBlack
      let (row, s) := getVgaOffsetRow t s offset
      let (col, s) := getVgaOffsetCol t s offset
      kprintLoop t s message col row

/-- `kprint_at` (`screen.c:94-116`). -/
def kprintAt (t : TextMode) (s : Console) (message : List UInt8) (col row : ℤ) : Console :=
  if !s.available && !s.fb.ready then s
  else if 0 ≤ col ∧ 0 ≤ row then kprintLoop t (getOffset t s col row).2 message col row
  else
    let (offset, s) := getCursorOffset s
    let (row, s) := getVgaOffsetRow t s offset
    let (col, s) := getVgaOffsetCol t s offset
    kprintLoop t s message col row

/-- `kprint` (`screen.c:118-123`). -/
def kprint (t : TextMode) (s : Console) (message : List UInt8) : Console :=
  if !s.available && !s.fb.ready then s else kprintAt t s message (-1) (-1)

/-- `kprint_backspace` (`screen.c:125-134`). -/
def kprintBackspace (t : TextMode) (s : Console) : Console :=
  if !s.available && !s.fb.ready then s
  else
    let (cursor, s) := getCursorOffset s
    let offset := wrap32 (cursor - 2)
    let (row, s) := getVgaOffsetRow t s offset
    let (col, s) := getVgaOffsetCol t s offset
    setCursorOffset (printChar t s 0 col row whiteOnBlack).2 offset

/-- `clear_screen` (`screen.c:261-278`). -/
def clearScreen (t : TextMode) (s : Console) : Console :=
  let (ok, s) := usesFb s
  if ok then {s with fb := fbConsoleClear s.fb}
  else if !s.available then s
  else {s with vga := s.vga.clear t}

/-! ### Operations of the console API -/

inductive ConsoleOp where
  | clear
  | print (message : List UInt8)
  | printAt (message : List UInt8) (col row : ℤ)
  | setCursor (offset : ℤ)
  | backspace

def consoleStep (t : TextMode) (s : Console) : ConsoleOp → Console
  | .clear => clearScreen t s
  | .print message => kprint t s message
  | .printAt message col row => kprintAt t s message col row
  | .setCursor offset => setCursorOffset s offset
  | .backspace => kprintBackspace t s

end CasseOS.Screen
