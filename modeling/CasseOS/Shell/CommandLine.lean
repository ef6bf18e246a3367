import CasseOS.Keyboard.Keycode
import CasseOS.Screen.VgaConsole

/-! # The command line (`kernel/shell/command_line.c`)

The static variables of `command_line.c`, the buffer `command` it is given and
the console it draws on form one state. An access outside the buffer, or a
print of a buffer that holds no NUL, faults (`none`). The only caller passes
the address of an array, so the tests for a NULL buffer are left out. -/

namespace CasseOS.Shell
open CInt Keyboard Screen

def maxCommandLength : ℕ := 2000

structure CmdState where
  command : ℕ → UInt8
  cmdStartOffset : ℤ
  cmdCursor : ℕ
  cmdLen : ℕ
  console : Console

/-! ### Access to the buffer -/

def load (command : ℕ → UInt8) (i : ℕ) : Option UInt8 :=
  if i < maxCommandLength then some (command i) else none

def store (command : ℕ → UInt8) (i : ℕ) (c : UInt8) : Option (ℕ → UInt8) :=
  if i < maxCommandLength then some (Function.update command i c) else none

/- The C string in the buffer. -/
def commandString (command : ℕ → UInt8) : Option (List UInt8) :=
  let bytes := (List.range maxCommandLength).map command
  if 0 ∈ bytes then some (cstr bytes) else none

/-! ### Drawing -/

/-- The blanking loop (`command_line.c:18-24`). -/
def blankLoop (t : TextMode) : ℕ → ℤ → Console → Console
  | 0, _, s => s
  | n + 1, blankOffset, s =>
    let (blankRow, s) := getVgaOffsetRow t s blankOffset
    let (blankCol, s) := getVgaOffsetCol t s blankOffset
    blankLoop t n (wrap32 (blankOffset + 2)) (kprintAt t s [space] blankCol blankRow)

/-- `refresh_command_visual` (`command_line.c:10-28`). -/
def refreshCommandVisual (t : TextMode) (st : CmdState) (previousLen : ℕ) : Option CmdState := do
  let baseOffset := wrap32 (st.cmdStartOffset * 2)
  let (row, s) := getVgaOffsetRow t st.console baseOffset
  let (col, s) := getVgaOffsetCol t s baseOffset
  let text ← commandString st.command
  let s := kprintAt t s text col row
  let s := blankLoop t (previousLen - st.cmdLen) (wrap32 ((st.cmdStartOffset + st.cmdLen) * 2)) s
  let s := setCursorOffset s (wrap32 ((st.cmdStartOffset + st.cmdCursor) * 2))
  return {st with console := s}

/-- `init_command_line` (`command_line.c:30-32`). -/
def initCommandLine (st : CmdState) (startOffset : ℤ) : CmdState :=
  {st with cmdStartOffset := startOffset}

/- `set_cursor_offset((cmd_start_offset + cmd_cursor) * 2)`. -/
def showCursor (st : CmdState) : CmdState :=
  {st with console :=
    setCursorOffset st.console (wrap32 ((st.cmdStartOffset + st.cmdCursor) * 2))}

/-! ### Editing -/

/- The loop of `delete_at`; `n` is `cmd_len - i`. -/
def deleteLoop : ℕ → ℕ → (ℕ → UInt8) → Option (ℕ → UInt8)
  | 0, _, command => some command
  | n + 1, i, command => do
    let c ← load command (i + 1)
    let command ← store command i c
    deleteLoop n (i + 1) command

/-- `delete_at` (`command_line.c:34-39`). -/
def deleteAt (command : ℕ → UInt8) (cmdLen position : ℕ) : Option (ℕ → UInt8) :=
  deleteLoop (cmdLen - position) position command

/- The loop of `insert_at`; `n` is `i - position`. -/
def insertLoop : ℕ → ℕ → (ℕ → UInt8) → Option (ℕ → UInt8)
  | 0, _, command => some command
  | n + 1, position, command => do
    let c ← load command (position + n)
    let command ← store command (position + n + 1) c
    insertLoop n position command

/-- `insert_at` (`command_line.c:41-47`). -/
def insertAt (command : ℕ → UInt8) (cmdLen position : ℕ) (c : UInt8) : Option (ℕ → UInt8) := do
  let command ← insertLoop (cmdLen - position) position command
  store command position c

/-- `handle_command_line` (`command_line.c:49-114`). -/
def handleCommandLine (t : TextMode) (st : CmdState) (code : Keycode) :
    Option (Bool × CmdState) := do
  if code = kcEnter then
    let command ← store st.command st.cmdLen 0
    return (true, {st with command})
  let prevLen := st.cmdLen
  if code = kcBackspace then
    if 0 < st.cmdCursor then
      let st := {st with cmdCursor := st.cmdCursor - 1}
      let command ← deleteAt st.command st.cmdLen st.cmdCursor
      let st := {st with command, cmdLen := if 0 < st.cmdLen then st.cmdLen - 1 else st.cmdLen}
      let st ← refreshCommandVisual t st prevLen
      return (false, st)
    return (false, st)
  if code = kcDelete then
    if st.cmdCursor < st.cmdLen then
      let command ← deleteAt st.command st.cmdLen st.cmdCursor
      let st := {st with command, cmdLen := if 0 < st.cmdLen then st.cmdLen - 1 else st.cmdLen}
      let st ← refreshCommandVisual t st prevLen
      return (false, st)
    return (false, st)
  if code = kcLeft then
    let st := if 0 < st.cmdCursor then {st with cmdCursor := st.cmdCursor - 1} else st
    return (false, showCursor st)
  if code = kcRight then
    let st := if st.cmdCursor < st.cmdLen then {st with cmdCursor := u16 (st.cmdCursor + 1)} else st
    return (false, showCursor st)
  if code = kcHome then
    return (false, showCursor {st with cmdCursor := 0})
  if code = kcEnd then
    return (false, showCursor {st with cmdCursor := st.cmdLen})
  if 0x20 ≤ code ∧ code < 0x7F then
    if maxCommandLength - 1 ≤ st.cmdLen then
      return (false, st)
    let command ← insertAt st.command st.cmdLen st.cmdCursor code.toUInt8
    let cmdLen := u16 (st.cmdLen + 1)
    let command ← store command cmdLen 0
    let st := {st with command, cmdLen, cmdCursor := u16 (st.cmdCursor + 1)}
    let st ← refreshCommandVisual t st prevLen
    return (false, st)
  return (false, st)

/-- `flush_command_line` (`command_line.c:116-123`). -/
def flushCommandLine (st : CmdState) : CmdState :=
  {st with
    cmdCursor := 0, cmdLen := 0, command := Function.update st.command 0 0,
    console := setCursorOffset st.console (wrap32 (st.cmdStartOffset * 2))}

end CasseOS.Shell
